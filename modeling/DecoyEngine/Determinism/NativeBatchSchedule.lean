import DecoyEngine.Determinism.NativeBatchParity

namespace DecoyEngine.Determinism.Native

open DecoyEngine.Data DecoyEngine.Generation

/-! The batch kernels give what their row loops give, whatever the thread count. -/

theorem length_zeroPadded_le {width value digits : Nat} (small : value < 10 ^ digits) :
    (zeroPadded width value).length ≤ max width digits := by
  rw [zeroPadded]
  split
  · rw [List.length_map, List.length_reverse, length_fixedDigits]
    exact Nat.le_max_left _ _
  · rename_i wide
    have positive : 0 < value := Nat.lt_of_lt_of_le (Nat.pow_pos (by decide)) (Nat.not_lt.mp wide)
    have short := Nat.log_lt_of_lt_pow (by omega) small
    rw [length_natText positive]
    omega

theorem length_signedPadded_le {width digits : Nat} {value : Int}
    (small : value.natAbs < 10 ^ digits) :
    (signedPadded width value).length ≤ max width digits + 1 := by
  cases value with
  | ofNat value =>
      have bound := @length_zeroPadded_le width value digits small
      exact Nat.le_succ_of_le bound
  | negSucc value =>
      have bound := @length_zeroPadded_le (width - 1) (value + 1) digits small
      rw [signedPadded, List.length_cons]
      omega

theorem civilOfDays_small (days : Int) :
    (civilOfDays days).month < 10 ^ 6 ∧ (civilOfDays days).day < 10 ^ 6 := by
  have within : (((days + 719468) % 146097).toNat) < 146097 := by omega
  simp only [civilOfDays]
  generalize ((days + 719468) % 146097).toNat = dayOfEra at within
  generalize (dayOfEra - dayOfEra / 1460 + dayOfEra / 36524 - dayOfEra / 146096) / 365 = yearOfEra
  have month : (5 * (dayOfEra - (365 * yearOfEra + yearOfEra / 4 - yearOfEra / 100)) + 2) / 153
      < 10 ^ 5 := by omega
  constructor
  · split <;> omega
  · omega

/-- Fields of a `NaiveDateTime` are short numbers. -/
def ShortFields (fields : ClockFields) : Prop :=
  (fields.date.year.natAbs < 10 ^ 6 ∧ fields.date.month < 10 ^ 6 ∧ fields.date.day < 10 ^ 6) ∧
    fields.hour < 10 ^ 6 ∧ fields.minute < 10 ^ 6 ∧ fields.second < 10 ^ 6 ∧ fields.nanos < 10 ^ 9

theorem fromTimestamp_short {secs : Int} {nanos : Nat} {fields : ClockFields}
    (subsecond : nanos < 10 ^ 9) (made : Generation.Native.fromTimestamp secs nanos = some fields) :
    ShortFields fields := by
  rw [Generation.Native.fromTimestamp] at made
  split at made
  · rename_i years
    cases made
    simp only [Generation.Native.chronoYears] at years
    have small := civilOfDays_small (secs / 86400)
    have ofDay : (secs % 86400).toNat < 86400 := by omega
    exact ⟨⟨by dsimp only; omega, small.1, small.2⟩, by dsimp only; omega, by dsimp only; omega,
      by dsimp only; omega, subsecond⟩
  · cases made

theorem toDatetime_short {unit : TimeUnit} {ticks : Int} {fields : ClockFields}
    (made : Generation.Native.toDatetime unit ticks = some fields) : ShortFields fields := by
  cases unit with
  | second => exact fromTimestamp_short (by decide) made
  | millisecond => exact fromTimestamp_short (by omega) made
  | microsecond => exact fromTimestamp_short (by omega) made
  | nanosecond => exact fromTimestamp_short (by omega) made

theorem length_secondsText {fields : ClockFields} (short : ShortFields fields) :
    fields.secondsText.length ≤ 50 := by
  obtain ⟨⟨year, month, day⟩, hour, minute, second, -⟩ := short
  have yearText := @length_signedPadded_le 4 6 fields.date.year year
  have monthText := @length_zeroPadded_le 2 fields.date.month 6 month
  have dayText := @length_zeroPadded_le 2 fields.date.day 6 day
  have hourText := @length_zeroPadded_le 2 fields.hour 6 hour
  have minuteText := @length_zeroPadded_le 2 fields.minute 6 minute
  have secondText := @length_zeroPadded_le 2 fields.second 6 second
  simp only [ClockFields.secondsText, Civil.isoText, List.length_append, List.length_cons]
  omega

theorem length_encodeTimestamp {unit : TimeUnit} {ticks : Int} {bytes : Bytes}
    (encoded : Generation.Native.encodeTimestamp unit ticks = .ok bytes) :
    bytes.length < 2 ^ 32 := by
  rw [Generation.Native.encodeTimestamp] at encoded
  cases made : Generation.Native.toDatetime unit ticks with
  | none =>
      rw [made] at encoded
      cases encoded
  | some fields =>
      rw [made] at encoded
      cases encoded
      have short := toDatetime_short made
      have seconds := length_secondsText short
      have micros : fields.nanos / 1000 < 10 ^ 9 := by
        have nanos := short.2.2.2.2
        omega
      have sixDigits := @length_zeroPadded_le 6 (fields.nanos / 1000) 9 micros
      have nineDigits := @length_zeroPadded_le 9 fields.nanos 9 short.2.2.2.2
      have fraction : (if fields.nanos = 0 then []
          else if fields.nanos % 1000 = 0 then '.' :: zeroPadded 6 (fields.nanos / 1000)
          else '.' :: zeroPadded 9 fields.nanos).length ≤ 10 := by
        split
        · exact Nat.zero_le _
        · split
          · rw [List.length_cons]
            omega
          · rw [List.length_cons]
            omega
      have chars := length_utf8_le (fields.secondsText ++
        (if fields.nanos = 0 then []
          else if fields.nanos % 1000 = 0 then '.' :: zeroPadded 6 (fields.nanos / 1000)
          else '.' :: zeroPadded 9 fields.nanos) ++ utcOffset)
      rw [List.length_append, List.length_append] at chars
      have offset : utcOffset.length = 6 := rfl
      rw [encodeText]
      omega

section Sources

variable {nfc : String → String} {dataType : DataType} {slot : Option Cell}

theorem canonicalizeRow_some (known : ∀ debug, dataType ≠ .other debug) (cell : Cell) :
    canonicalizeRow nfc dataType (some cell) =
      (Generation.Native.canonicalizeRow nfc cell).map some := by
  cases dataType with
  | other debug => exact absurd rfl (known debug)
  | _ => rfl

theorem canonicalizeRow_presence {source : Option Bytes}
    (ran : canonicalizeRow nfc dataType slot = .ok source) : source.isSome = slot.isSome := by
  cases slot with
  | none =>
      cases ran
      rfl
  | some cell =>
      by_cases known : ∀ debug, dataType ≠ .other debug
      · rw [canonicalizeRow_some known] at ran
        cases canonical : Generation.Native.canonicalizeRow nfc cell with
        | error error =>
            rw [canonical] at ran
            cases ran
        | ok bytes =>
            rw [canonical] at ran
            cases ran
            rfl
      · simp only [not_forall, not_not] at known
        obtain ⟨debug, rfl⟩ := known
        cases ran

theorem canonicalizeRow_or (nfc : String → String) (admitted : dataType.isAdmittedType = true) :
    (∀ slot : Option Cell, (∀ cell, slot = some cell → dataType.Holds cell) →
      ∃ source, canonicalizeRow nfc dataType slot = .ok source) ∨
    ∀ slot : Option Cell, (∀ cell, slot = some cell → dataType.Holds cell) → ∀ source,
      canonicalizeRow nfc dataType slot = .ok (some source) → source.length < 2 ^ 32 := by
  cases dataType with
  | other debug => cases admitted
  | timestamp unit timezone =>
      right
      intro slot holds source ran
      cases slot with
      | none => cases ran
      | some cell =>
          have typed := holds cell rfl
          cases cell with
          | timestamp unit' timezone' ticks =>
              obtain ⟨rfl, rfl⟩ := typed
              cases timezone' with
              | none => cases admitted
              | some zone =>
                  rw [canonicalizeRow_some fun debug same => by cases same] at ran
                  cases encoded : Generation.Native.encodeTimestamp unit' ticks.toInt with
                  | error error =>
                      simp [Generation.Native.canonicalizeRow, encoded, Except.map] at ran
                  | ok bytes =>
                      simp only [Generation.Native.canonicalizeRow, encoded, Except.map,
                        Except.ok.injEq, Option.some.injEq] at ran
                      rw [← ran]
                      exact length_encodeTimestamp encoded
          | _ => cases typed
  | _ =>
      left
      intro slot holds
      cases slot with
      | none => exact ⟨none, rfl⟩
      | some cell =>
          have typed := holds cell rfl
          cases cell <;> first | exact ⟨_, rfl⟩ | cases typed

end Sources

section Context

variable {mac : Bytes → Bytes → Bytes} {hkdf : HkdfCrate mac} {maskKey : Bytes}
  {namespaceName : String} {ctx : DeriveContext}

theorem deriveMac_of_ready (ready : DeriveContext.new hkdf maskKey namespaceName = .ok ctx)
    (source : Bytes) : deriveMac hkdf maskKey namespaceName source = ctx.deriveRow source := by
  rw [← deriveRow_eq maskKey namespaceName source hkdf, ready]
  rfl

theorem deriveMac_of_refused {error : DeriveError}
    (refused : DeriveContext.new hkdf maskKey namespaceName = .error error) (source : Bytes) :
    deriveMac hkdf maskKey namespaceName source = .error error := by
  rw [← deriveRow_eq maskKey namespaceName source hkdf, refused]
  rfl

theorem deriveToken_of_refused {error : DeriveError}
    (refused : DeriveContext.new hkdf maskKey namespaceName = .error error)
    (token : Bytes → String) (source : Bytes) :
    deriveToken hkdf maskKey namespaceName token (some source) = .error (.derive error) := by
  rw [deriveToken, deriveSource, deriveMac_of_refused refused]
  rfl

theorem deriveSource_of_short (ready : DeriveContext.new hkdf maskKey namespaceName = .ok ctx)
    {source : Option Bytes} (short : ∀ bytes, source = some bytes → bytes.length < 2 ^ 32) :
    ∃ digest, deriveSource hkdf maskKey namespaceName source = .ok digest := by
  cases source with
  | none => exact ⟨none, rfl⟩
  | some bytes =>
      have fits := short bytes rfl
      rw [deriveSource, deriveMac_of_ready ready, DeriveContext.deriveRow, checkedFrameLength,
        if_pos fits]
      exact ⟨_, rfl⟩

variable {nfc : String → String}

theorem digestRow_eq (ready : DeriveContext.new hkdf maskKey namespaceName = .ok ctx)
    (dataType : DataType) (slot : Option Cell) :
    digestRow nfc mac ctx dataType slot =
      ((canonicalizeRow nfc dataType slot).mapError .canon >>= fun source =>
        deriveSource hkdf maskKey namespaceName source) := by
  rw [digestRow]
  cases canonicalizeRow nfc dataType slot with
  | error error => rfl
  | ok source =>
      cases source with
      | none => rfl
      | some bytes =>
          change _ = deriveSource hkdf maskKey namespaceName (some bytes)
          rw [deriveSource, deriveMac_of_ready ready]

theorem digestRow_sized (size : ∀ key message, (mac key message).length = 32)
    {dataType : DataType} {slot : Option Cell} {digest : Option Bytes}
    (ran : digestRow nfc mac ctx dataType slot = .ok digest) :
    digest.isSome = slot.isSome ∧ ∀ bytes, digest = some bytes → bytes.length = 32 := by
  rw [digestRow] at ran
  cases canonical : canonicalizeRow nfc dataType slot with
  | error error =>
      rw [canonical] at ran
      cases ran
  | ok source =>
      rw [← canonicalizeRow_presence canonical]
      rw [canonical] at ran
      cases source with
      | none =>
          cases ran
          exact ⟨rfl, nofun⟩
      | some bytes =>
          dsimp only at ran
          cases derived : ctx.deriveRow bytes with
          | error error =>
              rw [derived] at ran
              cases ran
          | ok state =>
              rw [derived] at ran
              cases ran
              refine ⟨rfl, fun bytes same => ?_⟩
              rw [← Option.some.inj same]
              exact size _ _

theorem hashRow_shaped (size : ∀ key message, (mac key message).length = 32)
    {dataType : DataType} {truncate : Option Int} {slot : Option Cell} {token : Option Bytes}
    (ran : hashRow nfc mac ctx dataType truncate slot = .ok token) :
    Shaped (constantOutputWidth truncate) slot token := by
  rw [hashRow] at ran
  cases digested : digestRow nfc mac ctx dataType slot with
  | error error =>
      rw [digested] at ran
      cases ran
  | ok digest =>
      rw [digested] at ran
      cases ran
      obtain ⟨presence, width⟩ := digestRow_sized size digested
      cases digest with
      | none => exact ⟨⟨presence, nofun⟩, nofun⟩
      | some bytes =>
          have constant := length_hexTokenInto_constant (width bytes rfl) truncate
          refine ⟨⟨presence, fun token same => ?_⟩, fun token same => ?_⟩
          · rw [← Option.some.inj same, constant]
          · rw [← Option.some.inj same]
            exact isUtf8_utf8 _

theorem rawRow_shaped (size : ∀ key message, (mac key message).length = 32) {hexChars : Nat}
    (even : hexChars % 2 = 0) (within : hexChars ≤ hexLen) {value : Option String}
    {token : Option Bytes} (ran : rawRow mac ctx (hexChars / 2) value = .ok token) :
    Shaped hexChars value token := by
  cases value with
  | none =>
      cases ran
      exact ⟨⟨rfl, nofun⟩, nofun⟩
  | some text =>
      rw [rawRow] at ran
      cases derived : ctx.deriveRow (utf8 text) with
      | error error =>
          rw [derived] at ran
          cases ran
      | ok state =>
          rw [derived] at ran
          cases ran
          refine ⟨⟨rfl, fun token same => ?_⟩, fun token same => ?_⟩
          · rw [← Option.some.inj same]
            exact length_hexPrefixInto (size _ _) even within
          · rw [← Option.some.inj same]
            exact isUtf8_utf8 _

end Context

theorem map_bind {α β γ ε : Type} (x : Except ε α) (f : α → Except ε β) (g : β → γ) :
    (x >>= f).map g = x >>= fun value => (f value).map g := by
  cases x <;> rfl

/-- The two passes of the row loop over a column that the kernels admit are one. -/
theorem two_passes (nfc : String → String) {mac : Bytes → Bytes → Bytes} {hkdf : HkdfCrate mac}
    {maskKey : Bytes} {namespaceName : String} {ctx : DeriveContext}
    (ready : DeriveContext.new hkdf maskKey namespaceName = .ok ctx) (array : ArrowArray)
    (admitted : array.dataType.isAdmittedType = true) (truncate : Option Int) :
    (match array.slots.mapM (canonicalizeRow nfc array.dataType) with
      | .error error => .error (.canon error)
      | .ok sources =>
          sources.mapM (deriveToken hkdf maskKey namespaceName (hexTokenInto · truncate))) =
      array.slots.mapM (hashRow nfc mac ctx array.dataType truncate) := by
  have rows : hashRow nfc mac ctx array.dataType truncate = fun slot =>
      (canonicalizeRow nfc array.dataType slot).mapError BatchError.canon >>=
        deriveToken hkdf maskKey namespaceName (hexTokenInto · truncate) := by
    funext slot
    rw [hashRow, digestRow_eq ready, map_bind]
    rfl
  have holds : ∀ slot ∈ array.slots, ∀ cell, slot = some cell → array.dataType.Holds cell := by
    rintro slot member cell rfl
    exact array.typed cell member
  rw [rows, ← mapM_fuse, mapM_mapError]
  · cases array.slots.mapM (canonicalizeRow nfc array.dataType) <;> rfl
  · rcases canonicalizeRow_or nfc admitted with total | short
    · left
      intro slot member
      obtain ⟨source, ran⟩ := total slot (holds slot member)
      exact ⟨source, by rw [ran]; rfl⟩
    · right
      intro slot member source ran
      cases canonical : canonicalizeRow nfc array.dataType slot with
      | error error =>
          rw [canonical] at ran
          cases ran
      | ok other =>
          rw [canonical] at ran
          cases ran
          have small : ∀ bytes, source = some bytes → bytes.length < 2 ^ 32 := by
            rintro bytes rfl
            exact short slot (holds slot member) bytes canonical
          obtain ⟨digest, derived⟩ := deriveSource_of_short ready small
          exact ⟨_, by rw [deriveToken, derived]; rfl⟩

theorem mapM_nulls {α β ε : Type} (row : Option α → Except ε (Option β))
    (nothing : row none = .ok none) {slots : List (Option α)} (empty : nonNull slots = 0) :
    slots.mapM row = .ok (slots.map fun _ => none) := by
  rw [mapM_eq_ok, List.forall₂_map_right_iff, List.forall₂_same]
  intro slot member
  have absent := List.countP_eq_zero.mp empty slot member
  cases slot with
  | none => exact nothing
  | some value => exact absurd rfl absent

theorem exists_firstNonNull {α : Type} {slots : List (Option α)} (valid : nonNull slots ≠ 0) :
    ∃ nulls value rest, slots = nulls ++ some value :: rest ∧ ∀ slot ∈ nulls, slot = none := by
  induction slots with
  | nil => exact absurd rfl valid
  | cons slot slots ih =>
      cases slot with
      | some value => exact ⟨[], value, slots, rfl, List.forall_mem_nil _⟩
      | none =>
          have later : nonNull slots ≠ 0 := by
            rw [nonNull_cons] at valid
            simpa using valid
          obtain ⟨nulls, value, rest, split, blank⟩ := ih later
          exact ⟨none :: nulls, value, rest, by rw [split]; rfl,
            List.forall_mem_cons.mpr ⟨rfl, blank⟩⟩

theorem nonNull_nulls {α β : Type} (slots : List α) :
    nonNull (slots.map fun _ => (none : Option β)) = 0 := by
  rw [nonNull, List.countP_map]
  exact List.countP_eq_zero.mpr fun _ _ => Bool.false_ne_true

theorem mapM_refused {α β : Type} (row : Option α → Except BatchError β) {error : BatchError}
    (nothing : ∃ value, row none = .ok value) (refused : ∀ value, row (some value) = .error error)
    {slots : List (Option α)} (valid : nonNull slots ≠ 0) : slots.mapM row = .error error := by
  obtain ⟨nulls, value, rest, split, blank⟩ := exists_firstNonNull valid
  rw [split]
  refine mapM_append_error _ (fun slot member => ?_) (refused value)
  rw [blank slot member]
  exact nothing

theorem validity_of_mapM {α β ε : Type} {f : Option α → Except ε (Option β)}
    (presence : ∀ slot value, f slot = .ok value → slot.isSome = value.isSome)
    {slots : List (Option α)} {values : List (Option β)} (ran : slots.mapM f = .ok values) :
    slots.map Option.isSome = values.map Option.isSome := by
  have related := mapM_eq_ok.mp ran
  clear ran
  induction related with
  | nil => rfl
  | cons head tail ih => rw [List.map_cons, List.map_cons, ih, presence _ _ head]

theorem nonNull_of_validity {α β : Type} {slots : List (Option α)} {values : List (Option β)}
    (same : slots.map Option.isSome = values.map Option.isSome) :
    nonNull values = nonNull slots := by
  have counted := congrArg (List.countP id) same
  rw [List.countP_map, List.countP_map] at counted
  exact counted.symm

/-- A kernel against its row loop, with the batches it refuses before any row; `fits` is what its
arrays keep. -/
structure FollowsRowLoop {δ γ : Type}
    (kernel : Except (String × String) Unit → (threads : Nat) → Except BatchFailure δ)
    (rows : δ → List (Option γ)) (loop : Except BatchError (List (Option γ)))
    (overflow : Prop) (fits : δ → Prop) : Prop where
  schedule : ∀ pool threads, kernel pool threads = kernel (.ok ()) 1 ∨
    PoolRefuses pool threads (kernel pool threads)
  overflowing : overflow → kernel (.ok ()) 1 = .error (.error .offsetOverflow)
  outcome : ¬ overflow → (kernel (.ok ()) 1).map rows = loop.mapError .error
  bounded : ∀ made, kernel (.ok ()) 1 = .ok made → fits made

theorem PoolRefuses.not_built {δ : Type} {threads : Nat} {result : Except BatchFailure δ} :
    ¬ PoolRefuses (.ok ()) threads result := by
  rintro ⟨code, detail, refused, -⟩
  cases refused

section Follows

variable {δ γ : Type} {kernel : Except (String × String) Unit → Nat → Except BatchFailure δ}
  {rows : δ → List (Option γ)} {loop : Except BatchError (List (Option γ))} {overflow : Prop}
  {fits : δ → Prop}

theorem FollowsRowLoop.of_filled (result : Except BatchFailure δ)
    (filled : ∀ pool threads, kernel pool threads = result ∨
      PoolRefuses pool threads (kernel pool threads))
    (reached : ¬ overflow) (outcome : result.map rows = loop.mapError .error)
    (bounded : ∀ made, result = .ok made → fits made) :
    FollowsRowLoop kernel rows loop overflow fits := by
  have serial : kernel (.ok ()) 1 = result :=
    (filled (.ok ()) 1).resolve_right PoolRefuses.not_built
  refine ⟨fun pool threads => ?_, fun overflowed => absurd overflowed reached, fun _ => ?_, ?_⟩
  · rw [serial]
    exact filled pool threads
  · rw [serial, outcome]
  · rw [serial]
    exact bounded

theorem FollowsRowLoop.of_error (error : BatchError)
    (constant : ∀ pool threads, kernel pool threads = .error (.error error))
    (reached : ¬ overflow) (same : loop = .error error) :
    FollowsRowLoop kernel rows loop overflow fits :=
  .of_filled (.error (.error error)) (fun pool threads => Or.inl (constant pool threads)) reached
    (by rw [same]; rfl) nofun

theorem FollowsRowLoop.of_array (made : δ)
    (constant : ∀ pool threads, kernel pool threads = .ok made)
    (reached : ¬ overflow) (same : loop = .ok (rows made)) (bounded : fits made) :
    FollowsRowLoop kernel rows loop overflow fits := by
  refine .of_filled (.ok made) (fun pool threads => Or.inl (constant pool threads)) reached ?_ ?_
  · rw [same]
    rfl
  · intro other made'
    rwa [← Except.ok.inj made']

end Follows

/-- The bytes of a batch do not fit the offsets, and its key, type and seed have passed. -/
def Overflows {γ : Type} {mac : Bytes → Bytes → Bytes} (hkdf : HkdfCrate mac)
    (maskKey : Option Bytes) (namespaceName : String) (accepted : Prop) (width : Nat)
    (slots : List (Option γ)) : Prop :=
  accepted ∧ i32Max < width * nonNull slots ∧
    ∃ key ctx, requireMaskKey maskKey = .ok key ∧ DeriveContext.new hkdf key namespaceName = .ok ctx

/-- No offset wraps an `i32`. -/
def FitsOffsets (array : StringArray) : Prop := ∀ offset ∈ array.offsets, offset ≤ i32Max

theorem fitsOffsets_of_zeros {array : StringArray}
    (zeros : ∀ offset ∈ array.offsets, offset = 0) : FitsOffsets array := by
  intro offset member
  rw [zeros offset member]
  exact Nat.zero_le _

section Strings

variable {γ : Type} {width : Nat} {slots : List (Option γ)}
  {row : Option γ → Except BatchError (Option Bytes)}

theorem shaped_of_mapM {tokens : List (Option Bytes)}
    (shaped : ∀ slot ∈ slots, ∀ token, row slot = .ok token → Shaped width slot token)
    (ran : slots.mapM row = .ok tokens) : List.Forall₂ (Shaped width) slots tokens :=
  ((List.forall₂_and_left slots tokens).mpr ⟨fun _ member => member, mapM_eq_ok.mp ran⟩).imp
    fun slot token both => shaped slot both.1 token both.2

theorem stringsOf_rows (reason : String)
    (shaped : ∀ slot ∈ slots, ∀ token, row slot = .ok token → Shaped width slot token) :
    (stringsOf reason width slots (slots.mapM row)).map StringArray.rows =
      (slots.mapM row).mapError .error := by
  cases ran : slots.mapM row with
  | error error => rfl
  | ok tokens =>
      obtain ⟨array, made, -, rows⟩ := tryNew_rows reason (shaped_of_mapM shaped ran)
      rw [stringsOf, made]
      exact congrArg Except.ok rows

theorem fillStrings_overflow (reason : String) (pool : Except (String × String) Unit)
    (large : i32Max < width * nonNull slots) (threads : Nat) :
    fillStrings reason pool width row slots threads = .error (.error .offsetOverflow) := by
  have past : i32Max < 0 + width * nonNull slots := by omega
  rw [fillStrings, offsetsFrom_overflow (Nat.zero_le _) past]

theorem fillStrings_follows (reason : String) {loop : Except BatchError (List (Option Bytes))}
    (shaped : ∀ slot ∈ slots, ∀ token, row slot = .ok token → Shaped width slot token)
    (valid : nonNull slots ≠ 0) (same : loop = slots.mapM row) {overflow : Prop}
    (overflows : overflow ↔ i32Max < width * nonNull slots) :
    FollowsRowLoop (fun pool threads => fillStrings reason pool width row slots threads)
      StringArray.rows loop overflow FitsOffsets := by
  by_cases large : i32Max < width * nonNull slots
  · refine ⟨fun pool threads => Or.inl ?_, fun _ => ?_,
      fun fits => absurd (overflows.mpr large) fits, fun made filled => ?_⟩
    · rw [fillStrings_overflow reason pool large, fillStrings_overflow reason _ large]
    · exact fillStrings_overflow reason _ large 1
    · rw [fillStrings_overflow reason _ large] at filled
      cases filled
  · have sized := fun slot member token ran => (shaped slot member token ran).1
    refine .of_filled (stringsOf reason width slots (slots.mapM row))
      (fillStrings_eq reason · sized valid (Nat.not_lt.mp large) ·)
      (fun overflowed => large (overflows.mp overflowed))
      ((stringsOf_rows reason shaped).trans (by rw [same])) fun made filled offset member => ?_
    obtain ⟨tokens, ran⟩ : ∃ tokens, slots.mapM row = .ok tokens := by
      cases ran : slots.mapM row with
      | ok tokens => exact ⟨tokens, rfl⟩
      | error error =>
          rw [ran] at filled
          cases filled
    obtain ⟨array, built, offsets, -⟩ := tryNew_rows reason (shaped_of_mapM shaped ran)
    rw [ran, stringsOf, built] at filled
    cases filled
    rw [offsets] at member
    have bounds := offsetList_bounds width 0 slots offset member
    omega

end Strings

section Kernels

variable (nfc : String → String) {mac : Bytes → Bytes → Bytes} (hkdf : HkdfCrate mac)
  (reason : String) (array : ArrowArray) (maskKey : Option Bytes) (namespaceName : String)

/-- `derive_array` once the key and the type are admitted. -/
def hashSlots (pool : Except (String × String) Unit) (key : Bytes) (truncate : Option Int)
    (threads : Nat) : Except BatchFailure StringArray :=
  if nonNull array.slots = 0 then allNullStrings reason array.slots
  else
    match DeriveContext.new hkdf key namespaceName with
    | .error seedError =>
        match array.slots.mapM (canonicalizeRow nfc array.dataType) with
        | .error error => .error (.error (.canon error))
        | .ok _ => .error (.error (.derive seedError))
    | .ok ctx =>
        fillStrings reason pool (constantOutputWidth truncate)
          (hashRow nfc mac ctx array.dataType truncate) array.slots threads

/-- The row loop from there. -/
def hashSources (key : Bytes) (truncate : Option Int) :
    Except BatchError (List (Option Bytes)) :=
  match array.slots.mapM (canonicalizeRow nfc array.dataType) with
  | .error error => .error (.canon error)
  | .ok sources => sources.mapM (deriveToken hkdf key namespaceName (hexTokenInto · truncate))

/-- `derive_hex_raw_array` once the width and the type are admitted. -/
def rawSlots (pool : Except (String × String) Unit) (strings : List (Option String))
    (key : Bytes) (hexChars threads : Nat) : Except BatchFailure StringArray :=
  if nonNull strings = 0 then allNullStrings reason strings
  else
    match DeriveContext.new hkdf key namespaceName with
    | .error error => .error (.error (.derive error))
    | .ok ctx =>
        fillStrings reason pool hexChars (rawRow mac ctx (hexChars / 2)) strings threads

/-- `derive_index_array` from its first non-null cell on, where the refusals come in the order of
that one row. -/
def indexSlots (pool : Except (String × String) Unit) (cell : Cell) (key : Bytes)
    (poolSize : PoolSize) (threads : Nat) : Except BatchFailure UInt64Array :=
  match canonicalizeRow nfc array.dataType (some cell) with
  | .error error => .error (.error (.canon error))
  | .ok _ =>
      match poolSize.check with
      | .error error => .error (.error error)
      | .ok poolSize =>
          match DeriveContext.new hkdf key namespaceName with
          | .error error => .error (.error (.derive error))
          | .ok ctx =>
              fillIndices reason pool (indexRow nfc mac ctx array.dataType poolSize)
                array.slots threads

variable {hkdf maskKey namespaceName} in
theorem not_overflows_of_unkeyed {error : BatchError}
    (unkeyed : requireMaskKey maskKey = .error error) {γ : Type} {accepted : Prop} {width : Nat}
    {slots : List (Option γ)} :
    ¬ Overflows hkdf maskKey namespaceName accepted width slots := by
  rintro ⟨-, -, key, ctx, same, -⟩
  rw [unkeyed] at same
  cases same

variable {hkdf array maskKey namespaceName} in
/-- A string kernel whose key and input have passed: a batch of nulls, a seed that is refused, or
its rows. -/
theorem stringSlots_follow {γ : Type} {slots : List (Option γ)} {width : Nat} {accepted : Prop}
    {kernel : Except (String × String) Unit → Nat → Except BatchFailure StringArray}
    {loop : Except BatchError (List (Option Bytes))} {key : Bytes}
    (keyed : requireMaskKey maskKey = .ok key) (accepts : accepted)
    (counts : nonNull slots = nonNull array.slots)
    (nulls : nonNull slots = 0 →
      (∀ pool threads, kernel pool threads = allNullStrings reason slots) ∧
        loop = .ok (slots.map fun _ => none))
    (refused : nonNull slots ≠ 0 → ∀ seedError,
      DeriveContext.new hkdf key namespaceName = .error seedError →
      ∃ error, (∀ pool threads, kernel pool threads = .error (.error error)) ∧
        loop = .error error)
    (filled : nonNull slots ≠ 0 → ∀ ctx, DeriveContext.new hkdf key namespaceName = .ok ctx →
      ∃ row, (∀ slot ∈ slots, ∀ token, row slot = .ok token → Shaped width slot token) ∧
        (∀ pool threads, kernel pool threads = fillStrings reason pool width row slots threads) ∧
        loop = slots.mapM row) :
    FollowsRowLoop kernel StringArray.rows loop
      (Overflows hkdf maskKey namespaceName accepted width array.slots) FitsOffsets := by
  by_cases empty : nonNull slots = 0
  · obtain ⟨blank, same⟩ := nulls empty
    obtain ⟨made, built, zeros, rows⟩ := allNull_rows reason empty
    refine .of_array made (fun pool threads => (blank pool threads).trans built) ?_
      (same.trans (by rw [rows])) (fitsOffsets_of_zeros zeros)
    rintro ⟨-, large, -⟩
    rw [← counts, empty] at large
    exact absurd large (Nat.not_lt_zero _)
  · cases ready : DeriveContext.new hkdf key namespaceName with
    | error seedError =>
        obtain ⟨error, constant, same⟩ := refused empty seedError ready
        refine .of_error error constant ?_ same
        rintro ⟨-, -, other, ctx, keyed', made⟩
        rw [keyed] at keyed'
        cases keyed'
        rw [ready] at made
        cases made
    | ok ctx =>
        obtain ⟨row, shaped, kernels, same⟩ := filled empty ctx ready
        have overflows : Overflows hkdf maskKey namespaceName accepted width array.slots ↔
            i32Max < width * nonNull slots := by
          rw [counts]
          exact ⟨fun overflows => overflows.2.1,
            fun large => ⟨accepts, large, key, ctx, keyed, ready⟩⟩
        have follows := fillStrings_follows reason shaped empty same overflows
        have filling : kernel = fun pool threads =>
            fillStrings reason pool width row slots threads :=
          funext fun pool => funext fun threads => kernels pool threads
        rw [filling]
        exact follows

theorem deriveArray_follows (size : ∀ key message, (mac key message).length = 32)
    (truncate : Option Int) :
    FollowsRowLoop
      (fun pool threads =>
        deriveArray nfc hkdf reason pool array maskKey namespaceName truncate threads)
      StringArray.rows (deriveBatch nfc hkdf array maskKey namespaceName truncate)
      (Overflows hkdf maskKey namespaceName (array.dataType.isAdmittedType = true)
        (constantOutputWidth truncate) array.slots) FitsOffsets := by
  cases keyed : requireMaskKey maskKey with
  | error error =>
      refine .of_error error (fun pool threads => ?_) (not_overflows_of_unkeyed keyed) ?_
      · rw [deriveArray, keyed]
      · rw [deriveBatch, keyed]
  | ok key =>
      by_cases admitted : array.dataType.isAdmittedType = true
      · have kernel : ∀ pool threads,
            deriveArray nfc hkdf reason pool array maskKey namespaceName truncate threads =
              hashSlots nfc hkdf reason array namespaceName pool key truncate threads := by
          intro pool threads
          rw [deriveArray, keyed]
          exact if_neg (by simp [admitted])
        have loop : deriveBatch nfc hkdf array maskKey namespaceName truncate =
            hashSources nfc hkdf array namespaceName key truncate := by
          rw [deriveBatch, keyed]
          exact if_neg (by simp [admitted])
        refine stringSlots_follow reason keyed admitted rfl (fun empty => ⟨?_, ?_⟩)
          (fun valid seedError ready => ?_) fun valid ctx ready => ?_
        · intro pool threads
          rw [kernel, hashSlots, if_pos empty]
        · rw [loop, hashSources, mapM_nulls (canonicalizeRow nfc array.dataType) rfl empty]
          dsimp only
          rw [mapM_nulls (deriveToken hkdf key namespaceName _) rfl
            (nonNull_nulls array.slots), List.map_map]
          rfl
        · cases canonical : array.slots.mapM (canonicalizeRow nfc array.dataType) with
          | error error =>
              refine ⟨.canon error, fun pool threads => ?_, ?_⟩
              · rw [kernel, hashSlots, if_neg valid, ready, canonical]
              · rw [loop, hashSources, canonical]
          | ok sources =>
              have some' : nonNull sources ≠ 0 := by
                rwa [nonNull_of_validity (validity_of_mapM
                  (fun _ _ ran => (canonicalizeRow_presence ran).symm) canonical)]
              refine ⟨.derive seedError, fun pool threads => ?_, ?_⟩
              · rw [kernel, hashSlots, if_neg valid, ready, canonical]
              · rw [loop, hashSources, canonical]
                dsimp only
                rw [mapM_refused (deriveToken hkdf key namespaceName _) ⟨none, rfl⟩
                  (fun source => deriveToken_of_refused ready _ source) some']
        · refine ⟨hashRow nfc mac ctx array.dataType truncate,
            fun slot _ token ran => hashRow_shaped size ran, fun pool threads => ?_, ?_⟩
          · rw [kernel, hashSlots, if_neg valid, ready]
          · rw [loop]
            exact two_passes nfc ready array admitted truncate
      · refine .of_error (notAdmitted array.dataType) (fun pool threads => ?_)
          (fun overflows => admitted overflows.1) ?_
        · rw [deriveArray, keyed]
          simp only [admitted, Bool.not_false, if_true]
        · rw [deriveBatch, keyed]
          simp only [admitted, Bool.not_false, if_true]

theorem asStrings_nonNull {strings : List (Option String)} (read : array.asStrings = some strings) :
    nonNull strings = nonNull array.slots := by
  rw [ArrowArray.asStrings] at read
  split at read
  · rename_i isText
    cases read
    rw [nonNull, List.countP_map, nonNull]
    apply List.countP_congr
    intro slot member
    cases slot with
    | none => exact Iff.rfl
    | some cell =>
        have typed := array.typed cell member
        rw [isText] at typed
        cases cell <;> first | exact Iff.rfl | cases typed
  · cases read

theorem deriveHexRawArray_follows (size : ∀ key message, (mac key message).length = 32)
    (hexChars : Nat) :
    FollowsRowLoop
      (fun pool threads =>
        deriveHexRawArray hkdf reason pool array maskKey namespaceName hexChars threads)
      StringArray.rows (deriveHexRawBatch hkdf array maskKey namespaceName hexChars)
      (Overflows hkdf maskKey namespaceName
        (¬ (hexChars = 0 ∨ hexChars % 2 ≠ 0 ∨ hexLen < hexChars) ∧ array.asStrings ≠ none) hexChars
        array.slots) FitsOffsets := by
  cases keyed : requireMaskKey maskKey with
  | error error =>
      refine .of_error error (fun pool threads => ?_) (not_overflows_of_unkeyed keyed) ?_
      · rw [deriveHexRawArray, keyed]
      · rw [deriveHexRawBatch, keyed]
  | ok key =>
      by_cases badChars : hexChars = 0 ∨ hexChars % 2 ≠ 0 ∨ hexLen < hexChars
      · refine .of_error .rawHexCharsInvalid (fun pool threads => ?_)
          (fun overflows => overflows.1.1 badChars) ?_
        · rw [deriveHexRawArray, keyed]
          exact if_pos badChars
        · rw [deriveHexRawBatch, keyed]
          dsimp only
          rw [if_pos badChars]
      · have even : hexChars % 2 = 0 := by
          by_contra odd
          exact badChars (Or.inr (Or.inl odd))
        have within : hexChars ≤ hexLen := by
          by_contra long
          exact badChars (Or.inr (Or.inr (Nat.lt_of_not_le long)))
        cases read : array.asStrings with
        | none =>
            refine .of_error .rawInputNotString (fun pool threads => ?_)
              (fun overflows => overflows.1.2 rfl) ?_
            · rw [deriveHexRawArray, keyed]
              dsimp only
              rw [if_neg badChars, read]
            · rw [deriveHexRawBatch, keyed]
              dsimp only
              rw [if_neg badChars, read]
        | some strings =>
            have kernel : ∀ pool threads,
                deriveHexRawArray hkdf reason pool array maskKey namespaceName hexChars threads =
                  rawSlots hkdf reason namespaceName pool strings key hexChars threads := by
              intro pool threads
              rw [deriveHexRawArray, keyed]
              exact (if_neg badChars).trans (read ▸ rfl)
            have loop : deriveHexRawBatch hkdf array maskKey namespaceName hexChars =
                strings.mapM (deriveHexRawRow hkdf key namespaceName hexChars) := by
              rw [deriveHexRawBatch, keyed]
              dsimp only
              rw [if_neg badChars, read]
            refine stringSlots_follow reason keyed ⟨badChars, Option.some_ne_none strings⟩
              (asStrings_nonNull array read) (fun empty => ⟨?_, ?_⟩)
              (fun valid seedError ready => ⟨.derive seedError, ?_, ?_⟩) fun valid ctx ready => ?_
            · intro pool threads
              rw [kernel, rawSlots, if_pos empty]
            · rw [loop, mapM_nulls (deriveHexRawRow hkdf key namespaceName hexChars) rfl empty]
            · intro pool threads
              rw [kernel, rawSlots, if_neg valid, ready]
            · rw [loop, mapM_refused (deriveHexRawRow hkdf key namespaceName hexChars)
                ⟨none, rfl⟩ (fun value => deriveToken_of_refused ready _ (utf8 value)) valid]
            · refine ⟨rawRow mac ctx (hexChars / 2),
                fun slot _ token ran => rawRow_shaped size even within ran,
                fun pool threads => ?_, ?_⟩
              · rw [kernel, rawSlots, if_neg valid, ready]
              · rw [loop]
                congr 1
                funext value
                cases value with
                | none => rfl
                | some text =>
                    rw [deriveHexRawRow, Option.map_some, deriveToken, deriveSource,
                      deriveMac_of_ready ready, rawRow]
                    cases ctx.deriveRow (utf8 text) <;> rfl

theorem indexRow_eq {key : Bytes} {ctx : DeriveContext} {poolSize : PoolSize} {size : UInt64}
    (ready : DeriveContext.new hkdf key namespaceName = .ok ctx)
    (checked : poolSize.check = .ok size) (dataType : DataType) :
    indexRow nfc mac ctx dataType size =
      deriveIndexRow nfc hkdf dataType key namespaceName poolSize := by
  funext slot
  rw [indexRow, digestRow_eq ready, deriveIndexRow]
  cases canonicalizeRow nfc dataType slot with
  | error error => rfl
  | ok source =>
      cases source with
      | none => rfl
      | some bytes =>
          dsimp only
          rw [checked]
          rfl

theorem deriveIndexRow_presence {key : Bytes} {poolSize : PoolSize} {dataType : DataType}
    {slot : Option Cell} {index : Option UInt64}
    (ran : deriveIndexRow nfc hkdf dataType key namespaceName poolSize slot = .ok index) :
    slot.isSome = index.isSome := by
  rw [deriveIndexRow] at ran
  cases canonical : canonicalizeRow nfc dataType slot with
  | error error =>
      rw [canonical] at ran
      cases ran
  | ok source =>
      rw [← canonicalizeRow_presence canonical]
      rw [canonical] at ran
      cases source with
      | none =>
          cases ran
          rfl
      | some bytes =>
          dsimp only at ran
          cases checked : poolSize.check with
          | error error =>
              rw [checked] at ran
              cases ran
          | ok size =>
              rw [checked] at ran
              dsimp only at ran
              rw [deriveSource] at ran
              cases derived : deriveMac hkdf key namespaceName bytes with
              | error error =>
                  rw [derived] at ran
                  cases ran
              | ok state =>
                  rw [derived] at ran
                  cases ran
                  rfl

theorem allNull_indices (empty : nonNull array.slots = 0) :
    ∃ made, indicesOf reason array.slots (.ok (array.slots.map fun _ => none)) = .ok made ∧
      made.rows = array.slots.map fun _ => none := by
  refine indicesOf_rows reason ?_
  rw [List.map_map]
  refine (List.map_congr_left fun slot member => ?_).symm
  have blank := List.countP_eq_zero.mp empty slot member
  cases slot with
  | none => rfl
  | some cell => exact absurd rfl blank

/-- The kernel from the first value on: its refusals are the loop's at that row, and no later row
is refused. -/
theorem indexSlots_follow {key : Bytes} {poolSize : PoolSize} {nulls rest : List (Option Cell)}
    {cell : Cell} (split : array.slots = nulls ++ some cell :: rest)
    (blank : ∀ slot ∈ nulls, slot = none) :
    FollowsRowLoop
      (fun pool threads =>
        indexSlots nfc hkdf reason array namespaceName pool cell key poolSize threads)
      UInt64Array.rows
      (array.slots.mapM (deriveIndexRow nfc hkdf array.dataType key namespaceName poolSize)) False
      fun _ => True := by
  have empty : nonNull array.slots ≠ 0 := by
    rw [split, nonNull, List.countP_append, List.countP_cons_of_pos rfl]
    exact Nat.succ_ne_zero _
  have refused : ∀ error,
      deriveIndexRow nfc hkdf array.dataType key namespaceName poolSize (some cell) =
        .error error →
      array.slots.mapM (deriveIndexRow nfc hkdf array.dataType key namespaceName poolSize) =
        .error error := by
    intro error failed
    rw [split]
    refine mapM_append_error _ (fun slot member => ?_) failed
    rw [blank slot member]
    exact ⟨none, rfl⟩
  cases canonical : canonicalizeRow nfc array.dataType (some cell) with
  | error error =>
      refine .of_error (.canon error) (fun pool threads => ?_) not_false ?_
      · rw [indexSlots, canonical]
      · exact refused (.canon error) (by rw [deriveIndexRow, canonical])
  | ok source =>
      have presence := canonicalizeRow_presence canonical
      cases source with
      | none => cases presence
      | some bytes =>
          cases checked : poolSize.check with
          | error error =>
              have failed : deriveIndexRow nfc hkdf array.dataType key namespaceName poolSize
                  (some cell) = .error error := by
                rw [deriveIndexRow, canonical]
                dsimp only
                rw [checked]
              refine .of_error error (fun pool threads => ?_) not_false (refused error failed)
              rw [indexSlots, canonical]
              dsimp only
              rw [checked]
          | ok size =>
              cases ready : DeriveContext.new hkdf key namespaceName with
              | error error =>
                  have failed : deriveIndexRow nfc hkdf array.dataType key namespaceName poolSize
                      (some cell) = .error (.derive error) := by
                    rw [deriveIndexRow, canonical]
                    dsimp only
                    rw [checked]
                    dsimp only
                    rw [deriveSource, deriveMac_of_refused ready]
                    rfl
                  refine .of_error (.derive error) (fun pool threads => ?_) not_false
                    (refused _ failed)
                  rw [indexSlots, canonical]
                  dsimp only
                  rw [checked]
                  dsimp only
                  rw [ready]
              | ok ctx =>
                  have row := indexRow_eq nfc hkdf namespaceName ready checked array.dataType
                  refine .of_filled (indicesOf reason array.slots (array.slots.mapM
                    (deriveIndexRow nfc hkdf array.dataType key namespaceName poolSize)))
                    (fun pool threads => ?_) not_false ?_ fun _ _ => trivial
                  · rw [indexSlots, canonical]
                    dsimp only
                    rw [checked]
                    dsimp only
                    rw [ready, ← row]
                    exact fillIndices_eq reason pool _ empty threads
                  · cases ran : array.slots.mapM
                      (deriveIndexRow nfc hkdf array.dataType key namespaceName poolSize) with
                    | error error => rfl
                    | ok indices =>
                        obtain ⟨made, built, rows⟩ := indicesOf_rows reason (validity_of_mapM
                          (fun _ _ => deriveIndexRow_presence nfc hkdf namespaceName) ran)
                        rw [built]
                        exact congrArg Except.ok rows

theorem deriveIndexArray_follows (poolSize : PoolSize) :
    FollowsRowLoop
      (fun pool threads =>
        deriveIndexArray nfc hkdf reason pool array maskKey namespaceName poolSize threads)
      UInt64Array.rows (deriveIndexBatch nfc hkdf array maskKey namespaceName poolSize) False
      fun _ => True := by
  cases keyed : requireMaskKey maskKey with
  | error error =>
      refine .of_error error (fun pool threads => ?_) not_false ?_
      · rw [deriveIndexArray, keyed]
      · rw [deriveIndexBatch, keyed]
  | ok key =>
      by_cases admitted : array.dataType.isAdmittedType = true
      · have loop : deriveIndexBatch nfc hkdf array maskKey namespaceName poolSize =
            array.slots.mapM
              (deriveIndexRow nfc hkdf array.dataType key namespaceName poolSize) := by
          rw [deriveIndexBatch, keyed]
          simp only [admitted, Bool.not_true, Bool.false_eq_true, if_false]
        by_cases empty : nonNull array.slots = 0
        · have absent : array.slots.find? Option.isSome = none :=
            List.find?_eq_none.mpr (List.countP_eq_zero.mp empty)
          have zeros : (array.slots.map fun _ => (none : Option UInt64)).flatMap
              (fun index => [index.getD 0]) = List.replicate array.slots.length 0 := by
            rw [List.flatMap_map, ← List.map_eq_flatMap, Option.getD_none, List.map_const']
          obtain ⟨made, built, rows⟩ := allNull_indices reason array empty
          refine .of_array made (fun pool threads => ?_) not_false ?_ trivial
          · rw [← built, indicesOf, zeros, deriveIndexArray, keyed]
            simp only [admitted, Bool.not_true, Bool.false_eq_true, if_false, absent]
          · rw [loop, mapM_nulls
              (deriveIndexRow nfc hkdf array.dataType key namespaceName poolSize) rfl empty, rows]
        · obtain ⟨nulls, cell, rest, split, blank⟩ := exists_firstNonNull empty
          have found : array.slots.find? Option.isSome = some (some cell) := by
            rw [split, List.find?_append, List.find?_eq_none.mpr, Option.none_or]
            · rfl
            · intro slot member
              rw [blank slot member]
              exact Bool.false_ne_true
          have kernel : (fun pool threads =>
              deriveIndexArray nfc hkdf reason pool array maskKey namespaceName poolSize threads) =
                fun pool threads =>
                  indexSlots nfc hkdf reason array namespaceName pool cell key poolSize threads := by
            funext pool threads
            rw [deriveIndexArray, keyed]
            exact (if_neg (by simp [admitted])).trans (found ▸ rfl)
          rw [kernel, loop]
          exact indexSlots_follow nfc hkdf reason array namespaceName split blank
      · refine .of_error (notAdmitted array.dataType) (fun pool threads => ?_)
          not_false ?_
        · rw [deriveIndexArray, keyed]
          simp only [admitted, Bool.not_false, if_true]
        · rw [deriveIndexBatch, keyed]
          simp only [admitted, Bool.not_false, if_true]

end Kernels

/-- What the ranges of a batch are: consecutive from the first row to the last, each with the
window of the output that belongs to its rows. -/
structure RangesCover {γ : Type} (slots : List (Option γ)) (ranges : List (Nat × Nat)) : Prop where
  abuts : Abuts 0 slots.length ranges
  positions : (ranges.flatMap fun range => List.range' range.1 (range.2 - range.1)) =
    List.range slots.length
  byteWindows : ∀ width offsets total (values : Bytes),
    offsetsFrom width 0 slots = .ok (offsets, total) → values.length = total →
    ∃ tasks, partitionIntoTasks (0 :: offsets) values ranges = some (tasks, []) ∧
      tasks.flatMap RangeTask.out = values ∧
      ∀ task ∈ tasks, ∃ lo hi, (0 :: offsets)[task.rowLo]? = some lo ∧
        (0 :: offsets)[task.rowHi]? = some hi ∧ task.out = rowSlice values (lo, hi)
  indexWindows : ∀ values : List UInt64, values.length = slots.length →
    ∃ tasks, partitionIndexTasks values ranges = some (tasks, []) ∧
      tasks.flatMap RangeTask.out = values ∧
      ∀ task ∈ tasks, task.out = rowSlice values (task.rowLo, task.rowHi)

theorem balancedRowRanges_cover {γ : Type} (slots : List (Option γ)) (threads : Nat) :
    RangesCover slots (balancedRowRanges slots threads) := by
  have abuts := balancedRowRanges_abuts slots threads
  refine ⟨abuts, ?_, ?_, ?_⟩
  · rw [abuts.positions, Nat.sub_zero, ← List.range_eq_range']
  · intro width offsets total values laid whole
    by_cases large : i32Max < 0 + width * nonNull slots
    · rw [offsetsFrom_overflow (Nat.zero_le _) large] at laid
      cases laid
    · rw [offsetsFrom_ok (Nat.not_lt.mp large)] at laid
      cases laid
      have start : offsetAt width slots 0 = 0 := Nat.mul_zero width
      have last : offsetAt width slots slots.length = values.length := by
        rw [offsetAt, List.take_length, whole, Nat.zero_add]
      refine ⟨_, partitionIntoTasks_eq abuts (by rw [whole, Nat.zero_add]), ?_, ?_⟩
      · rw [tasksOf, List.flatMap_map,
          abuts.flatMap_rowSlice fun lo hi => offsetAt_mono width slots, start, last, rowSlice,
          Nat.sub_zero, List.drop_zero, List.take_length]
      · intro task member
        obtain ⟨range, inRanges, rfl⟩ := List.mem_map.mp member
        have bounds := abuts.bounds range inRanges
        refine ⟨_, _, offsetList_get (Nat.le_trans bounds.2.1 bounds.2.2),
          offsetList_get bounds.2.2, ?_⟩
        rw [Nat.zero_add, Nat.zero_add]
  · intro values whole
    refine ⟨_, partitionIndexTasks_eq abuts whole, ?_, ?_⟩
    · have monotone : ∀ lo hi : Nat, lo ≤ hi → id lo ≤ id hi := fun _ _ ordered => ordered
      have joined := abuts.flatMap_rowSlice monotone values
      rw [tasksOf, List.flatMap_map]
      refine joined.trans ?_
      rw [id, id, rowSlice, ← whole, Nat.sub_zero, List.drop_zero, List.take_length]
    · intro task member
      obtain ⟨range, -, rfl⟩ := List.mem_map.mp member
      rfl

/-- The ranges of any thread count cover the rows and the output once; every kernel gives its row
loop's array or error whatever the thread count, unless the string output does not fit the
offsets, which is the batch's own error after the key, the type and the seed. -/
theorem batch_kernels_follow_row_loops (nfc : String → String) {mac : Bytes → Bytes → Bytes}
    (hkdf : HkdfCrate mac) (size : ∀ key message, (mac key message).length = 32)
    (reason : String) (array : ArrowArray) (maskKey : Option Bytes) (namespaceName : String) :
    (∀ (γ : Type) (slots : List (Option γ)) (threads : Nat), nonNull slots ≠ 0 →
      RangesCover slots (balancedRowRanges slots threads)) ∧
    (∀ truncate, FollowsRowLoop
      (fun pool threads =>
        deriveArray nfc hkdf reason pool array maskKey namespaceName truncate threads)
      StringArray.rows (deriveBatch nfc hkdf array maskKey namespaceName truncate)
      (Overflows hkdf maskKey namespaceName (array.dataType.isAdmittedType = true)
        (constantOutputWidth truncate) array.slots) FitsOffsets) ∧
    (∀ hexChars, FollowsRowLoop
      (fun pool threads =>
        deriveHexRawArray hkdf reason pool array maskKey namespaceName hexChars threads)
      StringArray.rows (deriveHexRawBatch hkdf array maskKey namespaceName hexChars)
      (Overflows hkdf maskKey namespaceName
        (¬ (hexChars = 0 ∨ hexChars % 2 ≠ 0 ∨ hexLen < hexChars) ∧ array.asStrings ≠ none) hexChars
        array.slots) FitsOffsets) ∧
    ∀ poolSize, FollowsRowLoop
      (fun pool threads =>
        deriveIndexArray nfc hkdf reason pool array maskKey namespaceName poolSize threads)
      UInt64Array.rows (deriveIndexBatch nfc hkdf array maskKey namespaceName poolSize) False
      fun _ => True :=
  ⟨fun _ slots threads _ => balancedRowRanges_cover slots threads,
    fun truncate => deriveArray_follows nfc hkdf reason array maskKey namespaceName size truncate,
    fun hexChars => deriveHexRawArray_follows hkdf reason array maskKey namespaceName size hexChars,
    fun poolSize => deriveIndexArray_follows nfc hkdf reason array maskKey namespaceName poolSize⟩

def sampleColumn : ArrowArray where
  dataType := .utf8
  slots := [none, some (.text "a"), none, some (.text "a")]
  typed cell member := by
    obtain rfl : cell = .text "a" := by simpa using member
    exact trivial

theorem batch_kernels_follow_row_loops_sample :
    (deriveIndexArray id (primitiveHkdf sampleMac) "" (.ok ()) sampleColumn (some zeroKey) "n"
      (.int 10) 4).map UInt64Array.rows =
    (deriveIndexBatch id (primitiveHkdf sampleMac) sampleColumn (some zeroKey) "n"
      (.int 10)).mapError .error := by
  have follows := (batch_kernels_follow_row_loops id (primitiveHkdf sampleMac) length_sampleMac ""
    sampleColumn (some zeroKey) "n").2.2.2 (.int 10)
  rw [(follows.schedule (.ok ()) 4).resolve_right PoolRefuses.not_built]
  exact follows.outcome not_false

/-- A tick no date has, and 2^25 rows more than the offsets can hold of 64 digits each. -/
def overflowingColumn : ArrowArray where
  dataType := .timestamp .second (some "UTC")
  slots := some (.timestamp .second (some "UTC") (2 ^ 62)) ::
    List.replicate (2 ^ 25) (some (.timestamp .second (some "UTC") 0))
  typed cell member := by
    rcases List.mem_cons.mp member with isBad | isGood
    · rw [Option.some.inj isBad]
      exact ⟨rfl, rfl⟩
    · rw [Option.some.inj (List.eq_of_mem_replicate isGood)]
      exact ⟨rfl, rfl⟩

theorem overflow_outranks_failing_row :
    deriveArray id (primitiveHkdf sampleMac) "" (.ok ()) overflowingColumn (some zeroKey) "n" none 1
      = .error (.error .offsetOverflow) ∧
    deriveBatch id (primitiveHkdf sampleMac) overflowingColumn (some zeroKey) "n" none
      = .error (.canon (.unsupported "timestamp tick value out of the representable range")) := by
  have count : nonNull overflowingColumn.slots = 2 ^ 25 + 1 := by
    rw [overflowingColumn, nonNull, List.countP_cons, List.countP_replicate]
    rfl
  have width : constantOutputWidth none = 64 := by
    rw [constantOutputWidth, length_hexTokenInto List.length_replicate]
    rfl
  have failing : canonicalizeRow id overflowingColumn.dataType
      (some (.timestamp .second (some "UTC") (2 ^ 62))) =
      .error (.unsupported "timestamp tick value out of the representable range") := by
    have absent : Generation.Native.toDatetime .second (2 ^ 62 : Int64).toInt = none := by
      decide +kernel
    have known : ∀ debug, overflowingColumn.dataType ≠ .other debug := fun debug same => by
      cases same
    rw [canonicalizeRow_some known, Generation.Native.canonicalizeRow,
      Generation.Native.encodeTimestamp, absent]
    rfl
  constructor
  · apply (deriveArray_follows id (primitiveHkdf sampleMac) "" overflowingColumn (some zeroKey) "n"
      length_sampleMac none).overflowing
    refine ⟨rfl, ?_, zeroKey, _, rfl, rfl⟩
    rw [width, count]
    decide
  · have keyed : requireMaskKey (some zeroKey) = .ok zeroKey := rfl
    have slots : overflowingColumn.slots =
        [] ++ some (.timestamp .second (some "UTC") (2 ^ 62)) ::
          List.replicate (2 ^ 25) (some (.timestamp .second (some "UTC") 0)) := rfl
    have canonical := mapM_append_error
      (List.replicate (2 ^ 25) (some (.timestamp .second (some "UTC") 0)))
      (List.forall_mem_nil _) failing
    rw [deriveBatch, keyed]
    dsimp only
    rw [slots, canonical]
    rfl

end DecoyEngine.Determinism.Native
