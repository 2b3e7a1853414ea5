import DecoyEngine.Data.Batches
import DecoyEngine.Transforms.FpeChecksum
import DecoyEngine.Transforms.FpeNative
import DecoyEngine.Transforms.FpeUnmask

namespace DecoyEngine.Transforms.Native

open DecoyEngine.Data DecoyEngine.Determinism DecoyEngine.Checksums

/-! The compiled kernel against the Python transform: one value, one column, and the split of a
column over threads. -/

/-- The native outcome that answers a Python one.  The `OverflowError` of the primitive has no
answer: it is never raised. -/
def Agrees (native : Except Failure (List Char)) : Except FpeRaise (List Char) → Prop
  | .ok out => native = .ok out
  | .error (.fpeError error) => error.isChecksum = false ∧
      ∃ code, native = .error (.status code) ∧ code.text = strategyCodeForUnencryptable error
  | .error .checkDigitError => native = .error .panic
  | .error .overflowError => False

theorem Agrees.bind {native : Except Failure (List Char)} {python : Except FpeRaise (List Char)}
    {nativeRest : List Char → Except Failure (List Char)}
    {pythonRest : List Char → Except FpeRaise (List Char)} (first : Agrees native python)
    (rest : ∀ out, python = .ok out → Agrees (nativeRest out) (pythonRest out)) :
    Agrees (native >>= nativeRest) (python >>= pythonRest) := by
  cases python with
  | ok out =>
      obtain rfl : native = .ok out := first
      exact rest out rfl
  | error raised =>
      cases raised with
      | fpeError error =>
          obtain ⟨plain, code, rfl, coded⟩ := first
          exact ⟨plain, code, rfl, coded⟩
      | checkDigitError =>
          obtain rfl : native = .error .panic := first
          rfl
      | overflowError => exact first

section Charset

variable {charset : List Char} {ch : Char}

theorem charIndex_isSome : (charIndex charset ch).isSome = decide (ch ∈ charset) := by
  rw [Bool.eq_iff_iff, decide_eq_true_iff, charIndex, Option.isSome_map, List.lookup_isSome_iff]
  constructor
  · rintro ⟨⟨other, i⟩, member, same⟩
    obtain rfl := eq_of_beq same
    exact (List.mem_zipIdx' (List.mem_reverse.mp member)).2 ▸ List.getElem_mem _
  · intro member
    obtain ⟨i, found, rfl⟩ := List.mem_iff_getElem.mp member
    exact ⟨(charset[i], i), by simp [List.mem_zipIdx_iff_getElem?, found], by simp⟩

theorem charIndex_eq (unique : charset.Nodup) (small : charset.length ≤ ff1MaxRadix)
    (member : ch ∈ charset) : charIndex charset ch = some (charset.idxOf ch) := by
  have found : (charIndex charset ch).isSome = true := by simp [charIndex_isSome, member]
  rw [charIndex, Option.isSome_map] at found
  obtain ⟨i, lookup⟩ := Option.isSome_iff_exists.mp found
  obtain ⟨before, after, split, -⟩ := List.lookup_eq_some_iff.mp lookup
  have entry : (ch, i) ∈ charset.zipIdx := by
    rw [← List.mem_reverse, split]
    simp
  obtain ⟨bound, same⟩ := List.mem_zipIdx' entry
  have index : charset.idxOf ch = i := by
    rw [same]
    exact unique.idxOf_getElem i bound
  have narrow : i % 2 ^ 16 = i := by
    unfold ff1MaxRadix at small
    omega
  rw [charIndex, lookup, Option.map_some, index, narrow]

theorem mapM_charIndex {s : List Char} (unique : charset.Nodup)
    (small : charset.length ≤ ff1MaxRadix) (members : ∀ ch ∈ s, ch ∈ charset) :
    s.mapM (charIndex charset) = some (s.map fun ch => charset.idxOf ch) := by
  induction s with
  | nil => rfl
  | cons ch s ih =>
      have first := charIndex_eq unique small (members ch (by simp))
      have rest := ih fun other member => members other (by simp [member])
      simp [List.mapM_cons, first, rest]

theorem mapM_charIndex_none {s : List Char} {ch : Char} (member : ch ∈ s) (foreign : ch ∉ charset) :
    s.mapM (charIndex charset) = none := by
  induction s with
  | nil => simp at member
  | cons first s ih =>
      rcases List.mem_cons.mp member with rfl | later
      · have absent : (charIndex charset ch).isSome = false := by simp [charIndex_isSome, foreign]
        have missing : charIndex charset ch = none := by
          rw [← Option.not_isSome_iff_eq_none, absent]
          simp
        simp [List.mapM_cons, missing]
      · cases found : charIndex charset first <;> simp [List.mapM_cons, found, ih later]

/-- A list long enough for its length to wrap round as a `u32` repeats a symbol. -/
theorem duplicate_of_long (long : 2 ^ 32 ≤ charset.length) : ¬ charset.Nodup := by
  intro unique
  have codes : (charset.map Char.toNat).Nodup :=
    unique.map fun first second same => Char.ext (UInt32.toNat_inj.mp same)
  have bounded : (charset.map Char.toNat) ⊆ List.range 0x110000 := by
    intro code member
    obtain ⟨ch, -, rfl⟩ := List.mem_map.mp member
    rw [List.mem_range]
    have valid := ch.valid
    change ch.val.toNat < _
    rcases valid with low | ⟨-, high⟩
    · exact Nat.lt_trans low (by decide)
    · exact high
  have few := (List.subperm_of_subset codes bounded).length_le
  rw [List.length_map, List.length_range] at few
  omega

end Charset

section Value

variable {cipher : BlockCipher} {crate : FpeCrate} {key tweak : List UInt8} {charset : List Char}
  {preserve luhn forward : Bool}

theorem charsetOffenders_all :
    (charset.all fun ch => 0x21 ≤ ch.toNat && ch.toNat ≤ 0x7E) = true ↔
      charsetOffenders charset = [] := by
  rw [charsetOffenders_eq_nil]
  exact List.all_eq_true

theorem permute_agrees_of_profile {s : List Char} (same : crate.ComputesFf1 cipher)
    (profile : PermuteProfile key charset tweak s.length) (members : ∀ ch ∈ s, ch ∈ charset) :
    ∃ ff1 out, crate.new key charset.length = some ff1 ∧
      (if forward then ff1.encrypt tweak (s.map fun ch => charset.idxOf ch)
        else ff1.decrypt tweak (s.map fun ch => charset.idxOf ch)) = some out ∧
      Transforms.permute cipher s key charset tweak forward
        = .ok (out.map fun i => charset[i]!) := by
  obtain ⟨ff1, built, computes⟩ := same.built key charset.length profile.keySize
    profile.radixLower profile.radixUpper
  have numerals : ∀ numeral ∈ s.map (fun ch => charset.idxOf ch), numeral < charset.length := by
    intro numeral member
    obtain ⟨ch, inside, rfl⟩ := List.mem_map.mp member
    exact List.idxOf_lt_length_iff.mpr (members ch inside)
  obtain ⟨encrypts, decrypts⟩ := computes tweak (s.map fun ch => charset.idxOf ch)
    profile.tweakUpper (by simpa using profile.domain) (by simpa using profile.lengthUpper) numerals
  obtain ⟨value, permuted, -⟩ := permute_inverse cipher forward profile members
  rw [permute_of_profile cipher profile members] at permuted
  have leaf : Transforms.permute cipher s key charset tweak forward = _ :=
    permute_of_profile cipher profile members
  cases ran : ff1Run cipher forward key tweak charset.length (s.map fun ch => charset.idxOf ch) with
  | error raised =>
      rw [ran] at permuted
      cases raised <;> simp [decodeResult] at permuted
  | ok out =>
      refine ⟨ff1, out, built, ?_, ?_⟩
      · cases forward with
        | true =>
            change encrypt cipher key tweak charset.length _ = .ok out at ran
            simp [encrypts, ran, Except.toOption]
        | false =>
            change decrypt cipher key tweak charset.length _ = .ok out at ran
            simp [decrypts, ran, Except.toOption]
      · rw [leaf, ran]
        rfl

theorem Agrees.length {native : Except Failure (List Char)} {error : FpeError}
    (coded : error.code = "fpe.unencryptable_length")
    (failed : native = .error (.status .unencryptableLength)) :
    Agrees native (.error (.fpeError error)) := by
  refine ⟨?_, .unencryptableLength, failed, ?_⟩
  · cases error <;> first | rfl | simp [FpeError.code] at coded
  · simp [strategyCodeForUnencryptable, coded, unencryptableStrategyCode, StatusCode.text,
      List.lookup_cons]

theorem permute_agrees (same : crate.ComputesFf1 cipher) (keySize : key.length = ff1KeyBytes)
    (s : List Char) :
    Agrees
      (permute (.resolve charset preserve luhn tweak)
        (batchFf1 crate key (ResolvedConfig.resolve charset preserve luhn tweak).radix) tweak s
        forward)
      (Transforms.permute cipher s key charset tweak forward) := by
  by_cases empty : s.length = 0
  · obtain rfl := List.length_eq_zero_iff.mp empty
    rfl
  generalize resolved : ResolvedConfig.resolve charset preserve luhn tweak = config
  have symbols : config.charset = charset := by rw [← resolved]; rfl
  have indices : config.charToIdx = charIndex charset := by rw [← resolved]; rfl
  have narrowed : config.radix = charset.length % 2 ^ 32 := by rw [← resolved]; rfl
  have repeated : config.charsetHasDuplicate = (charset.dedup.length != charset.length) := by
    rw [← resolved]; rfl
  have visible : config.charsetPrintableAscii = true ↔ charsetOffenders charset = [] := by
    rw [← resolved]; exact charsetOffenders_all
  have tweakLen : config.tweakLen = tweak.length := by rw [← resolved]; rfl
  by_cases range : ff1MinRadix ≤ charset.length ∧ charset.length ≤ ff1MaxRadix
  case neg =>
      simp only [Transforms.permute, if_neg empty, if_neg (not_not.mpr keySize), if_pos range]
      apply Agrees.length rfl
      rw [permute]
      simp only [if_neg empty]
      by_cases wrapped : ff1MinRadix ≤ config.radix ∧ config.radix ≤ ff1MaxRadix
      · -- only a length of at least `2 ^ 32` can leave the range and come back as a `u32`
        have long : 2 ^ 32 ≤ charset.length := by
          by_contra short
          rw [narrowed, Nat.mod_eq_of_lt (by omega)] at wrapped
          exact range wrapped
        have repeats : config.charsetHasDuplicate = true := by
          rw [repeated]
          simpa [dedup_length_eq] using duplicate_of_long long
        rw [if_neg (not_not.mpr wrapped), if_pos repeats]
      · rw [if_pos wrapped]
  have radix : config.radix = charset.length := by
    have upper := range.2
    unfold ff1MaxRadix at upper
    rw [narrowed]
    exact Nat.mod_eq_of_lt (by omega)
  simp only [Transforms.permute, permute, if_neg empty, if_neg (not_not.mpr keySize), radix,
    if_neg (not_not.mpr range), symbols, indices, repeated, tweakLen]
  by_cases unique : charset.dedup.length = charset.length
  case neg =>
      rw [if_pos unique, if_pos (by simpa using unique)]
      exact Agrees.length rfl rfl
  rw [if_neg (not_not.mpr unique), if_neg (by simpa using unique)]
  by_cases offends : charsetOffenders charset = []
  case neg =>
      rw [if_pos offends, if_pos (mt visible.mp offends)]
      exact Agrees.length rfl rfl
  rw [if_neg (not_not.mpr offends), if_neg (not_not.mpr (visible.mpr offends))]
  by_cases domain : s.length < Transforms.minDomainLength charset.length
  · have nativeDomain : s.length < minDomainLength charset.length := domain
    rw [if_pos domain, if_pos nativeDomain]
    exact ⟨rfl, .unencryptableDomain, rfl, rfl⟩
  have nativeDomain : ¬ s.length < minDomainLength charset.length := domain
  rw [if_neg domain, if_neg nativeDomain]
  by_cases long : ff1MaxLen < s.length
  · rw [if_pos long, if_pos long]
    exact Agrees.length rfl rfl
  rw [if_neg long, if_neg long]
  by_cases tweaked : ff1MaxTweakLen < tweak.length
  · rw [if_pos tweaked, if_pos tweaked]
    exact Agrees.length rfl rfl
  rw [if_neg tweaked, if_neg tweaked]
  by_cases members : ∀ ch ∈ s, ch ∈ charset
  case neg =>
      obtain ⟨ch, member, foreign⟩ : ∃ ch ∈ s, ch ∉ charset := by simpa using members
      rw [if_pos (by simpa using ⟨ch, member, foreign⟩), mapM_charIndex_none member foreign]
      exact Agrees.length rfl rfl
  rw [if_neg (by simpa using members),
    mapM_charIndex (dedup_length_eq.mp unique) range.2 members]
  have profile : PermuteProfile key charset tweak s.length :=
    ⟨keySize, range.1, range.2, dedup_length_eq.mp unique, charsetOffenders_eq_nil.mp offends,
      by omega, by omega, by omega⟩
  obtain ⟨ff1, out, built, permuted, leaf⟩ := permute_agrees_of_profile same profile members
  rw [permute_of_profile cipher profile members] at leaf
  rw [leaf, batchFf1, if_pos range, built]
  simp only [permuted]
  rfl

theorem decimalValue_printable {ch : Char} (printable : isPrintableAscii ch = true) :
    decimalValue ch = toDigit ch := by
  have small : ∀ code < 0x7F, (decimalZeros.find? fun base =>
      decide (base ≤ code ∧ code < base + 10)).map (fun base => code - base)
        = if 48 ≤ code ∧ code ≤ 57 then some (code - 48) else none := by
    decide +kernel
  simp only [isPrintableAscii, Bool.and_eq_true, decide_eq_true_eq] at printable
  exact small ch.toNat (by omega)

theorem luhnLoop_eq {body : List Char} (printable : ∀ ch ∈ body, isPrintableAscii ch = true)
    (i total : Nat) :
    luhnLoop i total body = (body.mapM decimalValue).map fun values => total + luhnTotal i values := by
  induction body generalizing i total with
  | nil => rfl
  | cons ch body ih =>
      have first := decimalValue_printable (printable ch (by simp))
      have rest := ih fun other member => printable other (by simp [member])
      rw [luhnLoop, List.mapM_cons, first]
      cases toDigit ch with
      | none => rfl
      | some n =>
          simp only [rest]
          cases body.mapM decimalValue with
          | none => rfl
          | some values => simp [luhnTotal, luhnTerm, Nat.add_assoc]

theorem luhnCheckDigit_agrees {body : List Char}
    (printable : ∀ ch ∈ body, isPrintableAscii ch = true) :
    luhnCd body = (luhnCheckDigit body).map fun check => [check] := by
  have reversed : ∀ ch ∈ body.reverse, isPrintableAscii ch = true := by simpa using printable
  rw [luhnCd, luhnCheckDigit, luhnLoop_eq reversed, Option.map_map, Option.map_map]
  simp [Function.comp_def]

theorem dropLast_ne_nil {s : List Char} (long : 2 ≤ s.length) : s.dropLast ≠ [] := by
  intro nothing
  have length := congrArg List.length nothing
  rw [List.length_dropLast, List.length_nil] at length
  omega

theorem fpePureValue_agrees (stdnum : Stdnum) (same : crate.ComputesFf1 cipher)
    (keySize : key.length = ff1KeyBytes) (s : List Char) :
    Agrees
      (fpePureValue (.resolve charset preserve luhn tweak)
        (batchFf1 crate key (ResolvedConfig.resolve charset preserve luhn tweak).radix) tweak s
        forward)
      (Transforms.fpePureValue cipher stdnum s key charset tweak luhn none forward) := by
  by_cases empty : s = []
  · subst empty
    rfl
  have luhnFlag : (ResolvedConfig.resolve charset preserve luhn tweak).validateLuhn = luhn := rfl
  rw [fpePureValue, Transforms.fpePureValue, if_neg empty, if_neg empty]
  by_cases checked : luhn = true ∧ 2 ≤ s.length
  case neg =>
      simp only [luhnFlag, if_neg checked]
      exact permute_agrees same keySize s
  simp only [luhnFlag, if_pos checked]
  apply Agrees.bind (permute_agrees same keySize s.dropLast)
  intro body ran
  have nonempty := dropLast_ne_nil checked.2
  have printable : ∀ ch ∈ body, isPrintableAscii ch = true := by
    intro ch member
    obtain ⟨-, -, inside, -⟩ := permute_undo cipher nonempty ran
    exact (permute_ok_inv cipher nonempty ran).1.printable ch (inside ch member)
  have digit := luhnCheckDigit_agrees printable
  rw [Transforms.luhnCheckDigit, digit]
  cases luhnCheckDigit body with
  | none => rfl
  | some check => rfl

theorem fpeOne_agrees (stdnum : Stdnum) (same : crate.ComputesFf1 cipher)
    (keySize : key.length = ff1KeyBytes) {value : List Char} (nonempty : value ≠ []) :
    Agrees
      (fpeOne (.resolve charset preserve luhn tweak)
        (batchFf1 crate key (ResolvedConfig.resolve charset preserve luhn tweak).radix) tweak value
        forward)
      (fpeValue cipher stdnum value key charset tweak preserve luhn none forward) := by
  have members : ∀ ch, ((ResolvedConfig.resolve charset preserve luhn tweak).charToIdx ch).isSome
      = decide (ch ∈ charset) := fun ch => charIndex_isSome
  have separators : (ResolvedConfig.resolve charset preserve luhn tweak).preserveSeparators
      = preserve := rfl
  simp only [fpeOne, fpeValue, if_neg nonempty, members, separators]
  cases preserve with
  | true =>
      simp only [if_true]
      by_cases nothing : selectedPositions (fun ch => decide (ch ∈ charset)) value = []
      · rw [if_pos nothing, if_pos nothing]
        exact ⟨rfl, .unencryptableValue, rfl, rfl⟩
      rw [if_neg nothing, if_neg nothing]
      apply Agrees.bind (fpePureValue_agrees stdnum same keySize _)
      intro body _
      by_cases mismatch : body.length
          ≠ (selectedPositions (fun ch => decide (ch ∈ charset)) value).length
      · rw [if_pos mismatch, if_pos mismatch]
        exact ⟨rfl, .unencryptableValue, rfl, rfl⟩
      · rw [if_neg mismatch, if_neg mismatch]
        rfl
  | false =>
      simp only [Bool.false_eq_true, if_false]
      by_cases foreign : value.all (fun ch => decide (ch ∈ charset)) = true
      · have inside : ¬ (value.any fun ch => !decide (ch ∈ charset)) = true := by
          simpa using foreign
        rw [if_neg (not_not.mpr foreign), if_neg inside]
        exact fpePureValue_agrees stdnum same keySize value
      · have outside : (value.any fun ch => !decide (ch ∈ charset)) = true := by
          simpa using foreign
        rw [if_pos foreign, if_pos outside]
        exact ⟨rfl, .unencryptableValue, rfl, rfl⟩

/-! The kernel is given `validate_luhn` for all-digit alphabets only; there it has no panic. -/

theorem permute_ne_panic (config : ResolvedConfig) (ff1 : Option Ff1) (s : List Char) :
    permute config ff1 tweak s forward ≠ .error .panic := by
  intro failed
  simp only [permute] at failed
  split_ifs at failed <;> try cases failed
  all_goals
    split at failed
    · cases failed
    · split at failed
      · cases failed
      · split at failed <;> cases failed

theorem luhnLoop_digits {body : List Char} (digits : ∀ ch ∈ body, ch ∈ asciiDigits)
    (i total : Nat) : luhnLoop i total body ≠ none := by
  induction body generalizing i total with
  | nil => simp [luhnLoop]
  | cons ch body ih =>
      have some : ∃ n, toDigit ch = some n := by
        obtain ⟨value, small, rfl⟩ := exists_digitChar (digits ch (by simp))
        have code : ∀ n < 10, ∃ m, toDigit (digitChar n) = some m := by
          intro n bound
          interval_cases n <;> exact ⟨_, rfl⟩
        exact code value small
      obtain ⟨n, read⟩ := some
      rw [luhnLoop, read]
      exact ih (fun other member => digits other (by simp [member])) _ _

theorem fpePureValue_ne_panic (same : crate.ComputesFf1 cipher)
    (keySize : key.length = ff1KeyBytes)
    (digits : luhn = true → ∀ ch ∈ charset, ch ∈ asciiDigits) (s : List Char) :
    fpePureValue (.resolve charset preserve luhn tweak)
      (batchFf1 crate key (ResolvedConfig.resolve charset preserve luhn tweak).radix) tweak s
      forward ≠ .error .panic := by
  unfold fpePureValue
  split
  · simp
  split
  case isFalse => exact permute_ne_panic _ _ s
  case isTrue checked =>
      have nonempty := dropLast_ne_nil checked.2
      have agrees : Agrees (permute (.resolve charset preserve luhn tweak)
          (batchFf1 crate key (ResolvedConfig.resolve charset preserve luhn tweak).radix) tweak
          s.dropLast forward) (Transforms.permute cipher s.dropLast key charset tweak forward) :=
        permute_agrees same keySize s.dropLast
      cases ran : Transforms.permute cipher s.dropLast key charset tweak forward with
      | ok body =>
          rw [ran] at agrees
          obtain ⟨-, -, inside, -⟩ := permute_undo cipher nonempty ran
          have read : luhnLoop 0 0 body.reverse ≠ none :=
            luhnLoop_digits (fun ch member =>
              digits checked.1 ch (inside ch (List.mem_reverse.mp member))) 0 0
          obtain ⟨total, found⟩ := Option.ne_none_iff_exists'.mp read
          rw [show permute _ _ tweak s.dropLast forward = .ok body from agrees]
          simp [luhnCheckDigit, found, bind, Except.bind]
      | error raised =>
          rw [ran] at agrees
          cases raised with
          | fpeError error =>
              obtain ⟨-, code, failed, -⟩ := agrees
              rw [failed]
              simp [bind, Except.bind]
          | checkDigitError => exact absurd agrees (permute_ne_panic _ _ _)
          | overflowError => exact agrees.elim

theorem fpeOne_ne_panic (same : crate.ComputesFf1 cipher) (keySize : key.length = ff1KeyBytes)
    (digits : luhn = true → ∀ ch ∈ charset, ch ∈ asciiDigits) (value : List Char) :
    fpeOne (.resolve charset preserve luhn tweak)
      (batchFf1 crate key (ResolvedConfig.resolve charset preserve luhn tweak).radix) tweak value
      forward ≠ .error .panic := by
  intro failed
  simp only [fpeOne] at failed
  split_ifs at failed <;> try cases failed
  · cases pure : fpePureValue (.resolve charset preserve luhn tweak)
        (batchFf1 crate key (ResolvedConfig.resolve charset preserve luhn tweak).radix) tweak _
        forward with
    | error failure =>
        rw [pure] at failed
        cases failed
        exact fpePureValue_ne_panic same keySize digits _ pure
    | ok body =>
        rw [pure] at failed
        simp only [bind, Except.bind] at failed
        split_ifs at failed
        cases failed
  · exact fpePureValue_ne_panic same keySize digits value failed

end Value

section Rows

variable (config : ResolvedConfig) (ff1 : Option Ff1) (tweak : List UInt8) (forward : Bool)

theorem arrayResult_append_assoc (first second third : ArrayResult) :
    (first.append second).append third = first.append (second.append third) := by
  simp [ArrayResult.append]

/-- The rows of two parts are the rows of the first and, numbered on, those of the second. -/
theorem rows_append (start : Nat) (first second : List Cell) :
    rows config ff1 tweak forward start (first ++ second) = (do
      let left ← rows config ff1 tweak forward start first
      let right ← rows config ff1 tweak forward (start + first.length) second
      some (left.append right)) := by
  induction first generalizing start with
  | nil => cases again : rows config ff1 tweak forward start second <;>
      simp [rows, again, ArrayResult.append]
  | cons cell first ih =>
      simp only [List.cons_append, rows, ih, List.length_cons, Nat.add_comm first.length 1,
        Nat.add_assoc]
      cases row config ff1 tweak forward start cell with
      | none => rfl
      | some head =>
          cases rows config ff1 tweak forward (start + 1) first with
          | none => rfl
          | some left =>
              cases rows config ff1 tweak forward (start + (1 + first.length)) second with
              | none => rfl
              | some right => simp [arrayResult_append_assoc]

/-- The outcome of a whole column. -/
def ofRows : Option ArrayResult → Except BatchFailure ArrayResult
  | none => .error .panic
  | some result => .ok result

theorem joinRanges_tiles (cells : List Cell) {start : Nat} {ranges : List (Nat × Nat)}
    (tiles : Tiles start cells.length ranges) :
    joinRanges (ranges.map (fillRange config ff1 tweak forward cells))
      = ofRows (rows config ff1 tweak forward start (cells.drop start)) := by
  induction ranges generalizing start with
  | nil =>
      obtain rfl : start = cells.length := tiles
      simp [joinRanges, rows, ofRows]
  | cons range ranges ih =>
      obtain ⟨rfl, nonempty, rest⟩ := tiles
      have within := rest.le
      have split : cells.drop range.1
          = (cells.drop range.1).take (range.2 - range.1) ++ cells.drop range.2 := by
        have again := List.take_append_drop (range.2 - range.1) (cells.drop range.1)
        rw [List.drop_drop, Nat.add_sub_cancel' (Nat.le_of_lt nonempty)] at again
        exact again.symm
      have length : ((cells.drop range.1).take (range.2 - range.1)).length = range.2 - range.1 := by
        rw [List.length_take, List.length_drop]
        omega
      rw [split, rows_append, length, Nat.add_sub_cancel' (Nat.le_of_lt nonempty), List.map_cons,
        fillRange]
      cases rows config ff1 tweak forward range.1 ((cells.drop range.1).take (range.2 - range.1)) with
      | none => rfl
      | some left =>
          rw [joinRanges, ih rest]
          cases rows config ff1 tweak forward range.2 (cells.drop range.2) with
          | none => rfl
          | some right => rfl

theorem rowRangesFrom_tiles {len per : Nat} (positive : 0 < per) {fuel lo : Nat} (within : lo ≤ len)
    (enough : len - lo ≤ fuel) : Tiles lo len (rowRangesFrom len per fuel lo) := by
  induction fuel generalizing lo with
  | zero =>
      rw [rowRangesFrom]
      exact Nat.le_antisymm within (by omega)
  | succ fuel ih =>
      rw [rowRangesFrom]
      split
      · exact ⟨rfl, by dsimp only; omega, ih (by omega) (by dsimp only; omega)⟩
      · exact Nat.le_antisymm within (by omega)

theorem rowRanges_tiles (len threads : Nat) : Tiles 0 len (rowRanges len threads) := by
  rw [rowRanges]
  split
  · rename_i empty
    exact empty.symm
  · have positive : 0 < (len + min (max threads 1) len - 1) / min (max threads 1) len := by
      apply Nat.div_pos <;> omega
    exact rowRangesFrom_tiles positive (Nat.zero_le len) (Nat.sub_le len 0)

theorem joinRanges_rowRanges (cells : List Cell) (threads : Nat) :
    joinRanges ((rowRanges cells.length threads).map (fillRange config ff1 tweak forward cells))
      = ofRows (rows config ff1 tweak forward 0 cells) :=
  joinRanges_tiles config ff1 tweak forward cells (rowRanges_tiles cells.length threads)

theorem rowRanges_one (len : Nat) : (rowRanges len 1).length ≤ 1 := by
  cases len with
  | zero => exact Nat.zero_le 1
  | succ rest =>
      have stops : rowRangesFrom (rest + 1) (rest + 1) rest (rest + 1) = [] := by
        cases rest <;> simp [rowRangesFrom]
      simp [rowRanges, rowRangesFrom, stops]

/-- The kernel's result does not depend on the thread count; only the pool, which one thread
does without, can fail. -/
theorem fpeTransformArray_threads (crate : FpeCrate) {mac : Bytes → Bytes → Bytes}
    (hkdf : Determinism.Native.HkdfCrate mac) (pool : Except (String × String) Unit)
    (array : Option (List Cell)) (maskKey : Option Bytes) (namespaceName : String)
    (charset : List Char) (preserve luhn : Bool) (threads : Nat) :
    let transform := fpeTransformArray crate hkdf pool array maskKey namespaceName tweak charset
      preserve luhn forward
    transform threads = transform 1 ∨
      ∃ code detail, pool = .error (code, detail) ∧
        transform threads = .error (.error (.pool code detail)) := by
  dsimp only
  unfold fpeTransformArray
  cases batchKey hkdf array maskKey namespaceName with
  | error error => exact .inl rfl
  | ok resolved =>
      obtain ⟨cells, key⟩ := resolved
      dsimp only
      rw [if_pos (rowRanges_one cells.length), joinRanges_rowRanges, joinRanges_rowRanges]
      split
      · exact .inl rfl
      · split
        · rename_i code detail
          exact .inr ⟨code, detail, rfl, rfl⟩
        · exact .inl rfl

end Rows

section Reference

variable {cipher : BlockCipher} {crate : FpeCrate} {key tweak : List UInt8} {charset : List Char}
  {preserve luhn forward : Bool}

theorem row_agrees (stdnum : Stdnum) (same : crate.ComputesFf1 cipher)
    (keySize : key.length = ff1KeyBytes) (rowIndex : Nat) (cell : Cell) :
    row (.resolve charset preserve luhn tweak)
        (batchFf1 crate key (ResolvedConfig.resolve charset preserve luhn tweak).radix) tweak
        forward rowIndex cell
      = (referenceRow (fun value =>
          fpeValue cipher stdnum value key charset tweak preserve luhn none forward)
        rowIndex cell).toOption := by
  cases cell with
  | none => rfl
  | some value =>
      by_cases empty : value = []
      · subst empty
        rfl
      have agrees : Agrees _ (fpeValue cipher stdnum value key charset tweak preserve luhn none
        forward) := fpeOne_agrees stdnum same keySize empty
      rw [row, referenceRow, if_neg empty, if_neg empty]
      cases ran : fpeValue cipher stdnum value key charset tweak preserve luhn none forward with
      | ok out =>
          rw [ran] at agrees
          rw [show fpeOne _ _ tweak value forward = .ok out from agrees]
          rfl
      | error raised =>
          rw [ran] at agrees
          cases raised with
          | fpeError error =>
              obtain ⟨plain, code, failed, coded⟩ := agrees
              rw [failed]
              simp [plain, coded, Except.toOption]
          | checkDigitError =>
              rw [show fpeOne _ _ tweak value forward = .error .panic from agrees]
              rfl
          | overflowError => exact agrees.elim

theorem rows_agree (stdnum : Stdnum) (same : crate.ComputesFf1 cipher)
    (keySize : key.length = ff1KeyBytes) (start : Nat) (cells : List Cell) :
    rows (.resolve charset preserve luhn tweak)
        (batchFf1 crate key (ResolvedConfig.resolve charset preserve luhn tweak).radix) tweak
        forward start cells
      = (referenceRows (fun value =>
          fpeValue cipher stdnum value key charset tweak preserve luhn none forward)
        start cells).toOption := by
  induction cells generalizing start with
  | nil => rfl
  | cons cell cells ih =>
      rw [rows, referenceRows, row_agrees stdnum same keySize, ih]
      cases referenceRow _ start cell with
      | error raised => rfl
      | ok first =>
          cases referenceRows _ (start + 1) cells with
          | error raised => rfl
          | ok rest => rfl

end Reference

theorem batchKey_ok {mac : Bytes → Bytes → Bytes} (hkdf : Determinism.Native.HkdfCrate mac)
    {cells rest : List Cell} {maskKey key : Bytes} {namespaceName : String}
    (resolved : batchKey hkdf (some cells) (some maskKey) namespaceName = .ok (rest, key)) :
    rest = cells ∧ key.length = ff1KeyBytes ∧
      derive mac maskKey namespaceName ff1KeyLabel = .ok key := by
  cases maskKey with
  | nil => cases resolved
  | cons first maskKey =>
      obtain ⟨hkdfKey, derived⟩ :
          ∃ hkdfKey, hkdfSha256 mac (first :: maskKey) salt (utf8 namespaceName) 32 = .ok hkdfKey :=
        hkdfSha256_salt (first :: maskKey) (utf8 namespaceName)
      have native := native_deriveMac_eq (first :: maskKey) namespaceName ff1KeyLabel derived hkdf
      rw [← deriveMac_eq (first :: maskKey) namespaceName ff1KeyLabel derived] at native
      simp only [batchKey] at resolved
      split at resolved
      · cases resolved
      · rename_i state mac_ok
        split at resolved
        · cases resolved
        · rename_i aes256
          rw [mac_ok] at native
          cases resolved
          refine ⟨rfl, not_not.mp aes256, ?_⟩
          rw [derive, ← native]
          rfl

theorem fpeTransformArray_ok {crate : FpeCrate} {mac : Bytes → Bytes → Bytes}
    (hkdf : Determinism.Native.HkdfCrate mac) {pool : Except (String × String) Unit}
    {cells : List Cell} {maskKey : Bytes} {namespaceName : String} {tweak : List UInt8}
    {charset : List Char} {preserve luhn forward : Bool} {threads : Nat} {result : ArrayResult}
    (ran : fpeTransformArray crate hkdf pool (some cells) (some maskKey) namespaceName tweak charset
      preserve luhn forward threads = .ok result) :
    ∃ key, key.length = ff1KeyBytes ∧ derive mac maskKey namespaceName ff1KeyLabel = .ok key ∧
      rows (.resolve charset preserve luhn tweak)
        (batchFf1 crate key (ResolvedConfig.resolve charset preserve luhn tweak).radix) tweak
        forward 0 cells = some result := by
  simp only [fpeTransformArray] at ran
  split at ran
  · cases ran
  · rename_i others key resolved
    obtain ⟨rfl, keySize, derived⟩ := batchKey_ok hkdf resolved
    refine ⟨key, keySize, derived, ?_⟩
    rw [joinRanges_rowRanges] at ran
    generalize rows (.resolve charset preserve luhn tweak)
      (batchFf1 crate key (ResolvedConfig.resolve charset preserve luhn tweak).radix) tweak
      forward 0 others = filled at ran
    have whole : ofRows filled = .ok result := by
      split at ran
      · exact ran
      · split at ran
        · cases ran
        · exact ran
    cases filled with
    | none => cases whole
    | some other => exact congrArg some (Except.ok.inj whole)

/-- The compiled kernel against the Python transform, in every configuration without a checksum:
one value, the null and the empty cell, a column, and a column over any number of threads. -/
theorem native_fpe_agrees (cipher : BlockCipher) (stdnum : Stdnum) (crate : FpeCrate)
    (same : crate.ComputesFf1 cipher) (charset : List Char) (tweak : List UInt8)
    (preserve luhn forward : Bool) :
    let config := ResolvedConfig.resolve charset preserve luhn tweak
    let python := fun key value =>
      fpeValue cipher stdnum value key charset tweak preserve luhn none forward
    (∀ key : List UInt8, key.length = ff1KeyBytes →
      let ff1 := batchFf1 crate key config.radix
      (∀ value, value ≠ [] → Agrees (fpeOne config ff1 tweak value forward) (python key value)) ∧
      ((luhn = true → ∀ ch ∈ charset, ch ∈ asciiDigits) →
        ∀ value, fpeOne config ff1 tweak value forward ≠ .error .panic) ∧
      (∀ rowIndex,
        row config ff1 tweak forward rowIndex none = some ⟨[none], []⟩ ∧
        referenceRow (python key) rowIndex none = .ok ⟨[none], []⟩ ∧
        row config ff1 tweak forward rowIndex (some []) = some ⟨[some []], []⟩ ∧
        referenceRow (python key) rowIndex (some []) = .ok ⟨[some []], []⟩) ∧
      ∀ start cells, rows config ff1 tweak forward start cells
        = (referenceRows (python key) start cells).toOption) ∧
    (∀ len threads, Tiles 0 len (rowRanges len threads) ∧
      ((rowRanges len threads).flatMap fun range => List.range' range.1 (range.2 - range.1))
        = List.range len) ∧
    ∀ (mac : Bytes → Bytes → Bytes) (hkdf : Determinism.Native.HkdfCrate mac)
      (pool : Except (String × String) Unit) (namespaceName : String),
      (∀ array maskKey threads,
        let transform := fpeTransformArray crate hkdf pool array maskKey namespaceName tweak charset
          preserve luhn forward
        transform threads = transform 1 ∨
          ∃ code detail, pool = .error (code, detail) ∧
            transform threads = .error (.error (.pool code detail))) ∧
      ∀ cells maskKey threads result,
        fpeTransformArray crate hkdf pool (some cells) (some maskKey) namespaceName tweak charset
          preserve luhn forward threads = .ok result →
        ∃ key, derive mac maskKey namespaceName ff1KeyLabel = .ok key ∧
          referenceRows (python key) 0 cells = .ok result := by
  dsimp only
  refine ⟨fun key keySize => ⟨?_, ?_, ?_, ?_⟩, fun len threads => ⟨rowRanges_tiles len threads, ?_⟩,
    fun mac hkdf pool namespaceName => ⟨?_, ?_⟩⟩
  · intro value nonempty
    exact fpeOne_agrees stdnum same keySize nonempty
  · intro digits value
    exact fpeOne_ne_panic same keySize digits value
  · intro rowIndex
    exact ⟨rfl, rfl, rfl, rfl⟩
  · intro start cells
    exact rows_agree stdnum same keySize start cells
  · rw [(rowRanges_tiles len threads).positions, Nat.sub_zero, ← List.range_eq_range']
  · intro array maskKey threads
    exact fpeTransformArray_threads tweak forward crate hkdf pool array maskKey namespaceName charset
      preserve luhn threads
  · intro cells maskKey threads result ran
    obtain ⟨key, keySize, derived, filled⟩ := fpeTransformArray_ok hkdf ran
    refine ⟨key, derived, ?_⟩
    rw [rows_agree stdnum same keySize] at filled
    cases reference : referenceRows (fun value =>
        fpeValue cipher stdnum value key charset tweak preserve luhn none forward) 0 cells with
    | error raised =>
        rw [reference] at filled
        cases filled
    | ok other =>
        rw [reference] at filled
        exact congrArg Except.ok (Option.some.inj filled)

/-- The crate built from the primitive itself. -/
def primitiveCrate (cipher : BlockCipher) : FpeCrate where
  new key radix := some
    { encrypt := fun tweak numerals => (encrypt cipher key tweak radix numerals).toOption
      decrypt := fun tweak numerals => (decrypt cipher key tweak radix numerals).toOption }

theorem primitiveCrate_computesFf1 (cipher : BlockCipher) :
    (primitiveCrate cipher).ComputesFf1 cipher :=
  ⟨fun _ _ _ _ _ => ⟨_, rfl, fun _ _ _ _ _ _ => ⟨rfl, rfl⟩⟩⟩

theorem native_fpe_agrees_digits :
    let config := ResolvedConfig.resolve asciiDigits true false [7]
    let ff1 := batchFf1 (primitiveCrate aes) (List.replicate 32 0) config.radix
    let cells := [none, some [], some ['1', '2', '3', '-', '4', '5', '6'], some ['1', '2']]
    rows config ff1 [7] true 0 cells
      = (referenceRows (fun value => fpeValue aes ReferenceStdnum.stdnum value
          (List.replicate 32 0) asciiDigits [7] true false none true) 0 cells).toOption := by
  have agreement := native_fpe_agrees aes ReferenceStdnum.stdnum (primitiveCrate aes)
    (primitiveCrate_computesFf1 aes) asciiDigits [7] true false true
  have keySize : (List.replicate 32 (0 : UInt8)).length = ff1KeyBytes := List.length_replicate
  obtain ⟨-, -, -, column⟩ := agreement.1 (List.replicate 32 0) keySize
  exact column 0 [none, some [], some ['1', '2', '3', '-', '4', '5', '6'], some ['1', '2']]

end DecoyEngine.Transforms.Native
