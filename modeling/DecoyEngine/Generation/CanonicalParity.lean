import DecoyEngine.Generation.Canonicalize

namespace DecoyEngine.Generation

open DecoyEngine.Data DecoyEngine.Determinism

/-! The native canonical bytes are the Python ones. -/

def bodyWidth (value : Int) : Nat := (bitLength value + 8) / 8

theorem bodyWidth_reserves (value : Int) : bitLength value + 1 ≤ 8 * bodyWidth value := by
  rw [bodyWidth]
  omega

theorem natAbs_lt (value : Int) : value.natAbs < 2 ^ (8 * bodyWidth value - 1) := by
  have size : value.natAbs < 2 ^ bitLength value := Nat.lt_size_self _
  have room := bodyWidth_reserves value
  exact Nat.lt_of_lt_of_le size (Nat.pow_le_pow_right (by decide) (by omega))

theorem pow_byte (width : Nat) : (256 : Nat) ^ width = 2 ^ (8 * width) := by
  rw [Nat.pow_mul]

theorem half_pow {width : Nat} (positive : 0 < width) :
    (256 : Nat) ^ width = 2 * 2 ^ (8 * width - 1) := by
  rw [pow_byte, ← Nat.pow_succ']
  congr 1
  omega

theorem bodyWidth_pos (value : Int) : 0 < bodyWidth value := by
  have room := bodyWidth_reserves value
  omega

/-- The word of the integer, as an unsigned number. -/
def word (value : Int) (width : Nat) : Nat := (value % 256 ^ width).toNat

theorem word_lt (value : Int) (width : Nat) : word value width < 256 ^ width := by
  have positive : (0 : Int) < 256 ^ width := by positivity
  have below := Int.emod_lt_of_pos value positive
  have nonneg := Int.emod_nonneg value (Int.ne_of_gt positive)
  rw [word]
  have cast : ((256 ^ width : Nat) : Int) = 256 ^ width := by push_cast; rfl
  omega

theorem toBytesSigned_bodyWidth (value : Int) :
    toBytesSigned value (bodyWidth value) =
      some ((fixedDigits 256 (bodyWidth value) (word value (bodyWidth value))).reverse.map
        UInt8.ofNat) := by
  have small := natAbs_lt value
  have cast : ((2 ^ (8 * bodyWidth value - 1) : Nat) : Int) = 2 ^ (8 * bodyWidth value - 1) := by
    push_cast
    rfl
  rw [toBytesSigned, if_pos (by omega)]
  exact if_pos (word_lt value (bodyWidth value))

theorem word_eq (value : Int) :
    word value (bodyWidth value) =
      if 0 ≤ value then value.toNat else 256 ^ bodyWidth value - value.natAbs := by
  have small := natAbs_lt value
  have half := half_pow (bodyWidth_pos value)
  have cast : ((256 ^ bodyWidth value : Nat) : Int) = 256 ^ bodyWidth value := by
    push_cast
    rfl
  rw [word, ← cast]
  split
  · rename_i nonneg
    rw [Int.emod_eq_of_lt nonneg (by omega)]
  · rename_i negative
    rw [← Int.add_emod_right, Int.emod_eq_of_lt (by omega) (by omega)]
    omega

theorem encodeInt_eq_some {value : Int} {bytes : Bytes} (encoded : encodeInt value = some bytes) :
    ∃ head body, bytes = head ++ body ∧ frame body = some bytes ∧
      body.length = bodyWidth value ∧ fromBytesBig body = word value (bodyWidth value) := by
  have body := toBytesSigned_bodyWidth value
  have digits : toBytesBig (word value (bodyWidth value)) (bodyWidth value) =
      some ((fixedDigits 256 (bodyWidth value) (word value (bodyWidth value))).reverse.map
        UInt8.ofNat) := if_pos (word_lt value (bodyWidth value))
  rw [encodeInt] at encoded
  change (toBytesSigned value (bodyWidth value)).bind frame = some bytes at encoded
  rw [body, Option.bind_some] at encoded
  obtain ⟨head, split, _, _⟩ := frame_cases encoded
  exact ⟨head, _, split, encoded, length_of_toBytesBig digits, fromBytesBig_toBytesBig digits⟩

theorem word_injective {left right : Int} (widths : bodyWidth left = bodyWidth right)
    (words : word left (bodyWidth left) = word right (bodyWidth right)) : left = right := by
  have leftSmall := natAbs_lt left
  have rightSmall := natAbs_lt right
  have half := half_pow (bodyWidth_pos right)
  rw [word_eq, word_eq, widths] at words
  rw [widths] at leftSmall
  split at words <;> split at words <;> omega

theorem encodeInt_injective {left right : Int} {bytes : Bytes}
    (leftEncoded : encodeInt left = some bytes) (rightEncoded : encodeInt right = some bytes) :
    left = right := by
  obtain ⟨_, leftBody, _, leftFrame, leftWidth, leftWord⟩ := encodeInt_eq_some leftEncoded
  obtain ⟨_, rightBody, _, rightFrame, rightWidth, rightWord⟩ := encodeInt_eq_some rightEncoded
  obtain ⟨rfl, _⟩ := frame_append_inj leftFrame rightFrame (rfl : bytes ++ [] = bytes ++ [])
  exact word_injective (leftWidth.symm.trans rightWidth) (leftWord.symm.trans rightWord)

namespace Native

theorem length_leadingZeros {magnitude bits : Nat} (small : magnitude < 2 ^ bits) :
    ((List.range bits).reverse.takeWhile fun bit => !magnitude.testBit bit).length =
      bits - magnitude.size := by
  induction bits with
  | zero => simp
  | succ bits ih =>
      rw [List.range_succ, List.reverse_append, List.reverse_singleton, List.singleton_append]
      by_cases top : magnitude.testBit bits = true
      · have least : 2 ^ bits ≤ magnitude := Nat.ge_two_pow_of_testBit top
        have size : bits + 1 ≤ magnitude.size := Nat.lt_size.mpr least
        rw [List.takeWhile_cons_of_neg (by simp [top]), List.length_nil]
        omega
      · have below : magnitude < 2 ^ bits := by
          apply Nat.lt_pow_two_of_testBit
          intro bit above
          rcases Nat.eq_or_lt_of_le above with same | later
          · rw [← same]
            exact Bool.eq_false_of_not_eq_true top
          · exact Nat.testBit_lt_two_pow (Nat.lt_of_lt_of_le small
              (Nat.pow_le_pow_right (by decide) later))
        have size : magnitude.size ≤ bits := Nat.size_le.mpr below
        rw [List.takeWhile_cons_of_pos (by simp [top]), List.length_cons, ih below]
        omega

theorem bitLength_eq {value : Int} (small : value.natAbs < 2 ^ 128) :
    (if value.natAbs = 0 then 0 else 128 - leadingZeros value.natAbs) = bitLength value := by
  split
  · rename_i zero
    rw [bitLength, zero, Nat.size_zero]
  · have size : value.natAbs.size ≤ 128 := Nat.size_le.mpr small
    rw [leadingZeros, length_leadingZeros small, bitLength]
    omega

theorem drop_toBeBytes {width : Nat} (narrow : width ≤ 16) (value : Nat) :
    (toBeBytes value).drop (16 - width) = (fixedDigits 256 width value).reverse.map UInt8.ofNat := by
  obtain ⟨high, wide⟩ := Nat.exists_eq_add_of_le narrow
  rw [toBeBytes, wide, fixedDigits_add, List.reverse_append, List.map_append,
    Nat.add_sub_cancel_left]
  apply List.drop_left'
  simp

/-- Every integer of at most 64 bits, signed or not, has the bytes Python gives it. -/
theorem encodeInt_eq {value : Int} (small : value.natAbs ≤ 2 ^ 64) :
    Generation.encodeInt value = some (encodeInt value) := by
  have size : bitLength value ≤ 65 := Nat.size_le.mpr (by omega)
  have narrow : bodyWidth value ≤ 16 := by
    rw [bodyWidth]
    omega
  have unsigned : (if 0 ≤ value then value.toNat else 2 ^ (bodyWidth value * 8) - value.natAbs) =
      word value (bodyWidth value) := by
    rw [word_eq, pow_byte, Nat.mul_comm]
  have body : twosComplementBe value (bodyWidth value) =
      (fixedDigits 256 (bodyWidth value) (word value (bodyWidth value))).reverse.map
        UInt8.ofNat := by
    rw [twosComplementBe, unsigned, drop_toBeBytes narrow]
  have head : toBytesBig (bodyWidth value) 4 =
      some ((fixedDigits 256 4 (bodyWidth value)).reverse.map UInt8.ofNat) := if_pos (by omega)
  have native : encodeInt value = (fixedDigits 256 4 (bodyWidth value)).reverse.map UInt8.ofNat ++
      twosComplementBe value (bodyWidth value) := by
    rw [encodeInt, bitLength_eq (by omega)]
    rfl
  have python : Generation.encodeInt value =
      (toBytesSigned value (bodyWidth value)).bind frame := rfl
  rw [python, toBytesSigned_bodyWidth, Option.bind_some, native, body, frame, List.length_map,
    List.length_reverse, length_fixedDigits, head, Option.map_some]

end Native

theorem year_bounds (days : Int) :
    (days + 719468) / 146097 * 400 ≤ (civilOfDays days).year ∧
      (civilOfDays days).year ≤ (days + 719468) / 146097 * 400 + 401 := by
  simp only [civilOfDays]
  constructor
  · split <;> omega
  · split <;> omega

namespace Native

theorem fromTimestamp_eq {secs micros : Int} {nanos : Nat}
    (instant : micros = secs * 1000000 + (nanos / 1000 : Nat)) (below : nanos < 1000000000)
    (years : chronoYears.1 ≤ (fieldsOfMicros micros).date.year ∧
      (fieldsOfMicros micros).date.year ≤ chronoYears.2) :
    fromTimestamp secs nanos =
      some { fieldsOfMicros micros with
        nanos := (fieldsOfMicros micros).nanos + nanos % 1000 } := by
  have days : micros / 86400000000 = secs / 86400 := by omega
  have date : (fieldsOfMicros micros).date = civilOfDays (secs / 86400) := by
    rw [fieldsOfMicros, days]
  rw [date] at years
  rw [fromTimestamp, if_pos years]
  simp only [fieldsOfMicros, days, Option.some.injEq, ClockFields.mk.injEq, true_and]
  refine ⟨?_, ?_, ?_, ?_⟩ <;> omega

theorem nanos_fieldsOfMicros (micros : Int) :
    ∃ micro < 10 ^ 6, (fieldsOfMicros micros).nanos = micro * 1000 := by
  refine ⟨(micros % 86400000000).toNat % 1000000, Nat.mod_lt _ (by decide), ?_⟩
  rw [fieldsOfMicros]

theorem secondsText_nanos (fields : ClockFields) (nanos : Nat) :
    ({ fields with nanos } : ClockFields).secondsText = fields.secondsText := rfl

/-- The fraction of a second: nine digits are the six of the microseconds and three more. -/
theorem fraction_eq {micro nano : Nat} (microSmall : micro < 10 ^ 6) (nanoSmall : nano < 10 ^ 3) :
    (if micro * 1000 + nano = 0 then []
      else if (micro * 1000 + nano) % 1000 = 0 then
        '.' :: zeroPadded 6 ((micro * 1000 + nano) / 1000)
      else '.' :: zeroPadded 9 (micro * 1000 + nano)) =
    if nano = 0 then (if micro = 0 then [] else '.' :: zeroPadded 6 micro)
    else if micro ≠ 0 then
      (if micro = 0 then [] else '.' :: zeroPadded 6 micro) ++ zeroPadded 3 nano
    else '.' :: zeroPadded 9 nano := by
  have whole : (micro * 1000 + nano) % 1000 = nano := by omega
  have part : (micro * 1000 + nano) / 1000 = micro := by omega
  rw [whole, part]
  by_cases nanoZero : nano = 0
  · subst nanoZero
    by_cases microZero : micro = 0
    · simp [microZero]
    · have nonzero : ¬ micro * 1000 + 0 = 0 := by omega
      rw [if_neg nonzero, if_pos rfl, if_pos rfl, if_neg microZero]
  · have nonzero : ¬ micro * 1000 + nano = 0 := by omega
    rw [if_neg nonzero, if_neg nanoZero, if_neg nanoZero]
    by_cases microZero : micro = 0
    · simp [microZero]
    · rw [if_pos microZero, if_neg microZero, zeroPadded_split microSmall nanoSmall,
        List.cons_append]

theorem encodeTimestamp_eq {unit : TimeUnit} {ticks secs : Int} {nanos : Nat}
    (converted : toDatetime unit ticks = fromTimestamp secs nanos) (below : nanos < 1000000000)
    (years : chronoYears.1 ≤ (fieldsOfMicros ((secs * 1000000000 + nanos) / 1000)).date.year ∧
      (fieldsOfMicros ((secs * 1000000000 + nanos) / 1000)).date.year ≤ chronoYears.2) :
    encodeTimestamp unit ticks =
      .ok (encodeText (isoformatTimestamp (secs * 1000000000 + nanos))) := by
  have instant : (secs * 1000000000 + nanos) / 1000 = secs * 1000000 + (nanos / 1000 : Nat) := by
    omega
  have nano : ((secs * 1000000000 + (nanos : Int)) % 1000).toNat = nanos % 1000 := by omega
  have fields := fromTimestamp_eq instant below years
  obtain ⟨micro, microSmall, known⟩ := nanos_fieldsOfMicros ((secs * 1000000000 + nanos) / 1000)
  have nanoSmall : nanos % 1000 < 10 ^ 3 := Nat.mod_lt _ (by decide)
  have fraction := fraction_eq microSmall nanoSmall
  rw [encodeTimestamp, converted, fields]
  simp only [isoformatTimestamp, nano, known, Nat.mul_div_cancel _ (by decide : 0 < 1000),
    fraction, secondsText_nanos]

end Native

theorem isoformatTimestamp_micros (micros : Int) :
    isoformatTimestamp (micros * 1000) = isoformatDatetime micros := by
  have instant : micros * 1000 / 1000 = micros := by omega
  have nano : (micros * 1000 % 1000).toNat = 0 := by omega
  simp only [isoformatTimestamp, isoformatDatetime, instant, nano, if_true]

theorem nanos_years (ticks : Int64) :
    Native.chronoYears.1 ≤ (fieldsOfMicros (ticks.toInt / 1000)).date.year ∧
      (fieldsOfMicros (ticks.toInt / 1000)).date.year ≤ Native.chronoYears.2 := by
  have lower := ticks.le_toInt
  have upper := ticks.toInt_lt
  have bounds := year_bounds (ticks.toInt / 1000 / 86400000000)
  simp only [fieldsOfMicros, Native.chronoYears]
  omega

/-- A `datetime` in UTC and in the time zone of the column. -/
def HoldsInstant (utcoffset : String → Int → Int) (zone : String) (micros : Int) : Prop :=
  representable micros ∧ representable (micros + utcoffset zone micros)

/-- Cells whose Python value exists and whose text the two normalizations agree on. -/
def Comparable (nfc nativeNfc : String → String) (utcoffset : String → Int → Int) : Cell → Prop
  | .text value => nativeNfc value = nfc value
  | .timestamp .second (some zone) ticks => HoldsInstant utcoffset zone (ticks.toInt * 1000000)
  | .timestamp .millisecond (some zone) ticks => HoldsInstant utcoffset zone (ticks.toInt * 1000)
  | .timestamp .microsecond (some zone) ticks => HoldsInstant utcoffset zone ticks.toInt
  | .timestamp .nanosecond (some _) ticks => ticks ≠ Int64.minValue
  | _ => True

theorem representable_years {micros : Int} (inside : representable micros) :
    Native.chronoYears.1 ≤ (fieldsOfMicros micros).date.year ∧
      (fieldsOfMicros micros).date.year ≤ Native.chronoYears.2 := by
  rw [representable] at inside
  simp only [Native.chronoYears]
  omega

theorem natAbs_intCell (cell : IntCell) : cell.value.natAbs ≤ 2 ^ 64 := by
  obtain ⟨type, value, inside⟩ := cell
  cases type <;> simp only [IntType.bounds] at inside ⊢ <;> omega

section Cells

variable {nfc nativeNfc : String → String} {utcoffset : String → Int → Int}

theorem datetime_agrees {unit : TimeUnit} {zone : String} {ticks : Int64} {micros secs : Int}
    {nanos : Nat} (held : HoldsInstant utcoffset zone micros)
    (value : asPy utcoffset (.timestamp unit (some zone) ticks) =
      datetimeAsPy utcoffset (some zone) micros)
    (converted : Native.toDatetime unit ticks.toInt = Native.fromTimestamp secs nanos)
    (below : nanos < 1000000000) (instant : secs * 1000000000 + nanos = micros * 1000) :
    ∃ bytes, pythonCanonical nfc utcoffset (.timestamp unit (some zone) ticks) = .ok bytes ∧
      Native.canonicalizeRow nativeNfc (.timestamp unit (some zone) ticks) = .ok bytes := by
  have years := representable_years held.1
  have same : (secs * 1000000000 + nanos) / 1000 = micros := by omega
  rw [← same] at years
  have native := Native.encodeTimestamp_eq converted below years
  rw [instant, isoformatTimestamp_micros] at native
  obtain ⟨inUtc, inZone⟩ := held
  refine ⟨_, ?_, native⟩
  rw [pythonCanonical, value, datetimeAsPy, if_pos ⟨inUtc, inZone⟩]
  rfl

theorem admitted_agrees (cell : Cell) (admitted : Native.isAdmittedType cell)
    (comparable : Comparable nfc nativeNfc utcoffset cell) :
    ∃ bytes, pythonCanonical nfc utcoffset cell = .ok bytes ∧
      Native.canonicalizeRow nativeNfc cell = .ok bytes := by
  match cell, admitted, comparable with
  | .boolean value, _, _ => exact ⟨_, rfl, rfl⟩
  | .integer value, _, _ =>
      refine ⟨_, ?_, rfl⟩
      have encoded := Native.encodeInt_eq (natAbs_intCell value)
      simp only [pythonCanonical, asPy, canonicalizeSource, bind, Except.bind, encoded]
  | .text value, _, agree =>
      refine ⟨_, rfl, ?_⟩
      rw [Native.canonicalizeRow, agree]
  | .timestamp .second (some zone) ticks, _, held =>
      exact datetime_agrees held rfl rfl (by decide) (by omega)
  | .timestamp .millisecond (some zone) ticks, _, held =>
      exact datetime_agrees held rfl rfl (by omega) (by omega)
  | .timestamp .microsecond (some zone) ticks, _, held =>
      exact datetime_agrees held rfl rfl (by omega) (by omega)
  | .timestamp .nanosecond (some zone) ticks, _, valid =>
      have instant : ticks.toInt / 1000000000 * 1000000000 +
          ((ticks.toInt % 1000000000).toNat : Nat) = ticks.toInt := by omega
      have years := nanos_years ticks
      rw [← instant] at years
      have native : Native.encodeTimestamp .nanosecond ticks.toInt = _ :=
        Native.encodeTimestamp_eq rfl (by omega) years
      rw [instant] at native
      refine ⟨_, ?_, native⟩
      rw [pythonCanonical, asPy, if_neg valid]
      rfl

theorem naive_refused (unit : TimeUnit) (ticks : Int64) :
    (∃ error, pythonCanonical nfc utcoffset (.timestamp unit none ticks) = .error error) ∧
      ∃ error, Native.canonicalizeRow nativeNfc (.timestamp unit none ticks) = .error error := by
  refine ⟨?_, _, rfl⟩
  have datetime (unit : TimeUnit) (micros : Int)
      (read : asPy utcoffset (.timestamp unit none ticks) = datetimeAsPy utcoffset none micros) :
      ∃ error, pythonCanonical nfc utcoffset (.timestamp unit none ticks) = .error error := by
    rw [pythonCanonical, read, datetimeAsPy]
    split
    · exact ⟨_, rfl⟩
    · exact ⟨_, rfl⟩
  cases unit with
  | second => exact datetime _ _ rfl
  | millisecond => exact datetime _ _ rfl
  | microsecond => exact datetime _ _ rfl
  | nanosecond =>
      rw [pythonCanonical, asPy]
      split
      · exact ⟨_, rfl⟩
      · exact ⟨_, rfl⟩

theorem unadmitted_refused (cell : Cell) (unadmitted : ¬ Native.isAdmittedType cell) :
    ∃ error, Native.canonicalizeRow nativeNfc cell = .error error := by
  match cell, unadmitted with
  | .boolean value, unadmitted => exact absurd rfl unadmitted
  | .integer value, unadmitted => exact absurd rfl unadmitted
  | .text value, unadmitted => exact absurd rfl unadmitted
  | .timestamp unit (some zone) ticks, unadmitted => exact absurd rfl unadmitted
  | .binary value, _ => exact ⟨_, rfl⟩
  | .date days, _ => exact ⟨_, rfl⟩
  | .timestamp unit none ticks, _ => exact ⟨_, rfl⟩

end Cells

/-- On the admitted types the native bytes are the Python bytes; what is not admitted is refused,
naive timestamps on both sides; and an integer is known from its bytes. -/
theorem native_canonicalization_agrees (nfc nativeNfc : String → String)
    (utcoffset : String → Int → Int) :
    (∀ cell, Native.isAdmittedType cell → Comparable nfc nativeNfc utcoffset cell →
      ∃ bytes, pythonCanonical nfc utcoffset cell = .ok bytes ∧
        Native.canonicalizeRow nativeNfc cell = .ok bytes) ∧
    (∀ unit ticks,
      (∃ error, pythonCanonical nfc utcoffset (.timestamp unit none ticks) = .error error) ∧
      ∃ error, Native.canonicalizeRow nativeNfc (.timestamp unit none ticks) = .error error) ∧
    (∀ cell, ¬ Native.isAdmittedType cell →
      ∃ error, Native.canonicalizeRow nativeNfc cell = .error error) ∧
    (∀ left right bytes, encodeInt left = some bytes → encodeInt right = some bytes →
      left = right) ∧
    (∀ value bytes, encodeInt value = some bytes → ∃ head body, bytes = head ++ body ∧
      body.length = (bitLength value + 8) / 8 ∧
      fromBytesBig body = (value % 256 ^ ((bitLength value + 8) / 8)).toNat) ∧
    ∀ value : IntCell, encodeInt value.value = some (Native.encodeInt value.value) := by
  refine ⟨admitted_agrees, naive_refused, unadmitted_refused, ?_, ?_, ?_⟩
  · intro left right bytes leftEncoded rightEncoded
    exact encodeInt_injective leftEncoded rightEncoded
  · intro value bytes encoded
    obtain ⟨head, body, split, _, width, number⟩ := encodeInt_eq_some encoded
    exact ⟨head, body, split, width, number⟩
  · intro value
    exact Native.encodeInt_eq (natAbs_intCell value)

theorem native_canonicalization_agrees_minute :
    ∃ bytes, pythonCanonical id (fun _ _ => 0) (.timestamp .second (some "UTC") 60) = .ok bytes ∧
      Native.canonicalizeRow id (.timestamp .second (some "UTC") 60) = .ok bytes := by
  apply (native_canonicalization_agrees id id (fun _ _ => 0)).1
  · rfl
  · have minute : representable ((60 : Int64).toInt * 1000000) := by decide
    refine ⟨minute, ?_⟩
    rw [Int.add_zero]
    exact minute

/-- A date has canonical bytes in Python and is refused by the native code. -/
theorem date_is_not_native :
    pythonCanonical id (fun _ _ => 0) (.date 0) =
        .ok [49, 57, 55, 48, 45, 48, 49, 45, 48, 49] ∧
      Native.canonicalizeRow id (.date 0) =
        .error (.unsupported "Arrow type Date32 is not native-admitted") := by
  refine ⟨?_, rfl⟩
  decide +kernel

end DecoyEngine.Generation
