import DecoyEngine.DeclaredCasting.CobolRoundTrip

namespace DecoyEngine.DeclaredCasting.Cobol

open DecoyEngine.Data hiding scaled
open DecoyEngine.DeclaredCasting.Numeric

/-! COMP-3: the field is one integer whose hexadecimal digits are the decimal digits and the
sign. -/

theorem nibbles_append (front back : List UInt8) :
    nibbles (front ++ back) = nibbles front ++ nibbles back :=
  List.flatMap_append

theorem length_nibbles (raw : List UInt8) : (nibbles raw).length = 2 * raw.length := by
  induction raw with
  | nil => rfl
  | cons byte raw ih =>
      change (zone byte :: digit byte :: nibbles raw).length = _
      rw [List.length_cons, List.length_cons, ih, List.length_cons]
      omega

theorem nibbles_bytes (length value : Nat) :
    nibbles ((fixedDigits 256 length value).reverse.map UInt8.ofNat) =
      (fixedDigits 16 (2 * length) value).reverse := by
  induction length generalizing value with
  | zero => rfl
  | succ length ih =>
      have low : (UInt8.ofNat (value % 256)).toNat = value % 256 :=
        UInt8.toNat_ofNat_of_lt' (show value % 256 < 256 from Nat.mod_lt _ (by decide))
      have last : nibbles [UInt8.ofNat (value % 256)] = [value / 16 % 16, value % 16] := by
        change [zone _, digit _] = _
        rw [zone_eq, digit_eq, low]
        congr 1
        · omega
        · congr 1
          omega
      rw [fixedDigits, List.reverse_cons, List.map_append, nibbles_append, ih, List.map_cons,
        List.map_nil, last, show 2 * (length + 1) = 2 * length + 1 + 1 by ring, fixedDigits,
        fixedDigits, List.reverse_cons, List.reverse_cons, Nat.div_div_eq_div_mul,
        List.append_assoc]
      rfl

theorem foldl_nibbles (raw : List UInt8) (start : Nat) :
    (nibbles raw).foldl (fun value nibble => value * 16 + nibble) start =
      raw.foldl (fun value byte => value * 256 + byte.toNat) start := by
  induction raw generalizing start with
  | nil => rfl
  | cons byte raw ih =>
      change (zone byte :: digit byte :: nibbles raw).foldl _ start = _
      rw [List.foldl_cons, List.foldl_cons, ih, List.foldl_cons, zone_eq, digit_eq]
      congr 1
      omega

theorem toBytesBig_nibbles (raw : List UInt8) :
    toBytesBig (Nat.ofDigits 16 (nibbles raw).reverse) raw.length = some raw := by
  have value : Nat.ofDigits 16 (nibbles raw).reverse = fromBytesBig raw := by
    rw [← foldl_digits, foldl_nibbles]
    rfl
  have bounded : ∀ digit ∈ (raw.map UInt8.toNat).reverse, digit < 256 := by
    intro digit member
    obtain ⟨byte, -, rfl⟩ := List.mem_map.mp (List.mem_reverse.mp member)
    exact byte.toNat_lt
  have digits := fixedDigits_ofDigits bounded
  rw [List.length_reverse, List.length_map] at digits
  rw [value, toBytesBig, if_pos (fromBytesBig_lt raw), fromBytesBig_eq, digits,
    List.reverse_reverse, List.map_map]
  congr 1
  refine (List.map_congr_left fun byte _ => ?_).trans (List.map_id raw)
  exact UInt8.ofNat_toNat

theorem toBytesBig_packed {length : Nat} {packed : List Nat}
    (small : ∀ nibble ∈ packed, nibble < 16) (width : packed.length = 2 * length) :
    ∃ bytes, toBytesBig (Nat.ofDigits 16 packed.reverse) length = some bytes ∧
      bytes.length = length ∧ nibbles bytes = packed := by
  have reversed : ∀ nibble ∈ packed.reverse, nibble < 16 := fun nibble member =>
    small nibble (List.mem_reverse.mp member)
  have fits : Nat.ofDigits 16 packed.reverse < 256 ^ length := by
    have bound := ofDigits_lt_pow (by decide) reversed
    rwa [List.length_reverse, width, Nat.pow_mul] at bound
  have digits := fixedDigits_ofDigits reversed
  rw [List.length_reverse, width] at digits
  refine ⟨_, if_pos fits, by simp, ?_⟩
  rw [nibbles_bytes, digits, List.reverse_reverse]

theorem hexNat_digits {digits : List Nat} (small : ∀ digit ∈ digits, digit < 10) (nibble : Nat) :
    hexNat (digits.map digitChar) * 16 + nibble =
      Nat.ofDigits 16 (digits ++ [nibble]).reverse := by
  have value : hexNat (digits.map digitChar) = Nat.ofDigits 16 digits.reverse := by
    rw [hexNat, List.foldl_map, ← foldl_digits]
    refine List.foldl_ext _ _ _ fun value digit member => ?_
    rw [digitOf_digitChar (small digit member)]
  rw [value, List.reverse_append, List.reverse_singleton, List.singleton_append, Nat.ofDigits_cons]
  ring

theorem comp3Length_spec (spec : Picture) :
    0 < comp3Length spec.precision ∧
      (2 * comp3Length spec.precision - 1 = spec.precision ∨
        2 * comp3Length spec.precision - 1 = spec.precision + 1) := by
  have positivePrecision := spec.precision_range.1
  rw [comp3Length]
  omega

/-- The nibbles of an accepted field: digits, of which one more than the precision is a zero, and a
sign. -/
structure PackedField (spec : Picture) (raw : List UInt8) (digits : List Nat) (sign : Nat) :
    Prop where
  length : raw.length = comp3Length spec.precision
  nibbles_eq : nibbles raw = digits ++ [sign]
  small : ∀ nibble ∈ digits, nibble < 10
  pad : spec.precision < digits.length → digits.head? = some 0
  sign_mem : if spec.signed then sign ∈ [0xC, 0xD] else sign = 0xF

section Fields

variable {spec : Picture} {raw : List UInt8} {digits : List Nat} {sign : Nat}

theorem PackedField.parse (field : PackedField spec raw digits sign) :
    parseComp3 spec raw =
      .ok (scaled (textNat (digits.map digitChar)) spec.scale (sign == 0xD)) := by
  have front : (nibbles raw).dropLast = digits := by rw [field.nibbles_eq, List.dropLast_concat]
  have last : (nibbles raw).getLastD 0 = sign := by
    rw [field.nibbles_eq, List.getLastD_eq_getLast?, List.getLast?_concat]
    rfl
  have within : ¬ digits.any (fun nibble => decide (9 < nibble)) = true := by
    rw [List.any_eq_true]
    intro ⟨nibble, member, large⟩
    have small := field.small nibble member
    have above := of_decide_eq_true large
    omega
  have padded : ¬ (spec.precision < digits.length ∧ digits.head? ≠ some 0) :=
    fun wrong => wrong.2 (field.pad wrong.1)
  have signs := field.sign_mem
  rw [parseComp3, if_neg (not_not.mpr field.length)]
  dsimp only
  rw [front, last, if_neg within, if_neg padded]
  cases signed : spec.signed with
  | true =>
      rw [signed, if_pos rfl] at signs
      rw [if_pos rfl, if_neg (not_not.mpr signs)]
      rfl
  | false =>
      rw [signed, if_neg Bool.false_ne_true] at signs
      rw [if_neg Bool.false_ne_true, if_neg (not_not.mpr signs)]
      rfl

theorem packedField_of_parse {value : PyDecimal} (parsed : parseComp3 spec raw = .ok value) :
    ∃ digits sign, PackedField spec raw digits sign := by
  rw [parseComp3] at parsed
  split at parsed
  · cases parsed
  rename_i length
  rw [not_not] at length
  dsimp only at parsed
  split at parsed
  · cases parsed
  rename_i within
  split at parsed
  · cases parsed
  rename_i padded
  have some : nibbles raw ≠ [] := by
    intro empty
    have count := length_nibbles raw
    rw [empty, length, List.length_nil] at count
    have positiveLength := (comp3Length_spec spec).1
    omega
  refine ⟨(nibbles raw).dropLast, (nibbles raw).getLastD 0, length, ?_, ?_, ?_, ?_⟩
  · rw [List.getLastD_eq_getLast?, List.getLast?_eq_some_getLast some, Option.getD_some]
    exact (List.dropLast_append_getLast some).symm
  · intro nibble member
    by_contra large
    exact within (List.any_eq_true.mpr ⟨nibble, member, decide_eq_true (by omega)⟩)
  · intro longer
    by_contra nonzero
    exact padded ⟨longer, nonzero⟩
  · split at parsed
    · rename_i signed
      split at parsed
      · cases parsed
      rename_i admitted
      rw [if_pos signed]
      exact not_not.mp admitted
    · rename_i unsigned
      split at parsed
      · cases parsed
      rename_i admitted
      rw [if_neg unsigned]
      exact not_not.mp admitted

theorem PackedField.width (field : PackedField spec raw digits sign) :
    digits.length = 2 * comp3Length spec.precision - 1 := by
  have count := length_nibbles raw
  rw [field.nibbles_eq, field.length, List.length_append, List.length_singleton] at count
  omega

theorem PackedField.fits (field : PackedField spec raw digits sign) :
    textNat (digits.map digitChar) < 10 ^ spec.precision := by
  have bound := textNat_lt field.small
  rcases (comp3Length_spec spec).2 with exactly | longer
  · rwa [field.width, exactly] at bound
  · have head := field.pad (by rw [field.width]; omega)
    cases digits with
    | nil => cases head
    | cons first rest =>
        obtain rfl := Option.some.inj head
        have width := field.width
        rw [List.length_cons, longer, Nat.add_right_cancel_iff] at width
        rw [← width]
        exact textNat_lt fun nibble member => field.small nibble (List.mem_cons_of_mem _ member)

theorem formatComp3_eq {value : Value} {number : Nat} {isNegative : Bool} {bytes : List UInt8}
    (small : ∀ nibble ∈ digits, nibble < 10)
    (width : digits.length = 2 * comp3Length spec.precision - 1)
    (field : unscaled spec value = .ok (number, isNegative))
    (isNumber : textNat (digits.map digitChar) = number)
    (sign : isNegative = true → spec.signed = true)
    (packed : toBytesBig (Nat.ofDigits 16 (digits ++ [signNibble spec isNegative]).reverse)
      (comp3Length spec.precision) = some bytes) :
    formatComp3 spec value = .ok bytes := by
  have fits := textNat_lt small
  have recovered := digitList_textNat small
  rw [isNumber, width] at fits recovered
  have positiveLength := (comp3Length_spec spec).1
  rw [formatComp3, field]
  dsimp only
  rw [if_neg (fun unsigned => unsigned.2 (sign unsigned.1)),
    rjustDigits_eq (by omega) fits, recovered, hexNat_digits small, packed]

theorem signNibble_mem {isNegative : Bool} (sign : isNegative = true → spec.signed = true) :
    (if spec.signed then signNibble spec isNegative ∈ [0xC, 0xD]
      else signNibble spec isNegative = 0xF) ∧
        (signNibble spec isNegative == 0xD) = isNegative := by
  rw [signNibble]
  cases signed : spec.signed with
  | true => cases isNegative <;> decide
  | false =>
      cases isNegative with
      | true => exact absurd (sign rfl) (by simp [signed])
      | false => decide

theorem signNibble_of_mem (admitted : if spec.signed then sign ∈ [0xC, 0xD] else sign = 0xF) :
    signNibble spec (sign == 0xD) = sign ∧ ((sign == 0xD) = true → spec.signed = true) := by
  rw [signNibble]
  cases signed : spec.signed with
  | true =>
      rw [signed, if_pos rfl] at admitted
      simp only [List.mem_cons, List.not_mem_nil, or_false] at admitted
      rcases admitted with rfl | rfl <;> decide
  | false =>
      rw [signed, if_neg Bool.false_ne_true] at admitted
      subst admitted
      decide

end Fields

theorem comp3_inverse (spec : Picture) :
    ExactInverse spec (comp3Length spec.precision) id (parseComp3 spec) (formatComp3 spec) where
  parse_format value isNegative number bounded holds := by
    obtain ⟨isValue, fits, sign⟩ := holds
    obtain ⟨positiveLength, widths⟩ := comp3Length_spec spec
    let width := 2 * comp3Length spec.precision - 1
    have small := digitList_lt width number
    have wide : number < 10 ^ width :=
      fits.trans_le (Nat.pow_le_pow_right (by decide) (by omega))
    have text := textNat_digitList wide
    have length := length_digitList width number
    obtain ⟨signMem, readSign⟩ := signNibble_mem sign
    have nibblesSmall : ∀ nibble ∈ digitList width number ++ [signNibble spec isNegative],
        nibble < 16 := by
      intro nibble member
      rcases List.mem_append.mp member with inDigits | isSign
      · have below := small nibble inDigits
        omega
      · exact List.mem_singleton.mp isSign ▸ signNibble_lt spec isNegative
    have nibbleCount : (digitList width number ++ [signNibble spec isNegative]).length =
        2 * comp3Length spec.precision := by
      rw [List.length_append, length, List.length_singleton]
      omega
    obtain ⟨bytes, packed, bytesLength, isPacked⟩ := toBytesBig_packed nibblesSmall nibbleCount
    have field : PackedField spec bytes (digitList width number) (signNibble spec isNegative) := by
      refine ⟨bytesLength, isPacked, small, fun longer => ?_, signMem⟩
      have padded : width = spec.precision + 1 := by
        rw [length] at longer
        omega
      rw [padded, digitList_head fits]
      rfl
    refine ⟨bytes, formatComp3_eq small length (unscaled_eq_ok.mpr ⟨bounded, isValue, fits⟩) text
      sign packed, bytesLength, ?_⟩
    rw [field.parse, text, readSign]
  format_parse raw value parsed := by
    obtain ⟨digits, sign, field⟩ := packedField_of_parse parsed
    rw [field.parse] at parsed
    obtain rfl := Except.ok.inj parsed
    obtain ⟨nibble, signed⟩ := signNibble_of_mem field.sign_mem
    refine formatComp3_eq field.small field.width (unscaled_scaled field.fits) rfl signed ?_
    rw [nibble, ← field.nibbles_eq, ← field.length]
    exact toBytesBig_nibbles raw
  refuses value outside := by
    rcases unscaled_total spec value with ⟨number, isNegative, field⟩ | ⟨reason, field⟩
    · obtain ⟨bounded, isValue, fits⟩ := unscaled_eq_ok.mp field
      refine ⟨.cobolInvalid, ?_⟩
      rw [formatComp3, field]
      dsimp only
      rw [if_pos]
      · rfl
      by_contra signed
      exact outside ⟨bounded, isNegative, number, isValue, fits, by tauto⟩
    · exact ⟨reason, by rw [formatComp3, field]⟩

/-- All three COBOL codecs are exact inverses, on the values whose tuple `unscale` looks at: a value
of the picture has its field and reads back, and a field that is read is written again byte for
byte. -/
theorem cobol_codecs_exact (spec : Picture) :
    ExactInverse spec.asSigned spec.precision id (parseOverpunch spec) (formatOverpunch spec) ∧
      ExactInverse spec spec.precision (canonicalZone spec) (parseZoned spec) (formatZoned spec) ∧
      ExactInverse spec (comp3Length spec.precision) id (parseComp3 spec) (formatComp3 spec) :=
  ⟨overpunch_inverse spec, zoned_inverse spec, comp3_inverse spec⟩

/-- A zero with a large exponent is a value of every picture and is refused. -/
theorem large_exponent_zero_refused :
    ∃ spec : Picture,
      spec.Holds (.decimal (.finite false 0 257)) false 0 ∧
      formatOverpunch spec (.decimal (.finite false 0 257)) =
        .error (.registered .decimalInvalid) := by
  refine ⟨⟨5, 2, true, by decide, by decide⟩, ⟨⟨0, 257, rfl, ?_⟩, by decide, fun _ => rfl⟩,
    by decide⟩
  rw [Data.scaled, Data.scaled, Nat.cast_zero, zero_mul, zero_mul]

end DecoyEngine.DeclaredCasting.Cobol
