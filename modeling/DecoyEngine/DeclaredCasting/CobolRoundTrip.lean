import DecoyEngine.DeclaredCasting.Cobol

namespace DecoyEngine.DeclaredCasting.Cobol

open DecoyEngine.Data hiding scaled
open DecoyEngine.DeclaredCasting.Numeric

/-! The COBOL formatters and parsers are inverse to each other on the values of a picture. -/

/-- The values of a picture: a sign it has and at most `precision` digits at its scale. -/
def Picture.Holds (spec : Picture) (value : Value) (isNegative : Bool) (number : Nat) : Prop :=
  value.Is isNegative number spec.scale ∧ number < 10 ^ spec.precision ∧
    (isNegative = true → spec.signed = true)

/-- A codec of fields of one length: what is formatted reads back as the value at the declared
scale, what is read formats to its canonical bytes, and a value outside the picture fails with a
registered reason. -/
structure ExactInverse {α : Type} (spec : Picture) (length : Nat) (canonical : List α → List α)
    (parse : List α → Except Failure PyDecimal)
    (format : Value → Except Failure (List α)) : Prop where
  parse_format : ∀ value isNegative number, value.Bounded → spec.Holds value isNegative number →
    ∃ raw, format value = .ok raw ∧ raw.length = length ∧
      parse raw = .ok (scaled number spec.scale isNegative)
  format_parse : ∀ raw value, parse raw = .ok value →
    format (.decimal value) = .ok (canonical raw)
  refuses : ∀ value, ¬ (value.Bounded ∧ ∃ isNegative number, spec.Holds value isNegative number) →
    ∃ reason, format value = .error (.registered reason)

/-- The last byte with the sign zone a formatter writes. -/
def canonicalZone (spec : Picture) (raw : List UInt8) : List UInt8 :=
  raw.dropLast ++ (raw.getLast?.map (fun last =>
    zonedByte (signNibble spec (decide (zone last ∈ zonedNegative))) (digit last))).toList

theorem digitOf_digitChar {digit : Nat} (small : digit < 10) :
    digitOf (digitChar digit) = digit := by
  rw [digitOf, toNat_digitChar small, Nat.add_sub_cancel_left]

section Unscaled

variable {spec : Picture} {value : Value} {number : Nat} {isNegative : Bool}

theorem unscaled_eq_ok :
    unscaled spec value = .ok (number, isNegative) ↔
      value.Bounded ∧ value.Is isNegative number spec.scale ∧ number < 10 ^ spec.precision := by
  rw [unscaled, ← unscale_eq_ok]
  cases unscale value spec.scale spec.precision with
  | error reason => exact iff_of_false nofun nofun
  | ok result =>
      constructor
      · intro same
        exact congrArg Except.ok (Except.ok.inj same)
      · intro same
        rw [same]
        rfl

theorem unscaled_total (spec : Picture) (value : Value) :
    (∃ number isNegative, unscaled spec value = .ok (number, isNegative)) ∨
      ∃ reason, unscaled spec value = .error (.registered reason) := by
  rw [unscaled]
  cases unscale value spec.scale spec.precision with
  | error reason => exact .inr ⟨reason, rfl⟩
  | ok result => exact .inl ⟨result.1, result.2, rfl⟩

theorem unscaled_scaled (fits : number < 10 ^ spec.precision) :
    unscaled spec (.decimal (scaled number spec.scale isNegative)) = .ok (number, isNegative) := by
  rw [unscaled, unscale_scaled fits spec.precision_range.2 spec.scale_le]
  rfl

end Unscaled

def Picture.asSigned (spec : Picture) : Picture := { spec with signed := true }

theorem overpunch_table (isNegative : Bool) {digit : Nat} (small : digit < 10) :
    ∃ ch, (if isNegative then negative else positive)[digit]? = some ch ∧
      overpunch.lookup ch = some (digit, isNegative) := by
  apply Option.bind_eq_some_iff.mp
  revert small digit
  cases isNegative <;> decide

theorem overpunch_lookup {ch : Char} {digit : Nat} {isNegative : Bool}
    (found : overpunch.lookup ch = some (digit, isNegative)) :
    digit < 10 ∧ (if isNegative then negative else positive)[digit]? = some ch := by
  have entries : ∀ entry ∈ overpunch, entry.2.1 < 10 ∧
      (if entry.2.2 then negative else positive)[entry.2.1]? = some entry.1 := by decide
  obtain ⟨before, after, isTable, -⟩ := List.lookup_eq_some_iff.mp found
  exact entries (ch, digit, isNegative) (by rw [isTable]; simp)

theorem formatOverpunch_digits {spec : Picture} {value : Value} {front : List Nat} {last : Nat}
    {isNegative : Bool} {ch : Char} (small : ∀ digit ∈ front ++ [last], digit < 10)
    (length : (front ++ [last]).length = spec.precision)
    (field : unscaled spec value =
      .ok (textNat ((front ++ [last]).map digitChar), isNegative))
    (sign : (if isNegative then negative else positive)[last]? = some ch) :
    formatOverpunch spec value = .ok (front.map digitChar ++ [ch]) := by
  have fits := textNat_lt small
  rw [length] at fits
  have digits := digitList_textNat small
  rw [length] at digits
  have lastSmall := small last (by simp)
  rw [formatOverpunch, field]
  dsimp only
  rw [rjustDigits_eq spec.precision_range.1 fits, digits, List.map_append, List.map_cons,
    List.map_nil, List.dropLast_concat, List.getLast?_concat, Option.bind_some,
    digitOf_digitChar lastSmall, sign]
  rfl

theorem parseOverpunch_ok {spec : Picture} {raw : List Char} {value : PyDecimal}
    (parsed : parseOverpunch spec raw = .ok value) :
    ∃ (front : List Nat) (last : Char) (digit : Nat) (isNegative : Bool),
      raw = front.map digitChar ++ [last] ∧
      value = scaled (textNat ((front ++ [digit]).map digitChar)) spec.scale isNegative ∧
      overpunch.lookup last = some (digit, isNegative) ∧ (∀ other ∈ front, other < 10) ∧
      (front.map digitChar ++ [last]).length = spec.precision := by
  rw [parseOverpunch] at parsed
  split at parsed
  · cases parsed
  rename_i length
  split at parsed
  · cases parsed
  rename_i last isLast
  dsimp only at parsed
  split at parsed
  · cases parsed
  rename_i digit isNegative found
  split at parsed
  swap
  · cases parsed
  rename_i body
  have ascii : ∀ ch ∈ raw.dropLast, ch ∈ asciiDigits := fun ch member =>
    of_decide_eq_true (List.all_eq_true.mp body ch member)
  obtain ⟨front, isFront, frontSmall⟩ := exists_digits ascii
  have rawEq : raw = front.map digitChar ++ [last] := by
    rw [← isFront]
    exact (List.dropLast_append_getLast? last isLast).symm
  refine ⟨front, last, digit, isNegative, rawEq, ?_, found, frontSmall, ?_⟩
  · rw [List.map_append, ← isFront]
    exact (Except.ok.inj parsed).symm
  · rw [← rawEq]
    exact not_not.mp length

theorem overpunch_inverse (spec : Picture) :
    ExactInverse spec.asSigned spec.precision id (parseOverpunch spec) (formatOverpunch spec) where
  parse_format value isNegative number bounded holds := by
    obtain ⟨isValue, fits, -⟩ := holds
    obtain ⟨width, isWidth⟩ := Nat.exists_eq_succ_of_ne_zero (Nat.ne_of_gt spec.precision_range.1)
    have split : digitList spec.precision number =
        digitList width (number / 10) ++ [number % 10] := by
      rw [isWidth]
      exact digitList_succ width number
    have small := digitList_lt spec.precision number
    have text := textNat_digitList fits
    change textNat ((digitList spec.precision number).map digitChar) = number at text
    obtain ⟨ch, sign, lookup⟩ := overpunch_table isNegative (Nat.mod_lt number (by decide : 0 < 10))
    have length := length_digitList spec.precision number
    rw [split] at small length text
    have field : unscaled spec value = .ok (number, isNegative) :=
      unscaled_eq_ok.mpr ⟨bounded, isValue, fits⟩
    refine ⟨_, formatOverpunch_digits small length (by rw [text]; exact field) sign, ?_, ?_⟩
    · rw [← length, List.length_append, List.length_append, List.length_map]
      rfl
    · have rawLength : ((digitList width (number / 10)).map digitChar ++ [ch]).length =
          spec.precision := by
        rw [← length, List.length_append, List.length_append, List.length_map]
        rfl
      have body : ((digitList width (number / 10)).map digitChar).all (· ∈ asciiDigits) = true := by
        rw [List.all_eq_true]
        intro other member
        obtain ⟨digit, inDigits, rfl⟩ := List.mem_map.mp member
        exact decide_eq_true (digitChar_mem (small digit (List.mem_append_left _ inDigits)))
      rw [parseOverpunch, if_neg (not_not.mpr rawLength), List.getLast?_concat]
      dsimp only
      rw [lookup, List.dropLast_concat]
      dsimp only
      rw [if_pos body, digitsValue]
      rw [List.map_append, List.map_cons, List.map_nil] at text
      rw [text]
      rfl
  format_parse raw value parsed := by
    obtain ⟨front, last, digit, isNegative, rfl, rfl, found, frontSmall, length⟩ :=
      parseOverpunch_ok parsed
    obtain ⟨lastSmall, sign⟩ := overpunch_lookup found
    have small : ∀ other ∈ front ++ [digit], other < 10 := by
      intro other member
      rcases List.mem_append.mp member with inFront | isDigit
      · exact frontSmall other inFront
      · exact List.mem_singleton.mp isDigit ▸ lastSmall
    have width : (front ++ [digit]).length = spec.precision := by
      rw [← length, List.length_append, List.length_append, List.length_map]
      rfl
    have fits := textNat_lt small
    rw [width] at fits
    exact formatOverpunch_digits small width (unscaled_scaled fits) sign
  refuses value outside := by
    rcases unscaled_total spec value with ⟨number, isNegative, field⟩ | ⟨reason, field⟩
    · obtain ⟨bounded, isValue, fits⟩ := unscaled_eq_ok.mp field
      exact absurd ⟨bounded, isNegative, number, isValue, fits, fun _ => rfl⟩ outside
    · exact ⟨reason, by rw [formatOverpunch, field]⟩

theorem zone_eq (byte : UInt8) : zone byte = byte.toNat / 16 := by
  rw [zone, Nat.shiftRight_eq_div_pow]

theorem digit_eq (byte : UInt8) : digit byte = byte.toNat % 16 :=
  Nat.and_two_pow_sub_one_eq_mod byte.toNat 4

theorem zonedByte_eq (zone : Nat) {digit : Nat} (small : digit < 16) :
    zonedByte zone digit = UInt8.ofNat (zone * 16 + digit) := by
  rw [zonedByte, ← Nat.shiftLeft_add_eq_or_of_lt small, Nat.shiftLeft_eq]

theorem toNat_zonedByte {high low : Nat} (smallZone : high < 16) (small : low < 16) :
    (zonedByte high low).toNat = high * 16 + low := by
  rw [zonedByte_eq high small]
  exact UInt8.toNat_ofNat_of_lt' (show high * 16 + low < 256 by omega)

theorem zone_zonedByte {high low : Nat} (smallZone : high < 16) (small : low < 16) :
    zone (zonedByte high low) = high := by
  rw [zone_eq, toNat_zonedByte smallZone small]
  omega

theorem digit_zonedByte {high low : Nat} (smallZone : high < 16) (small : low < 16) :
    digit (zonedByte high low) = low := by
  rw [digit_eq, toNat_zonedByte smallZone small]
  omega

theorem digit_lt (byte : UInt8) : digit byte < 16 := by
  rw [digit_eq]
  omega

theorem zonedByte_parts (byte : UInt8) : zonedByte (zone byte) (digit byte) = byte := by
  rw [zonedByte_eq _ (digit_lt byte), zone_eq, digit_eq, Nat.div_add_mod',
    UInt8.ofNat_toNat]

/-- A field in which every byte but the last has the zone `F`. -/
def zonedField (front : List Nat) (last : UInt8) : List UInt8 :=
  front.map (zonedByte 0xF) ++ [last]

theorem zonedDigits_field {front : List Nat} {last : UInt8} (small : ∀ other ∈ front, other < 10)
    (lastSmall : digit last < 10) :
    zonedDigits (zonedField front last) =
      .ok ((front ++ [digit last]).map digitChar) := by
  induction front with
  | nil =>
      rw [zonedField, List.map_nil, List.nil_append, zonedDigits, if_neg (by omega),
        if_neg (by simp)]
      rfl
  | cons first front ih =>
      rw [List.forall_mem_cons] at small
      have zoneFirst : zone (zonedByte 0xF first) = 0xF :=
        zone_zonedByte (by decide) (by omega)
      have digitFirst : digit (zonedByte 0xF first) = first :=
        digit_zonedByte (by decide) (by omega)
      have rest : zonedField (first :: front) last =
          zonedByte 0xF first :: zonedField front last := rfl
      rw [rest, zonedDigits, zoneFirst, digitFirst, if_neg (by omega), if_neg (by simp),
        ih small.2]
      rfl

theorem field_of_zonedDigits {raw : List UInt8} {digits : List Char} (some : raw ≠ [])
    (read : zonedDigits raw = .ok digits) :
    ∃ front last, raw = zonedField front last ∧ (∀ other ∈ front, other < 10) ∧
      digit last < 10 ∧ digits = (front ++ [digit last]).map digitChar := by
  induction raw generalizing digits with
  | nil => exact absurd rfl some
  | cons byte rest ih =>
      rw [zonedDigits] at read
      split at read
      · cases read
      rename_i small
      split at read
      · cases read
      rename_i zoned
      cases tail : zonedDigits rest with
      | error failure =>
          rw [tail] at read
          cases read
      | ok others =>
          rw [tail] at read
          obtain rfl := Except.ok.inj read
          by_cases alone : rest = []
          · subst alone
            obtain rfl := Except.ok.inj tail
            exact ⟨[], byte, rfl, by simp, by omega, rfl⟩
          · obtain ⟨front, last, rfl, frontSmall, lastSmall, rfl⟩ := ih alone tail
            have isZone : zone byte = 0xF := by
              by_contra other
              exact zoned ⟨alone, other⟩
            refine ⟨digit byte :: front, last, ?_, ?_, lastSmall, rfl⟩
            · rw [← zonedByte_parts byte, isZone, digit_zonedByte (by decide) (by omega)]
              rfl
            · exact List.forall_mem_cons.mpr ⟨by omega, frontSmall⟩

theorem signNibble_lt (spec : Picture) (isNegative : Bool) : signNibble spec isNegative < 16 := by
  rw [signNibble]
  split
  · split <;> decide
  · decide

theorem formatZoned_digits {spec : Picture} {value : Value} {front : List Nat} {last : Nat}
    {isNegative : Bool} (small : ∀ other ∈ front ++ [last], other < 10)
    (length : (front ++ [last]).length = spec.precision)
    (field : unscaled spec value =
      .ok (textNat ((front ++ [last]).map digitChar), isNegative))
    (sign : isNegative = true → spec.signed = true) :
    formatZoned spec value =
      .ok (zonedField front (zonedByte (signNibble spec isNegative) last)) := by
  have fits := textNat_lt small
  rw [length] at fits
  have digits := digitList_textNat small
  rw [length] at digits
  have lastSmall := small last (by simp)
  rw [formatZoned, field]
  dsimp only
  rw [if_neg (fun unsigned => unsigned.2 (sign unsigned.1)),
    rjustDigits_eq spec.precision_range.1 fits, digits]
  have bytes : ((front ++ [last]).map digitChar).map (fun ch => zonedByte 0xF (digitOf ch)) =
      front.map (zonedByte 0xF) ++ [zonedByte 0xF last] := by
    rw [List.map_map, List.map_append]
    congr 1
    · refine List.map_congr_left fun other member => ?_
      rw [Function.comp_apply, digitOf_digitChar (small other (List.mem_append_left _ member))]
    · rw [List.map_cons, List.map_nil, Function.comp_apply, digitOf_digitChar lastSmall]
  rw [bytes, List.dropLast_concat, List.map_append, List.map_cons, List.map_nil,
    List.getLast?_concat, Option.map_some, digitOf_digitChar lastSmall]
  rfl

/-- The zones a parser admits on the last byte, and the sign it reads from them. -/
def SignZone (spec : Picture) (last : UInt8) : Prop :=
  if spec.signed then zone last ∈ zonedPositive ∨ zone last ∈ zonedNegative else zone last = 0xF

theorem parseZoned_field {spec : Picture} {front : List Nat} {last : UInt8}
    (small : ∀ other ∈ front, other < 10) (lastSmall : digit last < 10)
    (length : (zonedField front last).length = spec.precision) (sign : SignZone spec last) :
    parseZoned spec (zonedField front last) =
      .ok (scaled (textNat ((front ++ [digit last]).map digitChar)) spec.scale
        (spec.signed && decide (zone last ∈ zonedNegative))) := by
  have isLast : (zonedField front last).getLast? = some last := List.getLast?_concat
  rw [parseZoned, if_neg (not_not.mpr length), zonedDigits_field small lastSmall, isLast]
  dsimp only
  rw [SignZone] at sign
  cases signed : spec.signed with
  | true =>
      rw [signed, if_pos rfl] at sign
      rw [if_pos rfl, if_neg (by tauto), Bool.true_and]
      rfl
  | false =>
      rw [signed, if_neg Bool.false_ne_true] at sign
      rw [if_neg Bool.false_ne_true, if_neg (not_not.mpr sign), Bool.false_and]
      rfl

theorem field_of_parseZoned {spec : Picture} {raw : List UInt8} {value : PyDecimal}
    (parsed : parseZoned spec raw = .ok value) :
    ∃ front last, raw = zonedField front last ∧ (∀ other ∈ front, other < 10) ∧
      digit last < 10 ∧ (zonedField front last).length = spec.precision ∧ SignZone spec last := by
  rw [parseZoned] at parsed
  split at parsed
  · cases parsed
  rename_i length
  rw [not_not] at length
  split at parsed
  · cases parsed
  rename_i digits read
  have some : raw ≠ [] := by
    intro empty
    rw [empty, List.length_nil] at length
    have positivePrecision := spec.precision_range.1
    omega
  obtain ⟨front, last, rfl, small, lastSmall, -⟩ := field_of_zonedDigits some read
  refine ⟨front, last, rfl, small, lastSmall, length, ?_⟩
  have isLast : (zonedField front last).getLast? = Option.some last := List.getLast?_concat
  rw [isLast] at parsed
  dsimp only at parsed
  rw [SignZone]
  split at parsed
  · rename_i signed
    split at parsed
    · cases parsed
    rename_i admitted
    rw [if_pos signed]
    tauto
  · rename_i unsigned
    split at parsed
    · cases parsed
    rename_i admitted
    rw [if_neg unsigned]
    exact not_not.mp admitted

theorem signNibble_zone {spec : Picture} {isNegative : Bool} {last : Nat} (small : last < 10)
    (sign : isNegative = true → spec.signed = true) :
    SignZone spec (zonedByte (signNibble spec isNegative) last) ∧
      (spec.signed && decide (zone (zonedByte (signNibble spec isNegative) last) ∈
        zonedNegative)) = isNegative := by
  rw [SignZone, zone_zonedByte (signNibble_lt spec isNegative) (by omega), signNibble]
  cases signed : spec.signed with
  | true => cases isNegative <;> decide
  | false =>
      cases isNegative with
      | true => exact absurd (sign rfl) (by simp [signed])
      | false => decide

theorem zoned_inverse (spec : Picture) :
    ExactInverse spec spec.precision (canonicalZone spec) (parseZoned spec) (formatZoned spec) where
  parse_format value isNegative number bounded holds := by
    obtain ⟨isValue, fits, sign⟩ := holds
    obtain ⟨width, isWidth⟩ := Nat.exists_eq_succ_of_ne_zero (Nat.ne_of_gt spec.precision_range.1)
    have split : digitList spec.precision number =
        digitList width (number / 10) ++ [number % 10] := by
      rw [isWidth]
      exact digitList_succ width number
    have small := digitList_lt spec.precision number
    have text := textNat_digitList fits
    have length := length_digitList spec.precision number
    rw [split] at small length text
    have field : unscaled spec value = .ok (number, isNegative) :=
      unscaled_eq_ok.mpr ⟨bounded, isValue, fits⟩
    have lastSmall : number % 10 < 10 := Nat.mod_lt number (by decide)
    obtain ⟨zoneOk, readSign⟩ := signNibble_zone lastSmall sign
    have rawLength : (zonedField (digitList width (number / 10))
        (zonedByte (signNibble spec isNegative) (number % 10))).length = spec.precision := by
      rw [← length, zonedField, List.length_append, List.length_append, List.length_map]
      rfl
    have lastDigit : digit (zonedByte (signNibble spec isNegative) (number % 10)) = number % 10 :=
      digit_zonedByte (signNibble_lt spec isNegative) (by omega)
    refine ⟨_, formatZoned_digits small length (by rw [text]; exact field) sign, rawLength, ?_⟩
    rw [parseZoned_field (fun other member => small other (List.mem_append_left _ member))
      (by rw [lastDigit]; exact lastSmall) rawLength zoneOk, lastDigit, text, readSign]
  format_parse raw value parsed := by
    obtain ⟨front, last, rfl, small, lastSmall, length, sign⟩ := field_of_parseZoned parsed
    rw [parseZoned_field small lastSmall length sign] at parsed
    obtain rfl := Except.ok.inj parsed
    have all : ∀ other ∈ front ++ [digit last], other < 10 := by
      intro other member
      rcases List.mem_append.mp member with inFront | isDigit
      · exact small other inFront
      · exact List.mem_singleton.mp isDigit ▸ lastSmall
    have width : (front ++ [digit last]).length = spec.precision := by
      rw [← length, zonedField, List.length_append, List.length_append, List.length_map]
      rfl
    have fits := textNat_lt all
    rw [width] at fits
    have signOk : (spec.signed && decide (zone last ∈ zonedNegative)) = true →
        spec.signed = true := by
      intro both
      rw [Bool.and_eq_true] at both
      exact both.1
    rw [formatZoned_digits all width (unscaled_scaled fits) signOk, canonicalZone]
    have isLast : (zonedField front last).getLast? = some last := List.getLast?_concat
    have nibble : signNibble spec (spec.signed && decide (zone last ∈ zonedNegative)) =
        signNibble spec (decide (zone last ∈ zonedNegative)) := by
      rw [signNibble, signNibble]
      cases spec.signed <;> rfl
    have isFront : (zonedField front last).dropLast = front.map (zonedByte 0xF) :=
      List.dropLast_concat
    rw [isLast, isFront, Option.map_some, nibble]
    rfl
  refuses value outside := by
    rcases unscaled_total spec value with ⟨number, isNegative, field⟩ | ⟨reason, field⟩
    · obtain ⟨bounded, isValue, fits⟩ := unscaled_eq_ok.mp field
      refine ⟨.cobolInvalid, ?_⟩
      rw [formatZoned, field]
      dsimp only
      rw [if_pos]
      · rfl
      by_contra signed
      exact outside ⟨bounded, isNegative, number, isValue, fits, by tauto⟩
    · exact ⟨reason, by rw [formatZoned, field]⟩

end DecoyEngine.DeclaredCasting.Cobol
