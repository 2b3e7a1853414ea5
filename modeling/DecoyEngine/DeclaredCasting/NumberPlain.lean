import DecoyEngine.DeclaredCasting.NumberRoundTrip

namespace DecoyEngine.DeclaredCasting.NumberText

open Computability
open DecoyEngine.Data hiding scaled
open DecoyEngine.Data.Regex (Spells letter upTo fullmatch)
open DecoyEngine.DeclaredCasting.Numeric

/-! Plain decimal text, and the three formats together. -/

/-- Two readings of a text as a run of one set and a rest that leaves the set agree. -/
theorem span_inj {accepts : Char → Bool} {front back otherFront otherBack : List Char}
    (run : ∀ ch ∈ front, accepts ch) (stops : ∀ ch ∈ back.head?, ¬ accepts ch)
    (otherRun : ∀ ch ∈ otherFront, accepts ch) (otherStops : ∀ ch ∈ otherBack.head?, ¬ accepts ch)
    (same : front ++ back = otherFront ++ otherBack) : front = otherFront ∧ back = otherBack := by
  have taken : ∀ {front back : List Char}, (∀ ch ∈ front, accepts ch) →
      (∀ ch ∈ back.head?, ¬ accepts ch) → (front ++ back).takeWhile accepts = front := by
    intro front back run stops
    rw [List.takeWhile_append_of_pos run]
    cases back with
    | nil => exact List.append_nil front
    | cons ch back => rw [List.takeWhile_cons_of_neg (stops ch rfl), List.append_nil]
  have fronts : front = otherFront := by
    rw [← taken run stops, same, taken otherRun otherStops]
  rw [fronts] at same
  exact ⟨fronts, List.append_cancel_left same⟩

def isSign (ch : Char) : Bool := ch ∈ ['+', '-']

/-- The words of the groups of `_PLAIN`. -/
structure PlainParts (sign whole frac : List Char) : Prop where
  short : sign.length ≤ 1
  signs : ∀ ch ∈ sign, isSign ch
  isNumeral : IsNumeral whole
  pointed : frac = [] ∨ ∃ digits, frac = '.' :: digits ∧ IsNumeral digits

def plainLanguages : List (Language Char) :=
  [upTo (letter isSign) 1, letter isDigit * (letter isDigit)∗,
    upTo (letter (· == '.') * (letter isDigit * (letter isDigit)∗)) 1]

theorem spells_plainPattern : List.Forall₂ Spells plainPattern plainLanguages :=
  .cons (Regex.spells_upTo Regex.spells_set 1) (.cons (Regex.spells_plus Regex.spells_set)
    (.cons (Regex.spells_upTo
      (Regex.spells_seq Regex.spells_set (Regex.spells_plus Regex.spells_set)) 1) .nil))

theorem plainParts_iff {parts : List (List Char)} :
    List.Forall₂ (· ∈ ·) parts plainLanguages ↔
      ∃ sign whole frac, parts = [sign, whole, frac] ∧ PlainParts sign whole frac := by
  have pointed : ∀ frac : List Char,
      frac ∈ upTo (letter (· == '.') * (letter isDigit * (letter isDigit)∗)) 1 ↔
        frac = [] ∨ ∃ digits, frac = '.' :: digits ∧ IsNumeral digits := by
    intro frac
    constructor
    · intro ⟨words, isFrac, few, are⟩
      match words, few, are with
      | [], _, _ => exact .inl isFrac
      | [word], _, are =>
          obtain ⟨point, isPoint, digits, areDigits, isWord⟩ :=
            Language.mem_mul.mp (are word List.mem_cons_self).1
          rw [mem_letter_eq.mp isPoint] at isWord
          rw [List.flatten_singleton] at isFrac
          exact .inr ⟨digits, isFrac.trans isWord.symm, mem_plus_digit.mp areDigits⟩
    · intro shape
      rcases shape with rfl | ⟨digits, rfl, isNumeral⟩
      · exact ⟨[], rfl, by decide, by simp⟩
      · have isWord : '.' :: digits ∈ letter (· == '.') * (letter isDigit * (letter isDigit)∗) :=
          Language.append_mem_mul (mem_letter_eq.mpr rfl) (mem_plus_digit.mpr isNumeral)
        exact ⟨['.' :: digits], (List.flatten_singleton ..).symm, Nat.le_refl 1,
          fun word member => List.mem_singleton.mp member ▸ ⟨isWord, by simp⟩⟩
  constructor
  · intro are
    obtain ⟨sign, behindSign, inSign, areBehind, rfl⟩ := List.forall₂_cons_right_iff.mp are
    obtain ⟨whole, behindWhole, isWhole, areFrac, rfl⟩ := List.forall₂_cons_right_iff.mp areBehind
    obtain ⟨frac, behindFrac, isFrac, areNil, rfl⟩ := List.forall₂_cons_right_iff.mp areFrac
    rw [List.forall₂_nil_right_iff] at areNil
    subst areNil
    obtain ⟨short, signs⟩ := Regex.mem_letter_upTo.mp inSign
    exact ⟨sign, whole, frac, rfl, short, signs, mem_plus_digit.mp isWhole,
      (pointed frac).mp isFrac⟩
  · intro ⟨sign, whole, frac, same, parts⟩
    subst same
    exact .cons (Regex.mem_letter_upTo.mpr ⟨parts.short, parts.signs⟩)
      (.cons (mem_plus_digit.mpr parts.isNumeral) (.cons ((pointed frac).mpr parts.pointed) .nil))

theorem PlainParts.matched {sign whole frac : List Char} (parts : PlainParts sign whole frac) :
    fullmatch plainPattern (sign ++ (whole ++ frac)) = some [sign, whole, frac] := by
  have flat : [sign, whole, frac].flatten = sign ++ (whole ++ frac) := by simp
  have digitApart : ∀ ch ∈ asciiDigits, isSign ch = false := by decide
  have headed : ∀ {whole frac : List Char}, IsNumeral whole →
      ∀ ch ∈ (whole ++ frac).head?, ¬ isSign ch = true := by
    intro whole frac isNumeral ch isHead
    rw [List.head?_append_of_ne_nil _ isNumeral.1] at isHead
    rw [digitApart ch (isNumeral.2 ch (List.mem_of_head? isHead))]
    exact Bool.false_ne_true
  have pointApart : ∀ {frac : List Char},
      (frac = [] ∨ ∃ digits, frac = '.' :: digits ∧ IsNumeral digits) →
        ∀ ch ∈ frac.head?, ¬ isDigit ch = true := by
    intro frac shape ch isHead
    rcases shape with rfl | ⟨digits, rfl, -⟩
    · cases isHead
    · obtain rfl := Option.some.inj isHead
      decide
  rw [← flat]
  refine Regex.fullmatch_eq_some spells_plainPattern
    (plainParts_iff.mpr ⟨sign, whole, frac, rfl, parts⟩) fun others same are => ?_
  obtain ⟨otherSign, otherWhole, otherFrac, rfl, otherParts⟩ := plainParts_iff.mp are
  simp only [List.flatten_cons, List.flatten_nil, List.append_nil] at same
  obtain ⟨rfl, rests⟩ := span_inj parts.signs (headed parts.isNumeral) otherParts.signs
    (headed otherParts.isNumeral) same
  obtain ⟨rfl, rfl⟩ := span_inj (fun ch member => isDigit_iff.mpr (parts.isNumeral.2 ch member))
    (pointApart parts.pointed)
    (fun ch member => isDigit_iff.mpr (otherParts.isNumeral.2 ch member))
    (pointApart otherParts.pointed) rests
  rfl

theorem parsePlain_ok {spec : Precision} {raw : List Char} {value : PyDecimal}
    (parsed : parsePlain spec raw = .ok value) :
    ∃ sign whole frac, raw = sign ++ (whole ++ frac) ∧ PlainParts sign whole frac ∧
      fromParts spec (sign == ['-']) whole (frac.drop 1) .decimalPrecisionLoss .decimalOverflow =
        .ok value := by
  rw [parsePlain] at parsed
  split at parsed
  · cases parsed
  split at parsed
  swap
  · cases parsed
  rename_i sign whole frac matched
  obtain ⟨isRaw, are⟩ := Regex.fullmatch_sound spells_plainPattern matched
  obtain ⟨sign', whole', frac', same, parts⟩ := plainParts_iff.mp are
  simp only [List.cons.injEq, and_true] at same
  obtain ⟨rfl, rfl, rfl⟩ := same
  exact ⟨sign, whole, frac, by simpa using isRaw, parts, parsed⟩

theorem PlainParts.unsigned {spec : Precision} {sign whole frac : List Char}
    (parts : PlainParts sign whole frac) : Unsigned spec.plain (whole ++ frac) := by
  intro ch member
  rcases List.mem_append.mp member with inWhole | inFraction
  · exact .inl (parts.isNumeral.2 ch inWhole)
  · rcases parts.pointed with rfl | ⟨digits, rfl, isNumeral⟩
    · cases inFraction
    · rcases List.mem_cons.mp inFraction with isRadix | digit
      · exact .inr (.inl isRadix)
      · exact .inl (isNumeral.2 ch digit)

theorem PlainParts.denoted_eq {sign whole frac : List Char} (parts : PlainParts sign whole frac) :
    denoted '.' (whole ++ frac) =
      Data.scaled (textNat (whole ++ frac.drop 1)) (-(frac.drop 1).length) := by
  have absent : '.' ∉ whole := fun member => by
    have digit := parts.isNumeral.2 '.' member
    revert digit
    decide
  rcases parts.pointed with rfl | ⟨digits, rfl, isNumeral⟩
  · rw [List.append_nil, denoted_absent absent, filter_digits parts.isNumeral.2, List.drop_nil,
      List.append_nil]
    rfl
  · rw [denoted_point absent (by decide) isNumeral.2, filter_digits parts.isNumeral.2]
    rfl

theorem fromParts_exact {spec : Precision} {negative : Bool} {whole frac : List Char}
    {loss overflow : Reason} {value : PyDecimal}
    (parsed : fromParts spec negative whole frac loss overflow = .ok value) :
    ∃ coefficient, value = .finite negative coefficient (-spec.scale) ∧
      Data.scaled coefficient (-spec.scale) =
        Data.scaled (textNat (whole ++ frac)) (-frac.length) := by
  rw [fromParts] at parsed
  split at parsed
  · cases parsed
  rename_i short
  dsimp only at parsed
  split at parsed
  · cases parsed
  · exact ⟨_, (Except.ok.inj parsed).symm, scaled_padded frac whole (not_lt.mp short)⟩

theorem NumberParts.plainParts {spec : Precision} {number whole frac : List Char} (negative : Bool)
    (parts : NumberParts spec.plain number whole frac) :
    PlainParts (if negative then ['-'] else []) whole (fraction spec.plain frac) where
  short := by cases negative <;> decide
  signs := by cases negative <;> decide
  isNumeral := parts.isNumeral
  pointed := by
    rw [fraction]
    split
    · exact .inl rfl
    · rename_i positive
      refine .inr ⟨frac, rfl, fun none => positive ?_, parts.frac_digits⟩
      rw [← parts.frac_length, none]
      rfl

theorem parsePlain_rendered (spec : Precision) {number : Nat} (negative : Bool)
    (fits : number < 10 ^ spec.precision) :
    parsePlain spec (signed negative (renderNumber number spec.scale '.' none)) =
      .ok (scaled number spec.scale negative) := by
  have parts : NumberParts spec.plain (renderNumber number spec.scale '.' none)
      (natText (number / 10 ^ spec.scale))
      ((digitList spec.scale (number % 10 ^ spec.scale)).map digitChar) :=
    renderNumber_parts spec.plain number
  have short : (renderNumber number spec.scale '.' none).length ≤ 80 :=
    @length_renderNumber spec.plain number fits
  have length : (signed negative (renderNumber number spec.scale '.' none)).length ≤ maxText := by
    rw [maxText]
    cases negative
    · exact short.trans (by decide)
    · change _ + 1 ≤ 128
      omega
  have written : signed negative (renderNumber number spec.scale '.' none) =
      (if negative then ['-'] else []) ++ (natText (number / 10 ^ spec.scale) ++
        fraction spec.plain ((digitList spec.scale (number % 10 ^ spec.scale)).map digitChar)) := by
    rw [parts.number_eq]
    cases negative <;> rfl
  have sign : ((if negative then ['-'] else []) == ['-']) = negative := by
    cases negative <;> rfl
  rw [parsePlain, if_neg (not_lt.mpr length), written, (parts.plainParts negative).matched]
  dsimp only
  rw [sign, drop_fraction parts.frac_length]
  refine parts.fromParts_eq_ok.mpr ?_
  rw [textNat_rendered]
  exact ⟨fits, rfl⟩

theorem plain_exact (spec : Precision) :
    ExactText spec.plain SignWrites withoutPlus (parsePlain spec) (formatPlain spec.plain) where
  parse_format value negative number bounded holds := by
    have field : unscale value spec.plain.scale spec.plain.precision = .ok (number, negative) :=
      unscale_eq_ok.mpr ⟨bounded, holds.1, holds.2⟩
    refine ⟨signed negative (renderNumber number spec.scale '.' none), ?_,
      parsePlain_rendered spec negative holds.2⟩
    rw [formatPlain, field]
    rfl
  format_parse grouped := by
    cases grouped
  exact raw value parsed := by
    obtain ⟨sign, whole, frac, isRaw, parts, isValue⟩ := parsePlain_ok parsed
    obtain ⟨coefficient, isFinite, same⟩ := fromParts_exact isValue
    refine ⟨sign == ['-'], whole ++ frac, coefficient, ?_, parts.unsigned, isFinite,
      same.trans ?_⟩
    · rw [isRaw]
      have short := parts.short
      have signs := parts.signs
      cases sign with
      | nil => exact .inl rfl
      | cons ch others =>
          obtain rfl : others = [] := by
            rw [List.length_cons] at short
            exact List.length_eq_zero_iff.mp (by omega)
          have signs := of_decide_eq_true (signs ch List.mem_cons_self)
          simp only [List.mem_cons, List.not_mem_nil, or_false] at signs
          rcases signs with rfl | rfl
          · exact .inr ⟨rfl, rfl⟩
          · exact .inl rfl
    · exact parts.denoted_eq.symm

/-- Every text format is read exactly, with no rounding, and what is formatted reads back; grouped
and currency text is read only as it is written, so that a misplaced separator is refused. -/
theorem number_texts_exact :
    (∀ spec : Precision,
      ExactText spec.plain SignWrites withoutPlus (parsePlain spec) (formatPlain spec.plain)) ∧
    (∀ spec : DecimalGrouped,
      ExactText spec.toNumberFormat SignWrites withoutPlus (parseGrouped spec)
        (formatPlain spec.toNumberFormat)) ∧
    ∀ spec : Currency,
      ExactText spec.toNumberFormat (CurrencyWrites spec) id (parseCurrency spec)
        (formatCurrency spec) :=
  ⟨plain_exact, grouped_exact, currency_exact⟩

/-- A zero written with a large exponent is a decimal of every format and has no text. -/
theorem large_exponent_zero_unwritten :
    ∃ spec : DecimalGrouped,
      spec.Holds (.decimal (.finite false 0 257)) false 0 ∧
      formatPlain spec.toNumberFormat (.decimal (.finite false 0 257)) =
        .error .decimalInvalid := by
  let format : NumberFormat :=
    { precision := 8, scale := 2, radix := '.', group := some ','
      precision_range := by decide
      scale_le := by decide
      radix_separator := by decide
      group_separator := fun ch same => by
        obtain rfl := Option.some.inj same
        decide
      distinct := by decide }
  refine ⟨{ format with group_isSome := rfl }, ⟨⟨0, 257, rfl, ?_⟩, by decide⟩, by decide⟩
  rw [Data.scaled, Data.scaled, Nat.cast_zero, zero_mul, zero_mul]

end DecoyEngine.DeclaredCasting.NumberText
