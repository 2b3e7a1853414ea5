import DecoyEngine.Data.Decimal

namespace DecoyEngine.Data

/-! `decimal.Decimal(text)`: what of a text is read as a decimal number, and the number itself. -/

/-- `numeric_as_ascii`: outer whitespace and all underscores go, digits become ASCII. -/
def numericAsAscii (text : List Char) : List Char :=
  ((strip text).filter (fun ch => ch ≠ '_')).map fun ch =>
    match decimalValue ch with
    | some digit => digitChar digit
    | none => ch

/-- The exponent with its letter and its sign written out. -/
def signedExponent (text : List Char) : List Char :=
  let mantissa := text.takeWhile fun ch => ch ≠ 'e' && ch ≠ 'E'
  match text.dropWhile fun ch => ch ≠ 'e' && ch ≠ 'E' with
  | [] => mantissa
  | _ :: '+' :: digits => mantissa ++ 'E' :: '+' :: digits
  | _ :: '-' :: digits => mantissa ++ 'E' :: '-' :: digits
  | _ :: digits => mantissa ++ 'E' :: '+' :: digits

inductive DecimalReading where
  | number (value : PyDecimal)
  | nan (signaling : Bool)
deriving Repr, DecidableEq

/-- `MAX_EMAX` and `MIN_ETINY` of a 64-bit build. -/
def maxEmax : Int := 999999999999999999

def minEtiny : Int := -1999999999999999997

/-- The exponents a decimal can have. -/
def PyDecimal.inLimits : PyDecimal → Bool
  | .infinity _ => true
  | .finite _ coefficient exponent =>
      decide (minEtiny ≤ exponent ∧ exponent + (natText coefficient).length - 1 ≤ maxEmax)

/-- `nan` or `snan` with an optional payload of digits. -/
def readNan (letters : List Char) : Option DecimalReading :=
  let word := letters.takeWhile (· ∉ asciiDigits)
  if (letters.drop word.length).all (· ∈ asciiDigits) then
    if word = "nan".toList then some (.nan false)
    else if word = "snan".toList then some (.nan true)
    else none
  else none

/-- `Decimal(text)`, with infinities, NaNs and the digits of every script as Python reads them;
`none` is its `InvalidOperation`. -/
def readDecimal (text : List Char) : Option DecimalReading :=
  let ascii := numericAsAscii text
  let negative := ascii.head? == some '-'
  let rest := if negative || ascii.head? == some '+' then ascii.drop 1 else ascii
  let letters := rest.map Char.toLower
  if letters = "inf".toList ∨ letters = "infinity".toList then some (.number (.infinity negative))
  else
    match readNan letters with
    | some reading => some reading
    | none =>
        let number := signedExponent rest
        if isScientific number then
          let value :=
            PyDecimal.finite negative (readScientific number).1 (readScientific number).2
          if value.inLimits then some (.number value) else none
        else none

theorem mem_pointedText {digits : List Char} (ascii : ∀ ch ∈ digits, ch ∈ asciiDigits)
    {place : Int} : ∀ ch ∈ pointedText digits place, ch ∈ '.' :: asciiDigits := by
  have zero : ∀ {zeros : Nat}, ∀ ch ∈ List.replicate zeros '0', ch ∈ '.' :: asciiDigits := by
    intro zeros ch member
    rw [List.eq_of_mem_replicate member]
    decide
  have digit : ∀ ch ∈ digits, ch ∈ '.' :: asciiDigits := fun ch member =>
    List.mem_cons_of_mem _ (ascii ch member)
  intro ch member
  rw [pointedText] at member
  split at member
  · rcases List.mem_cons.mp member with rfl | later
    · decide
    rcases List.mem_cons.mp later with rfl | later
    · decide
    rcases List.mem_append.mp later with left | right
    · exact zero ch left
    · exact digit ch right
  · split at member
    · rcases List.mem_append.mp member with left | right
      · exact digit ch left
      · exact zero ch right
    · rcases List.mem_append.mp member with left | right
      · exact digit ch (List.mem_of_mem_take left)
      · rcases List.mem_cons.mp right with rfl | later
        · decide
        · exact digit ch (List.mem_of_mem_drop later)

/-- The characters of a printed number. -/
def numberChars : List Char := asciiDigits ++ ['.', 'E', '+', '-']

theorem mem_plusText {value : Int} : ∀ ch ∈ plusText value, ch ∈ numberChars := by
  have digits : ∀ {value : Nat}, ∀ ch ∈ natText value, ch ∈ numberChars := fun ch member =>
    List.mem_append_left _ (natText_mem_digits _ ch member)
  cases value with
  | ofNat value =>
      intro ch member
      rcases List.mem_cons.mp member with rfl | later
      · decide
      · exact digits ch later
  | negSucc value =>
      intro ch member
      rcases List.mem_cons.mp member with rfl | later
      · decide
      · exact digits ch later

theorem scientificText_parts (coefficient : Nat) (exponent : Int) :
    ∃ place, scientificText coefficient exponent = pointedText (natText coefficient) place ∨
      ∃ shift, scientificText coefficient exponent =
        pointedText (natText coefficient) place ++ 'E' :: plusText shift := by
  simp only [scientificText]
  generalize (if exponent ≤ 0 ∧ -6 < exponent + (natText coefficient).length then
      exponent + (natText coefficient).length else (1 : Int)) = dotPlace
  refine ⟨dotPlace, ?_⟩
  split
  · exact .inl rfl
  · exact .inr ⟨_, rfl⟩

theorem numberChars_of_pointed : ∀ ch ∈ '.' :: asciiDigits, ch ∈ numberChars := by
  decide

theorem mem_scientificText {coefficient : Nat} {exponent : Int} :
    ∀ ch ∈ scientificText coefficient exponent, ch ∈ numberChars := by
  have pointed : ∀ place, ∀ ch ∈ pointedText (natText coefficient) place, ch ∈ numberChars :=
    fun place ch member =>
      numberChars_of_pointed ch (mem_pointedText (natText_mem_digits coefficient) ch member)
  intro ch member
  obtain ⟨place, isText | ⟨shift, isText⟩⟩ := scientificText_parts coefficient exponent
  · exact pointed place ch (isText ▸ member)
  · rw [isText] at member
    rcases List.mem_append.mp member with left | right
    · exact pointed place ch left
    · rcases List.mem_cons.mp right with rfl | later
      · decide
      · exact mem_plusText ch later

theorem numericAsAscii_plain {text : List Char} (plain : ∀ ch ∈ text, ch ∈ numberChars) :
    numericAsAscii text = text := by
  have printable : ∀ ch ∈ numberChars, isPrintableAscii ch = true := by decide
  have kept : ∀ ch ∈ numberChars, decide (ch ≠ '_') = true := by decide
  have mapped : ∀ ch ∈ numberChars, (match decimalValue ch with
      | some digit => digitChar digit
      | none => ch) = ch := by decide
  rw [numericAsAscii, strip_printable fun ch member => printable ch (plain ch member),
    List.filter_eq_self.mpr fun ch member => kept ch (plain ch member)]
  exact (List.map_congr_left fun ch member => mapped ch (plain ch member)).trans (List.map_id _)

theorem signedExponent_scientificText (coefficient : Nat) (exponent : Int) :
    signedExponent (scientificText coefficient exponent) =
      scientificText coefficient exponent := by
  have letterless : ∀ ch ∈ '.' :: asciiDigits, (ch ≠ 'e' && ch ≠ 'E') = true := by decide
  obtain ⟨place, isText | ⟨shift, isText⟩⟩ := scientificText_parts coefficient exponent
  · have all : ∀ ch ∈ scientificText coefficient exponent, (ch ≠ 'e' && ch ≠ 'E') = true := by
      intro ch member
      rw [isText] at member
      exact letterless ch (mem_pointedText (natText_mem_digits coefficient) ch member)
    rw [signedExponent, List.takeWhile_eq_self_iff.mpr all, List.dropWhile_eq_nil_iff.mpr all]
  · have all : ∀ ch ∈ pointedText (natText coefficient) place, (ch ≠ 'e' && ch ≠ 'E') = true :=
      fun ch member => letterless ch (mem_pointedText (natText_mem_digits coefficient) ch member)
    rw [isText, signedExponent, List.takeWhile_append_of_pos all, List.dropWhile_append_of_pos all,
      List.takeWhile_cons_of_neg (by decide), List.dropWhile_cons_of_neg (by decide),
      List.append_nil]
    cases shift <;> rfl

theorem readNan_digit {digit : Char} (isDigit : digit ∈ asciiDigits) (rest : List Char) :
    readNan (digit :: rest) = none := by
  have empty : (digit :: rest).takeWhile (· ∉ asciiDigits) = [] :=
    List.takeWhile_cons_of_neg (by simpa using isDigit)
  rw [readNan, empty]
  split
  · rfl
  · rfl

theorem readDecimal_text {value : PyDecimal} (limits : value.inLimits = true) :
    readDecimal value.text = some (.number value) := by
  cases value with
  | infinity negative => cases negative <;> decide
  | finite negative coefficient exponent =>
      have plain : ∀ ch ∈ (PyDecimal.finite negative coefficient exponent).text,
          ch ∈ numberChars := by
        intro ch member
        cases negative with
        | true =>
            rcases List.mem_cons.mp member with rfl | later
            · decide
            · exact mem_scientificText ch later
        | false => exact mem_scientificText ch member
      obtain ⟨digit, others, isText, isDigit⟩ := scientificText_head coefficient exponent
      have plainDigits : ∀ ch ∈ asciiDigits,
          ch.toLower = ch ∧ ch ≠ '-' ∧ ch ≠ '+' ∧ ch ≠ 'i' := by decide
      have lower := plainDigits digit isDigit
      have sign : ((PyDecimal.finite negative coefficient exponent).text.head? == some '-') =
          negative := by
        cases negative with
        | true => rfl
        | false => simp [PyDecimal.text, signed, isText, lower.2.1]
      have unsigned : (if negative || (PyDecimal.finite negative coefficient exponent).text.head? ==
          some '+' then (PyDecimal.finite negative coefficient exponent).text.drop 1
          else (PyDecimal.finite negative coefficient exponent).text) =
            scientificText coefficient exponent := by
        cases negative with
        | true => rfl
        | false => simp [PyDecimal.text, signed, isText, lower.2.2.1]
      have letters : (scientificText coefficient exponent).map Char.toLower =
          digit :: others.map Char.toLower := by
        rw [isText, List.map_cons, lower.1]
      have finite : ¬ (digit :: others.map Char.toLower = "inf".toList ∨
          digit :: others.map Char.toLower = "infinity".toList) := by
        intro special
        rcases special with same | same
        · exact lower.2.2.2 (List.cons.inj same).1
        · exact lower.2.2.2 (List.cons.inj same).1
      simp only [readDecimal, numericAsAscii_plain plain, sign, unsigned, letters, if_neg finite,
        readNan_digit isDigit, signedExponent_scientificText, isScientific_scientificText,
        readScientific_scientificText, limits, if_true]

namespace PyDecimal

/-- The number a finite decimal is. -/
def exact : PyDecimal → Option ℚ
  | infinity _ => none
  | finite negative coefficient exponent =>
      some (if negative then -scaled coefficient exponent else scaled coefficient exponent)

/-- `value.to_integral_value()`: rounded half to even. -/
def toIntegralValue : PyDecimal → PyDecimal
  | infinity negative => infinity negative
  | finite negative coefficient exponent =>
      if 0 ≤ exponent then finite negative coefficient exponent
      else finite negative (roundedCoefficient (-exponent).toNat coefficient) 0

/-- `int(value)` of a finite decimal: truncated toward zero. -/
def truncated : PyDecimal → Int
  | infinity _ => 0
  | finite negative coefficient exponent =>
      let magnitude : Nat :=
        if 0 ≤ exponent then coefficient * 10 ^ exponent.toNat
        else coefficient / 10 ^ (-exponent).toNat
      if negative then -magnitude else magnitude

theorem exact_finite (negative : Bool) (coefficient : Nat) (exponent : Int) :
    (finite negative coefficient exponent).exact =
      some (if negative then -scaled coefficient exponent else scaled coefficient exponent) :=
  rfl

theorem scaled_zero (coefficient : Nat) : scaled coefficient 0 = coefficient := by
  rw [scaled, zpow_zero, mul_one]

theorem roundedCoefficient_of_dvd {excess coefficient : Nat} (whole : 10 ^ excess ∣ coefficient) :
    roundedCoefficient excess coefficient = coefficient / 10 ^ excess := by
  have none : coefficient % 10 ^ excess = 0 := Nat.mod_eq_zero_of_dvd whole
  have positive : 0 < 10 ^ excess := by positivity
  rw [roundedCoefficient, none, if_neg (by omega)]

theorem scaled_eq_natCast {coefficient whole : Nat} {exponent : Int} (negative : exponent < 0) :
    scaled coefficient exponent = whole ↔ coefficient = whole * 10 ^ (-exponent).toNat := by
  rw [scaled_of_negative coefficient negative, div_eq_iff (by positivity)]
  exact_mod_cast Iff.rfl

theorem eq_toIntegralValue {value : PyDecimal} {number : ℚ} (finite : value.exact = some number) :
    value.exact = value.toIntegralValue.exact ↔ ∃ integer : Int, number = integer := by
  cases value with
  | infinity negative => cases finite
  | finite negative coefficient exponent =>
      rw [exact_finite, Option.some.injEq] at finite
      subst finite
      have signless : ∀ {left right : ℚ}, (if negative then -left else left) =
          (if negative then -right else right) ↔ left = right := by
        intro left right
        cases negative <;> simp
      have absolute : (∃ integer : Int, (if negative then -scaled coefficient exponent
          else scaled coefficient exponent) = integer) ↔
            ∃ whole : Nat, scaled coefficient exponent = whole := by
        have nonneg : 0 ≤ scaled coefficient exponent :=
          mul_nonneg (Nat.cast_nonneg _) (zpow_nonneg (by norm_num) _)
        constructor
        · intro ⟨integer, same⟩
          refine ⟨integer.natAbs, ?_⟩
          rw [Nat.cast_natAbs, Int.cast_abs, ← same]
          cases negative with
          | true => simp [abs_of_nonneg nonneg]
          | false => simp [abs_of_nonneg nonneg]
        · intro ⟨whole, same⟩
          rw [same]
          cases negative with
          | true => exact ⟨-whole, by simp⟩
          | false => exact ⟨whole, by simp⟩
      rw [absolute, toIntegralValue]
      by_cases point : 0 ≤ exponent
      · rw [if_pos point]
        exact iff_of_true rfl ⟨_, scaled_of_nonnegative coefficient point⟩
      · rw [if_neg point, exact_finite, exact_finite, Option.some.injEq, signless, scaled_zero,
          scaled_eq_natCast (by omega)]
        constructor
        · intro same
          exact ⟨_, (scaled_eq_natCast (by omega)).mpr same⟩
        · intro ⟨whole, same⟩
          have divides := (scaled_eq_natCast (by omega)).mp same
          have dvd : 10 ^ (-exponent).toNat ∣ coefficient := ⟨whole, by rw [divides, mul_comm]⟩
          rw [roundedCoefficient_of_dvd dvd, Nat.div_mul_cancel dvd]

theorem truncated_eq {value : PyDecimal} {integer : Int}
    (whole : value.exact = some (integer : ℚ)) :
    value.truncated = integer := by
  cases value with
  | infinity negative => cases whole
  | finite negative coefficient exponent =>
      rw [exact_finite, Option.some.injEq] at whole
      have magnitude : ((if 0 ≤ exponent then coefficient * 10 ^ exponent.toNat
          else coefficient / 10 ^ (-exponent).toNat : Nat) : ℚ) = scaled coefficient exponent := by
        split
        · rename_i point
          exact (scaled_of_nonnegative coefficient point).symm
        · rename_i point
          obtain ⟨number, same⟩ : ∃ number : Nat, scaled coefficient exponent = number := by
            have integral := (eq_toIntegralValue (exact_finite negative coefficient exponent)).mpr
              ⟨integer, whole⟩
            rw [toIntegralValue, if_neg point, exact_finite, exact_finite,
              Option.some.injEq, scaled_zero] at integral
            cases negative with
            | true => exact ⟨_, neg_injective integral⟩
            | false => exact ⟨_, integral⟩
          have divides := (scaled_eq_natCast (by omega)).mp same
          rw [same, divides, Nat.mul_div_cancel _ (by positivity)]
      rw [← magnitude] at whole
      dsimp only [truncated]
      generalize (if 0 ≤ exponent then coefficient * 10 ^ exponent.toNat
          else coefficient / 10 ^ (-exponent).toNat : Nat) = size at whole ⊢
      cases negative with
      | true =>
          rw [if_pos rfl] at whole ⊢
          exact_mod_cast whole
      | false =>
          rw [if_neg Bool.false_ne_true] at whole ⊢
          exact_mod_cast whole

end PyDecimal

end DecoyEngine.Data
