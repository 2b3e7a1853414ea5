import DecoyEngine.Data.DecimalText
import Mathlib.Tactic.Linarith
import Mathlib.Tactic.Positivity
import Mathlib.Tactic.FieldSimp
import Mathlib.Algebra.Order.Field.Basic
import Mathlib.Data.Rat.Lemmas

namespace DecoyEngine.Data

/-! Decimal floating point as Python's `decimal` module computes it: a sign, a coefficient and
an exponent, normalized under a context precision and printed in scientific notation. -/

inductive PyDecimal where
  | infinity (negative : Bool)
  | finite (negative : Bool) (coefficient : Nat) (exponent : Int)
deriving Repr, DecidableEq

/-- What a coefficient and an exponent stand for. -/
def scaled (coefficient : Nat) (exponent : Int) : ℚ := coefficient * 10 ^ exponent

/-- `"%+d"`. -/
def plusText : Int → List Char
  | .ofNat value => '+' :: natText value
  | .negSucc value => '-' :: natText (value + 1)

/-- The digits with a point after the first `dotPlace` of them. -/
def pointedText (digits : List Char) (dotPlace : Int) : List Char :=
  if dotPlace ≤ 0 then '0' :: '.' :: (List.replicate (-dotPlace).toNat '0' ++ digits)
  else if (digits.length : Int) ≤ dotPlace then
    digits ++ List.replicate (dotPlace - digits.length).toNat '0'
  else digits.take dotPlace.toNat ++ '.' :: digits.drop dotPlace.toNat

def scientificText (coefficient : Nat) (exponent : Int) : List Char :=
  let digits := natText coefficient
  let leftDigits := exponent + digits.length
  let dotPlace := if exponent ≤ 0 ∧ -6 < leftDigits then leftDigits else 1
  if leftDigits = dotPlace then pointedText digits dotPlace
  else pointedText digits dotPlace ++ 'E' :: plusText (leftDigits - dotPlace)

def signed (negative : Bool) (text : List Char) : List Char :=
  if negative then '-' :: text else text

def infinityText : List Char := ['I', 'n', 'f', 'i', 'n', 'i', 't', 'y']

/-- `str(value)`. -/
def PyDecimal.text : PyDecimal → List Char
  | .infinity negative => signed negative infinityText
  | .finite negative coefficient exponent => signed negative (scientificText coefficient exponent)

def PyDecimal.repr (value : PyDecimal) : List Char :=
  "Decimal('".toList ++ value.text ++ "')".toList

/-- `_fix`: round the coefficient to `precision` digits, ties to even. -/
def roundHalfEven (precision coefficient : Nat) (exponent : Int) : Nat × Int :=
  let excess := (natText coefficient).length - precision
  if excess = 0 then (coefficient, exponent)
  else
    let kept := coefficient / 10 ^ excess
    let lost := coefficient % 10 ^ excess
    let rounded :=
      if 10 ^ excess < 2 * lost ∨ (2 * lost = 10 ^ excess ∧ kept % 2 = 1) then kept + 1 else kept
    if 10 ^ precision ≤ rounded then (rounded / 10, exponent + excess + 1)
    else (rounded, exponent + excess)

def stripZeros : Nat → Nat → Int → Nat × Int
  | 0, coefficient, exponent => (coefficient, exponent)
  | fuel + 1, coefficient, exponent =>
      if coefficient % 10 = 0 then stripZeros fuel (coefficient / 10) (exponent + 1)
      else (coefficient, exponent)

def PyDecimal.normalize (precision : Nat) : PyDecimal → PyDecimal
  | .infinity negative => .infinity negative
  | .finite negative coefficient exponent =>
      let rounded := roundHalfEven precision coefficient exponent
      if rounded.1 = 0 then .finite negative 0 0
      else
        let stripped := stripZeros (natText rounded.1).length rounded.1 rounded.2
        .finite negative stripped.1 stripped.2

/-- The coefficient and the exponent, read back from scientific notation. -/
def readScientific (text : List Char) : Nat × Int :=
  let mantissa := text.takeWhile fun ch => ch ≠ 'E'
  let shift := signedNumber ((text.dropWhile fun ch => ch ≠ 'E').drop 1)
  let fraction := (mantissa.dropWhile fun ch => ch ≠ '.').drop 1
  (textNat (mantissa.filter fun ch => ch ≠ '.'), shift - fraction.length)

theorem not_mem_digits {digits : List Char} (ascii : ∀ ch ∈ digits, ch ∈ asciiDigits)
    {other : Char} (foreign : other ∉ asciiDigits) : other ∉ digits :=
  fun member => foreign (ascii other member)

theorem signedNumber_plusText (value : Int) : signedNumber (plusText value) = value := by
  cases value with
  | ofNat value => simp [plusText, signedNumber]
  | negSucc value =>
      simp only [plusText, signedNumber, textNat_natText]
      omega

section Pointed

variable {digits : List Char} {dotPlace : Int}

theorem filter_point_digits (ascii : ∀ ch ∈ digits, ch ∈ asciiDigits) :
    digits.filter (fun ch => ch ≠ '.') = digits := by
  rw [List.filter_eq_self]
  intro ch member
  simpa using ne_of_mem_of_not_mem (ascii ch member) (by decide)

theorem pointedText_exponentless (ascii : ∀ ch ∈ digits, ch ∈ asciiDigits) :
    'E' ∉ pointedText digits dotPlace := by
  have absent : 'E' ∉ digits := not_mem_digits ascii (by decide)
  rw [pointedText]
  split
  · simp [absent, List.mem_replicate]
  · split
    · simp [absent, List.mem_replicate]
    · have left : 'E' ∉ digits.take dotPlace.toNat := fun member =>
        absent (List.mem_of_mem_take member)
      have right : 'E' ∉ digits.drop dotPlace.toNat := fun member =>
        absent (List.mem_of_mem_drop member)
      simp [left, right]

theorem textNat_pointedText (ascii : ∀ ch ∈ digits, ch ∈ asciiDigits)
    (inside : dotPlace ≤ digits.length) :
    textNat ((pointedText digits dotPlace).filter fun ch => ch ≠ '.') = textNat digits := by
  have digitsKept := filter_point_digits ascii
  rw [pointedText]
  split
  · have zeros : ('0' :: '.' :: (List.replicate (-dotPlace).toNat '0' ++ digits)).filter
        (fun ch => ch ≠ '.') = List.replicate ((-dotPlace).toNat + 1) '0' ++ digits := by
      rw [List.filter_cons_of_pos (by decide), List.filter_cons_of_neg (by decide),
        List.filter_append, digitsKept, List.filter_replicate, if_pos (by decide),
        List.replicate_succ, List.cons_append]
    rw [zeros, textNat_zeros]
  · split
    · have exact' : (dotPlace - digits.length).toNat = 0 := by omega
      rw [exact', List.replicate_zero, List.append_nil, digitsKept]
    · have split' : (digits.take dotPlace.toNat ++ '.' :: digits.drop dotPlace.toNat).filter
          (fun ch => ch ≠ '.') = digits := by
        rw [List.filter_append, List.filter_cons_of_neg (by decide), ← List.filter_append,
          List.take_append_drop, digitsKept]
      rw [split']

theorem fraction_pointedText (ascii : ∀ ch ∈ digits, ch ∈ asciiDigits)
    (inside : dotPlace ≤ digits.length) :
    ((((pointedText digits dotPlace).dropWhile fun ch => ch ≠ '.').drop 1).length : Int) =
      digits.length - dotPlace := by
  have absent : '.' ∉ digits := not_mem_digits ascii (by decide)
  rw [pointedText]
  split
  · have cut : ('0' :: '.' :: (List.replicate (-dotPlace).toNat '0' ++ digits)).dropWhile
        (fun ch => ch ≠ '.') = '.' :: (List.replicate (-dotPlace).toNat '0' ++ digits) := by
      rw [List.dropWhile_cons_of_pos (by decide), List.dropWhile_cons_of_neg (by decide)]
    rw [cut, List.drop_succ_cons, List.drop_zero, List.length_append, List.length_replicate]
    omega
  · split
    · have exact' : (dotPlace - digits.length).toNat = 0 := by omega
      rw [exact', List.replicate_zero, List.append_nil, dropWhile_absent absent]
      simp only [List.drop_nil, List.length_nil]
      omega
    · have early : '.' ∉ digits.take dotPlace.toNat := fun member =>
        absent (List.mem_of_mem_take member)
      rw [dropWhile_append_separator early, List.drop_succ_cons, List.drop_zero, List.length_drop]
      omega

end Pointed

theorem readScientific_scientificText (coefficient : Nat) (exponent : Int) :
    readScientific (scientificText coefficient exponent) = (coefficient, exponent) := by
  have ascii := natText_mem_digits coefficient
  have nonempty := List.length_pos_iff.mpr (natText_ne_nil coefficient)
  simp only [scientificText]
  have inside : (if exponent ≤ 0 ∧ -6 < exponent + (natText coefficient).length then
      exponent + (natText coefficient).length else 1) ≤ ((natText coefficient).length : Int) := by
    split <;> omega
  generalize dotPlaceEq : (if exponent ≤ 0 ∧ -6 < exponent + (natText coefficient).length then
      exponent + (natText coefficient).length else (1 : Int)) = dotPlace at inside ⊢
  have exponentless : 'E' ∉ pointedText (natText coefficient) dotPlace :=
    pointedText_exponentless ascii
  have digits := textNat_pointedText ascii inside
  have fraction := fraction_pointedText ascii inside
  rw [textNat_natText] at digits
  split
  · rename_i plain
    have mantissa : (pointedText (natText coefficient) dotPlace).takeWhile
        (fun ch => ch ≠ 'E') = pointedText (natText coefficient) dotPlace := by
      rw [List.takeWhile_eq_self_iff]
      intro ch member
      simpa using ne_of_mem_of_not_mem member exponentless
    simp only [readScientific, mantissa, dropWhile_absent exponentless, digits, fraction,
      List.drop_nil, signedNumber, Prod.mk.injEq, true_and]
    omega
  · simp only [readScientific, takeWhile_append_separator exponentless,
      dropWhile_append_separator exponentless, digits, fraction, List.drop_succ_cons,
      List.drop_zero, signedNumber_plusText, Prod.mk.injEq, true_and]
    omega

theorem scientificText_head (coefficient : Nat) (exponent : Int) :
    ∃ digit rest, scientificText coefficient exponent = digit :: rest ∧ digit ∈ asciiDigits := by
  have ascii := natText_mem_digits coefficient
  obtain ⟨first, others, isText⟩ := List.exists_cons_of_ne_nil (natText_ne_nil coefficient)
  have firstDigit : first ∈ asciiDigits := ascii first (by rw [isText]; exact List.mem_cons_self)
  have pointed : ∀ dotPlace, ∃ digit rest, pointedText (natText coefficient) dotPlace =
      digit :: rest ∧ digit ∈ asciiDigits := by
    intro dotPlace
    rw [pointedText]
    split
    · exact ⟨'0', _, rfl, by decide⟩
    · rename_i positive
      rw [isText]
      split
      · exact ⟨first, _, rfl, firstDigit⟩
      · obtain ⟨place, isPlace⟩ := Nat.exists_eq_succ_of_ne_zero
          (show dotPlace.toNat ≠ 0 by omega)
        rw [isPlace]
        exact ⟨first, _, rfl, firstDigit⟩
  simp only [scientificText]
  generalize (if exponent ≤ 0 ∧ -6 < exponent + (natText coefficient).length then
      exponent + (natText coefficient).length else (1 : Int)) = dotPlace
  obtain ⟨digit, rest, isPointed, isDigit⟩ := pointed dotPlace
  rw [isPointed]
  split
  · exact ⟨digit, rest, rfl, isDigit⟩
  · exact ⟨digit, _, rfl, isDigit⟩

theorem signed_inj {left right : Bool} {leftText rightText : List Char}
    (leftUnsigned : leftText.head? ≠ some '-') (rightUnsigned : rightText.head? ≠ some '-')
    (same : signed left leftText = signed right rightText) :
    left = right ∧ leftText = rightText := by
  cases left with
  | false =>
      cases right with
      | false => exact ⟨rfl, same⟩
      | true =>
          rw [signed, if_neg Bool.false_ne_true, signed, if_pos rfl] at same
          rw [same] at leftUnsigned
          exact absurd rfl leftUnsigned
  | true =>
      cases right with
      | false =>
          rw [signed, if_pos rfl, signed, if_neg Bool.false_ne_true] at same
          rw [← same] at rightUnsigned
          exact absurd rfl rightUnsigned
      | true => exact ⟨rfl, (List.cons.inj same).2⟩

theorem PyDecimal.text_injective {left right : PyDecimal} (same : left.text = right.text) :
    left = right := by
  have unsigned : ∀ coefficient exponent,
      (scientificText coefficient exponent).head? ≠ some '-' ∧
      (scientificText coefficient exponent).head? ≠ some 'I' := by
    intro coefficient exponent
    obtain ⟨digit, rest, isText, isDigit⟩ := scientificText_head coefficient exponent
    rw [isText]
    constructor <;>
    · intro isOther
      rw [Option.some.inj isOther] at isDigit
      revert isDigit
      decide
  have infinite : infinityText.head? ≠ some '-' := by decide
  cases left with
  | infinity left =>
      cases right with
      | infinity right =>
          simp only [PyDecimal.text] at same
          rw [(signed_inj infinite infinite same).1]
      | finite right coefficient exponent =>
          simp only [PyDecimal.text] at same
          have texts := (signed_inj infinite (unsigned coefficient exponent).1 same).2
          have head := (unsigned coefficient exponent).2
          rw [← texts] at head
          exact absurd rfl head
  | finite left coefficient exponent =>
      cases right with
      | infinity right =>
          simp only [PyDecimal.text] at same
          have texts := (signed_inj (unsigned coefficient exponent).1 infinite same).2
          have head := (unsigned coefficient exponent).2
          rw [texts] at head
          exact absurd rfl head
      | finite right coefficient' exponent' =>
          simp only [PyDecimal.text] at same
          obtain ⟨signs, texts⟩ :=
            signed_inj (unsigned coefficient exponent).1 (unsigned coefficient' exponent').1 same
          have numbers := congrArg readScientific texts
          rw [readScientific_scientificText, readScientific_scientificText] at numbers
          rw [signs, (Prod.mk.inj numbers).1, (Prod.mk.inj numbers).2]

theorem PyDecimal.repr_injective {left right : PyDecimal} (same : left.repr = right.repr) :
    left = right := by
  unfold PyDecimal.repr at same
  rw [List.append_left_inj, List.append_right_inj] at same
  exact text_injective same

/-- Digits with at most one point, at least one of them a digit. -/
def isPointed (text : List Char) : Bool :=
  text.all (fun ch => ch ∈ asciiDigits || ch == '.') && decide (text.count '.' ≤ 1) &&
    text.any (· ∈ asciiDigits)

/-- A sign and digits. -/
def isExponent : List Char → Bool
  | [] => false
  | sign :: digits => (sign == '+' || sign == '-') && digits ≠ [] && digits.all (· ∈ asciiDigits)

def isScientific (text : List Char) : Bool :=
  isPointed (text.takeWhile fun ch => ch ≠ 'E') &&
    match text.dropWhile fun ch => ch ≠ 'E' with
    | [] => true
    | _ :: exponent => isExponent exponent

/-- `Decimal(text)`, on the forms `str` prints. -/
def PyDecimal.ofText (text : List Char) : Option PyDecimal :=
  let negative := text.head? == some '-'
  let rest := if negative then text.drop 1 else text
  if rest = infinityText then some (.infinity negative)
  else if isScientific rest then
    some (.finite negative (readScientific rest).1 (readScientific rest).2)
  else none

theorem isPointed_of_parts {before after : List Char} (left : ∀ ch ∈ before, ch ∈ asciiDigits)
    (right : ∀ ch ∈ after, ch ∈ asciiDigits) (nonempty : before ≠ []) :
    isPointed before = true ∧ isPointed (before ++ '.' :: after) = true := by
  have leftPoint : before.count '.' = 0 :=
    List.count_eq_zero.mpr (not_mem_digits left (by decide))
  have rightPoint : after.count '.' = 0 :=
    List.count_eq_zero.mpr (not_mem_digits right (by decide))
  have leftDigits : before.all (fun ch => ch ∈ asciiDigits || ch == '.') = true := by
    rw [List.all_eq_true]
    intro ch member
    simp [left ch member]
  have rightDigits : after.all (fun ch => ch ∈ asciiDigits || ch == '.') = true := by
    rw [List.all_eq_true]
    intro ch member
    simp [right ch member]
  have someDigit : before.any (· ∈ asciiDigits) = true := by
    obtain ⟨first, rest, rfl⟩ := List.exists_cons_of_ne_nil nonempty
    simp [left first]
  constructor
  · simp only [isPointed, leftPoint, leftDigits, someDigit]
    decide
  · simp only [isPointed, List.all_append, List.all_cons, List.count_append, List.count_cons_self,
      List.any_append, leftPoint, rightPoint, leftDigits, rightDigits, someDigit, Bool.true_or]
    decide

theorem isPointed_pointedText {digits : List Char} (ascii : ∀ ch ∈ digits, ch ∈ asciiDigits)
    (nonempty : digits ≠ []) (dotPlace : Int) : isPointed (pointedText digits dotPlace) = true := by
  have zero : '0' ∈ asciiDigits := by decide
  have zeros : ∀ count, ∀ ch ∈ List.replicate count '0', ch ∈ asciiDigits := by
    intro count ch member
    rw [(List.mem_replicate.mp member).2]
    exact zero
  rw [pointedText]
  split
  · have leading : ∀ ch ∈ ['0'], ch ∈ asciiDigits := by simpa using zero
    refine (isPointed_of_parts leading ?_ (by decide)).2
    · intro ch member
      rcases List.mem_append.mp member with padding | digit
      · exact zeros _ ch padding
      · exact ascii ch digit
  · split
    · have none : ∀ ch ∈ ([] : List Char), ch ∈ asciiDigits := nofun
      refine (isPointed_of_parts ?_ none (by simp [nonempty])).1
      intro ch member
      rcases List.mem_append.mp member with digit | padding
      · exact ascii ch digit
      · exact zeros _ ch padding
    · refine (isPointed_of_parts ?_ ?_ ?_).2
      · exact fun ch member => ascii ch (List.mem_of_mem_take member)
      · exact fun ch member => ascii ch (List.mem_of_mem_drop member)
      · have some := List.length_pos_iff.mpr nonempty
        rw [← List.length_pos_iff, List.length_take]
        omega

theorem isExponent_plusText (value : Int) : isExponent (plusText value) = true := by
  cases value with
  | ofNat value =>
      simpa [plusText, isExponent, natText_ne_nil] using natText_mem_digits value
  | negSucc value =>
      simpa [plusText, isExponent, natText_ne_nil] using natText_mem_digits (value + 1)

theorem isScientific_scientificText (coefficient : Nat) (exponent : Int) :
    isScientific (scientificText coefficient exponent) = true := by
  have ascii := natText_mem_digits coefficient
  simp only [scientificText]
  generalize (if exponent ≤ 0 ∧ -6 < exponent + (natText coefficient).length then
      exponent + (natText coefficient).length else (1 : Int)) = dotPlace
  have exponentless : 'E' ∉ pointedText (natText coefficient) dotPlace :=
    pointedText_exponentless ascii
  have pointed := isPointed_pointedText ascii (natText_ne_nil coefficient) dotPlace
  split
  · have mantissa : (pointedText (natText coefficient) dotPlace).takeWhile
        (fun ch => ch ≠ 'E') = pointedText (natText coefficient) dotPlace := by
      rw [List.takeWhile_eq_self_iff]
      intro ch member
      simpa using ne_of_mem_of_not_mem member exponentless
    simp only [isScientific, mantissa, dropWhile_absent exponentless, pointed, Bool.and_self]
  · simp only [isScientific, takeWhile_append_separator exponentless,
      dropWhile_append_separator exponentless, pointed, isExponent_plusText, Bool.and_self]

theorem PyDecimal.ofText_text (value : PyDecimal) : PyDecimal.ofText value.text = some value := by
  cases value with
  | infinity negative => cases negative <;> rfl
  | finite negative coefficient exponent =>
      obtain ⟨digit, rest, isText, isDigit⟩ := scientificText_head coefficient exponent
      have notSign : digit ≠ '-' := ne_of_mem_of_not_mem isDigit (by decide)
      have finite : scientificText coefficient exponent ≠ infinityText := by
        intro same
        rw [isText] at same
        rw [(List.cons.inj same).1] at isDigit
        revert isDigit
        decide
      have scientific := isScientific_scientificText coefficient exponent
      have number := readScientific_scientificText coefficient exponent
      cases negative with
      | true => simp [PyDecimal.text, signed, PyDecimal.ofText, finite, scientific, number]
      | false =>
          have unsigned : ((scientificText coefficient exponent).head? == some '-') = false := by
            simp [isText, notSign]
          simp [PyDecimal.text, signed, PyDecimal.ofText, unsigned, finite, scientific, number]

theorem scaled_pos {coefficient : Nat} (positive : 0 < coefficient) (exponent : Int) :
    0 < scaled coefficient exponent := by
  have coefficientPos : (0 : ℚ) < coefficient := Nat.cast_pos.mpr positive
  exact mul_pos coefficientPos (zpow_pos (by norm_num) exponent)

theorem scaled_of_negative {exponent : Int} (coefficient : Nat) (negative : exponent < 0) :
    scaled coefficient exponent = coefficient / ((10 ^ (-exponent).toNat : Nat) : ℚ) := by
  have isNegative : exponent = -((-exponent).toNat : Int) := by omega
  rw [scaled]
  nth_rewrite 1 [isNegative]
  rw [zpow_neg, zpow_natCast, div_eq_mul_inv]
  push_cast
  rfl

theorem scaled_of_nonnegative {exponent : Int} (coefficient : Nat) (nonnegative : 0 ≤ exponent) :
    scaled coefficient exponent = (coefficient * 10 ^ exponent.toNat : Nat) := by
  have isNatural : exponent = (exponent.toNat : Int) := by omega
  rw [scaled]
  nth_rewrite 1 [isNatural]
  rw [zpow_natCast]
  push_cast
  rfl

theorem scaled_mul_pow (coefficient shift : Nat) (exponent : Int) :
    scaled (coefficient * 10 ^ shift) (exponent - shift) = scaled coefficient exponent := by
  rw [scaled, scaled, Nat.cast_mul, Nat.cast_pow, Nat.cast_ofNat, mul_assoc, ← zpow_natCast,
    ← zpow_add₀ (by norm_num)]
  congr 2
  omega

theorem eq_mul_pow_of_scaled_eq {left right : Nat} {leftExponent rightExponent : Int}
    (below : leftExponent ≤ rightExponent)
    (same : scaled left leftExponent = scaled right rightExponent) :
    left = right * 10 ^ (rightExponent - leftExponent).toNat := by
  have shifted := scaled_mul_pow right (rightExponent - leftExponent).toNat rightExponent
  have meets : rightExponent - ((rightExponent - leftExponent).toNat : Int) = leftExponent := by
    omega
  rw [meets, ← same, scaled, scaled] at shifted
  have power : (10 : ℚ) ^ leftExponent ≠ 0 := zpow_ne_zero _ (by norm_num)
  exact_mod_cast (mul_right_cancel₀ power shifted).symm

theorem eq_of_scaled_eq {left right : Nat} {leftExponent rightExponent : Int}
    (leftStripped : left % 10 ≠ 0) (rightStripped : right % 10 ≠ 0)
    (same : scaled left leftExponent = scaled right rightExponent) :
    left = right ∧ leftExponent = rightExponent := by
  have aligned : ∀ {low high : Nat} {lowExponent highExponent : Int}, low % 10 ≠ 0 →
      lowExponent ≤ highExponent → scaled low lowExponent = scaled high highExponent →
      low = high ∧ lowExponent = highExponent := by
    intro low high lowExponent highExponent stripped below equal
    have multiple := eq_mul_pow_of_scaled_eq below equal
    cases shift : (highExponent - lowExponent).toNat with
    | zero =>
        rw [shift, Nat.pow_zero, Nat.mul_one] at multiple
        exact ⟨multiple, by omega⟩
    | succ shift' =>
        rw [shift, Nat.pow_succ, ← Nat.mul_assoc] at multiple
        exact absurd (by rw [multiple, Nat.mul_mod_left]) stripped
  rcases Int.le_total leftExponent rightExponent with below | above
  · exact aligned leftStripped below same
  · obtain ⟨coefficients, exponents⟩ := aligned rightStripped above same.symm
    exact ⟨coefficients.symm, exponents.symm⟩

theorem lt_pow_length_natText {value : Nat} (positive : 0 < value) :
    value < 10 ^ (natText value).length := by
  rw [length_natText positive]
  exact Nat.lt_pow_succ_log_self (by decide) value

theorem pow_le_of_length_natText {value digits : Nat} (positive : 0 < value)
    (long : digits < (natText value).length) : 10 ^ digits ≤ value := by
  rw [length_natText positive] at long
  calc 10 ^ digits ≤ 10 ^ Nat.log 10 value := Nat.pow_le_pow_right (by decide) (by omega)
    _ ≤ value := Nat.pow_log_le_self 10 (by omega)

theorem stripZeros_spec {fuel coefficient : Nat} (exponent : Int) (positive : 0 < coefficient)
    (enough : coefficient < 10 ^ fuel) :
    scaled (stripZeros fuel coefficient exponent).1 (stripZeros fuel coefficient exponent).2 =
        scaled coefficient exponent ∧
      (stripZeros fuel coefficient exponent).1 % 10 ≠ 0 := by
  induction fuel generalizing coefficient exponent with
  | zero => omega
  | succ fuel ih =>
      rw [stripZeros]
      split
      · rename_i trailing
        have smaller : coefficient / 10 < 10 ^ fuel := by
          rw [Nat.pow_succ] at enough
          omega
        obtain ⟨kept, stripped⟩ := ih (exponent + 1) (by omega) smaller
        refine ⟨?_, stripped⟩
        have shifted := scaled_mul_pow (coefficient / 10) 1 (exponent + 1)
        have whole : coefficient / 10 * 10 ^ 1 = coefficient := by omega
        rw [whole] at shifted
        rw [kept, ← shifted]
        congr 1
        omega
      · rename_i stripped
        exact ⟨rfl, stripped⟩

section Rounding

variable {precision coefficient : Nat} {exponent : Int}

/-- A rounded coefficient as a multiple of the dropped power of ten. -/
def roundedCoefficient (excess coefficient : Nat) : Nat :=
  if 10 ^ excess < 2 * (coefficient % 10 ^ excess) ∨
      (2 * (coefficient % 10 ^ excess) = 10 ^ excess ∧ coefficient / 10 ^ excess % 2 = 1) then
    coefficient / 10 ^ excess + 1
  else coefficient / 10 ^ excess

theorem scaled_roundHalfEven (positivePrecision : 0 < precision) (positive : 0 < coefficient) :
    scaled (roundHalfEven precision coefficient exponent).1
        (roundHalfEven precision coefficient exponent).2 =
      scaled (roundedCoefficient ((natText coefficient).length - precision) coefficient)
        (exponent + ((natText coefficient).length - precision : Nat)) := by
  generalize excessEq : (natText coefficient).length - precision = excess
  rw [roundHalfEven, excessEq]
  simp only
  split
  · rename_i none'
    rw [none', roundedCoefficient]
    simp [Nat.mod_one]
  · rename_i some'
    have below : coefficient / 10 ^ excess < 10 ^ precision := by
      apply Nat.div_lt_of_lt_mul
      rw [← Nat.pow_add]
      have total : excess + precision = (natText coefficient).length := by omega
      rw [total]
      exact lt_pow_length_natText positive
    rw [← roundedCoefficient]
    have most : roundedCoefficient excess coefficient ≤ coefficient / 10 ^ excess + 1 := by
      rw [roundedCoefficient]
      split <;> omega
    split
    · rename_i carried
      have full : roundedCoefficient excess coefficient = 10 ^ precision := by omega
      obtain ⟨digits, isPrecision⟩ := Nat.exists_eq_succ_of_ne_zero (Nat.ne_of_gt positivePrecision)
      have tenth : 10 ^ precision / 10 = 10 ^ digits := by
        rw [isPrecision, Nat.pow_succ, Nat.mul_div_cancel _ (by decide)]
      have shifted := scaled_mul_pow (10 ^ digits) 1 (exponent + excess + 1)
      rw [full, tenth, ← shifted, isPrecision]
      congr 1
      omega
    · rfl

theorem length_natText_mul_ten (positive : 0 < coefficient) :
    (natText (coefficient * 10)).length = (natText coefficient).length + 1 := by
  rw [length_natText positive, length_natText (by omega),
    Nat.log_mul_base (by decide) (by omega)]

theorem roundedCoefficient_mul_ten (excess coefficient : Nat) :
    roundedCoefficient (excess + 1) (coefficient * 10) = roundedCoefficient excess coefficient := by
  have kept : coefficient * 10 / 10 ^ (excess + 1) = coefficient / 10 ^ excess := by
    rw [Nat.pow_succ, Nat.mul_div_mul_right _ _ (by decide)]
  have lost : coefficient * 10 % 10 ^ (excess + 1) = coefficient % 10 ^ excess * 10 := by
    rw [Nat.pow_succ, Nat.mul_mod_mul_right]
  rw [roundedCoefficient, roundedCoefficient, kept, lost, Nat.pow_succ]
  congr 1
  apply propext
  constructor
  · intro up
    rcases up with more | ⟨tie, odd⟩
    · exact Or.inl (by omega)
    · exact Or.inr ⟨by omega, odd⟩
  · intro up
    rcases up with more | ⟨tie, odd⟩
    · exact Or.inl (by omega)
    · exact Or.inr ⟨by omega, odd⟩

theorem scaled_roundHalfEven_mul_ten (positivePrecision : 0 < precision)
    (positive : 0 < coefficient) (exponent : Int) :
    scaled (roundHalfEven precision (coefficient * 10) (exponent - 1)).1
        (roundHalfEven precision (coefficient * 10) (exponent - 1)).2 =
      scaled (roundHalfEven precision coefficient exponent).1
        (roundHalfEven precision coefficient exponent).2 := by
  rw [scaled_roundHalfEven positivePrecision positive,
    scaled_roundHalfEven positivePrecision (show 0 < coefficient * 10 by omega),
    length_natText_mul_ten positive]
  by_cases short : (natText coefficient).length < precision
  · have noExcess : (natText coefficient).length - precision = 0 := by omega
    have noExcess' : (natText coefficient).length + 1 - precision = 0 := by omega
    have exact' : ∀ value, roundedCoefficient 0 value = value := by
      intro value
      simp [roundedCoefficient, Nat.mod_one]
    have shifted := scaled_mul_pow coefficient 1 exponent
    rw [noExcess, noExcess', exact', exact']
    simpa using shifted
  · have excess : (natText coefficient).length + 1 - precision =
        (natText coefficient).length - precision + 1 := by omega
    rw [excess, roundedCoefficient_mul_ten]
    congr 1
    omega

theorem scaled_roundHalfEven_mul_pow (positivePrecision : 0 < precision)
    (positive : 0 < coefficient) (exponent : Int) (shift : Nat) :
    scaled (roundHalfEven precision (coefficient * 10 ^ shift) (exponent - shift)).1
        (roundHalfEven precision (coefficient * 10 ^ shift) (exponent - shift)).2 =
      scaled (roundHalfEven precision coefficient exponent).1
        (roundHalfEven precision coefficient exponent).2 := by
  induction shift with
  | zero => simp
  | succ shift ih =>
      have longer := scaled_roundHalfEven_mul_ten positivePrecision
        (show 0 < coefficient * 10 ^ shift by positivity) (exponent - shift)
      have exponents : exponent - shift - 1 = exponent - (shift + 1 : Nat) := by omega
      rw [exponents, Nat.mul_assoc, ← Nat.pow_succ] at longer
      exact longer.trans ih

theorem scaled_roundHalfEven_congr (positivePrecision : 0 < precision)
    (positive : 0 < coefficient) {other : Nat} (otherPositive : 0 < other)
    {otherExponent : Int} (same : scaled coefficient exponent = scaled other otherExponent) :
    scaled (roundHalfEven precision coefficient exponent).1
        (roundHalfEven precision coefficient exponent).2 =
      scaled (roundHalfEven precision other otherExponent).1
        (roundHalfEven precision other otherExponent).2 := by
  rcases Int.le_total exponent otherExponent with below | above
  · have longer := scaled_roundHalfEven_mul_pow positivePrecision otherPositive
      otherExponent (otherExponent - exponent).toNat
    have meets : otherExponent - ((otherExponent - exponent).toNat : Int) = exponent := by omega
    rw [← eq_mul_pow_of_scaled_eq below same, meets] at longer
    exact longer
  · have longer := scaled_roundHalfEven_mul_pow positivePrecision positive
      exponent (exponent - otherExponent).toNat
    have meets : exponent - ((exponent - otherExponent).toNat : Int) = otherExponent := by omega
    rw [← eq_mul_pow_of_scaled_eq above same.symm, meets] at longer
    exact longer.symm

theorem roundedCoefficient_close (excess coefficient : Nat) :
    roundedCoefficient excess coefficient * 10 ^ excess ≤ coefficient + 10 ^ excess ∧
    coefficient ≤ roundedCoefficient excess coefficient * 10 ^ excess + 10 ^ excess := by
  have division := Nat.div_add_mod coefficient (10 ^ excess)
  have remainder := Nat.mod_lt coefficient (show 10 ^ excess > 0 by positivity)
  rw [Nat.mul_comm] at division
  rw [roundedCoefficient]
  split
  · rw [Nat.add_mul, Nat.one_mul]
    omega
  · omega

theorem roundHalfEven_close (digits : Nat) (positive : 0 < coefficient) (exponent : Int) :
    |scaled (roundHalfEven (digits + 1) coefficient exponent).1
        (roundHalfEven (digits + 1) coefficient exponent).2 - scaled coefficient exponent| *
      10 ^ digits ≤ scaled coefficient exponent := by
  rw [scaled_roundHalfEven (by omega) positive]
  generalize excessEq : (natText coefficient).length - (digits + 1) = excess
  obtain ⟨above, below⟩ := roundedCoefficient_close excess coefficient
  have shifted := scaled_mul_pow (roundedCoefficient excess coefficient) excess (exponent + excess)
  rw [show exponent + (excess : Int) - excess = exponent by omega] at shifted
  rw [← shifted, scaled, scaled, ← sub_mul, abs_mul]
  have power : (0 : ℚ) < 10 ^ exponent := zpow_pos (by norm_num) exponent
  rw [abs_of_pos power, mul_assoc, mul_comm ((10 : ℚ) ^ exponent), ← mul_assoc]
  apply mul_le_mul_of_nonneg_right _ (le_of_lt power)
  cases excess with
  | zero =>
      have same : roundedCoefficient 0 coefficient * 10 ^ 0 = coefficient := by
        simp [roundedCoefficient, Nat.mod_one]
      rw [same, sub_self, abs_zero, zero_mul]
      positivity
  | succ excess =>
      have large : 10 ^ (digits + (excess + 1)) ≤ coefficient :=
        pow_le_of_length_natText positive (by omega)
      have error : |((roundedCoefficient (excess + 1) coefficient * 10 ^ (excess + 1) : Nat) : ℚ) -
          coefficient| ≤ ((10 ^ (excess + 1) : Nat) : ℚ) := by
        rw [abs_le]
        have above' : ((roundedCoefficient (excess + 1) coefficient * 10 ^ (excess + 1) : Nat) : ℚ) ≤
            coefficient + (10 ^ (excess + 1) : Nat) := by exact_mod_cast above
        have below' : (coefficient : ℚ) ≤
            (roundedCoefficient (excess + 1) coefficient * 10 ^ (excess + 1) : Nat) +
              (10 ^ (excess + 1) : Nat) := by exact_mod_cast below
        constructor <;> linarith
      have digitsPower : (0 : ℚ) ≤ 10 ^ digits := by positivity
      have bound := mul_le_mul_of_nonneg_right error digitsPower
      have large' : ((10 ^ (excess + 1) : Nat) : ℚ) * 10 ^ digits ≤ coefficient := by
        rw [Nat.pow_add, Nat.mul_comm] at large
        exact_mod_cast large
      exact le_trans bound large'

end Rounding

section Normalize

variable {digits coefficient other : Nat} {exponent otherExponent : Int} {negative sign : Bool}

theorem normalize_finite (someDigits : 0 < digits) (negative : Bool)
    (positive : 0 < coefficient) (exponent : Int) :
    ∃ stripped strippedExponent,
      (PyDecimal.finite negative coefficient exponent).normalize (digits + 1) =
        .finite negative stripped strippedExponent ∧
      stripped % 10 ≠ 0 ∧
      scaled stripped strippedExponent =
        scaled (roundHalfEven (digits + 1) coefficient exponent).1
          (roundHalfEven (digits + 1) coefficient exponent).2 := by
  have close := roundHalfEven_close digits positive exponent
  have value := scaled_pos positive exponent
  simp only [PyDecimal.normalize]
  generalize roundHalfEven (digits + 1) coefficient exponent = rounded at close ⊢
  have nonzero : rounded.1 ≠ 0 := by
    intro zero
    rw [zero] at close
    simp only [scaled, Nat.cast_zero, zero_mul, zero_sub, abs_neg] at close value
    rw [abs_of_pos value] at close
    have ten : (10 : ℚ) ≤ 10 ^ digits := le_self_pow₀ (by norm_num) (by omega)
    have grown := mul_le_mul_of_nonneg_left ten (le_of_lt value)
    linarith
  have positive' : 0 < rounded.1 := Nat.pos_of_ne_zero nonzero
  obtain ⟨kept, stripped⟩ :=
    stripZeros_spec rounded.2 positive' (lt_pow_length_natText positive')
  exact ⟨_, _, if_neg nonzero, stripped, kept⟩

theorem normalize_congr (someDigits : 0 < digits) (positive : 0 < coefficient)
    (otherPositive : 0 < other) (same : scaled coefficient exponent = scaled other otherExponent) :
    (PyDecimal.finite negative coefficient exponent).normalize (digits + 1) =
      (PyDecimal.finite negative other otherExponent).normalize (digits + 1) := by
  obtain ⟨left, leftExponent, leftIs, leftStripped, leftValue⟩ :=
    normalize_finite someDigits negative positive exponent
  obtain ⟨right, rightExponent, rightIs, rightStripped, rightValue⟩ :=
    normalize_finite someDigits negative otherPositive otherExponent
  have values : scaled left leftExponent = scaled right rightExponent := by
    rw [leftValue, rightValue]
    exact scaled_roundHalfEven_congr (by omega) positive otherPositive same
  obtain ⟨coefficients, exponents⟩ := eq_of_scaled_eq leftStripped rightStripped values
  rw [leftIs, rightIs, coefficients, exponents]

theorem close_of_normalize_eq (digits : Nat) (someDigits : 0 < digits) (positive : 0 < coefficient)
    (otherPositive : 0 < other)
    (same : (PyDecimal.finite negative coefficient exponent).normalize (digits + 1) =
      (PyDecimal.finite sign other otherExponent).normalize (digits + 1)) :
    negative = sign ∧ |scaled coefficient exponent - scaled other otherExponent| * 10 ^ digits ≤
      scaled coefficient exponent + scaled other otherExponent := by
  obtain ⟨left, leftExponent, leftIs, _, leftValue⟩ :=
    normalize_finite someDigits negative positive exponent
  obtain ⟨right, rightExponent, rightIs, _, rightValue⟩ :=
    normalize_finite someDigits sign otherPositive otherExponent
  rw [leftIs, rightIs] at same
  injection same with signs coefficients exponents
  refine ⟨signs, ?_⟩
  have leftClose := roundHalfEven_close digits positive exponent
  have rightClose := roundHalfEven_close digits otherPositive otherExponent
  rw [← leftValue] at leftClose
  rw [← rightValue, ← coefficients, ← exponents] at rightClose
  have power : (0 : ℚ) ≤ 10 ^ digits := by positivity
  have triangle : |scaled coefficient exponent - scaled other otherExponent| ≤
      |scaled left leftExponent - scaled coefficient exponent| +
        |scaled left leftExponent - scaled other otherExponent| := by
    rw [abs_sub_comm (scaled left leftExponent) (scaled coefficient exponent)]
    exact abs_sub_le _ _ _
  calc |scaled coefficient exponent - scaled other otherExponent| * 10 ^ digits
      ≤ (|scaled left leftExponent - scaled coefficient exponent| +
          |scaled left leftExponent - scaled other otherExponent|) * 10 ^ digits :=
        mul_le_mul_of_nonneg_right triangle power
    _ ≤ scaled coefficient exponent + scaled other otherExponent := by
        rw [add_mul]
        exact add_le_add leftClose rightClose

theorem scaled_eq_of_normalize_eq (digits : Nat) (someDigits : 0 < digits) (positive : 0 < coefficient)
    (otherPositive : 0 < other) (short : (natText coefficient).length ≤ digits + 1)
    (otherShort : (natText other).length ≤ digits + 1)
    (same : (PyDecimal.finite negative coefficient exponent).normalize (digits + 1) =
      (PyDecimal.finite sign other otherExponent).normalize (digits + 1)) :
    scaled coefficient exponent = scaled other otherExponent := by
  have unrounded : ∀ {value : Nat} {exponent : Int}, (natText value).length ≤ digits + 1 →
      roundHalfEven (digits + 1) value exponent = (value, exponent) := by
    intro value exponent few
    have noExcess : (natText value).length - (digits + 1) = 0 := by omega
    simp only [roundHalfEven, noExcess, if_true]
  obtain ⟨left, leftExponent, leftIs, _, leftValue⟩ :=
    normalize_finite someDigits negative positive exponent
  obtain ⟨right, rightExponent, rightIs, _, rightValue⟩ :=
    normalize_finite someDigits sign otherPositive otherExponent
  rw [leftIs, rightIs] at same
  injection same with _ coefficients exponents
  rw [unrounded short] at leftValue
  rw [unrounded otherShort, ← coefficients, ← exponents] at rightValue
  exact leftValue.symm.trans rightValue

end Normalize

end DecoyEngine.Data
