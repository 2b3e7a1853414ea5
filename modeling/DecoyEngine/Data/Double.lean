import DecoyEngine.Data.Decimal
import Mathlib.Data.Nat.Prime.Basic
import Mathlib.Data.Nat.Cast.Field
import Mathlib.Tactic.Ring
import Mathlib.Tactic.NormNum

namespace DecoyEngine.Data

/-! IEEE 754 doubles as exact numbers, and how far apart two of them are. -/

/-- The magnitude of a finite double: `mantissa * 2 ^ exponent`. -/
structure DoubleMagnitude where
  mantissa : Nat
  exponent : Int
  mantissa_lt : mantissa < 2 ^ 53
  exponent_ge : -1074 ≤ exponent
  exponent_le : exponent ≤ 971
  canonical : 2 ^ 52 ≤ mantissa ∨ exponent = -1074
deriving DecidableEq

/-- A double that is a number. -/
inductive DoubleNumber where
  | infinity (negative : Bool)
  | finite (negative : Bool) (magnitude : DoubleMagnitude)
deriving DecidableEq

inductive Double where
  | nan
  | number (value : DoubleNumber)
deriving DecidableEq

/-- A number as its sign and its magnitude. -/
def signedValue (negative : Bool) (magnitude : ℚ) : ℚ := if negative then -magnitude else magnitude

namespace DoubleMagnitude

variable (magnitude : DoubleMagnitude)

def value : ℚ := magnitude.mantissa * 2 ^ magnitude.exponent

/-- How many bits stand after the binary point. -/
def fractionBits : Nat := (-magnitude.exponent).toNat

/-- `value.is_integer()`. -/
def isInteger : Bool :=
  0 ≤ magnitude.exponent || magnitude.mantissa % 2 ^ magnitude.fractionBits = 0

/-- `int(abs(value))`. -/
def truncated : Nat :=
  if 0 ≤ magnitude.exponent then magnitude.mantissa * 2 ^ magnitude.exponent.toNat
  else magnitude.mantissa / 2 ^ magnitude.fractionBits

def asIntegerRatio : Nat × Nat :=
  if 0 ≤ magnitude.exponent then (magnitude.mantissa * 2 ^ magnitude.exponent.toNat, 1)
  else
    let common := Nat.gcd magnitude.mantissa (2 ^ magnitude.fractionBits)
    (magnitude.mantissa / common, 2 ^ magnitude.fractionBits / common)

/-- `Decimal(value)`: the exact expansion. -/
def toDecimal (negative : Bool) : PyDecimal :=
  let ratio := magnitude.asIntegerRatio
  let places := Nat.log 2 ratio.2
  .finite negative (ratio.1 * 5 ^ places) (-(places : Int))

variable {magnitude}

theorem value_of_negative (negative : magnitude.exponent < 0) :
    magnitude.value = magnitude.mantissa / 2 ^ magnitude.fractionBits := by
  have exponent : magnitude.exponent = -(magnitude.fractionBits : Int) := by
    rw [fractionBits]
    omega
  rw [value, exponent, zpow_neg, zpow_natCast, div_eq_mul_inv]

theorem value_of_nonnegative (nonnegative : 0 ≤ magnitude.exponent) :
    magnitude.value = (magnitude.mantissa * 2 ^ magnitude.exponent.toNat : Nat) := by
  have exponent : magnitude.exponent = (magnitude.exponent.toNat : Int) := by omega
  rw [value]
  nth_rewrite 1 [exponent]
  rw [zpow_natCast]
  push_cast
  rfl

theorem exponent_neg (fractional : magnitude.isInteger = false) : magnitude.exponent < 0 := by
  simp only [isInteger, Bool.or_eq_false_iff, decide_eq_false_iff_not] at fractional
  omega

theorem truncated_eq (whole : magnitude.isInteger = true) :
    (magnitude.truncated : ℚ) = magnitude.value := by
  rw [truncated]
  split
  · rename_i nonnegative
    rw [value_of_nonnegative nonnegative]
  · rename_i negative
    simp only [isInteger, Bool.or_eq_true, decide_eq_true_eq, negative, false_or] at whole
    rw [value_of_negative (by omega),
      Nat.cast_div (Nat.dvd_of_mod_eq_zero whole) (by positivity)]
    push_cast
    rfl

theorem isInteger_iff : magnitude.isInteger = true ↔ ∃ whole : Nat, magnitude.value = whole := by
  constructor
  · intro whole
    exact ⟨_, (truncated_eq whole).symm⟩
  · intro ⟨whole, same⟩
    by_contra fractional
    rw [Bool.not_eq_true] at fractional
    rw [value_of_negative (exponent_neg fractional), div_eq_iff (by positivity)] at same
    have multiple : magnitude.mantissa = whole * 2 ^ magnitude.fractionBits := by
      exact_mod_cast same
    have divides := Nat.mod_eq_zero_of_dvd (Dvd.intro_left whole multiple.symm)
    simp [isInteger, divides] at fractional

theorem asIntegerRatio_spec (magnitude : DoubleMagnitude) :
    magnitude.asIntegerRatio.2 = 2 ^ Nat.log 2 magnitude.asIntegerRatio.2 ∧
    magnitude.value = magnitude.asIntegerRatio.1 / magnitude.asIntegerRatio.2 := by
  rw [asIntegerRatio]
  split
  · rename_i nonnegative
    rw [value_of_nonnegative nonnegative]
    simp
  · rename_i negative
    have power : (2 ^ magnitude.fractionBits /
        Nat.gcd magnitude.mantissa (2 ^ magnitude.fractionBits)) ∣ 2 ^ magnitude.fractionBits :=
      Nat.div_dvd_of_dvd (Nat.gcd_dvd_right _ _)
    obtain ⟨places, _, isPower⟩ := (Nat.dvd_prime_pow Nat.prime_two).mp power
    have common : (Nat.gcd magnitude.mantissa (2 ^ magnitude.fractionBits) : ℚ) ≠ 0 := by
      exact_mod_cast Nat.ne_of_gt (Nat.gcd_pos_of_pos_right _ (by positivity))
    constructor
    · simp only [isPower, Nat.log_pow (show 1 < 2 by decide)]
    · rw [value_of_negative (by omega), Nat.cast_div (Nat.gcd_dvd_left _ _) common,
        Nat.cast_div (Nat.gcd_dvd_right _ _) common]
      field_simp
      push_cast
      ring

theorem toDecimal_spec (magnitude : DoubleMagnitude) (negative : Bool) :
    ∃ coefficient exponent, magnitude.toDecimal negative = .finite negative coefficient exponent ∧
      scaled coefficient exponent = magnitude.value := by
  refine ⟨_, _, rfl, ?_⟩
  obtain ⟨power, ratio⟩ := magnitude.asIntegerRatio_spec
  generalize Nat.log 2 magnitude.asIntegerRatio.2 = places at power ⊢
  rw [ratio, power, scaled, zpow_neg, zpow_natCast]
  have ten : (10 : ℚ) ^ places = 2 ^ places * 5 ^ places := by
    rw [← mul_pow]
    norm_num
  rw [ten]
  push_cast
  field_simp

theorem le_abs_sub_mul {left right denominator : Nat} (positive : 0 < denominator)
    (differ : (left : ℚ) / denominator ≠ right / denominator) :
    (left : ℚ) / denominator ≤ |(left : ℚ) / denominator - right / denominator| * left := by
  have denominatorPos : (0 : ℚ) < denominator := Nat.cast_pos.mpr positive
  have numerators : (left : ℤ) - right ≠ 0 := by
    intro same
    apply differ
    have equal : left = right := by omega
    rw [equal]
  have unit : (1 : ℚ) ≤ |(left : ℚ) - right| := by
    have integral : (1 : ℤ) ≤ |(left : ℤ) - right| := Int.one_le_abs numerators
    exact_mod_cast integral
  rw [← sub_div, abs_div, abs_of_pos denominatorPos, div_mul_eq_mul_div]
  apply div_le_div_of_nonneg_right _ (le_of_lt denominatorPos)
  calc (left : ℚ) = 1 * left := (one_mul _).symm
    _ ≤ |(left : ℚ) - right| * left := mul_le_mul_of_nonneg_right unit (Nat.cast_nonneg left)

/-- A fractional double differs from a fraction by no less than the mantissa and the
denominator allow. -/
theorem fraction_gap (fractional : magnitude.isInteger = false) {numerator denominator : Nat}
    (positive : 0 < denominator) (differ : magnitude.value ≠ numerator / denominator) :
    magnitude.value ≤
      |magnitude.value - numerator / denominator| * ((2 ^ 53 * denominator : Nat) : ℚ) := by
  have denominatorPos : (0 : ℚ) < denominator := Nat.cast_pos.mpr positive
  have left : magnitude.value = ((magnitude.mantissa * denominator : Nat) : ℚ) /
      ((2 ^ magnitude.fractionBits * denominator : Nat) : ℚ) := by
    rw [value_of_negative (exponent_neg fractional)]
    push_cast
    rw [mul_div_mul_right _ _ (ne_of_gt denominatorPos)]
  have right : (numerator : ℚ) / denominator =
      ((numerator * 2 ^ magnitude.fractionBits : Nat) : ℚ) /
      ((2 ^ magnitude.fractionBits * denominator : Nat) : ℚ) := by
    push_cast
    rw [mul_comm, mul_div_mul_left _ _ (by positivity)]
  rw [left, right] at differ
  have unit := le_abs_sub_mul (show 0 < 2 ^ magnitude.fractionBits * denominator by positivity) differ
  rw [← left, ← right] at unit
  apply le_trans unit
  apply mul_le_mul_of_nonneg_left _ (abs_nonneg _)
  have mantissa := Nat.mul_le_mul_right denominator (Nat.le_of_lt magnitude.mantissa_lt)
  exact_mod_cast mantissa

theorem double_gap {other : DoubleMagnitude} (fractional : magnitude.isInteger = false)
    (otherFractional : other.isInteger = false) (finer : other.fractionBits ≤ magnitude.fractionBits)
    (differ : magnitude.value ≠ other.value) :
    magnitude.value ≤ |magnitude.value - other.value| * ((2 ^ 53 : Nat) : ℚ) := by
  have left := value_of_negative (exponent_neg fractional)
  have right : other.value =
      ((other.mantissa * 2 ^ (magnitude.fractionBits - other.fractionBits) : Nat) : ℚ) /
        ((2 ^ magnitude.fractionBits : Nat) : ℚ) := by
    have bits : 2 ^ magnitude.fractionBits =
        2 ^ other.fractionBits * 2 ^ (magnitude.fractionBits - other.fractionBits) := by
      rw [← Nat.pow_add, Nat.add_sub_cancel' finer]
    rw [value_of_negative (exponent_neg otherFractional), bits]
    push_cast
    rw [mul_div_mul_right _ _ (by positivity)]
  have common : magnitude.value = (magnitude.mantissa : ℚ) / ((2 ^ magnitude.fractionBits : Nat) : ℚ) := by
    rw [left]
    push_cast
    rfl
  rw [common, right] at differ
  have unit := le_abs_sub_mul (show 0 < 2 ^ magnitude.fractionBits by positivity) differ
  rw [← common, ← right] at unit
  apply le_trans unit
  apply mul_le_mul_of_nonneg_left _ (abs_nonneg _)
  exact_mod_cast Nat.le_of_lt magnitude.mantissa_lt

end DoubleMagnitude

theorem eq_of_close {left right : ℚ} {bound digits : Nat}
    (gap : left ≠ right → left ≤ |left - right| * bound)
    (close : |left - right| * 10 ^ digits ≤ left + right)
    (small : 2 * bound + 1 < 10 ^ digits) : left = right := by
  by_contra differ
  have positive : 0 < |left - right| := abs_pos.mpr (sub_ne_zero.mpr differ)
  have far := gap differ
  have reach : right ≤ left + |left - right| := by
    have below := neg_abs_le (left - right)
    linarith
  have most : |left - right| * 10 ^ digits ≤ |left - right| * (2 * bound + 1) := by linarith
  have powers : (10 : ℚ) ^ digits ≤ 2 * bound + 1 := le_of_mul_le_mul_left most positive
  have powers' : 10 ^ digits ≤ 2 * bound + 1 := by exact_mod_cast powers
  omega

end DecoyEngine.Data
