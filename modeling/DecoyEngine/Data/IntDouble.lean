import DecoyEngine.Data.Double

namespace DecoyEngine.Data

/-! The double nearest to an integer. -/

/-- Rounded to 53 significant bits, ties to even. -/
def nearestMagnitude (magnitude : Nat) : Nat :=
  let unit := 2 ^ (magnitude.log2 - 52)
  let quotient := magnitude / unit
  let remainder := magnitude % unit
  let carry := if unit < 2 * remainder ∨ (unit = 2 * remainder ∧ quotient % 2 = 1) then 1 else 0
  (quotient + carry) * unit

/-- `float(value)` of an integer the doubles reach, as an exact number. -/
def nearestDouble (value : Int) : Int :=
  if value < 0 then -(nearestMagnitude value.natAbs : Int) else nearestMagnitude value.natAbs

theorem nearestMagnitude_of_le {magnitude : Nat} (small : magnitude ≤ 2 ^ 53) :
    nearestMagnitude magnitude = magnitude := by
  by_cases bound : magnitude = 2 ^ 53
  · rw [bound]
    decide
  · have exponent : magnitude.log2 - 52 = 0 := by
      by_cases zero : magnitude = 0
      · rw [zero]
        rfl
      · have below : magnitude.log2 < 53 := (Nat.log2_lt zero).mpr (by omega)
        omega
    simp [nearestMagnitude, exponent, Nat.mod_one]

theorem nearestDouble_of_abs_le {value : Int} (small : |value| ≤ 2 ^ 53) :
    nearestDouble value = value := by
  have bounds := abs_le.mp small
  rw [nearestDouble, nearestMagnitude_of_le (by omega)]
  split <;> omega

end DecoyEngine.Data
