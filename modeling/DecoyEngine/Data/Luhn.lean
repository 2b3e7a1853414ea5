import Mathlib.Data.List.Basic

namespace DecoyEngine.Data

/-! Luhn sums over digit lists.

A number is read from its right end; from the last digit on, every second digit is
doubled and the digits of the double are added up. -/

/-- The decimal digits of the double, added up. -/
def doubledDigit (digit : Nat) : Nat := 2 * digit / 10 + 2 * digit % 10

/-- The sum of the digits from the right end on; `double` says whether the first is doubled. -/
def luhnSum : Bool → List Nat → Nat
  | _, [] => 0
  | double, digit :: rest =>
      (if double then doubledDigit digit else digit) + luhnSum (!double) rest

/-- The last digit stands undoubled. -/
def LuhnValid (number : List Nat) : Prop := 10 ∣ luhnSum false number.reverse

def IsCheckDigit (body : List Nat) (check : Nat) : Prop :=
  check < 10 ∧ LuhnValid (body ++ [check])

theorem doubledDigit_eq {digit : Nat} (small : digit < 10) :
    doubledDigit digit = if 9 < digit * 2 then digit * 2 - 9 else digit * 2 := by
  rw [doubledDigit]
  split <;> omega

theorem luhnValid_append_singleton (body : List Nat) (check : Nat) :
    LuhnValid (body ++ [check]) ↔ 10 ∣ check + luhnSum true body.reverse := by
  rw [LuhnValid, List.reverse_append, List.reverse_singleton, List.singleton_append, luhnSum]
  exact Iff.rfl

/-- Every body has one check digit: what its sum lacks to the next multiple of ten. -/
theorem isCheckDigit_iff {body : List Nat} {check : Nat} :
    IsCheckDigit body check ↔ check = (10 - luhnSum true body.reverse % 10) % 10 := by
  rw [IsCheckDigit, luhnValid_append_singleton]
  constructor
  · intro valid
    obtain ⟨small, divides⟩ := valid
    omega
  · intro equal
    have small : check < 10 := by omega
    exact ⟨small, by omega⟩

end DecoyEngine.Data
