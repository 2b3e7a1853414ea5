import DecoyEngine.Data.Decimal

namespace DecoyEngine.DeclaredCasting.Numeric

open DecoyEngine.Data hiding scaled

/-! Decimals under a declared precision and scale (`declared_casting/_numeric.py`): the value of a
field is its unscaled integer, its sign and the declared scale. -/

/-- A registered reason code. -/
inductive Reason where
  | decimalInvalid
  | decimalPrecisionLoss
  | decimalOverflow
  | currencyInvalid
  | cobolInvalid
deriving Repr, DecidableEq

def Reason.code : Reason → String
  | decimalInvalid => "declared_decimal_invalid"
  | decimalPrecisionLoss => "declared_decimal_precision_loss"
  | decimalOverflow => "declared_decimal_overflow"
  | currencyInvalid => "declared_currency_invalid"
  | cobolInvalid => "declared_cobol_invalid"

/-- `MAX_TEXT` -/
def maxText : Nat := 128

/-- A logical value handed to a formatter. -/
inductive Value where
  | int (value : Int)
  | decimal (value : PyDecimal)
  /-- a NaN `Decimal`, or not a number type at all -/
  | other
deriving Repr, DecidableEq

/-- `d.as_tuple()` of a finite number: sign, coefficient and exponent. -/
def Value.asTuple : Value → Option (Bool × Nat × Int)
  | int value => some (decide (value < 0), value.natAbs, 0)
  | decimal (.finite negative coefficient exponent) => some (negative, coefficient, exponent)
  | decimal (.infinity _) => none
  | other => none

/-- `scaled`: exact in the pinned context, whose precision is above every declared one. -/
def scaled (unscaled scale : Nat) (negative : Bool) : PyDecimal :=
  .finite negative unscaled (-scale)

/-- `divmod` by the digits below the scale, which have to be zeros. -/
def rescale (coefficient : Nat) (shift : Int) : Except Reason Nat :=
  if 0 ≤ shift then .ok (coefficient * 10 ^ shift.toNat)
  else if coefficient % 10 ^ (-shift).toNat ≠ 0 then .error .decimalPrecisionLoss
  else .ok (coefficient / 10 ^ (-shift).toNat)

def unscale (value : Value) (scale precision : Nat) : Except Reason (Nat × Bool) :=
  match value.asTuple with
  | none => .error .decimalInvalid
  | some (negative, coefficient, exponent) =>
      if 2 * maxText < (natText coefficient).length ∨ 2 * maxText < exponent.natAbs then
        .error .decimalInvalid
      else
        match rescale coefficient (exponent + scale) with
        | .error reason => .error reason
        | .ok unscaled =>
            if 10 ^ precision ≤ unscaled then .error .decimalOverflow
            else .ok (unscaled, negative)

/-- The tuples the work bound of `unscale` admits. -/
def Value.Bounded (value : Value) : Prop :=
  ∀ negative coefficient exponent, value.asTuple = some (negative, coefficient, exponent) →
    (natText coefficient).length ≤ 2 * maxText ∧ exponent.natAbs ≤ 2 * maxText

/-- `value` is the integer `unscaled` at `scale`, with its sign. -/
def Value.Is (value : Value) (negative : Bool) (unscaled scale : Nat) : Prop :=
  ∃ coefficient exponent, value.asTuple = some (negative, coefficient, exponent) ∧
    Data.scaled coefficient exponent = Data.scaled unscaled (-scale)

theorem rescale_eq_ok {coefficient unscaled : Nat} {exponent : Int} {scale : Nat} :
    rescale coefficient (exponent + scale) = .ok unscaled ↔
      Data.scaled coefficient exponent = Data.scaled unscaled (-scale) := by
  rw [rescale]
  by_cases above : 0 ≤ exponent + scale
  · rw [if_pos above, Except.ok.injEq]
    constructor
    · intro same
      have moved := scaled_mul_pow coefficient (exponent + scale).toNat exponent
      rw [same, show exponent - ((exponent + scale).toNat : Int) = -scale by omega] at moved
      exact moved.symm
    · intro same
      have digits := eq_mul_pow_of_scaled_eq (by omega) same.symm
      rw [show exponent - -(scale : Int) = exponent + scale by omega] at digits
      exact digits.symm
  · rw [if_neg above]
    have positive : 0 < 10 ^ (-(exponent + scale)).toNat := by positivity
    have shift : -(scale : Int) - exponent = -(exponent + scale) := by omega
    constructor
    · intro same
      split at same
      · cases same
      · rename_i whole
        obtain rfl := Except.ok.inj same
        have moved := scaled_mul_pow (coefficient / 10 ^ (-(exponent + scale)).toNat)
          (-(exponent + scale)).toNat (-scale)
        rw [Nat.div_mul_cancel (Nat.dvd_of_mod_eq_zero (not_not.mp whole)),
          show -(scale : Int) - ((-(exponent + scale)).toNat : Int) = exponent by omega] at moved
        exact moved
    · intro same
      have digits := eq_mul_pow_of_scaled_eq (by omega) same
      rw [shift] at digits
      rw [digits, Nat.mul_mod_left, if_neg (not_not.mpr rfl), Nat.mul_div_cancel _ positive]

theorem unscale_eq_ok {value : Value} {scale precision unscaled : Nat} {negative : Bool} :
    unscale value scale precision = .ok (unscaled, negative) ↔
      value.Bounded ∧ value.Is negative unscaled scale ∧ unscaled < 10 ^ precision := by
  rw [unscale]
  cases tuple : value.asTuple with
  | none =>
      refine iff_of_false nofun fun holds => ?_
      obtain ⟨-, ⟨coefficient, exponent, same, -⟩, -⟩ := holds
      rw [tuple] at same
      cases same
  | some parts =>
      obtain ⟨sign, coefficient, exponent⟩ := parts
      dsimp only
      by_cases long : 2 * maxText < (natText coefficient).length ∨ 2 * maxText < exponent.natAbs
      · rw [if_pos long]
        refine iff_of_false nofun fun holds => ?_
        have bounds := holds.1 sign coefficient exponent tuple
        omega
      rw [if_neg long]
      have bounded : value.Bounded := by
        intro negative' coefficient' exponent' same
        rw [tuple, Option.some.injEq, Prod.mk.injEq, Prod.mk.injEq] at same
        obtain ⟨rfl, rfl, rfl⟩ := same
        omega
      have isValue : value.Is negative unscaled scale ↔
          sign = negative ∧ rescale coefficient (exponent + scale) = .ok unscaled := by
        rw [rescale_eq_ok]
        constructor
        · intro ⟨coefficient', exponent', same, number⟩
          rw [tuple, Option.some.injEq, Prod.mk.injEq, Prod.mk.injEq] at same
          obtain ⟨rfl, rfl, rfl⟩ := same
          exact ⟨rfl, number⟩
        · intro ⟨same, number⟩
          exact ⟨coefficient, exponent, by rw [tuple, same], number⟩
      rw [isValue]
      cases rescale coefficient (exponent + scale) with
      | error reason => exact iff_of_false nofun fun holds => nomatch holds.2.1.2
      | ok number =>
          dsimp only
          by_cases large : 10 ^ precision ≤ number
          · rw [if_pos large]
            refine iff_of_false nofun fun holds => ?_
            obtain rfl := Except.ok.inj holds.2.1.2
            omega
          · rw [if_neg large, Except.ok.injEq, Prod.mk.injEq, Except.ok.injEq]
            constructor
            · intro ⟨same, sameSign⟩
              exact ⟨bounded, ⟨sameSign, same⟩, by omega⟩
            · intro ⟨_, ⟨sameSign, same⟩, _⟩
              exact ⟨same, sameSign⟩

theorem unscale_scaled {number precision scale : Nat} {negative : Bool}
    (fits : number < 10 ^ precision) (smallPrecision : precision ≤ 38)
    (smallScale : scale ≤ precision) :
    unscale (.decimal (scaled number scale negative)) scale precision = .ok (number, negative) := by
  refine unscale_eq_ok.mpr ⟨?_, ⟨number, -scale, rfl, rfl⟩, fits⟩
  intro sign coefficient exponent tuple
  obtain ⟨rfl, rfl, rfl⟩ : negative = sign ∧ number = coefficient ∧ -(scale : Int) = exponent := by
    simpa [Value.asTuple, scaled] using tuple
  refine ⟨?_, by rw [maxText]; omega⟩
  by_contra long
  by_cases zero : number = 0
  · subst zero
    exact long (by decide)
  · have large := pow_le_of_length_natText (Nat.pos_of_ne_zero zero) (not_le.mp long)
    have power : 10 ^ precision ≤ 10 ^ (2 * maxText) :=
      Nat.pow_le_pow_right (by decide) (by rw [maxText]; omega)
    omega

end DecoyEngine.DeclaredCasting.Numeric
