import DecoyEngine.Data.DecimalReader
import DecoyEngine.Data.Double
import Mathlib.Algebra.Order.Floor.Ring
import Mathlib.Data.Rat.Floor
import Mathlib.Order.WithBot

namespace DecoyEngine.Subset

open DecoyEngine.Data

/-! Range predicates of a seed filter (`subset/_seed.py`). -/

inductive RangeOp where
  | lt | le | gt | ge
deriving Repr, DecidableEq

/-- The column must lie below the bound. -/
def RangeOp.upper : RangeOp → Bool
  | .lt | .le => true
  | .gt | .ge => false

inductive RealBound where
  | int (value : Int)
  | float (value : Double)
  | decimal (value : PyDecimal)
  | decimalNan

def RealBound.isNan : RealBound → Bool
  | .float .nan | .decimalNan => true
  | _ => false

inductive IntegerDtype where
  | int8 | int16 | int32 | int64 | int128
  | uint8 | uint16 | uint32 | uint64
deriving Repr, DecidableEq

def IntegerDtype.bits : IntegerDtype → Nat
  | .int8 | .uint8 => 8
  | .int16 | .uint16 => 16
  | .int32 | .uint32 => 32
  | .int64 | .uint64 => 64
  | .int128 => 128

def IntegerDtype.isSigned : IntegerDtype → Bool
  | .int8 | .int16 | .int32 | .int64 | .int128 => true
  | _ => false

/-- `pl.Decimal(precision, scale)`. -/
structure DecimalDtype where
  precision : Nat
  scale : Nat
  precision_le : precision ≤ 38
  scale_le : scale ≤ precision

/-- The types of a key column, the floating ones left out. -/
inductive Dtype where
  | integer (type : IntegerDtype)
  | decimal (type : DecimalDtype)
  | other

/-- The exact values a column of the type can hold. -/
def Dtype.Holds : Dtype → ℚ → Prop
  | .integer type, value => ∃ k : Int, value = k ∧
      if type.isSigned then -2 ^ (type.bits - 1) ≤ k ∧ k < 2 ^ (type.bits - 1)
      else 0 ≤ k ∧ k < 2 ^ type.bits
  | .decimal type, value => ∃ k : Int, value = k / 10 ^ type.scale ∧ |k| < 10 ^ type.precision
  | .other, _ => False

inductive RangeExpr where
  | litFalse
  | isNotNull
  | atMost (literal : ℚ)
  | atLeast (literal : ℚ)
deriving DecidableEq

/-- Whether a filter keeps the row of a cell; a comparison with null is null. -/
def RangeExpr.selects : RangeExpr → Option ℚ → Bool
  | .litFalse, _ => false
  | .isNotNull, cell => cell.isSome
  | .atMost _, none | .atLeast _, none => false
  | .atMost literal, some value => value ≤ literal
  | .atLeast literal, some value => literal ≤ value

def RangeExpr.literals : RangeExpr → List ℚ
  | .litFalse | .isNotNull => []
  | .atMost literal | .atLeast literal => [literal]

inductive RangeError where
  -- "NaN range bound"
  | valueError
  -- `Fraction` of an infinite Decimal
  | overflowError
  -- "not an integer or Decimal dtype"
  | typeError
deriving Repr, DecidableEq

/-- `_EXP_CLAMP`. -/
def expClamp : Nat := 400

/-- `Decimal.adjusted()` of a nonzero number. -/
def adjusted (coefficient : Nat) (exponent : Int) : Int :=
  exponent + (natText coefficient).length - 1

/-- `_exact_bound` of a bound that is no NaN and no infinite float. -/
def exactBound : RealBound → Except RangeError ℚ
  | .int value => .ok value
  | .float (.number (.finite negative magnitude)) => .ok (signedValue negative magnitude.value)
  | .float (.number (.infinity _)) => .error .overflowError
  | .float .nan | .decimalNan => .error .valueError
  | .decimal (.infinity _) => .error .overflowError
  | .decimal (.finite negative coefficient exponent) =>
      if coefficient ≠ 0 ∧ (expClamp : Int) < |adjusted coefficient exponent| then
        if 0 < adjusted coefficient exponent then .ok (signedValue negative (10 ^ expClamp))
        else .ok (signedValue negative (1 / 10 ^ expClamp))
      else .ok (signedValue negative (scaled coefficient exponent))

/-- The type holds exactly `k / 10 ^ scale` for the `k` from `lowest` to `highest`. -/
structure Grid where
  scale : Nat
  lowest : Int
  highest : Int

/-- `_INT_BITS`. -/
def intBits : IntegerDtype → Option (Nat × Bool)
  | .int8 => some (8, true)
  | .int16 => some (16, true)
  | .int32 => some (32, true)
  | .int64 => some (64, true)
  | .uint8 => some (8, false)
  | .uint16 => some (16, false)
  | .uint32 => some (32, false)
  | .uint64 => some (64, false)
  | .int128 => none

def grid : Dtype → Except RangeError Grid
  | .integer type =>
      match intBits type with
      | some (bits, true) => .ok ⟨0, -(2 ^ (bits - 1)), 2 ^ (bits - 1) - 1⟩
      | some (bits, false) => .ok ⟨0, 0, 2 ^ bits - 1⟩
      | none => .error .typeError
  | .decimal type => .ok ⟨type.scale, -(10 ^ type.precision - 1), 10 ^ type.precision - 1⟩
  | .other => .error .typeError

def gridLit (k : Int) (scale : Nat) : ℚ := k / 10 ^ scale

/-- The expression of a finite bound over a grid: everything, nothing, or a comparison with a
literal that the column's type holds. -/
def gridExpr (op : RangeOp) (bound : ℚ) (onto : Grid) : RangeExpr :=
  let scaledBound := bound * 10 ^ onto.scale
  if op.upper then
    let edge := if op = .lt then ⌈scaledBound⌉ - 1 else ⌊scaledBound⌋
    if edge < onto.lowest then .litFalse
    else if onto.highest ≤ edge then .isNotNull
    else .atMost (gridLit edge onto.scale)
  else
    let edge := if op = .gt then ⌊scaledBound⌋ + 1 else ⌈scaledBound⌉
    if onto.highest < edge then .litFalse
    else if edge ≤ onto.lowest then .isNotNull
    else .atLeast (gridLit edge onto.scale)

/-- `_range_expr`: the predicate of one bound over a column. A bound that is not on the grid of the
column is moved to the next place on it, on the side that the relation asks for. -/
def rangeExpr (op : RangeOp) (value : RealBound) (target : Dtype) : Except RangeError RangeExpr :=
  if value.isNan then .error .valueError
  else match value with
    | .float (.number (.infinity belowAll)) =>
        .ok (if op.upper ≠ belowAll then .isNotNull else .litFalse)
    | value =>
        match exactBound value with
        | .error error => .error error
        | .ok bound =>
            match grid target with
            | .error error => .error error
            | .ok onto => .ok (gridExpr op bound onto)

abbrev Place := WithBot (WithTop ℚ)

def placeOf (number : ℚ) : Place := ((number : WithTop ℚ) : Place)

/-- The place of a bound among the rationals and the two infinities. -/
def RealBound.place : RealBound → Option Place
  | .int value => some (placeOf value)
  | .float .nan | .decimalNan => none
  | .float (.number (.infinity negative)) =>
      some (if negative then ⊥ else ((⊤ : WithTop ℚ) : Place))
  | .float (.number (.finite negative magnitude)) =>
      some (placeOf (signedValue negative magnitude.value))
  -- an infinite Decimal is no bound of a filter
  | .decimal (.infinity _) => none
  | .decimal (.finite negative coefficient exponent) =>
      some (placeOf (signedValue negative (scaled coefficient exponent)))

def RangeOp.Compares {α : Type} [LT α] [LE α] : RangeOp → α → α → Prop
  | .lt, value, bound => value < bound
  | .le, value, bound => value ≤ bound
  | .gt, value, bound => bound < value
  | .ge, value, bound => bound ≤ value

/-- The integer types of `_INT_BITS` and the decimal ones. -/
def Dtype.isGrid : Dtype → Bool
  | .integer type => type ≠ .int128
  | .decimal _ => true
  | .other => false

/-- What a range predicate owes to its bound: on a grid it selects the cells that stand in the
relation, with literals of the type; elsewhere a finite bound is refused. -/
structure RangeExact (op : RangeOp) (bound : RealBound) (target : Dtype) : Prop where
  exact : ∀ place, bound.place = some place → target.isGrid = true →
    ∃ expr, rangeExpr op bound target = .ok expr ∧
      (∀ literal ∈ expr.literals, target.Holds literal) ∧
      ∀ cell : Option ℚ, (∀ value ∈ cell, target.Holds value) →
        (expr.selects cell = true ↔ ∃ value ∈ cell, op.Compares (placeOf value) place)
  refused : ∀ number : ℚ, bound.place = some (placeOf number) → target.isGrid = false →
    rangeExpr op bound target = .error .typeError

/-- The grid of a type: the values that it holds are the integers between the two ends, at the
scale. -/
structure GridOf (target : Dtype) (onto : Grid) : Prop where
  scale_le : onto.scale ≤ 38
  lowest_gt : -10 ^ 38 < onto.lowest
  highest_lt : onto.highest < 10 ^ 38
  holds : ∀ value, target.Holds value ↔
    ∃ k, value = gridLit k onto.scale ∧ onto.lowest ≤ k ∧ k ≤ onto.highest

theorem gridLit_zero (k : Int) : gridLit k 0 = k := by
  rw [gridLit, pow_zero, div_one]

theorem grid_of_isGrid {target : Dtype} (isGrid : target.isGrid = true) :
    ∃ onto, grid target = .ok onto ∧ GridOf target onto := by
  cases target with
  | other => cases isGrid
  | integer type =>
      cases type
      case int128 => cases isGrid
      all_goals
        refine ⟨_, rfl, by decide, by decide, by decide, fun value => ?_⟩
        simp only [Dtype.Holds, IntegerDtype.isSigned, IntegerDtype.bits, gridLit_zero]
        apply exists_congr
        intro k
        apply and_congr_right
        intro _
        norm_num
        omega
  | decimal type =>
      have small : (10 : Int) ^ type.precision ≤ 10 ^ 38 :=
        pow_le_pow_right₀ (by decide) type.precision_le
      refine ⟨_, rfl, type.scale_le.trans type.precision_le, ?_, ?_, fun value => ?_⟩
      · dsimp only
        omega
      · dsimp only
        omega
      · apply exists_congr
        intro k
        rw [abs_lt]
        apply and_congr_right
        intro _
        dsimp only
        omega

theorem grid_of_not_isGrid {target : Dtype} (isGrid : target.isGrid = false) :
    grid target = .error .typeError := by
  cases target with
  | other => rfl
  | integer type => cases type <;> first | rfl | cases isGrid
  | decimal type => cases isGrid

section Edge

variable {scale : Nat} {bound : ℚ}

theorem pow_scale_pos (scale : Nat) : (0 : ℚ) < 10 ^ scale := by positivity

theorem gridLit_lt (k : Int) : gridLit k scale < bound ↔ k ≤ ⌈bound * 10 ^ scale⌉ - 1 := by
  rw [gridLit, div_lt_iff₀ (pow_scale_pos scale), ← Int.lt_ceil, Int.le_sub_one_iff]

theorem gridLit_le (k : Int) : gridLit k scale ≤ bound ↔ k ≤ ⌊bound * 10 ^ scale⌋ := by
  rw [gridLit, div_le_iff₀ (pow_scale_pos scale), Int.le_floor]

theorem lt_gridLit (k : Int) : bound < gridLit k scale ↔ ⌊bound * 10 ^ scale⌋ + 1 ≤ k := by
  rw [gridLit, lt_div_iff₀ (pow_scale_pos scale), ← Int.floor_lt, Int.add_one_le_iff]

theorem le_gridLit (k : Int) : bound ≤ gridLit k scale ↔ ⌈bound * 10 ^ scale⌉ ≤ k := by
  rw [gridLit, le_div_iff₀ (pow_scale_pos scale), Int.ceil_le]

theorem gridLit_le_gridLit (k edge : Int) : gridLit k scale ≤ gridLit edge scale ↔ k ≤ edge := by
  rw [gridLit, gridLit, div_le_div_iff_of_pos_right (pow_scale_pos scale), Int.cast_le]

end Edge

/-- The edge of the kept rows: the highest kept `k` for an upper bound, else the lowest. -/
def edgeOf (op : RangeOp) (scaledBound : ℚ) : Int :=
  match op with
  | .lt => ⌈scaledBound⌉ - 1
  | .le => ⌊scaledBound⌋
  | .gt => ⌊scaledBound⌋ + 1
  | .ge => ⌈scaledBound⌉

theorem compares_gridLit (op : RangeOp) (bound : ℚ) (scale : Nat) (k : Int) :
    op.Compares (gridLit k scale) bound ↔
      if op.upper then k ≤ edgeOf op (bound * 10 ^ scale)
      else edgeOf op (bound * 10 ^ scale) ≤ k := by
  cases op with
  | lt => exact gridLit_lt k
  | le => exact gridLit_le k
  | gt => exact lt_gridLit k
  | ge => exact le_gridLit k

theorem gridExpr_eq (op : RangeOp) (bound : ℚ) (onto : Grid) :
    gridExpr op bound onto =
      let edge := edgeOf op (bound * 10 ^ onto.scale)
      if op.upper then
        if edge < onto.lowest then .litFalse
        else if onto.highest ≤ edge then .isNotNull
        else .atMost (gridLit edge onto.scale)
      else
        if onto.highest < edge then .litFalse
        else if edge ≤ onto.lowest then .isNotNull
        else .atLeast (gridLit edge onto.scale) := by
  cases op <;> rfl

theorem gridExpr_none (op : RangeOp) (bound : ℚ) (onto : Grid) :
    (gridExpr op bound onto).selects none = false := by
  rw [gridExpr_eq]
  dsimp only
  split <;> split <;> first | rfl | (split <;> rfl)

theorem gridExpr_selects (op : RangeOp) (bound : ℚ) (onto : Grid) {k : Int}
    (atLeast : onto.lowest ≤ k) (atMost : k ≤ onto.highest) :
    (gridExpr op bound onto).selects (some (gridLit k onto.scale)) = true ↔
      op.Compares (gridLit k onto.scale) bound := by
  rw [compares_gridLit, gridExpr_eq]
  dsimp only
  generalize edgeOf op (bound * 10 ^ onto.scale) = edge
  by_cases upper : op.upper
  · rw [if_pos upper, if_pos upper]
    by_cases below : edge < onto.lowest
    · rw [if_pos below]
      simp only [RangeExpr.selects, Bool.false_eq_true, false_iff]
      omega
    · rw [if_neg below]
      by_cases above : onto.highest ≤ edge
      · rw [if_pos above]
        simp only [RangeExpr.selects, Option.isSome_some, true_iff]
        omega
      · rw [if_neg above, RangeExpr.selects, decide_eq_true_iff, gridLit_le_gridLit]
  · rw [if_neg upper, if_neg upper]
    by_cases above : onto.highest < edge
    · rw [if_pos above]
      simp only [RangeExpr.selects, Bool.false_eq_true, false_iff]
      omega
    · rw [if_neg above]
      by_cases below : edge ≤ onto.lowest
      · rw [if_pos below]
        simp only [RangeExpr.selects, Option.isSome_some, true_iff]
        omega
      · rw [if_neg below, RangeExpr.selects, decide_eq_true_iff, gridLit_le_gridLit]

theorem gridExpr_literals (op : RangeOp) (bound : ℚ) (onto : Grid) :
    ∀ literal ∈ (gridExpr op bound onto).literals,
      ∃ k, literal = gridLit k onto.scale ∧ onto.lowest ≤ k ∧ k ≤ onto.highest := by
  rw [gridExpr_eq]
  dsimp only
  generalize edgeOf op (bound * 10 ^ onto.scale) = edge
  intro literal member
  by_cases upper : op.upper
  · rw [if_pos upper] at member
    split at member
    · cases member
    · split at member
      · cases member
      · exact ⟨edge, List.mem_singleton.mp member, by omega, by omega⟩
  · rw [if_neg upper] at member
    split at member
    · cases member
    · split at member
      · cases member
      · exact ⟨edge, List.mem_singleton.mp member, by omega, by omega⟩

/-- The two bounds order alike against the value. -/
structure SameSide (left right value : ℚ) : Prop where
  below : value < left ↔ value < right
  above : left < value ↔ right < value

theorem SameSide.refl (bound value : ℚ) : SameSide bound bound value := ⟨Iff.rfl, Iff.rfl⟩

theorem SameSide.neg {left right value : ℚ} (same : SameSide left right (-value)) :
    SameSide (-left) (-right) value where
  below := by rw [lt_neg, same.above, ← lt_neg]
  above := by rw [neg_lt, same.below, ← neg_lt]

theorem SameSide.compares {left right value : ℚ} (same : SameSide left right value)
    (op : RangeOp) : op.Compares value left ↔ op.Compares value right := by
  cases op with
  | lt => exact same.below
  | le => rw [RangeOp.Compares, RangeOp.Compares, ← not_lt, same.above, not_lt]
  | gt => exact same.above
  | ge => rw [RangeOp.Compares, RangeOp.Compares, ← not_lt, same.below, not_lt]

/-- The values no further from zero than the types reach, and no nearer to it. -/
structure InReach (value : ℚ) : Prop where
  bounded : |value| < 10 ^ 38
  separated : value = 0 ∨ 1 / 10 ^ 38 ≤ |value|

theorem InReach.neg {value : ℚ} (reach : InReach value) : InReach (-value) where
  bounded := by rw [abs_neg]; exact reach.bounded
  separated := by rw [abs_neg, neg_eq_zero]; exact reach.separated

theorem inReach_gridLit {k : Int} {scale : Nat} (small : scale ≤ 38) (bounded : |k| < 10 ^ 38) :
    InReach (gridLit k scale) := by
  have magnitude : |gridLit k scale| = (|k| : Int) / 10 ^ scale := by
    rw [gridLit, abs_div, abs_of_pos (pow_scale_pos scale), Int.cast_abs]
  refine ⟨?_, ?_⟩
  · rw [magnitude]
    have one : (1 : ℚ) ≤ 10 ^ scale := one_le_pow₀ (by norm_num)
    calc ((|k| : Int) : ℚ) / 10 ^ scale ≤ (|k| : Int) := div_le_self (by positivity) one
      _ < 10 ^ 38 := by exact_mod_cast bounded
  · by_cases zero : k = 0
    · exact .inl (by rw [gridLit, zero, Int.cast_zero, zero_div])
    · right
      have positive : (1 : ℚ) ≤ ((|k| : Int) : ℚ) := by
        exact_mod_cast Int.one_le_abs zero
      have power : (10 : ℚ) ^ scale ≤ 10 ^ 38 := pow_le_pow_right₀ (by norm_num) small
      rw [magnitude]
      exact div_le_div₀ (by positivity) positive (pow_scale_pos scale) power

theorem sameSide_large {left right value : ℚ} (reach : InReach value)
    (leftLarge : 10 ^ 38 ≤ left) (rightLarge : 10 ^ 38 ≤ right) : SameSide left right value := by
  have below := lt_of_abs_lt reach.bounded
  refine ⟨?_, ?_⟩
  · exact iff_of_true (below.trans_le leftLarge) (below.trans_le rightLarge)
  · exact iff_of_false (below.trans_le leftLarge).not_gt (below.trans_le rightLarge).not_gt

theorem sameSide_small {left right value : ℚ} (reach : InReach value)
    (leftPositive : 0 < left) (rightPositive : 0 < right)
    (leftSmall : left < 1 / 10 ^ 38) (rightSmall : right < 1 / 10 ^ 38) :
    SameSide left right value := by
  by_cases positive : 0 < value
  · have far : 1 / 10 ^ 38 ≤ value := by
      rw [← abs_of_pos positive]
      exact reach.separated.resolve_left positive.ne'
    have leftBelow := leftSmall.trans_le far
    have rightBelow := rightSmall.trans_le far
    exact ⟨iff_of_false leftBelow.not_gt rightBelow.not_gt, iff_of_true leftBelow rightBelow⟩
  · have notPositive := not_lt.mp positive
    have leftAbove := notPositive.trans_lt leftPositive
    have rightAbove := notPositive.trans_lt rightPositive
    exact ⟨iff_of_true leftAbove rightAbove, iff_of_false leftAbove.not_gt rightAbove.not_gt⟩

theorem withSign_sameSide {left right : ℚ} (negative : Bool)
    (same : ∀ value, InReach value → SameSide left right value) {value : ℚ}
    (reach : InReach value) :
    SameSide (signedValue negative left) (signedValue negative right) value := by
  cases negative with
  | false => exact same value reach
  | true => exact (same (-value) reach.neg).neg

theorem pow_le_scaled {coefficient : Nat} (positive : 0 < coefficient) (exponent : Int) :
    (10 : ℚ) ^ adjusted coefficient exponent ≤ scaled coefficient exponent := by
  have digits : 0 < (natText coefficient).length := by
    rw [length_natText positive]
    omega
  have leading : 10 ^ ((natText coefficient).length - 1) ≤ coefficient :=
    pow_le_of_length_natText positive (by omega)
  have split : adjusted coefficient exponent =
      (((natText coefficient).length - 1 : Nat) : Int) + exponent := by
    rw [adjusted]
    omega
  rw [split, zpow_add₀ (by norm_num), zpow_natCast, scaled]
  apply mul_le_mul_of_nonneg_right
  · exact_mod_cast leading
  · exact (zpow_pos (by norm_num) exponent).le

theorem scaled_lt_pow {coefficient : Nat} (positive : 0 < coefficient) (exponent : Int) :
    scaled coefficient exponent < (10 : ℚ) ^ (adjusted coefficient exponent + 1) := by
  have digits : coefficient < 10 ^ (natText coefficient).length := lt_pow_length_natText positive
  have split : adjusted coefficient exponent + 1 =
      ((natText coefficient).length : Int) + exponent := by
    rw [adjusted]
    omega
  rw [split, zpow_add₀ (by norm_num), zpow_natCast, scaled]
  apply mul_lt_mul_of_pos_right
  · exact_mod_cast digits
  · exact zpow_pos (by norm_num) exponent

theorem exactBound_decimal (negative : Bool) (coefficient : Nat) (exponent : Int) :
    ∃ bound, exactBound (.decimal (.finite negative coefficient exponent)) = .ok bound ∧
      ∀ value, InReach value →
        SameSide bound (signedValue negative (scaled coefficient exponent)) value := by
  rw [exactBound]
  by_cases clamped : coefficient ≠ 0 ∧ (expClamp : Int) < |adjusted coefficient exponent|
  · rw [if_pos clamped]
    have positive : 0 < coefficient := Nat.pos_of_ne_zero clamped.1
    have far : (400 : Int) < |adjusted coefficient exponent| := clamped.2
    by_cases large : 0 < adjusted coefficient exponent
    · rw [if_pos large]
      rw [abs_of_pos large] at far
      refine ⟨_, rfl, fun value reach => withSign_sameSide negative (fun value reach => ?_) reach⟩
      apply sameSide_large reach
      · exact pow_le_pow_right₀ (by norm_num) (by decide)
      · calc (10 : ℚ) ^ 38 = 10 ^ (38 : Int) := by norm_num
          _ ≤ 10 ^ adjusted coefficient exponent := zpow_le_zpow_right₀ (by norm_num) (by omega)
          _ ≤ scaled coefficient exponent := pow_le_scaled positive exponent
    · rw [if_neg large]
      rw [abs_of_nonpos (not_lt.mp large)] at far
      refine ⟨_, rfl, fun value reach => withSign_sameSide negative (fun value reach => ?_) reach⟩
      apply sameSide_small reach
      · exact div_pos one_pos (pow_scale_pos expClamp)
      · exact scaled_pos positive exponent
      · apply one_div_lt_one_div_of_lt (pow_scale_pos 38)
        exact pow_lt_pow_right₀ (by norm_num) (by decide)
      · calc scaled coefficient exponent < 10 ^ (adjusted coefficient exponent + 1) :=
              scaled_lt_pow positive exponent
          _ ≤ (10 : ℚ) ^ (-38 : Int) := zpow_le_zpow_right₀ (by norm_num) (by omega)
          _ = 1 / 10 ^ 38 := by norm_num
  · rw [if_neg clamped]
    exact ⟨_, rfl, fun value _ => SameSide.refl _ value⟩

theorem exactBound_place {bound : RealBound} {number : ℚ}
    (finite : bound.place = some (placeOf number)) :
    (∃ used, exactBound bound = .ok used ∧ ∀ value, InReach value → SameSide used number value) ∧
      bound.isNan = false ∧ ∀ negative, bound ≠ .float (.number (.infinity negative)) := by
  have unplaced : ∀ {other : ℚ}, some (placeOf other) = some (placeOf number) → other = number := by
    intro other same
    exact WithTop.coe_injective (WithBot.coe_injective (Option.some.inj same))
  cases bound with
  | int value =>
      have equal := unplaced finite
      subst equal
      exact ⟨⟨_, rfl, fun value _ => SameSide.refl _ value⟩, rfl, nofun⟩
  | decimalNan => cases finite
  | decimal value =>
      cases value with
      | infinity negative => cases finite
      | finite negative coefficient exponent =>
          have equal := unplaced finite
          subst equal
          exact ⟨exactBound_decimal negative coefficient exponent, rfl, nofun⟩
  | float value =>
      cases value with
      | nan => cases finite
      | number value =>
          cases value with
          | infinity negative =>
              have same := Option.some.inj finite
              cases negative with
              | false =>
                  have top := WithBot.coe_injective same
                  cases top
              | true => cases same
          | finite negative magnitude =>
              have equal := unplaced finite
              subst equal
              exact ⟨⟨_, rfl, fun value _ => SameSide.refl _ value⟩, rfl, nofun⟩

theorem rangeExpr_finite {op : RangeOp} {bound : RealBound} {target : Dtype} {used : ℚ}
    (number : bound.isNan = false)
    (finite : ∀ negative, bound ≠ .float (.number (.infinity negative)))
    (exact : exactBound bound = .ok used) :
    rangeExpr op bound target = (grid target).map (gridExpr op used) := by
  rw [rangeExpr, number, if_neg Bool.false_ne_true]
  split
  · rename_i failed
    rw [exact] at failed
    cases failed
  · rename_i run
    rw [exact] at run
    cases run
    cases grid target <;> rfl
  · exact finite

theorem compares_placeOf (op : RangeOp) (value number : ℚ) :
    op.Compares (placeOf value) (placeOf number) ↔ op.Compares value number := by
  cases op <;> simp [RangeOp.Compares, placeOf]

theorem compares_infinite (op : RangeOp) (negative : Bool) (value : ℚ) :
    op.Compares (placeOf value) (if negative then ⊥ else ((⊤ : WithTop ℚ) : Place)) ↔
      op.upper ≠ negative := by
  cases negative with
  | false =>
      have below : placeOf value < ((⊤ : WithTop ℚ) : Place) :=
        WithBot.coe_lt_coe.mpr (WithTop.coe_lt_top value)
      cases op with
      | lt => exact iff_of_true below (by decide)
      | le => exact iff_of_true below.le (by decide)
      | gt => exact iff_of_false below.not_gt (by decide)
      | ge => exact iff_of_false below.not_ge (by decide)
  | true =>
      have above : (⊥ : Place) < placeOf value := WithBot.bot_lt_coe _
      cases op with
      | lt => exact iff_of_false above.not_gt (by decide)
      | le => exact iff_of_false above.not_ge (by decide)
      | gt => exact iff_of_true above (by decide)
      | ge => exact iff_of_true above.le (by decide)

theorem rangeExpr_infinite (op : RangeOp) (negative : Bool) (target : Dtype) :
    ∃ expr, rangeExpr op (.float (.number (.infinity negative))) target = .ok expr ∧
      expr.literals = [] ∧ ∀ cell : Option ℚ, (expr.selects cell = true ↔
        ∃ value ∈ cell, op.Compares (placeOf value)
          (if negative then ⊥ else ((⊤ : WithTop ℚ) : Place))) := by
  simp only [compares_infinite]
  by_cases all : op.upper ≠ negative
  · refine ⟨.isNotNull, congrArg Except.ok (if_pos all), rfl, fun cell => ?_⟩
    cases cell <;> simp [RangeExpr.selects, all]
  · refine ⟨.litFalse, congrArg Except.ok (if_neg all), rfl, fun cell => ?_⟩
    simp [RangeExpr.selects, all]

theorem range_exact_finite {op : RangeOp} {bound : RealBound} {target : Dtype} {number : ℚ}
    (finite : bound.place = some (placeOf number)) (isGrid : target.isGrid = true) :
    ∃ expr, rangeExpr op bound target = .ok expr ∧
      (∀ literal ∈ expr.literals, target.Holds literal) ∧
      ∀ cell : Option ℚ, (∀ value ∈ cell, target.Holds value) →
        (expr.selects cell = true ↔
          ∃ value ∈ cell, op.Compares (placeOf value) (placeOf number)) := by
  obtain ⟨⟨used, exact, sameSide⟩, isNumber, notInfinite⟩ := exactBound_place finite
  obtain ⟨onto, isOnto, of⟩ := grid_of_isGrid isGrid
  refine ⟨gridExpr op used onto, ?_, ?_, ?_⟩
  · rw [rangeExpr_finite isNumber notInfinite exact, isOnto]
    rfl
  · intro literal member
    exact (of.holds literal).mpr (gridExpr_literals op used onto literal member)
  · intro cell held
    cases cell with
    | none => simp [gridExpr_none]
    | some value =>
        obtain ⟨k, rfl, atLeast, atMost⟩ := (of.holds value).mp (held value rfl)
        have lower := of.lowest_gt
        have upper := of.highest_lt
        have reach : InReach (gridLit k onto.scale) :=
          inReach_gridLit of.scale_le (abs_lt.mpr ⟨by omega, by omega⟩)
        rw [gridExpr_selects op used onto atLeast atMost,
          (sameSide _ reach).compares op, ← compares_placeOf]
        simp

/-- On the types that hold a grid of numbers a range predicate selects exactly the cells that stand
in the relation to the bound, with literals that the type holds, whether or not it holds the bound;
on the others it is refused. -/
theorem range_expr_exact (op : RangeOp) (bound : RealBound) (target : Dtype) :
    RangeExact op bound target where
  exact := by
    intro place placed isGrid
    by_cases infinite : ∃ negative, bound = .float (.number (.infinity negative))
    · obtain ⟨negative, rfl⟩ := infinite
      obtain ⟨expr, run, noLiterals, selects⟩ := rangeExpr_infinite op negative target
      cases placed
      refine ⟨expr, run, ?_, fun cell _ => selects cell⟩
      rw [noLiterals]
      exact fun _ member => absurd member List.not_mem_nil
    · obtain ⟨number, rfl⟩ : ∃ number, place = placeOf number := by
        cases bound with
        | int value => exact ⟨_, (Option.some.inj placed).symm⟩
        | decimalNan => cases placed
        | decimal value =>
            cases value with
            | infinity negative => cases placed
            | finite negative coefficient exponent => exact ⟨_, (Option.some.inj placed).symm⟩
        | float value =>
            cases value with
            | nan => cases placed
            | number value =>
                cases value with
                | infinity negative => exact absurd ⟨negative, rfl⟩ infinite
                | finite negative magnitude => exact ⟨_, (Option.some.inj placed).symm⟩
      exact range_exact_finite placed isGrid
  refused := by
    intro number placed isGrid
    obtain ⟨⟨used, exact, -⟩, isNumber, notInfinite⟩ := exactBound_place placed
    rw [rangeExpr_finite isNumber notInfinite exact, grid_of_not_isGrid isGrid]
    rfl

theorem int128_refused :
    (∃ place, (RealBound.int 5).place = some place ∧ RangeOp.lt.Compares (placeOf 3) place) ∧
      (Dtype.integer .int128).Holds 3 ∧
      rangeExpr .lt (.int 5) (.integer .int128) = .error .typeError := by
  refine ⟨⟨_, rfl, ?_⟩, ⟨3, by norm_num, by decide⟩, rfl⟩
  rw [compares_placeOf]
  norm_num [RangeOp.Compares]

end DecoyEngine.Subset
