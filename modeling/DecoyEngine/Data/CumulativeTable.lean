import Mathlib.Algebra.BigOperators.Ring.List
import Mathlib.Algebra.Order.BigOperators.Group.List
import Mathlib.Algebra.Order.Floor.Ring
import Mathlib.Algebra.Ring.Nat
import Mathlib.Data.Int.ConditionallyCompleteOrder
import Mathlib.Tactic.Linarith

namespace DecoyEngine.Data

/-! A range of `resolution` buckets cut into one interval for each weight: the cuts are the
running sums, scaled to the range and rounded half up; a bucket is looked up by bisection. -/

section Cuts

variable {α : Type u} [Field α] [LinearOrder α] [IsStrictOrderedRing α] [FloorRing α]

def halfUp (value : α) : ℤ := ⌊value + 1 / 2⌋

/-- The cut before the weight of a number. -/
def cut (resolution : Nat) (weights : List α) (i : Nat) : ℤ :=
  halfUp (resolution * (weights.take i).sum / weights.sum)

variable {resolution : Nat} {weights : List α}

theorem halfUp_natCast (value : Nat) : halfUp (value : α) = value := by
  rw [halfUp, Int.floor_eq_iff]
  constructor
  · push_cast
    linarith
  · push_cast
    linarith

theorem halfUp_mono {first second : α} (le : first ≤ second) : halfUp first ≤ halfUp second :=
  Int.floor_mono (add_le_add_left le _)

theorem halfUp_bounds (value : α) :
    value - 1 / 2 < halfUp value ∧ (halfUp value : α) ≤ value + 1 / 2 := by
  have above := Int.lt_floor_add_one (value + 1 / 2)
  have below := Int.floor_le (value + 1 / 2)
  rw [halfUp]
  constructor
  · linarith
  · exact below

theorem cut_zero : cut resolution weights 0 = 0 := by
  have zero := halfUp_natCast (α := α) 0
  rw [cut, List.take_zero, List.sum_nil, mul_zero, zero_div]
  simpa using zero

theorem cut_length (total : weights.sum ≠ 0) :
    cut resolution weights weights.length = resolution := by
  rw [cut, List.take_length, mul_div_assoc, div_self total, mul_one, halfUp_natCast]

omit [LinearOrder α] [IsStrictOrderedRing α] [FloorRing α] in
theorem sum_take_succ {i : Nat} {weight : α} (found : weights[i]? = some weight) :
    (weights.take (i + 1)).sum = (weights.take i).sum + weight := by
  rw [List.take_add_one, found, Option.toList_some, List.sum_append, List.sum_singleton]

omit [IsStrictOrderedRing α] in
theorem cut_succ {i : Nat} {weight : α} (found : weights[i]? = some weight) :
    cut resolution weights (i + 1) =
      halfUp (resolution * (weights.take i).sum / weights.sum +
        resolution * weight / weights.sum) := by
  rw [cut, sum_take_succ found, mul_add, add_div]

theorem cut_share {i : Nat} {weight : α} (found : weights[i]? = some weight) :
    |((cut resolution weights (i + 1) - cut resolution weights i : ℤ) : α) -
      resolution * weight / weights.sum| < 1 := by
  have upper := halfUp_bounds (resolution * (weights.take i).sum / weights.sum +
    resolution * weight / weights.sum)
  have lower := halfUp_bounds (resolution * (weights.take i).sum / weights.sum)
  rw [← cut_succ found] at upper
  rw [← cut] at lower
  rw [Int.cast_sub, abs_lt]
  constructor
  · linarith [upper.1, lower.2]
  · linarith [upper.2, lower.1]

omit [IsStrictOrderedRing α] in
theorem cut_succ_of_zero {i : Nat} (found : weights[i]? = some 0) :
    cut resolution weights (i + 1) = cut resolution weights i := by
  rw [cut_succ found, mul_zero, zero_div, add_zero, cut]

theorem cut_le_succ {i : Nat} {weight : α} (found : weights[i]? = some weight)
    (nonneg : 0 ≤ weight) (total : 0 ≤ weights.sum) :
    cut resolution weights i ≤ cut resolution weights (i + 1) := by
  rw [cut_succ found, cut]
  refine halfUp_mono (le_add_of_nonneg_right ?_)
  exact div_nonneg (mul_nonneg (Nat.cast_nonneg _) nonneg) total

omit [IsStrictOrderedRing α] in
theorem cut_of_length_le {i : Nat} (le : weights.length ≤ i) :
    cut resolution weights i = cut resolution weights weights.length := by
  rw [cut, cut, List.take_of_length_le le, List.take_length]

theorem cut_mono (nonneg : ∀ weight ∈ weights, 0 ≤ weight) :
    Monotone (cut resolution weights) := by
  refine monotone_nat_of_le_succ fun i => ?_
  cases found : weights[i]? with
  | none =>
      have le : weights.length ≤ i := List.getElem?_eq_none_iff.mp found
      rw [cut_of_length_le le, cut_of_length_le (Nat.le_succ_of_le le)]
  | some weight =>
      exact cut_le_succ found (nonneg weight (List.mem_of_getElem? found)) (List.sum_nonneg nonneg)

omit [IsStrictOrderedRing α] in
theorem cut_scale {factor : α} (positive : 0 < factor) (i : Nat) :
    cut resolution (weights.map (factor * ·)) i = cut resolution weights i := by
  have scaled : ∀ list : List α, (list.map (factor * ·)).sum = factor * list.sum := by
    intro list
    rw [List.sum_map_mul_left, List.map_id']
  rw [cut, cut, ← List.map_take, scaled, scaled, mul_left_comm,
    mul_div_mul_left _ _ positive.ne']

end Cuts

section Bisect

variable {α : Type u} [LinearOrder α]

/-- `bisect_right`: the loop over `lo` and `hi`. -/
def bisectFrom (table : List α) (key : α) (lo hi : Nat) : Nat :=
  if lo < hi then
    let mid := (lo + hi) / 2
    match table[mid]? with
    | none => lo
    | some value =>
        if key < value then bisectFrom table key lo mid else bisectFrom table key (mid + 1) hi
  else lo
termination_by hi - lo

def bisectRight (table : List α) (key : α) : Nat := bisectFrom table key 0 table.length

theorem sorted_at {table : List α} (sorted : table.Pairwise (· ≤ ·)) {i j : Nat} {first second : α}
    (atFirst : table[i]? = some first) (atSecond : table[j]? = some second) (le : i ≤ j) :
    first ≤ second := by
  obtain ⟨inFirst, rfl⟩ := List.getElem?_eq_some_iff.mp atFirst
  obtain ⟨inSecond, rfl⟩ := List.getElem?_eq_some_iff.mp atSecond
  rcases Nat.eq_or_lt_of_le le with rfl | lt
  · exact le_refl _
  · exact List.pairwise_iff_getElem.mp sorted i j inFirst inSecond lt

/-- The values before a place are at most the key, those from it on are larger. -/
def SplitsAt (table : List α) (key : α) (lo hi : Nat) : Prop :=
  ∀ (i : Nat) (value : α), table[i]? = some value →
    (i < lo → value ≤ key) ∧ (hi ≤ i → key < value)

theorem bisectFrom_splits {table : List α} {key : α} (sorted : table.Pairwise (· ≤ ·))
    {lo hi : Nat} (within : hi ≤ table.length) (le : lo ≤ hi) (splits : SplitsAt table key lo hi) :
    bisectFrom table key lo hi ≤ table.length ∧
      SplitsAt table key (bisectFrom table key lo hi) (bisectFrom table key lo hi) := by
  fun_induction bisectFrom table key lo hi with
  | case1 lo hi lt mid absent =>
      have inside : mid < table.length := by omega
      rw [List.getElem?_eq_getElem inside] at absent
      cases absent
  | case2 lo hi lt mid value found smaller ih =>
      refine ih (by omega) (by omega) fun i other atOther => ⟨(splits i other atOther).1, ?_⟩
      exact fun le => smaller.trans_le (sorted_at sorted found atOther le)
  | case3 lo hi lt mid value found notSmaller ih =>
      refine ih within (by omega) fun i other atOther => ⟨?_, (splits i other atOther).2⟩
      intro before
      exact (sorted_at sorted atOther found (by omega)).trans (not_lt.mp notSmaller)
  | case4 lo hi done =>
      obtain rfl : lo = hi := by omega
      exact ⟨within, splits⟩

theorem bisectRight_splits {table : List α} (sorted : table.Pairwise (· ≤ ·)) (key : α) :
    bisectRight table key ≤ table.length ∧
      SplitsAt table key (bisectRight table key) (bisectRight table key) := by
  refine bisectFrom_splits sorted (Nat.le_refl _) (Nat.zero_le _) fun i value found => ⟨?_, ?_⟩
  · intro negative
    exact absurd negative (Nat.not_lt_zero i)
  · intro beyond
    rw [List.getElem?_eq_none_iff.mpr beyond] at found
    cases found

/-- The start of the interval of a number: the value before it in the table, or 0. -/
def intervalStart [Zero α] (table : List α) (i : Nat) : α :=
  match i with
  | 0 => 0
  | i + 1 => (table[i]?).getD 0

theorem bisectRight_lt {table : List α} {key last : α} (sorted : table.Pairwise (· ≤ ·))
    (ends : table.getLast? = some last) (below : key < last) :
    bisectRight table key < table.length := by
  obtain ⟨le, splits⟩ := bisectRight_splits sorted key
  refine lt_of_le_of_ne le fun whole => ?_
  rw [List.getLast?_eq_getElem?] at ends
  obtain ⟨inside, -⟩ := List.getElem?_eq_some_iff.mp ends
  exact absurd ((splits _ last ends).1 (by omega)) (not_le.mpr below)

/-- A key below the last value is in the interval it is looked up at, and in no other. -/
theorem bisectRight_owner [Zero α] {table : List α} {key last : α}
    (sorted : table.Pairwise (· ≤ ·)) (nonneg : 0 ≤ key) (ends : table.getLast? = some last)
    (below : key < last) (i : Nat) :
    i = bisectRight table key ↔
      intervalStart table i ≤ key ∧ ∃ value, table[i]? = some value ∧ key < value := by
  obtain ⟨-, splits⟩ := bisectRight_splits sorted key
  have inside := bisectRight_lt sorted ends below
  constructor
  · intro here
    have found := List.getElem?_eq_getElem (here.symm ▸ inside)
    refine ⟨?_, _, found, (splits i _ found).2 (by omega)⟩
    cases i with
    | zero => exact nonneg
    | succ i =>
        have before := List.getElem?_eq_getElem (show i < table.length by omega)
        rw [intervalStart, before, Option.getD_some]
        exact (splits i _ before).1 (by omega)
  · intro owns
    obtain ⟨starts, value, found, lt⟩ := owns
    have notBefore : ¬ i < bisectRight table key := fun before =>
      absurd ((splits i value found).1 before) (not_le.mpr lt)
    cases i with
    | zero => omega
    | succ i =>
        have within := (List.getElem?_eq_some_iff.mp found).1
        have before := List.getElem?_eq_getElem (show i < table.length by omega)
        rw [intervalStart, before, Option.getD_some] at starts
        have notAfter : ¬ bisectRight table key ≤ i := fun after =>
          absurd ((splits i _ before).2 after) (not_lt.mpr starts)
        omega

end Bisect

end DecoyEngine.Data
