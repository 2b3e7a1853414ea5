import Mathlib.Algebra.Ring.Nat
import Mathlib.Data.Int.Order.Basic
import Mathlib.Data.List.Basic
import Mathlib.Order.Defs.Unbundled

namespace DecoyEngine.Data

/-! The longest prefix of a run of costs that fits a budget, found block by block.

`cumsum` and `searchsorted` cut one block; `LongestFit` says what the cut of the whole run is,
with no block in it. -/

def cumsumFrom : Nat → List Nat → List Nat
  | _, [] => []
  | total, cost :: costs => (total + cost) :: cumsumFrom (total + cost) costs

/-- `np.cumsum` -/
def cumsum (costs : List Nat) : List Nat := cumsumFrom 0 costs

/-- `np.searchsorted(running, limit, side="right")` of an ascending `running`. -/
def searchsortedRight (running : List Nat) (limit : Int) : Nat :=
  (running.takeWhile (fun total : Nat => decide ((total : Int) ≤ limit))).length

/-- What NumPy keeps of a sum in an `int64`. -/
def int64 (value : Int) : Int := value.bmod (2 ^ 64)

/-- `np.cumsum` of an `int64` array. -/
def cumsum64From : Int → List Int → List Int
  | _, [] => []
  | total, value :: values => int64 (total + value) :: cumsum64From (int64 (total + value)) values

/-- `np.searchsorted(values, key, side="right")`: NumPy's bisection, whatever the order of the
values. -/
def searchsorted (values : List Int) (key : Int) (lo hi : Nat) : Nat :=
  if lo < hi then
    let mid := lo + (hi - lo) / 2
    if values.getD mid 0 ≤ key then searchsorted values key (mid + 1) hi
    else searchsorted values key lo mid
  else lo
termination_by hi - lo

def prefixCost (cost : Nat → Nat) (count : Nat) : Nat := ((List.range count).map cost).sum

/-- No prefix longer than `kept` fits, and what is kept fits unless it is empty. -/
structure LongestFit (cost : Nat → Nat) (limit : Int) (count kept : Nat) : Prop where
  within : kept ≤ count
  fits : kept = 0 ∨ (prefixCost cost kept : Int) ≤ limit
  longest : ∀ longer, kept < longer → longer ≤ count → limit < prefixCost cost longer

variable {cost : Nat → Nat} {limit : Int}

theorem prefixCost_succ (cost : Nat → Nat) (count : Nat) :
    prefixCost cost (count + 1) = prefixCost cost count + cost count := by
  rw [prefixCost, List.range_succ, List.map_append, List.sum_append, List.map_singleton,
    List.sum_singleton]
  rfl

theorem prefixCost_mono {shorter longer : Nat} (ordered : shorter ≤ longer) :
    prefixCost cost shorter ≤ prefixCost cost longer := by
  induction ordered with
  | refl => exact Nat.le_refl _
  | step _ ih =>
      rw [prefixCost_succ]
      exact Nat.le_add_right_of_le ih

theorem searchsortedRight_cons (total : Nat) (running : List Nat) (limit : Int) :
    searchsortedRight (total :: running) limit =
      if (total : Int) ≤ limit then searchsortedRight running limit + 1 else 0 := by
  rw [searchsortedRight, List.takeWhile_cons]
  by_cases affordable : (total : Int) ≤ limit
  · rw [if_pos affordable, if_pos (decide_eq_true affordable)]
    rfl
  · rw [if_neg affordable, if_neg (by simpa using affordable)]
    rfl

/-- The cut of the block that starts at `start`, where `base` is spent inside the block. -/
theorem searchsorted_from (cost : Nat → Nat) (limit : Int) (start size base : Nat) :
    let running := cumsumFrom base ((List.range' start size).map cost)
    let keep := searchsortedRight running limit
    keep ≤ size ∧
      (keep = 0 ∨ (base + prefixCost cost (start + keep) : Int) ≤ limit + prefixCost cost start) ∧
      (keep < size → limit + prefixCost cost start < base + prefixCost cost (start + keep + 1)) ∧
      (keep = 0 ∨ running.getD (keep - 1) 0 + prefixCost cost start =
        base + prefixCost cost (start + keep)) := by
  induction size generalizing start base with
  | zero => exact ⟨Nat.le_refl 0, .inl rfl, fun more => absurd more (Nat.lt_irrefl 0), .inl rfl⟩
  | succ size ih =>
      have next := prefixCost_succ cost start
      simp only [List.range'_succ, List.map_cons, cumsumFrom, searchsortedRight_cons]
      obtain ⟨within, fits, longest, spent⟩ := ih (start + 1) (base + cost start)
      generalize cumsumFrom (base + cost start) ((List.range' (start + 1) size).map cost) = running
        at within fits longest spent ⊢
      generalize searchsortedRight running limit = kept at within fits longest spent ⊢
      split_ifs with affordable
      · have shift : start + (kept + 1) = start + 1 + kept := by omega
        rw [shift]
        refine ⟨by omega, .inr ?_, fun more => ?_, .inr ?_⟩
        · rcases fits with none | some
          · subst none
            rw [Nat.add_zero, next]
            omega
          · omega
        · have beyond := longest (by omega)
          omega
        · rw [Nat.add_sub_cancel]
          cases kept with
          | zero =>
              rw [List.getD_cons_zero, Nat.add_zero, next]
              omega
          | succ kept =>
              rw [List.getD_cons_succ]
              rcases spent with none | same
              · cases none
              · rw [Nat.add_sub_cancel] at same
                omega
      · refine ⟨Nat.zero_le _, .inl rfl, fun _ => ?_, .inl rfl⟩
        rw [Nat.add_zero, next]
        omega

/-- One block on from a prefix that fits: either the block fits whole, or the cut is final. -/
theorem LongestFit.of_block {start size count : Nat} (inside : start + size ≤ count)
    (before : start = 0 ∨ (prefixCost cost start : Int) ≤ limit) :
    let running := cumsum ((List.range' start size).map cost)
    let keep := searchsortedRight running (limit - prefixCost cost start)
    keep ≤ size ∧
      (keep = 0 ∨ prefixCost cost start + running.getD (keep - 1) 0 =
        prefixCost cost (start + keep)) ∧
      (start + keep = 0 ∨ (prefixCost cost (start + keep) : Int) ≤ limit) ∧
      (keep < size → LongestFit cost limit count (start + keep)) := by
  intro running keep
  obtain ⟨within, fits, longest, spent⟩ :=
    searchsorted_from cost (limit - prefixCost cost start) start size 0
  have affordable : start + keep = 0 ∨ (prefixCost cost (start + keep) : Int) ≤ limit := by
    rcases fits with none | some
    · have same : keep = 0 := none
      rw [same]
      exact before
    · right
      have total : ((0 : Nat) + prefixCost cost (start + keep) : Int) ≤
        limit - prefixCost cost start + prefixCost cost start := some
      omega
  have total : keep = 0 ∨ running.getD (keep - 1) 0 + prefixCost cost start =
      0 + prefixCost cost (start + keep) := spent
  have room : keep ≤ size := within
  refine ⟨room, total.imp id fun same => by omega, affordable,
    fun more => ⟨by omega, affordable, fun longer past _ => ?_⟩⟩
  have beyond : limit - prefixCost cost start + prefixCost cost start <
    (0 : Nat) + prefixCost cost (start + keep + 1) := longest more
  have grows : prefixCost cost (start + keep + 1) ≤ prefixCost cost longer := prefixCost_mono past
  omega

theorem LongestFit.of_all {count : Nat}
    (fits : count = 0 ∨ (prefixCost cost count : Int) ≤ limit) : LongestFit cost limit count count :=
  ⟨Nat.le_refl _, fits, fun _ past within => absurd within (Nat.not_le.mpr past)⟩

theorem LongestFit.congr {other : Nat → Nat} {count kept : Nat}
    (same : ∀ k < count, cost k = other k) (fit : LongestFit cost limit count kept) :
    LongestFit other limit count kept := by
  have costs : ∀ n ≤ count, prefixCost other n = prefixCost cost n := by
    intro n within
    refine congrArg List.sum (List.map_congr_left fun k member => (same k ?_).symm)
    exact Nat.lt_of_lt_of_le (List.mem_range.mp member) within
  refine ⟨fit.within, ?_, fun longer past within => ?_⟩
  · rw [costs kept fit.within]
    exact fit.fits
  · rw [costs longer within]
    exact fit.longest longer past within

theorem int64_add (left right : Int) : int64 (int64 left + right) = int64 (left + right) :=
  Int.bmod_add_bmod

theorem int64_natCast {value : Nat} (small : value < 2 ^ 63) : int64 value = value :=
  Int.bmod_eq_of_le (by omega) (by omega)

/-- The running totals of the costs, as integers. -/
structure Running (cost : Nat → Nat) (size : Nat) (values : List Int) : Prop where
  length : values.length = size
  total : ∀ i < size, values[i]? = some (prefixCost cost (i + 1) : Int)

theorem length_cumsum64From (total : Int) (values : List Int) :
    (cumsum64From total values).length = values.length := by
  induction values generalizing total with
  | nil => rfl
  | cons value values ih => rw [cumsum64From, List.length_cons, ih, List.length_cons]

theorem cumsum64From_getElem (cost : Nat → Nat) (start base : Nat) {size i : Nat}
    (inside : i < size) :
    (cumsum64From (int64 base) ((List.range' start size).map fun row => int64 (cost row)))[i]? =
      some (int64 (base + ((List.range' start (i + 1)).map cost).sum : Nat)) := by
  induction size generalizing start base i with
  | zero => exact absurd inside (Nat.not_lt_zero i)
  | succ size ih =>
      have next : int64 (int64 base + int64 (cost start)) = int64 (base + cost start : Nat) := by
        rw [int64_add, Int.add_comm, int64_add, Int.add_comm, Int.natCast_add]
      rw [List.range'_succ, List.map_cons, cumsum64From, next, List.range'_succ, List.map_cons,
        List.sum_cons, ← Nat.add_assoc]
      cases i with
      | zero => rfl
      | succ i => rw [List.getElem?_cons_succ, ih _ _ (Nat.lt_of_succ_lt_succ inside)]

theorem Running.of_cumsum64 {size : Nat} (small : prefixCost cost size < 2 ^ 63) :
    Running cost size (cumsum64From 0 ((List.range size).map fun row => int64 (cost row))) := by
  constructor
  · rw [length_cumsum64From, List.length_map, List.length_range]
  · intro i inside
    have from0 := cumsum64From_getElem cost 0 0 inside
    rw [← List.range_eq_range', ← List.range_eq_range', Nat.zero_add] at from0
    have part : prefixCost cost (i + 1) ≤ prefixCost cost size := prefixCost_mono inside
    rw [← int64_natCast (Nat.lt_of_le_of_lt part small)]
    exact from0

namespace Running

variable {size : Nat} {values : List Int}

theorem getD (running : Running cost size values) {i : Nat} (inside : i < size) :
    values.getD i 0 = (prefixCost cost (i + 1) : Int) := by
  rw [List.getD_eq_getElem?_getD, running.total i inside, Option.getD_some]

theorem searchsorted_from (running : Running cost size values) {lo hi : Nat} (within : hi ≤ size)
    (ordered : lo ≤ hi) (below : lo = 0 ∨ (prefixCost cost lo : Int) ≤ limit)
    (above : hi < size → limit < prefixCost cost (hi + 1)) :
    searchsorted values limit lo hi ≤ size ∧
      (searchsorted values limit lo hi = 0 ∨
        (prefixCost cost (searchsorted values limit lo hi) : Int) ≤ limit) ∧
      (searchsorted values limit lo hi < size →
        limit < prefixCost cost (searchsorted values limit lo hi + 1)) := by
  fun_induction searchsorted values limit lo hi with
  | case1 lo hi more mid affordable ih =>
      have inside : mid < hi := by omega
      rw [running.getD (by omega)] at affordable
      exact ih within (by omega) (.inr affordable) above
  | case2 lo hi more mid tooDear ih =>
      have inside : mid < hi := by omega
      rw [running.getD (by omega)] at tooDear
      exact ih (by omega) (by omega) below fun _ => by omega
  | case3 lo hi done =>
      have same : lo = hi := by omega
      subst same
      exact ⟨within, below, above⟩

theorem searchsorted (running : Running cost size values) (limit : Int) :
    searchsorted values limit 0 values.length ≤ size ∧
      (searchsorted values limit 0 values.length = 0 ∨
        (prefixCost cost (searchsorted values limit 0 values.length) : Int) ≤ limit) ∧
      (searchsorted values limit 0 values.length < size →
        limit < prefixCost cost (searchsorted values limit 0 values.length + 1)) := by
  rw [running.length]
  exact running.searchsorted_from (Nat.le_refl _) (Nat.zero_le _) (.inl rfl)
    fun beyond => absurd beyond (Nat.lt_irrefl _)

end Running

end DecoyEngine.Data
