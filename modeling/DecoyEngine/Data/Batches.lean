import Mathlib.Data.List.Basic
import Mathlib.Tactic.Ring

namespace DecoyEngine.Data

/-! Cutting a list into consecutive batches. -/

variable {α β : Type*}

/-- `rows[start : start + step]` for `start` in `range(0, len(rows), step)`. -/
def rangeSlices (step : Nat) (rows : List α) : List (List α) :=
  (List.range ((rows.length + step - 1) / step)).map fun index =>
    (rows.drop (index * step)).take step

/-- The same slices, each with the position of its first row, counted from `offset`. -/
def numberedSlices (step offset : Nat) (rows : List α) : List (Nat × List α) :=
  (List.range ((rows.length + step - 1) / step)).map fun index =>
    (offset + index * step, (rows.drop (index * step)).take step)

/-- Batches of the given sizes; what is left over is one more batch. -/
def cutBy : List Nat → List α → List (List α)
  | [], rows => if rows = [] then [] else [rows]
  | size :: sizes, rows => rows.take size :: cutBy sizes (rows.drop size)

/-- Each batch with the position of its first row. -/
def withStarts : Nat → List (List α) → List (Nat × List α)
  | _, [] => []
  | start, batch :: batches => (start, batch) :: withStarts (start + batch.length) batches

theorem flatten_slices (step count : Nat) (rows : List α) :
    ((List.range count).map fun index => (rows.drop (index * step)).take step).flatten =
      rows.take (count * step) := by
  induction count with
  | zero => simp
  | succ count ih =>
      rw [List.range_succ, List.map_append, List.flatten_append, ih, Nat.succ_mul, List.take_add]
      simp

theorem rangeSlices_flatten {step : Nat} (positive : 0 < step) (rows : List α) :
    (rangeSlices step rows).flatten = rows := by
  rw [rangeSlices, flatten_slices]
  apply List.take_of_length_le
  have covered : rows.length + step - 1 < (rows.length + step - 1) / step * step + step :=
    Nat.lt_div_mul_add positive
  omega

theorem of_mem_rangeSlices {step : Nat} {rows slice : List α}
    (member : slice ∈ rangeSlices step rows) : slice.length ≤ step ∧ slice.Sublist rows := by
  obtain ⟨index, -, rfl⟩ := List.mem_map.mp member
  exact ⟨List.length_take_le _ _, (List.take_sublist _ _).trans (List.drop_sublist _ _)⟩

theorem zipIdx_slices (step offset count : Nat) (rows : List α) :
    (((List.range count).map fun index =>
        (offset + index * step, (rows.drop (index * step)).take step)).flatMap
      fun slice => slice.2.zipIdx slice.1) = (rows.take (count * step)).zipIdx offset := by
  induction count with
  | zero => simp
  | succ count ih =>
      rw [List.range_succ, List.map_append, List.flatMap_append, ih, Nat.succ_mul, List.take_add,
        List.zipIdx_append]
      congr 1
      simp only [List.map_cons, List.map_nil, List.flatMap_cons, List.flatMap_nil, List.append_nil,
        List.length_take]
      by_cases inside : count * step ≤ rows.length
      · rw [Nat.min_eq_left inside]
      · rw [List.drop_eq_nil_of_le (by omega), List.take_nil]
        rfl

theorem zipIdx_numberedSlices {step : Nat} (positive : 0 < step) (offset : Nat) (rows : List α) :
    ((numberedSlices step offset rows).flatMap fun slice => slice.2.zipIdx slice.1) =
      rows.zipIdx offset := by
  rw [numberedSlices, zipIdx_slices, List.take_of_length_le]
  have covered : rows.length + step - 1 < (rows.length + step - 1) / step * step + step :=
    Nat.lt_div_mul_add positive
  omega

theorem cutBy_flatten (sizes : List Nat) (rows : List α) : (cutBy sizes rows).flatten = rows := by
  induction sizes generalizing rows with
  | nil =>
      rw [cutBy]
      split
      · rename_i empty
        rw [empty]
        rfl
      · simp
  | cons size sizes ih => rw [cutBy, List.flatten_cons, ih, List.take_append_drop]

theorem cutBy_map (sizes : List Nat) (f : α → β) (rows : List α) :
    cutBy sizes (rows.map f) = (cutBy sizes rows).map (List.map f) := by
  induction sizes generalizing rows with
  | nil => cases rows <;> simp [cutBy]
  | cons size sizes ih =>
      rw [cutBy, cutBy, List.map_cons, List.map_take, ← List.map_drop, ih]

theorem zipIdx_withStarts (start : Nat) (batches : List (List α)) :
    (withStarts start batches).flatMap (fun batch => batch.2.zipIdx batch.1) =
      batches.flatten.zipIdx start := by
  induction batches generalizing start with
  | nil => rfl
  | cons batch batches ih =>
      rw [withStarts, List.flatMap_cons, ih, List.flatten_cons, List.zipIdx_append]

/-- Nonempty ranges `[lo, hi)`, each starting where the one before it ends, from `start` to
`stop`. -/
def Tiles : (start stop : Nat) → List (Nat × Nat) → Prop
  | start, stop, [] => start = stop
  | start, stop, range :: ranges => range.1 = start ∧ start < range.2 ∧ Tiles range.2 stop ranges

theorem Tiles.le {start stop : Nat} {ranges : List (Nat × Nat)} (tiles : Tiles start stop ranges) :
    start ≤ stop := by
  induction ranges generalizing start with
  | nil => exact Nat.le_of_eq tiles
  | cons range ranges ih => exact Nat.le_trans (Nat.le_of_lt tiles.2.1) (ih tiles.2.2)

theorem Tiles.positions {start stop : Nat} {ranges : List (Nat × Nat)}
    (tiles : Tiles start stop ranges) :
    (ranges.flatMap fun range => List.range' range.1 (range.2 - range.1)) =
      List.range' start (stop - start) := by
  induction ranges generalizing start with
  | nil =>
      have empty : stop - start = 0 := by
        have same : start = stop := tiles
        omega
      simp [empty]
  | cons range ranges ih =>
      obtain ⟨rfl, nonempty, rest⟩ := tiles
      have covered := rest.le
      have joined := @List.range'_append_1 range.1 (range.2 - range.1) (stop - range.2)
      rw [Nat.add_sub_cancel' (Nat.le_of_lt nonempty)] at joined
      rw [List.flatMap_cons, ih rest, joined]
      congr 1
      omega

/-- Ranges `[lo, hi)`, each starting where the one before it ends, from `start` to `stop`; any of
them may be empty. -/
def Abuts : (start stop : Nat) → List (Nat × Nat) → Prop
  | start, stop, [] => start = stop
  | start, stop, range :: ranges => range.1 = start ∧ start ≤ range.2 ∧ Abuts range.2 stop ranges

theorem Abuts.le {start stop : Nat} {ranges : List (Nat × Nat)} (abuts : Abuts start stop ranges) :
    start ≤ stop := by
  induction ranges generalizing start with
  | nil => exact Nat.le_of_eq abuts
  | cons range ranges ih => exact Nat.le_trans abuts.2.1 (ih abuts.2.2)

theorem Abuts.bounds {start stop : Nat} {ranges : List (Nat × Nat)}
    (abuts : Abuts start stop ranges) :
    ∀ range ∈ ranges, start ≤ range.1 ∧ range.1 ≤ range.2 ∧ range.2 ≤ stop := by
  induction ranges generalizing start with
  | nil => exact List.forall_mem_nil _
  | cons first ranges ih =>
      obtain ⟨rfl, ordered, rest⟩ := abuts
      intro range member
      rcases List.mem_cons.mp member with isFirst | inRest
      · rw [isFirst]
        exact ⟨Nat.le_refl _, ordered, rest.le⟩
      · have later := ih rest range inRest
        exact ⟨Nat.le_trans ordered later.1, later.2⟩

theorem Abuts.positions {start stop : Nat} {ranges : List (Nat × Nat)}
    (abuts : Abuts start stop ranges) :
    (ranges.flatMap fun range => List.range' range.1 (range.2 - range.1)) =
      List.range' start (stop - start) := by
  induction ranges generalizing start with
  | nil =>
      have same : start = stop := abuts
      simp [same]
  | cons range ranges ih =>
      obtain ⟨rfl, ordered, rest⟩ := abuts
      have covered := rest.le
      have joined := @List.range'_append_1 range.1 (range.2 - range.1) (stop - range.2)
      rw [Nat.add_sub_cancel' ordered] at joined
      rw [List.flatMap_cons, ih rest, joined]
      congr 1
      omega

/-- `rows[lo:hi]`. -/
def rowSlice (rows : List α) (range : Nat × Nat) : List α :=
  (rows.drop range.1).take (range.2 - range.1)

theorem rowSlice_append_drop {lo hi : Nat} (ordered : lo ≤ hi) (rows : List α) :
    rowSlice rows (lo, hi) ++ rows.drop hi = rows.drop lo := by
  have again := List.take_append_drop (hi - lo) (rows.drop lo)
  rwa [List.drop_drop, Nat.add_sub_cancel' ordered] at again

theorem rowSlice_append {lo mid hi : Nat} (first : lo ≤ mid) (second : mid ≤ hi) (rows : List α) :
    rowSlice rows (lo, mid) ++ rowSlice rows (mid, hi) = rowSlice rows (lo, hi) := by
  have dropped : (rows.drop lo).drop (mid - lo) = rows.drop mid := by
    rw [List.drop_drop, Nat.add_sub_cancel' first]
  have counts : mid - lo + (hi - mid) = hi - lo := by omega
  rw [rowSlice, rowSlice, rowSlice, ← counts, List.take_add, dropped]

theorem Abuts.flatMap_rowSlice {bound : Nat → Nat} (monotone : ∀ lo hi, lo ≤ hi → bound lo ≤ bound hi)
    {start stop : Nat} {ranges : List (Nat × Nat)} (abuts : Abuts start stop ranges)
    (rows : List α) :
    (ranges.flatMap fun range => rowSlice rows (bound range.1, bound range.2)) =
      rowSlice rows (bound start, bound stop) := by
  induction ranges generalizing start with
  | nil =>
      have same : start = stop := abuts
      rw [same, rowSlice, Nat.sub_self, List.take_zero]
      rfl
  | cons range ranges ih =>
      obtain ⟨rfl, ordered, rest⟩ := abuts
      rw [List.flatMap_cons, ih rest,
        rowSlice_append (monotone _ _ ordered) (monotone _ _ rest.le)]

theorem length_rowSlice {lo hi : Nat} {rows : List α} (within : hi ≤ rows.length) :
    (rowSlice rows (lo, hi)).length = hi - lo := by
  rw [rowSlice, List.length_take, List.length_drop]
  omega

end DecoyEngine.Data
