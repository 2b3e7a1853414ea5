import DecoyEngine.Data.Batches
import DecoyEngine.Data.BudgetedPrefix
import Mathlib.Algebra.Order.BigOperators.Group.List

namespace DecoyEngine.Io

open DecoyEngine.Data

/-! Cutting a decoded batch into chunks (`io/bounded_reader.py`). -/

structure ChunkBudget where
  chunkBudgetBytes : Nat
  maxChunkRows : Nat
  maxRowBytes : Nat
  outRowBound : Nat
  chunk_positive : 0 < chunkBudgetBytes
  rows_positive : 0 < maxChunkRows
  row_positive : 0 < maxRowBytes

/-- What `_column_costs` prices a column at: each row, and the terminal offset of a chunk. -/
structure ColumnCosts where
  costs : List Nat
  reserve : Nat

structure RecordBatch (ρ : Type u) where
  rows : List ρ
  columns : List ColumnCosts
  priced : ∀ column ∈ columns, column.costs.length = rows.length

inductive CutOutcome where
  | finished
  | rowExceedsMaxRowBytes (row : Nat)
  /-- NumPy's refusal of a Python integer that no `int64` holds. -/
  | overflowError
deriving Repr, DecidableEq

/-- The chunks that were yielded, and how the generator ended. -/
structure Cut (ρ : Type u) where
  chunks : List (List ρ)
  outcome : CutOutcome

namespace RecordBatch

variable {ρ : Type u} (batch : RecordBatch ρ)

def inCost : List Int :=
  batch.columns.foldl
    (fun total column => List.zipWith (fun cost more => int64 (cost + more)) total
      (column.costs.map Int.ofNat))
    (List.replicate batch.rows.length 0)

def terminal : Nat := batch.columns.foldl (fun total column => total + column.reserve) 0

/-- `oversized[0]`, or the number of rows. -/
def limit (budget : ChunkBudget) : Nat :=
  (batch.inCost.findIdx? fun cost =>
    (budget.maxRowBytes : Int) < int64 (cost + batch.terminal)).getD batch.rows.length

end RecordBatch

/-- Where the chunk that begins at `start` ends. -/
def chunkEnd (cumulative : List Int) (effectiveBudget : Int) (maxChunkRows limit start : Nat) :
    Nat :=
  let base := if start = 0 then 0 else cumulative.getD (start - 1) 0
  let affordable := searchsorted cumulative (base + effectiveBudget) 0 cumulative.length
  let stop := min (min affordable (start + maxChunkRows)) limit
  -- a single row over the budget, within `max_row_bytes`
  if stop ≤ start then start + 1 else stop

theorem lt_chunkEnd (cumulative : List Int) (effectiveBudget : Int)
    (maxChunkRows limit start : Nat) :
    start < chunkEnd cumulative effectiveBudget maxChunkRows limit start := by
  rw [chunkEnd]
  generalize min (min _ (start + maxChunkRows)) limit = stop
  split <;> omega

/-- `while start < limit` -/
def cutSpans (cumulative : List Int) (effectiveBudget : Int) (maxChunkRows limit start : Nat) :
    List (Nat × Nat) :=
  if start < limit then
    let stop := chunkEnd cumulative effectiveBudget maxChunkRows limit start
    (start, stop) :: cutSpans cumulative effectiveBudget maxChunkRows limit stop
  else []
termination_by limit - start
decreasing_by
  have progress := lt_chunkEnd cumulative effectiveBudget maxChunkRows limit start
  omega

/-- `cut_batch`.  The costs are NumPy `int64`: their sums wrap, and a reserve or an output bound
beyond that range is refused before the first chunk. -/
def cutBatch {ρ : Type u} (batch : RecordBatch ρ) (budget : ChunkBudget) (rowBase : Nat) : Cut ρ :=
  if batch.rows.length = 0 then ⟨[], .finished⟩
  else if 2 ^ 63 ≤ batch.terminal ∨ 2 ^ 63 ≤ budget.outRowBound then ⟨[], .overflowError⟩
  else
    let limit := batch.limit budget
    let effectiveBudget : Int := budget.chunkBudgetBytes - batch.terminal
    let total := batch.inCost.map fun cost => int64 (cost + budget.outRowBound)
    let spans := cutSpans (cumsum64From 0 total) effectiveBudget budget.maxChunkRows limit 0
    { chunks := spans.map (rowSlice batch.rows)
      outcome :=
        if limit < batch.rows.length then .rowExceedsMaxRowBytes (rowBase + limit)
        else .finished }

section Specification

variable {ρ : Type u} (batch : RecordBatch ρ) (budget : ChunkBudget)

/-- The input bytes of a row. -/
def RecordBatch.rowCost (row : Nat) : Nat :=
  (batch.columns.map fun column => column.costs.getD row 0).sum

/-- The offsets a chunk owns besides those of its rows. -/
def RecordBatch.reserve : Nat := (batch.columns.map ColumnCosts.reserve).sum

/-- What a chunk of the rows from `start` to `stop` is charged. -/
def chunkCost (start stop : Nat) : Nat :=
  ((List.range' start (stop - start)).map fun row =>
    batch.rowCost row + budget.outRowBound).sum + batch.reserve

/-- What all rows of the batch and one terminal offset are charged. -/
def batchCharge : Nat := chunkCost batch budget 0 batch.rows.length

/-- The rows before the first one that is over `max_row_bytes` by itself. -/
structure Admitted (count : Nat) : Prop where
  within : count ≤ batch.rows.length
  admitted : ∀ row < count, batch.rowCost row + batch.reserve ≤ budget.maxRowBytes
  refused : count < batch.rows.length →
    budget.maxRowBytes < batch.rowCost count + batch.reserve

/-- A chunk `[lo, hi)` of the admitted rows. -/
structure GreedyChunk (count : Nat) (span : Nat × Nat) : Prop where
  nonempty : span.1 < span.2
  rows : span.2 - span.1 ≤ budget.maxChunkRows
  fits : span.2 = span.1 + 1 ∨ chunkCost batch budget span.1 span.2 ≤ budget.chunkBudgetBytes
  maximal : span.2 < count → span.2 - span.1 = budget.maxChunkRows ∨
    budget.chunkBudgetBytes < chunkCost batch budget span.1 (span.2 + 1)

end Specification

section Costs

variable {ρ : Type u} {batch : RecordBatch ρ} {budget : ChunkBudget}

theorem foldl_zipWith_add {size : Nat} (columns : List ColumnCosts)
    (priced : ∀ column ∈ columns, column.costs.length = size) (total : Nat → Nat) :
    columns.foldl (fun total column => List.zipWith (fun cost more => int64 (cost + more)) total
        (column.costs.map Int.ofNat)) ((List.range size).map fun row => int64 (total row)) =
      (List.range size).map fun row =>
        int64 (total row + (columns.map fun column => column.costs.getD row 0).sum : Nat) := by
  induction columns generalizing total with
  | nil => rfl
  | cons column rest ih =>
      have width : column.costs.length = size := priced column List.mem_cons_self
      have added : List.zipWith (fun cost more => int64 (cost + more))
            ((List.range size).map fun row => int64 (total row)) (column.costs.map Int.ofNat) =
          (List.range size).map fun row => int64 (total row + column.costs.getD row 0 : Nat) := by
        apply List.ext_getElem
        · simp [width]
        · intro row left right
          have inside : row < column.costs.length := by simpa [width] using right
          simp [List.getD_eq_getElem?_getD, List.getElem?_eq_getElem inside, int64_add]
      rw [List.foldl_cons, added,
        ih (fun other member => priced other (List.mem_cons_of_mem _ member))]
      apply List.map_congr_left
      intro row _
      rw [List.map_cons, List.sum_cons, Nat.add_assoc]

theorem inCost_eq (batch : RecordBatch ρ) :
    batch.inCost = (List.range batch.rows.length).map fun row => int64 (batch.rowCost row) := by
  have zeros : List.replicate batch.rows.length (0 : Int) =
      (List.range batch.rows.length).map fun _ => int64 (0 : Nat) := by
    rw [List.map_const', List.length_range]
    rfl
  rw [RecordBatch.inCost, zeros, foldl_zipWith_add batch.columns batch.priced]
  apply List.map_congr_left
  intro row _
  rw [Nat.zero_add]
  rfl

theorem foldl_reserve (columns : List ColumnCosts) (total : Nat) :
    columns.foldl (fun total column => total + column.reserve) total =
      total + (columns.map ColumnCosts.reserve).sum := by
  induction columns generalizing total with
  | nil => rfl
  | cons column rest ih =>
      rw [List.foldl_cons, ih, List.map_cons, List.sum_cons, Nat.add_assoc]

theorem terminal_eq (batch : RecordBatch ρ) : batch.terminal = batch.reserve := by
  rw [RecordBatch.terminal, foldl_reserve, Nat.zero_add, RecordBatch.reserve]

/-- The charge of a row with the terminal offset is part of the charge of the batch. -/
theorem charge_le (batch : RecordBatch ρ) (budget : ChunkBudget) {row : Nat}
    (inside : row < batch.rows.length) :
    batch.rowCost row + budget.outRowBound + batch.reserve ≤ batchCharge batch budget := by
  rw [batchCharge, chunkCost, Nat.sub_zero, ← List.range_eq_range']
  have member : batch.rowCost row + budget.outRowBound ∈ (List.range batch.rows.length).map
      fun row => batch.rowCost row + budget.outRowBound :=
    List.mem_map_of_mem (List.mem_range.mpr inside)
  have part := List.single_le_sum (fun _ _ => Nat.zero_le _) _ member
  omega

theorem admitted_limit (batch : RecordBatch ρ) (budget : ChunkBudget)
    (small : batchCharge batch budget < 2 ^ 63) :
    Admitted batch budget (batch.limit budget) := by
  have exact : ∀ row < batch.rows.length,
      int64 (int64 (batch.rowCost row) + batch.reserve) =
        (batch.rowCost row + batch.reserve : Nat) := by
    intro row inside
    have part := charge_le batch budget inside
    rw [int64_add, ← Int.natCast_add]
    exact int64_natCast (by omega)
  rw [RecordBatch.limit, inCost_eq, terminal_eq]
  cases found : ((List.range batch.rows.length).map fun row => int64 (batch.rowCost row)).findIdx?
      fun cost => (budget.maxRowBytes : Int) < int64 (cost + batch.reserve) with
  | none =>
      refine ⟨Nat.le_refl _, fun row inside => ?_, fun more => absurd more (Nat.lt_irrefl _)⟩
      have below := List.findIdx?_eq_none_iff.mp found (int64 (batch.rowCost row))
        (List.mem_map_of_mem (f := fun row => int64 (batch.rowCost row)) (List.mem_range.mpr inside))
      rw [exact row inside, decide_eq_false_iff_not] at below
      omega
  | some first =>
      obtain ⟨inside, large, before⟩ := List.findIdx?_eq_some_iff_getElem.mp found
      rw [List.length_map, List.length_range] at inside
      rw [List.getElem_map, List.getElem_range, exact first inside, decide_eq_true_eq] at large
      rw [Option.getD_some]
      refine ⟨Nat.le_of_lt inside, fun row earlier => ?_, fun _ => by omega⟩
      have below := before row earlier
      rw [List.getElem_map, List.getElem_range, exact row (by omega), decide_eq_true_eq] at below
      omega

variable (batch budget) in
theorem chunkCost_eq {start stop : Nat} (ordered : start ≤ stop) :
    chunkCost batch budget start stop +
        prefixCost (fun row => batch.rowCost row + budget.outRowBound) start =
      prefixCost (fun row => batch.rowCost row + budget.outRowBound) stop + batch.reserve := by
  have joined := @List.range'_append_1 0 start (stop - start)
  rw [Nat.zero_add, Nat.add_sub_cancel' ordered] at joined
  rw [chunkCost, prefixCost, prefixCost, List.range_eq_range', List.range_eq_range', ← joined,
    List.map_append, List.sum_append]
  omega

end Costs

section Cuts

variable {ρ : Type u} (batch : RecordBatch ρ) (budget : ChunkBudget)

/-- What the loop cuts by. -/
def charges : List Int :=
  cumsum64From 0 ((List.range batch.rows.length).map fun row =>
    int64 (batch.rowCost row + budget.outRowBound : Nat))

theorem prefixCost_le_charge {count : Nat} (within : count ≤ batch.rows.length) :
    prefixCost (fun row => batch.rowCost row + budget.outRowBound) count ≤
      batchCharge batch budget := by
  rw [batchCharge, chunkCost, Nat.sub_zero, ← List.range_eq_range']
  exact Nat.le_add_right_of_le (prefixCost_mono within)

variable {batch budget} in
theorem charges_running (small : batchCharge batch budget < 2 ^ 63) :
    Running (fun row => batch.rowCost row + budget.outRowBound) batch.rows.length
      (charges batch budget) :=
  Running.of_cumsum64 (Nat.lt_of_le_of_lt (prefixCost_le_charge batch budget (Nat.le_refl _)) small)

theorem chunkEnd_greedy (small : batchCharge batch budget < 2 ^ 63) {count start : Nat}
    (within : count ≤ batch.rows.length) (more : start < count) :
    let stop := chunkEnd (charges batch budget) (budget.chunkBudgetBytes - batch.reserve)
      budget.maxChunkRows count start
    stop ≤ count ∧ GreedyChunk batch budget count (start, stop) := by
  intro stop
  have progress : start < stop := lt_chunkEnd _ _ _ _ _
  have running := charges_running small
  obtain ⟨affordable, fits, longest⟩ := running.searchsorted
    ((prefixCost (fun row => batch.rowCost row + budget.outRowBound) start : Int) +
      (budget.chunkBudgetBytes - batch.reserve))
  have base : (if start = 0 then 0 else (charges batch budget).getD (start - 1) 0) =
      (prefixCost (fun row => batch.rowCost row + budget.outRowBound) start : Int) := by
    split
    · rename_i first
      rw [first]
      rfl
    · rename_i later
      rw [running.getD (by omega), Nat.sub_add_cancel (Nat.pos_of_ne_zero later)]
  have isStop : stop =
      let cut := min (min (searchsorted (charges batch budget)
        ((prefixCost (fun row => batch.rowCost row + budget.outRowBound) start : Int) +
          (budget.chunkBudgetBytes - batch.reserve)) 0 (charges batch budget).length)
          (start + budget.maxChunkRows)) count
      if cut ≤ start then start + 1 else cut := by
    rw [← base]
    rfl
  generalize searchsorted (charges batch budget) _ _ _ = kept at affordable fits longest isStop
  have positive := budget.rows_positive
  have single := chunkCost_eq batch budget (Nat.le_add_right start 1)
  have two : start ≤ start + 1 + 1 := by omega
  have double := chunkCost_eq batch budget two
  have grows : prefixCost (fun row => batch.rowCost row + budget.outRowBound) (start + 1) ≤
    prefixCost (fun row => batch.rowCost row + budget.outRowBound) (start + 1 + 1) :=
    prefixCost_mono (Nat.le_succ _)
  dsimp only at isStop
  split at isStop
  · -- not even the first row is affordable
    rename_i stuck
    have short : kept ≤ start := by omega
    have tooDear : budget.chunkBudgetBytes < chunkCost batch budget start (start + 1) := by
      have next := longest (by omega)
      have ascending : prefixCost (fun row => batch.rowCost row + budget.outRowBound) (kept + 1) ≤
        prefixCost (fun row => batch.rowCost row + budget.outRowBound) (start + 1) :=
        prefixCost_mono (by omega)
      omega
    refine ⟨by omega, progress, by omega, .inl isStop, fun _ => .inr ?_⟩
    rw [isStop]
    dsimp only
    omega
  · rename_i cut
    have inKept : stop ≤ kept := by omega
    refine ⟨by omega, progress, by omega, .inr ?_, fun notLast => ?_⟩
    · have cost := chunkCost_eq batch budget (Nat.le_of_lt progress)
      have ascending : prefixCost (fun row => batch.rowCost row + budget.outRowBound) stop ≤
        prefixCost (fun row => batch.rowCost row + budget.outRowBound) kept :=
        prefixCost_mono inKept
      have paid := fits.resolve_left (by omega)
      dsimp only
      omega
    · by_cases full : stop - start = budget.maxChunkRows
      · exact .inl full
      · have atKept : stop = kept := by omega
        have next := longest (by omega)
        have longer : start ≤ stop + 1 := by omega
        have cost := chunkCost_eq batch budget longer
        rw [← atKept] at next
        right
        dsimp only
        omega

theorem cutSpans_greedy (small : batchCharge batch budget < 2 ^ 63) {count : Nat}
    (within : count ≤ batch.rows.length) (start : Nat) (before : start ≤ count) :
    let spans := cutSpans (charges batch budget) (budget.chunkBudgetBytes - batch.reserve)
      budget.maxChunkRows count start
    Tiles start count spans ∧ ∀ span ∈ spans, GreedyChunk batch budget count span := by
  fun_induction cutSpans (charges batch budget) (budget.chunkBudgetBytes - batch.reserve)
    budget.maxChunkRows count start with
  | case1 start more stop ih =>
      obtain ⟨inside, chunk⟩ := chunkEnd_greedy batch budget small within more
      obtain ⟨tiles, chunks⟩ := ih inside
      refine ⟨⟨rfl, chunk.nonempty, tiles⟩, fun span member => ?_⟩
      rcases List.mem_cons.mp member with first | later
      · exact first ▸ chunk
      · exact chunks span later
  | case2 start done =>
      exact ⟨by rw [Tiles]; omega, nofun⟩

end Cuts

theorem map_rowSlice_flatten {α : Type u} {start stop : Nat} {spans : List (Nat × Nat)}
    (tiles : Tiles start stop spans) (rows : List α) :
    (spans.map (rowSlice rows)).flatten = rowSlice rows (start, stop) := by
  induction spans generalizing start with
  | nil =>
      have same : start = stop := tiles
      rw [same, rowSlice, Nat.sub_self, List.take_zero]
      rfl
  | cons span spans ih =>
      obtain ⟨rfl, nonempty, rest⟩ := tiles
      rw [List.map_cons, List.flatten_cons, ih rest,
        rowSlice_append (Nat.le_of_lt nonempty) rest.le]

/-- The chunks are the admitted rows in order, each cut where the next row would break a bound; a
chunk over the budget is a single row.  The charges of the batch stay in the range of the `int64`
that NumPy sums them in. -/
theorem cut_batch_partitions {ρ : Type u} (batch : RecordBatch ρ) (budget : ChunkBudget)
    (rowBase : Nat) (small : batchCharge batch budget < 2 ^ 63) :
    ∃ count spans, Admitted batch budget count ∧ Tiles 0 count spans ∧
      (cutBatch batch budget rowBase).chunks = spans.map (rowSlice batch.rows) ∧
      (cutBatch batch budget rowBase).chunks.flatten = batch.rows.take count ∧
      (∀ span ∈ spans, GreedyChunk batch budget count span) ∧
      (cutBatch batch budget rowBase).outcome =
        if count < batch.rows.length then .rowExceedsMaxRowBytes (rowBase + count)
        else .finished := by
  have admitted := admitted_limit batch budget small
  by_cases empty : batch.rows.length = 0
  · have none : batch.limit budget = 0 := by
      have within := admitted.within
      omega
    refine ⟨0, [], none ▸ admitted, rfl, ?_, ?_, nofun, ?_⟩
    all_goals rw [cutBatch, if_pos empty]
    · rfl
    · rfl
    · rw [if_neg (by omega)]
  · obtain ⟨tiles, chunks⟩ := cutSpans_greedy batch budget small admitted.within 0 (Nat.zero_le _)
    have inRange : ¬ (2 ^ 63 ≤ batch.terminal ∨ 2 ^ 63 ≤ budget.outRowBound) := by
      have part := charge_le batch budget (Nat.pos_of_ne_zero empty)
      rw [terminal_eq]
      omega
    have cut : cutBatch batch budget rowBase =
        { chunks := (cutSpans (charges batch budget) (budget.chunkBudgetBytes - batch.reserve)
            budget.maxChunkRows (batch.limit budget) 0).map (rowSlice batch.rows)
          outcome :=
            if batch.limit budget < batch.rows.length then
              .rowExceedsMaxRowBytes (rowBase + batch.limit budget)
            else .finished } := by
      rw [cutBatch, if_neg empty, if_neg inRange, inCost_eq, List.map_map, terminal_eq, charges]
      simp only [Function.comp_def, int64_add, Int.natCast_add]
    rw [cut]
    refine ⟨_, _, admitted, tiles, rfl, ?_, chunks, rfl⟩
    exact map_rowSlice_flatten tiles batch.rows

/-- One row of ten bytes under a chunk budget of six and a row bound of a hundred. -/
def wideRow : RecordBatch String := ⟨["wide"], [⟨[10], 0⟩], by simp⟩

def narrowBudget : ChunkBudget := ⟨6, 1, 100, 0, by decide, by decide, by decide⟩

/-- The row is yielded in a chunk over the budget. -/
theorem cut_batch_partitions_wide_row :
    ∃ count spans, Admitted wideRow narrowBudget count ∧ Tiles 0 count spans ∧
      (cutBatch wideRow narrowBudget 0).chunks = spans.map (rowSlice wideRow.rows) := by
  obtain ⟨count, spans, admitted, tiles, chunks, -⟩ :=
    cut_batch_partitions wideRow narrowBudget 0 (by decide)
  exact ⟨count, spans, admitted, tiles, chunks⟩

/-- Two rows of one byte whose output bound takes the second running charge past `int64`. -/
def twoRows : RecordBatch String := ⟨["first", "second"], [⟨[1, 1], 0⟩], by simp⟩

def hugeBound : ChunkBudget :=
  ⟨2 ^ 62 + 1, 2, 100, 2 ^ 62, by decide, by decide, by decide⟩

/-- The single row is yielded in a chunk over the budget; a running charge that wraps puts two
rows in one such chunk. -/
theorem wide_row_over_budget :
    (narrowBudget.chunkBudgetBytes < chunkCost wideRow narrowBudget 0 1 ∧
      (cutBatch wideRow narrowBudget 0).chunks = [["wide"]] ∧
      (cutBatch wideRow narrowBudget 0).outcome = .finished) ∧
    hugeBound.chunkBudgetBytes < chunkCost twoRows hugeBound 0 2 ∧
      (cutBatch twoRows hugeBound 0).chunks = [["first", "second"]] := by
  refine ⟨⟨by decide, ?_, ?_⟩, by decide, ?_⟩
  · simp [cutBatch, cutSpans, chunkEnd, wideRow, narrowBudget, RecordBatch.limit,
      RecordBatch.inCost, RecordBatch.terminal, rowSlice, cumsum64From, searchsorted, int64,
      Int.bmod]
  · simp [cutBatch, wideRow, narrowBudget, RecordBatch.limit, RecordBatch.inCost,
      RecordBatch.terminal, int64, Int.bmod]
  · have limit : twoRows.limit hugeBound = 2 := by decide +kernel
    have wrapped : cumsum64From 0 (twoRows.inCost.map fun cost =>
        int64 (cost + hugeBound.outRowBound)) = [2 ^ 62 + 1, 2 - 2 ^ 63] := by decide +kernel
    have both : chunkEnd [2 ^ 62 + 1, 2 - 2 ^ 63] (hugeBound.chunkBudgetBytes - twoRows.terminal)
        hugeBound.maxChunkRows 2 0 = 2 := by
      have second : searchsorted [2 ^ 62 + 1, 2 - 2 ^ 63] (2 ^ 62 + 1) 2 2 = 2 := by
        rw [searchsorted, if_neg (by decide)]
      have found : searchsorted [2 ^ 62 + 1, 2 - 2 ^ 63] (2 ^ 62 + 1) 0 2 = 2 := by
        rw [searchsorted, if_pos (by decide)]
        exact (if_pos (by decide)).trans second
      have key : (0 : Int) + (hugeBound.chunkBudgetBytes - twoRows.terminal) = 2 ^ 62 + 1 := by
        decide
      simp only [chunkEnd, if_true, key, List.length_cons, List.length_nil, found]
      decide
    rw [cutBatch, if_neg (by decide), if_neg (by decide)]
    simp only [limit, wrapped]
    rw [cutSpans, if_pos (by decide)]
    simp only [both]
    rw [cutSpans, if_neg (by decide)]
    rfl

end DecoyEngine.Io
