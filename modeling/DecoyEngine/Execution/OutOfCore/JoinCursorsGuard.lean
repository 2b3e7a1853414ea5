import DecoyEngine.Data.Checked
import DecoyEngine.Execution.OutOfCore.JoinCursors

namespace DecoyEngine.Execution.OutOfCore

open DecoyEngine.Data

/-! Row numbers in order, and the guard that lets nothing else through. -/

variable {α : Type}

/-- The row-number column `start`, `start + 1`, ... of `count` rows. -/
def rowNumbers (start : Int) (count : Nat) : List (Option Int) :=
  (List.range count).map fun index : Nat => some (start + (index : Int))

@[simp] theorem rowNumbers_zero (start : Int) : rowNumbers start 0 = [] := rfl

@[simp] theorem rowNumbers_length (start : Int) (count : Nat) :
    (rowNumbers start count).length = count := by
  simp [rowNumbers]

theorem rowNumbers_add (start : Int) (left right : Nat) :
    rowNumbers start (left + right) = rowNumbers start left ++ rowNumbers (start + left) right := by
  simp only [rowNumbers, List.range_add, List.map_append, List.map_map, Function.comp_def,
    Int.natCast_add, Int.add_assoc]

theorem rowNumbers_succ (start : Int) (count : Nat) :
    rowNumbers start (count + 1) = some start :: rowNumbers (start + 1) count := by
  rw [Nat.add_comm, rowNumbers_add]
  simp [rowNumbers]

/-- The rows are numbered without a gap from `start`. -/
def Numbered (start : Int) (rows : JoinBatch α) : Prop :=
  rows.map JoinRow.rowNr = rowNumbers start rows.length

theorem Numbered.nil (start : Int) : Numbered start ([] : JoinBatch α) := rfl

theorem numbered_append {start : Int} {left right : JoinBatch α} :
    Numbered start (left ++ right) ↔
      Numbered start left ∧ Numbered (start + left.length) right := by
  unfold Numbered
  rw [List.map_append, List.length_append, rowNumbers_add]
  constructor
  · intro same
    exact List.append_inj same (by simp)
  · intro ⟨same, tail⟩
    rw [same, tail]

theorem numbered_cons {start : Int} {row : JoinRow α} {rows : JoinBatch α} :
    Numbered start (row :: rows) ↔ row.rowNr = some start ∧ Numbered (start + 1) rows := by
  unfold Numbered
  rw [List.map_cons, List.length_cons, rowNumbers_succ, List.cons.injEq]

theorem numbered_of_count {start : Int} {rows : JoinBatch α} {count : Nat} :
    rows.map JoinRow.rowNr = rowNumbers start count ↔
      Numbered start rows ∧ rows.length = count := by
  constructor
  · intro same
    have size : rows.length = count := by simpa using congrArg List.length same
    exact ⟨by rw [Numbered, size]; exact same, size⟩
  · intro ⟨numbered, size⟩
    rw [← size]
    exact numbered

theorem Numbered.last {start : Int} {row : JoinRow α} {rows : JoinBatch α}
    (numbered : Numbered start (row :: rows)) :
    (rows.getLastD row).rowNr = some (start + (rows.length : Int)) := by
  induction rows generalizing start row with
  | nil => simpa using (numbered_cons.mp numbered).1
  | cons next rows ih =>
      have later := ih (numbered_cons.mp numbered).2
      rw [List.getLastD_cons, later, List.length_cons]
      congr 1
      push_cast
      omega

theorem mapM_rowNr {batch : JoinBatch α} {numbers : List Int} :
    batch.mapM JoinRow.rowNr = some numbers ↔
      batch.map JoinRow.rowNr = numbers.map some := by
  rw [mapM_eq_some, ← List.forall₂_eq_eq_eq, List.forall₂_map_left_iff,
    List.forall₂_map_right_iff]

theorem ascendsByOne_iff (first : Int) (later : List Int) :
    ascendsByOne (first :: later) = true ↔
      (first :: later).map some = rowNumbers first (later.length + 1) := by
  induction later generalizing first with
  | nil => simp [ascendsByOne, rowNumbers]
  | cons next later ih =>
      have peeled : ascendsByOne (first :: next :: later) =
          (next - first == 1 && ascendsByOne (next :: later)) := rfl
      rw [peeled, Bool.and_eq_true, ih, beq_iff_eq, @List.map_cons _ _ _ first, List.length_cons,
        rowNumbers_succ first, List.cons.injEq]
      constructor
      · intro ⟨step, tail⟩
        have shifted : first + 1 = next := by omega
        exact ⟨rfl, by rw [tail, shifted]⟩
      · intro ⟨_, tail⟩
        rw [rowNumbers_succ, List.map_cons, List.cons.injEq, Option.some.injEq] at tail
        refine ⟨by omega, ?_⟩
        rw [List.map_cons, rowNumbers_succ, tail.2, tail.1]

theorem guardFrom_batch (expectedRowCount seen : Nat) (expectedNext : Int) (batch : JoinBatch α)
    (rest : RowReader α) :
    (batch = [] ∧ guardFrom expectedRowCount expectedNext seen (.ok batch :: rest) =
        guardFrom expectedRowCount expectedNext seen rest) ∨
    (batch ≠ [] ∧ Numbered expectedNext batch ∧
      guardFrom expectedRowCount expectedNext seen (.ok batch :: rest) =
        .ok batch :: guardFrom expectedRowCount (expectedNext + batch.length)
          (seen + batch.length) rest) ∨
    (¬ Numbered expectedNext batch ∧ ∃ detail,
      guardFrom expectedRowCount expectedNext seen (.ok batch :: rest) =
        [.error (.contiguity detail)]) := by
  cases present : batch.mapM JoinRow.rowNr with
  | none =>
      refine Or.inr (Or.inr ⟨?_, ?_⟩)
      · intro numbered
        have known : batch.mapM JoinRow.rowNr =
            some ((List.range batch.length).map fun index : Nat =>
              expectedNext + (index : Int)) := by
          rw [mapM_rowNr, numbered, rowNumbers, List.map_map]
          rfl
        rw [present] at known
        cases known
      · exact ⟨_, by rw [guardFrom, present]⟩
  | some numbers =>
      have column := mapM_rowNr.mp present
      cases numbers with
      | nil =>
          have empty : batch = [] := by simpa using column
          refine Or.inl ⟨empty, ?_⟩
          rw [guardFrom, present]
      | cons first later =>
          have size : batch.length = later.length + 1 := by
            have lengths := congrArg List.length column
            simpa using lengths
          by_cases starts : first = expectedNext
          · by_cases ascends : ascendsByOne (first :: later) = true
            · have numbered : Numbered expectedNext batch := by
                rw [Numbered, column, size, ← starts]
                exact (ascendsByOne_iff first later).mp ascends
              refine Or.inr (Or.inl ⟨?_, numbered, ?_⟩)
              · intro empty
                rw [empty] at size
                cases size
              · rw [guardFrom, present]
                simp only [starts, ne_eq, not_true_eq_false, if_false]
                rw [← starts, if_neg (not_not.mpr ascends)]
            · refine Or.inr (Or.inr ⟨?_, ?_⟩)
              · intro numbered
                apply ascends
                rw [ascendsByOne_iff, ← column, ← size, starts]
                exact numbered
              · constructor
                rw [guardFrom, present]
                simp only [starts, ne_eq, not_true_eq_false, if_false]
                rw [← starts, if_pos ascends]
          · refine Or.inr (Or.inr ⟨?_, ?_⟩)
            · intro numbered
              rw [Numbered, column, size, rowNumbers_succ, List.map_cons] at numbered
              exact starts (Option.some.inj (List.cons.inj numbered).1)
            · constructor
              rw [guardFrom, present]
              simp only [ne_eq, starts, not_false_eq_true, if_true]
              rfl

/-- The iterator hands out the batches and stops. -/
def RowReader.YieldsAll (reader : RowReader α) (batches : List (JoinBatch α)) : Prop :=
  reader = batches.map .ok

/-- The iterator hands out some batches and then raises the contiguity error. -/
def RowReader.RaisesContiguity (reader : RowReader α) : Prop :=
  ∃ (batches : List (JoinBatch α)) (detail : String),
    reader = batches.map .ok ++ [.error (.contiguity detail)]

theorem RowReader.YieldsAll.not_raises {reader : RowReader α} {batches : List (JoinBatch α)}
    (yields : reader.YieldsAll batches) : ¬ reader.RaisesContiguity := by
  intro ⟨others, detail, raised⟩
  have member : Except.error (CursorError.contiguity detail) ∈
      (batches.map Except.ok : RowReader α) := by
    rw [← yields, raised]
    simp
  obtain ⟨batch, _, impossible⟩ := List.mem_map.mp member
  cases impossible

theorem RowReader.RaisesContiguity.cons {reader : RowReader α} (batch : JoinBatch α)
    (raises : reader.RaisesContiguity) :
    RowReader.RaisesContiguity (.ok batch :: reader : RowReader α) := by
  obtain ⟨batches, detail, raised⟩ := raises
  exact ⟨batch :: batches, detail, by rw [raised]; rfl⟩

/-- The loop over batches, by induction on them: in step with the row numbers, it yields the
batches that have rows; otherwise it raises. -/
theorem guardFrom_outcome (expectedRowCount : Nat) (batches : List (JoinBatch α)) (position : Nat) :
    (Numbered position batches.flatten ∧ position + batches.flatten.length = expectedRowCount ∧
      (guardFrom expectedRowCount position position (batches.map .ok)).YieldsAll
        (batches.filter fun batch => !batch.isEmpty)) ∨
    (¬ (Numbered position batches.flatten ∧
        position + batches.flatten.length = expectedRowCount) ∧
      (guardFrom expectedRowCount position position (batches.map .ok)).RaisesContiguity) := by
  induction batches generalizing position with
  | nil =>
      by_cases complete : position = expectedRowCount
      · refine Or.inl ⟨Numbered.nil _, by simpa using complete, ?_⟩
        simp [RowReader.YieldsAll, guardFrom, complete]
      · refine Or.inr ⟨by simpa using fun _ => complete, [], ?_⟩
        simp [guardFrom, complete]
  | cons batch batches ih =>
      rw [List.map_cons, List.flatten_cons, List.length_append, numbered_append]
      obtain ⟨empty, run⟩ | ⟨rows, numbered, run⟩ | ⟨misnumbered, detail, run⟩ :=
        guardFrom_batch expectedRowCount position (position : Int) batch (batches.map .ok)
      · rw [run, empty]
        simpa [Numbered.nil] using ih position
      · rw [run]
        have later := ih (position + batch.length)
        rw [Int.natCast_add, Nat.add_assoc] at later
        obtain ⟨tail, total, yields⟩ | ⟨fails, raises⟩ := later
        · refine Or.inl ⟨⟨numbered, tail⟩, total, ?_⟩
          have kept : (!batch.isEmpty) = true := by simpa using rows
          rw [RowReader.YieldsAll, List.filter_cons, if_pos kept, List.map_cons, yields]
        · refine Or.inr ⟨?_, raises.cons batch⟩
          intro ⟨⟨_, tail⟩, total⟩
          exact fails ⟨tail, total⟩
      · refine Or.inr ⟨fun ⟨⟨numbered, _⟩, _⟩ => misnumbered numbered, [], detail, run⟩

/-- Whatever is below it, the guard hands out a numbered prefix of the rows it reads. -/
theorem guardFrom_numbered (expectedRowCount : Nat) (reader : RowReader α) (position : Nat) :
    Numbered position (guardFrom expectedRowCount position position reader).rows ∧
      (guardFrom expectedRowCount position position reader).rows <+: reader.rows := by
  induction reader generalizing position with
  | nil =>
      rw [guardFrom]
      split
      · exact ⟨Numbered.nil _, List.nil_prefix⟩
      · exact ⟨Numbered.nil _, List.nil_prefix⟩
  | cons event rest ih =>
      cases event with
      | error reason => exact ⟨Numbered.nil _, List.nil_prefix⟩
      | ok batch =>
          obtain ⟨empty, run⟩ | ⟨rows, numbered, run⟩ | ⟨misnumbered, detail, run⟩ :=
            guardFrom_batch expectedRowCount position (position : Int) batch rest
          · rw [run, empty]
            exact ih position
          · have later := ih (position + batch.length)
            rw [Int.natCast_add] at later
            rw [run, RowReader.rows_ok, RowReader.rows_ok, numbered_append]
            exact ⟨⟨numbered, later.1⟩, (List.prefix_append_right_inj batch).mpr later.2⟩
          · rw [run]
            exact ⟨Numbered.nil _, List.nil_prefix⟩

theorem guarded_numbered (ordered : RowReader α) (expectedRowCount : Nat) :
    Numbered 0 (guardedReorderIter ordered expectedRowCount).rows :=
  (guardFrom_numbered expectedRowCount ordered 0).1

theorem guarded_begins (ordered : RowReader α) (expectedRowCount : Nat) :
    (guardedReorderIter ordered expectedRowCount).rows <+: ordered.rows :=
  (guardFrom_numbered expectedRowCount ordered 0).2

end DecoyEngine.Execution.OutOfCore
