import Mathlib.Data.List.Basic

namespace DecoyEngine.Execution.OutOfCore

/-! The order-restored join rows and the cursors that read them in lockstep
(`_stream_join_cursors.py`).

A batch is the list of its rows, each with its `__decoy_row_nr` cell and its other cells.  Row
numbers are the int64 values as integers. -/

structure JoinRow (α : Type) where
  rowNr : Option Int
  cells : α
deriving Repr, DecidableEq

abbrev JoinBatch (α : Type) := List (JoinRow α)

inductive CursorError where
  | contiguity (detail : String)
  | rowAlignment (detail : String)
  /-- `row_nr[0]` of a batch without rows. -/
  | indexOutOfBounds
  /-- `pa.Table.from_batches([])`. -/
  | noBatches
  /-- What the reader below raises. -/
  | reader (message : String)
deriving Repr, DecidableEq

def CursorError.code : CursorError → Option String
  | .contiguity _ => some "out_of_core_fk_reorder_contiguity"
  | .rowAlignment _ => some "out_of_core_fk_row_alignment"
  | .indexOutOfBounds | .noBatches | .reader _ => none

def CursorError.message : CursorError → String
  | .contiguity detail =>
      "the order-restored FK join output is not exactly the child's own " ++
      s!"0..N-1 row_nr domain: {detail}. N is taken from the INDEPENDENT " ++
      "child-stage count (the SpillChildKeys row count), never inferred " ++
      "from the join output itself, so a lost suffix fails closed instead " ++
      "of silently self-validating as a shorter dense range. This is an " ++
      "all-or-nothing failure: no partial result from this iterator is a " ++
      "valid FK output."
  | .rowAlignment detail =>
      "out-of-core FK join output could not be row-aligned to the masked " ++
      s!"payload: {detail}. The join row_nr must match the payload row_nr " ++
      "captured in the single source read; this is a fail-closed internal " ++
      "guard, never silent truncation or misalignment."
  | .indexOutOfBounds => "index out of bounds"
  | .noBatches => "Must pass schema, or at least one RecordBatch"
  | .reader message => message

/-- `str` of an int64 scalar, `None` for a null. -/
def rowNrText : Option Int → String
  | none => "None"
  | some number => s!"{number}"

/-- What successive `next` calls give: a batch or an exception each, then `StopIteration`. -/
abbrev RowReader (α : Type) := List (Except CursorError (JoinBatch α))

variable {α : Type}

def RowReader.rows (reader : RowReader α) : JoinBatch α :=
  reader.flatMap fun
    | .ok batch => batch
    | .error _ => []

@[simp] theorem RowReader.rows_nil : RowReader.rows ([] : RowReader α) = [] := rfl

@[simp] theorem RowReader.rows_ok (batch : JoinBatch α) (reader : RowReader α) :
    RowReader.rows (.ok batch :: reader) = batch ++ RowReader.rows reader := rfl

@[simp] theorem RowReader.rows_error (reason : CursorError) (reader : RowReader α) :
    RowReader.rows (.error reason :: reader) = RowReader.rows reader := rfl

/-- `pc.subtract(row_nr.slice(1, n - 1), row_nr.slice(0, n - 1))` is 1 everywhere. -/
def ascendsByOne (numbers : List Int) : Bool :=
  (List.zipWith (· - ·) numbers.tail numbers.dropLast).all (· == 1)

/-- `_guarded_reorder_iter` from the counts it has reached: a batch is passed on when its row
numbers carry on where the last one ended, and at the end all expected rows must have come. -/
def guardFrom (expectedRowCount : Nat) : Int → Nat → RowReader α → RowReader α
  | expectedNext, seen, [] =>
      if seen ≠ expectedRowCount ∨ expectedNext ≠ expectedRowCount then
        [.error (.contiguity
          (s!"expected exactly {expectedRowCount} contiguous rows (the " ++
            s!"independent child-stage count) but the ordered stream produced " ++
            s!"{seen} row(s), ending at row_nr {expectedNext - 1}"))]
      else []
  | _, _, .error reason :: _ => [.error reason]
  | expectedNext, seen, .ok batch :: rest =>
      match batch.mapM JoinRow.rowNr with
      | none => [.error (.contiguity "the ordered stream contains a null row_nr")]
      | some [] => guardFrom expectedRowCount expectedNext seen rest
      | some (first :: later) =>
          if first ≠ expectedNext then
            [.error (.contiguity
              s!"a batch started at row_nr {first}, expected {expectedNext}")]
          else if ¬ ascendsByOne (first :: later) then
            [.error (.contiguity
              (s!"row_nr [{first}..{(first :: later).getLastD first}] is not a " ++
                "contiguous ascending run (duplicate or missing value)"))]
          else
            .ok batch ::
              guardFrom expectedRowCount (first + batch.length) (seen + batch.length) rest

/-- `_guarded_reorder_iter`: what it yields, and how it ends. -/
def guardedReorderIter (ordered : RowReader α) (expectedRowCount : Nat) : RowReader α :=
  guardFrom expectedRowCount 0 0 ordered

/-- `collected[0] if len(collected) == 1 else _concat_join_row_batches(collected)`, which takes the
first chunk of `combine_chunks`: the only one unless a text column of one take passes `2 ^ 31`
bytes. -/
def assembleBatches : List (JoinBatch α) → Except CursorError (JoinBatch α)
  | [] => .error .noBatches
  | batch :: batches => .ok (batch ++ batches.flatten)

structure JoinRowCursor (α : Type) where
  reader : RowReader α
  batch : Option (JoinBatch α)
  offset : Nat
  emitted : Nat

namespace JoinRowCursor

def create (reader : RowReader α) : JoinRowCursor α where
  reader := reader
  batch := none
  offset := 0
  emitted := 0

/-- The two ends of a batch's row numbers against the running count; the numbers between are
the guard's business. -/
def checkEnds (emitted : Nat) : JoinBatch α → Except CursorError Unit
  | [] => .error .indexOutOfBounds
  | row :: rows =>
      let first := row.rowNr
      let last := (rows.getLastD row).rowNr
      if first ≠ some (emitted : Int) ∨ last ≠ some ((emitted : Int) + rows.length) then
        .error (.rowAlignment
          (s!"join row_nr [{rowNrText first}..{rowNrText last}] does not match the expected " ++
            s!"contiguous range starting at {emitted}"))
      else .ok ()

/-- `_advance`.  A batch that fails the check is gone from the reader all the same. -/
def advance (cursor : JoinRowCursor α) : Except CursorError (JoinBatch α) × JoinRowCursor α :=
  match cursor.reader with
  | [] =>
      (.error (.rowAlignment
        ("join row reader exhausted before the payload store did " ++
          "(join output shorter than the masked payload)")), cursor)
  | .error reason :: rest => (.error reason, { cursor with reader := rest })
  | .ok batch :: rest =>
      match checkEnds cursor.emitted batch with
      | .error reason => (.error reason, { cursor with reader := rest })
      | .ok _ => (.ok batch, { cursor with reader := rest })

/-- The branch of `_current` that pulls the next batch. -/
def refill (cursor : JoinRowCursor α) : Except CursorError (JoinBatch α) × JoinRowCursor α :=
  match cursor.advance with
  | (.error reason, next) => (.error reason, next)
  | (.ok batch, next) => (.ok batch, { next with batch := some batch, offset := 0 })

def current (cursor : JoinRowCursor α) : Except CursorError (JoinBatch α) × JoinRowCursor α :=
  match cursor.batch with
  | none => cursor.refill
  | some batch => if cursor.offset ≥ batch.length then cursor.refill else (.ok batch, cursor)

theorem checkEnds_ne_nil {emitted : Nat} {batch : JoinBatch α}
    (checked : checkEnds emitted batch = .ok ()) : batch ≠ [] := by
  intro empty
  rw [empty] at checked
  cases checked

theorem current_unread {cursor next : JoinRowCursor α} {batch : JoinBatch α}
    (found : cursor.current = (.ok batch, next)) : next.offset < batch.length := by
  have refilled (pulled : cursor.refill = (.ok batch, next)) : next.offset < batch.length := by
    unfold refill advance at pulled
    cases events : cursor.reader with
    | nil => simp [events] at pulled
    | cons event rest =>
        cases event with
        | error reason => simp [events] at pulled
        | ok arrived =>
            cases checked : checkEnds cursor.emitted arrived with
            | error reason => simp [events, checked] at pulled
            | ok _ =>
                simp only [events, checked, Prod.mk.injEq, Except.ok.injEq] at pulled
                obtain ⟨rfl, rfl⟩ := pulled
                exact List.length_pos_iff.mpr (checkEnds_ne_nil checked)
  unfold current at found
  split at found
  · exact refilled found
  · split at found
    · exact refilled found
    · rename_i unread
      cases found
      omega

/-- The `while remaining > 0` loop of `take`. -/
def collect (cursor : JoinRowCursor α) (remaining : Nat) (collected : List (JoinBatch α)) :
    Except CursorError (List (JoinBatch α)) × JoinRowCursor α :=
  if remaining = 0 then (.ok collected, cursor)
  else
    match _found : cursor.current with
    | (.error reason, next) => (.error reason, next)
    | (.ok batch, next) =>
        let takeK := min (batch.length - next.offset) remaining
        collect { next with offset := next.offset + takeK, emitted := next.emitted + takeK }
          (remaining - takeK) (collected ++ [(batch.drop next.offset).take takeK])
termination_by remaining
decreasing_by
  have unread := current_unread _found
  omega

/-- `_schema_probe().slice(0, 0)`. -/
def schemaProbe (cursor : JoinRowCursor α) :
    Except CursorError (JoinBatch α) × JoinRowCursor α :=
  match cursor.batch with
  | some _ => (.ok [], cursor)
  | none =>
      match cursor.current with
      | (.error reason, next) => (.error reason, next)
      | (.ok _, next) => (.ok [], next)

def take (cursor : JoinRowCursor α) (n expectedRowNrStart : Int) :
    Except CursorError (JoinBatch α) × JoinRowCursor α :=
  if (cursor.emitted : Int) ≠ expectedRowNrStart then
    (.error (.rowAlignment
      (s!"the join reader is positioned at row_nr {cursor.emitted}, but the " ++
        s!"payload store's next batch starts at row_nr {expectedRowNrStart}")), cursor)
  else if n = 0 then cursor.schemaProbe
  else
    match cursor.collect n.toNat [] with
    | (.error reason, next) => (.error reason, next)
    | (.ok collected, next) => (assembleBatches collected, next)

end JoinRowCursor

structure ChildKeyLockstepCursor (α : Type) where
  reader : RowReader α
  emitted : Int

namespace ChildKeyLockstepCursor

def create (reader : RowReader α) : ChildKeyLockstepCursor α where
  reader := reader
  emitted := 0

/-- The `while got < n` loop of `take`: whole batches only, each checked at its first row. -/
def collect (emitted n : Int) : RowReader α → Nat → List (JoinBatch α) →
    Except CursorError (List (JoinBatch α)) × RowReader α
  | [], got, collected =>
      if (got : Int) < n then
        (.error (.rowAlignment
          ("child-key spill exhausted before the payload store did " ++
            "(raw child shorter than the masked payload)")), [])
      else (.ok collected, [])
  | .error reason :: rest, got, collected =>
      if (got : Int) < n then (.error reason, rest) else (.ok collected, .error reason :: rest)
  | .ok [] :: rest, got, collected =>
      if (got : Int) < n then collect emitted n rest got collected
      else (.ok collected, .ok [] :: rest)
  | .ok (row :: rows) :: rest, got, collected =>
      if (got : Int) < n then
        if row.rowNr ≠ some (emitted + got) then
          (.error (.rowAlignment
            (s!"child-key spill batch starts at row_nr {rowNrText row.rowNr}, expected " ++
              s!"{emitted + got}")), rest)
        else if (got : Int) + (rows.length + 1) > n then
          (.error (.rowAlignment
            (s!"child-key spill batch of {rows.length + 1} row(s) overshoots the " ++
              s!"{n - got} row(s) the payload batch expects (phase-1 boundaries " ++
              "must coincide)")), rest)
        else collect emitted n rest (got + (rows.length + 1)) (collected ++ [row :: rows])
      else (.ok collected, .ok (row :: rows) :: rest)

/-- A failed loop leaves `_emitted` alone, though the batches it read are gone. -/
def take (cursor : ChildKeyLockstepCursor α) (n expectedRowNrStart : Int) :
    Except CursorError (JoinBatch α) × ChildKeyLockstepCursor α :=
  if cursor.emitted ≠ expectedRowNrStart then
    (.error (.rowAlignment
      (s!"the child-key spill is positioned at row_nr {cursor.emitted}, but the " ++
        s!"payload store's next batch starts at row_nr {expectedRowNrStart}")), cursor)
  else if n = 0 then (.ok [], cursor)
  else
    match collect cursor.emitted n cursor.reader 0 [] with
    | (.error reason, rest) => (.error reason, { cursor with reader := rest })
    | (.ok collected, rest) =>
        (assembleBatches collected, { reader := rest, emitted := cursor.emitted + n })

end ChildKeyLockstepCursor

/-- The match token and the masked parent components of a slim row. -/
structure SlimCells (κ : Type) (componentCount : Nat) where
  parentMatch : Option Bool
  parentMasked : Fin componentCount → κ

/-- The join key and the source components of a raw child row. -/
structure RawCells (κ : Type) (componentCount : Nat) where
  joinKey : κ
  source : Fin componentCount → κ

structure CombinedCells (κ : Type) (componentCount : Nat) where
  joinKey : κ
  source : Fin componentCount → κ
  parentMatch : Option Bool
  parentMasked : Fin componentCount → κ

variable {κ : Type} {componentCount : Nat}

def combinedRow (slim : JoinRow (SlimCells κ componentCount))
    (raw : JoinRow (RawCells κ componentCount)) : JoinRow (CombinedCells κ componentCount) where
  rowNr := raw.rowNr
  cells := {
    joinKey := raw.cells.joinKey
    source := raw.cells.source
    parentMatch := slim.cells.parentMatch
    parentMasked := slim.cells.parentMasked }

/-- `_combine_join_slices`. -/
def combineJoinSlices (slimRows : JoinBatch (SlimCells κ componentCount))
    (rawRows : JoinBatch (RawCells κ componentCount)) :
    Except CursorError (JoinBatch (CombinedCells κ componentCount)) :=
  if slimRows.length ≠ rawRows.length then
    .error (.rowAlignment
      (s!"the slim slice has {slimRows.length} row(s) but the raw child slice has " ++
        s!"{rawRows.length}; they must be the same payload batch"))
  else if slimRows.map JoinRow.rowNr ≠ rawRows.map JoinRow.rowNr then
    .error (.rowAlignment "the slim and raw child slices disagree on __decoy_row_nr")
  else .ok (List.zipWith combinedRow slimRows rawRows)

end DecoyEngine.Execution.OutOfCore
