import DecoyEngine.Data.Batches
import DecoyEngine.Data.Sql
import DecoyEngine.Execution.OutOfCore.FkChunks
import DecoyEngine.Execution.ParentMap

namespace DecoyEngine.Execution.OutOfCore

open DecoyEngine.Data DecoyEngine.Relationships

/-! The out-of-core route for one FK edge: the parent key relation (`_relation.py`) and the child
join over it (`_join.py`).  Tables live in DuckDB, so their rows have no order but the one a query
asks for. -/

abbrev Token := List Char

/-- `any(fk_key_value(value) is NULL_FK_KEY for value in key)`. -/
def hasNullComponent (key : List ArrowCell) : Bool :=
  key.any fun cell => fkKeyValue cell.val = .nullFkKey

/-- The join token of a key; the cells of an Arrow column always have one
(`fkJoinKeyTuple_arrow`). -/
def joinToken (key : List ArrowCell) : Token := joinTextTuple (key.map Subtype.val)

structure StagedRow where
  rowNr : Nat
  joinKey : Token
  masked : List FkComponent

structure RelationRow where
  joinKey : Token
  masked : List FkComponent

/-- Every upstream batch, re-sliced, with global row numbers. -/
def parentKeyBatches (batchRows : Nat) : Nat → List (List ParentRow) → List (Nat × List ParentRow)
  | _, [] => []
  | offset, batch :: batches =>
      numberedSlices batchRows offset batch ++
        parentKeyBatches batchRows (offset + batch.length) batches

/-- One parent row with its number, unless a key component is null. -/
def stagedRow (row : ParentRow × Nat) : Option StagedRow :=
  if hasNullComponent row.1.source then none
  else some ⟨row.2, joinToken row.1.source, row.1.masked⟩

def relationStagingBatches (batchRows : Nat) (source : List (List ParentRow)) :
    List (List StagedRow) :=
  ((parentKeyBatches batchRows 0 source).map fun batch =>
    (batch.2.zipIdx batch.1).filterMap stagedRow).filter fun staged => !staged.isEmpty

/-- Stage, take the greatest row number of each key, join it back. -/
def buildRelation (order : Sql.RowOrder) (batchRows : Nat) (source : List (List ParentRow)) :
    List RelationRow :=
  let staged := order.arrange (relationStagingBatches batchRows source).flatten
  let winners := order.arrange
    (Sql.groupBy Sql.maximum StagedRow.joinKey StagedRow.rowNr staged)
  let joined := Sql.innerJoin (fun (row : StagedRow) (winner : Token × Nat) =>
    row.joinKey = winner.1 && row.rowNr = winner.2) staged winners
  order.arrange (joined.map fun pair => ⟨pair.1.joinKey, pair.1.masked⟩)

structure ChildRow where
  rowNr : Nat
  joinKey : Option Token
  source : List ArrowCell

def childRow (row : List ArrowCell × Nat) : ChildRow where
  rowNr := row.2
  joinKey := if hasNullComponent row.1 then none else some (joinToken row.1)
  source := row.1

def childKeyBatches (batches : List (List (List ArrowCell))) : List (List ChildRow) :=
  (withStarts 0 batches).map fun batch => (batch.2.zipIdx batch.1).map childRow

abbrev JoinedRow := ChildRow × Option RelationRow

/-- Present in the child and in no parent row: the match column decides, not the masked value. -/
def isOrphanRow (row : JoinedRow) : Bool := row.1.joinKey.isSome && row.2.isNone

inductive JoinError where
  | execution (error : ExecutionError)
  -- Arrow cannot hold the keys, in a batch or over all of them
  | chunks (error : FkChunkError)
deriving Repr, DecidableEq

def JoinError.code : JoinError → Option String
  | .execution error => some error.code
  | .chunks error => error.code

/-- One row's key, before it is spread over the component columns. -/
def outputKey (policy : OrphanPolicy) (remapValues : List (List FkComponent)) (row : JoinedRow) :
    Option (List FkComponent) :=
  match row.1.joinKey with
  | none => none
  | some _ =>
      match row.2 with
      | some parent => some parent.masked
      | none =>
          if policy = .remap then some (remapValues.getD row.1.rowNr [])
          else some (normalizedKey row.1.source)

section Join

variable {T : Type} [DecidableEq T] (arrow : FkArrow T)

/-- The component arrays of one batch and its orphans, or the refusal. -/
def appendOutputBatch (edge : RelationshipEdge) (remapValues : List (List FkComponent))
    (batch : List JoinedRow) : Except FkChunkError (List (FkArray T) × Nat) := do
  let keys := batch.map (outputKey edge.orphanPolicy remapValues)
  let arrays ← batchArrays arrow edge.childColumns.length keys
  .ok (arrays, batch.countP isOrphanRow)

structure JoinOutcome (T : Type) where
  columns : List (FkArray T)
  orphanCount : Nat
  warnings : List QualityWarning
deriving DecidableEq

/-- `mask_child_fk`: `sizes` cuts the ordered join into the batches the reader returns. -/
def maskChildFk (order : Sql.RowOrder) (edge : RelationshipEdge) (relation : List RelationRow)
    (children : List (List (List ArrowCell))) (remapValues : List (List FkComponent))
    (sizes : List Nat) : Except JoinError (JoinOutcome T) :=
  let childKeys := order.arrange (childKeyBatches children).flatten
  let joined := order.arrange
    (Sql.leftJoin ChildRow.joinKey RelationRow.joinKey childKeys relation)
  let failCount := joined.countP isOrphanRow
  if edge.orphanPolicy = .fail ∧ 0 < failCount then
    .error (.execution (.orphanFkViolation edge failCount))
  else do
    let batches := cutBy sizes (Sql.orderBy (fun row : JoinedRow => row.1.rowNr) joined)
    let outputs ← (batches.mapM (appendOutputBatch arrow edge remapValues)).mapError .chunks
    let orphanCount := (outputs.map Prod.snd).sum
    let warnings :=
      if 0 < orphanCount ∧ edge.orphanPolicy = .warn then [orphanWarning edge orphanCount] else []
    let columns ← (concatColumns arrow edge.childColumns.length
      (outputs.map Prod.fst)).mapError .chunks
    .ok ⟨columns, orphanCount, warnings⟩

/-- The whole out-of-core resolution of one child column; the remap values are precomputed over
the whole child, row by row. -/
def resolveOutOfCore (order : Sql.RowOrder) (edge : RelationshipEdge) (batchRows : Nat)
    (parents : List (List ParentRow)) (children : List (List (List ArrowCell)))
    (remap : List FkComponent → List FkComponent) (sizes : List Nat) :
    Except JoinError (JoinOutcome T) :=
  maskChildFk arrow order edge (buildRelation order batchRows parents) children
    (children.flatten.map fun row => remap (normalizedKey row)) sizes

end Join

end DecoyEngine.Execution.OutOfCore
