import DecoyEngine.Execution.ErroredParents

namespace DecoyEngine.Validators

open DecoyEngine.Data DecoyEngine.Execution DecoyEngine.Relationships

/-! The foreign-key validators (`validators/_fk_validators.py`), over the masked tables of a run. -/

/-- A table and the columns of a key. -/
structure KeyColumns where
  table : String
  columns : List String
  nonempty : columns ≠ []

instance : DecidableEq KeyColumns := fun first second =>
  decidable_of_iff (first.table = second.table ∧ first.columns = second.columns) (by
    cases first
    cases second
    rw [KeyColumns.mk.injEq])

def KeyColumns.node (key : KeyColumns) : NodeKey := toLex (key.table, key.columns)

/-- One entry of the `relationships:` block. -/
structure RelationshipEntry where
  parent : KeyColumns
  children : List KeyColumns
  aligned : ∀ child ∈ children, child.columns.length = parent.columns.length

structure Table where
  columns : List (String × List ArrowCell)
  rowCount : Nat
  rectangular : ∀ column ∈ columns, column.2.length = rowCount

def Table.names (table : Table) : List String := table.columns.map Prod.fst

/-- `table.column(name).to_pylist()` -/
def Table.column (table : Table) (name : String) : Option (List ArrowCell) :=
  table.columns.lookup name

structure ValidatorFinding where
  validator : String
  table : String
  column : Option String
  failingRowIndices : List Nat
  detail : String
deriving DecidableEq

/-- `v is None` -/
def isNone (cell : ArrowCell) : Bool := decide (cell.val = .null)

def isNaN (cell : ArrowCell) : Bool := decide (cell.val = .float .nan)

/-- `tuple(col_arrays[j][i] for j in ...)`, row by row. -/
def keyRows (columnCells : List (List ArrowCell)) : List (List ArrowCell) :=
  match columnCells with
  | [] => []
  | first :: _ => (List.range first.length).map fun i => columnCells.filterMap (·[i]?)

/-- `_parent_pk_set` -/
def parentPkSet (table : Table) (columns : List String) (parentTableName : String) :
    Except String (List (List ArrowCell)) :=
  let missing := columns.filter (· ∉ table.names)
  if missing ≠ [] then
    .error ("misconfigured FK validator: column(s) " ++ namesText missing ++
      " not found in parent table '" ++ parentTableName ++ "'. Available columns: " ++
      namesText (sorted table.names))
  else .ok ((keyRows (columns.filterMap table.column)).filter fun row => !row.any isNone)

/-- `_child_fk_values` -/
def childFkValues (table : Table) (columns : List String) : List (Option (List ArrowCell)) :=
  (keyRows (columns.filterMap table.column)).map fun row =>
    if row.all isNone then none else some row

/-- `fk in pk_set`: tuples of equal objects, and no NaN equals another. -/
def inPkSet (pkSet : List (List ArrowCell)) (fk : List ArrowCell) : Bool :=
  !fk.any isNaN &&
    pkSet.any fun pk =>
      decide (tupleIdentity (fk.map Subtype.val) = tupleIdentity (pk.map Subtype.val))

def refText (parent child : KeyColumns) : String :=
  parent.table ++ "." ++ namesText parent.columns ++ " -> " ++ child.table ++ "." ++
    namesText child.columns

/-- The rows whose value is in none of the keys. -/
def brokenRows (pkSet : List (List ArrowCell)) (fkValues : List (Option (List ArrowCell))) :
    List Nat :=
  fkValues.zipIdx.filterMap fun
    | (none, _) => none
    | (some fk, i) => if inPkSet pkSet fk then none else some i

def fkIntactFinding (parent child : KeyColumns) (failing : List Nat) : Option ValidatorFinding :=
  if failing = [] then none
  else some
    { validator := "fk_intact"
      table := child.table
      column := none
      failingRowIndices := failing
      detail := toString failing.length ++ " row(s) in " ++ child.table ++
        " have FK values not found in " ++ parent.table ++ " (relationship: " ++
        refText parent child ++ ")" }

/-- The finding of one child of a relationship. -/
def fkIntactChild (outputs : List (String × Table)) (parent : KeyColumns)
    (pkSet : List (List ArrowCell)) (child : KeyColumns) : Option ValidatorFinding :=
  match outputs.lookup child.table with
  | none => none
  | some childTable =>
      fkIntactFinding parent child (brokenRows pkSet (childFkValues childTable child.columns))

/-- One turn of the loop over the relationships. -/
def fkIntactEntry (outputs : List (String × Table)) (rel : RelationshipEntry) :
    Except String (List ValidatorFinding) :=
  match outputs.lookup rel.parent.table with
  | none =>
      .error ("misconfigured fk_intact validator: parent table '" ++ rel.parent.table ++
        "' not found in outputs. Available tables: " ++
        namesText (sorted (outputs.map Prod.fst)))
  | some parentTable =>
      (parentPkSet parentTable rel.parent.columns rel.parent.table).map fun pkSet =>
        rel.children.filterMap (fkIntactChild outputs rel.parent pkSet)

def validateFkIntact (outputs : List (String × Table)) (relationships : List RelationshipEntry) :
    Except String (List ValidatorFinding) :=
  (relationships.mapM (fkIntactEntry outputs)).map List.flatten

def nullRows (fkValues : List (Option (List ArrowCell))) : List Nat :=
  fkValues.zipIdx.filterMap fun
    | (none, i) => some i
    | (some _, _) => none

def noOrphanFinding (parent child : KeyColumns) (failing : List Nat) : Option ValidatorFinding :=
  if failing = [] then none
  else some
    { validator := "no_orphan_children"
      table := child.table
      column := none
      failingRowIndices := failing
      detail := toString failing.length ++ " row(s) in " ++ child.table ++
        " have null FK values (orphaned children) for relationship " ++ refText parent child }

def validateNoOrphanChildren (outputs : List (String × Table))
    (relationships : List RelationshipEntry) : List ValidatorFinding :=
  relationships.flatMap fun rel => rel.children.filterMap fun child =>
    match outputs.lookup child.table with
    | none => none
    | some childTable =>
        noOrphanFinding rel.parent child (nullRows (childFkValues childTable child.columns))

end DecoyEngine.Validators
