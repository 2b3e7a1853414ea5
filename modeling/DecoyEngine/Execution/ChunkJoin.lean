import DecoyEngine.Data.PieceQueue
import DecoyEngine.Data.PyRepr

namespace DecoyEngine.Execution.OutputSink

open DecoyEngine.Data (pyRepr namesText sorted)

/-! The tables of the chunked lane, and `join_dispatcher_chunks`
(`_pipeline_auto_chunk.py`). -/

/-- A column type: Arrow's `null`, or another one up to Arrow's equality. -/
inductive DataType (T : Type) where
  | null
  | typed (type : T)
deriving Repr, DecidableEq

def DataType.isNull {T : Type} : DataType T → Bool
  | null => true
  | typed _ => false

/-- `pa.Field`; the metadata is the field's own and that of its children. -/
structure Field (T M : Type) where
  name : String
  type : DataType T
  nullable : Bool
  metadata : M
deriving Repr, DecidableEq

/-- `pa.Table`, by rows; what its buffers look like is left to `Memory`. -/
structure Table (T M V B : Type) where
  fields : List (Field T M)
  metadata : Option M
  rows : List (List (Option V))
  buffers : B
deriving Repr, DecidableEq

/-- The buffers below the tables, on which nothing but `nbytes` rests. -/
structure Memory (T M B : Type) where
  slice : B → Nat → Nat → B
  cast : B → List (Field T M) → B
  combine : List B → B
  /-- Written to an IPC file and read back. -/
  reload : B → B
  nbytes : B → Nat

inductive Failure where
  /-- `chunked_schema_mismatch` -/
  | schemaMismatch (message : String)
  /-- `hold_back_spill_unavailable` -/
  | spillUnavailable (message : String)
  /-- The `ValueError` of a cast. -/
  | castNull (message : String)
  /-- A cast between two types other than `null`. -/
  | conversion
deriving Repr, DecidableEq

section Table

variable {T M V B : Type}

def Table.columnNames (table : Table T M V B) : List String := table.fields.map Field.name

def Table.numRows (table : Table T M V B) : Nat := table.rows.length

variable (memory : Memory T M B)

def Table.nbytes (table : Table T M V B) : Nat := memory.nbytes table.buffers

def Table.slice (table : Table T M V B) (start count : Nat) : Table T M V B :=
  { table with
    rows := (table.rows.drop start).take count
    buffers := memory.slice table.buffers start count }

/-- Tables as pieces of rows. -/
def Table.pieces : Sliceable (Table T M V B) (List (Option V)) where
  rows := Table.rows
  slice := Table.slice memory
  rows_slice := fun _ _ _ => rfl

/-- `pa.concat_tables(parts).combine_chunks().replace_schema_metadata(None)` -/
def combine (parts : List (Table T M V B)) : Table T M V B where
  fields := (parts.head?.map Table.fields).getD []
  metadata := none
  rows := parts.flatMap Table.rows
  buffers := memory.combine (parts.map Table.buffers)

/-- Whether a column holds a null. -/
def Table.hasNull (table : Table T M V B) (index : Nat) : Bool :=
  table.rows.any fun row => (row[index]?.getD none).isNone

variable [DecidableEq T] [DecidableEq M]

/-- One column of `Table.cast`, from a field to another of the same name. -/
def castColumn (source target : Field T M) (hasNull : Bool) : Except Failure Unit :=
  if !target.nullable && hasNull then
    .error (.castNull ("Casting field '" ++ target.name ++
      "' with null values to non-nullable"))
  else if source.type = target.type || source.type.isNull then .ok ()
  else .error .conversion

def castColumns (table : Table T M V B) :
    Nat → List (Field T M) → List (Field T M) → Except Failure Unit
  | index, source :: sources, target :: targets =>
      match castColumn source target (table.hasNull index) with
      | .error failure => .error failure
      | .ok () => castColumns table (index + 1) sources targets
  | _, _, _ => .ok ()

/-- `chunk if chunk.schema.equals(schema, check_metadata=True) else chunk.cast(schema)` -/
def Table.cast (chunk : Table T M V B) (schema : List (Field T M)) :
    Except Failure (Table T M V B) :=
  if chunk.fields = schema ∧ chunk.metadata = none then .ok chunk
  else
    match castColumns chunk 0 chunk.fields schema with
    | .error failure => .error failure
    | .ok () =>
        .ok { chunk with
          fields := schema
          metadata := none
          buffers := memory.cast chunk.buffers schema }

def castAll (schema : List (Field T M)) :
    List (Table T M V B) → Except Failure (List (Table T M V B))
  | [] => .ok []
  | chunk :: rest =>
      match chunk.cast memory schema with
      | .error failure => .error failure
      | .ok part =>
          match castAll schema rest with
          | .error failure => .error failure
          | .ok parts => .ok (part :: parts)

def mismatch (table detail : String) : Failure :=
  .schemaMismatch ("cannot join the chunks of table " ++ pyRepr table ++ ": " ++ detail ++ ".")

variable (typeName : DataType T → String)

def sortedTypes (types : List (DataType T)) : List String :=
  sorted (types.map typeName).dedup

def disagreeing (table name : String) (types : List (DataType T)) : Failure :=
  mismatch table ("column " ++ pyRepr name ++ " has disagreeing types " ++
    namesText (sortedTypes typeName types))

def namesDiffer (table : String) (names other : List String) : Failure :=
  mismatch table ("column names differ across chunks: " ++ namesText names ++ " vs " ++
    namesText other)

/-- `_target_field` over the fields of one column. -/
def targetField (table : String) (first : Field T M) (later : List (Field T M)) :
    Except Failure (Field T M) :=
  let perChunk := first :: later
  if perChunk.all (· = first) then .ok first
  else
    match perChunk.filter fun field => !field.type.isNull with
    | [] => .ok first
    | head :: typed =>
        if typed.any fun field => field.type ≠ head.type then
          .error (disagreeing typeName table first.name ((head :: typed).map Field.type))
        else .ok head

/-- The fields of one column in the chunks. -/
def columnFields (chunks : List (Table T M V B)) (index : Nat) : List (Field T M) :=
  chunks.filterMap fun chunk => chunk.fields[index]?

def targetFields (table : String) (chunks : List (Table T M V B)) :
    Nat → List (Field T M) → Except Failure (List (Field T M))
  | _, [] => .ok []
  | index, first :: rest =>
      match targetField typeName table first (columnFields chunks index) with
      | .error failure => .error failure
      | .ok field =>
          match targetFields table chunks (index + 1) rest with
          | .error failure => .error failure
          | .ok fields => .ok (field :: fields)

/-- `join_dispatcher_chunks`: the chunks of a table under one schema, settled column by column; a
column of nulls takes the type of another chunk, and disagreeing types are refused. -/
def joinDispatcherChunks (table : String) (chunks : List (Table T M V B)) :
    Except Failure (Table T M V B) :=
  match chunks with
  | [] => .error (mismatch table "no chunks to join")
  | first :: later =>
      match later.find? fun chunk => chunk.columnNames != first.columnNames with
      | some chunk => .error (namesDiffer table first.columnNames chunk.columnNames)
      | none =>
          match targetFields typeName table later 0 first.fields with
          | .error failure => .error failure
          | .ok schema =>
              match castAll memory schema (first :: later) with
              | .error failure => .error failure
              | .ok parts => .ok (combine memory parts)

end Table

end DecoyEngine.Execution.OutputSink
