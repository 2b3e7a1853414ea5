import DecoyEngine.Execution.ChunkJoin
import Mathlib.Algebra.Ring.Nat

namespace DecoyEngine.Execution.OutputSink

/-! `stream_table` (`_chunked_output_sink.py`): the chunks of a routed table, written row group by
row group. -/

/-- `ROW_GROUP_ROWS` and `ROW_GROUP_BYTES`. -/
structure Caps where
  rowGroupRows : Nat
  rowGroupBytes : Nat
  rows_pos : 0 < rowGroupRows
  bytes_pos : 0 < rowGroupBytes

/-- `StreamStats` -/
structure StreamStats where
  rowGroups : Nat
  byteCutRowGroups : Nat
  heldBackChunks : Nat
  spilledChunks : Nat
deriving Repr, DecidableEq

section Resolver

variable {T M V B : Type} [DecidableEq T] [DecidableEq M]

/-- `_Resolver` -/
structure Resolver (T M : Type) where
  table : String
  fixed : List String
  names : Option (List String)
  first : List (Field T M)
  fields : List (Option (Field T M))
deriving Repr, DecidableEq

def Resolver.resolved (resolver : Resolver T M) : Bool :=
  resolver.names.isSome && resolver.fields.all Option.isSome

variable (typeName : DataType T → String)

/-- The loop of `observe` over the fields of a chunk. -/
def observeFields (table : String) (fixed : List String) :
    List (Option (Field T M)) → List (Field T M) → Except Failure (List (Option (Field T M)))
  | known :: knowns, field :: fields =>
      match known with
      | none =>
          match observeFields table fixed knowns fields with
          | .error failure => .error failure
          | .ok rest =>
              .ok ((if !field.type.isNull || fixed.contains field.name then some field
                else none) :: rest)
      | some target =>
          if !field.type.isNull && field.type ≠ target.type then
            .error (disagreeing typeName table field.name [target.type, field.type])
          else
            match observeFields table fixed knowns fields with
            | .error failure => .error failure
            | .ok rest => .ok (some target :: rest)
  | _, _ => .ok []

/-- `_Resolver.observe`: what one more chunk adds to the schema that is being settled, or the
mismatch that it brings in. -/
def Resolver.observe (resolver : Resolver T M) (chunk : Table T M V B) :
    Except Failure (Resolver T M) :=
  match resolver.names with
  | none =>
      match observeFields typeName resolver.table resolver.fixed (chunk.fields.map fun _ => none)
          chunk.fields with
      | .error failure => .error failure
      | .ok fields =>
          .ok { resolver with
            names := some chunk.columnNames
            first := chunk.fields
            fields := fields }
  | some names =>
      if chunk.columnNames != names then
        .error (namesDiffer resolver.table names chunk.columnNames)
      else
        match observeFields typeName resolver.table resolver.fixed resolver.fields
            chunk.fields with
        | .error failure => .error failure
        | .ok fields => .ok { resolver with fields := fields }

/-- `_Resolver.schema` -/
def Resolver.schema (resolver : Resolver T M) : List (Field T M) :=
  List.zipWith (fun field first => field.getD first) resolver.fields resolver.first

end Resolver

section Groups

variable {T M V B : Type} (memory : Memory T M B) (caps : Caps)

/-- `_Buffer` -/
structure Buffer (T M V B : Type) where
  tables : List (Table T M V B)
  rows : Nat
  nbytes : Nat

/-- Why a row group ends: the row cap, the byte cap (with the buffer's size), or the end. -/
inductive Cut where
  | full
  | bytes (nbytes : Nat)
  | last
deriving Repr, DecidableEq

/-- What the sink gets, with the rows that each feed leaves in the buffer. -/
structure Stream (T M V B : Type) where
  buffer : Buffer T M V B
  stats : StreamStats
  groups : List (Table T M V B × Cut)
  left : List Nat

def Stream.start (stats : StreamStats) : Stream T M V B := ⟨⟨[], 0, 0⟩, stats, [], []⟩

/-- `_take_rows` -/
def Buffer.takeRows (buffer : Buffer T M V B) (count : Nat) : Table T M V B × Buffer T M V B :=
  let taken := (Table.pieces memory).takeRows count buffer.tables
  (combine memory taken.1,
    ⟨taken.2, buffer.rows - count, (taken.2.map (Table.nbytes memory)).sum⟩)

/-- A row group is handed out. -/
def Stream.emit (stream : Stream T M V B) (count : Nat) (cut : Cut) : Stream T M V B :=
  let taken := stream.buffer.takeRows memory count
  { stream with
    buffer := taken.2
    stats :=
      { stream.stats with
        rowGroups := stream.stats.rowGroups + 1
        byteCutRowGroups := stream.stats.byteCutRowGroups +
          match cut with
          | .bytes _ => 1
          | _ => 0 }
    groups := stream.groups ++ [(taken.1, cut)] }

/-- `while buf.rows >= ROW_GROUP_ROWS` -/
def Stream.drain (stream : Stream T M V B) : Stream T M V B :=
  if _over : caps.rowGroupRows ≤ stream.buffer.rows then
    (stream.emit memory caps.rowGroupRows .full).drain
  else stream
termination_by stream.buffer.rows
decreasing_by
  have positive := caps.rows_pos
  simp only [Stream.emit, Buffer.takeRows]
  omega

/-- `_feed` -/
def Stream.feed (stream : Stream T M V B) (chunk : Table T M V B) : Stream T M V B :=
  let added : Stream T M V B :=
    { stream with
      buffer := ⟨stream.buffer.tables ++ [chunk], stream.buffer.rows + chunk.numRows,
        stream.buffer.nbytes + chunk.nbytes memory⟩ }
  let drained := added.drain memory caps
  let cut :=
    if 0 < drained.buffer.rows && caps.rowGroupBytes ≤ drained.buffer.nbytes then
      drained.emit memory drained.buffer.rows (.bytes drained.buffer.nbytes)
    else drained
  { cut with left := cut.left ++ [cut.buffer.rows] }

/-- The last row group. -/
def Stream.flush (stream : Stream T M V B) : Stream T M V B :=
  if 0 < stream.buffer.rows then stream.emit memory stream.buffer.rows .last else stream

end Groups

section Run

variable {T M V B : Type} [DecidableEq T] [DecidableEq M] (memory : Memory T M B) (caps : Caps)
  (typeName : DataType T → String)

/-- The state of `_hold_back`: the spilled chunks, the ones in memory and their size. -/
structure Hold (T M V B : Type) where
  resolver : Resolver T M
  spilled : List (Table T M V B)
  pending : List (Table T M V B)
  rows : Nat
  nbytes : Nat
  stats : StreamStats

def Hold.start (resolver : Resolver T M) : Hold T M V B := ⟨resolver, [], [], 0, 0, ⟨0, 0, 0, 0⟩⟩

/-- `_Spill.add` of some chunks; the stage is beside the sink's own. -/
def Hold.spill (hold : Hold T M V B) (spillParent : Option String)
    (chunks : List (Table T M V B)) : Except Failure (Hold T M V B) :=
  match spillParent with
  | none =>
      .error (.spillUnavailable ("table '" ++ hold.resolver.table ++
        "' holds back more chunks than fit in one row group, so they must spill to disk, " ++
        "but the sink names no `spill_parent`."))
  | some _ =>
      .ok { hold with
        spilled := hold.spilled ++ chunks.map fun chunk =>
          { chunk with buffers := memory.reload chunk.buffers }
        stats := { hold.stats with
          spilledChunks := hold.stats.spilledChunks + chunks.length } }

/-- A chunk that does not settle the schema is held back, in memory as long as the caps allow it and
in the spill file from then on. -/
def Hold.keep (hold : Hold T M V B) (spillParent : Option String) (chunk : Table T M V B) :
    Except Failure (Hold T M V B) :=
  let held := { hold with
    stats := { hold.stats with heldBackChunks := hold.stats.heldBackChunks + 1 } }
  if !hold.spilled.isEmpty then held.spill memory spillParent [chunk]
  else
    let kept := { held with
      pending := hold.pending ++ [chunk]
      rows := hold.rows + chunk.numRows
      nbytes := hold.nbytes + chunk.nbytes memory }
    if caps.rowGroupRows ≤ kept.rows || caps.rowGroupBytes ≤ kept.nbytes then
      match kept.spill memory spillParent kept.pending with
      | .error failure => .error failure
      | .ok spilled => .ok { spilled with pending := [], rows := 0, nbytes := 0 }
    else .ok kept

/-- `_hold_back`: the state, and the chunks that are still to be read. -/
def holdBack (spillParent : Option String) :
    Hold T M V B → List (Table T M V B) →
      Except Failure (Hold T M V B × List (Table T M V B))
  | hold, [] => .ok (hold, [])
  | hold, chunk :: live =>
      match hold.resolver.observe typeName chunk with
      | .error failure => .error failure
      | .ok resolver =>
          let seen := { hold with resolver := resolver }
          if resolver.resolved then
            .ok ({ seen with pending := seen.pending ++ [chunk] }, live)
          else
            match seen.keep memory caps spillParent chunk with
            | .error failure => .error failure
            | .ok next => holdBack spillParent next live

/-- Chunks that have been observed already. -/
def feedHeld (schema : List (Field T M)) :
    Stream T M V B → List (Table T M V B) → Except Failure (Stream T M V B)
  | stream, [] => .ok stream
  | stream, chunk :: rest =>
      match chunk.cast memory schema with
      | .error failure => .error failure
      | .ok part => feedHeld schema (stream.feed memory caps part) rest

/-- The live chunks. -/
def feedLive (schema : List (Field T M)) :
    Resolver T M → Stream T M V B → List (Table T M V B) → Except Failure (Stream T M V B)
  | _, stream, [] => .ok stream
  | resolver, stream, chunk :: rest =>
      match resolver.observe typeName chunk with
      | .error failure => .error failure
      | .ok next =>
          match chunk.cast memory schema with
          | .error failure => .error failure
          | .ok part => feedLive schema next (stream.feed memory caps part) rest

/-- What `write_batches` gets: the schema and the row groups. -/
structure Written (T M V B : Type) where
  schema : List (Field T M)
  stream : Stream T M V B

/-- `_row_group_batches` -/
def rowGroupBatches (hold : Hold T M V B) (live : List (Table T M V B))
    (schema : List (Field T M)) : Except Failure (Stream T M V B) :=
  match feedHeld memory caps schema (.start hold.stats) (hold.spilled ++ hold.pending) with
  | .error failure => .error failure
  | .ok stream =>
      match feedLive memory caps typeName schema hold.resolver stream live with
      | .error failure => .error failure
      | .ok stream => .ok (stream.flush memory)

/-- `stream_table` -/
def streamTable (spillParent : Option String) (table : String) (fixed : List String)
    (chunks : List (Table T M V B)) : Except Failure (Written T M V B) :=
  match holdBack memory caps typeName spillParent
      (.start ⟨table, fixed, none, [], []⟩) chunks with
  | .error failure => .error failure
  | .ok (hold, live) =>
      if hold.resolver.names.isNone then .error (mismatch table "no chunks to join")
      else
        match rowGroupBatches memory caps typeName hold live hold.resolver.schema with
        | .error failure => .error failure
        | .ok stream => .ok ⟨hold.resolver.schema, stream⟩

end Run

end DecoyEngine.Execution.OutputSink
