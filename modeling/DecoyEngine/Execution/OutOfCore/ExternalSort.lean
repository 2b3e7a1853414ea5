import DecoyEngine.Data.Ascending
import DecoyEngine.Data.Batches
import DecoyEngine.Data.PyRepr

namespace DecoyEngine.Execution.OutOfCore

open DecoyEngine.Data

/-! The bounded external sorter (`_external_sort.py`, `_external_sort_bounding.py`,
`_external_sort_run.py`).

A run file is the list of its stored batches.  Rows stay abstract; what the sorter asks of
Arrow about them is the structure `ArrowRows`. -/

inductive ArrowType where
  | boolean
  | integer (bitWidth : Nat) (signed : Bool)
  | floating (bitWidth : Nat)
  | decimal (bitWidth precision : Nat) (scale : Int)
  | date (bitWidth : Nat)
  | time (bitWidth : Nat) (unit : String)
  | timestamp (unit : String) (zone : Option String)
  | duration (unit : String)
  | string
  | largeString
  | binary
  | largeBinary
  | fixedSizeBinary (byteWidth : Nat)
  | list
  | largeList
  | other (name : String)
deriving Repr, DecidableEq

def ArrowType.text : ArrowType → String
  | .boolean => "bool"
  | .integer bitWidth true => s!"int{bitWidth}"
  | .integer bitWidth false => s!"uint{bitWidth}"
  | .floating 16 => "halffloat"
  | .floating 32 => "float"
  | .floating _ => "double"
  | .decimal bitWidth precision scale => s!"decimal{bitWidth}({precision}, {scale})"
  | .date 32 => "date32[day]"
  | .date _ => "date64[ms]"
  | .time bitWidth unit => s!"time{bitWidth}[{unit}]"
  | .timestamp unit none => s!"timestamp[{unit}]"
  | .timestamp unit (some zone) => s!"timestamp[{unit}, tz={zone}]"
  | .duration unit => s!"duration[{unit}]"
  | .string => "string"
  | .largeString => "large_string"
  | .binary => "binary"
  | .largeBinary => "large_binary"
  | .fixedSizeBinary byteWidth => s!"fixed_size_binary[{byteWidth}]"
  | .list => "list"
  | .largeList => "large_list"
  | .other name => name

structure Field where
  name : String
  type : ArrowType
  nullable : Bool
deriving Repr, DecidableEq

abbrev Schema := List Field

def Schema.names (schema : Schema) : List String := schema.map Field.name

/-- The types of the columns under one name, as `batch.column` looks them up. -/
def Schema.columnTypes (schema : Schema) (column : String) : List ArrowType :=
  (schema.filter fun field => field.name = column).map Field.type

/-- The unavoidable bytes of one cell: its width, or its offset entry. -/
def minCellBytes : ArrowType → Nat
  | .boolean => 0
  | .integer bitWidth _ => bitWidth / 8
  | .floating bitWidth => bitWidth / 8
  | .decimal bitWidth _ _ => bitWidth / 8
  | .date bitWidth => bitWidth / 8
  | .time bitWidth _ => bitWidth / 8
  | .timestamp _ _ => 64 / 8
  | .duration _ => 64 / 8
  | .fixedSizeBinary byteWidth => byteWidth
  | .largeBinary | .largeString | .largeList => 8
  | .binary | .string | .list => 4
  | .other _ => 0

def minRowBytes (schema : Schema) : Nat :=
  (schema.map fun field => minCellBytes field.type).sum

def isSupportedKeyType : ArrowType → Bool
  | .integer _ _ | .string | .largeString | .binary | .largeBinary => true
  | .date _ | .timestamp _ _ => true
  | _ => false

def indexBytes : Nat := 8

inductive SortError where
  | capNotPositive (runBytesCap : Int)
  | fanInTooSmall (mergeFanIn : Int)
  | capTooSmallForFanIn (runBytesCap mergeFanIn : Int)
  | keyMissing (column : String) (names : List String)
  | keyAmbiguous (column : String) (count : Nat)
  | keyTypeUnsupported (column : String) (keyType : ArrowType)
  | keyTypeDrift (column : String) (expected found : ArrowType)
  | keyNull (column : String) (nullCount : Nat)
  | rowIndexUnbounded (names : List String) (minRow : Nat)
  | rowTooWide (rowBytes perHeadCapBytes : Nat)
  | writeAfterFinish
  | iterBeforeFinish
  | arrowInvalid (expected found : Schema)
  | schemaUnset
  | fileNotFound
deriving Repr, DecidableEq

/-- The code of an `ExecutionError`.  Arrow's own raises, a failed `assert` and a missing file
carry none. -/
def SortError.code : SortError → Option String
  | .capNotPositive _ | .fanInTooSmall _ | .capTooSmallForFanIn _ _ =>
      some "out_of_core_reorder_budget_too_small"
  | .keyMissing _ _ => some "out_of_core_sort_key_missing"
  | .keyTypeUnsupported _ _ => some "out_of_core_sort_key_type_unsupported"
  | .keyTypeDrift _ _ _ => some "out_of_core_sort_key_type_drift"
  | .keyNull _ _ => some "out_of_core_sort_key_null"
  | .rowIndexUnbounded _ _ => some "out_of_core_sort_row_index_unbounded"
  | .rowTooWide _ _ => some "out_of_core_sort_row_too_wide"
  | .writeAfterFinish | .iterBeforeFinish => some "out_of_core_sort_invalid_state"
  | .keyAmbiguous _ _ | .arrowInvalid _ _ | .schemaUnset | .fileNotFound => none

def SortError.message : SortError → Option String
  | .capNotPositive runBytesCap => some s!"run_bytes_cap must be positive, got {runBytesCap}."
  | .fanInTooSmall mergeFanIn => some s!"merge_fan_in must be >= 2, got {mergeFanIn}."
  | .capTooSmallForFanIn runBytesCap mergeFanIn =>
      some <| s!"run_bytes_cap={runBytesCap} is too small for merge_fan_in={mergeFanIn}: " ++
        "the per-merge-head cap (run_bytes_cap // (2 * merge_fan_in)) rounds to 0 bytes, so " ++
        "no row could ever be buffered. Increase the memory budget."
  | .keyMissing column names =>
      some <| s!"sort key column {pyRepr column} is not in the batch schema {namesText names}."
  | .keyTypeUnsupported column keyType =>
      some <| s!"sort key column {pyRepr column} has type {keyType.text}, which the bounded " ++
        "sorter does not support (supported: integer, string, large_string, binary, " ++
        "large_binary, date, timestamp; float is excluded because NaN has no total order)."
  | .keyTypeDrift column expected found =>
      some <| s!"sort key column {pyRepr column} changed type from {expected.text} to " ++
        s!"{found.text} between batches; the key type must be stable for a well-defined ordering."
  | .keyNull column nullCount =>
      some <| s!"sort key column {pyRepr column} has {nullCount} null value(s); a null key " ++
        "has no place in a total order and would silently drop rows in the merge."
  | .rowIndexUnbounded names minRow =>
      some <| s!"schema {namesText names} admits rows as narrow as {minRow} bytes, under the " ++
        s!"{indexBytes}-byte sort index per row; after the flush sort reorders rows, such rows " ++
        "can cluster into a run batch whose index exceeds the byte cap. The bounded sorter " ++
        s!"requires an effective row width of >= {indexBytes} bytes: widen the key (or carry a " ++
        "fixed payload) so every row clears the sort index."
  | .rowTooWide rowBytes perHeadCapBytes =>
      some <| s!"a single row is {rowBytes} bytes, over the {perHeadCapBytes}-byte " ++
        "per-merge-head cap (run_bytes_cap // (2 * merge_fan_in)); a wider row would make one " ++
        "merge round's co-loaded heads exceed run_bytes_cap. Increase the process memory " ++
        "budget or shrink this column's width."
  | .writeAfterFinish =>
      some "write() called after finish(); the sorter is read-only past that point."
  | .iterBeforeFinish => some "iter_ordered() called before finish(); call finish() first."
  | .keyAmbiguous _ _ | .arrowInvalid _ _ | .schemaUnset | .fileNotFound => none

/-- The byte limits `__init__` accepts. -/
structure SorterLimits where
  runBytesCap : Nat
  mergeFanIn : Nat
  fanInAtLeastTwo : 2 ≤ mergeFanIn
  perHeadPositive : 1 ≤ runBytesCap / (2 * mergeFanIn)

def SorterLimits.perHeadCapBytes (limits : SorterLimits) : Nat :=
  limits.runBytesCap / (2 * limits.mergeFanIn)

def SorterLimits.create (runBytesCap mergeFanIn : Int) : Except SortError SorterLimits :=
  if runBytesCap ≤ 0 then .error (.capNotPositive runBytesCap)
  else if tooNarrow : mergeFanIn < 2 then .error (.fanInTooSmall mergeFanIn)
  else if tooSmall : runBytesCap.toNat / (2 * mergeFanIn.toNat) < 1 then
    .error (.capTooSmallForFanIn runBytesCap mergeFanIn)
  else .ok ⟨runBytesCap.toNat, mergeFanIn.toNat, by omega, by omega⟩

/-- Arrow's kernels on rows.  A row knows the schema of the record batch it stands in; `key`
orders a null after every value, as `sort_by` does; a slice is given by its parent, its offset
and its length. -/
structure ArrowRows (Row κ : Type*) [LinearOrder κ] where
  key : Row → κ
  keyIsNull : Row → Bool
  schema : Row → Schema
  sliceBytes : List Row → Nat → Nat → Nat
  nbytes : List Row → Nat
  sortBy : List Row → List Row
  sortBy_perm : ∀ rows, (sortBy rows).Perm rows
  sortBy_ascending : ∀ rows, Ascending key (sortBy rows)
  -- `combine_chunks().to_batches()`: more than one batch where offsets overflow
  toBatches : List Row → List (List Row)
  toBatches_flatten : ∀ rows, (toBatches rows).flatten = rows

variable {Row κ : Type*} [LinearOrder κ] (arrow : ArrowRows Row κ)

/-- A table or a file takes batches of one schema only; metadata does not count. -/
def checkSchemas (expected : Schema) (batches : List (List Row)) : Except SortError Unit :=
  match (batches.filterMap List.head?).find? fun row => arrow.schema row ≠ expected with
  | none => .ok ()
  | some row => .error (.arrowInvalid expected (arrow.schema row))

/-- What `pa.Table.from_batches` and `pa.concat_tables` ask of their parts. -/
def sameSchema (batches : List (List Row)) : Except SortError Unit :=
  match batches.filterMap List.head? with
  | [] => .ok ()
  | first :: _ => checkSchemas arrow (arrow.schema first) batches

/-- Bisection of the slice at `offset` of `count` rows; `fuel` bounds the recursion depth. -/
def bisectViews (sliceBytes : Nat → Nat → Nat) (maxBytes : Nat) :
    Nat → Nat → Nat → List (Nat × Nat)
  | 0, _, _ => []
  | fuel + 1, offset, count =>
      if count = 0 then []
      else if count = 1 ∨ sliceBytes offset count ≤ maxBytes then [(offset, count)]
      else
        let mid := count / 2
        bisectViews sliceBytes maxBytes fuel offset mid ++
          bisectViews sliceBytes maxBytes fuel (offset + mid) (count - mid)

def slice (rows : List Row) (view : Nat × Nat) : List Row :=
  (rows.drop view.1).take view.2

def iterBoundedViews (batch : List Row) (maxBytes : Nat) : List (List Row) :=
  (bisectViews (arrow.sliceBytes batch) maxBytes batch.length 0 batch.length).map (slice batch)

def boundedBatches (table : List Row) (maxBytes : Nat) : List (List Row) :=
  (arrow.toBatches table).flatMap fun batch => iterBoundedViews arrow batch maxBytes

/-- The batches of `table` as both run writers store them: empty ones are skipped. -/
def storedBatches (table : List Row) (maxBytes : Nat) : List (List Row) :=
  (boundedBatches arrow table maxBytes).filter fun batch => batch ≠ []

abbrev RunFile (Row : Type*) := List (List Row)

/-- The sorter's fields.  `unlinked` tells that a `finish` that raised has merged its first
group already, so that run files `runs` still lists are gone. -/
structure Sorter (Row : Type*) where
  limits : SorterLimits
  sortKeyColumn : String
  buffered : List (List Row)
  bufferedBytes : Nat
  runs : List (RunFile Row)
  unlinked : Bool
  finalRun : Option (RunFile Row)
  finished : Bool
  schema : Option Schema
  keyType : Option ArrowType

namespace Sorter

def init (limits : SorterLimits) (sortKeyColumn : String) : Sorter Row :=
  { limits, sortKeyColumn, buffered := [], bufferedBytes := 0, runs := [],
    unlinked := false, finalRun := none, finished := false, schema := none, keyType := none }

/-- A raise, with the sorter as the raise leaves it. -/
abbrev Raised (Row : Type*) := SortError × Sorter Row

def checkKeyType (sorter : Sorter Row) (found : ArrowType) :
    Except (Raised Row) (Sorter Row) :=
  match sorter.keyType with
  | none =>
      if isSupportedKeyType found then .ok { sorter with keyType := some found }
      else .error (.keyTypeUnsupported sorter.sortKeyColumn found, sorter)
  | some expected =>
      if found ≠ expected then
        .error (.keyTypeDrift sorter.sortKeyColumn expected found, sorter)
      else .ok sorter

def validateKey (sorter : Sorter Row) (schema : Schema) (batch : List Row) :
    Except (Raised Row) (Sorter Row) :=
  match schema.columnTypes sorter.sortKeyColumn with
  | [] => .error (.keyMissing sorter.sortKeyColumn schema.names, sorter)
  | [found] => do
      let sorter ← sorter.checkKeyType found
      let nullCount := batch.countP arrow.keyIsNull
      if 0 < nullCount then .error (.keyNull sorter.sortKeyColumn nullCount, sorter)
      else .ok sorter
  | types => .error (.keyAmbiguous sorter.sortKeyColumn types.length, sorter)

def adoptSchema (sorter : Sorter Row) (schema : Schema) : Except (Raised Row) (Sorter Row) :=
  match sorter.schema with
  | some _ => .ok sorter
  | none =>
      let minRow := minRowBytes schema
      if minRow < indexBytes then .error (.rowIndexUnbounded schema.names minRow, sorter)
      else .ok { sorter with schema := some schema }

/-- `_flush` from the table on: the sorted rows become a run file of their own. -/
def spill (sorter : Sorter Row) : Sorter Row :=
  let sortedTable := arrow.sortBy sorter.buffered.flatten
  let run := storedBatches arrow sortedTable sorter.limits.perHeadCapBytes
  { sorter with buffered := [], bufferedBytes := 0, runs := sorter.runs ++ [run] }

def flush (sorter : Sorter Row) : Except (Raised Row) (Sorter Row) :=
  if sorter.buffered = [] then .ok sorter
  else
    match sameSchema arrow sorter.buffered with
    | .error invalid => .error (invalid, sorter)
    | .ok () => .ok (sorter.spill arrow)

def push (sorter : Sorter Row) (view : List Row) : Sorter Row :=
  { sorter with
    buffered := sorter.buffered ++ [view]
    bufferedBytes := sorter.bufferedBytes + arrow.nbytes view }

def bufferView (sorter : Sorter Row) (view : List Row) : Except (Raised Row) (Sorter Row) :=
  let rowBytes := arrow.nbytes view
  let perHeadCapBytes := sorter.limits.perHeadCapBytes
  if perHeadCapBytes < rowBytes then .error (.rowTooWide rowBytes perHeadCapBytes, sorter)
  else if sorter.buffered ≠ [] ∧
      sorter.limits.runBytesCap < sorter.bufferedBytes + rowBytes then
    (sorter.flush arrow).map fun flushed => flushed.push arrow view
  else .ok (sorter.push arrow view)

def write (sorter : Sorter Row) (batch : List Row) : Except (Raised Row) (Sorter Row) :=
  if sorter.finished then .error (.writeAfterFinish, sorter)
  else
    match batch with
    | [] => .ok sorter
    | row :: _ => do
        let schema := arrow.schema row
        let sorter ← sorter.validateKey arrow schema batch
        let sorter ← sorter.adoptSchema schema
        (iterBoundedViews arrow batch sorter.limits.perHeadCapBytes).foldlM
          (bufferView arrow) sorter

/-- The batches of one stream, written one after the other. -/
def writeAll (sorter : Sorter Row) (batches : List (List Row)) :
    Except (Raised Row) (Sorter Row) :=
  batches.foldlM (write arrow) sorter

end Sorter

/-- One open run during a merge: the stored batches still to be read, and the rows of the
current one that are not emitted yet. -/
structure RunHead (Row : Type*) where
  stored : List (List Row)
  pending : Option (List Row)

namespace RunHead

def openRun (run : RunFile Row) : RunHead Row := ⟨run, none⟩

def isFinalBatch (head : RunHead Row) : Bool := head.stored.isEmpty

def ensureLoaded (head : RunHead Row) : RunHead Row :=
  match head.pending with
  | some (_ :: _) => head
  | _ =>
      match head.stored with
      | [] => { head with pending := none }
      | batch :: rest => ⟨rest, some batch⟩

/-- The greatest pending key; the source asserts that there is one. -/
def maxValue (key : Row → κ) (head : RunHead Row) : Option κ :=
  ((head.pending.getD []).map key).max?

def setRemaining (head : RunHead Row) (remaining : List Row) : RunHead Row :=
  { head with pending := if remaining = [] then none else some remaining }

/-- How many pending rows may be emitted: all of them, or those up to the cutoff. -/
def emitCount (key : Row → κ) (cutoff : Option κ) (pending : List Row) : Nat :=
  match cutoff with
  | none => pending.length
  | some cutoff => pending.countP fun row => key row ≤ cutoff

def emitPart (key : Row → κ) (cutoff : Option κ) (head : RunHead Row) : List Row :=
  match head.pending with
  | none => []
  | some pending => pending.take (emitCount key cutoff pending)

def afterEmit (key : Row → κ) (cutoff : Option κ) (head : RunHead Row) : RunHead Row :=
  match head.pending with
  | none => head
  | some pending => head.setRemaining (pending.drop (emitCount key cutoff pending))

end RunHead

structure Merge (Row : Type*) where
  heads : List (RunHead Row)
  written : RunFile Row

def activeHeads (heads : List (RunHead Row)) : List (RunHead Row) :=
  heads.filter fun head => head.pending.isSome

/-- Only a run with more batches on disk can still produce a smaller key. -/
def mergeCutoff (key : Row → κ) (active : List (RunHead Row)) : Option κ :=
  ((active.filter fun head => !head.isFinalBatch).filterMap (RunHead.maxValue key)).min?

/-- One round of `_merge_heads_into`; `none` once no head has rows left.  `concat_tables` wants
one schema of the active heads, whether they emit rows or not, and the writer wants its own of
every batch. -/
def mergeRound (writerSchema : Schema) (perHeadCapBytes : Nat) (merge : Merge Row) :
    Except SortError (Option (Merge Row)) :=
  let heads := merge.heads.map RunHead.ensureLoaded
  let active := activeHeads heads
  if active.isEmpty then .ok none
  else
    let cutoff := mergeCutoff arrow.key active
    match sameSchema arrow (active.map fun head => head.pending.getD []) with
    | .error invalid => .error invalid
    | .ok () =>
        let combined := arrow.sortBy (active.flatMap (RunHead.emitPart arrow.key cutoff))
        let outBatches := storedBatches arrow combined perHeadCapBytes
        match checkSchemas arrow writerSchema outBatches with
        | .error invalid => .error invalid
        | .ok () =>
            .ok (some
              { heads := heads.map (RunHead.afterEmit arrow.key cutoff)
                written := merge.written ++ outBatches })

def mergeHeadsInto (writerSchema : Schema) (perHeadCapBytes : Nat) :
    Nat → Merge Row → Option (Except SortError (RunFile Row))
  | 0, _ => none
  | fuel + 1, merge =>
      match mergeRound arrow writerSchema perHeadCapBytes merge with
      | .error invalid => some (.error invalid)
      | .ok none => some (.ok merge.written)
      | .ok (some next) => mergeHeadsInto writerSchema perHeadCapBytes fuel next

namespace Sorter

/-- The files of a merged group are unlinked. -/
def unlinkGroup (sorter : Sorter Row) : Sorter Row := { sorter with unlinked := true }

/-- One group of a pass: its merged run, with the group's own files unlinked behind it.  A
group of one run is carried over. -/
def mergeGroup (fuel : Nat) (sorter : Sorter Row) (group : List (RunFile Row)) :
    Option (Except (Raised Row) (Sorter Row × RunFile Row)) :=
  match group with
  | [run] => some (.ok (sorter, run))
  | _ =>
      match sorter.schema with
      | none => some (.error (.schemaUnset, sorter))
      | some schema =>
          match mergeHeadsInto arrow schema sorter.limits.perHeadCapBytes fuel
              ⟨group.map RunHead.openRun, []⟩ with
          | none => none
          | some (.error invalid) => some (.error (invalid, sorter))
          | some (.ok run) => some (.ok (sorter.unlinkGroup, run))

/-- One pass over the groups that are left, with the runs it has so far. -/
def mergeGroups (fuel : Nat) (sorter : Sorter Row) (nextRuns : List (RunFile Row)) :
    List (List (RunFile Row)) → Option (Except (Raised Row) (Sorter Row × List (RunFile Row)))
  | [] => some (.ok (sorter, nextRuns))
  | group :: groups =>
      match sorter.mergeGroup arrow fuel group with
      | none => none
      | some (.error raised) => some (.error raised)
      | some (.ok (merged, run)) => mergeGroups fuel merged (nextRuns ++ [run]) groups

def mergePasses (fuel : Nat) (sorter : Sorter Row) (runs : List (RunFile Row)) :
    Nat → Option (Except (Raised Row) (Sorter Row × List (RunFile Row)))
  | 0 => none
  | passes + 1 =>
      if 1 < runs.length then
        match sorter.mergeGroups arrow fuel [] (rangeSlices sorter.limits.mergeFanIn runs) with
        | none => none
        | some (.error raised) => some (.error raised)
        | some (.ok (merged, nextRuns)) => mergePasses fuel merged nextRuns passes
      else some (.ok (sorter, runs))

/-- The end of `finish`. -/
def sealWith (sorter : Sorter Row) (runs : List (RunFile Row)) : Sorter Row :=
  { sorter with finalRun := runs.head?, finished := true }

/-- `finish`, with `fuel` a bound on the rounds of each of its loops. -/
def finish (fuel : Nat) (sorter : Sorter Row) : Option (Except (Raised Row) (Sorter Row)) :=
  if sorter.finished then some (.ok sorter)
  else
    match sorter.flush arrow with
    | .error raised => some (.error raised)
    | .ok flushed =>
        -- The first group of a second attempt opens a run file that the first one unlinked.
        if flushed.unlinked ∧ 1 < flushed.runs.length then some (.error (.fileNotFound, flushed))
        else
          match flushed.mergePasses arrow fuel flushed.runs fuel with
          | none => none
          | some (.error raised) => some (.error raised)
          | some (.ok (merged, runs)) => some (.ok (merged.sealWith runs))

def iterOrdered (sorter : Sorter Row) : Except SortError (List (List Row)) :=
  if !sorter.finished then .error .iterBeforeFinish
  else
    match sorter.finalRun with
    | none => .ok []
    | some run => .ok run

/-- `close` unlinks every run file and forgets the runs. -/
def close (sorter : Sorter Row) : Sorter Row :=
  { sorter with runs := [], unlinked := false, finalRun := none }

end Sorter

end DecoyEngine.Execution.OutOfCore
