import DecoyEngine.Execution.ChunkedCarry
import DecoyEngine.Execution.WorkOrdering

namespace DecoyEngine.Execution.Carry

open DecoyEngine.Data DecoyEngine.Relationships

/-! Masking one chunk: `PandasExecutionAdapter.run` on a table without relationships, with the
`when:` gate (`_when_gate.py`), and the oracle's use of it (`_chunked_oracle.py`). -/

structure Failure where
  code : String
  message : String
deriving Repr, DecidableEq

structure RowError where
  column : String
  rowIndex : Nat
  trigger : String
  reason : String
deriving Repr, DecidableEq

/-- What a handler is called with: its column in the source and in the frame, the sibling it
reads, the number of rows it gets, and their positions under a gate. -/
structure HandlerInput (V : Type) where
  source : Option (Column V)
  own : Option (Column V)
  sibling : Option (Column V)
  rows : Nat
  positions : Option (List Nat)

structure HandlerOutput (V Ctx : Type) where
  column : Column V
  rowErrors : List RowError
  context : Ctx

/-- What pandas evaluates an identifier of a predicate to: a series of cells, a counted series,
the tuples of an index of several levels (equal to no literal), the names of the frame's columns,
or nothing. -/
inductive Operand (V : Type) where
  | cells (column : Column V)
  | range (start step : Int)
  | tuples
  | names (columns : List String)
  | nothing

/-- The code around the adapter: pandas' conversions of a column to the frame, of one to index
labels and of one to the output, its evaluation of a predicate over what its references stand for,
and the strategies' handlers over what they are given. -/
structure Engine (V Ctx : Type) where
  label : String → Column V → Except Failure (Column V)
  ingest : String → Column V → Except Failure (Column V)
  emit : String → Column V → Except Failure (Column V)
  blankLabels : ∀ name rows, ∃ held, label name (nulls V rows) = .ok held
  placeholders : ∀ name rows, ∃ held emitted,
    ingest name (nulls V rows) = .ok held ∧ emit name held = .ok emitted
  evaluate : WhenExpr → List (Operand V) → Nat → Except Failure (List Bool)
  preflight : Entry → Ctx → Except Failure Ctx
  handler : Entry → HandlerInput V → Ctx → Except Failure (HandlerOutput V Ctx)
  widen : Entry → Column V → Column V → List Bool → Except Failure (Column V)
  projection : List String → Except Failure Unit

/-- A table of the config, and what its names mean to the expression parser, the provider
registry, Unicode and pandas; `exactIntegers` are the integer columns that `to_pandas_fk_safe`
assigns to the frame on their own. -/
structure TableRun where
  table : String
  entries : List Entry
  exactIntegers : List String
  columnRefs : String → Option (List String)
  providerIsComposite : Option String → Bool
  nfkc : String → String
  cleanColumnName : String → String

namespace TableRun

variable (run : TableRun)

def plan (names : List String) : CarryPlan :=
  planCarry run.columnRefs run.providerIsComposite run.nfkc true run.entries names

/-- An entry that gets a seed: named, with a strategy, and no faker without a provider. -/
def seeded (entry : Entry) : Bool :=
  entry.name != "" && entry.strategy != .other "" &&
    !(entry.strategy == .faker && entry.provider.getD "" == "")

/-- The fields that ordering reads. -/
def orderingSeed (entry : Entry) : ColumnSeed where
  strategy :=
    match entry.strategy with
    | .jointMask => .jointMask
    | .derived => .derived
    | .groupKey => .groupKey
    | strategy => .other strategy.text
  provider := entry.provider
  coherentWith := entry.coherentWith
  columns := ((entry.providerConfig.get "columns").map Setting.strings).getD []
  expression := ((entry.providerConfig.get "expression").map Setting.printed).getD ""
  groupBy := ((entry.providerConfig.get "group_by").bind Setting.name?).getD ""

def seeds : List Entry := run.entries.filter seeded

def work : List WorkNode :=
  buildWorkList run.providerIsComposite
    [(run.table, ⟨run.seeds.map fun entry => (entry.name, orderingSeed entry), []⟩)]

/-- `order_work(build_work_list(plan, registry), graph)`, each node as its config entry. -/
def nodes : Except Failure (List Entry) :=
  match orderWork run.columnRefs run.work ⟨[], []⟩ none with
  | .error failure => .error ⟨failure.code, failure.message⟩
  | .ok ordered => .ok (ordered.filterMap fun node =>
      (configured run.seeds).find (node.columns.headD ""))

/-- Where a handler finds the sibling it reads: nowhere, in the snapshot taken before any mask,
or in the frame as it is. -/
inductive SiblingRead where
  | nothing
  | snapshot (column : String)
  | live (column : String)
deriving Repr, DecidableEq

/-- `str(provider_config[key])`, when it is set. -/
def reference (entry : Entry) (key : String) : SiblingRead :=
  match entry.providerConfig.get key with
  | none => .nothing
  | some setting => if setting.truthy then .live setting.printed else .nothing

/-- The sibling read of each chunked handler: `date_shift` looks its `group_by` up among the
snapshots, `group_key` and `windowed_date` read the frame under `str` of their setting. -/
def siblingRead (entry : Entry) : SiblingRead :=
  match entry.strategy with
  | .dateShift =>
      match (entry.providerConfig.get "group_by").bind Setting.name? with
      | none => .nothing
      | some column => .snapshot column
  | .groupKey => reference entry "group_by"
  | .windowedDate => reference entry "anchor"
  | _ => .nothing

/-- The handlers that assign their column without reading it. -/
def creates (entry : Entry) : Bool :=
  entry.strategy = .groupKey || entry.strategy = .windowedDate

/-- `date_shift_group_columns` -/
def dateShiftGroupColumns : List String :=
  run.seeds.filterMap fun entry =>
    if entry.strategy = .dateShift then
      (entry.providerConfig.get "group_by").bind Setting.name?
    else none

/-- The columns of the frame of a table with the columns `keys` (`to_pandas_fk_safe`): those that
are no index level, in their order, and an exact integer column also where it is one. -/
def frameColumns (keys : List String) (index : FrameIndex) : List String :=
  run.exactIntegers.foldl (fun names column =>
      if column ∈ keys ∧ column ∉ names then names ++ [column] else names)
    (keys.filter fun name => name ∉ index.columns)

/-- What an identifier of a predicate stands for. -/
inductive Referent where
  | column (name : String)
  | level (name : String)
  | range (start step : Int)
  | tuples
  | columnNames
  | nothing
deriving Repr, DecidableEq

/-- The column of the table whose cells it shows. -/
def Referent.shows : Referent → Option String
  | .column name => some name
  | .level name => some name
  | _ => none

def IndexLevel.referent (level : IndexLevel) : Referent :=
  match level.labels with
  | .column name => .level name
  | .range start step => .range start step

/-- `DataFrame._get_index_resolvers`: each level by its name or number, the whole index, and the
column axis; of two under one name the later counts. -/
def indexResolvers (index : FrameIndex) : List (String × Referent) :=
  (index.levels.mapIdx fun number level =>
    (level.name.getD ("ilevel_" ++ toString number), IndexLevel.referent level)) ++
  [("index", match index.levels with
    | [level] => IndexLevel.referent level
    | _ => .tuples),
   (index.columnsName.getD "clevel_0", .columnNames), ("columns", .columnNames)]

/-- The referent of an identifier (`DataFrame.eval`): of the frame's columns that pandas knows
under that name the last, and the index only where there is none. -/
def resolve (index : FrameIndex) (keys : List String) (identifier : String) : Referent :=
  match keys.reverse.find? fun column => run.cleanColumnName column = identifier with
  | some column => .column column
  | none =>
      match (indexResolvers index).reverse.find? fun resolver =>
        run.cleanColumnName resolver.1 = identifier with
      | some resolver => resolver.2
      | none => .nothing

/-- What a predicate's references stand for. -/
def resolved (index : FrameIndex) (keys : List String) (predicate : WhenExpr) : List Referent :=
  (whenColumnRefs predicate).map fun ref => run.resolve index keys (run.nfkc ref)

end TableRun

section Gate

variable {V : Type}

/-- `selected_positions` -/
def selectedPositions (mask : List Bool) : List Nat :=
  (List.range mask.length).filter fun position => mask.getD position false

/-- `column[mask]` -/
def selectRows (mask : List Bool) (column : Column V) : Column V :=
  ((mask.zip column).filter Prod.fst).map Prod.snd

/-- `df.loc[mask, column] = produced` -/
def stitch : List Bool → Column V → Column V → Column V
  | true :: mask, _ :: base, cell :: produced => cell :: stitch mask base produced
  | true :: mask, _ :: base, [] => none :: stitch mask base []
  | false :: mask, cell :: base, produced => cell :: stitch mask base produced
  | _, base, _ => base

/-- `_remap_gated_row_errors` -/
def remapGatedRowErrors (positions : List Nat) :
    List RowError → Except Failure (List RowError)
  | [] => .ok []
  | error :: errors =>
      match positions[error.rowIndex]? with
      | none => .error ⟨"IndexError", "list index out of range"⟩
      | some position =>
          (remapGatedRowErrors positions errors).map ({ error with rowIndex := position } :: ·)

end Gate

section Run

variable {V Ctx : Type} (engine : Engine V Ctx) (run : TableRun)

structure State (V Ctx : Type) where
  frame : Frame V
  context : Ctx
  rowErrors : List RowError

/-- The parts of a call that no node changes: the rows, the source, the snapshots, and the index
with the labels its columns were converted to. -/
structure Setup (V : Type) where
  rows : Nat
  source : String → Option (Column V)
  snapshots : String → Option (Column V)
  index : FrameIndex
  labels : String → Option (Column V)

def keyError (column : String) : Failure := ⟨"KeyError", column⟩

def sibling (setup : Setup V) (frame : Frame V) (entry : Entry) : Option (Column V) :=
  match TableRun.siblingRead entry with
  | .nothing => none
  | .snapshot column => setup.snapshots column
  | .live column => frame.find column

/-- The value of a referent in the frame as it is. -/
def operand (setup : Setup V) (frame : Frame V) : TableRun.Referent → Operand V
  | .column name => ((frame.find name).map Operand.cells).getD .nothing
  | .level column => ((setup.labels column).map Operand.cells).getD .nothing
  | .range start step => .range start step
  | .tuples => .tuples
  | .columnNames => .names frame.keys
  | .nothing => .nothing

/-- A node without a gate: a passthrough changes nothing, a missing column is a `KeyError`, and else
the handler is given the frame of the chunk and its column is set. -/
def runHandler (setup : Setup V) (state : State V Ctx) (entry : Entry) :
    Except Failure (State V Ctx) :=
  if entry.strategy = .passthrough then .ok state
  else if (state.frame.find entry.name).isNone && !TableRun.creates entry then
    .error (keyError entry.name)
  else
    (engine.handler entry
      { source := setup.source entry.name
        own := state.frame.find entry.name
        sibling := sibling setup state.frame entry
        rows := setup.rows
        positions := none } state.context).map fun output =>
      { frame := state.frame.set entry.name output.column
        context := output.context
        rowErrors := state.rowErrors ++ output.rowErrors }

/-- The column that the produced cells are written into. -/
def stitchBase (setup : Setup V) (state : State V Ctx) (entry : Entry) (produced : Column V)
    (mask : List Bool) : Except Failure (Column V) :=
  match state.frame.find entry.name with
  | none => .ok (nulls V setup.rows)
  | some own => engine.widen entry own produced mask

/-- The handler on the selected rows, and its column stitched back. -/
def runSelected (setup : Setup V) (state : State V Ctx) (context : Ctx) (entry : Entry)
    (mask : List Bool) : Except Failure (State V Ctx) :=
  if entry.strategy = .passthrough then .ok { state with context }
  else if (state.frame.find entry.name).isNone && !TableRun.creates entry then
    .error (keyError entry.name)
  else
    let positions := selectedPositions mask
    (engine.handler entry
      { source := setup.source entry.name
        own := (state.frame.find entry.name).map (selectRows mask)
        sibling := (sibling setup state.frame entry).map (selectRows mask)
        rows := positions.length
        positions := some positions } context).bind fun output =>
    (remapGatedRowErrors positions output.rowErrors).bind fun rowErrors =>
    (stitchBase engine setup state entry output.column mask).map fun base =>
      { frame := state.frame.set entry.name (stitch mask base output.column)
        context := output.context
        rowErrors := state.rowErrors ++ rowErrors }

/-- `run_with_when_gate` -/
def runWithWhenGate (setup : Setup V) (state : State V Ctx) (entry : Entry) :
    Except Failure (State V Ctx) :=
  match entry.when with
  | none => runHandler engine setup state entry
  | some predicate =>
      (engine.preflight entry state.context).bind fun context =>
      (engine.evaluate predicate
        ((run.resolved setup.index state.frame.keys predicate).map (operand setup state.frame))
        setup.rows).bind fun mask =>
      if mask.any id then runSelected engine setup state context entry mask
      else .ok { state with context }

def runNodes (setup : Setup V) : List Entry → State V Ctx → Except Failure (State V Ctx)
  | [], state => .ok state
  | entry :: entries, state =>
      (runWithWhenGate engine run setup state entry).bind (runNodes setup entries)

/-- One pass over the columns `names`, in order (`to_pandas_fk_safe`, `Table.from_pandas`). -/
def convert (change : String → Column V → Except Failure (Column V))
    (columns : String → Option (Column V)) : List String → Frame V → Except Failure (Frame V)
  | [], frame => .ok frame
  | name :: names, frame =>
      match columns name with
      | none => convert change columns names frame
      | some column =>
          (change name column).bind fun changed =>
            convert change columns names (frame.set name changed)

structure Masked (V : Type) where
  outputs : Frame V
  rowErrors : List RowError

def setupOf (chunk : Chunk V) (labels frame : Frame V) : Setup V where
  rows := chunk.rows
  source := chunk.columns.find
  snapshots := fun column =>
    if column ∈ run.dateShiftGroupColumns then frame.find column else none
  index := chunk.index
  labels := labels.find

/-- `adapter.run` on one chunk. -/
def maskChunk (context : Ctx) (chunk : Chunk V) : Except Failure (Masked V) :=
  (convert engine.label chunk.columns.find chunk.index.columns Dict.empty).bind fun labels =>
  (convert engine.ingest chunk.columns.find (run.frameColumns chunk.columns.keys chunk.index)
    Dict.empty).bind fun frame =>
  run.nodes.bind fun nodes =>
  (runNodes engine run (setupOf run chunk labels frame) nodes
    ⟨frame, context, []⟩).bind fun state =>
  (engine.projection state.frame.keys).bind fun _ =>
  (convert engine.emit state.frame.find state.frame.keys Dict.empty).map fun outputs =>
    ⟨outputs, state.rowErrors⟩

/-- `adapter.run` on the chunk with its carried columns as placeholders, and the real ones put
back. -/
def maskCarried (plan : CarryPlan) (context : Ctx) (chunk : Chunk V) :
    Except Failure (Masked V) :=
  (maskChunk engine run context (plan.adapterInput chunk)).map fun masked =>
    { masked with outputs := plan.reattach masked.outputs chunk }

end Run

end DecoyEngine.Execution.Carry
