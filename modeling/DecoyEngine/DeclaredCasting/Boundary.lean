import DecoyEngine.DeclaredCasting.Ledger

namespace DecoyEngine.DeclaredCasting

open DecoyEngine.Data

/-! The casting boundary (`declared_casting/_boundary.py`).

A table is its list of rows, a row the cells by column name (`none` is a null cell).
Cells, lexemes and rendered texts share one type `V`; parsers and formatters are the
compiled contracts of a column and stay abstract. -/

abbrev Row (V : Type u) := String → Option V

/-- A formatter reports a reason, or raises when its text does not parse back to the value
(`_inverse_checked`). -/
inductive FormatFailure (ρ : Type u) where
  | reason (reason : ρ)
  | notInverse
deriving Repr, DecidableEq

structure CastColumn (V : Type u) (ρ : Type u) where
  name : String
  parse : V → Except ρ V
  fmt : Option (V → Except (FormatFailure ρ) V)
  isSentinel : V → Bool
  policy : Disposition

/-- The compiled plan: each declared table with its columns, no column twice. -/
structure CastPlan (V : Type u) (ρ : Type u) where
  tables : Dict String (List (CastColumn V ρ))
  distinct : ∀ entry ∈ tables.entries, (entry.2.map CastColumn.name).Nodup

def CastPlan.columns {V : Type u} {ρ : Type u} (plan : CastPlan V ρ) (table : String) :
    List (CastColumn V ρ) :=
  (plan.tables.find table).getD []

/-- The columns with an output format, the only ones `format_batch` looks at. -/
def CastPlan.formatColumns {V : Type u} {ρ : Type u} (plan : CastPlan V ρ) (table : String) :
    List (CastColumn V ρ) :=
  (plan.columns table).filter (fun col => col.fmt.isSome)

/-- One cast batch: the typed rows that continue, their absolute source rows, the
absolute row of the batch's first row, and the raw rows of a table that can quarantine. -/
structure CastBatch (V : Type u) where
  rows : List (Row V)
  positions : List Nat
  offset : Nat
  raw : Option (List (Row V))

structure QuarantineEnvelope (V : Type u) (ρ : Type u) where
  table : String
  position : Nat
  reasons : List (ReasonRecord ρ)
  row : Row V

/-- The protected store of a run under its policy.  `lineLength` is the size of an encoded row,
`none` when a cell of it cannot be encoded; `serves` says which writes the system carries out. -/
structure QuarantineStore (V : Type u) (ρ : Type u) where
  maxRows : Nat
  maxBytes : Nat
  lineLength : QuarantineEnvelope V ρ → Option Nat
  opens : Bool
  serves : Nat → Bool

namespace QuarantineStore

variable {V : Type u} {ρ : Type u} (store : QuarantineStore V ρ)

def plainBytes (envelopes : List (QuarantineEnvelope V ρ)) : Nat :=
  (envelopes.map fun envelope => (store.lineLength envelope).getD 0).sum

/-- Why `write_row` raises after the rows in `written`. -/
def refusal (written : List (QuarantineEnvelope V ρ)) (envelope : QuarantineEnvelope V ρ) :
    Option StoreFailure :=
  match store.lineLength envelope with
  | none => some .io
  | some length =>
      if store.maxRows < written.length + 1 ∨
          store.maxBytes < store.plainBytes written + length then some .budget
      else if store.serves written.length then none
      else some .io

end QuarantineStore

/-- The run: its ledger, the whole-table batches, the store with its session (`opened`), and what
went into it. -/
structure CastRun (V : Type u) (ρ : Type u) where
  ledger : CastIssueLedger ρ
  whole : Dict String (CastBatch V)
  store : QuarantineStore V ρ
  opened : Bool
  sink : List (QuarantineEnvelope V ρ)
  written : List (String × Nat)

def CastRun.start {V : Type u} {ρ : Type u} (store : QuarantineStore V ρ) : CastRun V ρ :=
  ⟨CastIssueLedger.empty, Dict.empty, store, false, [], []⟩

section Kernel

variable {V : Type u} {ρ : Type u} (approveRef approveName : String → Option String)

abbrev CellStep (V : Type u) (ρ : Type u) :=
  CastIssueLedger ρ → Nat → Option V → Except (CastRaise ρ) (CastIssueLedger ρ × Option V)

/-- One cell of `_cast_column`: a null stays null, a sentinel is counted and becomes null, and what
the parser refuses is disposed of by the policy of the column and becomes null. -/
def castCell (table : String) (col : CastColumn V ρ) : CellStep V ρ :=
  fun ledger position raw =>
    match raw with
    | none => .ok (ledger, none)
    | some raw =>
        if col.isSentinel raw then .ok (ledger.addSentinel table col.name, none)
        else
          match col.parse raw with
          | .ok value => .ok (ledger, some value)
          | .error reason => do
              let ledger ← ledger.dispose approveRef approveName
                ⟨table, col.name, position, .parse, reason, col.policy⟩
              .ok (ledger, none)

/-- One cell of the rendering loop of `format_batch`. A rendering that does not read back breaks the
contract of the run; every other failure is disposed of by the policy of the column. -/
def formatCell (table : String) (col : CastColumn V ρ) : CellStep V ρ :=
  fun ledger position value =>
    match col.fmt, value with
    -- A column without a format is passed over before its cells are read.
    | none, _ => .ok (ledger, value)
    | some _, none => .ok (ledger, none)
    | some fmt, some value =>
        match fmt value with
        | .ok rendered => .ok (ledger, some rendered)
        | .error .notInverse => .error .contractInvalid
        | .error (.reason reason) => do
            let ledger ← ledger.dispose approveRef approveName
              ⟨table, col.name, position, .format, reason, col.policy⟩
            .ok (ledger, none)

/-- `for i, value in enumerate(values)` over one column. -/
def scanColumn (cell : CellStep V ρ) (ledger : CastIssueLedger ρ) :
    List (Nat × Option V) → Except (CastRaise ρ) (CastIssueLedger ρ × List (Option V))
  | [] => .ok (ledger, [])
  | (position, value) :: rest => do
      let (ledger, out) ← cell ledger position value
      let (ledger, outs) ← scanColumn cell ledger rest
      .ok (ledger, out :: outs)

/-- `for col in cols`, every column read from the batch as it came in. -/
def scanColumns (cell : CastColumn V ρ → CellStep V ρ) (positions : List Nat) (rows : List (Row V))
    (ledger : CastIssueLedger ρ) :
    List (CastColumn V ρ) →
      Except (CastRaise ρ) (CastIssueLedger ρ × List (String × List (Option V)))
  | [] => .ok (ledger, [])
  | col :: cols => do
      let values := positions.zip (rows.map (fun row => row col.name))
      let (ledger, column) ← scanColumn (cell col) ledger values
      let (ledger, replaced) ← scanColumns cell positions rows ledger cols
      .ok (ledger, (col.name, column) :: replaced)

/-- `{n: replaced.get(n, src.column(n)) for n in names}`. -/
def replaceColumns (replaced : List (String × List (Option V))) (rows : List (Row V)) :
    List (Row V) :=
  let columns : Dict String (List (Option V)) := Dict.empty.sets replaced
  rows.zipIdx.map (fun entry name =>
    match columns.find name with
    | some column => (column[entry.2]?).join
    | none => entry.1 name)

/-- The indices of the rows the ledger has quarantined. -/
def droppedRows (ledger : CastIssueLedger ρ) (table : String) (positions : List Nat) : List Nat :=
  positions.zipIdx.filterMap (fun entry =>
    if ledger.isQuarantined table entry.1 then some entry.2 else none)

def keptRows (count : Nat) (dropped : List Nat) : List Nat :=
  (List.range count).filter (fun index => index ∉ dropped)

/-- `Table.take`. -/
def takeRows {α : Type w} (rows : List α) (keep : List Nat) : List α :=
  keep.filterMap (fun index => rows[index]?)

/-- One round of the `_write_rows` loop. -/
def writeRow (table : String) (raw : Option (List (Row V))) (offset : Nat) (run : CastRun V ρ)
    (position : Nat) : Except (CastRaise ρ) (CastRun V ρ) :=
  if (table, position) ∈ run.written then .ok run
  else
    let row := (raw.bind (fun rows => rows[position - offset]?)).getD (fun _ => none)
    let envelope := ⟨table, position, run.ledger.rowReasons table position, row⟩
    match run.store.refusal run.sink envelope with
    | some failure => .error (.quarantineError failure)
    | none =>
        .ok { run with
          written := (table, position) :: run.written
          sink := run.sink ++ [envelope] }

def openSession (run : CastRun V ρ) : Except (CastRaise ρ) (CastRun V ρ) :=
  if run.opened then .ok run
  else if run.store.opens then .ok { run with opened := true }
  else .error (.quarantineError .opening)

def writeRows (run : CastRun V ρ) (table : String) (positions : List Nat)
    (raw : Option (List (Row V))) (offset : Nat) : Except (CastRaise ρ) (CastRun V ρ) := do
  let run ← openSession run
  positions.foldlM (writeRow table raw offset) run

variable (plan : CastPlan V ρ)

/-- `cast_batch`; with `record` off it decides alike on a ledger of its own and leaves the
run alone. -/
def castBatch (run : CastRun V ρ) (table : String) (src : List (Row V)) (offset : Nat)
    (record : Bool) : Except (CastRaise ρ) (CastRun V ρ × CastBatch V) := do
  let cols := plan.columns table
  let ledger := if record then run.ledger else CastIssueLedger.empty
  let positions := List.range' offset src.length
  let (ledger, replaced) ← scanColumns (castCell approveRef approveName table) positions src ledger
    cols
  let run := if record then { run with ledger := ledger } else run
  let typed := replaceColumns replaced src
  let raw := if cols.any (fun col => col.policy = .quarantine) then some src else none
  let dropped := droppedRows ledger table positions
  if dropped = [] then .ok (run, ⟨typed, positions, offset, raw⟩)
  else
    let run ←
      if record then writeRows run table (takeRows positions dropped) raw offset else .ok run
    let keep := keptRows src.length dropped
    .ok (run, ⟨takeRows typed keep, takeRows positions keep, offset, raw⟩)

structure Formatted (V : Type u) (ρ : Type u) where
  run : CastRun V ρ
  rows : List (Row V)
  keep : Option (List Nat)
  batch : CastBatch V

/-- `format_batch`, which also narrows the positions of the batch it was given. -/
def formatBatch (run : CastRun V ρ) (table : String) (out : List (Row V)) (batch : CastBatch V) :
    Except (CastRaise ρ) (Formatted V ρ) := do
  if out = [] then .ok ⟨run, [], none, batch⟩
  else if plan.formatColumns table = [] then .ok ⟨run, out, none, batch⟩
  else
    let positions := batch.positions
    let (ledger, replaced) ← scanColumns (formatCell approveRef approveName table) positions out
      run.ledger (plan.formatColumns table)
    let run := { run with ledger := ledger }
    let formatted := replaceColumns replaced out
    let dropped := droppedRows ledger table positions
    if dropped = [] then .ok ⟨run, formatted, none, batch⟩
    else
      let run ← writeRows run table (takeRows positions dropped) batch.raw batch.offset
      let keep := keptRows out.length dropped
      .ok ⟨run, takeRows formatted keep, some keep,
        { batch with positions := takeRows positions keep }⟩

abbrev Tables (V : Type u) := String → Option (List (Row V))

/-- One table of the `pre_mask` loop. -/
def preMaskTable (sources : Tables V) (state : CastRun V ρ × Tables V) (table : String) :
    Except (CastRaise ρ) (CastRun V ρ × Tables V) :=
  match sources table with
  | none => .ok state
  | some src => do
      let (run, batch) ← castBatch approveRef approveName plan state.1 table src 0 true
      .ok ({ run with whole := run.whole.set table batch },
        Function.update state.2 table (some batch.rows))

def preMask (run : CastRun V ρ) (sources : Tables V) :
    Except (CastRaise ρ) (CastRun V ρ × Tables V) :=
  plan.tables.keys.foldlM (preMaskTable approveRef approveName plan sources) (run, sources)

/-- What `post_mask` returns: formatted outputs, companion sources, kept rows. -/
structure PostMask (V : Type u) (ρ : Type u) where
  run : CastRun V ρ
  outputs : Tables V
  sources : Tables V
  kept : String → Option (List Nat)

/-- One table of the `post_mask` loop: the typed rows that are left are rendered, what fails is
rejected into the sink, and the rest is published. -/
def postMaskTable (outputs sources : Tables V) (state : PostMask V ρ) (table : String) :
    Except (CastRaise ρ) (PostMask V ρ) :=
  match outputs table, state.run.whole.find table with
  | some out, some batch => do
      let formatted ← formatBatch approveRef approveName plan state.run table out batch
      let run :=
        { formatted.run with whole := formatted.run.whole.set table formatted.batch }
      let rendered := Function.update state.outputs table (some formatted.rows)
      match formatted.keep with
      | none => .ok { state with run := run, outputs := rendered }
      | some keep =>
          .ok { run := run
                outputs := rendered
                sources := Function.update state.sources table
                  ((sources table).map (fun rows => takeRows rows keep))
                kept := Function.update state.kept table (some keep) }
  | _, _ => .ok state

def postMask (run : CastRun V ρ) (outputs sources : Tables V) :
    Except (CastRaise ρ) (PostMask V ρ) :=
  plan.tables.keys.foldlM (postMaskTable approveRef approveName plan outputs sources)
    ⟨run, outputs, sources, fun _ => none⟩

/-- One table of `align_sources`: the typed rows that were published, no counting. -/
def alignTable (run : CastRun V ρ) (table : String) (src : List (Row V)) :
    Except (CastRaise ρ) (List (Row V)) := do
  let (_, batch) ← castBatch approveRef approveName plan run table src 0 false
  let keep := batch.positions.zipIdx.filterMap (fun entry =>
    if run.ledger.isQuarantined table entry.1 then none else some entry.2)
  .ok (takeRows batch.rows keep)

/-- One round of the `align_sources` loop. -/
def alignRound (run : CastRun V ρ) (sources outputs out : Tables V) (table : String) :
    Except (CastRaise ρ) (Tables V) :=
  match sources table, outputs table with
  | some src, some _ => do
      let rows ← alignTable approveRef approveName plan run table src
      .ok (Function.update out table (some rows))
  | _, _ => .ok out

def alignSources (run : CastRun V ρ) (sources outputs : Tables V) :
    Except (CastRaise ρ) (Tables V) :=
  plan.tables.keys.foldlM (alignRound approveRef approveName plan run sources outputs) sources

end Kernel

end DecoyEngine.DeclaredCasting
