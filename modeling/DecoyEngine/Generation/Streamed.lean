import DecoyEngine.Generation.BudgetLedger
import Mathlib.Algebra.Order.Ring.Rat
import Mathlib.Data.Rat.Cast.Order

namespace DecoyEngine.Generation.Budget

open DecoyEngine.Data (pyRepr)

/-! The generation core (`_streamed.py`) as its ledger sees it: the preflight figures of a plan,
and the reservations of a run with everything that can be raised between them. -/

/-- A `locale` value; `other` is what is neither a text nor falsy. -/
inductive Locale where
  | text (value : String)
  | other
deriving Repr, DecidableEq

structure Column where
  name : String
  type : String
  fakerType : Option String
  locale : Option Locale
  optedOut : Bool
  referenceTable : String
  referenceColumn : String
deriving Repr, DecidableEq

structure Table where
  name : String
  rowCount : Nat
  columns : List Column
deriving Repr, DecidableEq

/-- The width bounds of the columns. -/
abbrev Bounds := String × String → Option Nat

def poolEligibleFakerTypes : List String :=
  ["first_name", "last_name", "name", "prefix", "suffix", "city", "state", "country", "job",
    "company"]

/-- The locales each further type is certified in. -/
def poolEligibleLocales : List (List String × List String) :=
  [(["administrative_unit", "bs", "catch_phrase", "city_suffix", "company_suffix", "country_code",
      "current_country", "first_name_female", "first_name_male", "first_name_nonbinary",
      "job_female", "job_male", "last_name_female", "last_name_male", "last_name_nonbinary",
      "name_female", "name_male", "name_nonbinary", "prefix_female", "prefix_male",
      "prefix_nonbinary", "street_name", "street_suffix", "suffix_female", "suffix_male",
      "suffix_nonbinary"], ["de_DE", "en_GB", "en_US", "es_ES", "fr_FR"]),
    (["city_prefix"], ["en_GB", "en_US", "fr_FR"]),
    (["military_state", "state_abbr"], ["en_US"])]

def nThreshold : Nat := 50000

def poolEligible (fakerType : String) (requestedLocale : Option Locale) (rows : Nat)
    (optedOut : Bool) : Bool :=
  if optedOut || rows < nThreshold then false
  else if poolEligibleFakerTypes.contains fakerType then true
  else
    let certified := fun locale : String => poolEligibleLocales.any fun entry =>
      entry.1.contains fakerType && entry.2.contains locale
    match requestedLocale with
    | none => certified "en_US"
    | some (.text locale) => certified locale
    | some .other => false

/-- `col.get("locale") or instance_default_locale` -/
def requestedLocale (column : Column) (instanceDefault : Option Locale) : Option Locale :=
  match column.locale with
  | none => instanceDefault
  | some (.text "") => instanceDefault
  | some locale => some locale

def Column.pooled (column : Column) (instanceDefault : Option Locale) (rows : Nat) : Bool :=
  column.type == "faker" && poolEligible (column.fakerType.getD "word")
    (requestedLocale column instanceDefault) rows column.optedOut

def strObjectOverheadBytes : Nat := 57

def batchBufferBytes (payloads : List Nat) (batchRows : Nat) : Nat :=
  batchRows * (payloads.map fun payload => 3 * (payload + strObjectOverheadBytes) + 16).sum

def sinkBufferBytes (payloads : List Nat) (batchRows : Nat) : Nat :=
  batchRows * (payloads.map (· + 16)).sum

def accumulatorBytes (rows : Nat) (payloads : List Nat) : Nat :=
  rows * (payloads.map (· + 12)).sum

def fakerPoolBytes (poolSize payload : Nat) : Nat :=
  poolSize * (strObjectOverheadBytes + payload) * 3 / 2 + 80 * 1024

def keyPoolBytes (parentRows keyPayload : Nat) : Nat :=
  parentRows * (keyPayload + strObjectOverheadBytes + (8 + 72))

def defaultPoolSize : Nat := 10000

/-- One table's batch layout. -/
structure Layout where
  maxBatch : Nat
  bookkeepingBytes : Nat
deriving Repr, DecidableEq

/-- `_make_layout`; a supplied partition is checked and counted. -/
def makeLayout (name : String) (rows batchRows : Nat) (partition : Option (List Int)) :
    Except Failure Layout :=
  match partition with
  | none => .ok ⟨min rows batchRows, 0⟩
  | some sizes =>
      if (sizes.any (· < 0)) || sizes.sum != rows then
        .error (.valueError
          ("partition for table " ++ pyRepr name ++ " does not cover " ++ toString rows ++ " rows"))
      else .ok ⟨(sizes.foldl max 0).toNat, sizes.length * 36⟩

/-- A table of the plan with its layout. -/
structure Planned where
  table : Table
  layout : Layout

def makeLayouts (batchRows : Nat) (partition : Option (String → Nat → List Int)) :
    List Table → Except Failure (List Planned)
  | [] => .ok []
  | table :: rest =>
      match makeLayout table.name table.rowCount batchRows
          (partition.map fun sizes => sizes table.name table.rowCount) with
      | .error failure => .error failure
      | .ok layout =>
          match makeLayouts batchRows partition rest with
          | .error failure => .error failure
          | .ok planned => .ok (⟨table, layout⟩ :: planned)

variable (bounds : Bounds) (instanceDefault : Option Locale)

def boundOf (table : Table) (column : Column) : Nat :=
  (bounds (table.name, column.name)).getD 0

/-- `_payloads` -/
def payloads (table : Table) : List Nat := table.columns.map (boundOf bounds table)

/-- `_referenced_keys` -/
def referencedKeys (tables : List Planned) : List (String × String) :=
  tables.flatMap fun planned => planned.table.columns.filterMap fun column =>
    if column.type == "reference" then some (column.referenceTable, column.referenceColumn)
    else none

/-- The key pools of a table, by column. -/
def keyPools (referenced : List (String × String)) (table : Table) : List (Column × Nat) :=
  (table.columns.filter fun column => referenced.contains (table.name, column.name)).map
    fun column => (column, keyPoolBytes table.rowCount (boundOf bounds table column))

/-- `_pooled_columns`, with the charge of each. -/
def fakerPools (table : Table) : List (Column × Nat) :=
  (table.columns.filter fun column => column.pooled instanceDefault table.rowCount).map
    fun column => (column, fakerPoolBytes defaultPoolSize (boundOf bounds table column))

/-- `_Plan` -/
structure Plan where
  keyPools : Nat
  accumulators : Nat
  stagePeak : Nat
  sinkPeak : Nat
  layouts : Nat

def Plan.streamingPeak (plan : Plan) : Nat :=
  plan.layouts + plan.keyPools + plan.stagePeak + plan.sinkPeak

def Plan.residentPeak (plan : Plan) : Nat :=
  plan.layouts + plan.keyPools + plan.accumulators + plan.stagePeak

def Planned.batchBytes (planned : Planned) : Nat :=
  batchBufferBytes (payloads bounds planned.table) planned.layout.maxBatch

def Planned.sinkBytes (planned : Planned) : Nat :=
  sinkBufferBytes (payloads bounds planned.table) planned.layout.maxBatch

def Planned.accumulatorBytes (planned : Planned) : Nat :=
  Budget.accumulatorBytes planned.table.rowCount (payloads bounds planned.table)

def Planned.poolBytes (planned : Planned) : Nat :=
  ((fakerPools bounds instanceDefault planned.table).map Prod.snd).sum

def Planned.keyBytes (referenced : List (String × String)) (planned : Planned) : Nat :=
  ((keyPools bounds referenced planned.table).map Prod.snd).sum

/-- `_preflight` -/
def preflight (tables : List Planned) (layouts : Nat) : Plan :=
  tables.foldl (fun plan planned =>
    { plan with
      keyPools := plan.keyPools + planned.keyBytes bounds (referencedKeys tables)
      accumulators := plan.accumulators + planned.accumulatorBytes bounds
      stagePeak := max plan.stagePeak
        (planned.batchBytes bounds + planned.poolBytes bounds instanceDefault)
      sinkPeak := max plan.sinkPeak (planned.sinkBytes bounds) }) ⟨0, 0, 0, 0, layouts⟩

/-- `need * (1 + _fit_band())` as the floats compute it, which is never under `need`. -/
structure FitBand where
  widen : Nat → ℚ
  le_widen : ∀ need : Nat, (need : ℚ) ≤ widen need

/-- `_fits` -/
def fits (band : FitBand) (ledger : Ledger) (need : Nat) : Bool :=
  match ledger.remainingBytes with
  | none => true
  | some remaining => decide (band.widen need < remaining)

/-- What a run does to its ledger, step by step. A pool build is under way between its
reservation and its answer. -/
inductive Command where
  | holdRun (stage : String) (nbytes : Nat)
  | holdStage (stage : String) (nbytes : Nat)
  | build (stage : String) (nbytes : Nat)
  | consume
  | closeStage
deriving Repr, DecidableEq

/-- One table of `generate`. -/
def tableCommands (referenced : List (String × String)) (streamIt : Bool) (planned : Planned) :
    List Command :=
  ((keyPools bounds referenced planned.table).map fun entry =>
      .holdRun ("parent_key_pool:" ++ planned.table.name ++ "." ++ entry.1.name) entry.2) ++
    [.holdStage ("batch_buffers:" ++ planned.table.name) (planned.batchBytes bounds)] ++
    (if streamIt then
      [.holdStage ("sink_buffer:" ++ planned.table.name) (planned.sinkBytes bounds)]
    else [.holdRun ("accumulator:" ++ planned.table.name) (planned.accumulatorBytes bounds)]) ++
    ((fakerPools bounds instanceDefault planned.table).map fun entry =>
      .build ("faker_pool_build:" ++ planned.table.name ++ "." ++ entry.1.name) entry.2) ++
    [.consume, .closeStage]

/-- `generate` -/
def commands (tables : List Planned) (layoutBytes : Nat) (streamIt : Bool) : List Command :=
  (if layoutBytes = 0 then [] else [.holdRun "partition_layout" layoutBytes]) ++
    tables.flatMap (tableCommands bounds instanceDefault (referencedKeys tables) streamIt)

/-- A run: the reservations on its two exit stacks, last in first, the one of a pool that is being
built, and what is left to do. -/
structure Config where
  ledger : Ledger
  runStack : List Nat
  stageStack : List Nat
  building : Option Nat
  todo : List Command
  raised : Option Failure

/-- What happens at a step: it goes on, the pool build declines, or something is raised. -/
inductive Choice where
  | proceed
  | decline
  | raise
deriving Repr, DecidableEq

/-- The exception leaves both blocks; a pool being built is forgotten. -/
def Config.fail (config : Config) (failure : Failure) : Config :=
  { config with building := none, todo := [], raised := some failure }

/-- The next callback of the exit stacks. -/
def Config.unwind (config : Config) : Config :=
  match config.stageStack, config.runStack with
  | id :: rest, _ => { config with ledger := config.ledger.release id, stageStack := rest }
  | [], id :: rest => { config with ledger := config.ledger.release id, runStack := rest }
  | [], [] => config

/-- One step of a run. A pool under construction ends, is declined or raises; else the next command
reserves, consumes or closes; and a run without commands gives back what it still holds. -/
def step (config : Config) (choice : Choice) : Config :=
  match config.building, config.todo, choice with
  | some _, _, .raise => config.fail .foreign
  | some id, _, .decline => { config with ledger := config.ledger.release id, building := none }
  | some id, _, .proceed => { config with stageStack := id :: config.stageStack, building := none }
  | none, [], _ => config.unwind
  | none, _ :: _, .raise => config.fail .foreign
  | none, .holdRun stage nbytes :: rest, _ =>
      match config.ledger.reserve stage nbytes with
      | .error failure => config.fail failure
      | .ok (ledger, id) =>
          { config with ledger := ledger, runStack := id :: config.runStack, todo := rest }
  | none, .holdStage stage nbytes :: rest, _ =>
      match config.ledger.reserve stage nbytes with
      | .error failure => config.fail failure
      | .ok (ledger, id) =>
          { config with ledger := ledger, stageStack := id :: config.stageStack, todo := rest }
  | none, .build stage nbytes :: rest, _ =>
      match config.ledger.reserve stage nbytes with
      | .error failure => config.fail failure
      | .ok (ledger, id) => { config with ledger := ledger, building := some id, todo := rest }
  | none, .consume :: rest, _ => { config with todo := rest }
  | none, .closeStage :: rest, _ =>
      match config.stageStack with
      | id :: more => { config with ledger := config.ledger.release id, stageStack := more }
      | [] => { config with todo := rest }

def execute (config : Config) (choices : List Choice) : Config := choices.foldl step config

/-- The run is over. -/
def Config.done (config : Config) : Prop :=
  config.building = none ∧ config.todo = [] ∧ config.stageStack = [] ∧ config.runStack = []

def missingBounds (tables : List Table) : List String :=
  tables.flatMap fun table => (table.columns.filter fun column =>
    (bounds (table.name, column.name)).isNone).map fun column => table.name ++ "." ++ column.name

/-- Without a ceiling no bounds are computed. -/
def effectiveBounds (ledger : Ledger) : Bounds :=
  if ledger.bounded then bounds else fun _ => none

/-- The choice of the mode: whether the run streams, and the run. -/
def admitPlan (band : FitBand) (ledger : Ledger) (boundedSink : Bool) (planned : List Planned) :
    Except Failure (Bool × Config) :=
  let layoutBytes := (planned.map fun entry => entry.layout.bookkeepingBytes).sum
  let plan := preflight bounds instanceDefault planned layoutBytes
  let streamIt := boundedSink && fits band ledger plan.streamingPeak
  if !streamIt && !fits band ledger plan.residentPeak then
    .error (.budgetExceeded "generation_budget_exceeded"
      ("resident generation needs " ++ toString plan.residentPeak ++ " bytes at most; " ++
        toString (ledger.remainingBytes.getD 0) ++ " remain under the ceiling."))
  else
    .ok (streamIt, ⟨ledger, [], [], none,
      commands bounds instanceDefault planned layoutBytes streamIt, none⟩)

/-- `run_generation` of an eligible plan, up to the first reservation. -/
def runGeneration (band : FitBand) (ledger : Ledger) (boundedSink : Bool) (batchRows : Nat)
    (partition : Option (String → Nat → List Int)) (tables : List Table) :
    Except Failure (Bool × Config) :=
  let missing := if ledger.bounded then missingBounds bounds tables else []
  if !missing.isEmpty then
    .error (.unbounded "generation_column_unbounded"
      ("no defensible value-width bound under a bounded ceiling for column(s): " ++
        String.intercalate ", " (missing.mergeSort fun left right => decide (left ≤ right))))
  else
    match makeLayouts batchRows partition tables with
    | .error failure => .error failure
    | .ok planned =>
        admitPlan (effectiveBounds bounds ledger) instanceDefault band ledger boundedSink planned

end DecoyEngine.Generation.Budget
