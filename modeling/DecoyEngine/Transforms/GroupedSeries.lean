import DecoyEngine.Data.SortedRuns
import DecoyEngine.Planning.Types

namespace DecoyEngine.Transforms.GroupedSeries

open DecoyEngine.Data (pyRepr namesText)
open DecoyEngine.Planning (PlanCompileError)

/-! Series numbered group by group (`transforms/grouped_series.py`). -/

inductive Generator where
  | cumcount
  | monotoneWalk
deriving Repr, DecidableEq

def Generator.name : Generator → String
  | .cumcount => "cumcount"
  | .monotoneWalk => "monotone_walk"

structure GroupedSeriesConfig where
  groupBy : String
  orderBy : String
  generator : Generator
  start : Int
  step : Int
  maxStep : Int
  stepInRange : 0 ≤ step ∧ step ≤ maxStep

/-- The `provider_config` entries that are read, absent ones as `none`. -/
structure ProviderConfig where
  groupBy : Option String := none
  orderBy : Option String := none
  generator : Option String := none
  start : Option Int := none
  step : Option Int := none
  maxStep : Option Int := none

/-- `cfg.get(key)` when it is truthy. -/
def given : Option String → Option String
  | some "" => none
  | entry => entry

def generatorNamed (generator : String) : Except PlanCompileError Generator :=
  if generator = Generator.cumcount.name then .ok .cumcount
  else if generator = Generator.monotoneWalk.name then .ok .monotoneWalk
  else .error ⟨"grouped_series_generator_invalid", "provider_config.generator",
    "'generator' must be one of " ++
      namesText [Generator.cumcount.name, Generator.monotoneWalk.name] ++
      "; got " ++ pyRepr generator ++ "."⟩

/-- `from_dict`: a configuration with its defaults, or the first of its entries that is refused.
What comes out has its step in range. -/
def GroupedSeriesConfig.fromDict (cfg : ProviderConfig) :
    Except PlanCompileError GroupedSeriesConfig := do
  let some groupBy := given cfg.groupBy
    | .error ⟨"grouped_series_group_by_missing", "provider_config.group_by",
        "'group_by' is required for the grouped_series strategy. " ++
          "Provide the name of the column that partitions rows."⟩
  let some orderBy := given cfg.orderBy
    | .error ⟨"grouped_series_order_by_missing", "provider_config.order_by",
        "'order_by' is required for the grouped_series strategy. " ++
          "Provide the name of the column that sorts rows within each group."⟩
  let generator ← generatorNamed (cfg.generator.getD "cumcount")
  let start := cfg.start.getD (if generator = .cumcount then 0 else 1)
  let step := cfg.step.getD 1
  let maxStep := cfg.maxStep.getD 10
  if inRange : 0 ≤ step ∧ step ≤ maxStep then
    .ok ⟨groupBy, orderBy, generator, start, step, maxStep, inRange⟩
  else
    .error ⟨"grouped_series_step_out_of_range", "provider_config.step",
      s!"'step' ({step}) must be in [0, max_step ({maxStep})]. " ++
        "Both fields are in provider_config."⟩

theorem generatorNamed_ok_iff (generator : String) :
    (∃ kind, generatorNamed generator = .ok kind) ↔ generator ∈ ["cumcount", "monotone_walk"] := by
  rw [generatorNamed, Generator.name, Generator.name]
  split_ifs with counts walks
  · exact iff_of_true ⟨_, rfl⟩ (by simp [counts])
  · exact iff_of_true ⟨_, rfl⟩ (by simp [walks])
  · exact iff_of_false (fun ⟨_, ok⟩ => nomatch ok) (by simp [counts, walks])

/-- A configuration is taken when it names both columns and a known generator and the step is in
range; the steps that it leaves out pass. -/
theorem GroupedSeriesConfig.fromDict_ok_iff (cfg : ProviderConfig) :
    (∃ config, GroupedSeriesConfig.fromDict cfg = .ok config) ↔
      (given cfg.groupBy).isSome ∧ (given cfg.orderBy).isSome ∧
      cfg.generator.getD "cumcount" ∈ ["cumcount", "monotone_walk"] ∧
      0 ≤ cfg.step.getD 1 ∧ cfg.step.getD 1 ≤ cfg.maxStep.getD 10 := by
  rw [← generatorNamed_ok_iff, GroupedSeriesConfig.fromDict]
  cases given cfg.groupBy with
  | none => exact iff_of_false (fun ⟨_, ok⟩ => nomatch ok) (fun ⟨named, _⟩ => nomatch named)
  | some groupBy =>
      cases given cfg.orderBy with
      | none => exact iff_of_false (fun ⟨_, ok⟩ => nomatch ok) (fun ⟨_, named, _⟩ => nomatch named)
      | some orderBy =>
          cases generatorNamed (cfg.generator.getD "cumcount") with
          | error error =>
              exact iff_of_false (fun ⟨_, ok⟩ => nomatch ok) (fun ⟨_, _, ⟨_, known⟩, _⟩ => nomatch known)
          | ok generator =>
              change (∃ config, dite _ _ _ = Except.ok config) ↔ _
              by_cases inRange : 0 ≤ cfg.step.getD 1 ∧ cfg.step.getD 1 ≤ cfg.maxStep.getD 10
              · rw [dif_pos inRange]
                exact iff_of_true ⟨_, rfl⟩ ⟨rfl, rfl, ⟨_, rfl⟩, inRange⟩
              · rw [dif_neg inRange]
                exact iff_of_false (fun ⟨_, ok⟩ => nomatch ok) fun ⟨_, _, _, held⟩ => inRange held

/-- The nulls a group key can be: equal to itself (`None`), not equal to itself (`nan`, `NaT`),
or without a truth value when compared (`pd.NA`). -/
inductive NullKind where
  | none
  | nan
  | nat
  | na
deriving Repr, DecidableEq

inductive Cell (K : Type) where
  | value (key : K)
  | null (kind : NullKind)
deriving Repr, DecidableEq

namespace Cell

variable {K C : Type}

/-- Nulls of every kind are one key, after every other. -/
def sortKey : Cell K → WithTop K
  | value key => key
  | null _ => ⊤

def map (f : K → C) : Cell K → Cell C
  | value key => value (f key)
  | null kind => null kind

def text (label : C → String) : Cell C → String
  | value key => label key
  | null .none => "None"
  | null .nan => "nan"
  | null .nat => "NaT"
  | null .na => "<NA>"

end Cell

structure Row (K O : Type) where
  group : Cell K
  /-- The order value, `⊤` for a null. -/
  order : WithTop O

/-- The two selected columns.  `iterrows` hands a row's cells out in the common dtype of the
frame, where large integer keys can become the same float. -/
structure Frame (K O C : Type) [LinearOrder K] [LinearOrder C] where
  rows : List (Row K O)
  inRow : K → C
  inRow_monotone : Monotone inRow
  /-- `str(g)` -/
  label : C → String

inductive Refusal where
  /-- `ValueError`: the column label is not unique. -/
  | labelNotUnique
  /-- `TypeError`: boolean value of NA is ambiguous. -/
  | ambiguousNA
  /-- `ValueError`: high is out of bounds for int64. -/
  | highOutOfBounds
  /-- `OverflowError`: a Python integer too large for the `int` dtype. -/
  | overflow
deriving Repr, DecidableEq

/-- The streams of `numpy.random.default_rng`, by the group label their seed is derived from. -/
structure Rng where
  State : Type
  defaultRng : String → State
  integers : State → Int → Int → Int × State
  integers_range : ∀ (state : State) (low high : Int), low < high →
    low ≤ (integers state low high).1 ∧ (integers state low high).1 < high

section Loop

variable {K O C S : Type} [LinearOrder K] [LinearOrder O] [LinearOrder C]

/-- `sort_values([group_col, order_col])` of the rows with their positions. -/
def SortsBefore (x y : Row K O × Nat) : Prop :=
  x.1.group.sortKey < y.1.group.sortKey ∨
    x.1.group.sortKey = y.1.group.sortKey ∧ x.1.order ≤ y.1.order

instance : DecidableRel (SortsBefore (K := K) (O := O)) := fun _ _ =>
  inferInstanceAs (Decidable (_ ∨ _))

def sortValues (config : GroupedSeriesConfig) (rows : List (Row K O)) :
    Except Refusal (List (Row K O × Nat)) :=
  if config.groupBy = config.orderBy then .error .labelNotUnique
  else .ok (rows.zipIdx.insertionSort SortsBefore)

/-- `g != current_group`; `none` is the sentinel, which equals nothing. -/
def differs : Option (Cell C) → Cell C → Except Refusal Bool
  | none, _ => .ok true
  | some (.null .na), _ => .error .ambiguousNA
  | some _, .null .na => .error .ambiguousNA
  | some (.value current), .value g => .ok (decide (g ≠ current))
  | some (.null .none), .null .none => .ok false
  | some _, _ => .ok true

/-- What a loop does at the first row of a group, at a row and after it. -/
structure Numbering (C S : Type) where
  first : Cell C → S
  value : S → Int
  next : S → S

def numberRows (numbering : Numbering C S) :
    Option (Cell C) → S → List (Cell C × Nat) → List Int → Except Refusal (List Int)
  | _, _, [], result => .ok result
  | current, state, (g, origPos) :: rest, result => do
      let changed ← differs current g
      let current := if changed then some g else current
      let state := if changed then numbering.first g else state
      numberRows numbering current (numbering.next state) rest
        (result.set origPos (numbering.value state))

/-- `pd.Series(result, dtype=int)` -/
def InInt64 (value : Int) : Prop := -2 ^ 63 ≤ value ∧ value < 2 ^ 63

instance (value : Int) : Decidable (InInt64 value) :=
  inferInstanceAs (Decidable (_ ∧ _))

def series (result : List Int) : Except Refusal (List Int) :=
  if ∀ value ∈ result, InInt64 value then .ok result else .error .overflow

/-- `counter`, from 0 in each group. -/
def cumcount (config : GroupedSeriesConfig) : Numbering C Nat where
  first _ := 0
  value counter := config.start + counter * config.step
  next counter := counter + 1

/-- `cumulative` and `group_rng`. -/
structure Walk (rng : Rng) where
  cumulative : Int
  groupRng : Option rng.State

def monotoneWalk (rng : Rng) (config : GroupedSeriesConfig) (label : C → String) :
    Numbering C (Walk rng) where
  first g := ⟨config.start, some (rng.defaultRng (g.text label))⟩
  value walk := walk.cumulative
  next walk :=
    match walk.groupRng with
    | none => walk
    | some state =>
        let (step, state) := rng.integers state config.step (config.maxStep + 1)
        ⟨walk.cumulative + step, some state⟩

/-- `_apply_cumcount` -/
def applyCumcount (config : GroupedSeriesConfig) (frame : Frame K O C) :
    Except Refusal (List Int) := do
  let sorted ← sortValues config frame.rows
  let cells := sorted.map (fun entry => (entry.1.group.map frame.inRow, entry.2))
  let result ← numberRows (cumcount config) none 0 cells (List.replicate frame.rows.length 0)
  series result

/-- `_apply_monotone_walk`; the first row draws, and its draw refuses a bound outside `int64`. -/
def applyMonotoneWalk (rng : Rng) (config : GroupedSeriesConfig) (frame : Frame K O C) :
    Except Refusal (List Int) := do
  let sorted ← sortValues config frame.rows
  let cells := sorted.map (fun entry => (entry.1.group.map frame.inRow, entry.2))
  if 2 ^ 63 < config.maxStep + 1 then
    .error .highOutOfBounds
  let result ← numberRows (monotoneWalk rng config frame.label) none ⟨config.start, none⟩ cells
    (List.replicate frame.rows.length 0)
  series result

def applyGroupedSeries (rng : Rng) (config : GroupedSeriesConfig) (frame : Frame K O C) :
    Except Refusal (List Int) :=
  if frame.rows.length = 0 then .ok []
  else
    match config.generator with
    | .cumcount => applyCumcount config frame
    | .monotoneWalk => applyMonotoneWalk rng config frame

end Loop

end DecoyEngine.Transforms.GroupedSeries
