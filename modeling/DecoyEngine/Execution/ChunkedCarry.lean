import DecoyEngine.Execution.ColumnAccess

namespace DecoyEngine.Execution.Carry

open DecoyEngine.Data DecoyEngine.Relationships

/-! Carried passthrough columns (`_chunked_carry.py`). -/

/-- A column: one cell a row, `none` for a null. -/
abbrev Column (V : Type) := List (Option V)

/-- The columns of a pandas frame or of an output, by name. -/
abbrev Frame (V : Type) := Dict String (Column V)

/-- Where the labels of an index level come from: a column of the table, or a count. -/
inductive Labels where
  | column (name : String)
  | range (start step : Int)
deriving Repr, DecidableEq

structure IndexLevel where
  name : Option String
  labels : Labels
deriving Repr, DecidableEq

/-- The row index of the frame that `to_pandas` makes of a table, as its pandas metadata has it:
the levels, and the name of the column axis. A level's column is no column of the frame. -/
structure FrameIndex where
  levels : List IndexLevel
  columnsName : Option String
deriving Repr, DecidableEq

/-- The index of a table without pandas metadata. -/
def FrameIndex.default : FrameIndex := ⟨[⟨none, .range 0 1⟩], none⟩

/-- The columns that the levels take. -/
def FrameIndex.columns (index : FrameIndex) : List String :=
  index.levels.filterMap fun level =>
    match level.labels with
    | .column name => some name
    | .range _ _ => none

/-- A chunk of the table, its columns of one length. -/
structure Chunk (V : Type) where
  rows : Nat
  columns : Frame V
  index : FrameIndex
  even : ∀ name column, columns.find name = some column → column.length = rows

/-- `pa.nulls` -/
def nulls (V : Type) (rows : Nat) : Column V := List.replicate rows none

section Plan

variable (columnRefs : String → Option (List String)) (providerIsComposite : Option String → Bool)
  (nfkc : String → String)

/-- `{c["name"]: c for c in entries}` -/
def configured (entries : List Entry) : Dict String Entry :=
  Dict.empty.sets (entries.map fun entry => (entry.name, entry))

/-- `passthrough_columns` -/
def passthroughColumns (entries : List Entry) (names : List String) : List String :=
  match handlerWrittenColumns columnRefs providerIsComposite nfkc entries with
  | none => []
  | some written => names.filter fun name => name ∉ written &&
      match (configured entries).find name with
      | none => true
      | some entry => entry.strategy = .passthrough && entry.when.isNone

/-- `read_set` -/
def readSet (entries : List Entry) (passthrough : List String) : List String :=
  match touchedColumns columnRefs providerIsComposite nfkc entries with
  | none => passthrough
  | some touched => passthrough.filter fun column => column ∈ touched || nfkc column ∈ touched

/-- `CarryPlan` -/
structure CarryPlan where
  stock : Bool
  carried : List String
  read : List String
deriving Repr, DecidableEq

/-- `plan_carry`; `stock` is `is_stock_adapter(adapter)`. -/
def planCarry (stock : Bool) (entries : List Entry) (names : List String) : CarryPlan :=
  let passthrough := passthroughColumns columnRefs providerIsComposite nfkc entries names
  if !stock || names.dedup.length ≠ names.length then ⟨false, [], sortedNames passthrough⟩
  else
    let read := readSet columnRefs providerIsComposite nfkc entries passthrough
    ⟨true, passthrough.filter fun column => column ∉ read, sortedNames read⟩

end Plan

section Chunks

variable {V : Type}

/-- One column of a table replaced by a column of nulls (the loop body of `profile_input`). -/
def Chunk.blank (chunk : Chunk V) (name : String) : Chunk V :=
  if name ∈ chunk.columns.keys then
    { chunk with
      columns := chunk.columns.set name (nulls V chunk.rows)
      even := by
        intro other column found
        rw [Dict.find_set] at found
        split at found
        · cases found
          exact List.length_replicate
        · exact chunk.even other column found }
  else chunk

/-- `adapter_input` -/
def CarryPlan.adapterInput (plan : CarryPlan) (chunk : Chunk V) : Chunk V :=
  plan.carried.foldl Chunk.blank chunk

/-- The loop body of `reattach`. -/
def reattachColumn (source : Chunk V) (produced : Frame V) (name : String) : Frame V :=
  if name ∈ produced.keys then
    match source.columns.find name with
    | some column => produced.set name column
    | none => produced
  else produced

/-- `reattach` -/
def CarryPlan.reattach (plan : CarryPlan) (produced : Frame V) (source : Chunk V) : Frame V :=
  plan.carried.foldl (reattachColumn source) produced

@[simp] theorem Chunk.rows_blank (chunk : Chunk V) (name : String) :
    (chunk.blank name).rows = chunk.rows := by
  rw [Chunk.blank]
  split <;> rfl

@[simp] theorem Chunk.index_blank (chunk : Chunk V) (name : String) :
    (chunk.blank name).index = chunk.index := by
  rw [Chunk.blank]
  split <;> rfl

theorem keys_set {frame : Frame V} {name : String} (present : name ∈ frame.keys)
    (column : Column V) : (frame.set name column).keys = frame.keys := by
  rw [Dict.set, dif_pos present, Dict.keys, Dict.keys, Dict.replace, List.map_map]
  refine List.map_congr_left fun entry _ => ?_
  simp only [Function.comp_apply]
  split <;> rfl

theorem mem_keys {frame : Frame V} {name : String} :
    name ∈ frame.keys ↔ (frame.find name).isSome := by
  rw [← not_iff_not, ← Dict.find_eq_none, Bool.not_eq_true, Option.isSome_eq_false_iff,
    Option.isNone_iff_eq_none]

theorem Chunk.keys_blank (chunk : Chunk V) (name : String) :
    (chunk.blank name).columns.keys = chunk.columns.keys := by
  rw [Chunk.blank]
  split
  · rename_i present
    exact keys_set present _
  · rfl

theorem Chunk.find_blank (chunk : Chunk V) (name other : String) :
    (chunk.blank name).columns.find other =
      if other = name then (chunk.columns.find other).map fun _ => nulls V chunk.rows
      else chunk.columns.find other := by
  rw [Chunk.blank]
  split
  · rename_i present
    rw [Dict.find_set]
    split
    · rename_i same
      obtain ⟨column, known⟩ := Option.isSome_iff_exists.mp (mem_keys.mp present)
      rw [same, known]
      rfl
    · rfl
  · rename_i absent
    split
    · rename_i same
      rw [same, Dict.find_eq_none.mpr absent]
      rfl
    · rfl

theorem blanked (names : List String) (chunk : Chunk V) :
    (names.foldl Chunk.blank chunk).rows = chunk.rows ∧
      (names.foldl Chunk.blank chunk).index = chunk.index ∧
      (names.foldl Chunk.blank chunk).columns.keys = chunk.columns.keys ∧
      ∀ other, (names.foldl Chunk.blank chunk).columns.find other =
        if other ∈ names then (chunk.columns.find other).map fun _ => nulls V chunk.rows
        else chunk.columns.find other := by
  induction names generalizing chunk with
  | nil => exact ⟨rfl, rfl, rfl, fun other => by simp⟩
  | cons name names ih =>
      obtain ⟨rows, index, keys, find⟩ := ih (chunk.blank name)
      refine ⟨rows.trans (chunk.rows_blank name), index.trans (chunk.index_blank name),
        keys.trans (chunk.keys_blank name), ?_⟩
      intro other
      rw [List.foldl_cons, find, chunk.find_blank, chunk.rows_blank]
      cases chunk.columns.find other <;> by_cases here : other = name <;>
        by_cases later : other ∈ names <;> simp [here, later]

/-- The adapter sees the chunk's columns in their places, the carried ones as nulls, under the
same index. -/
theorem CarryPlan.adapterInput_spec (plan : CarryPlan) (chunk : Chunk V) :
    (plan.adapterInput chunk).rows = chunk.rows ∧
      (plan.adapterInput chunk).index = chunk.index ∧
      (plan.adapterInput chunk).columns.keys = chunk.columns.keys ∧
      ∀ name, (plan.adapterInput chunk).columns.find name =
        if name ∈ plan.carried then (chunk.columns.find name).map fun _ => nulls V chunk.rows
        else chunk.columns.find name :=
  blanked plan.carried chunk

theorem keys_reattachColumn (source : Chunk V) (produced : Frame V) (name : String) :
    (reattachColumn source produced name).keys = produced.keys := by
  rw [reattachColumn]
  split
  · rename_i present
    cases source.columns.find name with
    | none => rfl
    | some column => exact keys_set present column
  · rfl

theorem find_reattachColumn (source : Chunk V) (produced : Frame V) (name other : String) :
    (reattachColumn source produced name).find other =
      if other = name ∧ name ∈ produced.keys ∧ (source.columns.find name).isSome then
        source.columns.find name
      else produced.find other := by
  rw [reattachColumn]
  by_cases present : name ∈ produced.keys
  · rw [if_pos present]
    cases known : source.columns.find name with
    | none => simp
    | some column =>
        simp only [Dict.find_set, present, Option.isSome_some, and_true]
  · rw [if_neg present]
    simp [present]

theorem reattached (names : List String) (source : Chunk V) (produced : Frame V) :
    (names.foldl (reattachColumn source) produced).keys = produced.keys ∧
      ∀ other, (names.foldl (reattachColumn source) produced).find other =
        if other ∈ names ∧ other ∈ produced.keys ∧ (source.columns.find other).isSome then
          source.columns.find other
        else produced.find other := by
  induction names generalizing produced with
  | nil => exact ⟨rfl, fun other => by simp⟩
  | cons name names ih =>
      obtain ⟨keys, find⟩ := ih (reattachColumn source produced name)
      refine ⟨keys.trans (keys_reattachColumn source produced name), ?_⟩
      intro other
      rw [List.foldl_cons, find, keys_reattachColumn, find_reattachColumn]
      by_cases here : other = name
      · subst here
        by_cases both : other ∈ produced.keys ∧ (source.columns.find other).isSome <;>
          by_cases later : other ∈ names <;> simp [later, both]
      · by_cases later : other ∈ names <;> simp [here, later]

theorem CarryPlan.reattach_spec (plan : CarryPlan) (produced : Frame V) (source : Chunk V) :
    (plan.reattach produced source).keys = produced.keys ∧
      ∀ name, (plan.reattach produced source).find name =
        if name ∈ plan.carried ∧ name ∈ produced.keys ∧ (source.columns.find name).isSome then
          source.columns.find name
        else produced.find name :=
  reattached plan.carried source produced

end Chunks

end DecoyEngine.Execution.Carry
