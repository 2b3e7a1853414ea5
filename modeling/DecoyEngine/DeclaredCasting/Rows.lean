import DecoyEngine.Data.Grid
import DecoyEngine.DeclaredCasting.Boundary
import DecoyEngine.DeclaredCasting.History

namespace DecoyEngine.DeclaredCasting

open DecoyEngine.Data

/-! The kernel visits a batch column by column.  Each stage is restated row by row here: the
events its cells leave, in column order, and the row it turns into. -/

section Cells

variable {V : Type u} {ρ : Type u}

namespace CastColumn

def parseEvent (table : String) (col : CastColumn V ρ) (position : Nat) :
    Option V → Option (CastEvent ρ)
  | none => none
  | some raw =>
      if col.isSentinel raw then some (.sentinel table col.name position)
      else
        match col.parse raw with
        | .ok _ => none
        | .error reason =>
            some (.issue ⟨table, col.name, position, .parse, reason, col.policy⟩)

def parsed (col : CastColumn V ρ) : Option V → Option V
  | none => none
  | some raw => if col.isSentinel raw then none else (col.parse raw).toOption

def formatEvent (table : String) (col : CastColumn V ρ) (position : Nat) (value : Option V) :
    Option (CastEvent ρ) :=
  match col.fmt, value with
  | some fmt, some value =>
      match fmt value with
      | .ok _ => none
      | .error .notInverse => some (.defect table col.name position)
      | .error (.reason reason) =>
          some (.issue ⟨table, col.name, position, .format, reason, col.policy⟩)
  | _, _ => none

def rendered (col : CastColumn V ρ) (value : Option V) : Option V :=
  match col.fmt, value with
  | some fmt, some value => (fmt value).toOption
  | _, _ => value

end CastColumn

/-- A row after every column's value went through `value`. -/
def rowAfter (value : CastColumn V ρ → Option V → Option V) (cols : List (CastColumn V ρ))
    (row : Row V) : Row V :=
  fun name =>
    match cols.find? (fun col => col.name = name) with
    | some col => value col (row name)
    | none => row name

variable {approveRef approveName : String → Option String}

/-- `cell` records `event` and leaves `value`. -/
def Realises (approveRef approveName : String → Option String) (cell : CellStep V ρ)
    (event : Nat → Option V → Option (CastEvent ρ)) (value : Option V → Option V) : Prop :=
  ∀ ledger position raw, cell ledger position raw =
    (recordEvents approveRef approveName ledger (event position raw).toList).map
      (fun ledger => (ledger, value raw))

theorem recordEvents_one (ledger : CastIssueLedger ρ) (event : CastEvent ρ) :
    recordEvents approveRef approveName ledger [event] =
      recordEvent approveRef approveName ledger event := by
  rw [recordEvents, List.foldlM_cons]
  cases recordEvent approveRef approveName ledger event <;> rfl

theorem recordEvents_append (ledger : CastIssueLedger ρ) (before after : List (CastEvent ρ)) :
    recordEvents approveRef approveName ledger (before ++ after) =
      (recordEvents approveRef approveName ledger before >>= fun ledger =>
        recordEvents approveRef approveName ledger after) :=
  List.foldlM_append

theorem castCell_realises (table : String) (col : CastColumn V ρ) :
    Realises approveRef approveName (castCell approveRef approveName table col)
      (col.parseEvent table) col.parsed := by
  intro ledger position raw
  cases raw with
  | none => rfl
  | some raw =>
      simp only [castCell, CastColumn.parseEvent, CastColumn.parsed]
      by_cases sentinel : col.isSentinel raw = true
      · simp only [sentinel, if_true]
        rfl
      · simp only [sentinel, if_false, Bool.false_eq_true]
        cases col.parse raw with
        | ok value => rfl
        | error reason =>
            simp only [Option.toList_some, recordEvents_one, recordEvent]
            cases ledger.dispose approveRef approveName
              ⟨table, col.name, position, .parse, reason, col.policy⟩ <;> rfl

theorem formatCell_realises (table : String) (col : CastColumn V ρ) :
    Realises approveRef approveName (formatCell approveRef approveName table col)
      (col.formatEvent table) col.rendered := by
  intro ledger position value
  simp only [formatCell, CastColumn.formatEvent, CastColumn.rendered]
  cases col.fmt with
  | none => rfl
  | some fmt =>
      cases value with
      | none => rfl
      | some value =>
          simp only
          cases fmt value with
          | ok rendered => rfl
          | error failure =>
              cases failure with
              | notInverse => rfl
              | reason reason =>
                  simp only [Option.toList_some, recordEvents_one, recordEvent]
                  cases ledger.dispose approveRef approveName
                    ⟨table, col.name, position, .format, reason, col.policy⟩ <;> rfl

theorem scanColumn_eq {cell : CellStep V ρ} {event : Nat → Option V → Option (CastEvent ρ)}
    {value : Option V → Option V} (realises : Realises approveRef approveName cell event value)
    (ledger : CastIssueLedger ρ) (cells : List (Nat × Option V)) :
    scanColumn cell ledger cells =
      (recordEvents approveRef approveName ledger
        (cells.filterMap (fun entry => event entry.1 entry.2))).map
        (fun ledger => (ledger, cells.map (fun entry => value entry.2))) := by
  induction cells generalizing ledger with
  | nil => rfl
  | cons entry cells ih =>
      obtain ⟨position, raw⟩ := entry
      have split : ((position, raw) :: cells).filterMap (fun entry => event entry.1 entry.2) =
          (event position raw).toList ++ cells.filterMap (fun entry => event entry.1 entry.2) := by
        rw [List.filterMap_cons]
        cases event position raw <;> rfl
      rw [scanColumn, realises, split, recordEvents_append]
      cases recordEvents approveRef approveName ledger (event position raw).toList with
      | error raise => rfl
      | ok next =>
          simp only [Except.map, bind, Except.bind, ih]
          cases recordEvents approveRef approveName next
            (cells.filterMap (fun entry => event entry.1 entry.2)) <;> rfl

/-- The cell of a stage's grid: a column against a positioned row. -/
def gridCell (event : CastColumn V ρ → Nat → Option V → Option (CastEvent ρ))
    (col : CastColumn V ρ) (entry : Nat × Row V) : Option (CastEvent ρ) :=
  event col entry.1 (entry.2 col.name)

theorem scanColumns_eq {cell : CastColumn V ρ → CellStep V ρ}
    {event : CastColumn V ρ → Nat → Option V → Option (CastEvent ρ)}
    {value : CastColumn V ρ → Option V → Option V}
    (realises : ∀ col, Realises approveRef approveName (cell col) (event col) (value col))
    {positions : List Nat} {rows : List (Row V)} (aligned : positions.length = rows.length)
    (ledger : CastIssueLedger ρ) (cols : List (CastColumn V ρ)) :
    scanColumns cell positions rows ledger cols =
      (recordEvents approveRef approveName ledger
        (gridEntries (gridCell event) cols (positions.zip rows))).map
        (fun ledger => (ledger,
          cols.map (fun col => (col.name, rows.map (fun row => value col (row col.name)))))) := by
  induction cols generalizing ledger with
  | nil => rfl
  | cons col cols ih =>
      have events : (positions.zip (rows.map (fun row => row col.name))).filterMap
          (fun entry => event col entry.1 entry.2) =
          (positions.zip rows).filterMap (gridCell event col) := by
        rw [List.zip_map_right, List.filterMap_map]
        rfl
      have values : (positions.zip (rows.map (fun row => row col.name))).map
          (fun entry => value col entry.2) = rows.map (fun row => value col (row col.name)) := by
        have seconds : (positions.zip (rows.map (fun row => row col.name))).map Prod.snd =
            rows.map (fun row => row col.name) :=
          List.map_snd_zip (by rw [List.length_map, aligned])
        calc (positions.zip (rows.map (fun row => row col.name))).map (fun entry => value col entry.2)
            = ((positions.zip (rows.map (fun row => row col.name))).map Prod.snd).map (value col) :=
              by rw [List.map_map]; rfl
          _ = rows.map (fun row => value col (row col.name)) := by
              rw [seconds, List.map_map]; rfl
      rw [scanColumns, scanColumn_eq (realises col), events, values]
      have grid : gridEntries (gridCell event) (col :: cols) (positions.zip rows) =
          (positions.zip rows).filterMap (gridCell event col) ++
            gridEntries (gridCell event) cols (positions.zip rows) := by
        simp only [gridEntries, List.flatMap_cons]
      rw [grid, recordEvents_append]
      cases recordEvents approveRef approveName ledger
          ((positions.zip rows).filterMap (gridCell event col)) with
      | error raise => rfl
      | ok next =>
          simp only [Except.map, bind, Except.bind, ih]
          cases recordEvents approveRef approveName next
            (gridEntries (gridCell event) cols (positions.zip rows)) <;> rfl

theorem replaceColumns_eq (value : CastColumn V ρ → Option V → Option V)
    {cols : List (CastColumn V ρ)} (distinct : (cols.map CastColumn.name).Nodup)
    (rows : List (Row V)) :
    replaceColumns
        (cols.map (fun col => (col.name, rows.map (fun row => value col (row col.name))))) rows =
      rows.map (rowAfter value cols) := by
  have keys : ((cols.map (fun col =>
      (col.name, rows.map (fun row => value col (row col.name))))).map Prod.fst).Nodup := by
    rw [List.map_map]
    exact distinct
  have unindexed : rows.map (rowAfter value cols) =
      rows.zipIdx.map (fun entry => rowAfter value cols entry.1) := by
    calc rows.map (rowAfter value cols)
        = (rows.zipIdx.map Prod.fst).map (rowAfter value cols) := by rw [List.zipIdx_map_fst]
      _ = rows.zipIdx.map (fun entry => rowAfter value cols entry.1) := by rw [List.map_map]; rfl
  rw [replaceColumns, unindexed]
  refine List.map_congr_left fun entry member => funext fun name => ?_
  have here : rows[entry.2]? = some entry.1 := List.mem_zipIdx_iff_getElem?.mp member
  simp only [Dict.find_sets_empty keys, List.find?_map, rowAfter]
  have sameTest : ((fun entry : String × List (Option V) => decide (entry.1 = name)) ∘
      fun col : CastColumn V ρ =>
        (col.name, rows.map (fun row => value col (row col.name)))) =
      fun col => decide (col.name = name) := rfl
  rw [sameTest]
  cases found : cols.find? (fun col => decide (col.name = name)) with
  | none => rfl
  | some col =>
      have named : col.name = name := by
        have matching := List.find?_some found
        exact of_decide_eq_true matching
      simp only [Option.map_some, List.getElem?_map, here, named, Option.join_some]

/-! Index lists: `take` at the indices a test keeps is a filter. -/

theorem takeRows_indices {α : Type w} (positions : List Nat) (f : Nat → α) (test : Nat → Bool) :
    takeRows (positions.map f)
        ((positions.zipIdx.filter (fun entry => test entry.1)).map Prod.snd) =
      (positions.filter test).map f := by
  have fetched : ∀ entry ∈ positions.zipIdx.filter (fun entry => test entry.1),
      (positions.map f)[entry.2]? = some (f entry.1) := by
    intro entry member
    have here : positions[entry.2]? = some entry.1 :=
      List.mem_zipIdx_iff_getElem?.mp (List.mem_filter.mp member).1
    rw [List.getElem?_map, here]
    rfl
  rw [takeRows, List.filterMap_map]
  calc (positions.zipIdx.filter (fun entry => test entry.1)).filterMap
          ((fun index => (positions.map f)[index]?) ∘ Prod.snd)
      = (positions.zipIdx.filter (fun entry => test entry.1)).filterMap
          (fun entry => some (f entry.1)) := List.filterMap_congr fetched
    _ = ((positions.zipIdx.filter (fun entry => test entry.1)).map Prod.fst).map f := by
        rw [List.filterMap_eq_map', List.map_map]; rfl
    _ = (positions.filter test).map f := by
        congr 1
        have mapped := List.filter_map (f := Prod.fst) (p := test) (l := positions.zipIdx)
        rw [List.zipIdx_map_fst] at mapped
        exact mapped.symm

theorem droppedRows_eq (ledger : CastIssueLedger ρ) (table : String) (positions : List Nat) :
    droppedRows ledger table positions =
      (positions.zipIdx.filter (fun entry => ledger.isQuarantined table entry.1)).map Prod.snd := by
  rw [droppedRows, ← List.filterMap_eq_map', List.filterMap_filter]

theorem keptRows_eq (ledger : CastIssueLedger ρ) (table : String) (positions : List Nat) :
    keptRows positions.length (droppedRows ledger table positions) =
      (positions.zipIdx.filter (fun entry => !ledger.isQuarantined table entry.1)).map Prod.snd := by
  have indices : List.range positions.length = positions.zipIdx.map Prod.snd := by
    rw [List.zipIdx_map_snd, List.range_eq_range']
  rw [keptRows, indices, List.filter_map]
  congr 1
  refine List.filter_congr fun entry member => ?_
  have here : positions[entry.2]? = some entry.1 := List.mem_zipIdx_iff_getElem?.mp member
  have gone : entry.2 ∈ droppedRows ledger table positions ↔
      ledger.isQuarantined table entry.1 = true := by
    rw [droppedRows_eq, List.mem_map]
    constructor
    · rintro ⟨other, kept, same⟩
      obtain ⟨otherIn, quarantined⟩ := List.mem_filter.mp kept
      have there : positions[other.2]? = some other.1 := List.mem_zipIdx_iff_getElem?.mp otherIn
      rw [same, here] at there
      rwa [Option.some.inj there]
    · intro quarantined
      exact ⟨entry, List.mem_filter.mpr ⟨member, quarantined⟩, rfl⟩
  simp only [Function.comp_apply, gone]
  cases ledger.isQuarantined table entry.1 <;> rfl

theorem takeRows_kept {α : Type w} (ledger : CastIssueLedger ρ) (table : String)
    (positions : List Nat) (f : Nat → α) :
    takeRows (positions.map f) (keptRows positions.length (droppedRows ledger table positions)) =
      (positions.filter (fun position => !ledger.isQuarantined table position)).map f := by
  rw [keptRows_eq]
  exact takeRows_indices positions f (fun position => !ledger.isQuarantined table position)

theorem takeRows_dropped (ledger : CastIssueLedger ρ) (table : String) (positions : List Nat) :
    takeRows positions (droppedRows ledger table positions) =
      positions.filter (ledger.isQuarantined table) := by
  have taken := takeRows_indices positions id (ledger.isQuarantined table)
  rw [List.map_id, List.map_id] at taken
  rw [droppedRows_eq]
  exact taken

theorem droppedRows_eq_nil {ledger : CastIssueLedger ρ} {table : String} {positions : List Nat} :
    droppedRows ledger table positions = [] ↔
      positions.filter (ledger.isQuarantined table) = [] := by
  constructor
  · intro none
    rw [← takeRows_dropped, none]
    rfl
  · intro none
    rw [droppedRows_eq, List.map_eq_nil_iff, List.filter_eq_nil_iff]
    intro entry member
    exact List.filter_eq_nil_iff.mp none entry.1 (List.fst_mem_of_mem_zipIdx member)

/-- A scan of the rows at `positions`, with the row of each position given by `rows`. -/
theorem scanColumns_positions {cell : CastColumn V ρ → CellStep V ρ}
    {event : CastColumn V ρ → Nat → Option V → Option (CastEvent ρ)}
    {value : CastColumn V ρ → Option V → Option V}
    (realises : ∀ col, Realises approveRef approveName (cell col) (event col) (value col))
    (positions : List Nat) (rows : Nat → Row V) (ledger : CastIssueLedger ρ)
    (cols : List (CastColumn V ρ)) :
    scanColumns cell positions (positions.map rows) ledger cols =
      (recordEvents approveRef approveName ledger
        (gridEntries (fun col position => event col position (rows position col.name)) cols
          positions)).map
        (fun ledger => (ledger, cols.map (fun col =>
          (col.name, (positions.map rows).map (fun row => value col (row col.name)))))) := by
  have aligned : positions.length = (positions.map rows).length := (List.length_map rows).symm
  have paired : positions.zip (positions.map rows) =
      positions.map (fun position => (position, rows position)) :=
    List.map_prod_left_eq_zip.symm
  rw [scanColumns_eq realises aligned, paired]
  simp only [gridEntries, List.filterMap_map]
  rfl

/-- What a batch does with its rejected rows: nothing without one. -/
def writeRejected (run : CastRun V ρ) (table : String) (rejected : List Nat)
    (raw : Option (List (Row V))) (offset : Nat) : Except (CastRaise ρ) (CastRun V ρ) :=
  if rejected = [] then .ok run else writeRows run table rejected raw offset

theorem filter_not_of_filter_nil {positions : List Nat} {test : Nat → Bool}
    (none : positions.filter test = []) :
    positions.filter (fun position => !test position) = positions := by
  rw [List.filter_eq_self]
  intro position member
  simpa using List.filter_eq_nil_iff.mp none position member

variable (plan : CastPlan V ρ)

theorem CastPlan.columns_distinct (table : String) :
    ((plan.columns table).map CastColumn.name).Nodup := by
  rw [CastPlan.columns]
  cases found : plan.tables.find table with
  | none => exact List.nodup_nil
  | some cols => exact plan.distinct (table, cols) (Dict.mem_entries.mpr found)

theorem CastPlan.formatColumns_distinct (table : String) :
    ((plan.formatColumns table).map CastColumn.name).Nodup :=
  (plan.columns_distinct table).sublist (List.filter_sublist.map CastColumn.name)

/-- The raw rows `cast_batch` keeps. -/
def rawRows (table : String) (src : List (Row V)) : Option (List (Row V)) :=
  if (plan.columns table).any (fun col => col.policy = .quarantine) then some src else none

/-- `cast_batch` records the batch's parse events, writes the rejected rows and goes on
with the rest. -/
theorem castBatch_eq (run : CastRun V ρ) (table : String) (rows : Nat → Row V)
    (offset count : Nat) (record : Bool) :
    castBatch approveRef approveName plan run table ((List.range' offset count).map rows) offset
        record =
      (recordEvents approveRef approveName (if record then run.ledger else CastIssueLedger.empty)
        (gridEntries (fun col position => col.parseEvent table position (rows position col.name))
          (plan.columns table) (List.range' offset count))) >>= fun ledger =>
        let kept := (List.range' offset count).filter
          (fun position => !ledger.isQuarantined table position)
        let raw := rawRows plan table ((List.range' offset count).map rows)
        (if record then
            writeRejected { run with ledger := ledger } table
              ((List.range' offset count).filter (ledger.isQuarantined table)) raw offset
          else .ok run).map fun run =>
          (run, ⟨kept.map (fun position => rowAfter CastColumn.parsed (plan.columns table)
            (rows position)), kept, offset, raw⟩) := by
  have size : (List.range' offset ((List.range' offset count).map rows).length) =
      List.range' offset count := by
    rw [List.length_map, List.length_range']
  rw [castBatch, size, scanColumns_positions (castCell_realises table)]
  cases recordEvents approveRef approveName
      (if record then run.ledger else CastIssueLedger.empty)
      (gridEntries (fun col position => col.parseEvent table position (rows position col.name))
        (plan.columns table) (List.range' offset count)) with
  | error raise => rfl
  | ok ledger =>
      have typed := replaceColumns_eq CastColumn.parsed (plan.columns_distinct table)
        ((List.range' offset count).map rows)
      rw [List.map_map] at typed
      simp only [Except.map, bind, Except.bind, typed]
      by_cases none : droppedRows ledger table (List.range' offset count) = []
      · have rejected := droppedRows_eq_nil.mp none
        rw [if_pos none, filter_not_of_filter_nil rejected, rejected, writeRejected, if_pos rfl]
        cases record <;> rfl
      · have positionsKept := takeRows_kept ledger table (List.range' offset count) id
        rw [List.map_id, List.map_id] at positionsKept
        rw [List.length_map, if_neg none, takeRows_dropped, takeRows_kept, positionsKept,
          writeRejected, if_neg fun rejected => none (droppedRows_eq_nil.mpr rejected)]
        cases record with
        | false => rfl
        | true =>
            simp only [if_true, rawRows]
            cases writeRows { run with ledger := ledger } table
              ((List.range' offset count).filter (ledger.isQuarantined table))
              (rawRows plan table ((List.range' offset count).map rows)) offset <;> rfl

theorem formatBatch_eq (run : CastRun V ρ) (table : String) (rows : Nat → Row V)
    (batch : CastBatch V)
    (clean : batch.positions.filter (run.ledger.isQuarantined table) = []) :
    formatBatch approveRef approveName plan run table (batch.positions.map rows) batch =
      (recordEvents approveRef approveName run.ledger
        (gridEntries (fun col position => col.formatEvent table position (rows position col.name))
          (plan.formatColumns table) batch.positions)) >>= fun ledger =>
        let kept := batch.positions.filter
          (fun position => !ledger.isQuarantined table position)
        (writeRejected { run with ledger := ledger } table
            (batch.positions.filter (ledger.isQuarantined table)) batch.raw batch.offset).map
          fun run =>
            ⟨run, kept.map (fun position => rowAfter CastColumn.rendered
              (plan.formatColumns table) (rows position)),
            if droppedRows ledger table batch.positions = [] then none
            else some (keptRows batch.positions.length
              (droppedRows ledger table batch.positions)),
            { batch with positions := kept }⟩ := by
  rw [formatBatch]
  by_cases empty : batch.positions = []
  · obtain ⟨typed, positions, offset, raw⟩ := batch
    subst empty
    simp [gridEntries, recordEvents, writeRejected, droppedRows, List.flatMap, bind, Except.bind,
      Except.map, pure, Except.pure]
  · have filled : ¬ batch.positions.map rows = [] := fun none =>
      empty (List.map_eq_nil_iff.mp none)
    rw [if_neg filled]
    by_cases unformatted : plan.formatColumns table = []
    · rw [if_pos unformatted, unformatted]
      simp only [gridEntries, List.flatMap_nil, recordEvents, List.foldlM_nil, pure, Except.pure,
        bind, Except.bind, Except.map, droppedRows_eq_nil.mpr clean,
        filter_not_of_filter_nil clean, clean, writeRejected, if_true]
      rfl
    · rw [if_neg unformatted]
      simp only [scanColumns_positions (formatCell_realises table)]
      cases recordEvents approveRef approveName run.ledger
          (gridEntries (fun col position => col.formatEvent table position
            (rows position col.name)) (plan.formatColumns table) batch.positions) with
      | error raise => rfl
      | ok ledger =>
          have rendered := replaceColumns_eq CastColumn.rendered
            (plan.formatColumns_distinct table) (batch.positions.map rows)
          rw [List.map_map] at rendered
          simp only [Except.map, bind, Except.bind, rendered]
          by_cases none : droppedRows ledger table batch.positions = []
          · have rejected := droppedRows_eq_nil.mp none
            rw [if_pos none, if_pos none, filter_not_of_filter_nil rejected, rejected,
              writeRejected, if_pos rfl]
            rfl
          · have positionsKept := takeRows_kept ledger table batch.positions id
            rw [List.map_id, List.map_id] at positionsKept
            rw [List.length_map, if_neg none, if_neg none, takeRows_dropped, takeRows_kept,
              positionsKept, writeRejected,
              if_neg fun rejected => none (droppedRows_eq_nil.mpr rejected)]
            cases writeRows { run with ledger := ledger } table
              (batch.positions.filter (ledger.isQuarantined table)) batch.raw batch.offset <;> rfl

end Cells

end DecoyEngine.DeclaredCasting
