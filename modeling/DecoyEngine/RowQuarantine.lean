import DecoyEngine.Data.Dict
import DecoyEngine.Data.Text

namespace DecoyEngine.RowQuarantine

open DecoyEngine.Data

/-! Row quarantine (`quarantine.py` and the finalisation in `execution/_pipeline_finalize.py`).
Cells are Python objects; `text` is the object of a string. -/

/-- An Arrow table: columns of one length under distinct names. -/
structure Table (V : Type u) where
  columns : List (String × List V)
  numRows : Nat
  distinct : (columns.map Prod.fst).Nodup
  aligned : ∀ column ∈ columns, column.2.length = numRows

structure ValidatorFinding where
  validator : String
  table : String
  column : Option String
  failingRowIndices : List Nat
  detail : String

structure ValidationReport where
  passed : Bool
  validatorsRun : List String
  findings : List ValidatorFinding

structure RowErrorRecord where
  table : String
  column : String
  rowIndex : Nat
  trigger : String
  reason : String
deriving DecidableEq

/-- `_WorklistItem` -/
structure WorklistItem where
  table : String
  rowIndex : Nat
  trigger : String
  reason : String
deriving DecidableEq

/-- `_normalize_worklist` -/
def normalizeWorklist (report : Option ValidationReport) (rowErrors : List RowErrorRecord)
    (triggers : List String) : List WorklistItem :=
  (match report with
    | some report =>
        if "validation_fail" ∈ triggers then
          report.findings.flatMap fun finding => finding.failingRowIndices.map fun rowIdx =>
            ⟨finding.table, rowIdx, "validation_fail", finding.detail⟩
        else []
    | none => []) ++
  (rowErrors.filter fun record => record.trigger ∈ triggers).map fun record =>
    ⟨record.table, record.rowIndex, record.trigger, record.reason⟩

/-- The elements of a list at the positions that a mask keeps. -/
def keepAt {α : Type u} (keep : Nat → Bool) (xs : List α) : List α :=
  (xs.zipIdx.filter fun entry => keep entry.2).map Prod.fst

theorem length_keepAt {α : Type u} (keep : Nat → Bool) (xs : List α) :
    (keepAt keep xs).length = (List.range xs.length).countP keep := by
  have positions : xs.zipIdx.map Prod.snd = List.range xs.length := by
    rw [List.zipIdx_map_snd, List.range_eq_range']
  rw [keepAt, List.length_map, ← List.countP_eq_length_filter, ← positions, List.countP_map]
  rfl

/-- `table.filter(keep_mask)` -/
def Table.filter {V : Type u} (table : Table V) (keep : Nat → Bool) : Table V where
  columns := table.columns.map fun column => (column.1, keepAt keep column.2)
  numRows := (List.range table.numRows).countP keep
  distinct := by
    rw [List.map_map]
    exact table.distinct
  aligned := by
    intro column member
    obtain ⟨source, inside, rfl⟩ := List.mem_map.mp member
    rw [length_keepAt, table.aligned source inside]

section Compute

variable {V : Type u} (text : String → V)

/-- What quarantine records of a row besides its cells. -/
def bookkeeping (item : WorklistItem) : List (String × String) :=
  [("_quarantine_trigger", item.trigger), ("_quarantine_reason", item.reason),
    ("_source_table", item.table)]

/-- The cells of a row by column name; `none` is the `IndexError` of a row that is not there. -/
def rowCells (table : Table V) (rowIndex : Nat) : Option (List (String × V)) :=
  table.columns.mapM fun column => (column.2[rowIndex]?).map fun cell => (column.1, cell)

/-- `row_data`: the cells, then the bookkeeping keys. -/
def rowData (table : Table V) (item : WorklistItem) : Option (Dict String V) :=
  (rowCells table item.rowIndex).map fun cells =>
    (Dict.empty.sets cells).sets ((bookkeeping item).map fun entry => (entry.1, text entry.2))

def WorklistItem.key (item : WorklistItem) : String × Nat := (item.table, item.rowIndex)

/-- `rows_to_remove[table].add(row_index)` -/
def addRow (rows : Dict String (List Nat)) (item : WorklistItem) : Dict String (List Nat) :=
  rows.set item.table (((rows.find item.table).getD []).insert item.rowIndex)

/-- What the worklist loop has collected. -/
structure Scan (V : Type u) where
  entries : List (Dict String V)
  countsByTrigger : Dict String Nat
  seenRows : List (String × Nat)
  rowsToRemove : Dict String (List Nat)

def Scan.start : Scan V := ⟨[], Dict.empty, [], Dict.empty⟩

local instance rowKey_lawful : LawfulBEq (String × Nat) := inferInstance

def Scan.step (outputs : Dict String (Table V)) (scan : Scan V) (item : WorklistItem) :
    Option (Scan V) :=
  match outputs.find item.table with
  | none => some scan
  | some table =>
      let counts := scan.countsByTrigger.add item.trigger 1
      let rows := addRow scan.rowsToRemove item
      if item.key ∈ scan.seenRows then some ⟨scan.entries, counts, scan.seenRows, rows⟩
      else
        (rowData text table item).map fun entry =>
          ⟨scan.entries ++ [entry], counts, scan.seenRows ++ [item.key], rows⟩

structure Quarantined (V : Type u) where
  filteredOutputs : Dict String (Table V)
  entries : List (Dict String V)
  countsByTrigger : Dict String Nat
  total : Nat

/-- The tables without the rows to remove. -/
def removeRows (outputs : Dict String (Table V)) (rows : Dict String (List Nat)) :
    Dict String (Table V) :=
  outputs.mapValues fun name table =>
    match rows.find name with
    | none => table
    | some [] => table
    | some badRows => table.filter fun i => i ∉ badRows

def computeQuarantine (outputs : Dict String (Table V)) (report : Option ValidationReport)
    (rowErrors : List RowErrorRecord) (triggers : List String) : Option (Quarantined V) :=
  ((normalizeWorklist report rowErrors triggers).foldlM (Scan.step text outputs) Scan.start).map
    fun scan => ⟨removeRows outputs scan.rowsToRemove, scan.entries, scan.countsByTrigger,
      scan.seenRows.length⟩

def quarantineRowMask (outputs : Dict String (Table V)) (report : Option ValidationReport)
    (rowErrors : List RowErrorRecord) (triggers : List String) : Dict String (List Nat) :=
  (normalizeWorklist report rowErrors triggers).foldl (fun rows item =>
    if (outputs.find item.table).isSome then addRow rows item else rows) Dict.empty

theorem rowCells_inside {table : Table V} {rowIndex : Nat} (inside : rowIndex < table.numRows) :
    ∃ cells, rowCells table rowIndex = some cells ∧
      cells.map Prod.fst = table.columns.map Prod.fst ∧
      ∀ column ∈ table.columns, ∃ cell,
        column.2[rowIndex]? = some cell ∧ (column.1, cell) ∈ cells := by
  have aligned := table.aligned
  unfold rowCells
  generalize table.columns = columns at aligned ⊢
  induction columns with
  | nil => exact ⟨[], rfl, rfl, by simp⟩
  | cons column columns ih =>
      obtain ⟨cells, read, names, found⟩ := ih fun other member => aligned other (by simp [member])
      have within : rowIndex < column.2.length := by
        rw [aligned column (by simp)]
        exact inside
      have here := List.getElem?_eq_getElem within
      refine ⟨(column.1, column.2[rowIndex]) :: cells, ?_, by simp [names], ?_⟩
      · rw [List.mapM_cons, here, read]
        rfl
      · intro other member
        rcases List.mem_cons.mp member with rfl | member
        · exact ⟨_, here, List.mem_cons_self⟩
        · obtain ⟨cell, at_, inCells⟩ := found other member
          exact ⟨cell, at_, List.mem_cons_of_mem _ inCells⟩

theorem bookkeeping_distinct (item : WorklistItem) :
    (((bookkeeping item).map fun entry => (entry.1, text entry.2)).map Prod.fst).Nodup := by
  simp [bookkeeping]

theorem rowData_bookkeeping {table : Table V} {item : WorklistItem} {entry : Dict String V}
    (built : rowData text table item = some entry) :
    ∀ field ∈ bookkeeping item, entry.find field.1 = some (text field.2) := by
  intro field member
  obtain ⟨cells, -, rfl⟩ := Option.map_eq_some_iff.mp built
  rw [Dict.find_sets, Dict.find_reverse_of_nodup (bookkeeping_distinct text item), List.find?_map]
  simp only [bookkeeping, List.mem_cons, List.not_mem_nil, or_false] at member ⊢
  rcases member with rfl | rfl | rfl
  · rfl
  · rfl
  · rfl

theorem rowData_cell {table : Table V} {item : WorklistItem} {entry : Dict String V}
    (inside : item.rowIndex < table.numRows) (built : rowData text table item = some entry)
    {column : String × List V} (member : column ∈ table.columns)
    (free : ∀ field ∈ bookkeeping item, field.1 ≠ column.1) :
    entry.find column.1 = column.2[item.rowIndex]? := by
  obtain ⟨cells, read, names, found⟩ := rowCells_inside inside
  rw [rowData, read] at built
  obtain rfl := Option.some.inj built
  have distinct : (cells.map Prod.fst).Nodup := names ▸ table.distinct
  have unrecorded : ((bookkeeping item).map fun field => (field.1, text field.2)).find?
      (fun entry => entry.1 = column.1) = none := by
    rw [List.find?_eq_none]
    intro entry inFields
    obtain ⟨field, known, rfl⟩ := List.mem_map.mp inFields
    exact fun same => free field known (of_decide_eq_true same)
  rw [Dict.find_sets, Dict.find_reverse_of_nodup (bookkeeping_distinct text item), unrecorded,
    Option.map_none, Option.none_or]
  obtain ⟨cell, here, inCells⟩ := found column member
  have entries : ((Dict.empty : Dict String V).sets cells).entries = cells :=
    Dict.entries_sets distinct
  rw [here, ← Dict.mem_entries, entries]
  exact inCells

theorem rowData_inside {table : Table V} {item : WorklistItem}
    (inside : item.rowIndex < table.numRows) : ∃ entry, rowData text table item = some entry := by
  obtain ⟨cells, read, -⟩ := rowCells_inside inside
  exact ⟨_, by rw [rowData, read, Option.map_some]⟩

theorem mem_addRow (rows : Dict String (List Nat)) (item : WorklistItem) (name : String) (i : Nat) :
    i ∈ ((addRow rows item).find name).getD [] ↔
      i ∈ (rows.find name).getD [] ∨ (name, i) = item.key := by
  rw [addRow, Dict.find_set]
  by_cases here : name = item.table
  · subst here
    rw [if_pos rfl, Option.getD_some, List.mem_insert_iff, WorklistItem.key, Prod.mk.injEq, or_comm]
    simp
  · rw [if_neg here, WorklistItem.key, Prod.mk.injEq]
    simp [here]

/-- An entry is built from the first hit of its row. -/
def Recorded (outputs : Dict String (Table V)) (hits : List WorklistItem) (key : String × Nat)
    (entry : Dict String V) : Prop :=
  ∃ table item, outputs.find key.1 = some table ∧
    hits.find? (fun item => item.key = key) = some item ∧ rowData text table item = some entry

/-- The loop after some items. -/
structure Follows (outputs : Dict String (Table V)) (hits : List WorklistItem) (scan : Scan V) :
    Prop where
  distinct : scan.seenRows.Nodup
  seen : ∀ key, key ∈ scan.seenRows ↔
    ∃ item ∈ hits, (outputs.find item.table).isSome = true ∧ item.key = key
  removed : ∀ name i, i ∈ (scan.rowsToRemove.find name).getD [] ↔ (name, i) ∈ scan.seenRows
  counts : scan.countsByTrigger.total = hits.countP fun item => (outputs.find item.table).isSome
  entries : List.Forall₂ (Recorded text outputs hits) scan.seenRows scan.entries

variable {text} in
theorem Recorded.later {outputs : Dict String (Table V)} {hits : List WorklistItem}
    {key : String × Nat} {entry : Dict String V} (recorded : Recorded text outputs hits key entry)
    (item : WorklistItem) : Recorded text outputs (hits ++ [item]) key entry := by
  obtain ⟨table, first, known, found, built⟩ := recorded
  exact ⟨table, first, known, by rw [List.find?_append, found, Option.some_or], built⟩

theorem follows_start (outputs : Dict String (Table V)) :
    Follows text outputs [] (Scan.start : Scan V) where
  distinct := List.nodup_nil
  seen key := by simp [Scan.start]
  removed name i := by simp [Scan.start]
  counts := rfl
  entries := .nil

theorem step_follows {outputs : Dict String (Table V)} {hits : List WorklistItem} {scan : Scan V}
    (follows : Follows text outputs hits scan) (item : WorklistItem)
    (inside : ∀ table, outputs.find item.table = some table → item.rowIndex < table.numRows) :
    ∃ next, Scan.step text outputs scan item = some next ∧
      Follows text outputs (hits ++ [item]) next := by
  have later := follows.entries.imp fun _ _ recorded => recorded.later item
  cases known : outputs.find item.table with
  | none =>
      refine ⟨scan, by rw [Scan.step, known], follows.distinct, ?_, follows.removed, ?_, later⟩
      · intro key
        rw [follows.seen key]
        simp [known, or_and_right, exists_or]
      · rw [List.countP_append, follows.counts]
        simp [known]
  | some table =>
      have counted : (scan.countsByTrigger.add item.trigger 1).total =
          (hits ++ [item]).countP fun item => (outputs.find item.table).isSome := by
        rw [Dict.total_add, List.countP_append, follows.counts]
        simp [known]
      have members : ∀ key, (key ∈ scan.seenRows ∨ key = item.key) ↔
          ∃ hit ∈ hits ++ [item], (outputs.find hit.table).isSome = true ∧ hit.key = key := by
        intro key
        rw [follows.seen key, eq_comm (a := key)]
        simp [known, or_and_right, exists_or]
      by_cases repeated : item.key ∈ scan.seenRows
      · have same : ∀ key, key ∈ scan.seenRows ↔ key ∈ scan.seenRows ∨ key = item.key := by
          intro key
          constructor
          · exact .inl
          · intro either
            rcases either with before | rfl
            · exact before
            · exact repeated
        refine ⟨⟨scan.entries, scan.countsByTrigger.add item.trigger 1, scan.seenRows,
          addRow scan.rowsToRemove item⟩, ?_, follows.distinct, ?_, ?_, counted, later⟩
        · rw [Scan.step, known]
          simp only [if_pos repeated]
        · intro key
          rw [← members key]
          exact same key
        · intro name i
          rw [mem_addRow, follows.removed]
          exact (same (name, i)).symm
      · obtain ⟨entry, built⟩ := rowData_inside text (inside table known)
        have first : (hits ++ [item]).find? (fun hit => hit.key = item.key) = some item := by
          have absent : hits.find? (fun hit => hit.key = item.key) = none := by
            rw [List.find?_eq_none]
            intro hit member matching
            have same : hit.key = item.key := of_decide_eq_true matching
            have sameTable : hit.table = item.table := congrArg Prod.fst same
            refine repeated ((follows.seen _).mpr ⟨hit, member, ?_, same⟩)
            rw [sameTable, known, Option.isSome_some]
          rw [List.find?_append, absent, Option.none_or]
          simp
        refine ⟨⟨scan.entries ++ [entry], scan.countsByTrigger.add item.trigger 1,
          scan.seenRows ++ [item.key], addRow scan.rowsToRemove item⟩, ?_, ?_, ?_, ?_, counted, ?_⟩
        · rw [Scan.step, known]
          simp only [if_neg repeated, built, Option.map_some]
        · rw [List.nodup_append]
          refine ⟨follows.distinct, List.nodup_singleton _, ?_⟩
          intro key before other last same
          rw [List.mem_singleton.mp last] at same
          exact repeated (same ▸ before)
        · intro key
          rw [← members key, List.mem_append, List.mem_singleton]
        · intro name i
          rw [mem_addRow, follows.removed, List.mem_append, List.mem_singleton]
        · exact List.rel_append later (.cons ⟨table, item, known, first, built⟩ .nil)

theorem run_follows {outputs : Dict String (Table V)} (hits : List WorklistItem)
    (inside : ∀ item ∈ hits, ∀ table, outputs.find item.table = some table →
      item.rowIndex < table.numRows) :
    ∃ scan, hits.foldlM (Scan.step text outputs) Scan.start = some scan ∧
      Follows text outputs hits scan := by
  induction hits using List.reverseRecOn with
  | nil => exact ⟨_, rfl, follows_start text outputs⟩
  | append_singleton hits item ih =>
      obtain ⟨scan, ran, follows⟩ := ih fun other member =>
        inside other (List.mem_append_left _ member)
      obtain ⟨next, stepped, nextFollows⟩ := step_follows text follows item
        (inside item (List.mem_append_right _ (List.mem_singleton_self item)))
      refine ⟨next, ?_, nextFollows⟩
      rw [List.foldlM_append, ran]
      simpa using stepped

theorem keepAt_all {α : Type u} {keep : Nat → Bool} {xs : List α}
    (all : ∀ i < xs.length, keep i = true) : keepAt keep xs = xs := by
  have every : xs.zipIdx.filter (fun entry => keep entry.2) = xs.zipIdx := by
    refine List.filter_eq_self.mpr fun entry member => all entry.2 ?_
    exact (List.getElem?_eq_some_iff.mp (List.mem_zipIdx_iff_getElem?.mp member)).1
  rw [keepAt, every, List.zipIdx_map_fst]

/-- The removed rows of one table are as many as the indices that are not kept. -/
theorem removed_count {keys : List (String × Nat)} (distinct : keys.Nodup) (name : String)
    {numRows : Nat} (inside : ∀ i, (name, i) ∈ keys → i < numRows) :
    (List.range numRows).countP (fun i => (name, i) ∉ keys) +
      (keys.filter fun key => key.1 = name).length = numRows := by
  have same : ((List.range numRows).filter fun i => (name, i) ∈ keys).Perm
      ((keys.filter fun key => key.1 = name).map Prod.snd) := by
    have nodup : ((keys.filter fun key => key.1 = name).map Prod.snd).Nodup := by
      refine (distinct.filter _).map_on fun first inFirst second inSecond same => ?_
      have firstName : first.1 = name := of_decide_eq_true (List.mem_filter.mp inFirst).2
      have secondName : second.1 = name := of_decide_eq_true (List.mem_filter.mp inSecond).2
      exact Prod.ext (firstName.trans secondName.symm) same
    rw [List.perm_ext_iff_of_nodup (List.nodup_range.filter _) nodup]
    intro i
    rw [List.mem_filter, List.mem_range, decide_eq_true_eq, List.mem_map]
    constructor
    · intro both
      exact ⟨(name, i), List.mem_filter.mpr ⟨both.2, decide_eq_true rfl⟩, rfl⟩
    · intro found
      obtain ⟨key, member, rfl⟩ := found
      obtain ⟨inKeys, here⟩ := List.mem_filter.mp member
      have present : (name, key.2) ∈ keys := of_decide_eq_true here ▸ inKeys
      exact ⟨inside _ present, present⟩
  have count := same.length_eq
  rw [List.length_map, ← List.countP_eq_length_filter] at count
  rw [← count]
  have both := List.length_eq_countP_add_countP (fun i => decide ((name, i) ∈ keys))
    (l := List.range numRows)
  simp only [List.length_range, decide_eq_true_eq, decide_not] at both ⊢
  omega

/-- What quarantine does with the rows, apart from the cells of its entries: `keys` are the removed
rows in the order of their first hits. -/
structure RowsQuarantined (outputs : Dict String (Table V)) (hits : List WorklistItem)
    (mask : Dict String (List Nat)) (result : Quarantined V) (keys : List (String × Nat)) :
    Prop where
  distinct : keys.Nodup
  affected : ∀ key, key ∈ keys ↔
    ∃ item ∈ hits, (outputs.find item.table).isSome = true ∧ item.key = key
  recorded : List.Forall₂ (fun key entry => ∃ item,
    hits.find? (fun item => item.key = key) = some item ∧
      ∀ field ∈ bookkeeping item, entry.find field.1 = some (text field.2)) keys result.entries
  tables : result.filteredOutputs.keys = outputs.keys
  kept : ∀ name table, outputs.find name = some table →
    ∃ left, result.filteredOutputs.find name = some left ∧
      left.columns = table.columns.map (fun column =>
        (column.1, keepAt (fun i => (name, i) ∉ keys) column.2)) ∧
      left.numRows + (keys.filter fun key => key.1 = name).length = table.numRows
  total : result.total = keys.length
  marked : ∀ name i, i ∈ (mask.find name).getD [] ↔ (name, i) ∈ keys
  counts : result.countsByTrigger.total = hits.countP fun item => (outputs.find item.table).isSome

/-- Each entry has every cell of its row. -/
def CarriesCells (outputs : Dict String (Table V)) (keys : List (String × Nat))
    (entries : List (Dict String V)) : Prop :=
  List.Forall₂ (fun key entry => ∀ table, outputs.find key.1 = some table →
    ∀ column ∈ table.columns, entry.find column.1 = column.2[key.2]?) keys entries

/-- The cells of a removed row under a bookkeeping key already are what is recorded there: what
the first hit of the row says. -/
def BookkeepingAgrees (outputs : Dict String (Table V)) (hits : List WorklistItem) : Prop :=
  ∀ item, hits.find? (fun other => other.key = item.key) = some item →
    ∀ table, outputs.find item.table = some table → ∀ column ∈ table.columns,
      ∀ field ∈ bookkeeping item, field.1 = column.1 →
        column.2[item.rowIndex]? = some (text field.2)

section Removal

variable {text} {outputs : Dict String (Table V)} {hits : List WorklistItem}

theorem removeRows_kept {rows : Dict String (List Nat)} {keys : List (String × Nat)}
    (removed : ∀ name i, i ∈ (rows.find name).getD [] ↔ (name, i) ∈ keys) (distinct : keys.Nodup)
    {name : String} {table : Table V} (known : outputs.find name = some table)
    (inside : ∀ i, (name, i) ∈ keys → i < table.numRows) :
    ∃ left, (removeRows outputs rows).find name = some left ∧
      left.columns = table.columns.map (fun column =>
        (column.1, keepAt (fun i => (name, i) ∉ keys) column.2)) ∧
      left.numRows + (keys.filter fun key => key.1 = name).length = table.numRows := by
  have counted := removed_count distinct name inside
  have untouched : (∀ i, (name, i) ∉ keys) → table.columns = table.columns.map (fun column =>
      (column.1, keepAt (fun i => (name, i) ∉ keys) column.2)) ∧
        table.numRows + (keys.filter fun key => key.1 = name).length = table.numRows := by
    intro none
    have all : ∀ i, decide ((name, i) ∉ keys) = true := fun i => decide_eq_true (none i)
    refine ⟨?_, ?_⟩
    · refine ((List.map_congr_left fun column _ => ?_).trans (List.map_id _)).symm
      rw [keepAt_all fun i _ => all i]
      rfl
    · have nothing : (keys.filter fun key => key.1 = name) = [] := by
        refine List.filter_eq_nil_iff.mpr fun key member here => none key.2 ?_
        exact of_decide_eq_true here ▸ member
      rw [nothing, List.length_nil, Nat.add_zero]
  rw [removeRows, Dict.find_mapValues, known, Option.map_some]
  have here := removed name
  cases bad : rows.find name with
  | none =>
      rw [bad] at here
      exact ⟨table, rfl, untouched fun i member => by simpa using (here i).mpr member⟩
  | some badRows =>
      rw [bad, Option.getD_some] at here
      cases badRows with
      | nil => exact ⟨table, rfl, untouched fun i member => by simpa using (here i).mpr member⟩
      | cons first others =>
          have sameKeep : (fun i => decide (i ∉ first :: others)) =
              fun i => decide ((name, i) ∉ keys) := by
            funext i
            rw [decide_eq_decide, here i]
          refine ⟨_, rfl, ?_, ?_⟩
          · simp only [Table.filter, sameKeep]
          · simp only [Table.filter, sameKeep]
            exact counted

theorem mask_follows (outputs : Dict String (Table V)) (hits : List WorklistItem) (name : String)
    (i : Nat) :
    i ∈ ((hits.foldl (fun rows item =>
        if (outputs.find item.table).isSome then addRow rows item else rows)
          Dict.empty).find name).getD [] ↔
      ∃ item ∈ hits, (outputs.find item.table).isSome = true ∧ item.key = (name, i) := by
  induction hits using List.reverseRecOn with
  | nil => simp
  | append_singleton hits item ih =>
      rw [List.foldl_append, List.foldl_cons, List.foldl_nil]
      by_cases present : (outputs.find item.table).isSome = true
      · rw [if_pos present, mem_addRow, ih, eq_comm (a := (name, i))]
        simp [present, or_and_right, exists_or]
      · rw [if_neg present, ih]
        simp [present, or_and_right, exists_or]

theorem rowsQuarantined {scan : Scan V} (follows : Follows text outputs hits scan)
    (inside : ∀ item ∈ hits, ∀ table, outputs.find item.table = some table →
      item.rowIndex < table.numRows) :
    RowsQuarantined text outputs hits
      (hits.foldl (fun rows item =>
        if (outputs.find item.table).isSome then addRow rows item else rows) Dict.empty)
      ⟨removeRows outputs scan.rowsToRemove, scan.entries, scan.countsByTrigger,
        scan.seenRows.length⟩ scan.seenRows where
  distinct := follows.distinct
  affected := follows.seen
  recorded := follows.entries.imp fun _ _ recorded => by
    obtain ⟨table, item, -, first, built⟩ := recorded
    exact ⟨item, first, rowData_bookkeeping text built⟩
  tables := Dict.keys_mapValues _ _
  kept name table known := by
    refine removeRows_kept follows.removed follows.distinct known fun i member => ?_
    obtain ⟨item, inHits, -, same⟩ := (follows.seen _).mp member
    obtain ⟨rfl, rfl⟩ := Prod.mk.inj same
    exact inside item inHits table known
  total := rfl
  marked name i := (mask_follows outputs hits name i).trans (follows.seen (name, i)).symm
  counts := follows.counts

end Removal

structure QuarantineConfig where
  enabled : Bool
  outputPath : String
  triggers : List String

inductive FinalizeError where
  -- `ValidatorFailedError`
  | validatorFailed
  -- `RowErrorsFailedError`
  | rowErrorsFailed (uncovered : List RowErrorRecord)
  | noOutputPath (rows : Nat)
  | indexError
deriving DecidableEq

/-- The quarantine pass of `finalize_validators_and_quarantine`, its report at hand: the outputs
and the removed rows. -/
def finalizeQuarantine (outputs : Dict String (Table V)) (report : Option ValidationReport)
    (config : QuarantineConfig) (maskRowErrors : List RowErrorRecord) :
    Except FinalizeError (Dict String (Table V) × Dict String (List Nat)) :=
  let validatorFailed := report.any fun report => !report.passed
  if !validatorFailed && maskRowErrors = [] then .ok (outputs, Dict.empty)
  else
    let validationCovered :=
      config.enabled && validatorFailed && decide ("validation_fail" ∈ config.triggers)
    let covered := maskRowErrors.filter fun record =>
      config.enabled && decide (record.trigger ∈ config.triggers)
    let uncovered := maskRowErrors.filter fun record => record ∉ covered
    if validatorFailed && !validationCovered then .error .validatorFailed
    else if uncovered ≠ [] then .error (.rowErrorsFailed uncovered)
    else if validationCovered || covered ≠ [] then
      match computeQuarantine text outputs report maskRowErrors config.triggers with
      | none => .error .indexError
      | some result =>
          if result.entries ≠ [] ∧ strip config.outputPath.toList = [] then
            .error (.noOutputPath result.entries.length)
          else
            .ok (result.filteredOutputs,
              quarantineRowMask outputs report maskRowErrors config.triggers)
    else .ok (outputs, Dict.empty)

/-- The rows are partitioned, and every entry has the cells of its row. -/
def Quarantines (outputs : Dict String (Table V)) (report : Option ValidationReport)
    (rowErrors : List RowErrorRecord) (triggers : List String) : Prop :=
  ∃ result keys, computeQuarantine text outputs report rowErrors triggers = some result ∧
    RowsQuarantined text outputs (normalizeWorklist report rowErrors triggers)
      (quarantineRowMask outputs report rowErrors triggers) result keys ∧
    CarriesCells outputs keys result.entries

theorem forall₂_both {α : Type u} {β : Type v} {R S : α → β → Prop} {xs : List α} {ys : List β}
    (first : List.Forall₂ R xs ys) (second : List.Forall₂ S xs ys) {x : α} (member : x ∈ xs) :
    ∃ y, R x y ∧ S x y := by
  induction first with
  | nil => cases member
  | cons here rest ih =>
      cases second with
      | cons hereToo restToo =>
          rcases List.mem_cons.mp member with rfl | later
          · exact ⟨_, here, hereToo⟩
          · exact ih restToo later

section Partition

variable {outputs : Dict String (Table V)} {report : Option ValidationReport}
  {rowErrors : List RowErrorRecord} {triggers : List String}

theorem compute_follows
    (inside : ∀ item ∈ normalizeWorklist report rowErrors triggers, ∀ table,
      outputs.find item.table = some table → item.rowIndex < table.numRows) :
    ∃ scan, Follows text outputs (normalizeWorklist report rowErrors triggers) scan ∧
      computeQuarantine text outputs report rowErrors triggers =
        some ⟨removeRows outputs scan.rowsToRemove, scan.entries, scan.countsByTrigger,
          scan.seenRows.length⟩ := by
  obtain ⟨scan, ran, follows⟩ := run_follows text _ inside
  exact ⟨scan, follows, by rw [computeQuarantine, ran, Option.map_some]⟩

variable {text}

theorem carriesCells {hits : List WorklistItem} {scan : Scan V}
    (follows : Follows text outputs hits scan)
    (inside : ∀ item ∈ hits, ∀ table, outputs.find item.table = some table →
      item.rowIndex < table.numRows)
    (agrees : BookkeepingAgrees text outputs hits) :
    CarriesCells outputs scan.seenRows scan.entries := by
  refine follows.entries.imp fun key entry recorded => ?_
  obtain ⟨table, item, known, first, built⟩ := recorded
  have matching := List.find?_some first
  obtain rfl : item.key = key := of_decide_eq_true matching
  intro same sameKnown column member
  obtain rfl := Option.some.inj (known.symm.trans sameKnown)
  by_cases free : ∀ field ∈ bookkeeping item, field.1 ≠ column.1
  · exact rowData_cell text (inside item (List.mem_of_find?_eq_some first) table known) built member
      free
  · push Not at free
    obtain ⟨field, recordedField, sameName⟩ := free
    rw [← sameName, rowData_bookkeeping text built field recordedField]
    exact (agrees item first table known column member field recordedField sameName).symm

theorem quarantines_iff_agrees
    (inside : ∀ item ∈ normalizeWorklist report rowErrors triggers, ∀ table,
      outputs.find item.table = some table → item.rowIndex < table.numRows) :
    Quarantines text outputs report rowErrors triggers ↔
      BookkeepingAgrees text outputs (normalizeWorklist report rowErrors triggers) := by
  constructor
  · intro holds
    obtain ⟨result, keys, -, rows, carried⟩ := holds
    intro item first table known column member field recordedField sameName
    have inKeys : item.key ∈ keys :=
      (rows.affected item.key).mpr ⟨item, List.mem_of_find?_eq_some first,
        by rw [known, Option.isSome_some], rfl⟩
    obtain ⟨entry, ⟨other, found, fields⟩, cells⟩ := forall₂_both rows.recorded carried inKeys
    obtain rfl := Option.some.inj (first.symm.trans found)
    have cell := cells table known column member
    rw [← sameName, fields field recordedField] at cell
    exact cell.symm
  · intro agrees
    obtain ⟨scan, follows, computed⟩ := compute_follows text inside
    exact ⟨_, scan.seenRows, computed, rowsQuarantined follows inside,
      carriesCells follows inside agrees⟩

/-- The tables that the run goes on with lack just the rows that it reports as removed. -/
def Aligned (outputs tables : Dict String (Table V)) (removed : Dict String (List Nat)) : Prop :=
  tables.keys = outputs.keys ∧ ∀ name table, outputs.find name = some table →
    ∃ left, tables.find name = some left ∧
      left.columns = table.columns.map fun column =>
        (column.1, keepAt (fun i => i ∉ (removed.find name).getD []) column.2)

theorem aligned_unchanged (outputs : Dict String (Table V)) :
    Aligned outputs outputs Dict.empty := by
  refine ⟨rfl, fun name table known => ⟨table, known, ?_⟩⟩
  refine ((List.map_congr_left fun column _ => ?_).trans (List.map_id _)).symm
  rw [keepAt_all]
  · rfl
  · intro i _
    simp

theorem RowsQuarantined.aligned {hits : List WorklistItem} {mask : Dict String (List Nat)}
    {result : Quarantined V} {keys : List (String × Nat)}
    (rows : RowsQuarantined text outputs hits mask result keys) :
    Aligned outputs result.filteredOutputs mask := by
  refine ⟨rows.tables, fun name table known => ?_⟩
  obtain ⟨left, found, columns, -⟩ := rows.kept name table known
  refine ⟨left, found, columns.trans ?_⟩
  have same : (fun i => decide ((name, i) ∉ keys)) =
      fun i => decide (i ∉ (mask.find name).getD []) := by
    funext i
    rw [decide_eq_decide, rows.marked name i]
  rw [same]

theorem finalizeQuarantine_aligned {config : QuarantineConfig}
    (inside : ∀ item ∈ normalizeWorklist report rowErrors config.triggers, ∀ table,
      outputs.find item.table = some table → item.rowIndex < table.numRows)
    {tables : Dict String (Table V)} {removed : Dict String (List Nat)}
    (ran : finalizeQuarantine text outputs report config rowErrors = .ok (tables, removed)) :
    Aligned outputs tables removed := by
  have unchanged : ∀ {tables : Dict String (Table V)} {removed : Dict String (List Nat)},
      (.ok (outputs, Dict.empty) : Except FinalizeError _) = .ok (tables, removed) →
        Aligned outputs tables removed := by
    intro tables removed same
    obtain ⟨rfl, rfl⟩ := Prod.mk.inj (Except.ok.inj same)
    exact aligned_unchanged outputs
  unfold finalizeQuarantine at ran
  extract_lets at ran
  split at ran
  · exact unchanged ran
  split at ran
  · cases ran
  split at ran
  · cases ran
  split at ran
  · obtain ⟨scan, follows, computed⟩ := compute_follows text inside
    rw [computed] at ran
    dsimp only at ran
    split at ran
    · cases ran
    · obtain ⟨rfl, rfl⟩ := Prod.mk.inj (Except.ok.inj ran)
      exact (rowsQuarantined follows inside).aligned
  · exact unchanged ran

/-- Quarantine partitions the rows, and its entries have every cell, exactly where no removed row
has another cell under a bookkeeping key; the finalisation goes on with the rows that are left. -/
theorem quarantines_iff
    (inside : ∀ item ∈ normalizeWorklist report rowErrors triggers, ∀ table,
      outputs.find item.table = some table → item.rowIndex < table.numRows) :
    (Quarantines text outputs report rowErrors triggers ↔
      BookkeepingAgrees text outputs (normalizeWorklist report rowErrors triggers)) ∧
    ∀ (config : QuarantineConfig) (tables : Dict String (Table V))
      (removed : Dict String (List Nat)), config.triggers = triggers →
      finalizeQuarantine text outputs report config rowErrors = .ok (tables, removed) →
      Aligned outputs tables removed := by
  refine ⟨quarantines_iff_agrees inside, fun config tables removed same ran => ?_⟩
  subst same
  exact finalizeQuarantine_aligned inside ran

end Partition

end Compute

/-- One row of one column. -/
def singleCell (column cell : String) : Table String where
  columns := [(column, [cell])]
  numRows := 1
  distinct := List.nodup_singleton column
  aligned := by simp

def notes (column : String) : Dict String (Table String) :=
  Dict.empty.set "notes" (singleCell column "call back")

def badDate : RowErrorRecord := ⟨"notes", "when", 0, "format_error", "not a date"⟩

theorem badDate_inside (column : String) :
    ∀ item ∈ normalizeWorklist none [badDate] ["format_error"], ∀ table,
      (notes column).find item.table = some table → item.rowIndex < table.numRows := by
  intro item member table known
  obtain rfl : item = ⟨"notes", 0, "format_error", "not a date"⟩ := by simpa [normalizeWorklist,
    badDate] using member
  obtain rfl := Option.some.inj known
  exact Nat.one_pos

theorem reason_column_is_lost :
    ¬ ∀ (V : Type) (text : String → V) (outputs : Dict String (Table V))
      (report : Option ValidationReport) (rowErrors : List RowErrorRecord)
      (triggers : List String),
      (∀ item ∈ normalizeWorklist report rowErrors triggers, ∀ table,
        outputs.find item.table = some table → item.rowIndex < table.numRows) →
      Quarantines text outputs report rowErrors triggers := by
  intro always
  have inside := badDate_inside "_quarantine_reason"
  have agrees := (quarantines_iff_agrees inside).mp
    (always String id (notes "_quarantine_reason") none [badDate] ["format_error"] inside)
  have cell := agrees ⟨"notes", 0, "format_error", "not a date"⟩ rfl
    (singleCell "_quarantine_reason" "call back") rfl ("_quarantine_reason", ["call back"])
    (by simp [singleCell]) ("_quarantine_reason", "not a date") (by simp [bookkeeping]) rfl
  exact absurd cell (by decide)

theorem quarantines_iff_note :
    Quarantines id (notes "note") none [badDate] ["format_error"] := by
  refine (quarantines_iff (badDate_inside "note")).1.mpr ?_
  intro item first table known column member field recorded same
  obtain rfl : (⟨"notes", 0, "format_error", "not a date"⟩ : WorklistItem) = item := by
    have found := List.mem_of_find?_eq_some first
    simpa [normalizeWorklist, badDate, eq_comm] using found
  obtain rfl := Option.some.inj known
  obtain rfl : column = ("note", ["call back"]) := by simpa [singleCell] using member
  simp only [bookkeeping, List.mem_cons, List.not_mem_nil, or_false] at recorded
  rcases recorded with rfl | rfl | rfl
  · exact absurd same (by decide)
  · exact absurd same (by decide)
  · exact absurd same (by decide)

end DecoyEngine.RowQuarantine
