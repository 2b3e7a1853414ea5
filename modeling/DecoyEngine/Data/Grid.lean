import Mathlib.Algebra.BigOperators.Group.List.Basic
import Mathlib.Algebra.Ring.Nat
import Mathlib.Data.List.Nodup

namespace DecoyEngine.Data

/-! Column-major scans of a table of cells.

A scan visits the columns one after another and every row within a column; a cell may
leave an entry.  Read row by row, the entries of a row stand in column order. -/

variable {γ : Type u} {δ : Type v} {ε : Type w} {κ : Type x} [DecidableEq κ]

/-- The entries of a scan, in visiting order. -/
def gridEntries (cell : γ → δ → Option ε) (columns : List γ) (rows : List δ) : List ε :=
  columns.flatMap (fun column => rows.filterMap (cell column))

/-- The entries of one row, in column order. -/
def rowEntries (cell : γ → δ → Option ε) (columns : List γ) (row : δ) : List ε :=
  columns.filterMap (fun column => cell column row)

variable {cell : γ → δ → Option ε} {entryKey : ε → κ} {rowKey : δ → κ}

theorem mem_gridEntries {columns : List γ} {rows : List δ} {entry : ε} :
    entry ∈ gridEntries cell columns rows ↔ ∃ row ∈ rows, entry ∈ rowEntries cell columns row := by
  simp only [gridEntries, rowEntries, List.mem_flatMap, List.mem_filterMap]
  constructor
  · rintro ⟨column, columnIn, row, rowIn, found⟩
    exact ⟨row, rowIn, column, columnIn, found⟩
  · rintro ⟨row, rowIn, column, columnIn, found⟩
    exact ⟨column, columnIn, row, rowIn, found⟩

theorem filter_column_absent (keyed : ∀ column row entry, cell column row = some entry →
    entryKey entry = rowKey row) {rows : List δ} {key : κ} (absent : key ∉ rows.map rowKey)
    (column : γ) :
    (rows.filterMap (cell column)).filter (fun entry => entryKey entry = key) = [] := by
  rw [List.filter_eq_nil_iff]
  intro entry member same
  obtain ⟨row, rowIn, found⟩ := List.mem_filterMap.mp member
  refine absent (List.mem_map.mpr ⟨row, rowIn, ?_⟩)
  rw [← keyed column row entry found]
  exact of_decide_eq_true same

theorem filter_column_present (keyed : ∀ column row entry, cell column row = some entry →
    entryKey entry = rowKey row) {rows : List δ} (distinct : (rows.map rowKey).Nodup) {row : δ}
    (present : row ∈ rows) (column : γ) :
    (rows.filterMap (cell column)).filter (fun entry => entryKey entry = rowKey row) =
      (cell column row).toList := by
  induction rows with
  | nil => simp at present
  | cons first rows ih =>
      rw [List.map_cons, List.nodup_cons] at distinct
      rcases List.mem_cons.mp present with same | later
      · subst same
        have rest := filter_column_absent keyed distinct.1 column
        rw [List.filterMap_cons]
        cases found : cell column row with
        | none => simpa using rest
        | some entry =>
            have own : entryKey entry = rowKey row := keyed column row entry found
            simp [own, rest]
      · have different : ¬ rowKey first = rowKey row := fun same =>
          distinct.1 (same ▸ List.mem_map_of_mem later)
        rw [List.filterMap_cons]
        cases found : cell column first with
        | none => exact ih distinct.2 later
        | some entry =>
            have other : ¬ entryKey entry = rowKey row := by
              rw [keyed column first entry found]
              exact different
            simpa [other] using ih distinct.2 later

theorem filter_gridEntries_absent (keyed : ∀ column row entry, cell column row = some entry →
    entryKey entry = rowKey row) {rows : List δ} {key : κ} (absent : key ∉ rows.map rowKey)
    (columns : List γ) :
    (gridEntries cell columns rows).filter (fun entry => entryKey entry = key) = [] := by
  rw [gridEntries, List.filter_flatMap, List.flatMap_eq_nil_iff]
  intro column _
  exact filter_column_absent keyed absent column

theorem filter_gridEntries_present (keyed : ∀ column row entry, cell column row = some entry →
    entryKey entry = rowKey row) {rows : List δ} (distinct : (rows.map rowKey).Nodup) {row : δ}
    (present : row ∈ rows) (columns : List γ) :
    (gridEntries cell columns rows).filter (fun entry => entryKey entry = rowKey row) =
      rowEntries cell columns row := by
  rw [gridEntries, List.filter_flatMap, rowEntries, List.filterMap_eq_flatMap_toList]
  refine congrArg (List.flatMap · columns) (funext fun column => ?_)
  exact filter_column_present keyed distinct present column

theorem perm_of_filter_eq (entryKey : ε → κ) {left right : List ε}
    (agree : ∀ key, left.filter (fun entry => entryKey entry = key) =
      right.filter (fun entry => entryKey entry = key)) : left.Perm right := by
  classical
  rw [List.perm_iff_count]
  intro entry
  have own : decide (entryKey entry = entryKey entry) = true := decide_eq_true rfl
  have counted : ∀ entries : List ε,
      (entries.filter (fun other => entryKey other = entryKey entry)).count entry =
        entries.count entry := fun entries => List.count_filter own
  rw [← counted left, ← counted right, agree]

theorem filter_flatMap_keyed (entryKey : ε → κ) {keys : List κ} (distinct : keys.Nodup)
    {entries : κ → List ε} (keyed : ∀ key, ∀ entry ∈ entries key, entryKey entry = key) (key : κ) :
    (keys.flatMap entries).filter (fun entry => entryKey entry = key) =
      if key ∈ keys then entries key else [] := by
  induction keys with
  | nil => rfl
  | cons first keys ih =>
      rw [List.nodup_cons] at distinct
      rw [List.flatMap_cons, List.filter_append, ih distinct.2]
      by_cases here : first = key
      · subst here
        have all : (entries first).filter (fun entry => decide (entryKey entry = first)) =
            entries first :=
          List.filter_eq_self.mpr fun entry member => decide_eq_true (keyed first entry member)
        rw [all, if_neg distinct.1, if_pos List.mem_cons_self, List.append_nil]
      · have none : (entries first).filter (fun entry => decide (entryKey entry = key)) = [] :=
          List.filter_eq_nil_iff.mpr fun entry member same =>
            here ((keyed first entry member).symm.trans (of_decide_eq_true same))
        have other : ¬ key = first := fun same => here same.symm
        simp only [none, List.nil_append, List.mem_cons, other, false_or]

theorem sum_indicator (key : κ) (keys : List κ) :
    (keys.map (fun other => if decide (key = other) then 1 else 0)).sum = keys.count key := by
  induction keys with
  | nil => rfl
  | cons other keys ih =>
      rw [List.map_cons, List.sum_cons, ih, List.count_cons, Nat.add_comm]
      by_cases same : key = other
      · simp [same]
      · have different : ¬ other = key := fun equal => same equal.symm
        simp [same, different]

theorem sum_countP_keys (entryKey : ε → κ) (test : ε → Bool) {keys : List κ}
    (distinct : keys.Nodup) {entries : List ε} (listed : ∀ entry ∈ entries, entryKey entry ∈ keys) :
    (keys.map (fun key => entries.countP (fun entry => decide (entryKey entry = key) && test entry))).sum =
      entries.countP test := by
  induction entries with
  | nil => simp
  | cons entry entries ih =>
      have rest := ih fun other member => listed other (List.mem_cons_of_mem _ member)
      cases passes : test entry with
      | false =>
          simp only [List.countP_cons, passes, Bool.and_false, Bool.false_eq_true, if_false,
            Nat.add_zero]
          exact rest
      | true =>
          have once : keys.count (entryKey entry) = 1 :=
            List.count_eq_one_of_mem distinct (listed entry List.mem_cons_self)
          simp only [List.countP_cons, passes, Bool.and_true, if_true]
          rw [List.sum_map_add, rest, sum_indicator, once]

end DecoyEngine.Data
