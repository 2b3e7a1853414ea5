import DecoyEngine.Data.Checked
import DecoyEngine.Generation.Window

namespace DecoyEngine.Generation.Window

open DecoyEngine.Data

/-! The rows of a Class A table, one by one, and the draws that give them column by column. -/

variable {V : Type}

/-- The cell of a column in the row `i`, whose cells declared earlier are `row`. -/
def cellOf (column : GenerateColumn V) (i : Nat) (row : List (String × Cell V)) : Cell V :=
  match column.family with
  | .sequence start step front back padLength => sequenceCell start step front back padLength i
  | .faker type _ _ draw => Cell.of type (draw i)
  | .statistical spec =>
      Cell.of spec.type (spec.row (spec.colSeed + i)
        (spec.conditionOn.map fun parent => (row.lookup parent).getD .null))
  | .windowedDate anchor draw => windowedCell draw i ((row.lookup anchor).getD .null)
  | .other _ => .null

/-- The row `i` of a table. -/
def rowAt (columns : List (GenerateColumn V)) (i : Nat) : List (String × Cell V) :=
  columns.foldl (fun row column => row ++ [(column.name, cellOf column i row)]) []

def cellAt (columns : List (GenerateColumn V)) (name : String) (i : Nat) : Cell V :=
  ((rowAt columns i).lookup name).getD .null

/-- The rows `[off, off + n)`, column by column. -/
def tableRows (columns : List (GenerateColumn V)) (off n : Nat) : Siblings V :=
  columns.map fun column =>
    (column.name, (List.range n).map fun k => cellAt columns column.name (off + k))

/-- A column reads what is declared before it, and an anchor that is never null. -/
def Readable (earlier : List (GenerateColumn V)) (column : GenerateColumn V) : Prop :=
  match column.family with
  | .sequence .. => True
  | .faker .. => True
  | .statistical spec => ∀ parent ∈ spec.conditionOn, parent ∈ earlier.map (·.name)
  | .windowedDate anchor _ =>
      ∃ found ∈ earlier, found.name = anchor ∧ windowedAnchorOk found.family = true
  | .other _ => False

def ReadableFrom : List (GenerateColumn V) → List (GenerateColumn V) → Prop
  | _, [] => True
  | earlier, column :: columns =>
      Readable earlier column ∧ ReadableFrom (earlier ++ [column]) columns

section Admission

variable {earlier columns : List (GenerateColumn V)} {column : GenerateColumn V}
  {verdicts result : List Verdict}

theorem classify_extends (classified : classify earlier verdicts columns = .ok result) :
    ∃ more, result = verdicts ++ more := by
  induction columns generalizing earlier verdicts with
  | nil =>
      cases classified
      exact ⟨[], (List.append_nil _).symm⟩
  | cons column columns ih =>
      obtain ⟨reason, -, rest⟩ := bind_eq_ok classified
      obtain ⟨more, grown⟩ := ih rest
      exact ⟨_, grown.trans (List.append_assoc _ _ _)⟩

theorem readable_of_reason (reason : classBReason column earlier verdicts = .ok none) :
    Readable earlier column := by
  unfold classBReason at reason
  split at reason
  · cases reason
  · cases family : column.family with
    | sequence => simp only [Readable, family]
    | faker => simp only [Readable, family]
    | statistical spec =>
        simp only [Readable, family] at reason ⊢
        intro parent conditional
        rw [Option.mem_def.mp conditional] at reason
        simp only at reason
        split at reason
        · cases reason
        · next declared => exact not_not.mp declared
    | windowedDate anchor row =>
        simp only [Readable, family] at reason ⊢
        split at reason
        · cases reason
        · next found isFound =>
            split_ifs at reason with _ ok
            · cases reason
            · have same := List.find?_some isFound
              exact ⟨found, List.mem_of_find?_eq_some isFound, of_decide_eq_true same, ok⟩
            · cases reason
    | other kind =>
        simp only [family] at reason
        cases reason

theorem readableFrom_of_classify (classified : classify earlier verdicts columns = .ok result)
    (clear : ∀ verdict ∈ result, verdict.2 = none) : ReadableFrom earlier columns := by
  induction columns generalizing earlier verdicts with
  | nil => trivial
  | cons column columns ih =>
      obtain ⟨reason, found, rest⟩ := bind_eq_ok classified
      obtain ⟨more, grown⟩ := classify_extends rest
      have none : reason = none := clear (column.name, reason) (by simp [grown])
      exact ⟨readable_of_reason (none ▸ found), ih rest⟩

theorem readable_of_isClassA (classA : isClassA columns = true) :
    (columns.map (·.name)).Nodup ∧ ReadableFrom [] columns := by
  rw [isClassA, Bool.and_eq_true, decide_eq_true_iff] at classA
  refine ⟨classA.1, ?_⟩
  have verdict := classA.2
  split at verdict
  · cases verdict
  · next verdicts classified =>
      refine readableFrom_of_classify classified fun entry member => ?_
      exact Option.isNone_iff_eq_none.mp (List.all_eq_true.mp verdict entry member)

end Admission

section Draws

variable {earlier columns : List (GenerateColumn V)} {column : GenerateColumn V} {name : String}
  {off n i : Nat}

theorem rowAt_append (earlier : List (GenerateColumn V)) (column : GenerateColumn V) (i : Nat) :
    rowAt (earlier ++ [column]) i =
      rowAt earlier i ++ [(column.name, cellOf column i (rowAt earlier i))] := by
  rw [rowAt, List.foldl_append]
  rfl

theorem names_rowAt (columns : List (GenerateColumn V)) (i : Nat) :
    (rowAt columns i).map (·.1) = columns.map (·.name) := by
  induction columns using List.reverseRecOn with
  | nil => rfl
  | append_singleton earlier column ih =>
      rw [rowAt_append, List.map_append, List.map_append, ih]
      rfl

theorem lookup_of_not_mem {β : Type} {entries : List (String × β)}
    (absent : name ∉ entries.map (·.1)) : entries.lookup name = none := by
  rw [List.lookup_eq_none_iff]
  intro entry member
  exact bne_iff_ne.mpr fun same => absent (same ▸ List.mem_map_of_mem member)

theorem cellAt_append (fresh : column.name ∉ earlier.map (·.name)) :
    cellAt (earlier ++ [column]) name i =
      if name = column.name then cellOf column i (rowAt earlier i) else cellAt earlier name i := by
  rw [cellAt, rowAt_append, List.lookup_append]
  split
  · next same =>
      rw [same, lookup_of_not_mem (by rw [names_rowAt]; exact fresh), Option.none_or,
        List.lookup_cons, beq_self_eq_true]
      rfl
  · next other =>
      rw [List.lookup_cons, beq_eq_false_iff_ne.mpr other, List.lookup_nil, Option.or_none]
      rfl

theorem tableRows_append (fresh : column.name ∉ earlier.map (·.name)) :
    tableRows (earlier ++ [column]) off n = tableRows earlier off n ++
      [(column.name,
        (List.range n).map fun k => cellOf column (off + k) (rowAt earlier (off + k)))] := by
  rw [tableRows, List.map_append, List.map_singleton]
  congr 1
  · refine List.map_congr_left fun other member => ?_
    have different : other.name ≠ column.name :=
      fun same => fresh (same ▸ List.mem_map_of_mem member)
    simp only [cellAt_append fresh, if_neg different]
  · simp only [cellAt_append fresh, if_true]

theorem lookup_tableRows (declared : name ∈ columns.map (·.name)) :
    (tableRows columns off n).lookup name =
      some ((List.range n).map fun k => cellAt columns name (off + k)) := by
  rw [tableRows]
  generalize table : columns = all
  rw [table] at declared
  clear table
  have found : ∀ rest : List (GenerateColumn V), name ∈ rest.map (·.name) →
      (rest.map fun column => (column.name,
        (List.range n).map fun k => cellAt all column.name (off + k))).lookup name =
        some ((List.range n).map fun k => cellAt all name (off + k)) := by
    intro rest member
    induction rest with
    | nil => cases member
    | cons first rest ih =>
        rw [List.map_cons, List.lookup_cons]
        by_cases same : name = first.name
        · rw [beq_iff_eq.mpr same, same]
        · rw [beq_eq_false_iff_ne.mpr same]
          exact ih ((List.mem_cons.mp member).resolve_left same)
  exact found all declared

theorem sampleColumn_eq (name : String) (earlier : List (GenerateColumn V))
    (spec : StatisticalSpec V) (start : Nat) :
    sampleColumn name spec n
        (spec.conditionOn.map fun parent =>
          (List.range n).map fun k => cellAt earlier parent (start + k)) start =
      .ok ((List.range n).map fun k => Cell.of spec.type (spec.row (spec.colSeed + (start + k : Nat))
        (spec.conditionOn.map fun parent => cellAt earlier parent (start + k)))) := by
  unfold sampleColumn
  cases conditional : spec.conditionOn with
  | none => simp only [Option.map_none, Nat.cast_add, add_assoc]
  | some parent =>
      simp only [Option.map_some, Nat.cast_add, add_assoc]
      refine congrArg Except.ok (List.map_congr_left fun k member => ?_)
      have inside : k < n := List.mem_range.mp member
      rw [List.getD_eq_getElem?_getD, List.getElem?_map, List.getElem?_range inside]
      rfl

theorem applyWindowedDate_eq (row : Nat → Cell V → List Char) (cells : Nat → Cell V) :
    applyWindowedDate row ((List.range n).map cells) off =
      (List.range n).map fun k => windowedCell row (off + k) (cells k) := by
  rw [applyWindowedDate]
  apply List.ext_getElem
  · simp
  · intro k inLeft inRight
    simp only [List.getElem_mapIdx, List.getElem_map, List.getElem_range]

theorem draw_eq (readable : Readable earlier column) :
    draw column off n (tableRows earlier off n) =
      .ok ((List.range n).map fun k => cellOf column (off + k) (rowAt earlier (off + k))) := by
  unfold Readable at readable
  unfold draw cellOf
  cases family : column.family with
  | sequence => rfl
  | faker => rfl
  | statistical spec =>
      rw [family] at readable
      simp only at readable ⊢
      have sampled := sampleColumn_eq (n := n) column.name earlier spec off
      cases conditional : spec.conditionOn with
      | none =>
          rw [conditional] at sampled
          exact sampled
      | some parent =>
          rw [conditional] at sampled
          have declared := readable parent conditional
          simp only [lookup_tableRows declared, List.length_map, List.length_range, ne_eq,
            not_true_eq_false, if_false]
          exact sampled
  | windowedDate anchor row =>
      rw [family] at readable
      obtain ⟨found, member, rfl, -⟩ := readable
      have declared : found.name ∈ earlier.map (·.name) := List.mem_map_of_mem member
      simp only [lookup_tableRows declared, applyWindowedDate_eq]
      rfl
  | other kind =>
      rw [family] at readable
      exact readable.elim

/-- The full run's column is the draw of a window that starts at the first row. -/
theorem generateColumn_eq (readable : Readable earlier column) :
    generateColumn column n (tableRows earlier 0 n) = draw column 0 n (tableRows earlier 0 n) := by
  unfold Readable at readable
  unfold generateColumn draw
  cases family : column.family with
  | sequence => simp only [Nat.zero_add]
  | faker => simp only [Nat.zero_add]
  | statistical spec =>
      rw [family] at readable
      simp only at readable ⊢
      cases conditional : spec.conditionOn with
      | none => rfl
      | some parent =>
          have declared := readable parent conditional
          simp only [lookup_tableRows declared, List.length_map, List.length_range, ne_eq,
            not_true_eq_false, if_false]
  | windowedDate anchor row =>
      rw [family] at readable
      obtain ⟨found, member, rfl, -⟩ := readable
      have declared : found.name ∈ earlier.map (·.name) := List.mem_map_of_mem member
      simp only [lookup_tableRows declared, Option.getD_some]
  | other kind =>
      rw [family] at readable
      exact readable.elim

theorem fresh_of_nodup (distinct : ((earlier ++ column :: columns).map (·.name)).Nodup) :
    column.name ∉ earlier.map (·.name) := by
  rw [List.map_append, List.map_cons, List.nodup_append] at distinct
  exact fun member => distinct.2.2 _ member _ List.mem_cons_self rfl

theorem foldlM_draws (earlier : List (GenerateColumn V))
    (drawn : GenerateColumn V → Siblings V → Except WindowError (List (Cell V)))
    (draws : ∀ {earlier column}, Readable earlier column →
      drawn column (tableRows earlier off n) =
        .ok ((List.range n).map fun k => cellOf column (off + k) (rowAt earlier (off + k))))
    (distinct : ((earlier ++ columns).map (·.name)).Nodup)
    (readable : ReadableFrom earlier columns) :
    columns.foldlM (fun table column => do
      let cells ← drawn column table
      pure (table ++ [(column.name, cells)])) (tableRows earlier off n) =
    (.ok (tableRows (earlier ++ columns) off n) : Except WindowError (Siblings V)) := by
  induction columns generalizing earlier with
  | nil =>
      rw [List.append_nil]
      rfl
  | cons column columns ih =>
      have fresh := fresh_of_nodup distinct
      have regrouped : earlier ++ column :: columns = earlier ++ [column] ++ columns := by simp
      rw [List.foldlM_cons, draws readable.1]
      simp only [bind, Except.bind, pure, Except.pure]
      rw [← tableRows_append fresh, regrouped]
      exact ih (earlier ++ [column]) (regrouped ▸ distinct) readable.2

theorem drawWindow_eq (distinct : (columns.map (·.name)).Nodup)
    (readable : ReadableFrom [] columns) :
    drawWindow columns off n = .ok (tableRows columns off n) :=
  foldlM_draws [] (fun column window => draw column off n window) draw_eq distinct readable

theorem generateTable_eq (distinct : (columns.map (·.name)).Nodup)
    (readable : ReadableFrom [] columns) :
    generateTable columns n = .ok (tableRows columns 0 n) := by
  refine foldlM_draws [] (fun column generated => generateColumn column n generated)
    (fun readable => ?_) distinct readable
  rw [generateColumn_eq readable, draw_eq readable]

end Draws

end DecoyEngine.Generation.Window
