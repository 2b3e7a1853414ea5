import DecoyEngine.Generation.WindowRows

namespace DecoyEngine.Generation.Window

open DecoyEngine.Data

/-! `generate_rows` against the table generated in one piece. -/

variable {V : Type}

/-- What `_row_bytes` counts for one cell. -/
def cellCost : Cell V → Nat
  | .null => 4
  | .text value => (utf8Encode value).length + 4
  | .fixed bits _ => max (bits / 8) 1

/-- What the row `i` of a table costs. -/
def rowCost (table : Siblings V) (i : Nat) : Nat :=
  (table.map fun column => cellCost (column.2.getD i .null)).sum

def GenerateColumn.cellType (column : GenerateColumn V) : CellType :=
  match column.family with
  | .faker type .. => type
  | .statistical spec => spec.type
  | _ => .text

def Typed (type : CellType) (cell : Cell V) : Prop := ∃ payload, cell = Cell.of type payload

/-- Every cell of the row `i` has the type of its column. -/
def TypedAt (columns : List (GenerateColumn V)) (i : Nat) : Prop :=
  ∀ column ∈ columns, Typed column.cellType (cellAt columns column.name i)

section Types

variable {earlier columns : List (GenerateColumn V)} {column : GenerateColumn V} {i off n : Nat}

theorem cellOf_typed (readable : Readable earlier column) (typed : TypedAt earlier i) :
    Typed column.cellType (cellOf column i (rowAt earlier i)) := by
  unfold Readable at readable
  unfold cellOf GenerateColumn.cellType
  cases family : column.family with
  | sequence => exact ⟨_, rfl⟩
  | faker => exact ⟨_, rfl⟩
  | statistical => exact ⟨_, rfl⟩
  | windowedDate anchor row =>
      rw [family] at readable
      obtain ⟨found, member, rfl, -⟩ := readable
      have anchored : Typed found.cellType (((rowAt earlier i).lookup found.name).getD .null) :=
        typed found member
      generalize found.cellType = type at anchored
      simp only
      generalize ((rowAt earlier i).lookup found.name).getD .null = cell at anchored ⊢
      obtain ⟨payload, rfl⟩ := anchored
      cases type <;> exact ⟨_, rfl⟩
  | other =>
      rw [family] at readable
      exact readable.elim

theorem typedAt_append (fresh : column.name ∉ earlier.map (·.name))
    (readable : Readable earlier column) (typed : TypedAt earlier i) :
    TypedAt (earlier ++ [column]) i := by
  intro other member
  rw [cellAt_append fresh]
  rcases List.mem_append.mp member with before | last
  · have different : other.name ≠ column.name :=
      fun same => fresh (same ▸ List.mem_map_of_mem before)
    rw [if_neg different]
    exact typed other before
  · rw [List.mem_singleton.mp last, if_pos rfl]
    exact cellOf_typed readable typed

theorem typedAt_of_readable (earlier : List (GenerateColumn V))
    (distinct : ((earlier ++ columns).map (·.name)).Nodup)
    (readable : ReadableFrom earlier columns) (typed : TypedAt earlier i) :
    TypedAt (earlier ++ columns) i := by
  induction columns generalizing earlier with
  | nil => rwa [List.append_nil]
  | cons column columns ih =>
      have regrouped : earlier ++ column :: columns = earlier ++ [column] ++ columns := by simp
      rw [regrouped]
      exact ih (earlier ++ [column]) (regrouped ▸ distinct) readable.2
        (typedAt_append (fresh_of_nodup distinct) readable.1 typed)

theorem columnBytes_of_typed {cells : List (Cell V)} (nullWidth : AttributeRead)
    (type : CellType) (some : cells ≠ []) (typed : ∀ cell ∈ cells, Typed type cell) :
    columnBytes nullWidth cells = .ok (cells.map cellCost) := by
  obtain ⟨first, rest, rfl⟩ := List.exists_cons_of_ne_nil some
  obtain ⟨payload, head⟩ := typed first List.mem_cons_self
  cases type with
  | text =>
      have inferred : arrowType (first :: rest) = .string := by
        rw [head]
        rfl
      simp only [columnBytes, inferred]
      refine congrArg Except.ok (List.map_congr_left fun cell member => ?_)
      obtain ⟨value, rfl⟩ := typed cell member
      rfl
  | fixed bits =>
      have inferred : arrowType (first :: rest) = .fixed bits := by
        rw [head]
        rfl
      simp only [columnBytes, inferred]
      refine congrArg Except.ok (List.map_congr_left fun cell member => ?_)
      obtain ⟨value, rfl⟩ := typed cell member
      rfl

theorem foldlM_rowBytes {α : Type} (nullWidth : AttributeRead) (columns : List α)
    (key : α → String) (cell : α → Nat → Cell V) (type : α → CellType) (positive : 0 < n)
    (typed : ∀ column ∈ columns, ∀ k, Typed (type column) (cell column k)) (base : Nat → Nat) :
    (columns.map fun column => (key column, (List.range n).map (cell column))).foldlM
        (fun total column => do
          let bytes ← columnBytes nullWidth column.2
          pure (total.zipWith (· + ·) bytes)) ((List.range n).map base) =
      (.ok ((List.range n).map fun k =>
        base k + (columns.map fun column => cellCost (cell column k)).sum) :
        Except WindowError (List Nat)) := by
  induction columns generalizing base with
  | nil => simp [pure, Except.pure]
  | cons column columns ih =>
      have some : (List.range n).map (cell column) ≠ [] := by
        simp [List.range_eq_nil, Nat.pos_iff_ne_zero.mp positive]
      have counted := columnBytes_of_typed nullWidth (type column) some (by
        intro each member
        obtain ⟨k, -, rfl⟩ := List.mem_map.mp member
        exact typed column List.mem_cons_self k)
      rw [List.map_cons, List.foldlM_cons]
      simp only [counted, bind, Except.bind, pure, Except.pure, List.map_map]
      have added : ((List.range n).map base).zipWith (· + ·)
          ((List.range n).map (cellCost ∘ cell column)) =
          (List.range n).map fun k => base k + cellCost (cell column k) := by
        rw [List.zipWith_map, List.zipWith_self]
        rfl
      rw [added]
      have rest := ih (fun other member => typed other (List.mem_cons_of_mem _ member))
        (fun k => base k + cellCost (cell column k))
      simp only [bind, Except.bind, pure, Except.pure] at rest
      rw [rest]
      simp only [List.map_cons, List.sum_cons, Nat.add_assoc]

/-- The cost of the row `i`, column by column. -/
def costAt (columns : List (GenerateColumn V)) (i : Nat) : Nat :=
  (columns.map fun column => cellCost (cellAt columns column.name i)).sum

theorem rowBytes_tableRows (nullWidth : AttributeRead) (positive : 0 < n)
    (typed : ∀ i, TypedAt columns i) :
    rowBytes nullWidth n (tableRows columns off n) =
      .ok ((List.range n).map fun k => costAt columns (off + k)) := by
  have counted := foldlM_rowBytes (n := n) nullWidth columns (·.name)
    (fun column k => cellAt columns column.name (off + k)) (·.cellType) positive
    (fun column member k => typed (off + k) column member) (fun _ => 0)
  simp only [Nat.zero_add] at counted
  have zeros : List.replicate n 0 = (List.range n).map fun _ => 0 := by simp
  rw [rowBytes, tableRows, zeros]
  exact counted

theorem rowCost_tableRows (inside : i < n) :
    rowCost (tableRows columns off n) i = costAt columns (off + i) := by
  rw [rowCost, tableRows, List.map_map, costAt]
  refine congrArg List.sum (List.map_congr_left fun column _ => congrArg cellCost ?_)
  rw [List.getD_eq_getElem?_getD, List.getElem?_map, List.getElem?_range inside]
  rfl

end Types

/-- What holds between two chunks. `used` counts the kept rows while nothing is cut; after the cut
no later chunk is drawn. -/
structure ReadSoFar (columns : List (GenerateColumn V)) (offset count : Nat)
    (budgetBytes : Option Int) (state : ReadState V) : Prop where
  table : state.acc = tableRows columns offset state.emitted
  within : state.emitted ≤ count
  going : state.capped = false → state.done = state.emitted
  free : budgetBytes = none → state.capped = false
  affordable : ∀ limit ∈ budgetBytes, state.capped = false →
    state.used = prefixCost (fun k => costAt columns (offset + k)) state.emitted ∧
      (state.emitted = 0 ∨
        (prefixCost (fun k => costAt columns (offset + k)) state.emitted : Int) ≤ limit)
  cut : ∀ limit ∈ budgetBytes, state.capped = true →
    LongestFit (fun k => costAt columns (offset + k)) limit count state.emitted

section Reading

variable {columns : List (GenerateColumn V)} {offset count chunkRows : Nat}
  {budgetBytes : Option Int} {state : ReadState V}

theorem tableRows_extend {done size keep : Nat} (room : keep ≤ size) :
    ((tableRows columns offset done).map fun column => (column.1, column.2 ++
      (((tableRows columns (offset + done) size).lookup column.1).getD []).take keep)) =
      tableRows columns offset (done + keep) := by
  have rows : ∀ n, tableRows columns offset n = columns.map fun column =>
    (column.name, (List.range n).map fun k => cellAt columns column.name (offset + k)) :=
      fun n => rfl
  rw [rows done, rows (done + keep), List.map_map]
  refine List.map_congr_left fun column member => ?_
  have declared : column.name ∈ columns.map (·.name) := List.mem_map_of_mem member
  simp only [Function.comp_apply, lookup_tableRows declared, Option.getD_some, Prod.mk.injEq,
    true_and]
  rw [← List.map_take, List.take_range, Nat.min_eq_left room, List.range_add, List.map_append,
    List.map_map]
  simp only [Function.comp_def, Nat.add_assoc]

theorem soFar_start (columns : List (GenerateColumn V)) (offset count : Nat)
    (budgetBytes : Option Int) : ReadSoFar columns offset count budgetBytes
    ⟨columns.map fun column => (column.name, []), 0, 0, 0, false⟩ where
  table := rfl
  within := Nat.zero_le _
  going := fun _ => rfl
  free := fun _ => rfl
  affordable := fun _ _ _ => ⟨rfl, .inl rfl⟩
  cut := fun _ _ capped => nomatch capped

theorem readChunk_soFar (nullWidth : AttributeRead) (distinct : (columns.map (·.name)).Nodup)
    (readable : ReadableFrom [] columns) (typed : ∀ i, TypedAt columns i) (chunks : 1 ≤ chunkRows)
    (soFar : ReadSoFar columns offset count budgetBytes state) (more : state.done < count)
    (uncapped : state.capped = false) :
    ∃ next, readChunk nullWidth columns offset count budgetBytes chunkRows state = .ok next ∧
      ReadSoFar columns offset count budgetBytes next ∧ state.done < next.done ∧
      next.done ≤ count := by
  have aligned := soFar.going uncapped
  have positive : 0 < min chunkRows (count - state.done) := by omega
  have inside : state.done + min chunkRows (count - state.done) ≤ count := by omega
  unfold readChunk
  generalize min chunkRows (count - state.done) = size at positive inside
  simp only [drawWindow_eq distinct readable, bind, Except.bind]
  cases budgetBytes with
  | none =>
      simp only [pure, Except.pure]
      refine ⟨_, rfl, ?_, Nat.lt_add_of_pos_right positive, inside⟩
      constructor
      · rw [soFar.table, aligned, tableRows_extend (Nat.le_refl _)]
      · exact aligned ▸ inside
      · exact fun _ => congrArg (· + size) aligned
      · exact fun _ => uncapped
      · exact fun _ budget => nomatch budget
      · exact fun _ budget => nomatch budget
  | some limit =>
      obtain ⟨spent, before⟩ := soFar.affordable limit rfl uncapped
      have costs : (List.range size).map (fun k => costAt columns (offset + state.done + k)) =
          (List.range' state.done size).map fun k => costAt columns (offset + k) := by
        rw [List.range'_eq_map_range, List.map_map]
        simp only [Function.comp_def, Nat.add_assoc]
      rw [← aligned] at spent before
      have block := LongestFit.of_block inside before
      simp only [← spent] at block
      obtain ⟨room, used, fits, final⟩ := block
      simp only [rowBytes_tableRows nullWidth positive typed, costs, pure, Except.pure]
      generalize cumsum _ = running at room used fits final ⊢
      generalize searchsortedRight running _ = keep at room used fits final ⊢
      refine ⟨_, rfl, ?_, Nat.lt_add_of_pos_right positive, inside⟩
      constructor
      · rw [soFar.table, aligned, tableRows_extend room]
      · exact aligned ▸ (by omega : state.done + keep ≤ count)
      · intro capped
        have whole : ¬keep < size := of_decide_eq_false capped
        simp only
        omega
      · exact fun free => nomatch free
      · rintro _ ⟨⟩ capped
        simp only [← aligned]
        refine ⟨?_, fits⟩
        split_ifs with none
        · rw [none, Nat.add_zero, Nat.add_zero, spent]
        · exact used.resolve_left none
      · rintro _ ⟨⟩ capped
        simp only [← aligned]
        exact final (of_decide_eq_true capped)

theorem readLoop_soFar (nullWidth : AttributeRead) (distinct : (columns.map (·.name)).Nodup)
    (readable : ReadableFrom [] columns) (typed : ∀ i, TypedAt columns i) (chunks : 1 ≤ chunkRows)
    (fuel : Nat) (enough : count - state.done ≤ fuel)
    (soFar : ReadSoFar columns offset count budgetBytes state) (reached : state.done ≤ count) :
    ∃ final, readLoop nullWidth columns offset count budgetBytes chunkRows fuel state = .ok final ∧
      ReadSoFar columns offset count budgetBytes final ∧
      (final.capped = true ∨ final.done = count) := by
  induction fuel generalizing state with
  | zero => exact ⟨state, rfl, soFar, .inr (by omega)⟩
  | succ fuel ih =>
      rw [readLoop]
      split_ifs with going
      · obtain ⟨next, run, kept, further, bound⟩ :=
          readChunk_soFar nullWidth distinct readable typed chunks soFar going.1 going.2
        simp only [run, bind, Except.bind]
        exact ih (by omega) kept bound
      · refine ⟨state, rfl, soFar, ?_⟩
        cases capped : state.capped with
        | true => exact .inl rfl
        | false => exact .inr (by simp only [capped, and_true, not_lt] at going; omega)

end Reading

def cellIn (table : Siblings V) (name : String) (k : Nat) : Cell V :=
  ((table.lookup name).getD []).getD k .null

def sliceTable (table : Siblings V) (off n : Nat) : Siblings V :=
  table.map fun column => (column.1, (column.2.drop off).take n)

/-- The read gives rows of the full run from `offset` on: all of them without a budget, else the
longest prefix the budget pays. A cell is computed from the cells before it in its own row. -/
def ServesSlice (nullWidth : AttributeRead) (columns : List (GenerateColumn V))
    (offset count : Nat) (budgetBytes : Option Int) (chunkRows : Nat) : Prop :=
  ∃ served, generateRows nullWidth columns offset count budgetBytes chunkRows = .ok served ∧
    (∀ total, offset + count ≤ total → ∃ full, generateTable columns total = .ok full ∧
      served.table = sliceTable full offset served.rowsEmitted ∧
      match budgetBytes with
      | none => served.rowsEmitted = count
      | some limit =>
          LongestFit (fun k => rowCost full (offset + k)) limit count served.rowsEmitted) ∧
    ∀ earlier column later, columns = earlier ++ column :: later → ∀ k < served.rowsEmitted,
      cellIn served.table column.name k = cellOf column (offset + k)
        (earlier.map fun other => (other.name, cellIn served.table other.name k))

section Slices

variable {columns : List (GenerateColumn V)} {offset count chunkRows off n k : Nat}
  {budgetBytes : Option Int}

theorem sliceTable_tableRows {total : Nat} (inside : off + n ≤ total) :
    sliceTable (tableRows columns 0 total) off n = tableRows columns off n := by
  rw [sliceTable, tableRows, List.map_map, tableRows]
  refine List.map_congr_left fun column _ => congrArg (Prod.mk column.name) ?_
  apply List.ext_getElem
  · simp only [List.length_take, List.length_drop, List.length_map, List.length_range]
    omega
  · intro k _ _
    simp only [List.getElem_take, List.getElem_drop, List.getElem_map, List.getElem_range,
      Nat.zero_add]

theorem cellIn_tableRows {name : String} (declared : name ∈ columns.map (·.name)) (inside : k < n) :
    cellIn (tableRows columns off n) name k = cellAt columns name (off + k) := by
  rw [cellIn, lookup_tableRows declared, Option.getD_some, List.getD_eq_getElem?_getD,
    List.getElem?_map, List.getElem?_range inside]
  rfl

theorem cellAt_later {name : String} (later : List (GenerateColumn V))
    (distinct : ((columns ++ later).map (·.name)).Nodup) (declared : name ∈ columns.map (·.name))
    (i : Nat) : cellAt (columns ++ later) name i = cellAt columns name i := by
  induction later generalizing columns with
  | nil => rw [List.append_nil]
  | cons column later ih =>
      have fresh := fresh_of_nodup distinct
      have regrouped : columns ++ column :: later = columns ++ [column] ++ later := by simp
      have different : name ≠ column.name := fun same => fresh (same ▸ declared)
      rw [regrouped] at distinct ⊢
      rw [ih distinct (by simp [List.mem_map.mp declared]), cellAt_append fresh, if_neg different]

theorem rowAt_eq_cells (distinct : (columns.map (·.name)).Nodup) (i : Nat) :
    rowAt columns i = columns.map fun column => (column.name, cellAt columns column.name i) := by
  induction columns using List.reverseRecOn with
  | nil => rfl
  | append_singleton earlier column ih =>
      have fresh : column.name ∉ earlier.map (·.name) := fresh_of_nodup distinct
      have before : (earlier.map (·.name)).Nodup := by
        rw [List.map_append] at distinct
        exact (List.nodup_append.mp distinct).1
      rw [rowAt_append, List.map_append, List.map_singleton, cellAt_append fresh, if_pos rfl]
      congr 1
      rw [ih before]
      refine List.map_congr_left fun other member => ?_
      have different : other.name ≠ column.name :=
        fun same => fresh (same ▸ List.mem_map_of_mem member)
      rw [cellAt_append fresh, if_neg different]

theorem cellAt_split (earlier later : List (GenerateColumn V)) (column : GenerateColumn V)
    (distinct : ((earlier ++ column :: later).map (·.name)).Nodup) (i : Nat) :
    cellAt (earlier ++ column :: later) column.name i = cellOf column i
      (earlier.map fun other => (other.name, cellAt (earlier ++ column :: later) other.name i)) := by
  have fresh := fresh_of_nodup distinct
  have regrouped : earlier ++ column :: later = earlier ++ [column] ++ later := by simp
  have before : (earlier.map (·.name)).Nodup := by
    rw [List.map_append] at distinct
    exact (List.nodup_append.mp distinct).1
  have row : (earlier.map fun other =>
      (other.name, cellAt (earlier ++ column :: later) other.name i)) = rowAt earlier i := by
    rw [rowAt_eq_cells before]
    refine List.map_congr_left fun other member => congrArg (Prod.mk other.name) ?_
    exact cellAt_later (column :: later) distinct (List.mem_map_of_mem member) i
  rw [row, regrouped, cellAt_later later (regrouped ▸ distinct) (by simp), cellAt_append fresh,
    if_pos rfl]

theorem rowBytes_nil (nullWidth : AttributeRead) (off : Nat) (declared : columns ≠ []) :
    (∃ costs, rowBytes nullWidth 0 (tableRows columns off 0) = .ok costs) ↔
      nullWidth ≠ .valueError := by
  have empty : columnBytes nullWidth ([] : List (Cell V)) =
      if nullWidth = .valueError then .error (.valueError "Non-fixed width type") else .ok [] := by
    cases nullWidth <;> rfl
  have rows : tableRows columns off 0 = columns.map fun column => (column.name, []) := rfl
  obtain ⟨first, rest, rfl⟩ := List.exists_cons_of_ne_nil declared
  rw [rows, rowBytes, List.foldlM_map]
  simp only [empty]
  split_ifs with raises
  · simp only [List.foldlM_cons, bind, Except.bind, raises, ne_eq, not_true_eq_false, iff_false]
    rintro ⟨costs, failed⟩
    cases failed
  · have counted : ∀ (columns : List (GenerateColumn V)),
        columns.foldlM (fun total column => do
          let bytes ← (Except.ok [] : Except WindowError (List Nat))
          pure (total.zipWith (· + ·) bytes)) [] = (.ok [] : Except WindowError (List Nat)) := by
      intro columns
      induction columns with
      | nil => rfl
      | cons column columns ih => exact ih
    simp only [ne_eq, raises, not_false_eq_true, iff_true]
    exact ⟨[], counted _⟩

theorem servesSlice_of_run {nullWidth : AttributeRead} {served : GeneratedWindow V}
    {final : ReadState V} (distinct : (columns.map (·.name)).Nodup)
    (readable : ReadableFrom [] columns)
    (soFar : ReadSoFar columns offset count budgetBytes final)
    (ended : final.capped = true ∨ final.done = count)
    (returned : generateRows nullWidth columns offset count budgetBytes chunkRows = .ok served)
    (table : served.table = final.acc) (emitted : served.rowsEmitted = final.emitted) :
    ServesSlice nullWidth columns offset count budgetBytes chunkRows := by
  have rows : served.table = tableRows columns offset served.rowsEmitted := by
    rw [table, soFar.table, emitted]
  have within : served.rowsEmitted ≤ count := emitted ▸ soFar.within
  refine ⟨served, returned, fun total enough => ?_, ?_⟩
  · refine ⟨_, generateTable_eq distinct readable, ?_, ?_⟩
    · rw [rows, sliceTable_tableRows (by omega)]
    · cases budgetBytes with
      | none =>
          have uncapped := soFar.free rfl
          have done := ended.resolve_left (by simp [uncapped])
          simp only
          rw [emitted, ← soFar.going uncapped, done]
      | some limit =>
          have cost : ∀ k < count, costAt columns (offset + k) =
              rowCost (tableRows columns 0 total) (offset + k) := by
            intro k inside
            rw [rowCost_tableRows (by omega), Nat.zero_add]
          refine LongestFit.congr cost ?_
          rw [emitted]
          cases capped : final.capped with
          | true => exact soFar.cut limit rfl capped
          | false =>
              have done := ended.resolve_left (by simp [capped])
              have all : final.emitted = count := (soFar.going capped).symm.trans done
              obtain ⟨-, fits⟩ := soFar.affordable limit rfl capped
              rw [all] at fits ⊢
              exact LongestFit.of_all fits
  · rintro earlier column later rfl k inside
    rw [rows, cellIn_tableRows (by simp) inside, cellAt_split earlier later column distinct]
    refine congrArg (cellOf column (offset + k)) (List.map_congr_left fun other member => ?_)
    have named : other.name ∈ (earlier ++ column :: later).map (·.name) :=
      List.mem_map_of_mem (List.mem_append_left _ member)
    rw [cellIn_tableRows named inside]

/-- Every admissible read serves its slice, except one of no rows without a budget: its last
`_row_bytes` looks at columns of the null type. -/
theorem serves_slice_iff (nullWidth : AttributeRead) (columns : List (GenerateColumn V))
    (offset count : Nat) (budgetBytes : Option Int) (chunkRows : Nat)
    (declared : columns ≠ []) (classA : isClassA columns = true)
    (addressable : offset + count ≤ maxPosition) (chunks : 1 ≤ chunkRows) :
    ServesSlice nullWidth columns offset count budgetBytes chunkRows ↔
      0 < count ∨ budgetBytes.isSome ∨ nullWidth ≠ .valueError := by
  obtain ⟨distinct, readable⟩ := readable_of_isClassA classA
  have typed : ∀ i, TypedAt columns i := fun i =>
    typedAt_of_readable [] distinct readable fun _ member => absurd member List.not_mem_nil
  obtain ⟨final, run, soFar, ended⟩ := readLoop_soFar nullWidth distinct readable typed chunks
    count (Nat.le_refl _) (soFar_start columns offset count budgetBytes)
    (Nat.zero_le _)
  cases budgetBytes with
  | some limit =>
      have admitted : generateRows nullWidth columns offset count (some limit) chunkRows =
          pure ⟨final.acc, offset, count, final.emitted, final.used, final.capped⟩ := by
        rw [generateRows, if_neg (Nat.not_lt.mpr addressable), if_neg (Nat.not_lt.mpr chunks),
          classA, run]
        rfl
      simp only [Option.isSome_some, true_or, or_true, iff_true]
      exact servesSlice_of_run distinct readable soFar ended admitted rfl rfl
  | none =>
      have all : final.emitted = count := by
        have uncapped := soFar.free rfl
        exact (soFar.going uncapped).symm.trans (ended.resolve_left (by simp [uncapped]))
      have admitted : generateRows nullWidth columns offset count none chunkRows = (do
          let costs ← rowBytes nullWidth final.emitted final.acc
          pure ⟨final.acc, offset, count, final.emitted, costs.sum, final.capped⟩) := by
        rw [generateRows, if_neg (Nat.not_lt.mpr addressable), if_neg (Nat.not_lt.mpr chunks),
          classA, run]
        simp only [Bool.not_true, Bool.false_eq_true, if_false, bind, Except.bind, pure, Except.pure]
      rw [soFar.table, all] at admitted
      simp only [Option.isSome_none, Bool.false_eq_true, false_or]
      rcases Nat.eq_zero_or_pos count with none | positive
      · subst none
        simp only [Nat.lt_irrefl, false_or]
        rw [← rowBytes_nil nullWidth offset declared]
        constructor
        · rintro ⟨served, returned, -⟩
          obtain ⟨costs, counted, -⟩ := bind_eq_ok (admitted.symm.trans returned)
          exact ⟨costs, counted⟩
        · rintro ⟨costs, counted⟩
          simp only [counted, bind, Except.bind, pure, Except.pure] at admitted
          exact servesSlice_of_run distinct readable soFar ended admitted
            (by rw [soFar.table, all]) all.symm
      · simp only [positive, true_or, iff_true]
        simp only [rowBytes_tableRows nullWidth positive typed, bind, Except.bind, pure,
          Except.pure] at admitted
        exact servesSlice_of_run distinct readable soFar ended admitted
          (by rw [soFar.table, all]) all.symm

/-- A sequence beside a column drawn from the parent cell of the same row. -/
def sampleColumns : List (GenerateColumn Nat) :=
  [⟨"id", false, .sequence 1 1 [] [] 4⟩,
    ⟨"score", false, .statistical ⟨.fixed 64, false, some "id", 7, fun seed _ => seed.toNat⟩⟩]

theorem serves_slice_sample :
    ServesSlice .valueError sampleColumns 3 5 (some 40) 2 ↔
      0 < 5 ∨ (some (40 : Int)).isSome ∨ AttributeRead.valueError ≠ .valueError :=
  serves_slice_iff .valueError sampleColumns 3 5 (some 40) 2 (by simp [sampleColumns])
    (by rfl) (by rw [maxPosition]; omega) (by omega)

theorem zero_rows_refused : ¬ ServesSlice .valueError sampleColumns 0 0 none 1 := by
  rintro ⟨served, returned, -⟩
  have refused : generateRows .valueError sampleColumns 0 0 none 1 =
      .error (.valueError "Non-fixed width type") := rfl
  rw [refused] at returned
  cases returned

end Slices

end DecoyEngine.Generation.Window
