import DecoyEngine.Execution.NestedWriteback

namespace DecoyEngine.Execution.Nested

open DecoyEngine.Data
open scoped List

/-! Masking a column of JSON cells: what a run comes to cell by cell, and when that is what the
child would give for each cell alone. -/

/-- What the frame holds for a leaf of the column. -/
def frameEntry (asDouble : Int → Option Double) (leaves : List Json) (leaf : Json) : Json :=
  if isFloat64 asDouble leaves then toFloat asDouble leaf else leaf

/-- A leaf changes its type in the frame. -/
def Retyped (asDouble : Int → Option Double) (leaves : List Json) : Prop :=
  isFloat64 asDouble leaves = true ∧ ∃ leaf ∈ leaves, isFloat leaf = false

/-- The frame takes the leaves as they are. -/
def Kept (asDouble : Int → Option Double) (leaves : List Json) : Prop :=
  convertObjects asDouble {} leaves ≠ none ∧ ¬Retyped asDouble leaves

section Frame

variable {asDouble : Int → Option Double} {leaves : List Json} {leaf : Json} {child : Child}

theorem frameColumn_eq : frameColumn asDouble leaves = leaves.map (frameEntry asDouble leaves) := by
  rw [frameColumn]
  split
  · rename_i float
    exact List.map_congr_left fun leaf _ => (if_pos float).symm
  · rename_i other
    have same : frameEntry asDouble leaves = id := funext fun leaf => if_neg other
    rw [same, List.map_id]

theorem frameEntry_eq (regular : ¬Retyped asDouble leaves) (member : leaf ∈ leaves) :
    frameEntry asDouble leaves leaf = leaf := by
  rw [frameEntry]
  split
  · rename_i float
    have isOne : isFloat leaf = true := by
      rw [← Bool.not_eq_false]
      exact fun other => regular ⟨float, leaf, member, other⟩
    cases leaf with
    | float value => rfl
    | _ => cases isOne
  · rfl

theorem convertObjects_float64 {seen : Seen}
    (float : convertObjects asDouble seen leaves = some true) :
    seen.bool = false ∧ ∀ leaf ∈ leaves, isFloat leaf = true ∨ isNull leaf = true ∨
      ∃ value number, leaf = .int value ∧ asDouble value = some number := by
  induction leaves generalizing seen with
  | nil =>
      rw [convertObjects, Option.some.injEq, Bool.and_eq_true, Bool.not_eq_true'] at float
      exact ⟨float.1, fun _ member => (List.not_mem_nil member).elim⟩
  | cons first rest ih =>
      cases first with
      | null =>
          rw [convertObjects] at float
          obtain ⟨clean, each⟩ := ih float
          exact ⟨clean, List.forall_mem_cons.mpr ⟨.inr (.inl rfl), each⟩⟩
      | bool value =>
          rw [convertObjects] at float
          cases (ih float).1
      | float value =>
          rw [convertObjects] at float
          obtain ⟨clean, each⟩ := ih float
          exact ⟨clean, List.forall_mem_cons.mpr ⟨.inl rfl, each⟩⟩
      | int value =>
          rw [convertObjects] at float
          split at float
          · cases float
          · rename_i number converted
            have here : ∃ held number, Json.int value = .int held ∧ asDouble held = some number :=
              ⟨value, number, rfl, converted⟩
            split at float
            · obtain ⟨clean, each⟩ := ih float
              exact ⟨clean, List.forall_mem_cons.mpr ⟨.inr (.inr here), each⟩⟩
            · split at float
              · cases float
              · obtain ⟨clean, each⟩ := ih float
                exact ⟨clean, List.forall_mem_cons.mpr ⟨.inr (.inr here), each⟩⟩
      | text value => cases float
      | array items => cases float
      | object members => cases float

theorem entry_of_float64 (float : isFloat64 asDouble leaves = true) (member : leaf ∈ leaves) :
    isFloat leaf = true ∨ isNull leaf = true ∨
      ∃ value number, leaf = .int value ∧ asDouble value = some number :=
  (convertObjects_float64 (of_decide_eq_true float)).2 leaf member

theorem scalar_of_float64 (float : isFloat64 asDouble leaves = true) (member : leaf ∈ leaves) :
    isFloat leaf = true ∨ isInt leaf = true ∨ isNull leaf = true := by
  rcases entry_of_float64 float member with isOne | null | ⟨value, number, rfl, _⟩
  · exact .inl isOne
  · exact .inr (.inr null)
  · exact .inr (.inl rfl)

theorem get_of_scalar {segment : Segment} {path : Path}
    (scalar : isFloat leaf = true ∨ isInt leaf = true ∨ isNull leaf = true) :
    leaf.get (segment :: path) = none := by
  cases segment <;> cases leaf <;> first | rfl | simp [isFloat, isInt, isNull] at scalar

theorem toFloat_ne (float : isFloat64 asDouble leaves = true) (member : leaf ∈ leaves)
    (other : isFloat leaf = false) :
    ∃ number, toFloat asDouble leaf = .float number ∧ leaf ≠ .float number := by
  rcases entry_of_float64 float member with isOne | null | ⟨value, number, rfl, converted⟩
  · rw [isOne] at other
    cases other
  · cases leaf with
    | null => exact ⟨.nan, rfl, nofun⟩
    | _ => cases null
  · exact ⟨number, by rw [toFloat, converted]; rfl, nofun⟩

theorem given_newLeaf (child : Child) (leaf : Json) :
    (newLeaf child leaf).given leaf = child.value leaf := by
  rw [newLeaf, Child.value]
  cases child.mask leaf with
  | fresh masked => rfl
  | kept =>
      dsimp only
      split <;> rfl

theorem given_newLeaf_null (child : Child) : (newLeaf child .null).given .null = .null := by
  rw [given_newLeaf, Child.value]
  rcases child.mask_null with kept | fresh
  · rw [kept]
  · rw [fresh]

end Frame

section Cells

variable {target : Target} {column : String} {cells : List Cell} {position : Nat}
  {value : Json} {path : Path}

theorem locate_eq_some {cell : Cell} {located : Located} :
    locate target (cell, position) = some located ↔
      ∃ value, cell = .json value ∧ target.find value ≠ [] ∧
        located = ⟨position, value, orderDeepestFirst target (target.find value)⟩ := by
  cases cell with
  | null => simp [locate]
  | malformed text => simp [locate]
  | json value =>
      simp only [locate, Cell.json.injEq]
      split
      · rename_i empty
        have nothing : target.find value = [] := List.isEmpty_iff.mp empty
        simp [nothing]
      · rename_i some
        have something : target.find value ≠ [] := fun nothing => some (by rw [nothing]; rfl)
        constructor
        · intro found
          exact ⟨value, rfl, something, (Option.some.inj found).symm⟩
        · rintro ⟨_, rfl, -, rfl⟩
          rfl

theorem mem_allLocated {located : Located} :
    located ∈ allLocated target cells ↔
      cells[located.position]? = some (.json located.value) ∧ target.find located.value ≠ [] ∧
        located.paths = orderDeepestFirst target (target.find located.value) := by
  rw [allLocated, List.mem_filterMap]
  constructor
  · rintro ⟨⟨cell, position⟩, member, found⟩
    obtain ⟨value, rfl, something, rfl⟩ := locate_eq_some.mp found
    exact ⟨List.mk_mem_zipIdx_iff_getElem?.mp member, something, rfl⟩
  · obtain ⟨position, value, paths⟩ := located
    rintro ⟨here, something, ordered⟩
    dsimp only at here something ordered
    subst ordered
    exact ⟨(.json value, position), List.mk_mem_zipIdx_iff_getElem?.mpr here,
      locate_eq_some.mpr ⟨value, rfl, something, rfl⟩⟩

theorem allLocated_nodup : ((allLocated target cells).map Located.position).Nodup := by
  have positions : ((allLocated target cells).map Located.position) <+
      cells.zipIdx.map Prod.snd := by
    rw [allLocated]
    induction cells.zipIdx with
    | nil => exact .slnil
    | cons entry rest ih =>
        obtain ⟨cell, position⟩ := entry
        cases found : locate target (cell, position) with
        | none =>
            rw [List.filterMap_cons_none found]
            exact ih.cons _
        | some located =>
            rw [List.filterMap_cons_some found]
            obtain ⟨value, rfl, -, rfl⟩ := locate_eq_some.mp found
            exact ih.cons_cons _
  refine positions.nodup ?_
  rw [List.zipIdx_map_snd]
  exact List.nodup_range'

theorem mem_allLeaves {leaf : Json} :
    leaf ∈ allLeaves target cells ↔
      ∃ (position : Nat) (value : Json), cells[position]? = some (Cell.json value) ∧
        ∃ path ∈ target.find value, leaf = leafAt value path := by
  rw [allLeaves, List.mem_flatMap]
  constructor
  · rintro ⟨located, member, inside⟩
    obtain ⟨here, -, paths⟩ := mem_allLocated.mp member
    obtain ⟨path, among, rfl⟩ := List.mem_map.mp inside
    rw [paths, mem_orderDeepestFirst] at among
    exact ⟨located.position, located.value, here, path, among, rfl⟩
  · rintro ⟨position, value, here, path, among, rfl⟩
    refine ⟨⟨position, value, orderDeepestFirst target (target.find value)⟩,
      mem_allLocated.mpr ⟨here, List.ne_nil_of_mem among, rfl⟩, ?_⟩
    exact List.mem_map.mpr ⟨path, (mem_orderDeepestFirst target).mpr among, rfl⟩

theorem leafAt_mem {cell : Nat} (here : cells[cell]? = some (Cell.json value))
    (among : path ∈ target.find value) : leafAt value path ∈ allLeaves target cells :=
  mem_allLeaves.mpr ⟨cell, value, here, path, among, rfl⟩

theorem rows_of_leaves {index : Nat} {leaf : Json}
    (here : (allLeaves target cells)[index]? = some leaf) :
    ∃ (row : Nat) (value : Json) (path : Path), (allRows target cells)[index]? = some row ∧
      cells[row]? = some (Cell.json value) ∧ path ∈ target.find value ∧
      value.get path = some leaf := by
  have along : ∀ located : List Located, (∀ entry ∈ located, entry ∈ allLocated target cells) →
      ∀ (index : Nat) (leaf : Json), (located.flatMap Located.leaves)[index]? = some leaf →
        ∃ (row : Nat) (value : Json) (path : Path),
          (located.flatMap Located.rows)[index]? = some row ∧
          cells[row]? = some (Cell.json value) ∧ path ∈ target.find value ∧
          value.get path = some leaf := by
    intro located all
    induction located with
    | nil => rintro index leaf ⟨⟩
    | cons entry rest ih =>
        intro index leaf here
        have lengths : entry.rows.length = entry.leaves.length := by
          simp only [Located.rows, Located.leaves, List.length_map]
        rw [List.flatMap_cons] at here ⊢
        by_cases inside : index < entry.leaves.length
        · rw [List.getElem?_append_left inside] at here
          rw [List.getElem?_append_left (lengths ▸ inside)]
          rw [Located.leaves, List.getElem?_map, Option.map_eq_some_iff] at here
          obtain ⟨path, atPath, rfl⟩ := here
          obtain ⟨cell, -, paths⟩ := mem_allLocated.mp (all entry (by simp))
          have among : path ∈ target.find entry.value := by
            rw [← mem_orderDeepestFirst, ← paths]
            exact List.mem_of_getElem? atPath
          obtain ⟨leaf, found⟩ :=
            Option.isSome_iff_exists.mp (target.addressed entry.value path among)
          refine ⟨entry.position, entry.value, path, ?_, cell, among, ?_⟩
          · rw [Located.rows, List.getElem?_map, atPath]
            rfl
          · rw [leafAt_eq found, found]
        · have beyond := Nat.le_of_not_lt inside
          rw [List.getElem?_append_right beyond] at here
          rw [List.getElem?_append_right (lengths ▸ beyond), lengths]
          exact ih (fun entry member => all entry (List.mem_cons_of_mem _ member)) _ _ here
  exact along (allLocated target cells) (fun _ member => member) index leaf here

/-- A row error of the child and the error of the run for it. -/
structure ReportedAt (target : Target) (column : String) (cells : List Cell)
    (error : ChildError) (reported : RowError) : Prop where
  column : reported.column = column
  trigger : reported.trigger = error.trigger
  reason : reported.reason = error.reason
  row : ∃ value path leaf, cells[reported.rowIndex]? = some (.json value) ∧
    path ∈ target.find value ∧ value.get path = some leaf ∧
    (allLeaves target cells)[error.position]? = some leaf

variable (column) in
theorem remapErrors_spec {errors : List ChildError}
    (inside : ∀ error ∈ errors, error.position < (allLeaves target cells).length) :
    ∃ reported, remapErrors column (allRows target cells) errors = .ok reported ∧
      List.Forall₂ (ReportedAt target column cells) errors reported := by
  induction errors with
  | nil => exact ⟨[], rfl, .nil⟩
  | cons error rest ih =>
      obtain ⟨reported, done, each⟩ := ih fun error member =>
        inside error (List.mem_cons_of_mem _ member)
      have here := List.getElem?_eq_getElem (inside error (by simp))
      obtain ⟨row, value, path, atRow, cell, among, found⟩ := rows_of_leaves here
      refine ⟨⟨column, row, error.trigger, error.reason⟩ :: reported, ?_, .cons ?_ each⟩
      · rw [remapErrors, atRow]
        dsimp only
        rw [done]
      · exact ⟨rfl, rfl, rfl, value, path, _, cell, among, found, here⟩

/-- The writes of a cell, when a leaf is written as `new` says. -/
def entriesOf (target : Target) (new : Json → New) (value : Json) : List (Path × New) :=
  (orderDeepestFirst target (target.find value)).map fun path => (path, new (leafAt value path))

theorem zip_map_append (located : Located) (new : Json → New) (more : List New) :
    located.paths.zip (located.leaves.map new ++ more) =
      located.paths.map fun path => (path, new (leafAt located.value path)) := by
  rw [Located.leaves]
  induction located.paths with
  | nil => rfl
  | cons path rest ih => exact congrArg (List.cons _) ih

/-- The document of a cell. -/
def Returned (target : Target) (column : String) (new : Json → New) (value result : Json) :
    Prop :=
  ∃ document, writeBack column ⟨value, none⟩ (entriesOf target new value) = .ok document ∧
    result = document.parsed

theorem Returned.unique {new other : Json → New} {result second : Json}
    (same : ∀ path ∈ target.find value, new (leafAt value path) = other (leafAt value path))
    (returned : Returned target column new value result)
    (again : Returned target column other value second) : result = second := by
  have entries : entriesOf target new value = entriesOf target other value :=
    List.map_congr_left fun path member => by
      rw [same path ((mem_orderDeepestFirst target).mp member)]
  obtain ⟨document, done, rfl⟩ := returned
  obtain ⟨document', done', rfl⟩ := again
  rw [entries, done'] at done
  cases done
  rfl

variable {new : Json → New}

theorem writeBackAll_ok {located : List Located} {documents : List (Nat × Json)}
    (all : ∀ entry ∈ located, entry ∈ allLocated target cells)
    (done : writeBackAll column located ((located.flatMap Located.leaves).map new) =
      .ok documents) :
    List.Forall₂ (fun entry document => document.1 = entry.position ∧
      Returned target column new entry.value document.2) located documents := by
  induction located generalizing documents with
  | nil =>
      cases done
      exact .nil
  | cons entry rest ih =>
      obtain ⟨-, -, paths⟩ := mem_allLocated.mp (all entry (by simp))
      have count : (entry.leaves.map new).length = entry.paths.length := by
        rw [Located.leaves, List.length_map, List.length_map]
      rw [List.flatMap_cons, List.map_append, writeBackAll, zip_map_append,
        List.drop_append_of_le_length (Nat.le_of_eq count.symm), List.drop_of_length_le
        (Nat.le_of_eq count), List.nil_append] at done
      split at done
      · cases done
      · rename_i document cell
        split at done
        · cases done
        · rename_i others tail
          cases done
          refine .cons ⟨rfl, document, ?_, rfl⟩
            (ih (fun entry member => all entry (List.mem_cons_of_mem _ member)) tail)
          rw [entriesOf, ← paths]
          exact cell

theorem writeBackAll_exists {located : List Located}
    (all : ∀ entry ∈ located, entry ∈ allLocated target cells)
    (each : ∀ entry ∈ located, ∃ result, Returned target column new entry.value result) :
    ∃ documents, writeBackAll column located ((located.flatMap Located.leaves).map new) =
      .ok documents := by
  induction located with
  | nil => exact ⟨[], rfl⟩
  | cons entry rest ih =>
      obtain ⟨documents, tail⟩ :=
        ih (fun entry member => all entry (List.mem_cons_of_mem _ member))
          fun entry member => each entry (List.mem_cons_of_mem _ member)
      obtain ⟨-, document, done, rfl⟩ := each entry (by simp)
      obtain ⟨-, -, paths⟩ := mem_allLocated.mp (all entry (by simp))
      have count : (entry.leaves.map new).length = entry.paths.length := by
        rw [Located.leaves, List.length_map, List.length_map]
      rw [entriesOf, ← paths] at done
      refine ⟨(entry.position, document.parsed) :: documents, ?_⟩
      rw [List.flatMap_cons, List.map_append, writeBackAll, zip_map_append,
        List.drop_append_of_le_length (Nat.le_of_eq count.symm), List.drop_of_length_le
        (Nat.le_of_eq count), List.nil_append, done, tail]

end Cells

section Assign

variable {cells : List Cell} {documents : List (Nat × Json)} {position : Nat}

theorem length_assign : (assign cells documents).length = cells.length := by
  induction documents generalizing cells with
  | nil => rfl
  | cons entry rest ih => exact ih.trans List.length_set

theorem assign_other (absent : position ∉ documents.map Prod.fst) :
    (assign cells documents)[position]? = cells[position]? := by
  induction documents generalizing cells with
  | nil => rfl
  | cons entry rest ih =>
      rw [List.map_cons, List.mem_cons, not_or] at absent
      exact (ih absent.2).trans (List.getElem?_set_ne (Ne.symm absent.1))

theorem assign_at {value : Json} (distinct : (documents.map Prod.fst).Nodup)
    (member : (position, value) ∈ documents) (bound : position < cells.length) :
    (assign cells documents)[position]? = some (.json value) := by
  induction documents generalizing cells with
  | nil => cases member
  | cons entry rest ih =>
      obtain ⟨fresh, restDistinct⟩ := List.nodup_cons.mp distinct
      rcases List.mem_cons.mp member with rfl | later
      · exact (assign_other fresh).trans (List.getElem?_set_self bound)
      · exact ih restDistinct later (bound.trans_eq List.length_set.symm)

end Assign

end DecoyEngine.Execution.Nested
