import DecoyEngine.Execution.NestedMasking

namespace DecoyEngine.Execution.Nested

open DecoyEngine.Data
open scoped List

/-! The column a run emits against what the child gives for each cell by itself. -/

section Emission

variable {asDouble : Int → Option Double} {column : String} {target : Target} {child : Child}
  {cells : List Cell} {output : Output}

/-- What the run writes for a leaf of the column. -/
def newAt (asDouble : Int → Option Double) (child : Child) (leaves : List Json) (leaf : Json) : New :=
  newLeaf child (frameEntry asDouble leaves leaf)

/-- How a cell comes out, when a leaf is written as `new` says. -/
def Comes (target : Target) (column : String) (new : Json → New) : Cell → Cell → Prop
  | .json value, out => target.find value = [] ∧ out = .json value ∨
      target.find value ≠ [] ∧ ∃ result, Returned target column new value result ∧
        out = .json result
  | cell, out => out = cell

/-- What a run that ends emits. -/
structure Emitted (asDouble : Int → Option Double) (column : String) (target : Target) (child : Child)
    (cells : List Cell) (output : Output) : Prop where
  length : output.cells.length = cells.length
  comes : ∀ (index : Nat) (cell : Cell), cells[index]? = some cell →
    ∃ out, output.cells[index]? = some out ∧
      Comes target column (newAt asDouble child (allLeaves target cells)) cell out
  errors : ∃ reported, output.rowErrors = cells.zipIdx.filterMap (cellErrors column) ++ reported ∧
    List.Forall₂ (ReportedAt target column cells)
      (child.errors (frameColumn asDouble (allLeaves target cells))) reported

theorem allLeaves_eq_nil :
    allLeaves target cells = [] ↔ ∀ value, Cell.json value ∈ cells → target.find value = [] := by
  constructor
  · intro empty value member
    obtain ⟨index, here⟩ := List.getElem?_of_mem member
    rw [List.eq_nil_iff_forall_not_mem]
    intro path among
    have leaf := leafAt_mem here among
    rw [empty] at leaf
    cases leaf
  · intro nothing
    rw [List.eq_nil_iff_forall_not_mem]
    intro leaf member
    obtain ⟨index, value, here, path, among, -⟩ := mem_allLeaves.mp member
    rw [nothing value (List.mem_of_getElem? here)] at among
    cases among

theorem frame_map (child : Child) (leaves : List Json) :
    (frameColumn asDouble leaves).map (newLeaf child) =
      leaves.map (newAt asDouble child leaves) := by
  rw [frameColumn_eq, List.map_map]
  rfl

variable (asDouble target child cells) in
theorem errors_inside : ∀ error ∈ child.errors (frameColumn asDouble (allLeaves target cells)),
    error.position < (allLeaves target cells).length := by
  intro error member
  have bound := child.errors_at _ error member
  rwa [frameColumn_eq, List.length_map] at bound

theorem comes_unmatched {new : Json → New}
    (nothing : ∀ value, Cell.json value ∈ cells → target.find value = []) {cell : Cell}
    (member : cell ∈ cells) : Comes target column new cell cell := by
  cases cell with
  | null => rfl
  | malformed text => rfl
  | json value => exact .inl ⟨nothing value member, rfl⟩

theorem positions_eq {located : List Located} {documents : List (Nat × Json)}
    {holds : Located → Nat × Json → Prop}
    (each : List.Forall₂ (fun entry document => document.1 = entry.position ∧
      holds entry document) located documents) :
    documents.map Prod.fst = located.map Located.position := by
  induction each with
  | nil => rfl
  | cons first _ ih => rw [List.map_cons, List.map_cons, first.1, ih]

theorem comes_assigned {documents : List (Nat × Json)} {new : Json → New}
    (each : List.Forall₂ (fun entry document => document.1 = entry.position ∧
      Returned target column new entry.value document.2) (allLocated target cells) documents)
    {index : Nat} {cell : Cell} (here : cells[index]? = some cell) :
    ∃ out, (assign cells documents)[index]? = some out ∧ Comes target column new cell out := by
  have positions : documents.map Prod.fst = (allLocated target cells).map Located.position :=
    positions_eq each
  by_cases matched : ∃ value, cell = .json value ∧ target.find value ≠ []
  · obtain ⟨value, rfl, something⟩ := matched
    have member : ⟨index, value, orderDeepestFirst target (target.find value)⟩ ∈
        allLocated target cells := mem_allLocated.mpr ⟨here, something, rfl⟩
    obtain ⟨at', placed⟩ := List.getElem?_of_mem member
    obtain ⟨bound, held⟩ := List.getElem?_eq_some_iff.mp placed
    have lengths := each.length_eq
    have pair := (List.forall₂_iff_get.mp each).2 at' bound (lengths ▸ bound)
    simp only [List.get_eq_getElem, held] at pair
    have among := List.getElem_mem (lengths ▸ bound : at' < documents.length)
    have distinct : (documents.map Prod.fst).Nodup := by
      rw [positions]
      exact allLocated_nodup
    refine ⟨.json (documents[at']).2, assign_at distinct ?_ ?_, .inr ⟨something, _, pair.2, rfl⟩⟩
    · rw [← pair.1]
      exact among
    · exact (List.getElem?_eq_some_iff.mp here).1
  · have absent : index ∉ documents.map Prod.fst := by
      rw [positions]
      intro member
      obtain ⟨located, among, rfl⟩ := List.mem_map.mp member
      obtain ⟨cellHere, something, -⟩ := mem_allLocated.mp among
      rw [here] at cellHere
      exact matched ⟨located.value, Option.some.inj cellHere, something⟩
    refine ⟨cell, (assign_other absent).trans here, ?_⟩
    cases cell with
    | null => rfl
    | malformed text => rfl
    | json value =>
        exact .inl ⟨by_contra fun something => matched ⟨value, rfl, something⟩, rfl⟩

theorem run_emitted (done : run target asDouble column child cells = .ok output) :
    Emitted asDouble column target child cells output := by
  obtain ⟨reported, remapped, each⟩ :=
    remapErrors_spec column (errors_inside asDouble target child cells)
  rw [run] at done
  dsimp only at done
  split at done
  · rename_i empty
    rw [List.isEmpty_iff] at empty
    split at done
    · cases done
    · cases done
      refine ⟨rfl, fun index cell here => ⟨cell, here, ?_⟩, [], by rw [List.append_nil], ?_⟩
      · exact comes_unmatched (allLeaves_eq_nil.mp empty) (List.mem_of_getElem? here)
      · have silent : child.errors (frameColumn asDouble (allLeaves target cells)) = [] := by
          rw [List.eq_nil_iff_forall_not_mem]
          intro error member
          have bound := errors_inside asDouble target child cells error member
          rw [empty] at bound
          exact Nat.not_lt_zero _ bound
        rw [silent]
        exact .nil
  · split at done
    · cases done
    · rw [remapped] at done
      dsimp only at done
      rw [frame_map] at done
      split at done
      · cases done
      · rename_i documents written
        cases done
        exact ⟨length_assign, fun index cell here =>
          comes_assigned (writeBackAll_ok (fun _ member => member) written) here,
          reported, rfl, each⟩

variable (asDouble column child) in
/-- A run with a match ends, when the frame can be made and each cell can be written. -/
theorem run_exists (something : allLeaves target cells ≠ [])
    (framed : convertObjects asDouble {} (allLeaves target cells) ≠ none)
    (each : ∀ value, Cell.json value ∈ cells → ∃ result,
      Returned target column (newAt asDouble child (allLeaves target cells)) value result) :
    ∃ output, run target asDouble column child cells = .ok output := by
  obtain ⟨reported, remapped, -⟩ :=
    remapErrors_spec column (errors_inside asDouble target child cells)
  obtain ⟨documents, written⟩ :
      ∃ documents, writeBackAll column (allLocated target cells) ((allLeaves target cells).map
        (newAt asDouble child (allLeaves target cells))) = .ok documents :=
    writeBackAll_exists (fun _ member => member) fun entry member =>
      each entry.value (List.mem_of_getElem? (mem_allLocated.mp member).1)
  refine ⟨⟨assign cells documents, cells.zipIdx.filterMap (cellWarnings target column) ++
    child.warnings (frameColumn asDouble (allLeaves target cells)),
    cells.zipIdx.filterMap (cellErrors column) ++ reported⟩, ?_⟩
  rw [run]
  dsimp only
  rw [if_neg (by rwa [List.isEmpty_iff]), if_neg framed, remapped]
  dsimp only
  rw [frame_map, written]

variable (column child) in
theorem run_overflow (framed : convertObjects asDouble {} (allLeaves target cells) = none) :
    run target asDouble column child cells = .error .overflow := by
  have something : allLeaves target cells ≠ [] := by
    intro nothing
    rw [nothing] at framed
    cases framed
  rw [run]
  dsimp only
  rw [if_neg (by rwa [List.isEmpty_iff]), if_pos framed]

theorem run_refused {error : Failure} (nothing : allLeaves target cells = [])
    (refused : run target asDouble column child cells = .error error) :
    error = .refused (matchedNothing target column) ∧ ∃ value, Cell.json value ∈ cells := by
  rw [run] at refused
  dsimp only at refused
  rw [if_pos (by rw [nothing]; rfl)] at refused
  split at refused
  · rename_i parsed
    obtain ⟨cell, member, isOne⟩ := List.any_eq_true.mp parsed
    cases refused
    cases cell with
    | json value => exact ⟨rfl, value, member⟩
    | null => cases isOne
    | malformed text => cases isOne
  · cases refused

end Emission

/-- A document with its matches masked: an outermost match holds the masked value of its own
leaf, and what is outside the matches is unchanged. -/
structure PositionsMasked (child : Child) (paths : List Path) (value result : Json) : Prop where
  outermost : ∀ path ∈ paths, (∀ outer ∈ paths, outer <+: path → outer = path) →
    ∃ leaf, value.get path = some leaf ∧ result.get path = some (child.value leaf)
  unmatched : ∀ path, (∀ outer ∈ paths, ¬outer <+: path) →
    (result.get path).map Json.outline = (value.get path).map Json.outline

def CellMasked (target : Target) (child : Child) : Cell → Cell → Prop
  | .null, .null => True
  | .malformed text, .malformed kept => text = kept
  | .json value, .json result => PositionsMasked child (target.find value) value result
  | _, _ => False

/-- A cell masked alone comes out as `out`; where it has no match, it is refused alone and `out` is
the cell. -/
def MaskedAlone (asDouble : Int → Option Double) (column : String) (target : Target)
    (child : Child) (cell out : Cell) : Prop :=
  match run target asDouble column child [cell] with
  | .ok single => single.cells = [out]
  | .error error => error = .refused (matchedNothing target column) ∧ out = cell

/-- What the nested strategy owes to a column: every cell masked along the target and otherwise
kept, each as if it were alone, and every error of the child reported at the outer row of its leaf.
-/
structure ColumnMasked (asDouble : Int → Option Double) (column : String) (target : Target)
    (child : Child) (cells : List Cell) (output : Output) : Prop where
  length : output.cells.length = cells.length
  masked : ∀ (index : Nat) (cell : Cell), cells[index]? = some cell →
    ∃ out, output.cells[index]? = some out ∧ CellMasked target child cell out
  alone : ∀ (index : Nat) (cell out : Cell), cells[index]? = some cell →
    output.cells[index]? = some out → MaskedAlone asDouble column target child cell out
  errors : ∃ reported, output.rowErrors = cells.zipIdx.filterMap (cellErrors column) ++ reported ∧
    List.Forall₂ (ReportedAt target column cells)
      (child.errors (frameColumn asDouble (allLeaves target cells))) reported

/-- The run masks the column, unless there is nothing to mask at the target. -/
def NestedLaw (asDouble : Int → Option Double) (column : String) (target : Target) (child : Child)
    (cells : List Cell) : Prop :=
  match run target asDouble column child cells with
  | .ok output => ColumnMasked asDouble column target child cells output
  | .error error => error = .refused (matchedNothing target column) ∧
      (∃ value, Cell.json value ∈ cells) ∧
      ∀ value, Cell.json value ∈ cells → target.find value = []

/-- The columns on which every child is masked right: the frame takes the leaves as they are, those
of the column and those of each cell; nothing but nulls is matched inside a match; and no root is
found before a match of its depth. -/
structure Regular (asDouble : Int → Option Double) (target : Target) (cells : List Cell) :
    Prop where
  column : Kept asDouble (allLeaves target cells)
  alone : ∀ cell ∈ cells, Kept asDouble (allLeaves target [cell])
  inner : ∀ value, Cell.json value ∈ cells → ∀ outer ∈ target.find value,
    ∀ path ∈ target.find value, outer <+: path → outer ≠ path → value.get path = some .null
  root : ∀ value, Cell.json value ∈ cells → ∀ path, [[], path] <+ target.find value →
    depth target path ≠ 1

section Holds

variable {asDouble : Int → Option Double} {column : String} {target : Target} {child : Child}
  {cells : List Cell} {value : Json}

theorem mem_entriesOf {new : Json → New} {entry : Path × New} :
    entry ∈ entriesOf target new value ↔
      entry.1 ∈ target.find value ∧ entry.2 = new (leafAt value entry.1) := by
  rw [entriesOf, List.mem_map]
  constructor
  · rintro ⟨path, member, rfl⟩
    exact ⟨(mem_orderDeepestFirst target).mp member, rfl⟩
  · rintro ⟨member, same⟩
    exact ⟨entry.1, (mem_orderDeepestFirst target).mpr member, by rw [← same]⟩

/-- The writes of a cell are in a good order when what is inside a match is null and stays it. -/
theorem entriesOf_writable {new : Json → New}
    (inner : ∀ outer ∈ target.find value, ∀ path ∈ target.find value, outer <+: path →
      outer ≠ path → value.get path = some .null ∧ (new .null).given .null = .null)
    (root : ∀ path, [[], path] <+ target.find value → depth target path ≠ 1) :
    Writable value (entriesOf target new value) where
  present := fun entry member => target.addressed value entry.1 (mem_entriesOf.mp member).1
  ordered := by
    rw [entriesOf, List.pairwise_map]
    exact orderDeepestFirst_inner_first target (target.distinct value) root
  inner := by
    intro outer outerIn entry entryIn inside proper
    obtain ⟨outerIn, -⟩ := mem_entriesOf.mp outerIn
    obtain ⟨entryIn, same⟩ := mem_entriesOf.mp entryIn
    obtain ⟨null, stays⟩ := inner outer.1 outerIn entry.1 entryIn inside proper
    refine ⟨null, ?_⟩
    rw [same, leafAt_eq null, stays]

theorem Written.positions {new : Json → New} {result : Json}
    (written : Written value (entriesOf target new value) result)
    (right : ∀ path ∈ target.find value,
      (new (leafAt value path)).given (leafAt value path) = child.value (leafAt value path)) :
    PositionsMasked child (target.find value) value result where
  outermost := by
    intro path member topmost
    have entry : (path, new (leafAt value path)) ∈ entriesOf target new value :=
      mem_entriesOf.mpr ⟨member, rfl⟩
    have given := written.outermost _ entry fun outer outerIn =>
      topmost outer.1 (mem_entriesOf.mp outerIn).1
    obtain ⟨leaf, found⟩ := Option.isSome_iff_exists.mp (target.addressed value path member)
    refine ⟨leaf, found, ?_⟩
    rw [← leafAt_eq found, ← right path member]
    exact given
  unmatched := fun path clear =>
    written.outlines path fun entry member => clear entry.1 (mem_entriesOf.mp member).1

theorem newAt_eq (regular : ¬Retyped asDouble (allLeaves target cells)) (child : Child) {leaf : Json}
    (member : leaf ∈ allLeaves target cells) :
    newAt asDouble child (allLeaves target cells) leaf = newLeaf child leaf := by
  rw [newAt, frameEntry_eq regular member]

variable (column) in
theorem Regular.returned (regular : Regular asDouble target cells) (child : Child)
    (member : Cell.json value ∈ cells) :
    ∃ result, Returned target column (newLeaf child) value result ∧
      PositionsMasked child (target.find value) value result := by
  have writable : Writable value (entriesOf target (newLeaf child) value) :=
    entriesOf_writable
      (fun outer outerIn path pathIn inside proper =>
        ⟨regular.inner value member outer outerIn path pathIn inside proper,
          given_newLeaf_null child⟩)
      (regular.root value member)
  obtain ⟨document, done, written⟩ := writeBack_spec column writable
  exact ⟨document.parsed, ⟨document, done, rfl⟩,
    written.positions fun path _ => given_newLeaf child _⟩

theorem Returned.congr {new other : Json → New} {result : Json}
    (same : ∀ path ∈ target.find value, new (leafAt value path) = other (leafAt value path))
    (returned : Returned target column new value result) :
    Returned target column other value result := by
  obtain ⟨document, done, rfl⟩ := returned
  refine ⟨document, ?_, rfl⟩
  rw [← done]
  refine congrArg (writeBack column _) (List.map_congr_left fun path member => ?_)
  rw [same path ((mem_orderDeepestFirst target).mp member)]

theorem Regular.single (regular : Regular asDouble target cells) {cell : Cell}
    (member : cell ∈ cells) : Regular asDouble target [cell] where
  column := regular.alone cell member
  alone := by
    intro other among
    rw [List.mem_singleton.mp among]
    exact regular.alone cell member
  inner := fun value among => regular.inner value (by rwa [List.mem_singleton.mp among])
  root := fun value among => regular.root value (by rwa [List.mem_singleton.mp among])

theorem Regular.comes (regular : Regular asDouble target cells) (child : Child) {index : Nat}
    {cell : Cell} (here : cells[index]? = some cell) {out : Cell}
    (comes : Comes target column (newAt asDouble child (allLeaves target cells)) cell out) :
    Comes target column (newLeaf child) cell out := by
  cases cell with
  | null => exact comes
  | malformed text => exact comes
  | json value =>
      refine comes.imp_right fun matched => ⟨matched.1, ?_⟩
      obtain ⟨result, returned, same⟩ := matched.2
      exact ⟨result, returned.congr fun path among =>
        newAt_eq regular.column.2 child (leafAt_mem here among), same⟩

theorem Comes.unique {new : Json → New} {cell first second : Cell}
    (left : Comes target column new cell first) (right : Comes target column new cell second) :
    first = second := by
  cases cell with
  | null => exact left.trans right.symm
  | malformed text => exact left.trans right.symm
  | json value =>
      rcases left with ⟨nothing, rfl⟩ | ⟨something, result, returned, rfl⟩
      · rcases right with ⟨-, rfl⟩ | ⟨something, -⟩
        · rfl
        · exact absurd nothing something
      · rcases right with ⟨nothing, -⟩ | ⟨-, other, again, rfl⟩
        · exact absurd nothing something
        · rw [returned.unique (fun _ _ => rfl) again]

theorem Regular.masked (regular : Regular asDouble target cells) (child : Child) {cell out : Cell}
    (member : cell ∈ cells) (comes : Comes target column (newLeaf child) cell out) :
    CellMasked target child cell out := by
  cases cell with
  | null =>
      cases comes
      trivial
  | malformed text =>
      cases comes
      rfl
  | json value =>
      obtain ⟨result, returned, positions⟩ :=
        regular.returned column child member
      rcases comes with ⟨nothing, rfl⟩ | ⟨-, other, again, rfl⟩
      · refine ⟨fun path among => ?_, fun _ _ => rfl⟩
        rw [nothing] at among
        cases among
      · rw [again.unique (fun _ _ => rfl) returned]
        exact positions

theorem Regular.refused (regular : Regular asDouble target cells) (child : Child) {error : Failure}
    (refused : run target asDouble column child cells = .error error) :
    error = .refused (matchedNothing target column) ∧ (∃ value, Cell.json value ∈ cells) ∧
      ∀ value, Cell.json value ∈ cells → target.find value = [] := by
  by_cases nothing : allLeaves target cells = []
  · obtain ⟨same, parsed⟩ := run_refused nothing refused
    exact ⟨same, parsed, allLeaves_eq_nil.mp nothing⟩
  · obtain ⟨output, ends⟩ := run_exists asDouble column child nothing regular.column.1
      fun value member => by
        obtain ⟨index, here⟩ := List.getElem?_of_mem member
        obtain ⟨result, returned, -⟩ := regular.returned column child member
        exact ⟨result, returned.congr fun path among =>
          (newAt_eq regular.column.2 child (leafAt_mem here among)).symm⟩
    rw [ends] at refused
    cases refused

theorem Regular.law (regular : Regular asDouble target cells) (child : Child) :
    NestedLaw asDouble column target child cells := by
  rw [NestedLaw]
  cases done : run target asDouble column child cells with
  | error error => exact regular.refused child done
  | ok output =>
      have emitted := run_emitted done
      refine ⟨emitted.length, ?_, ?_, emitted.errors⟩
      · intro index cell here
        obtain ⟨out, found, comes⟩ := emitted.comes index cell here
        exact ⟨out, found, regular.masked child (List.mem_of_getElem? here)
          (regular.comes child here comes)⟩
      · intro index cell out here found
        have member := List.mem_of_getElem? here
        obtain ⟨held, heldAt, heldComes⟩ := emitted.comes index cell here
        rw [heldAt] at found
        cases found
        rw [MaskedAlone]
        cases ends : run target asDouble column child [cell] with
        | error error =>
            obtain ⟨same, _, nothing⟩ := (regular.single member).refused child ends
            refine ⟨same, Comes.unique heldComes ?_⟩
            exact comes_unmatched nothing (List.mem_singleton_self cell)
        | ok single =>
            have alone := run_emitted ends
            obtain ⟨first, firstAt, firstComes⟩ := alone.comes 0 cell rfl
            have same : first = out := Comes.unique
              ((regular.single member).comes child (show [cell][0]? = some cell from rfl)
                firstComes)
              (regular.comes child here heldComes)
            subst same
            obtain ⟨only, one⟩ := List.length_eq_one_iff.mp alone.length
            dsimp only
            rw [one] at firstAt ⊢
            rw [Option.some.inj firstAt]

end Holds

section Fails

variable {asDouble : Int → Option Double} {column : String} {target : Target} {cells : List Cell}
  {value : Json}

/-- The child that hands every leaf back. -/
def passthrough : Child where
  mask := fun _ => .kept
  errors := fun _ => []
  warnings := fun _ => []
  mask_null := .inl rfl
  errors_at := fun _ _ member => (List.not_mem_nil member).elim

/-- A law that holds on a column with a match is about what comes out of it. -/
theorem NestedLaw.output {child : Child} (law : NestedLaw asDouble column target child cells)
    (member : Cell.json value ∈ cells) (something : target.find value ≠ []) :
    ∃ output, run target asDouble column child cells = .ok output ∧
      ColumnMasked asDouble column target child cells output := by
  rw [NestedLaw] at law
  cases done : run target asDouble column child cells with
  | error error =>
      rw [done] at law
      exact absurd (law.2.2 value member) something
  | ok output =>
      rw [done] at law
      exact ⟨output, rfl, law⟩

theorem not_inside_scalar
    (scalar : ∀ path ∈ target.find value, isFloat (leafAt value path) = true ∨
      isInt (leafAt value path) = true ∨ isNull (leafAt value path) = true)
    {outer path : Path} (outerIn : outer ∈ target.find value) (pathIn : path ∈ target.find value)
    (inside : outer <+: path) : outer = path := by
  obtain ⟨rest, rfl⟩ := inside
  obtain ⟨leaf, found⟩ := Option.isSome_iff_exists.mp (target.addressed value outer outerIn)
  have present := target.addressed value (outer ++ rest) pathIn
  have small := scalar outer outerIn
  rw [leafAt_eq found] at small
  rw [Json.get_append, found] at present
  cases rest with
  | nil => rw [List.append_nil]
  | cons segment rest =>
      change (leaf.get (segment :: rest)).isSome = true at present
      rw [get_of_scalar small] at present
      cases present

variable (asDouble column) in
theorem retyped_leaf (retyped : Retyped asDouble (allLeaves target cells)) :
    ∃ (output : Output) (index : Nat) (value : Json) (path : Path) (leaf result : Json),
      run target asDouble column passthrough cells = .ok output ∧
      cells[index]? = some (Cell.json value) ∧ path ∈ target.find value ∧
      (∀ outer ∈ target.find value, outer <+: path → outer = path) ∧
      value.get path = some leaf ∧ output.cells[index]? = some (Cell.json result) ∧
      result.get path ≠ some leaf := by
  obtain ⟨float, leaf, member, changed⟩ := retyped
  have scalars : ∀ value, Cell.json value ∈ cells → ∀ path ∈ target.find value,
      isFloat (leafAt value path) = true ∨ isInt (leafAt value path) = true ∨
        isNull (leafAt value path) = true := by
    intro value among path pathIn
    obtain ⟨index, here⟩ := List.getElem?_of_mem among
    exact scalar_of_float64 float (leafAt_mem here pathIn)
  have each : ∀ value, Cell.json value ∈ cells → ∃ result,
      Returned target column (newAt asDouble passthrough (allLeaves target cells)) value result ∧
      Written value (entriesOf target (newAt asDouble passthrough (allLeaves target cells)) value)
        result := by
    intro value among
    have writable : Writable value
        (entriesOf target (newAt asDouble passthrough (allLeaves target cells)) value) := by
      refine entriesOf_writable (fun outer outerIn path pathIn inside proper => ?_)
        fun path both _ => ?_
      · exact absurd (not_inside_scalar (scalars value among) outerIn pathIn inside) proper
      · have same := not_inside_scalar (scalars value among) (both.subset (by simp))
          (both.subset (by simp)) (List.nil_prefix : [] <+: path)
        subst same
        exact List.pairwise_iff_forall_sublist.mp (target.distinct value) both rfl
    obtain ⟨document, done, written⟩ := writeBack_spec column writable
    exact ⟨document.parsed, ⟨document, done, rfl⟩, written⟩
  have framed : convertObjects asDouble {} (allLeaves target cells) ≠ none := by
    rw [of_decide_eq_true float]
    nofun
  obtain ⟨output, done⟩ := run_exists asDouble column passthrough (List.ne_nil_of_mem member)
    framed fun value among => (each value among).imp fun _ both => both.1
  obtain ⟨index, value, here, path, pathIn, rfl⟩ := mem_allLeaves.mp member
  have among := List.mem_of_getElem? here
  obtain ⟨out, found, comes⟩ := (run_emitted done).comes index _ here
  rcases comes with ⟨nothing, -⟩ | ⟨-, result, returned, rfl⟩
  · rw [nothing] at pathIn
    cases pathIn
  · obtain ⟨other, again, written⟩ := each value among
    rw [← returned.unique (fun _ _ => rfl) again] at written
    obtain ⟨leaf, atPath⟩ := Option.isSome_iff_exists.mp (target.addressed value path pathIn)
    have topmost : ∀ outer ∈ target.find value, outer <+: path → outer = path :=
      fun outer outerIn => not_inside_scalar (scalars value among) outerIn pathIn
    refine ⟨output, index, value, path, leaf, result, done, here, pathIn, topmost, atPath, found,
      ?_⟩
    rw [leafAt_eq atPath] at member changed
    obtain ⟨number, widened, differs⟩ := toFloat_ne float member changed
    have given := written.outermost (path, newAt asDouble passthrough (allLeaves target cells)
      (leafAt value path)) (mem_entriesOf.mpr ⟨pathIn, rfl⟩)
      fun outer outerIn => topmost outer.1 (mem_entriesOf.mp outerIn).1
    rw [given]
    intro same
    rw [leafAt_eq atPath, newAt, frameEntry, if_pos float, widened] at same
    exact differs (Option.some.inj same).symm

/-- A write that stands at a position, or finds nothing there. -/
def Standing (path : Path) (text : String) (document : Document) : Prop :=
  document.rebound = none ∧
    (document.object.get path = none ∨ document.object.get path = some (.text text))

theorem Standing.write {path : Path} {text : String} {document : Document} {entry : Path × New}
    (nonroot : path ≠ []) (above : entry.1 <+: path → entry.1 ≠ path → entry.2 = .same)
    (here : entry.1 = path → entry.2 = .value (.text text))
    (start : document.rebound = none) (stands : entry.1 ≠ path → Standing path text document) :
    Standing path text (document.write entry.1 entry.2) := by
  obtain ⟨place, new⟩ := entry
  obtain ⟨object, rebound⟩ := document
  dsimp only at above here start stands ⊢
  subst start
  by_cases same : place = path
  · subst same
    rw [here rfl]
    cases place with
    | nil => exact absurd rfl nonroot
    | cons segment rest =>
        refine ⟨rfl, ?_⟩
        change (object.set (segment :: rest) (.text text)).get _ = none ∨
          (object.set (segment :: rest) (.text text)).get _ = _
        cases held : object.get (segment :: rest) with
        | none =>
            rw [Json.set_of_get_none held]
            exact .inl held
        | some inner => exact .inr (Json.get_set_self (by rw [held]; rfl))
  · obtain ⟨-, at'⟩ := stands same
    by_cases inside : place <+: path
    · rw [above inside same]
      cases place <;> exact ⟨rfl, at'⟩
    · cases place with
      | nil => exact absurd List.nil_prefix inside
      | cons segment rest =>
          cases new with
          | same => exact ⟨rfl, at'⟩
          | value replacement =>
              refine ⟨rfl, ?_⟩
              change (object.set (segment :: rest) replacement).get path = none ∨
                (object.set (segment :: rest) replacement).get path = _
              by_cases below : path <+: segment :: rest
              · obtain ⟨deeper, split⟩ := below
                have absent : object.get (segment :: rest) = none := by
                  rw [← split, Json.get_append]
                  rcases at' with none | text
                  · rw [none]
                    rfl
                  · rw [text]
                    cases deeper with
                    | nil => exact absurd ((List.append_nil path).symm.trans split).symm same
                    | cons next deeper => cases next <;> rfl
                rw [Json.set_of_get_none absent]
                exact at'
              · rw [Json.get_set_apart ⟨inside, below⟩]
                exact at'

theorem writeBack_cons {document final : Document} {entry : Path × New}
    {rest : List (Path × New)} (done : writeBack column document (entry :: rest) = .ok final) :
    writeBack column (document.write entry.1 entry.2) rest = .ok final := by
  obtain ⟨path, new⟩ := entry
  rw [writeBack] at done
  split at done
  · cases done
  · exact done

/-- What is written at a position stands at the end, when what contains it is written back as the
object it is. -/
theorem writeBack_standing {path : Path} {text : String} {document final : Document}
    {entries : List (Path × New)} (nonroot : path ≠ [])
    (above : ∀ entry ∈ entries, entry.1 <+: path → entry.1 ≠ path → entry.2 = .same)
    (here : ∀ entry ∈ entries, entry.1 = path → entry.2 = .value (.text text))
    (start : document.rebound = none)
    (stands : Standing path text document ∨ ∃ entry ∈ entries, entry.1 = path)
    (done : writeBack column document entries = .ok final) : Standing path text final := by
  induction entries generalizing document with
  | nil =>
      cases done
      rcases stands with stands | ⟨entry, member, -⟩
      · exact stands
      · cases member
  | cons entry rest ih =>
      have start' : (document.write entry.1 entry.2).rebound = none := by
        obtain ⟨place, new⟩ := entry
        obtain ⟨object, rebound⟩ := document
        dsimp only at start
        subst start
        cases place with
        | nil =>
            rw [above ([], new) (by simp) List.nil_prefix (Ne.symm nonroot)]
            rfl
        | cons segment rest => cases new <;> rfl
      refine ih (fun entry member => above entry (List.mem_cons_of_mem _ member))
        (fun entry member => here entry (List.mem_cons_of_mem _ member)) start' ?_
        (writeBack_cons done)
      by_cases same : entry.1 = path
      · exact .inl (Standing.write nonroot (above entry (by simp)) (here entry (by simp)) start
          fun differ => absurd same differ)
      · rcases stands with stands | ⟨later, member, atPath⟩
        · exact .inl (Standing.write nonroot (above entry (by simp)) (here entry (by simp)) start
            fun _ => stands)
        · rcases List.mem_cons.mp member with rfl | member
          · exact absurd atPath same
          · exact .inr ⟨later, member, atPath⟩

open Classical in
/-- The child that changes one leaf value and hands the others back. -/
noncomputable def swapping (old new : Json) (something : old ≠ .null) : Child where
  mask := fun leaf => if leaf = old then .fresh new else .kept
  errors := fun _ => []
  warnings := fun _ => []
  mask_null := .inl (if_neg (Ne.symm something))
  errors_at := fun _ _ member => (List.not_mem_nil member).elim

section Swapping

variable {old new leaf : Json} {something : old ≠ .null}

theorem swapping_value_self : (swapping old new something).value old = new := by
  rw [Child.value, swapping]
  dsimp only
  rw [if_pos rfl]

theorem swapping_value_other (differ : leaf ≠ old) :
    (swapping old new something).value leaf = leaf := by
  rw [Child.value, swapping]
  dsimp only
  rw [if_neg differ]

theorem newLeaf_swapping_self : newLeaf (swapping old new something) old = .value new := by
  rw [newLeaf, swapping]
  dsimp only
  rw [if_pos rfl]

theorem newLeaf_swapping_other (differ : leaf ≠ old) :
    newLeaf (swapping old new something) leaf =
      if leaf.isContainer then .same else .value leaf := by
  rw [newLeaf, swapping]
  dsimp only
  rw [if_neg differ]

end Swapping

theorem container_of_get {leaf inner : Json} {rest : Path} (deeper : rest ≠ [])
    (found : leaf.get rest = some inner) : leaf.isContainer = true := by
  cases rest with
  | nil => exact absurd rfl deeper
  | cons segment rest => cases segment <;> cases leaf <;> first | rfl | cases found

theorem exists_text_ne (leaf : Json) : ∃ text, Json.text text ≠ leaf := by
  by_cases same : leaf = .text "x"
  · exact ⟨"y", by rw [same]; simp⟩
  · exact ⟨"x", Ne.symm same⟩

theorem exists_outermost {paths : List Path} {outer : Path} (member : outer ∈ paths) :
    ∃ top ∈ paths, top <+: outer ∧ ∀ above ∈ paths, above <+: top → above = top := by
  induction h : outer.length using Nat.strong_induction_on generalizing outer with
  | _ length ih =>
      by_cases top : ∀ above ∈ paths, above <+: outer → above = outer
      · exact ⟨outer, member, List.prefix_rfl, top⟩
      · push Not at top
        obtain ⟨above, aboveIn, inside, proper⟩ := top
        have shorter : above.length < length := by
          rw [← h]
          exact Nat.lt_of_le_of_ne inside.length_le fun same =>
            proper (inside.eq_of_length same)
        obtain ⟨top, topIn, topInside, topmost⟩ := ih above.length shorter aboveIn rfl
        exact ⟨top, topIn, topInside.trans inside, topmost⟩

theorem inner_null (regular : ¬Retyped asDouble (allLeaves target cells))
    (law : ∀ child, NestedLaw asDouble column target child cells)
    (member : Cell.json value ∈ cells) {outer path : Path} (outerIn : outer ∈ target.find value)
    (pathIn : path ∈ target.find value) (inside : outer <+: path) (proper : outer ≠ path) :
    value.get path = some .null := by
  obtain ⟨leaf, found⟩ := Option.isSome_iff_exists.mp (target.addressed value path pathIn)
  by_contra notNull
  rw [found, Option.some.injEq] at notNull
  obtain ⟨text, differs⟩ := exists_text_ne leaf
  obtain ⟨index, here⟩ := List.getElem?_of_mem member
  obtain ⟨output, done, masked⟩ :=
    (law (swapping leaf (.text text) notNull)).output member (List.ne_nil_of_mem pathIn)
  have nonroot : path ≠ [] := by
    rintro rfl
    exact proper (List.eq_nil_of_prefix_nil inside)
  have around : ∀ {above : Path} {held : Json}, above <+: path → above ≠ path →
      value.get above = some held → held ≠ leaf ∧ held.isContainer = true := by
    rintro above held ⟨rest, rfl⟩ differ atAbove
    have deeper : rest ≠ [] := by
      rintro rfl
      exact differ (List.append_nil above).symm
    rw [Json.get_append, atAbove] at found
    refine ⟨?_, container_of_get deeper found⟩
    rintro rfl
    exact Nat.lt_irrefl _ (Json.sizeOf_get_lt deeper found)
  -- the law keeps the outermost match, and so the leaf
  obtain ⟨out, outAt, cell⟩ := masked.masked index _ here
  obtain ⟨top, topIn, topInside, topmost⟩ := exists_outermost outerIn
  have topPath : top <+: path := topInside.trans inside
  have topProper : top ≠ path := by
    rintro rfl
    exact proper (topmost outer outerIn inside)
  -- the run leaves the text there, or nothing
  obtain ⟨out', outAt', comes⟩ := (run_emitted done).comes index _ here
  rw [outAt] at outAt'
  cases outAt'
  rcases comes with ⟨nothing, -⟩ | ⟨-, result, ⟨document, written, rfl⟩, rfl⟩
  · rw [nothing] at pathIn
    cases pathIn
  · obtain ⟨held, atTop, kept⟩ := cell.outermost top topIn topmost
    rw [swapping_value_other (around topPath topProper atTop).1, ← atTop] at kept
    obtain ⟨rest, rfl⟩ := topPath
    have same : document.parsed.get (top ++ rest) = some leaf := by
      rw [Json.get_append, kept, ← Json.get_append, found]
    have entry : ∀ place ∈ target.find value,
        newAt asDouble (swapping leaf (.text text) notNull) (allLeaves target cells)
          (leafAt value place) = newLeaf (swapping leaf (.text text) notNull)
            (leafAt value place) :=
      fun place placeIn => newAt_eq regular _ (leafAt_mem here placeIn)
    have standing : Standing (top ++ rest) text document := by
      refine writeBack_standing nonroot ?_ ?_ rfl (.inr ?_) written
      · intro write writeIn above differ
        obtain ⟨placeIn, new⟩ := mem_entriesOf.mp writeIn
        obtain ⟨held, atPlace⟩ :=
          Option.isSome_iff_exists.mp (target.addressed value write.1 placeIn)
        obtain ⟨other, container⟩ := around above differ atPlace
        rw [new, entry write.1 placeIn, leafAt_eq atPlace, newLeaf_swapping_other other,
          if_pos container]
      · intro write writeIn atPath
        obtain ⟨placeIn, new⟩ := mem_entriesOf.mp writeIn
        rw [new, entry write.1 placeIn, atPath, leafAt_eq found, newLeaf_swapping_self]
      · exact ⟨(top ++ rest, newAt asDouble (swapping leaf (.text text) notNull)
          (allLeaves target cells) (leafAt value (top ++ rest))),
          mem_entriesOf.mpr ⟨pathIn, rfl⟩, rfl⟩
    obtain ⟨rebound, stands⟩ := standing
    rw [Document.parsed, rebound] at same
    rcases stands with absent | stands
    · exact absurd (absent.symm.trans same) (by simp)
    · exact differs (Option.some.inj (stands.symm.trans same))

theorem writeBack_split {document final : Document} {front back : List (Path × New)}
    {entry : Path × New} (done : writeBack column document (front ++ entry :: back) = .ok final) :
    ∃ middle : Document,
      writeBack column (middle.write entry.1 entry.2) back = .ok final := by
  induction front generalizing document with
  | nil => exact ⟨document, writeBack_cons done⟩
  | cons first front ih => exact ih (writeBack_cons done)

theorem writeBack_apart (path : Path) {document final : Document} {entries : List (Path × New)}
    (apart : ∀ entry ∈ entries, Json.Apart entry.1 path)
    (done : writeBack column document entries = .ok final) :
    final.parsed.get path = document.parsed.get path := by
  induction entries generalizing document with
  | nil =>
      cases done
      rfl
  | cons entry rest ih =>
      rw [ih (fun entry member => apart entry (List.mem_cons_of_mem _ member))
        (writeBack_cons done)]
      exact write_apart (apart entry (by simp))

theorem write_null {path : Path} {document : Document} {held : Json} (nonroot : path ≠ [])
    (differs : held ≠ .null) :
    (document.write path (.value .null)).parsed.get path ≠ some held := by
  have set_null : ∀ root : Json, (root.set path .null).get path ≠ some held := by
    intro root
    cases found : root.get path with
    | none =>
        rw [Json.set_of_get_none found, found]
        simp
    | some inner =>
        rw [Json.get_set_self (by rw [found]; rfl)]
        exact fun same => differs (Option.some.inj same).symm
  obtain ⟨object, rebound⟩ := document
  cases path with
  | nil => exact absurd rfl nonroot
  | cons segment rest => cases rebound <;> exact set_null _

/-- Under the law for every child the root is written after the positions of its depth. -/
theorem root_last (regular : ¬Retyped asDouble (allLeaves target cells))
    (law : ∀ child, NestedLaw asDouble column target child cells)
    (member : Cell.json value ∈ cells) {path : Path} (both : [[], path] <+ target.find value) :
    depth target path ≠ 1 := by
  intro top
  have rootIn : ([] : Path) ∈ target.find value := both.subset (by simp)
  have pathIn : path ∈ target.find value := both.subset (by simp)
  have nonroot : path ≠ [] := by
    rintro rfl
    exact List.pairwise_iff_forall_sublist.mp (target.distinct value) both rfl
  have null := inner_null regular law member rootIn pathIn List.nil_prefix (Ne.symm nonroot)
  have notNull : value ≠ .null := by
    rintro rfl
    cases container_of_get nonroot null
  obtain ⟨index, here⟩ := List.getElem?_of_mem member
  obtain ⟨output, done, masked⟩ :=
    (law (swapping value (value.set path (.text "x")) notNull)).output member
      (List.ne_nil_of_mem pathIn)
  obtain ⟨out, outAt, cell⟩ := masked.masked index _ here
  obtain ⟨out', outAt', comes⟩ := (run_emitted done).comes index _ here
  rw [outAt] at outAt'
  cases outAt'
  rcases comes with ⟨nothing, -⟩ | ⟨-, result, ⟨document, written, rfl⟩, rfl⟩
  · rw [nothing] at pathIn
    cases pathIn
  · obtain ⟨held, atRoot, kept⟩ := cell.outermost [] rootIn fun outer _ inside =>
      List.eq_nil_of_prefix_nil inside
    cases atRoot
    rw [swapping_value_self] at kept
    have marked : document.parsed.get path = some (.text "x") := by
      rw [Option.some.inj kept]
      exact Json.get_set_self (by rw [null]; rfl)
    -- the position is written after the root, and nothing near it is written later
    have ordered : [[], path] <+ orderDeepestFirst target (target.find value) :=
      List.pair_sublist_insertionSort (by rw [depth_root, top]) both
    have distinct := orderDeepestFirst_nodup target (target.distinct value)
    obtain ⟨front, back, split⟩ :=
      List.append_of_mem ((mem_orderDeepestFirst target).mpr pathIn)
    have apart : ∀ place ∈ back, Json.Apart place path := by
      intro place later
      have placeIn : place ∈ target.find value := by
        rw [← mem_orderDeepestFirst, split]
        exact List.mem_append_right _ (List.mem_cons_of_mem _ later)
      have behind : [path, place] <+ orderDeepestFirst target (target.find value) := by
        rw [split]
        exact ((List.singleton_sublist.mpr later).cons_cons path).trans
          (List.sublist_append_right _ _)
      have proper : path ≠ place := by
        rintro rfl
        exact List.pairwise_iff_forall_sublist.mp distinct behind rfl
      have notRoot : place ≠ [] := by
        rintro rfl
        exact not_both_orders distinct ordered behind
      constructor
      · intro inside
        have deeper := depth_lt target notRoot inside (Ne.symm proper)
        rw [top, depth_eq] at deeper
        omega
      · rintro ⟨rest, rfl⟩
        have deeper : rest ≠ [] := by
          rintro rfl
          exact proper (List.append_nil path).symm
        have present := target.addressed value _ placeIn
        rw [Json.get_append, null] at present
        obtain ⟨inner, found⟩ := Option.isSome_iff_exists.mp present
        cases container_of_get deeper found
    rw [entriesOf, split, List.map_append, List.map_cons] at written
    obtain ⟨middle, after⟩ := writeBack_split written
    have last := writeBack_apart path (fun entry entryIn => by
      obtain ⟨place, placeIn, rfl⟩ := List.mem_map.mp entryIn
      exact apart place placeIn) after
    dsimp only at last
    rw [newAt_eq regular _ (leafAt_mem here pathIn), leafAt_eq null,
      newLeaf_swapping_other (Ne.symm notNull), marked] at last
    exact write_null nonroot (by simp) last.symm

end Fails

/-- Nested masking is right for every child strategy on exactly the regular columns: there the
typing of the collected leaves by pandas changes none of them, and every masked value goes back to
its own path. -/
theorem nested_law_iff (asDouble : Int → Option Double) (column : String) (target : Target)
    (cells : List Cell) :
    (∀ child, NestedLaw asDouble column target child cells) ↔
      Regular asDouble target cells := by
  constructor
  · intro law
    have framed : convertObjects asDouble {} (allLeaves target cells) ≠ none := by
      intro overflow
      have refused := law passthrough
      rw [NestedLaw, run_overflow column passthrough overflow] at refused
      cases refused.1
    have regular : ¬Retyped asDouble (allLeaves target cells) := by
      intro retyped
      obtain ⟨output, index, value, path, leaf, result, done, here, pathIn, topmost, atPath,
        outAt, differs⟩ := retyped_leaf asDouble column retyped
      obtain ⟨output', done', masked⟩ :=
        (law passthrough).output (List.mem_of_getElem? here) (List.ne_nil_of_mem pathIn)
      rw [done] at done'
      cases done'
      obtain ⟨out, outAt', cell⟩ := masked.masked index _ here
      rw [outAt] at outAt'
      cases outAt'
      obtain ⟨held, atPath', kept⟩ := cell.outermost path pathIn topmost
      rw [atPath] at atPath'
      cases atPath'
      exact differs kept
    refine ⟨⟨framed, regular⟩, fun cell member => ⟨?_, ?_⟩,
      fun value member outer outerIn path pathIn inside proper =>
        inner_null regular law member outerIn pathIn inside proper,
      fun value member path both => root_last regular law member both⟩
    · intro overflow
      obtain ⟨value, parsed, something⟩ : ∃ value, cell = .json value ∧
          target.find value ≠ [] := by
        by_contra nothing
        have leaves : allLeaves target [cell] = [] := by
          refine allLeaves_eq_nil.mpr fun value among => by_contra fun something => ?_
          exact nothing ⟨value, (List.mem_singleton.mp among).symm, something⟩
        rw [leaves] at overflow
        cases overflow
      subst parsed
      obtain ⟨position, atCell⟩ := List.getElem?_of_mem member
      obtain ⟨output, done, masked⟩ := (law passthrough).output member something
      obtain ⟨out, found, _⟩ := masked.masked position _ atCell
      have alone := masked.alone position _ out atCell found
      rw [MaskedAlone, run_overflow column passthrough overflow] at alone
      cases alone.1
    intro retyped
    obtain ⟨single, index, value, path, leaf, result, ends, here, pathIn, topmost, atPath,
      outAt, differs⟩ := retyped_leaf asDouble column retyped
    obtain ⟨zero, same⟩ : index = 0 ∧ cell = .json value := by
      cases index with
      | zero => exact ⟨rfl, Option.some.inj here⟩
      | succ index => cases here
    subst zero
    subst same
    obtain ⟨position, atCell⟩ := List.getElem?_of_mem member
    obtain ⟨output, done, masked⟩ :=
      (law passthrough).output member (List.ne_nil_of_mem pathIn)
    obtain ⟨out, found, cellMasked⟩ := masked.masked position _ atCell
    have alone : single.cells = [out] := by
      have alone := masked.alone position _ out atCell found
      rwa [MaskedAlone, ends] at alone
    rw [alone] at outAt
    cases outAt
    obtain ⟨held, atPath', kept⟩ := cellMasked.outermost path pathIn topmost
    rw [atPath] at atPath'
    cases atPath'
    exact differs kept
  · exact fun regular child => regular.law child

/-- A path as it is printed: the segments with dots between them. -/
def printPath : Path → List Char
  | [] => ['$']
  | segment :: rest => printed segment ++ rest.flatMap fun segment => '.' :: printed segment
where
  printed : Segment → List Char
    | .field name => name.toList
    | .index position => '[' :: (toString position).toList ++ [']']

theorem printPath_child (path : Path) (segment : Segment) (nonroot : path ≠ []) :
    (printPath path).count '.' < (printPath (path ++ [segment])).count '.' := by
  cases path with
  | nil => exact absurd rfl nonroot
  | cons head rest =>
      simp only [List.cons_append, printPath, List.flatMap_append, List.flatMap_singleton,
        List.count_append, List.count_cons_self]
      omega

/-- The target `$.name`. -/
def fieldTarget (name : String) : Target where
  text := "$." ++ name
  find := fun value => if (value.child (.field name)).isSome then [[.field name]] else []
  printed := printPath
  addressed := by
    intro value path member
    split at member
    · rename_i present
      rw [List.mem_singleton.mp member]
      obtain ⟨inner, found⟩ := Option.isSome_iff_exists.mp present
      rw [Json.get, found]
      rfl
    · cases member
  distinct := by
    intro value
    split
    · exact List.nodup_singleton _
    · exact List.nodup_nil
  printed_root := rfl
  printed_child := printPath_child

/-- 1.5 -/
def oneAndHalf : Double :=
  .number (.finite false ⟨3 * 2 ^ 51, -52, by norm_num, by norm_num, by norm_num,
    .inl (by norm_num)⟩)

/-- `{"a": 1.5}` above `{"a": null}` under passthrough: the null comes out as NaN. No integer is
rounded here. -/
theorem null_beside_number :
    ¬NestedLaw (fun _ => some oneAndHalf) "payload" (fieldTarget "a") passthrough
      [.json (.object [("a", .float oneAndHalf)]), .json (.object [("a", .null)])] := by
  intro law
  have done : run (fieldTarget "a") (fun _ => some oneAndHalf) "payload" passthrough
      [.json (.object [("a", .float oneAndHalf)]), .json (.object [("a", .null)])] =
      .ok ⟨[.json (.object [("a", .float oneAndHalf)]), .json (.object [("a", .float .nan)])],
        [], []⟩ := rfl
  rw [NestedLaw, done] at law
  obtain ⟨out, outAt, cell⟩ := law.masked 1 (.json (.object [("a", .null)])) rfl
  cases outAt
  obtain ⟨leaf, found, kept⟩ := cell.outermost [.field "a"] (List.mem_singleton.mpr rfl)
    fun outer member _ => List.mem_singleton.mp member
  cases found
  cases kept

end DecoyEngine.Execution.Nested
