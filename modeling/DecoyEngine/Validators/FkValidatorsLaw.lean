import DecoyEngine.Data.Checked
import DecoyEngine.Execution.MultiParent
import DecoyEngine.Validators.FkValidators

namespace DecoyEngine.Validators

open DecoyEngine.Data DecoyEngine.Execution DecoyEngine.Relationships

/-! When the validators agree with the resolver on what a broken and a null key is. -/

/-- A relationship of `parent` and `child` is declared. -/
def Declared (relationships : List RelationshipEntry) (parent child : KeyColumns) : Prop :=
  ∃ rel ∈ relationships, rel.parent = parent ∧ child ∈ rel.children

/-- The keys of a table, row by row. -/
def keysOf (tables : List (String × Table)) (key : KeyColumns) : List (List ArrowCell) :=
  match tables.lookup key.table with
  | none => []
  | some table => keyRows (key.columns.filterMap table.column)

/-- Masked tables that hold the columns their relationships name. -/
structure Outputs (relationships : List RelationshipEntry) where
  tables : List (String × Table)
  parents : ∀ rel ∈ relationships, ∃ table, tables.lookup rel.parent.table = some table ∧
    ∀ column ∈ rel.parent.columns, column ∈ table.names
  children : ∀ rel ∈ relationships, ∀ child ∈ rel.children, ∀ table,
    tables.lookup child.table = some table → ∀ column ∈ child.columns, column ∈ table.names

section Semantics

variable (relationships : List RelationshipEntry) (tables : List (String × Table))

/-- Some row of the parent carries the key, as `_parent_map` reads the parent. -/
def Holds (parent : KeyColumns) (row : List ArrowCell) : Prop :=
  ∃ parentRow ∈ keysOf tables parent, parentRow.any pdIsna = false ∧
    tupleIdentity (normalizedKey parentRow) = tupleIdentity (normalizedKey row)

/-- The rows of the child whose key has the property, in order. -/
def rowsWhere (child : KeyColumns) (property : List ArrowCell → Bool) : List Nat :=
  ((keysOf tables child).zipIdx.filter fun entry => property entry.1).map Prod.snd

/-- The rows in which the resolver reads a null key. -/
def nullKeyRows (child : KeyColumns) : List Nat :=
  rowsWhere tables child fun row => (childKey row).isNone

open Classical in
/-- The rows in which the resolver reads a key that no declared parent holds. -/
noncomputable def brokenKeyRows (child : KeyColumns) : List Nat :=
  rowsWhere tables child fun row => decide (childKey row ≠ none ∧
    ∀ parent, Declared relationships parent child → ¬ Holds tables parent row)

/-- The failing rows of one relationship. -/
def fkIntactRows (parent child : KeyColumns) : List Nat :=
  brokenRows ((keysOf tables parent).filter fun row => !row.any isNone)
    ((keysOf tables child).map fun row => if row.all isNone then none else some row)

def noOrphanRows (child : KeyColumns) : List Nat :=
  nullRows ((keysOf tables child).map fun row => if row.all isNone then none else some row)

def declaredPairs : List (KeyColumns × KeyColumns) :=
  relationships.flatMap fun rel => rel.children.map fun child => (rel.parent, child)

end Semantics

/-- What a masked component is in the table it is written to. -/
def WritesCell (value : FkComponent) (cell : ArrowCell) : Prop :=
  if value.isNullLike then cell.val = .null
  else pdIsna cell = false ∧ pyIdentity cell.val = pyIdentity value

def WritesKey (masked : Option (List FkComponent)) (row : List ArrowCell) : Prop :=
  match masked with
  | none => row.all isNone = true
  | some values => List.Forall₂ WritesCell values row

/-- A run of `_resolve_fk_node` for the child columns that wrote these tables. -/
structure FkRun (relationships : List RelationshipEntry) (tables : List (String × Table))
    (child : KeyColumns) where
  edges : List RelationshipEdge
  declared : ∀ edge ∈ edges, ∃ parent, Declared relationships parent child ∧
    edge.parent = parent.node
  parentRows : NodeKey → List ParentRow
  columnErrors : NodeKey → String → Dict Nat String
  remapFn : RelationshipEdge → List (List FkComponent) → List (List FkComponent)
  childRows : List (List ArrowCell)
  resolved : Resolved (List FkComponent)
  ran : resolveFkNode tupleIdentity edges
    (fun node => (parentMapsOf (ofLex node).2 (columnErrors node) (parentRows node)).map)
    (fun node => (parentMapsOf (ofLex node).2 (columnErrors node) (parentRows node)).errored)
    remapFn (childRows.map childKey) = some (.ok resolved)
  parents_written : ∀ parent, Declared relationships parent child →
    List.Forall₂ (fun row written => WritesKey (some row.masked) written)
      (parentRows parent.node) (keysOf tables parent)
  child_written : List.Forall₂ WritesKey resolved.masked (keysOf tables child)

/-- Every child key that is not null was found in a declared parent. -/
def FkRun.Found {relationships : List RelationshipEntry} {tables : List (String × Table)}
    {child : KeyColumns} (run : FkRun relationships tables child) : Prop :=
  ∀ row ∈ run.childRows, ∀ key, childKey row = some key → ∃ edge ∈ run.edges,
    (parentMapsOf (ofLex edge.parent).2 (run.columnErrors edge.parent)
      (run.parentRows edge.parent)).map.find (tupleIdentity key) ≠ none

/-- Every child of the relationships was resolved, and every key found. -/
def FullyResolved (relationships : List RelationshipEntry) (tables : List (String × Table)) :
    Prop :=
  ∀ parent child, Declared relationships parent child →
    ∃ run : FkRun relationships tables child, run.Found

/-- The findings of both validators are, relationship by relationship, those of the rows that the
resolver reads as broken and as null; a fully resolved run has none of the first kind. -/
structure ValidatorsAgree (relationships : List RelationshipEntry)
    (tables : List (String × Table)) : Prop where
  fk_intact : validateFkIntact tables relationships =
    .ok ((declaredPairs relationships).filterMap fun pair =>
      fkIntactFinding pair.1 pair.2 (brokenKeyRows relationships tables pair.2))
  no_orphan_children : validateNoOrphanChildren tables relationships =
    (declaredPairs relationships).filterMap fun pair =>
      noOrphanFinding pair.1 pair.2 (nullKeyRows tables pair.2)
  resolved : FullyResolved relationships tables →
    validateFkIntact tables relationships = .ok []

/-- A key with a missing component is null in every component. -/
def WholeKeys (relationships : List RelationshipEntry) (tables : List (String × Table)) : Prop :=
  ∀ parent child, Declared relationships parent child → ∀ row ∈ keysOf tables child,
    row.any pdIsna = true → row.all isNone = true

/-- A complete key that one declared parent holds is held by all of them. -/
def AgreedParents (relationships : List RelationshipEntry) (tables : List (String × Table)) :
    Prop :=
  ∀ child parent other, Declared relationships parent child → Declared relationships other child →
    ∀ row ∈ keysOf tables child, row.any pdIsna = false →
      Holds tables parent row → Holds tables other row

theorem isNone_iff {cell : ArrowCell} : isNone cell = true ↔ cell.val = .null := decide_eq_true_iff

theorem pyIdentity_normalized {cell : ArrowCell} (present : pdIsna cell = false) :
    pyIdentity (fkKeyValue cell.val).toObject = pyIdentity cell.val := by
  rw [pyIdentity, pyIdentity, number_toObject, number_fkKeyValue]
  cases number : cell.val.number with
  | some value => rfl
  | none =>
      obtain ⟨value, notTime⟩ := cell
      rw [pdIsna_eq] at present
      dsimp only at number present ⊢
      cases value with
      | null => cases present
      | bool value => cases number
      | int value => cases number
      | float value =>
          cases value with
          | nan => cases present
          | number value => cases value <;> cases number
      | decimal value => cases number
      | str text => rfl
      | bytes value => rfl
      | date ordinal => rfl
      | timestamp value => rfl
      | notATime => cases notTime

theorem tupleIdentity_normalized {row : List ArrowCell} (present : row.any pdIsna = false) :
    tupleIdentity (normalizedKey row) = tupleIdentity (row.map Subtype.val) := by
  rw [tupleIdentity, tupleIdentity, normalizedKey, List.map_map, List.map_map]
  refine List.map_congr_left fun cell member => pyIdentity_normalized ?_
  exact Bool.eq_false_iff.mpr (List.any_eq_false.mp present cell member)

theorem pdIsna_of_identity {cell other : ArrowCell} (present : pdIsna cell = false)
    (same : pyIdentity other.val = pyIdentity cell.val) : pdIsna other = false := by
  by_contra missing
  rw [Bool.not_eq_false, pdIsna_eq] at missing
  rw [pdIsna_eq] at present
  obtain ⟨value, notTime⟩ := other
  obtain ⟨wanted, wantedNotTime⟩ := cell
  dsimp only at missing same present
  have isObject : pyIdentity value = .object value := by
    cases value with
    | float value =>
        cases value with
        | nan => rfl
        | number value => cases missing
    | null => rfl
    | _ => cases missing
  rw [isObject, pyIdentity] at same
  cases number : wanted.number with
  | some value' => simp [number] at same
  | none =>
      rw [number] at same
      obtain rfl := PyIdentity.object.inj same
      rw [missing] at present
      cases present

theorem present_of_identity {row other : List ArrowCell} (present : row.any pdIsna = false)
    (same : tupleIdentity (other.map Subtype.val) = tupleIdentity (row.map Subtype.val)) :
    other.any pdIsna = false := by
  induction other generalizing row with
  | nil => rfl
  | cons cell other ih =>
      cases row with
      | nil => cases same
      | cons wanted row =>
          rw [List.any_cons, Bool.or_eq_false_iff] at present ⊢
          obtain ⟨first, rest⟩ := List.cons.inj same
          exact ⟨pdIsna_of_identity present.1 first, ih present.2 rest⟩

theorem missing_of_isNone {row : List ArrowCell} (nonempty : row ≠ [])
    (all : row.all isNone = true) : row.any pdIsna = true := by
  cases row with
  | nil => exact absurd rfl nonempty
  | cons cell row =>
      rw [List.all_cons, Bool.and_eq_true, isNone_iff] at all
      rw [List.any_cons, pdIsna_eq, all.1]
      rfl

theorem childKey_eq_none {row : List ArrowCell} : childKey row = none ↔ row.any pdIsna = true := by
  rw [childKey]
  split
  · rename_i missing
    exact iff_of_true rfl missing
  · rename_i present
    exact iff_of_false nofun present

theorem keyRows_ne_nil {columnCells : List (List ArrowCell)} {row : List ArrowCell}
    (member : row ∈ keyRows columnCells) : row ≠ [] := by
  cases columnCells with
  | nil => cases member
  | cons first rest =>
      obtain ⟨i, inRange, rfl⟩ := List.mem_map.mp member
      have cell := List.getElem?_eq_getElem (List.mem_range.mp inRange)
      simp only [List.filterMap_cons, cell]
      exact List.cons_ne_nil _ _

theorem keysOf_ne_nil {tables : List (String × Table)} {key : KeyColumns} {row : List ArrowCell}
    (member : row ∈ keysOf tables key) : row ≠ [] := by
  rw [keysOf] at member
  split at member
  · cases member
  · exact keyRows_ne_nil member

section Tables

variable {relationships : List RelationshipEntry} {tables : List (String × Table)}
  {parent child : KeyColumns} {row : List ArrowCell} {i : Nat}
  {property other : List ArrowCell → Bool}

theorem mem_rowsWhere :
    i ∈ rowsWhere tables child property ↔
      ∃ row, (keysOf tables child)[i]? = some row ∧ property row = true := by
  rw [rowsWhere, List.mem_map]
  constructor
  · rintro ⟨⟨row, position⟩, member, rfl⟩
    obtain ⟨inRows, holds⟩ := List.mem_filter.mp member
    exact ⟨row, List.mem_zipIdx_iff_getElem?.mp inRows, holds⟩
  · rintro ⟨row, found, holds⟩
    exact ⟨(row, i), List.mem_filter.mpr ⟨List.mem_zipIdx_iff_getElem?.mpr found, holds⟩, rfl⟩

theorem rowsWhere_sublist (implies : ∀ row ∈ keysOf tables child, property row = true →
    other row = true) : (rowsWhere tables child property).Sublist (rowsWhere tables child other) := by
  have both : (keysOf tables child).zipIdx.filter (fun entry => property entry.1) =
      ((keysOf tables child).zipIdx.filter fun entry => other entry.1).filter
        fun entry => property entry.1 := by
    rw [List.filter_filter]
    refine List.filter_congr fun entry member => ?_
    have inKeys := List.mem_of_getElem? (List.mem_zipIdx_iff_getElem?.mp member)
    cases holds : property entry.1 with
    | false => rfl
    | true => rw [implies entry.1 inKeys holds]; rfl
  rw [rowsWhere, both]
  exact List.filter_sublist.map _

theorem rowsWhere_congr (same : ∀ row ∈ keysOf tables child, property row = other row) :
    rowsWhere tables child property = rowsWhere tables child other := by
  rw [rowsWhere, rowsWhere]
  refine congrArg _ (List.filter_congr fun entry member => ?_)
  exact same entry.1 (List.mem_of_getElem? (List.mem_zipIdx_iff_getElem?.mp member))

theorem same_of_rowsWhere (same : rowsWhere tables child property = rowsWhere tables child other)
    (member : row ∈ keysOf tables child) : property row = true ↔ other row = true := by
  obtain ⟨i, found⟩ := List.mem_iff_getElem?.mp member
  have select : ∀ condition : List ArrowCell → Bool,
      i ∈ rowsWhere tables child condition ↔ condition row = true := by
    intro condition
    rw [mem_rowsWhere, found]
    simp
  rw [← select property, ← select other, same]

theorem rowsWhere_eq_filterMap : rowsWhere tables child property =
    (keysOf tables child).zipIdx.filterMap fun entry =>
      if property entry.1 then some entry.2 else none := by
  rw [rowsWhere]
  induction (keysOf tables child).zipIdx with
  | nil => rfl
  | cons entry rest ih =>
      cases holds : property entry.1 with
      | false => simpa [holds] using ih
      | true => simpa [holds] using ih

theorem fkIntactRows_eq : fkIntactRows tables parent child =
    rowsWhere tables child fun row => !row.all isNone &&
      !inPkSet ((keysOf tables parent).filter fun row => !row.any isNone) row := by
  rw [rowsWhere_eq_filterMap, fkIntactRows]
  generalize (keysOf tables parent).filter (fun row => !row.any isNone) = pkSet
  rw [brokenRows, List.zipIdx_map, List.filterMap_map]
  refine List.filterMap_congr fun entry _ => ?_
  obtain ⟨row, i⟩ := entry
  cases null : row.all isNone <;> cases inSet : inPkSet pkSet row <;> simp [null, inSet]

theorem noOrphanRows_eq :
    noOrphanRows tables child = rowsWhere tables child fun row => row.all isNone := by
  rw [rowsWhere_eq_filterMap, noOrphanRows, nullRows, List.zipIdx_map, List.filterMap_map]
  refine List.filterMap_congr fun entry _ => ?_
  obtain ⟨row, i⟩ := entry
  cases null : row.all isNone <;> simp [null]

theorem mem_fkIntactRows :
    i ∈ fkIntactRows tables parent child ↔
      ∃ row, (keysOf tables child)[i]? = some row ∧ row.all isNone = false ∧
        inPkSet ((keysOf tables parent).filter fun row => !row.any isNone) row = false := by
  rw [fkIntactRows_eq, mem_rowsWhere]
  simp

/-- A complete key is in the set of a parent exactly when the resolver finds it there. -/
theorem inPkSet_iff (present : row.any pdIsna = false) :
    inPkSet ((keysOf tables parent).filter fun row => !row.any isNone) row = true ↔
      Holds tables parent row := by
  have noNaN : row.any isNaN = false := by
    refine List.any_eq_false.mpr fun cell member isNan => ?_
    have missing := List.any_eq_false.mp present cell member
    rw [pdIsna_eq, of_decide_eq_true isNan] at missing
    exact missing rfl
  rw [inPkSet, noNaN, Bool.not_false, Bool.true_and, List.any_eq_true]
  apply exists_congr
  intro parentRow
  rw [List.mem_filter, decide_eq_true_eq, and_assoc]
  refine and_congr_right fun _ => ?_
  constructor
  · intro ⟨_, same⟩
    have complete := present_of_identity present same.symm
    refine ⟨complete, ?_⟩
    rw [tupleIdentity_normalized complete, tupleIdentity_normalized present, same]
  · intro ⟨complete, same⟩
    rw [tupleIdentity_normalized complete, tupleIdentity_normalized present] at same
    refine ⟨?_, same.symm⟩
    rw [Bool.not_eq_true', List.any_eq_false]
    intro cell member isNull
    have there := List.any_eq_false.mp complete cell member
    rw [pdIsna_eq, isNone_iff.mp isNull] at there
    exact there rfl

end Tables

theorem fkIntactChild_eq (tables : List (String × Table)) (parent child : KeyColumns) :
    fkIntactChild tables parent ((keysOf tables parent).filter fun row => !row.any isNone) child =
      fkIntactFinding parent child (fkIntactRows tables parent child) := by
  rw [fkIntactChild, fkIntactRows]
  cases found : tables.lookup child.table with
  | none =>
      have none : keysOf tables child = [] := by rw [keysOf, found]
      rw [none]
      rfl
  | some childTable =>
      have rows : keysOf tables child = keyRows (child.columns.filterMap childTable.column) := by
        rw [keysOf, found]
      rw [rows]
      rfl

theorem fkIntactEntry_eq {relationships : List RelationshipEntry} (outputs : Outputs relationships)
    {rel : RelationshipEntry} (member : rel ∈ relationships) :
    fkIntactEntry outputs.tables rel = .ok (rel.children.filterMap fun child =>
      fkIntactFinding rel.parent child (fkIntactRows outputs.tables rel.parent child)) := by
  obtain ⟨table, found, named⟩ := outputs.parents rel member
  have none : rel.parent.columns.filter (· ∉ table.names) = [] :=
    List.filter_eq_nil_iff.mpr fun column inColumns => by simpa using named column inColumns
  have rows : keysOf outputs.tables rel.parent =
      keyRows (rel.parent.columns.filterMap table.column) := by rw [keysOf, found]
  have keys : parentPkSet table rel.parent.columns rel.parent.table =
      .ok ((keysOf outputs.tables rel.parent).filter fun row => !row.any isNone) := by
    rw [parentPkSet, none, rows]
    rfl
  rw [fkIntactEntry, found]
  dsimp only
  rw [keys]
  exact congrArg Except.ok (List.filterMap_congr fun child _ => fkIntactChild_eq _ _ child)

theorem validateFkIntact_eq {relationships : List RelationshipEntry}
    (outputs : Outputs relationships) :
    validateFkIntact outputs.tables relationships =
      .ok ((declaredPairs relationships).filterMap fun pair =>
        fkIntactFinding pair.1 pair.2 (fkIntactRows outputs.tables pair.1 pair.2)) := by
  have findings : relationships.mapM (fkIntactEntry outputs.tables) =
      .ok (relationships.map fun rel => rel.children.filterMap fun child =>
        fkIntactFinding rel.parent child (fkIntactRows outputs.tables rel.parent child)) := by
    apply mapM_eq_ok.mpr
    rw [List.forall₂_map_right_iff, List.forall₂_same]
    exact fun rel member => fkIntactEntry_eq outputs member
  rw [validateFkIntact, findings]
  apply congrArg Except.ok
  rw [declaredPairs, List.filterMap_flatMap, List.flatMap_def]
  apply congrArg List.flatten
  refine List.map_congr_left fun rel _ => ?_
  rw [List.filterMap_map]
  rfl

theorem validateNoOrphanChildren_eq (tables : List (String × Table))
    (relationships : List RelationshipEntry) :
    validateNoOrphanChildren tables relationships =
      (declaredPairs relationships).filterMap fun pair =>
        noOrphanFinding pair.1 pair.2 (noOrphanRows tables pair.2) := by
  rw [declaredPairs, List.filterMap_flatMap, validateNoOrphanChildren]
  refine List.flatMap_congr fun rel _ => ?_
  rw [List.filterMap_map]
  refine List.filterMap_congr fun child _ => ?_
  rw [Function.comp_apply, noOrphanRows, keysOf]
  cases tables.lookup child.table with
  | none => rfl
  | some childTable => rfl

theorem rows_of_findings {α : Type} {finding : α → List Nat → Option ValidatorFinding}
    (keeps : ∀ a failing,
      (finding a failing).toList.flatMap ValidatorFinding.failingRowIndices = failing)
    (rows : α → List Nat) (entries : List α) :
    (entries.filterMap fun a => finding a (rows a)).flatMap ValidatorFinding.failingRowIndices =
      entries.flatMap rows := by
  induction entries with
  | nil => rfl
  | cons a entries ih =>
      rw [List.flatMap_cons, ← ih, ← keeps a (rows a)]
      cases found : finding a (rows a) with
      | none => simp [found]
      | some finding => simp [found]

theorem fkIntactFinding_rows (pair : KeyColumns × KeyColumns) (failing : List Nat) :
    (fkIntactFinding pair.1 pair.2 failing).toList.flatMap ValidatorFinding.failingRowIndices =
      failing := by
  rw [fkIntactFinding]
  split
  · rename_i empty
    exact empty.symm
  · exact List.append_nil failing

theorem noOrphanFinding_rows (pair : KeyColumns × KeyColumns) (failing : List Nat) :
    (noOrphanFinding pair.1 pair.2 failing).toList.flatMap ValidatorFinding.failingRowIndices =
      failing := by
  rw [noOrphanFinding]
  split
  · rename_i empty
    exact empty.symm
  · exact List.append_nil failing

theorem eq_of_flatMap_eq {α β : Type} {few many : α → List β} {entries : List α}
    (parts : ∀ a ∈ entries, (few a).Sublist (many a))
    (same : entries.flatMap few = entries.flatMap many) : ∀ a ∈ entries, few a = many a := by
  induction entries with
  | nil => exact nofun
  | cons a entries ih =>
      rw [List.forall_mem_cons] at parts ⊢
      rw [List.flatMap_cons, List.flatMap_cons] at same
      have shorter := parts.1.length_le
      have rest : (entries.flatMap few).length ≤ (entries.flatMap many).length := by
        rw [List.length_flatMap, List.length_flatMap]
        exact List.sum_le_sum fun b member => (parts.2 b member).length_le
      have total := congrArg List.length same
      rw [List.length_append, List.length_append] at total
      obtain ⟨first, later⟩ := List.append_inj same (by omega)
      exact ⟨first, ih parts.2 later⟩

theorem mem_declaredPairs {relationships : List RelationshipEntry} {parent child : KeyColumns} :
    (parent, child) ∈ declaredPairs relationships ↔ Declared relationships parent child := by
  rw [declaredPairs, List.mem_flatMap]
  apply exists_congr
  intro rel
  rw [List.mem_map]
  constructor
  · intro ⟨member, other, inChildren, same⟩
    obtain ⟨rfl, rfl⟩ := Prod.mk.inj same
    exact ⟨member, rfl, inChildren⟩
  · intro ⟨member, same, inChildren⟩
    exact ⟨member, child, inChildren, by rw [same]⟩

theorem validateFkIntact_nil_iff {relationships : List RelationshipEntry}
    (outputs : Outputs relationships) :
    validateFkIntact outputs.tables relationships = .ok [] ↔
      ∀ parent child, Declared relationships parent child →
        fkIntactRows outputs.tables parent child = [] := by
  rw [validateFkIntact_eq, Except.ok.injEq, List.filterMap_eq_nil_iff]
  constructor
  · intro silent parent child declared
    have none := silent (parent, child) (mem_declaredPairs.mpr declared)
    by_contra some
    rw [fkIntactFinding, if_neg some] at none
    cases none
  · intro clean pair member
    rw [fkIntactFinding, if_pos (clean pair.1 pair.2 (mem_declaredPairs.mp member))]

theorem WritesCell.congr {value : FkComponent} {cell other : ArrowCell}
    (left : WritesCell value cell) (right : WritesCell value other)
    (present : pdIsna cell = false) :
    pdIsna other = false ∧ pyIdentity other.val = pyIdentity cell.val := by
  rw [WritesCell] at left right
  split at left
  · rw [pdIsna_eq, left] at present
    cases present
  · rename_i there
    rw [if_neg there] at right
    exact ⟨right.1, right.2.trans left.2.symm⟩

theorem writesKey_congr {values : List FkComponent} {row other : List ArrowCell}
    (left : WritesKey (some values) row) (right : WritesKey (some values) other)
    (present : row.any pdIsna = false) :
    other.any pdIsna = false ∧
      tupleIdentity (other.map Subtype.val) = tupleIdentity (row.map Subtype.val) := by
  have cells : List.Forall₂ WritesCell values row := left
  have others : List.Forall₂ WritesCell values other := right
  clear left right
  induction cells generalizing other with
  | nil =>
      cases others
      exact ⟨rfl, rfl⟩
  | cons first rest ih =>
      cases others with
      | cons otherFirst otherRest =>
          rw [List.any_cons, Bool.or_eq_false_iff] at present
          obtain ⟨there, same⟩ := first.congr otherFirst present.1
          obtain ⟨restThere, restSame⟩ := ih present.2 otherRest
          refine ⟨?_, ?_⟩
          · rw [List.any_cons, there, restThere]
            rfl
          · exact congrArg₂ List.cons same restSame

theorem FkRun.holds {relationships : List RelationshipEntry} {tables : List (String × Table)}
    {child : KeyColumns} (run : FkRun relationships tables child) (found : run.Found)
    {row : List ArrowCell} (member : row ∈ keysOf tables child)
    (present : row.any pdIsna = false) :
    ∃ parent, Declared relationships parent child ∧ Holds tables parent row := by
  obtain ⟨i, inRange, isRow⟩ := List.getElem_of_mem member
  have written := run.child_written
  have width : i < run.resolved.masked.length := by rw [written.length_eq]; exact inRange
  have writes : WritesKey (run.resolved.masked[i]) row := isRow ▸ written.get width inRange
  have ran := run.ran
  cases edges : run.edges with
  | nil =>
      rw [edges, resolveFkNode] at ran
      cases ran
  | cons edge extraEdges =>
      rw [edges, resolveFkNode] at ran
      have law := resolveFkKeys_resolved (Option.some.inj ran)
      have inChild : i < run.childRows.length := by
        have length := law.length
        rw [List.length_map] at length
        omega
      have source : (run.childRows.map childKey)[i]? = some (childKey run.childRows[i]) := by
        rw [List.getElem?_map, List.getElem?_eq_getElem inChild]
        rfl
      cases key : childKey run.childRows[i] with
      | none =>
          rw [key] at source
          have masked := law.null i source
          rw [List.getElem?_eq_getElem width, Option.some.injEq] at masked
          rw [masked] at writes
          have missing := missing_of_isNone (keysOf_ne_nil member) writes
          rw [present] at missing
          cases missing
      | some value =>
          rw [key] at source
          obtain ⟨hitEdge, inEdges, hit⟩ :=
            found run.childRows[i] (List.getElem_mem inChild) value key
          rw [edges] at inEdges
          have merged := find_mergeParentMaps
            (fun node => (parentMapsOf (ofLex node).2 (run.columnErrors node)
              (run.parentRows node)).map) edge extraEdges (tupleIdentity value)
          have isSome : ((edge :: extraEdges).findSome? fun e =>
              ((parentMapsOf (ofLex e.parent).2 (run.columnErrors e.parent)
                (run.parentRows e.parent)).map).find (tupleIdentity value)).isSome := by
            rw [List.findSome?_isSome_iff]
            exact ⟨hitEdge, inEdges, Option.isSome_iff_ne_none.mpr hit⟩
          obtain ⟨masked, isMasked⟩ := Option.isSome_iff_exists.mp isSome
          rw [isMasked] at merged
          have answer := law.mapped i value masked source merged
          rw [List.getElem?_eq_getElem width, Option.some.injEq] at answer
          rw [answer] at writes
          obtain ⟨hitFrom, inFrom, fromHit⟩ := List.exists_of_findSome?_eq_some isMasked
          obtain ⟨parent, declared, node⟩ := run.declared hitFrom (edges ▸ inFrom)
          obtain ⟨parentRow, ⟨j, isParent, -⟩, -, isValue⟩ := parentMapsOf_map_find fromHit
          rw [node] at isParent
          have parentsWritten := run.parents_written parent declared
          obtain ⟨inParents, isParentRow⟩ := List.getElem?_eq_some_iff.mp isParent
          have inOutput : j < (keysOf tables parent).length := by
            rw [← parentsWritten.length_eq]
            exact inParents
          have parentWrites := parentsWritten.get inParents inOutput
          simp only [List.get_eq_getElem] at parentWrites
          rw [isParentRow, isValue] at parentWrites
          obtain ⟨complete, same⟩ := writesKey_congr writes parentWrites present
          refine ⟨parent, declared, _, List.getElem_mem inOutput, complete, ?_⟩
          rw [tupleIdentity_normalized complete, tupleIdentity_normalized present, same]

section Agreement

variable {relationships : List RelationshipEntry} {tables : List (String × Table)}

theorem mem_fkIntactRows_complete {parent child : KeyColumns} {row : List ArrowCell} {i : Nat}
    (found : (keysOf tables child)[i]? = some row) (present : row.any pdIsna = false) :
    i ∈ fkIntactRows tables parent child ↔ ¬ Holds tables parent row := by
  have notNone : row.all isNone = false := by
    by_contra all
    have missing := missing_of_isNone (keysOf_ne_nil (List.mem_of_getElem? found))
      (Bool.not_eq_false _ ▸ all)
    rw [present] at missing
    cases missing
  rw [mem_fkIntactRows, ← inPkSet_iff present, Bool.not_eq_true]
  constructor
  · intro ⟨other, same, _, absent⟩
    rw [found] at same
    exact Option.some.inj same ▸ absent
  · intro absent
    exact ⟨row, found, notNone, absent⟩

theorem noOrphanRows_sublist (child : KeyColumns) :
    (noOrphanRows tables child).Sublist (nullKeyRows tables child) := by
  rw [noOrphanRows_eq]
  refine rowsWhere_sublist fun row member all => ?_
  rw [childKey_eq_none.mpr (missing_of_isNone (keysOf_ne_nil member) all)]
  rfl

open Classical in
theorem brokenKeyRows_sublist {parent child : KeyColumns}
    (declared : Declared relationships parent child) :
    (brokenKeyRows relationships tables child).Sublist (fkIntactRows tables parent child) := by
  rw [fkIntactRows_eq]
  refine rowsWhere_sublist fun row member broken => ?_
  obtain ⟨isKey, nowhere⟩ := of_decide_eq_true broken
  have present : row.any pdIsna = false := by
    rw [ne_eq, childKey_eq_none, Bool.not_eq_true] at isKey
    exact isKey
  obtain ⟨i, found⟩ := List.mem_iff_getElem?.mp member
  obtain ⟨other, same, notNone, absent⟩ := mem_fkIntactRows.mp
    ((mem_fkIntactRows_complete found present).mpr (nowhere parent declared))
  rw [found] at same
  obtain rfl := Option.some.inj same
  rw [notNone, absent]
  rfl

theorem wholeKeys_of_agree (agree : ValidatorsAgree relationships tables) :
    WholeKeys relationships tables := by
  intro parent child declared row member missing
  have reported := agree.no_orphan_children
  rw [validateNoOrphanChildren_eq] at reported
  have rows := congrArg (List.flatMap ValidatorFinding.failingRowIndices) reported
  rw [rows_of_findings noOrphanFinding_rows fun pair => noOrphanRows tables pair.2,
    rows_of_findings noOrphanFinding_rows fun pair => nullKeyRows tables pair.2] at rows
  have same := eq_of_flatMap_eq (fun pair _ => noOrphanRows_sublist pair.2) rows (parent, child)
    (mem_declaredPairs.mpr declared)
  rw [noOrphanRows_eq, nullKeyRows] at same
  refine (same_of_rowsWhere same member).mpr ?_
  rw [childKey_eq_none.mpr missing]
  rfl

theorem fkIntactRows_of_agree (outputs : Outputs relationships)
    (agree : ValidatorsAgree relationships outputs.tables) {parent child : KeyColumns}
    (declared : Declared relationships parent child) :
    brokenKeyRows relationships outputs.tables child =
      fkIntactRows outputs.tables parent child := by
  have reported := agree.fk_intact
  rw [validateFkIntact_eq, Except.ok.injEq] at reported
  have rows := congrArg (List.flatMap ValidatorFinding.failingRowIndices) reported
  rw [rows_of_findings fkIntactFinding_rows fun pair =>
      fkIntactRows outputs.tables pair.1 pair.2,
    rows_of_findings fkIntactFinding_rows fun pair =>
      brokenKeyRows relationships outputs.tables pair.2] at rows
  exact eq_of_flatMap_eq
    (fun pair member => brokenKeyRows_sublist (mem_declaredPairs.mp member)) rows.symm
    (parent, child) (mem_declaredPairs.mpr declared)

open Classical in
theorem agreedParents_of_agree (outputs : Outputs relationships)
    (agree : ValidatorsAgree relationships outputs.tables) :
    AgreedParents relationships outputs.tables := by
  intro child parent other declared otherDeclared row member present holds
  obtain ⟨i, found⟩ := List.mem_iff_getElem?.mp member
  by_contra absent
  have reported := (mem_fkIntactRows_complete found present).mpr absent
  rw [← fkIntactRows_of_agree outputs agree otherDeclared, brokenKeyRows, mem_rowsWhere]
    at reported
  obtain ⟨broken, same, isBroken⟩ := reported
  rw [found] at same
  obtain rfl := Option.some.inj same
  exact (of_decide_eq_true isBroken).2 parent declared holds

open Classical in
theorem fkIntactRows_of_conditions (whole : WholeKeys relationships tables)
    (agreed : AgreedParents relationships tables) {parent child : KeyColumns}
    (declared : Declared relationships parent child) :
    fkIntactRows tables parent child = brokenKeyRows relationships tables child := by
  rw [fkIntactRows_eq, brokenKeyRows]
  refine rowsWhere_congr fun row member => ?_
  rw [Bool.eq_iff_iff, decide_eq_true_iff]
  obtain ⟨i, found⟩ := List.mem_iff_getElem?.mp member
  constructor
  · intro reported
    have inRows : i ∈ fkIntactRows tables parent child := by
      rw [fkIntactRows_eq, mem_rowsWhere]
      exact ⟨row, found, reported⟩
    have present : row.any pdIsna = false := by
      by_contra missing
      have all := whole parent child declared row member (Bool.not_eq_false _ ▸ missing)
      rw [all] at reported
      cases reported
    refine ⟨?_, fun other otherDeclared holds => ?_⟩
    · rw [ne_eq, childKey_eq_none, present]
      exact Bool.false_ne_true
    · exact (mem_fkIntactRows_complete found present).mp inRows
        (agreed child other parent otherDeclared declared row member present holds)
  · rintro ⟨isKey, nowhere⟩
    have present : row.any pdIsna = false := by
      rw [ne_eq, childKey_eq_none, Bool.not_eq_true] at isKey
      exact isKey
    have inRows := (mem_fkIntactRows_complete found present).mpr (nowhere parent declared)
    rw [fkIntactRows_eq, mem_rowsWhere, found] at inRows
    simpa using inRows

theorem noOrphanRows_of_whole (whole : WholeKeys relationships tables) {parent child : KeyColumns}
    (declared : Declared relationships parent child) :
    noOrphanRows tables child = nullKeyRows tables child := by
  rw [noOrphanRows_eq, nullKeyRows]
  refine rowsWhere_congr fun row member => ?_
  rw [Bool.eq_iff_iff, Option.isNone_iff_eq_none, childKey_eq_none]
  exact ⟨missing_of_isNone (keysOf_ne_nil member), whole parent child declared row member⟩

theorem clean_of_resolved (outputs : Outputs relationships)
    (whole : WholeKeys relationships outputs.tables)
    (agreed : AgreedParents relationships outputs.tables)
    (resolved : FullyResolved relationships outputs.tables) :
    validateFkIntact outputs.tables relationships = .ok [] := by
  rw [validateFkIntact_nil_iff]
  intro parent child declared
  apply List.eq_nil_iff_forall_not_mem.mpr
  intro i reported
  obtain ⟨row, found, notNone, -⟩ := mem_fkIntactRows.mp reported
  have member := List.mem_of_getElem? found
  cases present : row.any pdIsna with
  | true =>
      rw [whole parent child declared row member present] at notNone
      cases notNone
  | false =>
      obtain ⟨run, foundKeys⟩ := resolved parent child declared
      obtain ⟨holder, holderDeclared, holds⟩ := run.holds foundKeys member present
      exact (mem_fkIntactRows_complete found present).mp reported
        (agreed child holder parent holderDeclared declared row member present holds)

end Agreement

/-- The validators agree with the resolver exactly on tables whose keys are whole and whose parents
agree on the keys they hold. -/
theorem validators_agree_iff (relationships : List RelationshipEntry)
    (outputs : Outputs relationships) :
    ValidatorsAgree relationships outputs.tables ↔
      WholeKeys relationships outputs.tables ∧ AgreedParents relationships outputs.tables := by
  constructor
  · intro agree
    exact ⟨wholeKeys_of_agree agree, agreedParents_of_agree outputs agree⟩
  · rintro ⟨whole, agreed⟩
    refine ⟨?_, ?_, clean_of_resolved outputs whole agreed⟩
    · rw [validateFkIntact_eq]
      refine congrArg Except.ok (List.filterMap_congr fun pair member => ?_)
      rw [fkIntactRows_of_conditions whole agreed (mem_declaredPairs.mp member)]
    · rw [validateNoOrphanChildren_eq]
      refine List.filterMap_congr fun pair member => ?_
      rw [noOrphanRows_of_whole whole (mem_declaredPairs.mp member)]

namespace TwoParents

theorem id_nonempty : ["id"] ≠ [] := nofun

def people : KeyColumns := ⟨"people", ["id"], id_nonempty⟩
def companies : KeyColumns := ⟨"companies", ["id"], id_nonempty⟩
def orders : KeyColumns := ⟨"orders", ["buyer"], nofun⟩

/-- An order is bought by a person or by a company. -/
def buyers : List RelationshipEntry := [⟨people, [orders], by simp [people, orders]⟩,
  ⟨companies, [orders], by simp [companies, orders]⟩]

def idCell (text : List Char) : ArrowCell := ⟨.str text, rfl⟩

def idTable (name : String) (text : List Char) : Table := ⟨[(name, [idCell text])], 1, by simp⟩

def person : List Char := ['p', '1']
def company : List Char := ['c', '2']

/-- The one order was bought by a company. -/
def tables : List (String × Table) := [("people", idTable "id" person),
  ("companies", idTable "id" company), ("orders", idTable "buyer" company)]

def edgeOf (parent : KeyColumns) : RelationshipEdge :=
  ⟨parent.table, parent.columns, "orders", ["buyer"], "buyers", .fail⟩

def idRows (node : NodeKey) : List ParentRow :=
  if node = people.node then [⟨[idCell person], [.str person]⟩]
  else [⟨[idCell company], [.str company]⟩]

theorem declared_iff {parent child : KeyColumns} :
    Declared buyers parent child ↔ (parent = people ∨ parent = companies) ∧ child = orders := by
  constructor
  · intro ⟨rel, member, isParent, inChildren⟩
    rw [buyers, List.mem_cons, List.mem_singleton] at member
    obtain rfl | rfl := member
    · exact ⟨.inl isParent.symm, List.mem_singleton.mp inChildren⟩
    · exact ⟨.inr isParent.symm, List.mem_singleton.mp inChildren⟩
  · intro ⟨isParent, isChild⟩
    obtain rfl | rfl := isParent
    · exact ⟨_, List.mem_cons_self, rfl, List.mem_singleton.mpr isChild⟩
    · exact ⟨_, List.mem_cons_of_mem _ (List.mem_singleton_self _), rfl,
        List.mem_singleton.mpr isChild⟩

def outputs : Outputs buyers where
  tables := tables
  parents := by
    intro rel member
    simp only [buyers, List.mem_cons, List.not_mem_nil, or_false] at member
    obtain rfl | rfl := member
    · exact ⟨idTable "id" person, rfl, by decide⟩
    · exact ⟨idTable "id" company, rfl, by decide⟩
  children := by
    intro rel member child inChildren table found
    have isOrders : child = orders := by
      simp only [buyers, List.mem_cons, List.not_mem_nil, or_false] at member
      obtain rfl | rfl := member <;> exact List.mem_singleton.mp inChildren
    subst isOrders
    obtain rfl : idTable "buyer" company = table := Option.some.inj found
    decide

def run : FkRun buyers tables orders where
  edges := [edgeOf people, edgeOf companies]
  declared := by
    intro edge member
    simp only [List.mem_cons, List.not_mem_nil, or_false] at member
    obtain rfl | rfl := member
    · exact ⟨people, declared_iff.mpr ⟨.inl rfl, rfl⟩, rfl⟩
    · exact ⟨companies, declared_iff.mpr ⟨.inr rfl, rfl⟩, rfl⟩
  parentRows := idRows
  columnErrors := fun _ _ => Dict.empty
  remapFn := fun _ keys => keys
  childRows := [[idCell company]]
  resolved := ⟨[some [.str company]], [], []⟩
  ran := rfl
  parents_written := by
    intro parent declared
    obtain ⟨rfl | rfl, -⟩ := declared_iff.mp declared
    · exact .cons (.cons ⟨rfl, rfl⟩ .nil) .nil
    · exact .cons (.cons ⟨rfl, rfl⟩ .nil) .nil
  child_written := .cons (.cons ⟨rfl, rfl⟩ .nil) .nil

theorem run_found : run.Found := by
  intro row member key isKey
  have isRow : row = [idCell company] := List.mem_singleton.mp member
  subst isRow
  obtain rfl := Option.some.inj isKey
  exact ⟨edgeOf companies, List.mem_cons_of_mem _ (List.mem_singleton_self _), by decide⟩

end TwoParents

/-- A key that the run resolved against the second parent is reported for the first. -/
theorem second_parent_key_reported :
    ∃ (relationships : List RelationshipEntry) (outputs : Outputs relationships),
      FullyResolved relationships outputs.tables ∧
        validateFkIntact outputs.tables relationships ≠ .ok [] := by
  refine ⟨TwoParents.buyers, TwoParents.outputs, ?_, ?_⟩
  · intro parent child declared
    obtain ⟨-, rfl⟩ := TwoParents.declared_iff.mp declared
    exact ⟨TwoParents.run, TwoParents.run_found⟩
  · rw [ne_eq, validateFkIntact_nil_iff]
    intro silent
    have reported : fkIntactRows TwoParents.tables TwoParents.people TwoParents.orders = [0] := by
      decide
    have none := silent TwoParents.people TwoParents.orders
      (TwoParents.declared_iff.mpr ⟨.inl rfl, rfl⟩)
    rw [TwoParents.outputs, reported] at none
    cases none

end DecoyEngine.Validators
