import DecoyEngine.Data.Checked
import DecoyEngine.Execution.MultiParent
import DecoyEngine.Execution.OutOfCore.KeyJoin

namespace DecoyEngine.Execution.OutOfCore

open DecoyEngine.Data DecoyEngine.Relationships

/-! Several parents out of core (`_multi_parent.py`): the member relations of a child tuple are
folded into one, the first parent holding a key winning. -/

/-- The file of a relation: the builder keeps one for each parent key (`_edge_stem`), and a merge
writes one for each child tuple of a table. -/
inductive RelationPath where
  | parentKey (node : NodeKey)
  | merged (table group : Nat)
deriving DecidableEq

/-- What a relation file holds; the types are the Arrow types of its masked columns. -/
structure RelationFile where
  rows : List RelationRow
  maskedTypes : List String

structure ParentKeyRelation where
  path : RelationPath
  maskedKeyColumns : List String
deriving DecidableEq

/-- The relations an edge is bound to, and the files on disk. -/
structure RelationScratch where
  parentRelations : RelationshipEdge → Option ParentKeyRelation
  files : RelationPath → Option RelationFile

inductive MergeError where
  -- `assert`ed: members share one child tuple arity
  | arity
  | keyDtypeUnsupported (firstTypes types : List String)
  | orphanPolicyConflict (first : RelationshipEdge) (policies : List String)
  -- a `KeyError` and a `FileNotFoundError`
  | relationMissing (edge : RelationshipEdge)
  | fileNotFound (path : RelationPath)
deriving DecidableEq

def MergeError.code : MergeError → Option String
  | .keyDtypeUnsupported _ _ => some "out_of_core_fk_key_dtype_unsupported"
  | .orphanPolicyConflict _ _ => some "orphan_policy_conflict"
  | _ => none

/-- The message of a coded refusal or of the assertion. -/
def MergeError.message : MergeError → Option String
  | .arity => some "multi-parent members must share one child tuple arity"
  | .keyDtypeUnsupported firstTypes types =>
      some ("out-of-core multi-parent FK: the parents' masked key types differ " ++
        "(" ++ ", ".intercalate firstTypes ++ " vs " ++ ", ".intercalate types ++ "); " ++
        "a fixed output schema cannot reproduce the oracle's value-typed merged " ++
        "column byte for byte, so the job is rejected rather than allowed to drift. " ++
        "Run it with execution_mode='sequential'.")
  | .orphanPolicyConflict first policies =>
      some (s!"out-of-core multi-parent FK: the edges into {first.childTable}." ++
        s!"{tupleText first.childColumns} declare different orphan policies " ++
        "(" ++ namesText policies ++
        "); one policy per child tuple is required, as the planner enforces at graph build.")
  | _ => none

structure RankedRow where
  rank : Nat
  row : RelationRow

/-- `UNION ALL` of the members, each row with its member's rank. -/
def unionAll (members : List RelationFile) : List RankedRow :=
  members.zipIdx.flatMap fun member => member.1.rows.map fun row => ⟨member.2, row⟩

/-- The priority union: stage the members, take the least rank of each key, join it back. -/
def firstHitRows (order : Sql.RowOrder) (members : List RelationFile) : List RelationRow :=
  let staged := order.arrange (unionAll members)
  let winners := order.arrange
    (Sql.groupBy Sql.minimum (fun row : RankedRow => row.row.joinKey) RankedRow.rank staged)
  let joined := Sql.innerJoin (fun (row : RankedRow) (winner : Token × Nat) =>
    row.row.joinKey = winner.1 && row.rank = winner.2) staged winners
  order.arrange (joined.map fun pair => pair.1.row)

section Files

variable (files : RelationPath → Option RelationFile)

def readRelation (relation : ParentKeyRelation) : Except MergeError RelationFile :=
  match files relation.path with
  | some file => .ok file
  | none => .error (.fileNotFound relation.path)

def checkMember (first : ParentKeyRelation) (firstTypes : List String)
    (relation : ParentKeyRelation) : Except MergeError RelationFile :=
  if relation.maskedKeyColumns ≠ first.maskedKeyColumns then .error .arity
  else do
    let file ← readRelation files relation
    if file.maskedTypes ≠ firstTypes then
      .error (.keyDtypeUnsupported firstTypes file.maskedTypes)
    else .ok file

/-- Fold members in precedence order; a merge writes its own file, `out`. -/
def mergeParentRelations (order : Sql.RowOrder) (out : RelationPath) (first : ParentKeyRelation)
    (others : List ParentKeyRelation) :
    Except MergeError (ParentKeyRelation × (RelationPath → Option RelationFile)) :=
  if others = [] then .ok (first, files)
  else do
    let file ← readRelation files first
    let rest ← others.mapM (checkMember files first file.maskedTypes)
    let merged := ⟨firstHitRows order (file :: rest), file.maskedTypes⟩
    .ok ({ first with path := out }, Function.update files out (some merged))

end Files

/-- `groups.setdefault(edge.child_columns, []).append(edge)`, edge by edge. -/
def groupEdges (incomingEdges : List RelationshipEdge) :
    Dict (List String) (List RelationshipEdge) :=
  incomingEdges.foldl (fun groups edge =>
    groups.set edge.childColumns ((groups.find edge.childColumns).getD [] ++ [edge])) Dict.empty

def relationOf (scratch : RelationScratch) (edge : RelationshipEdge) :
    Except MergeError ParentKeyRelation :=
  match scratch.parentRelations edge with
  | some relation => .ok relation
  | none => .error (.relationMissing edge)

/-- Bind the merged relation to the first edge, then drop the other members and every member's
file. -/
def bindMerged (scratch : RelationScratch) (first : RelationshipEdge)
    (others : List RelationshipEdge) (members : List ParentKeyRelation)
    (merged : ParentKeyRelation) (files : RelationPath → Option RelationFile) :
    RelationScratch where
  parentRelations edge :=
    if edge ∈ others then none
    else Function.update scratch.parentRelations first (some merged) edge
  files path := if path ∈ members.map ParentKeyRelation.path then none else files path

/-- One child tuple; a single parent passes through untouched.  The edges of a graph are distinct,
and the number counts the merges of the table so far. -/
def resolveGroup (order : Sql.RowOrder) (table : Nat) (state : RelationScratch × Nat) :
    List RelationshipEdge → Except MergeError (RelationScratch × Nat)
  | [] => .ok state
  | [_] => .ok state
  | first :: others =>
      if others.all fun edge => edge.orphanPolicy = first.orphanPolicy then do
        let relation ← relationOf state.1 first
        let rest ← others.mapM (relationOf state.1)
        let (merged, files) ← mergeParentRelations state.1.files order (.merged table state.2)
          relation rest
        .ok (bindMerged state.1 first others (relation :: rest) merged files, state.2 + 1)
      else .error (.orphanPolicyConflict first
        (((first :: others).map fun edge => edge.orphanPolicy.value).dedup.insertionSort (· ≤ ·)))

/-- One joinable edge per child tuple, with its relation bound in the scratch. -/
def resolveIncoming (order : Sql.RowOrder) (table : Nat) (scratch : RelationScratch)
    (incomingEdges : List RelationshipEdge) :
    Except MergeError (List RelationshipEdge × RelationScratch) := do
  let groups := (groupEdges incomingEdges).entries.map Prod.snd
  let (after, _) ← groups.foldlM (resolveGroup order table) (scratch, 0)
  .ok (groups.filterMap List.head?, after)

/-- A masked parent table: its rows in the batches they come in, and the types of its key. -/
structure ParentTable where
  batches : List (List ParentRow)
  maskedTypes : List String

/-- The relation of an edge as `_build_relation` leaves it. -/
def edgeRelation (edge : RelationshipEdge) : ParentKeyRelation where
  path := .parentKey edge.parent
  maskedKeyColumns := (List.range edge.parentColumns.length).map fun idx =>
    if idx = 0 then "__decoy_masked_key" else s!"__decoy_masked_key_{idx}"

def relationFile (order : Sql.RowOrder) (batchRows : Nat) (parents : NodeKey → ParentTable)
    (node : NodeKey) : RelationFile where
  rows := buildRelation order batchRows (parents node).batches
  maskedTypes := (parents node).maskedTypes

section Merge

variable {order : Sql.RowOrder} {members : List RelationFile}
  {lookup : RelationFile → Token → Option RelationRow}

/-- The row of the first member that has the key. -/
def firstHit (lookup : RelationFile → Token → Option RelationRow) (members : List RelationFile)
    (token : Token) : Option RelationRow :=
  members.findSome? fun file => lookup file token

theorem filter_unionAll (unique : ∀ file ∈ members, ∀ token,
      (file.rows.filter fun row => row.joinKey = token) = (lookup file token).toList)
    (token : Token) :
    ((unionAll members).filter fun row => row.row.joinKey = token) =
      members.zipIdx.filterMap fun member =>
        (lookup member.1 token).map fun row => ⟨member.2, row⟩ := by
  have each : ∀ ranked : List (RelationFile × Nat), (∀ member ∈ ranked, member.1 ∈ members) →
      ((ranked.flatMap fun member => member.1.rows.map fun row =>
          (⟨member.2, row⟩ : RankedRow)).filter fun row => row.row.joinKey = token) =
        ranked.filterMap fun member => (lookup member.1 token).map fun row => ⟨member.2, row⟩ := by
    intro ranked inside
    induction ranked with
    | nil => rfl
    | cons member ranked ih =>
        have own := unique member.1 (inside member List.mem_cons_self) token
        have rest := ih fun other inRest => inside other (List.mem_cons_of_mem _ inRest)
        rw [List.flatMap_cons, List.filter_append, rest, List.filter_map, List.filterMap_cons]
        have hits : (member.1.rows.filter ((fun row : RankedRow => decide (row.row.joinKey = token)) ∘
            fun row => ⟨member.2, row⟩)) = (lookup member.1 token).toList := own
        rw [hits]
        cases lookup member.1 token <;> rfl
  apply each
  intro member inMembers
  exact List.fst_mem_of_mem_zipIdx inMembers

theorem ranks_ascending (token : Token) (start : Nat) :
    ((members.zipIdx start).filterMap fun member => (lookup member.1 token).map fun row =>
      (⟨member.2, row⟩ : RankedRow)).Pairwise fun left right => left.rank < right.rank := by
  rw [List.pairwise_filterMap]
  have numbered : (members.zipIdx start).Pairwise fun left right => left.2 < right.2 := by
    have indices : ((members.zipIdx start).map Prod.snd).Pairwise (· < ·) := by
      rw [List.zipIdx_map_snd]
      exact List.pairwise_lt_range'
    exact List.pairwise_map.mp indices
  apply numbered.imp
  intro left right less leftRow leftHit rightRow rightHit
  obtain ⟨_, _, rfl⟩ := Option.map_eq_some_iff.mp leftHit
  obtain ⟨_, _, rfl⟩ := Option.map_eq_some_iff.mp rightHit
  exact less

theorem head_ranked (token : Token) (start : Nat) :
    (((members.zipIdx start).filterMap fun member => (lookup member.1 token).map fun row =>
      (⟨member.2, row⟩ : RankedRow)).head?).map RankedRow.row = firstHit lookup members token := by
  rw [List.head?_filterMap, firstHit]
  induction members generalizing start with
  | nil => rfl
  | cons file members ih =>
      rw [List.zipIdx_cons, List.findSome?_cons, List.findSome?_cons]
      cases lookup file token with
      | none => exact ih (start + 1)
      | some row => rfl

theorem filter_firstHitRows (unique : ∀ file ∈ members, ∀ token,
      (file.rows.filter fun row => row.joinKey = token) = (lookup file token).toList)
    (token : Token) :
    ((firstHitRows order members).filter fun row => row.joinKey = token) =
      (firstHit lookup members token).toList := by
  have joined := Sql.perm_filter_groupBy order (fun row : RankedRow => row.row.joinKey)
    RankedRow.rank Sql.minimum_perm (order.perm (unionAll members)) RankedRow.row
    RelationRow.joinKey (fun _ => rfl) token
  rw [filter_unionAll unique, Sql.filter_minimum_eq_first (ranks_ascending token 0),
    ← Option.toList_map, head_ranked] at joined
  exact Sql.eq_toList_of_perm joined

end Merge

theorem find_groupEdges (edges : List RelationshipEdge) (columns : List String) :
    (groupEdges edges).find columns =
      let members := edges.filter fun edge => edge.childColumns = columns
      if members = [] then none else some members := by
  induction edges using List.reverseRecOn with
  | nil => rfl
  | append_singleton edges edge ih =>
      have step : groupEdges (edges ++ [edge]) = (groupEdges edges).set edge.childColumns
          (((groupEdges edges).find edge.childColumns).getD [] ++ [edge]) := by
        rw [groupEdges, List.foldl_append]
        rfl
      rw [step, Dict.find_set, List.filter_append]
      by_cases own : edge.childColumns = columns
      · rw [own, ih]
        by_cases empty : (edges.filter fun edge => edge.childColumns = columns) = []
        · simp [own, empty]
        · simp [own, empty]
      · have other : ¬ columns = edge.childColumns := fun same => own same.symm
        simp [own, other, ih]

theorem mem_groupEdges {edges : List RelationshipEdge} {columns : List String}
    {members : List RelationshipEdge} :
    (columns, members) ∈ (groupEdges edges).entries ↔
      members = (edges.filter fun edge => edge.childColumns = columns) ∧ members ≠ [] := by
  rw [Dict.mem_entries, find_groupEdges]
  dsimp only
  split
  · rename_i empty
    rw [empty]
    simp only [reduceCtorEq, false_iff, not_and, not_not]
    exact id
  · rename_i nonempty
    rw [Option.some.injEq]
    constructor
    · intro same
      rw [← same]
      exact ⟨rfl, nonempty⟩
    · intro both
      exact both.1.symm

/-- One policy, one arity and one key type over the edges of a child tuple. -/
def Mergeable (parents : NodeKey → ParentTable) (members : List RelationshipEdge) : Prop :=
  ∀ first ∈ members.head?, ∀ edge ∈ members, edge.orphanPolicy = first.orphanPolicy ∧
    (edgeRelation edge).maskedKeyColumns = (edgeRelation first).maskedKeyColumns ∧
    (parents edge.parent).maskedTypes = (parents first.parent).maskedTypes

/-- The edges are bound as they were built, and the files of their parent keys are on disk. -/
def Intact (order : Sql.RowOrder) (batchRows : Nat) (parents : NodeKey → ParentTable)
    (scratch : RelationScratch) (edges : List RelationshipEdge) : Prop :=
  ∀ edge ∈ edges, scratch.parentRelations edge = some (edgeRelation edge) ∧
    scratch.files (.parentKey edge.parent) =
      some (relationFile order batchRows parents edge.parent)

section Group

variable (order : Sql.RowOrder) (batchRows : Nat) (parents : NodeKey → ParentTable)

/-- The file of an edge's parent key. -/
abbrev memberFile (edge : RelationshipEdge) : RelationFile :=
  relationFile order batchRows parents edge.parent

variable {order batchRows parents} {scratch : RelationScratch} {first : RelationshipEdge}
  {others : List RelationshipEdge}

theorem readRelation_intact {edge : RelationshipEdge} {edges : List RelationshipEdge}
    (intact : Intact order batchRows parents scratch edges) (member : edge ∈ edges) :
    readRelation scratch.files (edgeRelation edge) =
      .ok (memberFile order batchRows parents edge) := by
  rw [readRelation, edgeRelation, (intact edge member).2]

theorem relationOf_intact {edge : RelationshipEdge} {edges : List RelationshipEdge}
    (intact : Intact order batchRows parents scratch edges) (member : edge ∈ edges) :
    relationOf scratch edge = .ok (edgeRelation edge) := by
  rw [relationOf, (intact edge member).1]

theorem checkMember_intact (intact : Intact order batchRows parents scratch (first :: others))
    {edge : RelationshipEdge} (member : edge ∈ others) {file : RelationFile} :
    checkMember scratch.files (edgeRelation first) (parents first.parent).maskedTypes
        (edgeRelation edge) = .ok file ↔
      ((edgeRelation edge).maskedKeyColumns = (edgeRelation first).maskedKeyColumns ∧
        (parents edge.parent).maskedTypes = (parents first.parent).maskedTypes) ∧
      memberFile order batchRows parents edge = file := by
  have read := readRelation_intact intact (List.mem_cons_of_mem first member)
  rw [checkMember, read]
  split
  · rename_i differ
    simp [differ]
  · rename_i columns
    rw [not_not] at columns
    simp only [ok_bind, relationFile]
    split
    · rename_i differ
      simp [differ]
    · rename_i types
      rw [not_not] at types
      simp [columns, types]

theorem mergeable_cons : Mergeable parents (first :: others) ↔
    (∀ edge ∈ others, edge.orphanPolicy = first.orphanPolicy) ∧ ∀ edge ∈ others,
      (edgeRelation edge).maskedKeyColumns = (edgeRelation first).maskedKeyColumns ∧
      (parents edge.parent).maskedTypes = (parents first.parent).maskedTypes := by
  simp only [Mergeable, List.head?_cons, Option.mem_some_iff, forall_eq', List.forall_mem_cons,
    true_and, and_self]
  constructor
  · intro all
    exact ⟨fun edge member => (all edge member).1, fun edge member => (all edge member).2⟩
  · intro all edge member
    exact ⟨all.1 edge member, all.2 edge member⟩

/-- The relation of a child tuple with several parents. -/
def mergedRelation (table group : Nat) (first : RelationshipEdge) : ParentKeyRelation :=
  { edgeRelation first with path := .merged table group }

def mergedFile (order : Sql.RowOrder) (batchRows : Nat) (parents : NodeKey → ParentTable)
    (first : RelationshipEdge) (others : List RelationshipEdge) : RelationFile :=
  ⟨firstHitRows order ((first :: others).map (memberFile order batchRows parents)),
    (parents first.parent).maskedTypes⟩

/-- The scratch after a child tuple. -/
def afterGroup (order : Sql.RowOrder) (batchRows : Nat) (parents : NodeKey → ParentTable)
    (table : Nat) (state : RelationScratch × Nat) (first : RelationshipEdge)
    (others : List RelationshipEdge) : RelationScratch × Nat :=
  if others = [] then state
  else (bindMerged state.1 first others ((first :: others).map edgeRelation)
    (mergedRelation table state.2 first) (Function.update state.1.files (.merged table state.2)
      (some (mergedFile order batchRows parents first others))), state.2 + 1)

variable {table number : Nat}

theorem resolveGroup_mergeable
    (intact : Intact order batchRows parents scratch (first :: others))
    (mergeable : Mergeable parents (first :: others)) :
    resolveGroup order table (scratch, number) (first :: others) =
      .ok (afterGroup order batchRows parents table (scratch, number) first others) := by
  obtain ⟨policies, agree⟩ := mergeable_cons.mp mergeable
  cases others with
  | nil => rfl
  | cons second others =>
      have onePolicy : ((second :: others).all fun edge =>
          edge.orphanPolicy = first.orphanPolicy) = true := by
        rw [List.all_eq_true]
        intro edge member
        exact decide_eq_true (policies edge member)
      have relations : (second :: others).mapM (relationOf scratch) =
          .ok ((second :: others).map edgeRelation) := by
        rw [mapM_eq_ok, List.forall₂_map_right_iff, List.forall₂_same]
        intro edge member
        exact relationOf_intact intact (List.mem_cons_of_mem first member)
      have checked : ((second :: others).map edgeRelation).mapM
          (checkMember scratch.files (edgeRelation first) (parents first.parent).maskedTypes) =
            .ok ((second :: others).map (memberFile order batchRows parents)) := by
        rw [mapM_eq_ok, List.forall₂_map_left_iff, List.forall₂_map_right_iff, List.forall₂_same]
        intro edge member
        exact (checkMember_intact intact member).mpr ⟨agree edge member, rfl⟩
      have merged : mergeParentRelations scratch.files order (.merged table number)
          (edgeRelation first) ((second :: others).map edgeRelation) =
            .ok (mergedRelation table number first,
              Function.update scratch.files (.merged table number)
                (some (mergedFile order batchRows parents first (second :: others)))) := by
        rw [mergeParentRelations, if_neg (by simp), readRelation_intact intact List.mem_cons_self]
        simp only [ok_bind, relationFile] at checked ⊢
        rw [checked]
        rfl
      rw [resolveGroup, if_pos onePolicy, relationOf_intact intact List.mem_cons_self,
        ok_bind, relations, ok_bind, merged, ok_bind, afterGroup, if_neg (by simp)]
      · rfl
      · nofun

theorem mergeable_of_resolveGroup
    (intact : Intact order batchRows parents scratch (first :: others))
    {after : RelationScratch × Nat}
    (success : resolveGroup order table (scratch, number) (first :: others) = .ok after) :
    Mergeable parents (first :: others) := by
  rw [mergeable_cons]
  cases others with
  | nil => simp
  | cons second others =>
      rw [resolveGroup] at success
      · split at success
        · rename_i onePolicy
          rw [List.all_eq_true] at onePolicy
          have relations : (second :: others).mapM (relationOf scratch) =
              .ok ((second :: others).map edgeRelation) := by
            rw [mapM_eq_ok, List.forall₂_map_right_iff, List.forall₂_same]
            intro edge member
            exact relationOf_intact intact (List.mem_cons_of_mem first member)
          rw [relationOf_intact intact List.mem_cons_self, ok_bind, relations, ok_bind] at success
          obtain ⟨merge, merged, _⟩ := bind_eq_ok success
          rw [mergeParentRelations, if_neg (by simp),
            readRelation_intact intact List.mem_cons_self, ok_bind] at merged
          obtain ⟨rest, checked, _⟩ := bind_eq_ok merged
          refine ⟨fun edge member => of_decide_eq_true (onePolicy edge member), ?_⟩
          intro edge member
          obtain ⟨file, _, passed⟩ :=
            exists_result_of_mapM checked (List.mem_map_of_mem (f := edgeRelation) member)
          exact ((checkMember_intact intact member).mp passed).1
        · cases success
      · nofun

end Group

section Child

variable (order : Sql.RowOrder) {batchRows : Nat} (positive : 0 < batchRows)
  (parents : NodeKey → ParentTable)

/-- The parent map of a node, as the pandas adapter builds it. -/
def nodeMap (node : NodeKey) : ParentMap := parentMap (parents node).batches.flatten

/-- The row of a relation with a key. -/
def rowOf (file : RelationFile) (token : Token) : Option RelationRow :=
  (file.rows.filter fun row => row.joinKey = token).head?

include positive in
theorem rowOf_memberFile (edge : RelationshipEdge) (token : Token) :
    rowOf (memberFile order batchRows parents edge) token =
      latest (parents edge.parent).batches.flatten token := by
  have unique : ((memberFile order batchRows parents edge).rows.filter fun row =>
      row.joinKey = token) = _ :=
    (answers_buildRelation order positive (parents edge.parent).batches).unique token
  rw [rowOf, unique, Option.head?_toList]

include positive in
theorem answers_merged (first : RelationshipEdge) (others : List RelationshipEdge) :
    Answers (mergedFile order batchRows parents first others).rows
      (mergeParentMaps (nodeMap parents) first others)
      (firstHit rowOf ((first :: others).map (memberFile order batchRows parents))) where
  unique := by
    apply filter_firstHitRows
    intro file member token
    obtain ⟨edge, _, rfl⟩ := List.mem_map.mp member
    rw [rowOf_memberFile order positive]
    exact (answers_buildRelation order positive (parents edge.parent).batches).unique token
  agree := by
    intro key present
    have member : ∀ edge : RelationshipEdge,
        (nodeMap parents edge.parent).find (tupleIdentity (normalizedKey key)) =
          (rowOf (memberFile order batchRows parents edge) (joinToken key)).map
            RelationRow.masked := by
      intro edge
      rw [rowOf_memberFile order positive]
      exact find_parentMap _ present
    rw [find_mergeParentMaps, firstHit, List.map_findSome?, List.findSome?_map]
    simp only [member]
    rfl

theorem gatherErroredParentKeys_empty (edges : List RelationshipEdge) :
    gatherErroredParentKeys (fun _ => (Dict.empty : Dict (List PyIdentity) String)) edges =
      Dict.empty := by
  rw [gatherErroredParentKeys]
  induction edges with
  | nil => rfl
  | cons edge edges ih => exact ih

/-- The first of the members' parent maps that holds a key answers it. -/
def firstParent (members : List RelationshipEdge) (key : List FkComponent) :
    Option (List FkComponent) :=
  members.findSome? fun edge => (nodeMap parents edge.parent).find (tupleIdentity key)

/-- The child rows with a key that no parent holds. -/
def orphansOf (members : List RelationshipEdge) (children : List (List ArrowCell)) : Nat :=
  (children.map childKey).countP fun key =>
    match key with
    | none => false
    | some key => (firstParent parents members key).isNone

section Resolves

variable {T : Type} [DecidableEq T] (arrow : FkArrow T)

/-- Joining the child to these rows resolves it as the in-memory node with these edges does,
orphans counted, up to what Arrow refuses of the resolved column. -/
def ResolvesLike (members : List RelationshipEdge) (first : RelationshipEdge)
    (rows : List RelationRow) (children : List (List (List ArrowCell)))
    (remap : List FkComponent → List FkComponent) (sizes : List Nat) : Prop :=
  let outOfCore := maskChildFk arrow order first rows children
    (children.flatten.map fun row => remap (normalizedKey row)) sizes
  match resolveFkNode tupleIdentity members (nodeMap parents) (fun _ => Dict.empty)
      (fun _ => List.map remap) (children.flatten.map childKey) with
  | none => False
  | some (.error error) => outOfCore = .error (.execution error)
  | some (.ok resolved) =>
      match publishColumns arrow first.childColumns.length (cutBy sizes resolved.masked) with
      | .error refusal => outOfCore = .error (.chunks refusal)
      | .ok columns => outOfCore = .ok ⟨columns, orphansOf parents members children.flatten,
            resolved.warnings⟩ ∧ Publishes first.childColumns.length resolved.masked columns

theorem orphansOf_eq (first : RelationshipEdge) (others : List RelationshipEdge)
    (children : List (List ArrowCell)) :
    inMemoryOrphanCount (mergeParentMaps (nodeMap parents) first others) children =
      orphansOf parents (first :: others) children := by
  rw [inMemoryOrphanCount_eq, orphanCountOf, orphansOf, List.countP_map]
  apply List.countP_congr
  intro row _
  have merged := find_mergeParentMaps (nodeMap parents) first others
  simp only [childFate, Function.comp_apply, rowFate, firstParent]
  cases childKey row with
  | none => simp
  | some key =>
      simp only [merged, Dict.find_empty]
      cases (first :: others).findSome? fun edge =>
        (nodeMap parents edge.parent).find (tupleIdentity key) with
      | none => simp
      | some value => simp

variable {first : RelationshipEdge} {others : List RelationshipEdge} {rows : List RelationRow}
  {lookup : Token → Option RelationRow} {arrow}

theorem resolvesLike_of_answers (keeps : arrow.Keeps)
    (answers : Answers rows (mergeParentMaps (nodeMap parents) first others) lookup)
    (children : List (List (List ArrowCell))) (remap : List FkComponent → List FkComponent)
    (sizes : List Nat) :
    ResolvesLike order parents arrow (first :: others) first rows children remap sizes := by
  have refines := maskChildFk_refines arrow order first answers children remap sizes
  rw [orphansOf_eq] at refines
  simp only [ResolvesLike, resolveFkNode, gatherErroredParentKeys_empty]
  generalize resolveFkKeys tupleIdentity (children.flatten.map childKey)
    (mergeParentMaps (nodeMap parents) first others) first (List.map remap) Dict.empty = inMemory
    at refines ⊢
  cases inMemory with
  | error error => exact refines
  | ok resolved =>
      dsimp only at refines ⊢
      cases published : publishColumns arrow first.childColumns.length
          (cutBy sizes resolved.masked) with
      | error refusal =>
          rw [published] at refines
          exact refines
      | ok columns =>
          rw [published] at refines
          exact ⟨refines, publishes_of_publishColumns sizes keeps published⟩

theorem firstParent_of_answers
    (answers : Answers rows (mergeParentMaps (nodeMap parents) first others) lookup)
    {key : List ArrowCell} (present : key.any pdIsna = false) :
    (rows.filter fun row => row.joinKey = joinToken key).map RelationRow.masked =
      (firstParent parents (first :: others) (normalizedKey key)).toList := by
  rw [answers.unique, ← Option.toList_map, ← answers.agree key present, find_mergeParentMaps]
  rfl

end Resolves

/-- The first edge of a group is bound to a file on disk that answers for all its members.  The
file is the parent's own, or one that the first `number` merges of the table wrote. -/
def Bound (table number : Nat) (scratch : RelationScratch) (first : RelationshipEdge)
    (others : List RelationshipEdge) : Prop :=
  ∃ relation file, scratch.parentRelations first = some relation ∧
    scratch.files relation.path = some file ∧
    (∃ lookup, Answers file.rows (mergeParentMaps (nodeMap parents) first others) lookup) ∧
    (others = [] ∧ relation.path = .parentKey first.parent ∨
      ∃ group < number, relation.path = .merged table group)

/-- What a step over the edges `members` may have changed: their bindings, the files of their
parent keys if there are several, and the merges it counts. -/
structure Spares (table : Nat) (before after : RelationScratch × Nat)
    (members : List RelationshipEdge) : Prop where
  counts : before.2 ≤ after.2
  bindings : ∀ edge ∉ members, after.1.parentRelations edge = before.1.parentRelations edge
  files : ∀ path, (1 < members.length → ∀ edge ∈ members, path ≠ .parentKey edge.parent) →
    (∀ group, before.2 ≤ group → path ≠ .merged table group) →
      after.1.files path = before.1.files path

variable {order parents} {table : Nat} {state after : RelationScratch × Nat}
  {first : RelationshipEdge} {others : List RelationshipEdge}

theorem spares_afterGroup : Spares table state
    (afterGroup order batchRows parents table state first others) (first :: others) where
  counts := by
    rw [afterGroup]
    split
    · exact le_rfl
    · exact Nat.le_succ _
  bindings := by
    intro edge outside
    rw [List.mem_cons, not_or] at outside
    rw [afterGroup]
    split
    · rfl
    · simp only [bindMerged, if_neg outside.2, Function.update_of_ne outside.1]
  files := by
    intro path apart fresh
    rw [afterGroup]
    split
    · rfl
    · rename_i several
      have outside : path ∉ ((first :: others).map edgeRelation).map ParentKeyRelation.path := by
        rw [List.map_map]
        intro member
        obtain ⟨edge, inMembers, rfl⟩ := List.mem_map.mp member
        have long : 1 < (first :: others).length :=
          Nat.succ_lt_succ (List.length_pos_iff.mpr several)
        exact apart long edge inMembers rfl
      simp only [bindMerged, if_neg outside, Function.update_of_ne (fresh state.2 le_rfl)]

include positive in
theorem bound_afterGroup (intact : Intact order batchRows parents state.1 (first :: others))
    (distinct : first ∉ others) :
    Bound parents table (afterGroup order batchRows parents table state first others).2
      (afterGroup order batchRows parents table state first others).1 first others := by
  rw [afterGroup]
  split
  · rename_i alone
    obtain ⟨binding, file⟩ := intact first List.mem_cons_self
    have answers := answers_buildRelation order positive (parents first.parent).batches
    refine ⟨edgeRelation first, _, binding, file,
      ⟨latest (parents first.parent).batches.flatten, ?_⟩, Or.inl ⟨alone, rfl⟩⟩
    rw [alone]
    exact answers
  · refine ⟨mergedRelation table state.2 first, mergedFile order batchRows parents first others,
      ?_, ?_, ⟨_, answers_merged order positive parents first others⟩,
      Or.inr ⟨state.2, Nat.lt_succ_self _, rfl⟩⟩
    · simp only [bindMerged, if_neg distinct, Function.update_self]
    · have outside : RelationPath.merged table state.2 ∉
          ((first :: others).map edgeRelation).map ParentKeyRelation.path := by
        rw [List.map_map]
        intro member
        obtain ⟨edge, _, same⟩ := List.mem_map.mp member
        cases same
      simp only [bindMerged, mergedRelation, if_neg outside, Function.update_self]

/-- Child tuples that share no edge, and no parent key with one that has several parents. -/
def Apart (left right : List RelationshipEdge) : Prop :=
  ∀ edge ∈ left, ∀ other ∈ right, edge ≠ other ∧
    (1 < left.length ∨ 1 < right.length → edge.parent ≠ other.parent)

theorem intact_of_spares {left right : List RelationshipEdge}
    (intact : Intact order batchRows parents state.1 right)
    (spares : Spares table state after left) (apart : Apart left right) :
    Intact order batchRows parents after.1 right := by
  intro edge member
  obtain ⟨binding, file⟩ := intact edge member
  have outside : edge ∉ left := fun inLeft => (apart edge inLeft edge member).1 rfl
  have kept := spares.files (.parentKey edge.parent)
    (fun several other inLeft same => (apart other inLeft edge member).2 (Or.inl several)
      (RelationPath.parentKey.inj same).symm) (fun _ _ => nofun)
  exact ⟨(spares.bindings edge outside).trans binding, kept.trans file⟩

theorem bound_of_spares {right : List RelationshipEdge}
    (bound : Bound parents table state.2 state.1 first others)
    (spares : Spares table state after right) (apart : Apart (first :: others) right) :
    Bound parents table after.2 after.1 first others := by
  obtain ⟨relation, file, binding, isFile, answers, place⟩ := bound
  have outside : first ∉ right := fun member => (apart first List.mem_cons_self first member).1 rfl
  have kept : after.1.files relation.path = state.1.files relation.path := by
    apply spares.files
    · intro several edge member same
      rcases place with ⟨_, own⟩ | ⟨group, _, written⟩
      · rw [own] at same
        exact (apart first List.mem_cons_self edge member).2 (Or.inr several)
          (RelationPath.parentKey.inj same)
      · rw [written] at same
        cases same
    · intro group fresh same
      rcases place with ⟨_, own⟩ | ⟨earlier, less, written⟩
      · rw [own] at same
        cases same
      · rw [written] at same
        cases same
        omega
  refine ⟨relation, file, (spares.bindings first outside).trans binding, kept.trans isFile,
    answers, place.imp_right ?_⟩
  rintro ⟨group, less, written⟩
  exact ⟨group, less.trans_le spares.counts, written⟩

section Groups

variable {groups : List (List RelationshipEdge)} (nonempty : ∀ group ∈ groups, group ≠ [])
  (distinct : ∀ group ∈ groups, group.Nodup) (apart : groups.Pairwise Apart)
  (intact : ∀ group ∈ groups, Intact order batchRows parents state.1 group)

include nonempty distinct apart intact

theorem groups_bound (positive : 0 < batchRows)
    (success : groups.foldlM (resolveGroup order table) state = .ok after) :
    (∀ first others, first :: others ∈ groups → Mergeable parents (first :: others) ∧
      Bound parents table after.2 after.1 first others) ∧
    ∀ first others, Bound parents table state.2 state.1 first others →
      (∀ group ∈ groups, Apart (first :: others) group) →
        Bound parents table after.2 after.1 first others := by
  induction groups generalizing state with
  | nil =>
      cases success
      exact ⟨fun _ _ => nofun, fun _ _ bound _ => bound⟩
  | cons group groups ih =>
      obtain ⟨middle, step, rest⟩ := foldlM_cons_ok success
      obtain ⟨first, others, rfl⟩ := List.exists_cons_of_ne_nil (nonempty group List.mem_cons_self)
      obtain ⟨own, later⟩ := List.pairwise_cons.mp apart
      have here := intact (first :: others) List.mem_cons_self
      have mergeable := mergeable_of_resolveGroup here step
      rw [resolveGroup_mergeable here mergeable] at step
      obtain rfl := Except.ok.inj step
      have spares : Spares table state
        (afterGroup order batchRows parents table state first others) (first :: others) :=
          spares_afterGroup
      obtain ⟨onRest, keep⟩ := ih (fun other member => nonempty other (List.mem_cons_of_mem _ member))
        (fun other member => distinct other (List.mem_cons_of_mem _ member)) later
        (fun other member => intact_of_spares (intact other (List.mem_cons_of_mem _ member)) spares
          (own other member)) rest
      have fresh := (List.nodup_cons.mp (distinct _ List.mem_cons_self)).1
      have bound := keep first others (bound_afterGroup positive here fresh) own
      constructor
      · intro head tail member
        rcases List.mem_cons.mp member with isGroup | inRest
        · cases isGroup
          exact ⟨mergeable, bound⟩
        · exact onRest head tail inRest
      · intro head tail before outside
        apply keep head tail
        · exact bound_of_spares before spares (outside _ List.mem_cons_self)
        · exact fun other member => outside other (List.mem_cons_of_mem _ member)

theorem groups_refused {error : MergeError}
    (failure : groups.foldlM (resolveGroup order table) state = .error error) :
    ∃ group ∈ groups, ¬ Mergeable parents group := by
  induction groups generalizing state with
  | nil => cases failure
  | cons group groups ih =>
      obtain ⟨first, others, rfl⟩ := List.exists_cons_of_ne_nil (nonempty group List.mem_cons_self)
      obtain ⟨own, later⟩ := List.pairwise_cons.mp apart
      have here := intact (first :: others) List.mem_cons_self
      by_cases mergeable : Mergeable parents (first :: others)
      · rw [List.foldlM_cons, resolveGroup_mergeable here mergeable, ok_bind] at failure
        have spares : Spares table state
          (afterGroup order batchRows parents table state first others) (first :: others) :=
            spares_afterGroup
        obtain ⟨other, member, refused⟩ :=
          ih (fun other member => nonempty other (List.mem_cons_of_mem _ member))
            (fun other member => distinct other (List.mem_cons_of_mem _ member)) later
            (fun other member => intact_of_spares (intact other (List.mem_cons_of_mem _ member))
              spares (own other member)) failure
        exact ⟨other, List.mem_cons_of_mem _ member, refused⟩
      · exact ⟨_, List.mem_cons_self, mergeable⟩

end Groups

/-- No child tuple with several parents shares a parent key with another child tuple: a merge
deletes the files of its members, and a parent key has one file. -/
def Unshared (incoming : List RelationshipEdge) : Prop :=
  ∀ edge ∈ incoming, ∀ other ∈ incoming, edge.childColumns ≠ other.childColumns →
    edge.parent = other.parent →
      (incoming.filter fun member => member.childColumns = edge.childColumns).length ≤ 1

theorem groups_apart {incoming : List RelationshipEdge} (unshared : Unshared incoming) :
    ((groupEdges incoming).entries.map Prod.snd).Pairwise Apart := by
  rw [List.pairwise_map]
  have keys := List.pairwise_map.mp (groupEdges incoming).distinct
  refine keys.imp_of_mem ?_
  rintro ⟨columns, left⟩ ⟨others, right⟩ leftEntry rightEntry differ edge inLeft other inRight
  obtain ⟨rfl, _⟩ := mem_groupEdges.mp leftEntry
  obtain ⟨rfl, _⟩ := mem_groupEdges.mp rightEntry
  obtain ⟨edgeIn, edgeColumns⟩ := List.mem_filter.mp inLeft
  obtain ⟨otherIn, otherColumns⟩ := List.mem_filter.mp inRight
  obtain rfl := of_decide_eq_true edgeColumns
  obtain rfl := of_decide_eq_true otherColumns
  refine ⟨fun same => differ (by rw [same]), ?_⟩
  intro several same
  have leftSingle := unshared edge edgeIn other otherIn differ same
  have rightSingle := unshared other otherIn edge edgeIn (Ne.symm differ) same.symm
  dsimp only at several
  omega

end Child

def ownedBy (parentTable : String) : RelationshipEdge where
  parentTable := parentTable
  parentColumns := ["id"]
  childTable := "assets"
  childColumns := ["owner_id"]
  namespaceName := "owner_id"
  orphanPolicy := .warn

/-- Companies 1 and 2, people 2 and 3, with the types of their masked keys. -/
def owners (companyTypes personTypes : List String) (node : NodeKey) : ParentTable :=
  if (ofLex node).1 = "companies" then
    ⟨[[⟨[integerCell 1], [.int 11]⟩, ⟨[integerCell 2], [.int 12]⟩]], companyTypes⟩
  else ⟨[[⟨[integerCell 2], [.int 22]⟩], [⟨[integerCell 3], [.int 23]⟩]], personTypes⟩

/-- Every edge bound as it was built, with every file on disk. -/
def builtScratch (order : Sql.RowOrder) (batchRows : Nat) (parents : NodeKey → ParentTable) :
    RelationScratch where
  parentRelations edge := some (edgeRelation edge)
  files
    | .parentKey node => some (relationFile order batchRows parents node)
    | .merged _ _ => none

-- Two child columns with the same two parents: the first merge deletes the files the second reads.
example : (resolveIncoming reversedRows 2
      (builtScratch reversedRows 2 (owners ["int64"] ["int64"]))
      [ownedBy "companies", ownedBy "people", { ownedBy "companies" with childColumns := ["user_id"] },
        { ownedBy "people" with childColumns := ["user_id"] }]).map Prod.fst =
    .error (.fileNotFound (.parentKey (ownedBy "companies").parent)) := rfl

end DecoyEngine.Execution.OutOfCore
