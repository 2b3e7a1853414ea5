import DecoyEngine.Data.FirstHit
import DecoyEngine.Execution.FkResolve

namespace DecoyEngine.Execution

open DecoyEngine.Data DecoyEngine.Relationships

/-! FK children with several parents (`_pandas_adapter._resolve_fk_node`).

A parent map is cached per parent node, so two edges of one parent share it. -/

section Resolve

variable {κ : Type u} {ι : Type v} [DecidableEq ι] (ident : κ → ι)

/-- The first edge's map, the others merged in with `setdefault`. -/
def mergeParentMaps (parentMaps : NodeKey → Dict ι κ) (edge : RelationshipEdge)
    (extraEdges : List RelationshipEdge) : Dict ι κ :=
  extraEdges.foldl (fun merged extra => merged.setdefaults (parentMaps extra.parent).entries)
    (parentMaps edge.parent)

def gatherErroredParentKeys (erroredKeys : NodeKey → Dict ι String)
    (edges : List RelationshipEdge) : Dict ι String :=
  edges.foldl (fun errored edge => errored.setdefaults (erroredKeys edge.parent).entries)
    Dict.empty

/-- `none` when the node is no FK child; the adapter masks it by its own strategy then. -/
def resolveFkNode (edges : List RelationshipEdge) (parentMaps : NodeKey → Dict ι κ)
    (erroredKeys : NodeKey → Dict ι String) (remapFn : RelationshipEdge → List κ → List κ)
    (childKeys : List (Option κ)) : Option (Except ExecutionError (Resolved κ)) :=
  match edges with
  | [] => none
  | edge :: extraEdges =>
      some (resolveFkKeys ident childKeys (mergeParentMaps parentMaps edge extraEdges) edge
        (remapFn edge) (gatherErroredParentKeys erroredKeys (edge :: extraEdges)))

omit ident in
theorem find_mergeParentMaps (parentMaps : NodeKey → Dict ι κ) (edge : RelationshipEdge)
    (extraEdges : List RelationshipEdge) (key : ι) :
    (mergeParentMaps parentMaps edge extraEdges).find key =
      (edge :: extraEdges).findSome? (fun e => (parentMaps e.parent).find key) := by
  suffices general : ∀ merged : Dict ι κ,
      (extraEdges.foldl (fun merged extra => merged.setdefaults (parentMaps extra.parent).entries)
        merged).find key =
      (merged.find key).or (extraEdges.findSome? (fun e => (parentMaps e.parent).find key)) by
    rw [mergeParentMaps, general, List.findSome?_cons]
    cases (parentMaps edge.parent).find key <;> rfl
  induction extraEdges with
  | nil => intro merged; simp
  | cons extra extraEdges ih =>
      intro merged
      rw [List.foldl_cons, ih, Dict.find_setdefaults, Option.or_assoc, List.findSome?_cons]
      have own : ((parentMaps extra.parent).entries.find? (fun entry => decide (entry.1 = key))).map
          Prod.snd = (parentMaps extra.parent).find key := rfl
      rw [own]
      cases (parentMaps extra.parent).find key <;> simp

end Resolve

section Order

variable {namespaceFor : Relationship → Except PlanCompileError String}
  {orphanPolicyLookup : NodeKey ×ₗ NodeKey → Option OrphanPolicy}
  {relationships : List Relationship} {graph : RelationshipGraph}

/-- The parents of a child in the order their relationships are declared. -/
def declaredParents (relationships : List Relationship) (childTable : String)
    (childColumns : List String) : List NodeKey :=
  (relationships.filter
    (fun rel => rel.childTable = childTable ∧ rel.childColumns = childColumns)).map
      Relationship.parent

theorem resolveEdge_ok {rel : Relationship} {edge : RelationshipEdge}
    (resolved : resolveEdge namespaceFor orphanPolicyLookup rel = .ok edge) :
    edge.parent = rel.parent ∧ edge.childTable = rel.childTable ∧
      edge.childColumns = rel.childColumns := by
  unfold resolveEdge at resolved
  cases registered : namespaceFor rel with
  | error raised => simp [registered, bind, Except.bind] at resolved
  | ok name =>
      cases policy : orphanPolicyLookup rel.key with
      | none => simp [registered, policy, bind, Except.bind] at resolved
      | some policy' =>
          simp only [registered, policy, bind, Except.bind] at resolved
          obtain rfl := Except.ok.inj resolved
          exact ⟨rfl, rfl, rfl⟩

theorem resolveEdges_parents {edges : List RelationshipEdge}
    (resolved : relationships.mapM (resolveEdge namespaceFor orphanPolicyLookup) = .ok edges)
    (childTable : String) (childColumns : List String) :
    (edges.filter (fun e => e.childTable = childTable ∧ e.childColumns = childColumns)).map
      RelationshipEdge.parent = declaredParents relationships childTable childColumns := by
  induction relationships generalizing edges with
  | nil =>
      obtain rfl : edges = [] := by
        rw [List.mapM_nil] at resolved
        exact (Except.ok.inj resolved).symm
      rfl
  | cons rel relationships ih =>
      rw [List.mapM_cons] at resolved
      cases first : resolveEdge namespaceFor orphanPolicyLookup rel with
      | error raised => simp [first, bind, Except.bind] at resolved
      | ok edge =>
          cases rest : relationships.mapM (resolveEdge namespaceFor orphanPolicyLookup) with
          | error raised => simp [first, rest, bind, Except.bind] at resolved
          | ok others =>
              simp only [first, rest, bind, Except.bind, pure, Except.pure] at resolved
              obtain rfl := Except.ok.inj resolved
              obtain ⟨parent, table, columns⟩ := resolveEdge_ok first
              have tail := ih rest
              simp only [declaredParents, List.filter_cons, table, columns] at tail ⊢
              split
              · rw [List.map_cons, List.map_cons, parent, tail]
              · exact tail

theorem buildRelationshipGraph_edges
    (built : buildRelationshipGraph namespaceFor orphanPolicyLookup relationships = .ok graph) :
    ∃ edges, relationships.mapM (resolveEdge namespaceFor orphanPolicyLookup) = .ok edges ∧
      graph.edges = edgesSorted edges := by
  unfold buildRelationshipGraph at built
  cases checked : checkPolicies orphanPolicyLookup relationships
      (relationships.map Relationship.child).eraseDups with
  | error raised => simp [checked, bind, Except.bind] at built
  | ok _ =>
      cases resolved : relationships.mapM (resolveEdge namespaceFor orphanPolicyLookup) with
      | error raised => simp [checked, resolved, bind, Except.bind] at built
      | ok edges =>
          cases ordered : graphOrdering (edgesSorted edges) with
          | error raised => simp [checked, resolved, ordered, bind, Except.bind] at built
          | ok ordering =>
              simp only [checked, resolved, ordered, bind, Except.bind] at built
              obtain rfl := Except.ok.inj built
              exact ⟨edges, rfl, rfl⟩

theorem parentsOf_sorted (edges : List RelationshipEdge) (childTable : String)
    (childColumns : List String) :
    (((edgesSorted edges).filter
      (fun e => e.childTable = childTable ∧ e.childColumns = childColumns)).map
        RelationshipEdge.parent).Pairwise (· ≤ ·) := by
  have : Std.Total (fun left right : RelationshipEdge => left.key ≤ right.key) :=
    ⟨fun left right => le_total left.key right.key⟩
  have : IsTrans RelationshipEdge (fun left right => left.key ≤ right.key) :=
    ⟨fun _ _ _ below above => below.trans above⟩
  have sorted := List.pairwise_insertionSort
    (fun left right : RelationshipEdge => left.key ≤ right.key) edges.eraseDups
  rw [List.pairwise_map]
  refine (sorted.filter _).imp ?_
  intro left right ordered
  have keys : toLex (left.parent, left.child) ≤ toLex (right.parent, right.child) := ordered
  rcases Prod.Lex.toLex_le_toLex.mp keys with below | ⟨same, _⟩
  · exact below.le
  · exact same.le

theorem mem_parentsOf_iff {edges : List RelationshipEdge} {childTable : String}
    {childColumns : List String} {parent : NodeKey} :
    parent ∈ ((edgesSorted edges).filter
      (fun e => e.childTable = childTable ∧ e.childColumns = childColumns)).map
        RelationshipEdge.parent ↔
    parent ∈ (edges.filter
      (fun e => e.childTable = childTable ∧ e.childColumns = childColumns)).map
        RelationshipEdge.parent := by
  simp only [List.mem_map, List.mem_filter, edgesSorted, List.mem_insertionSort,
    List.mem_eraseDups]

theorem eraseDups_parents_eq_iff {sorted declared : List NodeKey}
    (ascending : sorted.Pairwise (· ≤ ·)) (same : ∀ parent, parent ∈ sorted ↔ parent ∈ declared) :
    sorted.eraseDups = declared.eraseDups ↔ declared.eraseDups.Pairwise (· ≤ ·) := by
  have sortedAscending : sorted.eraseDups.Pairwise (· ≤ ·) :=
    ascending.sublist (eraseDups_sublist sorted)
  constructor
  · intro equal
    rw [← equal]
    exact sortedAscending
  · intro declaredAscending
    have members : sorted.eraseDups.Perm declared.eraseDups := by
      rw [List.perm_ext_iff_of_nodup (nodup_eraseDups sorted) (nodup_eraseDups declared)]
      intro parent
      rw [List.mem_eraseDups, List.mem_eraseDups]
      exact same parent
    exact members.eq_of_pairwise (fun _ _ _ _ below above => le_antisymm below above)
      sortedAscending declaredAscending

end Order

section Precedence

variable {κ : Type u} {ι : Type v} [DecidableEq ι] (ident : κ → ι)

/-- Every resolved child key that some parent holds carries the value of the parent
declared first among those that hold it. -/
def DeclaredPrecedence (relationships : List Relationship) (graph : RelationshipGraph)
    (childTable : String) (childColumns : List String) : Prop :=
  ∀ (parentMaps : NodeKey → Dict ι κ) (erroredKeys : NodeKey → Dict ι String)
    (remapFn : RelationshipEdge → List κ → List κ) (childKeys : List (Option κ))
    (resolved : Resolved κ),
    resolveFkNode ident (graph.parentsOf childTable childColumns) parentMaps erroredKeys remapFn
      childKeys = some (.ok resolved) →
    ∀ (i : Nat) (key value : κ), childKeys[i]? = some (some key) →
      (declaredParents relationships childTable childColumns).findSome?
        (fun parent => (parentMaps parent).find (ident key)) = some value →
      resolved.masked[i]? = some (some value)

theorem resolveFkNode_first_hit {edges : List RelationshipEdge}
    {parentMaps : NodeKey → Dict ι κ} {erroredKeys : NodeKey → Dict ι String}
    {remapFn : RelationshipEdge → List κ → List κ} {childKeys : List (Option κ)}
    {resolved : Resolved κ}
    (ran : resolveFkNode ident edges parentMaps erroredKeys remapFn childKeys =
      some (.ok resolved))
    {i : Nat} {key value : κ} (row : childKeys[i]? = some (some key))
    (hit : (edges.map RelationshipEdge.parent).findSome?
      (fun parent => (parentMaps parent).find (ident key)) = some value) :
    resolved.masked[i]? = some (some value) := by
  cases edges with
  | nil => simp at hit
  | cons edge extraEdges =>
      have merged := find_mergeParentMaps parentMaps edge extraEdges (ident key)
      rw [List.findSome?_map, Function.comp_def] at hit
      rw [hit] at merged
      simp only [resolveFkNode, Option.some.injEq] at ran
      obtain ⟨values, column⟩ := resolveFkKeys_ok ident ran
      rw [column]
      refine fillOrphans_mapped values ?_
      rw [List.getElem?_map, row, Option.map_some]
      simp only [rowFate, merged]

theorem resolveFkNode_single {edges : List RelationshipEdge} {parentMaps : NodeKey → Dict ι κ}
    (erroredKeys : NodeKey → Dict ι String) (remapFn : RelationshipEdge → List κ → List κ)
    {key value : κ}
    (hit : (edges.map RelationshipEdge.parent).findSome?
      (fun parent => (parentMaps parent).find (ident key)) = some value) :
    ∃ resolved, resolveFkNode ident edges parentMaps erroredKeys remapFn [some key] =
      some (.ok resolved) := by
  cases edges with
  | nil => simp at hit
  | cons edge extraEdges =>
      have merged := find_mergeParentMaps parentMaps edge extraEdges (ident key)
      rw [List.findSome?_map, Function.comp_def] at hit
      rw [hit] at merged
      have covered : ([some key].map (rowFate ident (mergeParentMaps parentMaps edge extraEdges)
          (gatherErroredParentKeys erroredKeys (edge :: extraEdges)))).filterMap
            RowFate.orphanKey = [] := by
        simp [rowFate, merged]
      obtain ⟨resolved, ran, _⟩ := resolveFkKeys_covered ident edge (remapFn edge) covered
      exact ⟨resolved, by rw [resolveFkNode, ran]⟩

/-- A parent map that answers one key as `answer` says and no other key. -/
def answerMap (answer : NodeKey → Option κ) (key : ι) (parent : NodeKey) : Dict ι κ :=
  match answer parent with
  | some value => Dict.empty.set key value
  | none => Dict.empty

omit ident in
theorem find_answerMap (answer : NodeKey → Option κ) (key : ι) (parent : NodeKey) :
    (answerMap answer key parent).find key = answer parent := by
  rw [answerMap]
  cases answer parent with
  | none => rfl
  | some value => simp [Dict.find_set]

/-- Merge order is declaration order exactly when the parents of the child are declared ascending by
(table, columns): the graph builder sorts the edges, and the resolver merges parent maps in that
sorted order. -/
theorem declared_precedence_iff_ascending [Nontrivial κ]
    (namespaceFor : Relationship → Except PlanCompileError String)
    (orphanPolicyLookup : NodeKey ×ₗ NodeKey → Option OrphanPolicy)
    (relationships : List Relationship) (graph : RelationshipGraph)
    (built : buildRelationshipGraph namespaceFor orphanPolicyLookup relationships = .ok graph)
    (childTable : String) (childColumns : List String) :
    DeclaredPrecedence ident relationships graph childTable childColumns ↔
      (declaredParents relationships childTable childColumns).eraseDups.Pairwise (· ≤ ·) := by
  obtain ⟨edges, resolvedEdges, graphEdges⟩ := buildRelationshipGraph_edges built
  have declared := resolveEdges_parents resolvedEdges childTable childColumns
  have handed : (graph.parentsOf childTable childColumns).map RelationshipEdge.parent =
      ((edgesSorted edges).filter
        (fun e => e.childTable = childTable ∧ e.childColumns = childColumns)).map
          RelationshipEdge.parent := by
    rw [RelationshipGraph.parentsOf, graphEdges]
  have ascending := parentsOf_sorted edges childTable childColumns
  have same : ∀ parent, parent ∈ (graph.parentsOf childTable childColumns).map
      RelationshipEdge.parent ↔ parent ∈ declaredParents relationships childTable childColumns := by
    intro parent
    rw [handed, mem_parentsOf_iff, declared]
  rw [← handed] at ascending
  rw [← eraseDups_parents_eq_iff ascending same]
  constructor
  · intro precedence
    have agree : ∀ answer : NodeKey → Option κ,
        ((graph.parentsOf childTable childColumns).map RelationshipEdge.parent).findSome? answer =
          (declaredParents relationships childTable childColumns).findSome? answer := by
      intro answer
      obtain ⟨key, _, _⟩ := exists_pair_ne κ
      have reads : (fun parent => (answerMap answer (ident key) parent).find (ident key)) = answer :=
        funext (find_answerMap answer (ident key))
      cases asked : (declaredParents relationships childTable childColumns).findSome? answer with
      | none =>
          rw [List.findSome?_eq_none_iff] at asked ⊢
          exact fun parent member => asked parent ((same parent).mp member)
      | some value =>
          obtain ⟨parent, member, answered⟩ := List.exists_of_findSome?_eq_some asked
          have handedHit : ∃ first,
              ((graph.parentsOf childTable childColumns).map RelationshipEdge.parent).findSome?
                answer = some first := by
            rw [← Option.isSome_iff_exists, List.findSome?_isSome_iff]
            exact ⟨parent, (same parent).mpr member, by simp [answered]⟩
          obtain ⟨first, firstHit⟩ := handedHit
          have readsFirst := reads ▸ firstHit
          obtain ⟨resolved, ran⟩ := resolveFkNode_single ident (fun _ => Dict.empty)
            (fun _ keys => keys) readsFirst
          have actual := resolveFkNode_first_hit ident ran (i := 0) rfl readsFirst
          have promised := precedence _ _ _ _ resolved ran 0 key value rfl (by rw [reads]; exact asked)
          rw [actual] at promised
          rw [firstHit]
          simpa using promised
    exact (findSome_agree_iff _ _).mp agree
  · intro equal parentMaps erroredKeys remapFn childKeys resolved ran i key value row hit
    refine resolveFkNode_first_hit ident ran row ?_
    rw [← findSome_eraseDups, equal, findSome_eraseDups]
    exact hit

end Precedence

def peopleBuyer : Relationship where
  parentTable := "people"
  parentColumns := ["id"]
  childTable := "orders"
  childColumns := ["buyer"]
  namespaceName := some "ids"
  nonempty := by decide
  aligned := rfl

def companiesBuyer : Relationship := { peopleBuyer with parentTable := "companies" }

def buyerEdge (parentTable : String) : RelationshipEdge where
  parentTable := parentTable
  parentColumns := ["id"]
  childTable := "orders"
  childColumns := ["buyer"]
  namespaceName := "ids"
  orphanPolicy := .preserve

/-- The graph of both relationships, whichever is declared first. -/
def buyerGraph : RelationshipGraph where
  edges := [buyerEdge "companies", buyerEdge "people"]
  ordering := [toLex ("companies", ["id"]), toLex ("people", ["id"]), toLex ("orders", ["buyer"])]

theorem declared_precedence_companies_first :
    DeclaredPrecedence (fun key : String => key) [companiesBuyer, peopleBuyer] buyerGraph "orders"
      ["buyer"] :=
  have : Nontrivial String := ⟨"person", "company", by decide⟩
  (declared_precedence_iff_ascending _ (fun _ => .ok "ids") (fun _ => some .preserve)
    [companiesBuyer, peopleBuyer] buyerGraph (by decide +kernel) "orders" ["buyer"]).mpr
    (by decide +kernel)

/-- With `people` declared first, an id both tables hold still resolves to the company. -/
theorem declared_precedence_people_first :
    buildRelationshipGraph (fun _ => .ok "ids") (fun _ => some .preserve)
        [peopleBuyer, companiesBuyer] = .ok buyerGraph ∧
      ¬ DeclaredPrecedence (fun key : String => key) [peopleBuyer, companiesBuyer] buyerGraph
        "orders" ["buyer"] := by
  refine ⟨by decide +kernel, fun precedence => ?_⟩
  have row := precedence
    (fun parent => Dict.empty.set "7" (if (ofLex parent).1 = "people" then "person" else "company"))
    (fun _ => Dict.empty) (fun _ keys => keys) [some "7"] ⟨[some "company"], [], []⟩ rfl 0 "7"
    "person" rfl (by decide +kernel)
  exact absurd row (by decide)

end DecoyEngine.Execution
