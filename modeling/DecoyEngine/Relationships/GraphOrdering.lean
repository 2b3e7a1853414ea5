import DecoyEngine.Data.Checked
import DecoyEngine.Data.FirstHit
import DecoyEngine.Relationships.Kahn
import DecoyEngine.Relationships.Namespace

namespace DecoyEngine.Relationships

open DecoyEngine.Data DecoyEngine.Data.GreedyOrder

/-! The order of the relationship graph: the least one with every parent before its children. -/

/-- `namespace_registry.for_relationship` -/
def namespaceOf (registry : NamespaceRegistry) (rel : Relationship) :
    Except PlanCompileError String :=
  (registry.forRelationship rel).mapError fun _ => .namespaceMissing rel

section Specification

variable (relationships : List Relationship)

def References (parent child : NodeKey) : Prop :=
  ∃ rel ∈ relationships, rel.parent = parent ∧ rel.child = child

def ReferenceCycle : Prop := ∃ node, Relation.TransGen (References relationships) node node

/-- An order of the nodes with every parent before its children. -/
structure RelationshipOrder (ordering : List NodeKey) : Prop where
  nodup : ordering.Nodup
  nodes : ∀ node, node ∈ ordering ↔ ∃ rel ∈ relationships, node = rel.parent ∨ node = rel.child
  parents_first : ∀ rel ∈ relationships, ordering.idxOf rel.parent < ordering.idxOf rel.child

structure LeastOrder (ordering : List NodeKey) : Prop where
  order : RelationshipOrder relationships ordering
  least : ∀ other, RelationshipOrder relationships other → ordering ≤ other

/-- Nothing but a cycle stands against the graph. -/
structure Resolvable (registry : NamespaceRegistry)
    (orphanPolicyLookup : NodeKey ×ₗ NodeKey → Option OrphanPolicy) : Prop where
  agreed : ∀ rel ∈ relationships, ∀ other ∈ relationships, rel.child = other.child →
    ∀ policy otherPolicy, orphanPolicyLookup rel.key = some policy →
      orphanPolicyLookup other.key = some otherPolicy → policy = otherPolicy
  named : ∀ rel ∈ relationships, ∃ name, registry.forRelationship rel = .ok name
  policed : ∀ rel ∈ relationships, ∃ policy, orphanPolicyLookup rel.key = some policy

end Specification

def outEdges (edges : List RelationshipEdge) : NodeKey → List NodeKey :=
  targetsOf RelationshipEdge.parent RelationshipEdge.child edges

theorem mem_edgesSorted {edges : List RelationshipEdge} {edge : RelationshipEdge} :
    edge ∈ edgesSorted edges ↔ edge ∈ edges := by
  rw [edgesSorted, (List.perm_insertionSort _ _).mem_iff, List.mem_eraseDups]

theorem mem_graphNodes {edges : List RelationshipEdge} {node : NodeKey} :
    node ∈ graphNodes edges ↔ ∃ edge ∈ edges, node = edge.parent ∨ node = edge.child := by
  rw [graphNodes, List.mem_eraseDups, List.mem_flatMap]
  apply exists_congr
  intro edge
  rw [List.mem_cons, List.mem_singleton]

theorem graphNodes_nodup (edges : List RelationshipEdge) : (graphNodes edges).Nodup :=
  nodup_eraseDups _

theorem outEdges_within {edges : List RelationshipEdge} :
    ∀ node ∈ graphNodes edges, ∀ child ∈ outEdges edges node, child ∈ graphNodes edges := by
  intro node _ child member
  obtain ⟨edge, edgeIn, -, isChild⟩ := mem_targetsOf.mp member
  exact mem_graphNodes.mpr ⟨edge, edgeIn, .inr isChild.symm⟩

theorem leads_iff {edges : List RelationshipEdge} {parent child : NodeKey} :
    Leads (graphNodes edges) (outEdges edges) parent child ↔
      ∃ edge ∈ edges, edge.parent = parent ∧ edge.child = child := by
  constructor
  · intro leads
    exact mem_targetsOf.mp leads.edge
  · intro ⟨edge, edgeIn, isParent, isChild⟩
    refine ⟨?_, ?_, mem_targetsOf.mpr ⟨edge, edgeIn, isParent, isChild⟩⟩
    · exact mem_graphNodes.mpr ⟨edge, edgeIn, .inl isParent.symm⟩
    · exact mem_graphNodes.mpr ⟨edge, edgeIn, .inr isChild.symm⟩

theorem graphOrdering_cases (edges : List RelationshipEdge) :
    (Cyclic (graphNodes edges) (outEdges edges) ∧
      ∃ cycleNodes, graphOrdering edges = .error (.fkCycle cycleNodes)) ∨
    (¬ Cyclic (graphNodes edges) (outEdges edges) ∧
      ∃ ordering, ordering.Perm (graphNodes edges) ∧
        Greedy (graphNodes edges) (outEdges edges) ordering ∧
        graphOrdering edges = .ok ordering) := by
  have distinct := graphNodes_nodup edges
  have parents : ∀ edge ∈ edges, edge.parent ∈ graphNodes edges := fun edge member =>
    mem_graphNodes.mpr ⟨edge, member, .inl rfl⟩
  have counted : ∀ key, (edges.countP fun edge => edge.child = key) =
      blocked (graphNodes edges) (outEdges edges) [] key := countP_eq_blocked distinct parents
  obtain ⟨greedy, short, full⟩ := kahnLoop_cases distinct outEdges_within counted
  by_cases cyclic : Cyclic (graphNodes edges) (outEdges edges)
  · exact .inl ⟨cyclic, _, if_pos (short.mpr cyclic)⟩
  · have equal := not_not.mp (mt short.mp cyclic)
    exact .inr ⟨cyclic, _, full equal, greedy, if_neg (not_not.mpr equal)⟩

/-- The edges go from the parents to the children of the relationships. -/
def EdgesOf (relationships : List Relationship) (edges : List RelationshipEdge) : Prop :=
  ∀ parent child, (∃ edge ∈ edges, edge.parent = parent ∧ edge.child = child) ↔
    References relationships parent child

section EdgesOf

variable {relationships : List Relationship} {edges : List RelationshipEdge}

theorem EdgesOf.cyclic_iff (edgesOf : EdgesOf relationships edges) :
    Cyclic (graphNodes edges) (outEdges edges) ↔ ReferenceCycle relationships := by
  have same : Leads (graphNodes edges) (outEdges edges) = References relationships := by
    funext parent child
    exact propext (leads_iff.trans (edgesOf parent child))
  rw [Cyclic, same, ReferenceCycle]

theorem EdgesOf.mem_graphNodes_iff (edgesOf : EdgesOf relationships edges) (node : NodeKey) :
    node ∈ graphNodes edges ↔ ∃ rel ∈ relationships, node = rel.parent ∨ node = rel.child := by
  rw [mem_graphNodes]
  constructor
  · intro ⟨edge, edgeIn, isEnd⟩
    obtain ⟨rel, relIn, isParent, isChild⟩ :=
      (edgesOf edge.parent edge.child).mp ⟨edge, edgeIn, rfl, rfl⟩
    rw [← isParent, ← isChild] at isEnd
    exact ⟨rel, relIn, isEnd⟩
  · intro ⟨rel, relIn, isEnd⟩
    obtain ⟨edge, edgeIn, isParent, isChild⟩ :=
      (edgesOf rel.parent rel.child).mpr ⟨rel, relIn, rfl, rfl⟩
    rw [← isParent, ← isChild] at isEnd
    exact ⟨edge, edgeIn, isEnd⟩

theorem EdgesOf.topological_iff (edgesOf : EdgesOf relationships edges) {ordering : List NodeKey} :
    Topological (graphNodes edges) (outEdges edges) ordering ↔
      RelationshipOrder relationships ordering := by
  constructor
  · intro topological
    refine ⟨topological.perm.nodup_iff.mpr (graphNodes_nodup edges), ?_, ?_⟩
    · intro node
      rw [topological.perm.mem_iff, edgesOf.mem_graphNodes_iff]
    · intro rel member
      apply topological.forward
      exact leads_iff.mpr ((edgesOf _ _).mpr ⟨rel, member, rfl, rfl⟩)
  · intro order
    refine ⟨?_, fun parent child leads => ?_⟩
    · apply (List.perm_ext_iff_of_nodup order.nodup (graphNodes_nodup edges)).mpr
      intro node
      rw [order.nodes, edgesOf.mem_graphNodes_iff]
    · obtain ⟨rel, member, isParent, isChild⟩ := (edgesOf _ _).mp (leads_iff.mp leads)
      rw [← isParent, ← isChild]
      exact order.parents_first rel member

theorem EdgesOf.leastOrder (edgesOf : EdgesOf relationships edges) {ordering : List NodeKey}
    (greedy : Greedy (graphNodes edges) (outEdges edges) ordering)
    (perm : ordering.Perm (graphNodes edges)) : LeastOrder relationships ordering := by
  refine ⟨edgesOf.topological_iff.mp (greedy.topological perm), fun other order => ?_⟩
  exact greedy.le_of_topological (graphNodes_nodup edges) perm (edgesOf.topological_iff.mpr order)

end EdgesOf

section Build

variable {registry : NamespaceRegistry}
  {orphanPolicyLookup : NodeKey ×ₗ NodeKey → Option OrphanPolicy}
  {relationships : List Relationship}

theorem resolveEdge_ends {rel : Relationship} {edge : RelationshipEdge}
    (resolved : resolveEdge (namespaceOf registry) orphanPolicyLookup rel = .ok edge) :
    edge.parent = rel.parent ∧ edge.child = rel.child := by
  obtain ⟨name, -, rest⟩ := bind_eq_ok resolved
  cases policy : orphanPolicyLookup rel.key with
  | none =>
      rw [policy] at rest
      cases rest
  | some policy' =>
      rw [policy] at rest
      cases rest
      exact ⟨rfl, rfl⟩

theorem resolveEdge_ok_iff {rel : Relationship} :
    (∃ edge, resolveEdge (namespaceOf registry) orphanPolicyLookup rel = .ok edge) ↔
      (∃ name, registry.forRelationship rel = .ok name) ∧
        ∃ policy, orphanPolicyLookup rel.key = some policy := by
  rw [resolveEdge, namespaceOf]
  cases registry.forRelationship rel with
  | error error => exact iff_of_false nofun fun ⟨named, _⟩ => nomatch named
  | ok name =>
      cases orphanPolicyLookup rel.key with
      | none => exact iff_of_false nofun fun ⟨_, policed⟩ => nomatch policed
      | some policy => exact iff_of_true ⟨_, rfl⟩ ⟨⟨name, rfl⟩, ⟨policy, rfl⟩⟩

theorem resolveEdge_error {rel : Relationship} {error : PlanCompileError}
    (failed : resolveEdge (namespaceOf registry) orphanPolicyLookup rel = .error error) :
    ∀ cycleNodes, error ≠ .fkCycle cycleNodes := by
  intro cycleNodes isCycle
  subst isCycle
  rw [resolveEdge, namespaceOf] at failed
  cases named : registry.forRelationship rel with
  | error error =>
      rw [named] at failed
      cases failed
  | ok name =>
      rw [named] at failed
      cases policed : orphanPolicyLookup rel.key with
      | none =>
          simp only [policed] at failed
          cases failed
      | some policy =>
          simp only [policed] at failed
          cases failed

theorem edgesOf_resolved {edges : List RelationshipEdge}
    (resolved : relationships.mapM (resolveEdge (namespaceOf registry) orphanPolicyLookup) =
      .ok edges) : EdgesOf relationships (edgesSorted edges) := by
  intro parent child
  constructor
  · intro ⟨edge, member, isParent, isChild⟩
    obtain ⟨rel, relIn, run⟩ := exists_source_of_mapM resolved (mem_edgesSorted.mp member)
    obtain ⟨sameParent, sameChild⟩ := resolveEdge_ends run
    exact ⟨rel, relIn, sameParent ▸ isParent, sameChild ▸ isChild⟩
  · intro ⟨rel, relIn, isParent, isChild⟩
    obtain ⟨edge, member, run⟩ := exists_result_of_mapM resolved relIn
    obtain ⟨sameParent, sameChild⟩ := resolveEdge_ends run
    exact ⟨edge, mem_edgesSorted.mpr member, sameParent.trans isParent, sameChild.trans isChild⟩

theorem policy_value_injective : Function.Injective OrphanPolicy.value := by
  intro policy other same
  cases policy <;> cases other <;> first | rfl | exact absurd same (by decide)

theorem dedup_length_le_one_iff {α : Type} [DecidableEq α] {values : List α} :
    values.dedup.length ≤ 1 ↔ ∀ value ∈ values, ∀ other ∈ values, value = other := by
  constructor
  · intro short value member other otherIn
    have valueIn := List.mem_dedup.mpr member
    have otherMember := List.mem_dedup.mpr otherIn
    obtain ⟨i, inRange, rfl⟩ := List.getElem_of_mem valueIn
    obtain ⟨j, otherRange, rfl⟩ := List.getElem_of_mem otherMember
    have same : i = j := by omega
    subst same
    rfl
  · intro agreed
    have distinct := values.nodup_dedup
    match split : values.dedup with
    | [] => exact Nat.zero_le 1
    | [_] => exact Nat.le_refl 1
    | first :: second :: rest =>
        rw [split, List.nodup_cons] at distinct
        have members : ∀ value ∈ values.dedup, value ∈ values := fun value => List.mem_dedup.mp
        rw [split] at members
        have same := agreed first (members first List.mem_cons_self) second
          (members second (List.mem_cons_of_mem _ List.mem_cons_self))
        rw [same] at distinct
        exact absurd List.mem_cons_self distinct.1

theorem childPolicies_iff {child : NodeKey} :
    (childPolicies orphanPolicyLookup relationships child).length ≤ 1 ↔
      ∀ rel ∈ relationships, ∀ other ∈ relationships, rel.child = child → other.child = child →
        ∀ policy otherPolicy, orphanPolicyLookup rel.key = some policy →
          orphanPolicyLookup other.key = some otherPolicy → policy = otherPolicy := by
  rw [childPolicies, List.length_insertionSort, dedup_length_le_one_iff]
  constructor
  · intro agreed rel member other otherIn isChild otherChild policy otherPolicy found otherFound
    apply policy_value_injective
    apply agreed
    · refine List.mem_filterMap.mpr ⟨rel, List.mem_filter.mpr ⟨member, decide_eq_true isChild⟩, ?_⟩
      rw [found]
      rfl
    · refine List.mem_filterMap.mpr
        ⟨other, List.mem_filter.mpr ⟨otherIn, decide_eq_true otherChild⟩, ?_⟩
      rw [otherFound]
      rfl
  · intro agreed value member other otherIn
    obtain ⟨rel, relIn, isValue⟩ := List.mem_filterMap.mp member
    obtain ⟨otherRel, otherRelIn, isOther⟩ := List.mem_filterMap.mp otherIn
    obtain ⟨relIn, isChild⟩ := List.mem_filter.mp relIn
    obtain ⟨otherRelIn, otherChild⟩ := List.mem_filter.mp otherRelIn
    obtain ⟨policy, found, rfl⟩ := Option.map_eq_some_iff.mp isValue
    obtain ⟨otherPolicy, otherFound, rfl⟩ := Option.map_eq_some_iff.mp isOther
    rw [agreed rel relIn otherRel otherRelIn (of_decide_eq_true isChild)
      (of_decide_eq_true otherChild) policy otherPolicy found otherFound]

variable (orphanPolicyLookup relationships) in
theorem checkPolicies_cases (children : List NodeKey) :
    (checkPolicies orphanPolicyLookup relationships children = .ok () ∧
      ∀ child ∈ children, (childPolicies orphanPolicyLookup relationships child).length ≤ 1) ∨
    (∃ error, checkPolicies orphanPolicyLookup relationships children = .error error ∧
      (∀ cycleNodes, error ≠ .fkCycle cycleNodes) ∧
      ∃ child ∈ children, 1 < (childPolicies orphanPolicyLookup relationships child).length) := by
  induction children with
  | nil => exact .inl ⟨rfl, nofun⟩
  | cons child rest ih =>
      by_cases conflict : 1 < (childPolicies orphanPolicyLookup relationships child).length
      · refine .inr ⟨_, if_pos conflict, nofun, child, List.mem_cons_self, conflict⟩
      · have step : checkPolicies orphanPolicyLookup relationships (child :: rest) =
            checkPolicies orphanPolicyLookup relationships rest := if_neg conflict
        rw [step]
        rcases ih with ⟨passed, agreed⟩ | ⟨error, failed, other, witness, member, more⟩
        · refine .inl ⟨passed, fun node member => ?_⟩
          rcases List.mem_cons.mp member with same | later
          · exact same ▸ Nat.le_of_not_lt conflict
          · exact agreed node later
        · exact .inr ⟨error, failed, other, witness, List.mem_cons_of_mem _ member, more⟩

variable (registry orphanPolicyLookup relationships) in
theorem buildRelationshipGraph_cases :
    (¬ Resolvable relationships registry orphanPolicyLookup ∧
      ∃ error, buildRelationshipGraph (namespaceOf registry) orphanPolicyLookup relationships =
        .error error ∧ ∀ cycleNodes, error ≠ .fkCycle cycleNodes) ∨
    (Resolvable relationships registry orphanPolicyLookup ∧ ReferenceCycle relationships ∧
      ∃ cycleNodes, buildRelationshipGraph (namespaceOf registry) orphanPolicyLookup relationships =
        .error (.fkCycle cycleNodes)) ∨
    (Resolvable relationships registry orphanPolicyLookup ∧ ¬ ReferenceCycle relationships ∧
      ∃ graph, buildRelationshipGraph (namespaceOf registry) orphanPolicyLookup relationships =
        .ok graph ∧ LeastOrder relationships graph.ordering) := by
  rw [buildRelationshipGraph]
  have childIn : ∀ rel ∈ relationships,
      rel.child ∈ (relationships.map Relationship.child).eraseDups := by
    intro rel member
    rw [List.mem_eraseDups]
    exact List.mem_map_of_mem member
  rcases checkPolicies_cases orphanPolicyLookup relationships
      (relationships.map Relationship.child).eraseDups with
    ⟨passed, agreed⟩ | ⟨error, failed, notCycle, child, member, conflict⟩
  · rw [passed]
    cases resolved : relationships.mapM (resolveEdge (namespaceOf registry) orphanPolicyLookup) with
    | error error =>
        refine .inl ⟨fun resolvable => ?_, error, rfl, ?_⟩
        · obtain ⟨edges, run⟩ := exists_mapM fun rel relIn =>
            resolveEdge_ok_iff.mpr ⟨resolvable.named rel relIn, resolvable.policed rel relIn⟩
          rw [resolved] at run
          cases run
        · obtain ⟨rel, -, raised⟩ := exists_of_mapM_error resolved
          exact resolveEdge_error raised
    | ok edges =>
        have resolvable : Resolvable relationships registry orphanPolicyLookup := by
          refine ⟨?_, fun rel relIn => ?_, fun rel relIn => ?_⟩
          · intro rel relIn other otherIn same
            exact childPolicies_iff.mp (agreed other.child (childIn other otherIn)) rel relIn other
              otherIn same rfl
          · obtain ⟨edge, -, run⟩ := exists_result_of_mapM resolved relIn
            exact (resolveEdge_ok_iff.mp ⟨edge, run⟩).1
          · obtain ⟨edge, -, run⟩ := exists_result_of_mapM resolved relIn
            exact (resolveEdge_ok_iff.mp ⟨edge, run⟩).2
        have edgesOf := edgesOf_resolved resolved
        rcases graphOrdering_cases (edgesSorted edges) with
          ⟨cyclic, cycleNodes, raised⟩ | ⟨acyclic, ordering, perm, greedy, ordered⟩
        · refine .inr (.inl ⟨resolvable, edgesOf.cyclic_iff.mp cyclic, cycleNodes, ?_⟩)
          simp only [bind, Except.bind, raised]
        · refine .inr (.inr ⟨resolvable, mt edgesOf.cyclic_iff.mpr acyclic,
            ⟨edgesSorted edges, ordering⟩, ?_, edgesOf.leastOrder greedy perm⟩)
          simp only [bind, Except.bind, ordered]
  · refine .inl ⟨fun resolvable => ?_, error, ?_, notCycle⟩
    · refine absurd (childPolicies_iff.mpr ?_) (Nat.not_le_of_lt conflict)
      intro rel relIn other otherIn isChild otherChild
      exact resolvable.agreed rel relIn other otherIn (isChild.trans otherChild.symm)
    · rw [failed]
      rfl

theorem buildRelationshipGraph_ok
    (resolvable : Resolvable relationships registry orphanPolicyLookup) (acyclic : ¬ ReferenceCycle relationships) :
    ∃ graph, buildRelationshipGraph (namespaceOf registry) orphanPolicyLookup relationships =
      .ok graph ∧ LeastOrder relationships graph.ordering := by
  rcases buildRelationshipGraph_cases registry orphanPolicyLookup relationships with
    ⟨unresolved, -⟩ | ⟨-, cyclic, -⟩ | ⟨-, -, built⟩
  · exact absurd resolvable unresolved
  · exact absurd cyclic acyclic
  · exact built

theorem buildRelationshipGraph_error
    (bad : ¬ (Resolvable relationships registry orphanPolicyLookup ∧
      ¬ ReferenceCycle relationships)) :
    ∃ error, buildRelationshipGraph (namespaceOf registry) orphanPolicyLookup relationships =
      .error error := by
  rcases buildRelationshipGraph_cases registry orphanPolicyLookup relationships with
    ⟨-, error, failed, -⟩ | ⟨-, -, cycleNodes, raised⟩ | ⟨resolvable, acyclic, -⟩
  · exact ⟨error, failed⟩
  · exact ⟨_, raised⟩
  · exact absurd ⟨resolvable, acyclic⟩ bad

end Build

section Content

variable {relationships permuted : List Relationship}

theorem RelationshipOrder.congr (same : ∀ rel, rel ∈ permuted ↔ rel ∈ relationships)
    {ordering : List NodeKey} (order : RelationshipOrder relationships ordering) :
    RelationshipOrder permuted ordering := by
  refine ⟨order.nodup, fun node => ?_, fun rel member => ?_⟩
  · simp only [order.nodes, same]
  · exact order.parents_first rel ((same rel).mp member)

theorem LeastOrder.congr (same : ∀ rel, rel ∈ permuted ↔ rel ∈ relationships)
    {ordering : List NodeKey} (order : LeastOrder relationships ordering) :
    LeastOrder permuted ordering :=
  ⟨order.order.congr same, fun other otherOrder =>
    order.least other (otherOrder.congr fun rel => (same rel).symm)⟩

theorem LeastOrder.unique {ordering other : List NodeKey} (left : LeastOrder relationships ordering)
    (right : LeastOrder relationships other) : ordering = other :=
  le_antisymm (left.least other right.order) (right.least ordering left.order)

theorem Resolvable.congr (same : ∀ rel, rel ∈ permuted ↔ rel ∈ relationships)
    {registry : NamespaceRegistry} {orphanPolicyLookup : NodeKey ×ₗ NodeKey → Option OrphanPolicy}
    (resolvable : Resolvable relationships registry orphanPolicyLookup) :
    Resolvable permuted registry orphanPolicyLookup := by
  refine ⟨?_, ?_, ?_⟩
  · intro rel member other otherIn
    exact resolvable.agreed rel ((same rel).mp member) other ((same other).mp otherIn)
  · exact fun rel member => resolvable.named rel ((same rel).mp member)
  · exact fun rel member => resolvable.policed rel ((same rel).mp member)

theorem ReferenceCycle.congr (same : ∀ rel, rel ∈ permuted ↔ rel ∈ relationships)
    (cycle : ReferenceCycle relationships) : ReferenceCycle permuted := by
  obtain ⟨node, path⟩ := cycle
  refine ⟨node, path.lift id fun parent child references => ?_⟩
  obtain ⟨rel, member, isParent, isChild⟩ := references
  exact ⟨rel, (same rel).mpr member, isParent, isChild⟩

end Content

/-- The graph of a relationship list that resolves: a cycle is raised, or the ordering is the least
one with every parent before its children, whatever the order of the list. -/
theorem relationship_graph_ordering (registry : NamespaceRegistry)
    (orphanPolicyLookup : NodeKey ×ₗ NodeKey → Option OrphanPolicy)
    (relationships : List Relationship) :
    ((∃ cycleNodes, buildRelationshipGraph (namespaceOf registry) orphanPolicyLookup relationships =
        .error (.fkCycle cycleNodes)) ↔
      Resolvable relationships registry orphanPolicyLookup ∧ ReferenceCycle relationships) ∧
    ((∃ graph, buildRelationshipGraph (namespaceOf registry) orphanPolicyLookup relationships =
        .ok graph ∧ LeastOrder relationships graph.ordering) ↔
      Resolvable relationships registry orphanPolicyLookup ∧ ¬ ReferenceCycle relationships) ∧
    ∀ permuted : List Relationship, permuted.Perm relationships →
      (buildRelationshipGraph (namespaceOf registry) orphanPolicyLookup permuted).toOption.map
          RelationshipGraph.ordering =
        (buildRelationshipGraph (namespaceOf registry) orphanPolicyLookup
          relationships).toOption.map RelationshipGraph.ordering := by
  refine ⟨?_, ?_, fun permuted perm => ?_⟩
  · rcases buildRelationshipGraph_cases registry orphanPolicyLookup relationships with
      ⟨unresolved, error, failed, notCycle⟩ | ⟨resolvable, cyclic, raised⟩ |
        ⟨-, acyclic, graph, built, -⟩
    · refine iff_of_false (fun ⟨cycleNodes, raised⟩ => ?_) fun both => unresolved both.1
      exact notCycle cycleNodes (Except.error.inj (failed.symm.trans raised))
    · exact iff_of_true raised ⟨resolvable, cyclic⟩
    · refine iff_of_false (fun ⟨cycleNodes, raised⟩ => ?_) fun both => acyclic both.2
      rw [built] at raised
      cases raised
  · refine ⟨fun ⟨graph, built, _⟩ => ?_, fun both => buildRelationshipGraph_ok both.1 both.2⟩
    by_contra bad
    obtain ⟨error, failed⟩ := buildRelationshipGraph_error bad
    rw [failed] at built
    cases built
  · have same : ∀ rel, rel ∈ permuted ↔ rel ∈ relationships := fun rel => perm.mem_iff
    have back : ∀ rel, rel ∈ relationships ↔ rel ∈ permuted := fun rel => (same rel).symm
    by_cases good : Resolvable relationships registry orphanPolicyLookup ∧
        ¬ ReferenceCycle relationships
    · obtain ⟨graph, built, order⟩ := buildRelationshipGraph_ok good.1 good.2
      obtain ⟨other, otherBuilt, otherOrder⟩ := buildRelationshipGraph_ok (good.1.congr same)
        (mt (ReferenceCycle.congr back) good.2)
      rw [built, otherBuilt]
      exact congrArg some (otherOrder.unique (order.congr same))
    · have bad : ¬ (Resolvable permuted registry orphanPolicyLookup ∧ ¬ ReferenceCycle permuted) :=
        fun both => good ⟨both.1.congr back, mt (ReferenceCycle.congr same) both.2⟩
      obtain ⟨error, failed⟩ := buildRelationshipGraph_error good
      obtain ⟨otherError, otherFailed⟩ := buildRelationshipGraph_error bad
      rw [failed, otherFailed]
      rfl

namespace HiddenCycle

theorem id_nonempty : ["id"] ≠ [] := nofun
theorem id_aligned : ["id"].length = ["id"].length := rfl

def reference (parentTable childTable : String) : Relationship where
  parentTable := parentTable
  parentColumns := ["id"]
  childTable := childTable
  childColumns := ["id"]
  namespaceName := some "ids"
  nonempty := id_nonempty
  aligned := id_aligned

/-- Two tables in a cycle, and a third that references one of them. -/
def relationships : List Relationship :=
  [reference "a" "b", reference "b" "a", reference "c" "a"]

def policies (key : NodeKey ×ₗ NodeKey) : Option OrphanPolicy :=
  if (ofLex key).1 = toLex ("c", ["id"]) then some .fail else some .remap

end HiddenCycle

/-- A cycle whose child has two policies is raised as their conflict. -/
theorem cycle_hidden_by_conflict :
    ReferenceCycle HiddenCycle.relationships ∧
      buildRelationshipGraph (namespaceOf ⟨[]⟩) HiddenCycle.policies HiddenCycle.relationships =
        .error (.orphanPolicyConflict "a" ["id"] ["fail", "remap"]) := by
  have there : References HiddenCycle.relationships (toLex ("a", ["id"])) (toLex ("b", ["id"])) :=
    ⟨HiddenCycle.reference "a" "b", by decide, rfl, rfl⟩
  have back : References HiddenCycle.relationships (toLex ("b", ["id"])) (toLex ("a", ["id"])) :=
    ⟨HiddenCycle.reference "b" "a", by decide, rfl, rfl⟩
  exact ⟨⟨_, .tail (.single there) back⟩, by decide⟩

end DecoyEngine.Relationships
