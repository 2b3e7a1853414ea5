import DecoyEngine.Execution.WorkOrder
import DecoyEngine.Relationships.Kahn

namespace DecoyEngine.Execution

open DecoyEngine.Data DecoyEngine.Data.GreedyOrder DecoyEngine.Relationships

/-! The order `order_work` gives. -/

theorem find_byKey (work : List WorkNode) (key : NodeKey) :
    (byKey work).find key = work.reverse.find? (fun node => node.key = key) := by
  rw [byKey, Dict.find_sets, Dict.find_empty, Option.or_none, ← List.map_reverse, List.find?_map,
    Option.map_map]
  exact Option.map_id'

theorem mem_keys_byKey {work : List WorkNode} {key : NodeKey} :
    key ∈ (byKey work).keys ↔ ∃ node ∈ work, node.key = key := by
  rw [← not_iff_not, ← Dict.find_eq_none, find_byKey, List.find?_eq_none]
  simp

theorem key_of_find_byKey {work : List WorkNode} {key : NodeKey} {node : WorkNode}
    (found : (byKey work).find key = some node) : node.key = key ∧ node ∈ work := by
  rw [find_byKey] at found
  have same := List.find?_some found
  exact ⟨of_decide_eq_true same, List.mem_reverse.mp (List.mem_of_find?_eq_some found)⟩

/-- The dependents of a node, once for each edge. -/
def dependents (deps : List Dependency) (driver : NodeKey) : List NodeKey :=
  (deps.filter fun dependency => dependency.driver = driver).map Dependency.dependent

variable {driver dependent : NodeKey}

theorem mem_dependents {deps : List Dependency} :
    dependent ∈ dependents deps driver ↔ ⟨dependent, driver⟩ ∈ deps := by
  rw [dependents, List.mem_map]
  constructor
  · rintro ⟨dependency, member, rfl⟩
    obtain ⟨member, same⟩ := List.mem_filter.mp member
    rw [← of_decide_eq_true same]
    exact member
  · intro member
    exact ⟨_, List.mem_filter.mpr ⟨member, decide_eq_true rfl⟩, rfl⟩

variable (columnRefs : String → Option (List String))

/-- The dependency edges, from what is waited on to what waits. -/
def Waits (work : List WorkNode) (graph : RelationshipGraph) (driver dependent : NodeKey) : Prop :=
  ⟨dependent, driver⟩ ∈ workDependencies columnRefs work graph none

def DependencyCycle (work : List WorkNode) (graph : RelationshipGraph) : Prop :=
  ∃ key, Relation.TransGen (Waits columnRefs work graph) key key

variable {columnRefs} {work : List WorkNode} {graph : RelationshipGraph}

variable {keys : List NodeKey}

theorem mem_fkDependencies {edge : RelationshipEdge} {dependency : Dependency} :
    dependency ∈ fkDependencies keys edge ↔
      (edge.child ∈ keys ∧ dependency.dependent = edge.child ∧ dependency.driver ∈ keys ∧
        (dependency.driver = edge.parent ∨ (edge.parent ∉ keys ∧
          ∃ column ∈ edge.parentColumns,
            dependency.driver = workOrderKey edge.parentTable [column]))) := by
  obtain ⟨dependent, driver⟩ := dependency
  rw [fkDependencies]
  by_cases child : edge.child ∈ keys
  · by_cases parent : edge.parent ∈ keys
    · simp only [child, parent, not_true_eq_false, if_false, if_true, List.mem_singleton,
        Dependency.mk.injEq, true_and, false_and, or_false]
      exact ⟨fun same => ⟨same.1, same.2 ▸ parent, same.2⟩, fun linked => ⟨linked.1, linked.2.2⟩⟩
    · simp only [child, parent, not_true_eq_false, if_false, List.mem_map, List.mem_filter,
        Dependency.mk.injEq, true_and, decide_eq_true_eq, not_false_eq_true]
      constructor
      · rintro ⟨_, ⟨⟨column, member, rfl⟩, node⟩, rfl, rfl⟩
        exact ⟨rfl, node, .inr ⟨column, member, rfl⟩⟩
      · rintro ⟨rfl, node, same | ⟨column, member, rfl⟩⟩
        · exact absurd (same ▸ node) parent
        · exact ⟨_, ⟨⟨column, member, rfl⟩, node⟩, rfl, rfl⟩
  · simp [child]

theorem mem_bundleDependencies {node : WorkNode} {dependency : Dependency} :
    dependency ∈ bundleDependencies keys graph node ↔
      (node.kind = .composite ∧ dependency.driver = node.key ∧
        ∃ edge ∈ graph.edges, edge.parentTable = node.table ∧
          edge.parentColumns ⊆ node.columns ∧ edge.child ∈ keys ∧
          dependency.dependent = edge.child) := by
  obtain ⟨dependent, driver⟩ := dependency
  rw [bundleDependencies]
  by_cases composite : node.kind = .composite
  · simp only [composite, ne_eq, not_true_eq_false, if_false, List.mem_map, List.mem_filter,
      decide_eq_true_eq, Dependency.mk.injEq, true_and]
    constructor
    · rintro ⟨edge, ⟨member, table, columns, child⟩, rfl, rfl⟩
      exact ⟨rfl, edge, member, table, columns, child, rfl⟩
    · rintro ⟨rfl, edge, member, table, columns, child, rfl⟩
      exact ⟨edge, ⟨member, table, columns, child⟩, rfl, rfl⟩
  · simp [composite]

theorem Waits.nodes (waits : Waits columnRefs work graph driver dependent) :
    driver ∈ (byKey work).keys ∧ dependent ∈ (byKey work).keys := by
  rw [Waits, workDependencies, List.mem_append, List.mem_append] at waits
  rcases waits with (fk | bundle) | column
  · obtain ⟨edge, _, member⟩ := List.mem_flatMap.mp fk
    obtain ⟨child, same, driverIn, _⟩ := mem_fkDependencies.mp member
    rw [← same] at child
    exact ⟨driverIn, child⟩
  · obtain ⟨node, nodeIn, member⟩ := List.mem_flatMap.mp bundle
    obtain ⟨_, driver, edge, _, _, _, child, dependent⟩ := mem_bundleDependencies.mp member
    rw [← dependent] at child
    exact ⟨mem_keys_byKey.mpr ⟨node, nodeIn, driver.symm⟩, child⟩
  · obtain ⟨_, both⟩ := List.mem_filter.mp column
    have both := of_decide_eq_true both
    exact ⟨both.2, both.1⟩

variable (columnRefs work graph) in
/-- The edges the sort counts. -/
def sortedDependencies : List Dependency :=
  ((workDependencies columnRefs work graph none).filter fun dependency =>
    dependency.dependent ∈ (byKey work).keys ∧ dependency.driver ∈ (byKey work).keys).dedup

theorem mem_sortedDependencies :
    ⟨dependent, driver⟩ ∈ sortedDependencies columnRefs work graph ↔
      Waits columnRefs work graph driver dependent := by
  rw [sortedDependencies, List.mem_dedup, List.mem_filter, decide_eq_true_eq]
  exact ⟨fun member => member.1, fun waits => ⟨waits, waits.nodes.2, waits.nodes.1⟩⟩

theorem leads_iff_waits :
    Leads (byKey work).keys (dependents (sortedDependencies columnRefs work graph)) driver
      dependent ↔ Waits columnRefs work graph driver dependent := by
  constructor
  · intro leads
    exact mem_sortedDependencies.mp (mem_dependents.mp leads.edge)
  · intro waits
    exact ⟨waits.nodes.1, waits.nodes.2, mem_dependents.mpr (mem_sortedDependencies.mpr waits)⟩

theorem cyclic_iff :
    Cyclic (byKey work).keys (dependents (sortedDependencies columnRefs work graph)) ↔
      DependencyCycle columnRefs work graph := by
  have same : Leads (byKey work).keys (dependents (sortedDependencies columnRefs work graph)) =
      Waits columnRefs work graph := by
    funext driver dependent
    exact propext leads_iff_waits
  rw [Cyclic, same, DependencyCycle]

theorem orderWork_cases :
    (DependencyCycle columnRefs work graph ∧
      ∃ unplaced, orderWork columnRefs work graph none = .error (.cyclicWorkOrdering unplaced)) ∨
    (¬ DependencyCycle columnRefs work graph ∧
      ∃ keys : List NodeKey, keys.Perm (byKey work).keys ∧
        Greedy (byKey work).keys (dependents (sortedDependencies columnRefs work graph)) keys ∧
        orderWork columnRefs work graph none = .ok (keys.filterMap (byKey work).find)) := by
  have within : ∀ node ∈ (byKey work).keys,
      ∀ child ∈ dependents (sortedDependencies columnRefs work graph) node,
        child ∈ (byKey work).keys := by
    intro node _ child member
    exact (mem_sortedDependencies.mp (mem_dependents.mp member)).nodes.2
  have drivers : ∀ dependency ∈ sortedDependencies columnRefs work graph,
      dependency.driver ∈ (byKey work).keys := by
    intro dependency member
    exact (mem_sortedDependencies.mp member).nodes.1
  have distinct : (byKey work).keys.Nodup := (byKey work).distinct
  obtain ⟨greedy, short, full⟩ := kahnLoop_cases distinct within
    (countP_eq_blocked distinct drivers)
  rw [cyclic_iff] at short
  by_cases empty : (byKey work).keys = []
  · right
    have result : orderWork columnRefs work graph none = .ok [] := by
      rw [orderWork, kahnSorted]
      exact if_pos empty
    refine ⟨?_, [], by rw [empty], Greedy.nil, result⟩
    rintro ⟨key, cycle⟩
    obtain ⟨_, waits, _⟩ := Relation.TransGen.head'_iff.mp cycle
    have member := waits.nodes.1
    rw [empty] at member
    cases member
  · rw [orderWork, kahnSorted]
    by_cases cyclic : DependencyCycle columnRefs work graph
    · left
      refine ⟨cyclic, ?_⟩
      have less := lt_of_le_of_ne (greedy.nodup.subperm greedy.subset).length_le
        (short.mpr cyclic)
      exact ⟨_, (if_neg empty).trans (if_pos less)⟩
    · right
      have equal := not_not.mp (mt short.mp cyclic)
      exact ⟨cyclic, _, full equal, greedy,
        (if_neg empty).trans (if_neg (Nat.not_lt.mpr (Nat.le_of_eq equal.symm)))⟩

/-- The node writes a parent column of the foreign key. -/
def Writes (writer : WorkNode) (edge : RelationshipEdge) : Prop :=
  writer.table = edge.parentTable ∧
    ∃ column ∈ edge.parentColumns, column ∈ writerOutputColumns writer

instance (writer : WorkNode) (edge : RelationshipEdge) : Decidable (Writes writer edge) :=
  inferInstanceAs (Decidable (_ ∧ ∃ column ∈ _, _))

/-- The node reads a column that `writer`, another node, writes. -/
def Reads (columnRefs : String → Option (List String)) (reader writer : WorkNode) : Prop :=
  writer.key ≠ reader.key ∧ writer.table = reader.table ∧
    ∃ column ∈ maskedDriverColumns columnRefs reader, column ∈ writerOutputColumns writer

/-- What an order of the work owes to its dependencies: the same nodes, each once, every linked
writer before its child, every driver before its readers, and the smallest node first among those
that are ready. -/
structure WorkOrdered (columnRefs : String → Option (List String)) (work : List WorkNode)
    (graph : RelationshipGraph) (ordered : List WorkNode) : Prop where
  once : (ordered.map WorkNode.key).Nodup
  listed : ∀ node ∈ ordered, node ∈ work
  complete : ∀ node ∈ work, node.key ∈ ordered.map WorkNode.key
  writersFirst : ∀ before child after, ordered = before ++ child :: after →
    ∀ edge ∈ graph.edges, child.key = edge.child →
      ∀ writer ∈ work, Writes writer edge → writer.key ∈ before.map WorkNode.key
  driversFirst : ∀ before node after, ordered = before ++ node :: after →
    ∀ reader ∈ work, reader.key = node.key →
      ∀ writer ∈ work, Reads columnRefs reader writer → writer.key ∈ before.map WorkNode.key
  smallest : ∀ before node after, ordered = before ++ node :: after →
    ∀ other ∈ work, other.key ∉ before.map WorkNode.key →
      (∀ driver, Waits columnRefs work graph driver other.key →
        driver ∈ before.map WorkNode.key) →
      node.key ≤ other.key

/-- The writers the edge construction knows: the parent tuple's own node, a node of a single
parent column when the tuple has none, a composite bundle over all the parent columns. -/
def Linked (work : List WorkNode) (edge : RelationshipEdge) (writer : WorkNode) : Prop :=
  writer.key = edge.parent ∨
    ((∀ node ∈ work, node.key ≠ edge.parent) ∧
      ∃ column ∈ edge.parentColumns, writer.key = workOrderKey edge.parentTable [column]) ∨
    (writer.kind = .composite ∧ edge.parentColumns ⊆ writer.columns)

instance (work : List WorkNode) (edge : RelationshipEdge) (writer : WorkNode) :
    Decidable (Linked work edge writer) :=
  inferInstanceAs (Decidable (_ ∨ ((∀ node ∈ work, _) ∧ ∃ column ∈ _, _) ∨
    (_ ∧ edge.parentColumns ⊆ writer.columns)))

/-- Every writer of a parent column is linked, or its child waits on it through other nodes. -/
def WritersLinked (columnRefs : String → Option (List String)) (work : List WorkNode)
    (graph : RelationshipGraph) : Prop :=
  ∀ edge ∈ graph.edges, (∃ child ∈ work, child.key = edge.child) →
    ∀ writer ∈ work, Writes writer edge →
      Linked work edge writer ∨
        Relation.TransGen (Waits columnRefs work graph) writer.key edge.child

theorem waits_of_linked {edge : RelationshipEdge} (member : edge ∈ graph.edges)
    (child : ∃ child ∈ work, child.key = edge.child) {writer : WorkNode} (writerIn : writer ∈ work)
    (writes : Writes writer edge) (linked : Linked work edge writer) :
    Waits columnRefs work graph writer.key edge.child := by
  have node : writer.key ∈ (byKey work).keys := mem_keys_byKey.mpr ⟨writer, writerIn, rfl⟩
  have childNode : edge.child ∈ (byKey work).keys := mem_keys_byKey.mpr child
  rw [Waits, workDependencies, List.mem_append, List.mem_append]
  left
  rcases linked with own | ⟨absent, single⟩ | ⟨composite, covered⟩
  · left
    exact List.mem_flatMap.mpr ⟨edge, member,
      mem_fkDependencies.mpr ⟨childNode, rfl, node, .inl own⟩⟩
  · left
    have missing : edge.parent ∉ (byKey work).keys := by
      intro present
      obtain ⟨other, otherIn, same⟩ := mem_keys_byKey.mp present
      exact absent other otherIn same
    exact List.mem_flatMap.mpr ⟨edge, member,
      mem_fkDependencies.mpr ⟨childNode, rfl, node, .inr ⟨missing, single⟩⟩⟩
  · right
    exact List.mem_flatMap.mpr ⟨writer, writerIn, mem_bundleDependencies.mpr
      ⟨composite, rfl, edge, member, writes.1.symm, covered, childNode, rfl⟩⟩

theorem waits_of_reads {reader writer : WorkNode} (readerIn : reader ∈ work)
    (writerIn : writer ∈ work) (reads : Reads columnRefs reader writer) :
    Waits columnRefs work graph writer.key reader.key := by
  obtain ⟨different, table, column, driver, written⟩ := reads
  rw [Waits, workDependencies, List.mem_append]
  right
  rw [List.mem_filter, decide_eq_true_eq]
  refine ⟨?_, mem_keys_byKey.mpr ⟨reader, readerIn, rfl⟩, mem_keys_byKey.mpr ⟨writer, writerIn, rfl⟩⟩
  rw [Option.getD_none, columnDependencyEdges, List.mem_flatMap]
  refine ⟨reader, readerIn, List.mem_flatMap.mpr ⟨column, driver, List.mem_map.mpr
    ⟨writer.key, List.mem_filter.mpr ⟨?_, decide_eq_true different⟩, rfl⟩⟩⟩
  rw [writerNodeMap, List.mem_map]
  exact ⟨writer, List.mem_filter.mpr ⟨writerIn, decide_eq_true ⟨table, written⟩⟩, rfl⟩

theorem map_key_filterMap_find (known : ∀ key ∈ keys, key ∈ (byKey work).keys) :
    (keys.filterMap (byKey work).find).map WorkNode.key = keys := by
  induction keys with
  | nil => rfl
  | cons key rest ih =>
      cases found : (byKey work).find key with
      | none => exact absurd (known key List.mem_cons_self) (Dict.find_eq_none.mp found)
      | some node =>
          rw [List.filterMap_cons_some found, List.map_cons, (key_of_find_byKey found).1,
            ih fun other member => known other (List.mem_cons_of_mem _ member)]

theorem driver_before {before after : List NodeKey}
    (greedy : Greedy (byKey work).keys (dependents (sortedDependencies columnRefs work graph)) keys)
    (split : keys = before ++ dependent :: after)
    (path : Relation.TransGen (Waits columnRefs work graph) driver dependent) :
    driver ∈ before := by
  induction path generalizing before after with
  | single waits => exact greedy.source_before split (leads_iff_waits.mpr waits)
  | tail _ waits ih =>
      have between := greedy.source_before split (leads_iff_waits.mpr waits)
      obtain ⟨earlier, later, inner⟩ := List.append_of_mem between
      have first : driver ∈ earlier := by
        apply ih
        rw [split, inner, List.append_assoc, List.cons_append]
      rw [inner]
      exact List.mem_append_left _ first

theorem workOrdered_of_greedy (linked : WritersLinked columnRefs work graph)
    (perm : keys.Perm (byKey work).keys)
    (greedy : Greedy (byKey work).keys (dependents
    (sortedDependencies columnRefs work graph)) keys) :
    WorkOrdered columnRefs work graph (keys.filterMap (byKey work).find) := by
  have keysOf := map_key_filterMap_find fun key member => perm.mem_iff.mp member
  have splitKeys : ∀ before node after,
      keys.filterMap (byKey work).find = before ++ node :: after →
        keys = before.map WorkNode.key ++ WorkNode.key node :: after.map WorkNode.key := by
    intro before node after split
    rw [← keysOf, split, List.map_append, List.map_cons]
  refine ⟨?_, ?_, ?_, ?_, ?_, ?_⟩
  · rw [keysOf]
    exact greedy.nodup
  · intro node member
    obtain ⟨key, _, found⟩ := List.mem_filterMap.mp member
    exact (key_of_find_byKey found).2
  · intro node member
    rw [keysOf, perm.mem_iff]
    exact mem_keys_byKey.mpr ⟨node, member, rfl⟩
  · intro before child after split edge edgeIn isChild writer writerIn writes
    have childIn : ∃ child ∈ work, child.key = edge.child := by
      have member : child ∈ keys.filterMap (byKey work).find := by
        rw [split]
        exact List.mem_append_right _ List.mem_cons_self
      obtain ⟨key, _, found⟩ := List.mem_filterMap.mp member
      exact ⟨child, (key_of_find_byKey found).2, isChild⟩
    apply driver_before greedy (splitKeys before child after split)
    rw [isChild]
    rcases linked edge edgeIn childIn writer writerIn writes with direct | path
    · exact .single (waits_of_linked edgeIn childIn writerIn writes direct)
    · exact path
  · intro before node after split reader readerIn same writer writerIn reads
    apply driver_before greedy (splitKeys before node after split)
    rw [← same]
    exact .single (waits_of_reads readerIn writerIn reads)
  · intro before node after split other otherIn unplaced placed
    apply (greedy _ _ _ (splitKeys before node after split)).2
    refine ⟨mem_keys_byKey.mpr ⟨other, otherIn, rfl⟩, unplaced, blocked_eq_zero.mpr ?_⟩
    intro driver _ edge
    exact placed driver (mem_sortedDependencies.mp (mem_dependents.mp edge))

/-- The work order is total, unless the dependencies are cyclic: every node of the plan is in it
once, and every writer that a child is linked to is placed before the child. -/
theorem work_order_respects_dependencies (columnRefs : String → Option (List String))
    (work : List WorkNode) (graph : RelationshipGraph)
    (linked : DependencyCycle columnRefs work graph ∨ WritersLinked columnRefs work graph) :
    ((∃ unplaced, orderWork columnRefs work graph none = .error (.cyclicWorkOrdering unplaced)) ↔
      DependencyCycle columnRefs work graph) ∧
    ∀ ordered, orderWork columnRefs work graph none = .ok ordered →
      WorkOrdered columnRefs work graph ordered := by
  rcases orderWork_cases with ⟨cyclic, unplaced, raised⟩ | ⟨acyclic, keys, perm, greedy, result⟩
  · refine ⟨⟨fun _ => cyclic, fun _ => ⟨unplaced, raised⟩⟩, ?_⟩
    intro ordered returned
    rw [raised] at returned
    cases returned
  · refine ⟨⟨?_, fun cyclic => absurd cyclic acyclic⟩, ?_⟩
    · rintro ⟨unplaced, raised⟩
      rw [result] at raised
      cases raised
    · intro ordered returned
      rw [result] at returned
      cases returned
      exact workOrdered_of_greedy (linked.resolve_left acyclic) perm greedy

/-! Sites keyed by region and code, plots keyed by site, and trees that reference a plot. -/

def redactedColumn : ColumnSeed :=
  { strategy := .other "redact", provider := none, coherentWith := [], columns := []
    expression := "", groupBy := "" }

def fkEdge (parentTable : String) (parentColumns : List String) (childTable : String)
    (childColumns : List String) : RelationshipEdge :=
  { parentTable, parentColumns, childTable, childColumns
    namespaceName := "site", orphanPolicy := .fail }

def siteWork (oakColumns : List String) : List WorkNode :=
  buildWorkList (fun _ => false)
    [("site", ⟨[("region", redactedColumn), ("code", redactedColumn)], []⟩),
     ("plot", ⟨[], [("code__region", ⟨["region", "code"]⟩)]⟩),
     ("oak", ⟨[], [("plot_code__plot_region", ⟨oakColumns⟩)]⟩)]

def siteGraph (plotColumns oakColumns : List String) : RelationshipGraph :=
  { edges := [fkEdge "plot" plotColumns "oak" oakColumns,
      fkEdge "site" ["region", "code"] "plot" ["region", "code"]]
    ordering := [] }

theorem work_order_respects_dependencies_sites :
    WorkOrdered (fun _ => none) (siteWork ["plot_region", "plot_code"])
      (siteGraph ["region", "code"] ["plot_region", "plot_code"])
      [scalarNode "site" "code" redactedColumn, scalarNode "site" "region" redactedColumn,
        groupNode "plot" ⟨["region", "code"]⟩, groupNode "oak" ⟨["plot_region", "plot_code"]⟩] := by
  have linked : ∀ edge ∈ (siteGraph ["region", "code"] ["plot_region", "plot_code"]).edges,
      ∀ writer ∈ siteWork ["plot_region", "plot_code"], Writes writer edge →
        Linked (siteWork ["plot_region", "plot_code"]) edge writer := by
    decide
  apply (work_order_respects_dependencies (fun _ => none) _ _ (.inr ?_)).2 _ rfl
  intro edge edgeIn _ writer writerIn writes
  exact .inl (linked edge edgeIn writer writerIn writes)

/-- A plot is keyed by region and code; a reference that names its columns the other way round
finds no node to wait on, and resolves before the plots are masked. -/
theorem reordered_reference_is_not_waited_on :
    let ordered := [groupNode "oak" ⟨["plot_code", "plot_region"]⟩,
      scalarNode "site" "code" redactedColumn, scalarNode "site" "region" redactedColumn,
      groupNode "plot" ⟨["region", "code"]⟩]
    orderWork (fun _ => none) (siteWork ["plot_code", "plot_region"])
        (siteGraph ["code", "region"] ["plot_code", "plot_region"]) none = .ok ordered ∧
      ¬ WorkOrdered (fun _ => none) (siteWork ["plot_code", "plot_region"])
        (siteGraph ["code", "region"] ["plot_code", "plot_region"]) ordered := by
  intro ordered
  refine ⟨rfl, fun respected => ?_⟩
  have plotFirst := respected.writersFirst [] _ _ rfl
    (fkEdge "plot" ["code", "region"] "oak" ["plot_code", "plot_region"]) List.mem_cons_self rfl
    (groupNode "plot" ⟨["region", "code"]⟩) (by decide) (by decide)
  cases plotFirst

end DecoyEngine.Execution
