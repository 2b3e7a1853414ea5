import DecoyEngine.Data.FirstHit
import DecoyEngine.Data.GreedyOrder
import DecoyEngine.Relationships.Graph

namespace DecoyEngine.Execution

open DecoyEngine.Data DecoyEngine.Data.GreedyOrder DecoyEngine.Relationships

/-! The table order of the sequential route (`execution/_sequential_order.py`). -/

inductive TableOrderError where
  | relationshipCycle
deriving DecidableEq

def TableOrderError.code : TableOrderError → String
  | .relationshipCycle => "relationship_cycle"

def TableOrderError.message : TableOrderError → String
  | .relationshipCycle =>
      "FK relationship graph has a cycle across tables; cannot order " ++
      "tables for sequential masking."

/-- The tables of the plan, then those that only an edge names, each where it is first seen. -/
def orderSeed (perTable : List String) (edges : List RelationshipEdge) : List String :=
  (perTable ++ edges.flatMap fun edge => [edge.parentTable, edge.childTable]).eraseDups

structure TableGraph where
  children : String → List String
  indegree : String → Nat

def TableGraph.empty : TableGraph := ⟨fun _ => [], fun _ => 0⟩

def TableGraph.add (graph : TableGraph) (edge : RelationshipEdge) : TableGraph :=
  -- a self-FK masks within one table
  if edge.parentTable = edge.childTable then graph
  else if edge.childTable ∈ graph.children edge.parentTable then graph
  else
    { children := fun table =>
        if edge.parentTable = table then graph.children table ++ [edge.childTable]
        else graph.children table
      indegree := fun table =>
        if edge.childTable = table then graph.indegree table + 1 else graph.indegree table }

def tableGraph (edges : List RelationshipEdge) : TableGraph :=
  edges.foldl TableGraph.add TableGraph.empty

/-- `sorted(tables, key=position.__getitem__)` -/
def byPosition (seed tables : List String) : List String :=
  tables.insertionSort fun left right => seed.idxOf left ≤ seed.idxOf right

structure TopoState where
  ready : List String
  indegree : String → Nat
  result : List String

def TopoState.release (state : TopoState) (child : String) : TopoState :=
  let indegree := fun table =>
    if table = child then state.indegree table - 1 else state.indegree table
  { state with
    indegree
    ready := if indegree child = 0 then state.ready ++ [child] else state.ready }

/-- One pass of `while ready` per unit of fuel; a pass orders one table. -/
def topoLoop (seed : List String) (children : String → List String) : Nat → TopoState → TopoState
  | 0, state => state
  | fuel + 1, state =>
      match byPosition seed state.ready with
      | [] => state
      | current :: ready =>
          let popped := { state with ready, result := state.result ++ [current] }
          topoLoop seed children fuel
            ((byPosition seed (children current)).foldl TopoState.release popped)

def tableTopoOrder (perTable : List String) (edges : List RelationshipEdge) :
    Except TableOrderError (List String) :=
  let seed := orderSeed perTable edges
  let graph := tableGraph edges
  let ready := seed.filter fun table => graph.indegree table = 0
  let final := topoLoop seed graph.children seed.length ⟨ready, graph.indegree, []⟩
  if final.result.length ≠ seed.length then .error .relationshipCycle else .ok final.result

section Specification

variable (perTable : List String) (edges : List RelationshipEdge)

/-- An edge between two tables. -/
def TableEdge (parent child : String) : Prop :=
  parent ≠ child ∧ ∃ edge ∈ edges, edge.parentTable = parent ∧ edge.childTable = child

def TableCycle : Prop := ∃ table, Relation.TransGen (TableEdge edges) table table

/-- A table can follow `placed`: all its parents are there and it is not. -/
structure TableReady (placed : List String) (table : String) : Prop where
  known : table ∈ orderSeed perTable edges
  unplaced : table ∉ placed
  parents : ∀ parent, TableEdge edges parent table → parent ∈ placed

/-- An order of the tables with every parent before its children, which takes at each place the
earliest table of the plan that is ready. -/
structure TableOrder (ordered : List String) : Prop where
  nodup : ordered.Nodup
  tables : ∀ table, table ∈ ordered ↔
    table ∈ perTable ∨ ∃ edge ∈ edges, table = edge.parentTable ∨ table = edge.childTable
  parents_first : ∀ parent child, TableEdge edges parent child →
    ordered.idxOf parent < ordered.idxOf child
  earliest : ∀ placed table rest, ordered = placed ++ table :: rest →
    TableReady perTable edges placed table ∧ ∀ other, TableReady perTable edges placed other →
      (orderSeed perTable edges).idxOf table ≤ (orderSeed perTable edges).idxOf other

end Specification

theorem orderSeed_nodup (perTable : List String) (edges : List RelationshipEdge) :
    (orderSeed perTable edges).Nodup := nodup_eraseDups _

theorem mem_orderSeed {perTable : List String} {edges : List RelationshipEdge} {table : String} :
    table ∈ orderSeed perTable edges ↔
      table ∈ perTable ∨ ∃ edge ∈ edges, table = edge.parentTable ∨ table = edge.childTable := by
  rw [orderSeed, List.mem_eraseDups, List.mem_append, List.mem_flatMap]
  apply or_congr_right
  apply exists_congr
  intro edge
  rw [List.mem_cons, List.mem_singleton]

/-- The children of a table are listed once, and a counter says how many lists hold the table. -/
structure GraphOf (seed : List String) (edges : List RelationshipEdge) (graph : TableGraph) :
    Prop where
  distinct : ∀ table, (graph.children table).Nodup
  members : ∀ parent child, child ∈ graph.children parent ↔ TableEdge edges parent child
  counted : ∀ table, graph.indegree table = blocked seed graph.children [] table

theorem tableEdge_append {edges : List RelationshipEdge} {edge : RelationshipEdge}
    {parent child : String} :
    TableEdge (edges ++ [edge]) parent child ↔ TableEdge edges parent child ∨
      (parent ≠ child ∧ edge.parentTable = parent ∧ edge.childTable = child) := by
  simp only [TableEdge, List.mem_append, List.mem_singleton, or_and_right, exists_or,
    exists_eq_left, and_or_left]

theorem GraphOf.add {seed : List String} (distinct : seed.Nodup) {edges : List RelationshipEdge}
    {graph : TableGraph} (graphOf : GraphOf seed edges graph) {edge : RelationshipEdge}
    (known : edge.parentTable ∈ seed) : GraphOf seed (edges ++ [edge]) (graph.add edge) := by
  rw [TableGraph.add]
  split
  · rename_i loop
    refine ⟨graphOf.distinct, fun parent child => ?_, graphOf.counted⟩
    rw [graphOf.members, tableEdge_append, or_iff_left]
    intro ⟨different, isParent, isChild⟩
    exact different (isParent.symm.trans (loop.trans isChild))
  · rename_i between
    split
    · rename_i old
      refine ⟨graphOf.distinct, fun parent child => ?_, graphOf.counted⟩
      rw [graphOf.members, tableEdge_append, or_iff_left_of_imp]
      intro ⟨_, isParent, isChild⟩
      exact (graphOf.members parent child).mp (isParent ▸ isChild ▸ old)
    · rename_i fresh
      refine ⟨fun table => ?_, fun parent child => ?_, fun table => ?_⟩
      · dsimp only
        split
        · rename_i here
          refine List.nodup_append.mpr ⟨graphOf.distinct table, List.nodup_singleton _, ?_⟩
          intro child childIn last lastIn same
          rw [List.mem_singleton.mp lastIn] at same
          exact fresh (here ▸ same ▸ childIn)
        · exact graphOf.distinct table
      · rw [tableEdge_append, ← graphOf.members]
        dsimp only
        split
        · rename_i here
          rw [List.mem_append, List.mem_singleton]
          apply or_congr_right
          constructor
          · intro isChild
            exact ⟨here ▸ isChild ▸ between, here, isChild.symm⟩
          · intro ⟨_, _, isChild⟩
            exact isChild.symm
        · rename_i elsewhere
          rw [or_iff_left]
          exact fun ⟨_, isParent, _⟩ => elsewhere isParent
      · have all : seed.filter (fun node => node ∉ ([] : List String)) = seed := by simp
        have counted := graphOf.counted table
        rw [blocked, all] at counted ⊢
        have counts : (seed.map fun node =>
            (if edge.parentTable = node then graph.children node ++ [edge.childTable]
              else graph.children node).count table) =
            seed.map fun node => (graph.children node).count table +
              (if edge.parentTable = node then (if edge.childTable = table then 1 else 0)
                else 0) := by
          apply List.map_congr_left
          intro node _
          by_cases here : edge.parentTable = node
          · simp [here, List.count_append, List.count_singleton]
          · simp [here]
        dsimp only
        rw [counts, List.sum_map_add, ← counted, sum_indicator distinct known]
        split <;> rfl

theorem graphOf_tableGraph {seed : List String} (distinct : seed.Nodup)
    {edges : List RelationshipEdge} (known : ∀ edge ∈ edges, edge.parentTable ∈ seed) :
    GraphOf seed edges (tableGraph edges) := by
  rw [tableGraph]
  induction edges using List.reverseRecOn with
  | nil =>
      refine ⟨fun _ => List.nodup_nil, fun parent child => ?_, fun table => ?_⟩
      · exact iff_of_false List.not_mem_nil fun ⟨_, edge, member, _⟩ => List.not_mem_nil member
      · symm
        exact blocked_eq_zero.mpr fun node _ edge => absurd edge List.not_mem_nil
  | append_singleton edges edge ih =>
      rw [List.foldl_append]
      refine (ih fun other member => known other (List.mem_append_left _ member)).add distinct ?_
      exact known edge (List.mem_append_right _ (List.mem_singleton_self edge))

section Loop

variable {seed : List String} {children : String → List String} {state : TopoState}

theorem perm_byPosition (seed tables : List String) : (byPosition seed tables).Perm tables :=
  List.perm_insertionSort _ _

theorem sorted_byPosition (seed tables : List String) :
    (byPosition seed tables).Pairwise fun left right => seed.idxOf left ≤ seed.idxOf right := by
  have : Std.Total fun left right : String => seed.idxOf left ≤ seed.idxOf right :=
    ⟨fun left right => Nat.le_total _ _⟩
  have : IsTrans String fun left right => seed.idxOf left ≤ seed.idxOf right :=
    ⟨fun _ _ _ => Nat.le_trans⟩
  exact List.pairwise_insertionSort _ _

theorem releaseAll (state : TopoState) {released : List String} (distinct : released.Nodup) :
    (released.foldl TopoState.release state).result = state.result ∧
      (∀ table, (released.foldl TopoState.release state).indegree table =
        state.indegree table - released.count table) ∧
      (released.foldl TopoState.release state).ready =
        state.ready ++ released.filter fun table => state.indegree table - 1 = 0 := by
  induction released generalizing state with
  | nil => exact ⟨rfl, fun _ => rfl, (List.append_nil _).symm⟩
  | cons child rest ih =>
      rw [List.nodup_cons] at distinct
      obtain ⟨result, indegree, ready⟩ := ih (state.release child) distinct.2
      refine ⟨result, fun table => ?_, ?_⟩
      · rw [List.foldl_cons, indegree, List.count_cons]
        by_cases same : table = child
        · subst same
          rw [List.count_eq_zero.mpr distinct.1]
          simp [TopoState.release]
        · simp [TopoState.release, same, Ne.symm same]
      · rw [List.foldl_cons, ready, List.filter_cons]
        have others : (rest.filter fun table => (state.release child).indegree table - 1 = 0) =
            rest.filter fun table => state.indegree table - 1 = 0 := by
          apply List.filter_congr
          intro table member
          have different : table ≠ child := fun same => distinct.1 (same ▸ member)
          simp [TopoState.release, different]
        rw [others]
        by_cases last : state.indegree child - 1 = 0
        · simp [TopoState.release, last]
        · simp [TopoState.release, last]

/-- The earlier table of the seed comes first. -/
abbrev planOrder (seed : List String) : LE String :=
  ⟨fun left right => seed.idxOf left ≤ seed.idxOf right⟩

def TopoInvariant (seed : List String) (children : String → List String) (state : TopoState) :
    Prop :=
  @Frontier String _ _ (planOrder seed) seed children state.result state.ready state.indegree

theorem TopoInvariant.pass (invariant : TopoInvariant seed children state) (distinct : seed.Nodup)
    (listed : ∀ table, (children table).Nodup)
    (within : ∀ table, ∀ child ∈ children table, child ∈ seed) {current : String}
    {ready : List String} (popped : byPosition seed state.ready = current :: ready) :
    TopoInvariant seed children ((byPosition seed (children current)).foldl TopoState.release
      { state with ready, result := state.result ++ [current] }) := by
  let _ := planOrder seed
  have frontier : Frontier seed children state.result state.ready state.indegree := invariant
  have perm : (current :: ready).Perm state.ready := popped ▸ perm_byPosition seed state.ready
  have sorted : (current :: ready).Pairwise fun left right => seed.idxOf left ≤ seed.idxOf right :=
    popped ▸ sorted_byPosition seed state.ready
  have readyNodup : (current :: ready).Nodup := perm.nodup_iff.mpr frontier.nodup
  have released := perm_byPosition seed (children current)
  have releasedNodup : (byPosition seed (children current)).Nodup :=
    released.nodup_iff.mpr (listed current)
  have member : current ∈ state.ready := perm.mem_iff.mp List.mem_cons_self
  have currentReady := (frontier.queued current).mp member
  obtain ⟨result, indegree, queue⟩ := releaseAll
    { state with ready, result := state.result ++ [current] } releasedNodup
  -- a child still counts the table that is being placed
  have waiting : ∀ child ∈ children current, 1 ≤ state.indegree child := by
    intro child isChild
    have counted : blocked seed children (state.result ++ [current]) child +
        (children current).count child = blocked seed children state.result child :=
      blocked_place distinct currentReady.node currentReady.unplaced child
    have positive : 0 < (children current).count child := List.count_pos_iff.mpr isChild
    rw [frontier.counted]
    omega
  have once : ∀ child ∈ children current, (children current).count child = 1 := fun child isChild =>
    List.count_eq_one_of_mem (listed current) isChild
  rw [TopoInvariant, result]
  refine frontier.place distinct (within current) member ?_ (fun table => ?_) ?_ fun table => ?_
  · intro other otherIn
    rcases List.mem_cons.mp (perm.mem_iff.mpr otherIn) with same | later
    · exact same ▸ Nat.le_refl _
    · exact (List.pairwise_cons.mp sorted).1 other later
  · rw [indegree, released.count_eq]
  · rw [queue]
    refine List.nodup_append.mpr ⟨(List.nodup_cons.mp readyNodup).2, releasedNodup.filter _, ?_⟩
    intro left leftIn right rightIn same
    have isChild := released.mem_iff.mp (List.mem_filter.mp rightIn).1
    have queued : left ∈ state.ready := perm.mem_iff.mp (List.mem_cons_of_mem _ leftIn)
    have zero := ((frontier.queued left).mp queued).released
    have counts := waiting right isChild
    rw [← same, frontier.counted, zero] at counts
    omega
  · rw [queue, List.mem_append, List.mem_filter, released.mem_iff, decide_eq_true_eq,
      ← perm.mem_iff, List.mem_cons]
    apply or_congr
    · constructor
      · intro later
        exact ⟨.inr later, fun same => (List.nodup_cons.mp readyNodup).1 (same ▸ later)⟩
      · intro ⟨either, different⟩
        exact either.resolve_left different
    · apply and_congr_right
      intro isChild
      have counts := waiting table isChild
      rw [once table isChild]
      dsimp only
      omega

theorem topoLoop_spec (distinct : seed.Nodup) (listed : ∀ table, (children table).Nodup)
    (within : ∀ table, ∀ child ∈ children table, child ∈ seed) (fuel : Nat)
    (invariant : TopoInvariant seed children state)
    (enough : seed.length ≤ fuel + state.result.length) :
    TopoInvariant seed children (topoLoop seed children fuel state) ∧
      (topoLoop seed children fuel state).ready = [] := by
  induction fuel generalizing state with
  | zero =>
      refine ⟨invariant, List.eq_nil_iff_forall_not_mem.mpr fun table queued => ?_⟩
      have room := @Frontier.room _ _ _ _ _ _ _ (planOrder seed) _ _ invariant queued
      omega
  | succ fuel ih =>
      rw [topoLoop]
      cases popped : byPosition seed state.ready with
      | nil =>
          refine ⟨invariant, ?_⟩
          have perm := perm_byPosition seed state.ready
          rw [popped] at perm
          exact perm.symm.eq_nil
      | cons current ready =>
          have next := invariant.pass distinct listed within popped
          refine ih next ?_
          have released : (byPosition seed (children current)).Nodup :=
            (perm_byPosition seed _).nodup_iff.mpr (listed current)
          rw [(releaseAll _ released).1, List.length_append, List.length_singleton]
          omega

end Loop

section Order

variable {perTable : List String} {edges : List RelationshipEdge}

theorem TableEdge.known {parent child : String} (edge : TableEdge edges parent child) :
    parent ∈ orderSeed perTable edges ∧ child ∈ orderSeed perTable edges := by
  obtain ⟨-, declared, member, isParent, isChild⟩ := edge
  exact ⟨mem_orderSeed.mpr (.inr ⟨declared, member, .inl isParent.symm⟩),
    mem_orderSeed.mpr (.inr ⟨declared, member, .inr isChild.symm⟩)⟩

variable {graph : TableGraph} (graphOf : GraphOf (orderSeed perTable edges) edges graph)
include graphOf

theorem leads_iff_tableEdge {parent child : String} :
    Leads (orderSeed perTable edges) graph.children parent child ↔
      TableEdge edges parent child := by
  rw [← graphOf.members]
  constructor
  · exact fun leads => leads.edge
  · intro member
    obtain ⟨parentKnown, childKnown⟩ := ((graphOf.members parent child).mp member).known
    exact ⟨parentKnown, childKnown, member⟩

theorem cyclic_iff_tableCycle :
    Cyclic (orderSeed perTable edges) graph.children ↔ TableCycle edges := by
  have same : Leads (orderSeed perTable edges) graph.children = TableEdge edges := by
    funext parent child
    exact propext (leads_iff_tableEdge graphOf)
  rw [Cyclic, same, TableCycle]

theorem ready_iff_tableReady {placed : List String} {table : String} :
    Ready (orderSeed perTable edges) graph.children placed table ↔
      TableReady perTable edges placed table := by
  constructor
  · intro ready
    refine ⟨ready.node, ready.unplaced, fun parent edge => ?_⟩
    have leads := (leads_iff_tableEdge graphOf).mpr edge
    exact blocked_eq_zero.mp ready.released parent leads.fromNode leads.edge
  · intro ready
    refine ⟨ready.known, ready.unplaced, blocked_eq_zero.mpr fun parent _ isChild => ?_⟩
    exact ready.parents parent ((graphOf.members parent table).mp isChild)

end Order

/-- The table order is refused as a cycle, or it has every parent table before its children and
otherwise keeps the order of the plan, ties included. -/
theorem table_topo_order_linearises (perTable : List String) (edges : List RelationshipEdge) :
    (TableCycle edges ∧ tableTopoOrder perTable edges = .error .relationshipCycle) ∨
      (¬ TableCycle edges ∧ ∃ ordered, tableTopoOrder perTable edges = .ok ordered ∧
        TableOrder perTable edges ordered) := by
  have distinct := orderSeed_nodup perTable edges
  have known : ∀ edge ∈ edges, edge.parentTable ∈ orderSeed perTable edges := fun edge member =>
    mem_orderSeed.mpr (.inr ⟨edge, member, .inl rfl⟩)
  have graphOf := graphOf_tableGraph distinct known
  have within : ∀ table, ∀ child ∈ (tableGraph edges).children table,
      child ∈ orderSeed perTable edges := fun table child member =>
    ((graphOf.members table child).mp member).known.2
  let _ := planOrder (orderSeed perTable edges)
  have start : TopoInvariant (orderSeed perTable edges) (tableGraph edges).children
      ⟨(orderSeed perTable edges).filter fun table => (tableGraph edges).indegree table = 0,
        (tableGraph edges).indegree, []⟩ := Frontier.start distinct graphOf.counted
  obtain ⟨invariant, emptied⟩ := topoLoop_spec distinct graphOf.distinct within
    (orderSeed perTable edges).length start (Nat.le_refl _)
  have frontier := invariant
  rw [TopoInvariant, emptied] at frontier
  obtain ⟨short, full⟩ := frontier.finished distinct
  rw [cyclic_iff_tableCycle graphOf] at short
  by_cases cyclic : TableCycle edges
  · exact .inl ⟨cyclic, if_pos (short.mpr cyclic)⟩
  · have complete := full (not_not.mp (mt short.mp cyclic))
    refine .inr ⟨cyclic, _, if_neg (mt short.mp cyclic), ?_, fun table => ?_, ?_, ?_⟩
    · exact frontier.greedy.nodup
    · rw [complete.mem_iff, mem_orderSeed]
    · intro parent child edge
      exact (frontier.greedy.topological complete).forward parent child
        ((leads_iff_tableEdge graphOf).mpr edge)
    · intro placed table rest split
      obtain ⟨ready, least⟩ := frontier.greedy placed table rest split
      refine ⟨(ready_iff_tableReady graphOf).mp ready, fun other otherReady => ?_⟩
      exact least other ((ready_iff_tableReady graphOf).mpr otherReady)

end DecoyEngine.Execution
