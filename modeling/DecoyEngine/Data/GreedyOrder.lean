import Mathlib.Algebra.BigOperators.Group.List.Basic
import Mathlib.Algebra.Ring.Nat
import Mathlib.Data.Fintype.EquivFin
import Mathlib.Data.List.Lex
import Mathlib.Order.WellFounded

namespace DecoyEngine.Data

/-! Greedy topological orders.

A graph is its list of nodes with the targets of each.  A greedy order places,
again and again, the least node that no unplaced node leads to. -/

namespace GreedyOrder

variable {κ : Type} [BEq κ] [LawfulBEq κ] (nodes : List κ) (outEdges : κ → List κ)

/-- The number of edges that still lead to `key` from nodes not placed. -/
def blocked (placed : List κ) (key : κ) : Nat :=
  ((nodes.filter (fun node => node ∉ placed)).map (fun node => (outEdges node).count key)).sum

structure Ready (placed : List κ) (key : κ) : Prop where
  node : key ∈ nodes
  unplaced : key ∉ placed
  released : blocked nodes outEdges placed key = 0

structure Leads (source target : κ) : Prop where
  fromNode : source ∈ nodes
  toNode : target ∈ nodes
  edge : target ∈ outEdges source

def Cyclic : Prop := ∃ node, Relation.TransGen (Leads nodes outEdges) node node

variable {nodes outEdges} {placed ordered : List κ} {key node : κ}

theorem blocked_eq_zero :
    blocked nodes outEdges placed key = 0 ↔
      ∀ node ∈ nodes, key ∈ outEdges node → node ∈ placed := by
  rw [blocked, List.sum_eq_zero_iff_forall_eq_nat, List.forall_mem_map]
  simp only [List.mem_filter, decide_eq_true_eq, and_imp, List.count_eq_zero]
  apply forall_congr'
  intro node
  apply imp_congr_right
  intro _
  exact ⟨fun absent edge => by_contra fun unplaced => absent unplaced edge,
    fun closed unplaced edge => unplaced (closed edge)⟩

theorem blocked_place (distinct : nodes.Nodup) (member : node ∈ nodes) (unplaced : node ∉ placed)
    (key : κ) :
    blocked nodes outEdges (placed ++ [node]) key + (outEdges node).count key =
      blocked nodes outEdges placed key := by
  induction nodes with
  | nil => cases member
  | cons first rest ih =>
      rw [List.nodup_cons] at distinct
      simp only [blocked] at ih ⊢
      by_cases here : first = node
      · subst here
        have others : rest.filter (fun other => other ∉ placed ++ [first]) =
            rest.filter (fun other => other ∉ placed) := by
          apply List.filter_congr
          intro other otherIn
          have different : other ≠ first := fun same => distinct.1 (same ▸ otherIn)
          simp [different]
        have placing : first ∈ placed ++ [first] := by simp
        rw [List.filter_cons_of_neg (by simp [placing]), List.filter_cons_of_pos (by simp [unplaced]),
          others, List.map_cons, List.sum_cons, Nat.add_comm]
      · have later : node ∈ rest := (List.mem_cons.mp member).resolve_left (Ne.symm here)
        have tail := ih distinct.2 later
        by_cases old : first ∈ placed
        · simpa [old] using tail
        · simp only [List.filter_cons, List.mem_append, List.mem_singleton, old, here, or_self,
            not_false_eq_true, decide_true, if_true, List.map_cons, List.sum_cons] at tail ⊢
          omega

/-- A stuck order with a node left over leaves a cycle: a least unplaced node would be ready. -/
theorem cyclic_of_stuck (stuck : ∀ key, ¬ Ready nodes outEdges ordered key)
    (member : key ∈ nodes) (unplaced : key ∉ ordered) : Cyclic nodes outEdges := by
  by_contra acyclic
  let before : {node // node ∈ nodes} → {node // node ∈ nodes} → Prop :=
    fun source target => Relation.TransGen (Leads nodes outEdges) source target
  have transitive : IsTrans _ before := ⟨fun _ _ _ first second => first.trans second⟩
  have irreflexive : Std.Irrefl before := ⟨fun node cycle => acyclic ⟨node, cycle⟩⟩
  classical
  have finite : Finite {node // node ∈ nodes} := inferInstance
  have founded : WellFounded before := Finite.wellFounded_of_trans_of_irrefl before
  obtain ⟨least, leastUnplaced, minimal⟩ :=
    founded.has_min {node | (node : κ) ∉ ordered} ⟨⟨key, member⟩, unplaced⟩
  apply stuck least
  refine ⟨least.2, leastUnplaced, blocked_eq_zero.mpr ?_⟩
  intro source sourceIn edge
  by_contra sourceUnplaced
  exact minimal ⟨source, sourceIn⟩ sourceUnplaced (.single ⟨sourceIn, least.2, edge⟩)

omit [BEq κ] [LawfulBEq κ] in
theorem sum_indicator [DecidableEq κ] (distinct : nodes.Nodup) (member : key ∈ nodes)
    (weight : Nat) : (nodes.map fun node => if key = node then weight else 0).sum = weight := by
  induction nodes with
  | nil => cases member
  | cons first rest ih =>
      rw [List.nodup_cons] at distinct
      rw [List.map_cons, List.sum_cons]
      by_cases here : key = first
      · have zero : (rest.map fun node => if key = node then weight else 0).sum = 0 := by
          rw [List.sum_eq_zero_iff_forall_eq_nat, List.forall_mem_map]
          intro node nodeIn
          apply if_neg
          intro same
          rw [← same, here] at nodeIn
          exact distinct.1 nodeIn
        rw [if_pos here, zero, Nat.add_zero]
      · rw [if_neg here, Nat.zero_add, ih distinct.2 ((List.mem_cons.mp member).resolve_left here)]

section Edges

variable {ε : Type} [DecidableEq κ] (source target : ε → κ)

/-- The targets of a node, once for each edge. -/
def targetsOf (edges : List ε) (node : κ) : List κ :=
  (edges.filter fun edge => source edge = node).map target

variable {source target}

omit [BEq κ] [LawfulBEq κ] in
theorem mem_targetsOf {edges : List ε} :
    key ∈ targetsOf source target edges node ↔
      ∃ edge ∈ edges, source edge = node ∧ target edge = key := by
  rw [targetsOf, List.mem_map]
  apply exists_congr
  intro edge
  rw [List.mem_filter, decide_eq_true_eq, and_assoc]

theorem countP_eq_blocked (distinct : nodes.Nodup) {edges : List ε}
    (sources : ∀ edge ∈ edges, source edge ∈ nodes) (key : κ) :
    (edges.countP fun edge => target edge = key) =
      blocked nodes (targetsOf source target edges) [] key := by
  have all : nodes.filter (fun node => node ∉ ([] : List κ)) = nodes := by simp
  rw [blocked, all]
  induction edges with
  | nil =>
      symm
      rw [List.countP_nil, List.sum_eq_zero_iff_forall_eq_nat, List.forall_mem_map]
      intro node _
      rfl
  | cons edge rest ih =>
      have split : (nodes.map fun node => (targetsOf source target (edge :: rest) node).count key) =
          nodes.map fun node => (if source edge = node then
            (if target edge = key then 1 else 0) else 0) +
              (targetsOf source target rest node).count key := by
        apply List.map_congr_left
        intro node _
        by_cases here : source edge = node
        · simp [targetsOf, here, List.count_cons, Nat.add_comm]
        · simp [targetsOf, here]
      rw [split, List.sum_map_add, sum_indicator distinct (sources _ List.mem_cons_self),
        ← ih fun other member => sources other (List.mem_cons_of_mem _ member), List.countP_cons]
      simp [Nat.add_comm]

end Edges

/-- An order of the nodes in which every edge leads forward. -/
structure Topological (nodes : List κ) (outEdges : κ → List κ) (ordered : List κ) : Prop where
  perm : ordered.Perm nodes
  forward : ∀ source target, Leads nodes outEdges source target →
    ordered.idxOf source < ordered.idxOf target

section Greedy

variable [LE κ]

/-- Every node stands where it is the least ready one. -/
def Greedy (nodes : List κ) (outEdges : κ → List κ) (ordered : List κ) : Prop :=
  ∀ before key after, ordered = before ++ key :: after →
    Ready nodes outEdges before key ∧
      ∀ other, Ready nodes outEdges before other → key ≤ other

namespace Greedy

theorem nil : Greedy nodes outEdges [] := by
  intro before key after split
  simp at split

theorem append (greedy : Greedy nodes outEdges ordered) (ready : Ready nodes outEdges ordered key)
    (least : ∀ other, Ready nodes outEdges ordered other → key ≤ other) :
    Greedy nodes outEdges (ordered ++ [key]) := by
  intro before next after split
  cases after using List.reverseRecOn with
  | nil =>
      obtain ⟨same, last⟩ := List.append_inj' split rfl
      cases last
      subst same
      exact ⟨ready, least⟩
  | append_singleton after last _ =>
      have assoc : ordered ++ [key] = (before ++ next :: after) ++ [last] := by
        rw [split, List.append_assoc, List.cons_append]
      exact greedy before next after (List.append_inj' assoc rfl).1

theorem subset (greedy : Greedy nodes outEdges ordered) : ∀ key ∈ ordered, key ∈ nodes := by
  intro key member
  obtain ⟨before, after, split⟩ := List.append_of_mem member
  exact (greedy before key after split).1.node

theorem nodup (greedy : Greedy nodes outEdges ordered) : ordered.Nodup := by
  induction ordered using List.reverseRecOn with
  | nil => exact List.nodup_nil
  | append_singleton ordered last ih =>
      have shorter : Greedy nodes outEdges ordered := by
        intro before key after split
        apply greedy before key (after ++ [last])
        rw [split, List.append_assoc, List.cons_append]
      have fresh := (greedy ordered last [] rfl).1.unplaced
      exact List.nodup_append.mpr ⟨ih shorter, List.nodup_singleton last, by
        intro key keyIn other otherIn same
        rw [List.mem_singleton.mp otherIn] at same
        exact fresh (same ▸ keyIn)⟩

theorem source_before (greedy : Greedy nodes outEdges ordered) {before after : List κ}
    (split : ordered = before ++ key :: after) (leads : Leads nodes outEdges node key) :
    node ∈ before :=
  blocked_eq_zero.mp (greedy before key after split).1.released node leads.fromNode leads.edge

theorem idxOf_lt (greedy : Greedy nodes outEdges ordered) (member : key ∈ ordered)
    (leads : Leads nodes outEdges node key) : ordered.idxOf node < ordered.idxOf key := by
  obtain ⟨before, after, split⟩ := List.append_of_mem member
  have earlier := greedy.source_before split leads
  have fresh : key ∉ before := (greedy before key after split).1.unplaced
  rw [split, List.idxOf_append_of_mem earlier, List.idxOf_append_of_notMem fresh,
    List.idxOf_cons_self]
  exact Nat.lt_of_lt_of_le (List.idxOf_lt_length_of_mem earlier) (Nat.le_add_right _ _)

theorem topological (greedy : Greedy nodes outEdges ordered) (perm : ordered.Perm nodes) :
    Topological nodes outEdges ordered :=
  ⟨perm, fun _ _ leads => greedy.idxOf_lt (perm.mem_iff.mpr leads.toNode) leads⟩

theorem ready_place (distinct : nodes.Nodup) (greedy : Greedy nodes outEdges placed)
    (ready : Ready nodes outEdges placed node)
    (within : ∀ child ∈ outEdges node, child ∈ nodes) (key : κ) :
    Ready nodes outEdges (placed ++ [node]) key ↔
      ((Ready nodes outEdges placed key ∧ key ≠ node) ∨
        (key ∈ outEdges node ∧ blocked nodes outEdges placed key = (outEdges node).count key)) := by
  have place : blocked nodes outEdges (placed ++ [node]) key + (outEdges node).count key =
      blocked nodes outEdges placed key := blocked_place distinct ready.node ready.unplaced key
  constructor
  · intro later
    have fresh := later.unplaced
    rw [List.mem_append, List.mem_singleton, not_or] at fresh
    have zero := later.released
    by_cases child : key ∈ outEdges node
    · exact .inr ⟨child, by omega⟩
    · have none : (outEdges node).count key = 0 := List.count_eq_zero.mpr child
      exact .inl ⟨⟨later.node, fresh.1, by omega⟩, fresh.2⟩
  · rintro (⟨earlier, different⟩ | ⟨child, last⟩)
    · have zero := earlier.released
      exact ⟨earlier.node, by simp [earlier.unplaced, different], by omega⟩
    · have leads : Leads nodes outEdges node key := ⟨ready.node, within key child, child⟩
      -- what `node` leads to cannot stand before it
      have unplaced : key ∉ placed := by
        intro earlier
        obtain ⟨before, after, split⟩ := List.append_of_mem earlier
        apply ready.unplaced
        rw [split]
        exact List.mem_append_left _ (greedy.source_before split leads)
      have different : key ≠ node := by
        intro same
        have zero := ready.released
        have positive : 0 < (outEdges node).count key := List.count_pos_iff.mpr child
        rw [← same] at zero
        omega
      exact ⟨leads.toNode, by simp [unplaced, different], by omega⟩

end Greedy

end Greedy

omit [LawfulBEq κ] in
theorem Topological.acyclic (topological : Topological nodes outEdges ordered) :
    ¬ Cyclic nodes outEdges := by
  intro ⟨node, cycle⟩
  have ascending : ∀ {source target}, Relation.TransGen (Leads nodes outEdges) source target →
      ordered.idxOf source < ordered.idxOf target := by
    intro source target path
    induction path with
    | single leads => exact topological.forward _ _ leads
    | tail _ leads ih => exact ih.trans (topological.forward _ _ leads)
  exact Nat.lt_irrefl _ (ascending cycle)

theorem Topological.ready_head (distinct : nodes.Nodup)
    (topological : Topological nodes outEdges (placed ++ key :: ordered)) :
    Ready nodes outEdges placed key := by
  have nodup : (placed ++ key :: ordered).Nodup := topological.perm.nodup_iff.mpr distinct
  have fresh : key ∉ placed := by
    intro earlier
    exact (List.nodup_append.mp nodup).2.2 key earlier key List.mem_cons_self rfl
  have member : key ∈ nodes :=
    topological.perm.mem_iff.mp (List.mem_append_right _ List.mem_cons_self)
  refine ⟨member, fresh, blocked_eq_zero.mpr fun node nodeIn edge => ?_⟩
  by_contra absent
  have forward := topological.forward node key ⟨nodeIn, member, edge⟩
  rw [List.idxOf_append_of_notMem fresh, List.idxOf_append_of_notMem absent,
    List.idxOf_cons_self] at forward
  omega

theorem Greedy.le_of_topological {κ : Type} [BEq κ] [LawfulBEq κ] [LinearOrder κ]
    {nodes ordered other : List κ} {outEdges : κ → List κ} (distinct : nodes.Nodup)
    (greedy : Greedy nodes outEdges ordered) (perm : ordered.Perm nodes)
    (topological : Topological nodes outEdges other) : ordered ≤ other := by
  have lengths := (perm.trans topological.perm.symm).length_eq
  suffices general : ∀ rest placed others : List κ, ordered = placed ++ rest →
      other = placed ++ others → rest ≤ others from general ordered [] other rfl rfl
  intro rest
  induction rest with
  | nil =>
      intro placed others split otherSplit
      rw [split, otherSplit, List.length_append, List.length_append] at lengths
      have none : others = [] := List.eq_nil_of_length_eq_zero (by simpa using lengths.symm)
      exact none ▸ le_refl _
  | cons key rest ih =>
      intro placed others split otherSplit
      obtain ⟨ready, least⟩ := greedy placed key rest split
      cases others with
      | nil =>
          rw [split, otherSplit] at lengths
          simp at lengths
      | cons first others =>
          have firstReady : Ready nodes outEdges placed first := by
            rw [otherSplit] at topological
            exact topological.ready_head distinct
          rcases (least first firstReady).lt_or_eq with less | same
          · exact le_of_lt (List.Lex.rel less)
          · subst same
            apply List.cons_le_cons
            apply ih (placed ++ [key]) others
            · rw [split, List.append_assoc, List.singleton_append]
            · rw [otherSplit, List.append_assoc, List.singleton_append]

/-! The loop keeps the placed nodes, the ready ones and a counter for each node. -/

/-- The state of such a loop at every pass: a greedy order so far, the number of open predecessors
of each node, and the ready nodes in the queue, each once. -/
structure Frontier [LE κ] (nodes : List κ) (outEdges : κ → List κ) (ordered queue : List κ)
    (indegree : κ → Nat) : Prop where
  greedy : Greedy nodes outEdges ordered
  counted : ∀ key, indegree key = blocked nodes outEdges ordered key
  nodup : queue.Nodup
  queued : ∀ key, key ∈ queue ↔ Ready nodes outEdges ordered key

namespace Frontier

variable [LE κ] {queue : List κ} {indegree : κ → Nat}

theorem start (distinct : nodes.Nodup) (counted : ∀ key, indegree key = blocked nodes outEdges [] key) :
    Frontier nodes outEdges [] (nodes.filter fun node => indegree node = 0) indegree := by
  refine ⟨Greedy.nil, counted, distinct.filter _, fun key => ?_⟩
  rw [List.mem_filter, decide_eq_true_eq, counted]
  exact ⟨fun queued => ⟨queued.1, List.not_mem_nil, queued.2⟩,
    fun ready => ⟨ready.node, ready.released⟩⟩

/-- Placing the least ready node: its edges are taken away, and what they held back is queued. -/
theorem place (frontier : Frontier nodes outEdges ordered queue indegree) (distinct : nodes.Nodup)
    (within : ∀ child ∈ outEdges node, child ∈ nodes) (member : node ∈ queue)
    (least : ∀ other ∈ queue, node ≤ other) {after : List κ} {left : κ → Nat}
    (taken : ∀ key, left key = indegree key - (outEdges node).count key) (nodup : after.Nodup)
    (released : ∀ key, key ∈ after ↔ ((key ∈ queue ∧ key ≠ node) ∨
      (key ∈ outEdges node ∧ indegree key = (outEdges node).count key))) :
    Frontier nodes outEdges (ordered ++ [node]) after left := by
  have ready := (frontier.queued node).mp member
  refine ⟨?_, fun key => ?_, nodup, fun key => ?_⟩
  · apply frontier.greedy.append ready
    intro other otherReady
    exact least other ((frontier.queued other).mpr otherReady)
  · have counted : blocked nodes outEdges (ordered ++ [node]) key + (outEdges node).count key =
        blocked nodes outEdges ordered key := blocked_place distinct ready.node ready.unplaced key
    rw [taken, frontier.counted, ← counted, Nat.add_sub_cancel]
  · rw [released, frontier.greedy.ready_place distinct ready within, frontier.queued,
      frontier.counted]

theorem room (frontier : Frontier nodes outEdges ordered queue indegree) (member : key ∈ queue) :
    ordered.length < nodes.length := by
  have ready := (frontier.queued key).mp member
  have fresh : (ordered ++ [key]).Nodup :=
    List.nodup_append.mpr ⟨frontier.greedy.nodup, List.nodup_singleton key, by
      intro placed placedIn last lastIn same
      rw [List.mem_singleton.mp lastIn] at same
      exact ready.unplaced (same ▸ placedIn)⟩
  have inside : (ordered ++ [key]).length ≤ nodes.length := by
    apply (fresh.subperm _).length_le
    intro placed placedIn
    rcases List.mem_append.mp placedIn with earlier | last
    · exact frontier.greedy.subset placed earlier
    · rw [List.mem_singleton.mp last]
      exact ready.node
  rw [List.length_append, List.length_singleton] at inside
  omega

theorem finished (frontier : Frontier nodes outEdges ordered [] indegree)
    (distinct : nodes.Nodup) :
    (ordered.length ≠ nodes.length ↔ Cyclic nodes outEdges) ∧
      (ordered.length = nodes.length → ordered.Perm nodes) := by
  have inside : ordered.Subperm nodes := frontier.greedy.nodup.subperm frontier.greedy.subset
  have complete : ordered.length = nodes.length → ordered.Perm nodes := fun full =>
    inside.perm_of_length_le (Nat.le_of_eq full.symm)
  refine ⟨⟨fun short => ?_, fun cyclic full => ?_⟩, complete⟩
  · have missing : ∃ key ∈ nodes, key ∉ ordered := by
      by_contra none
      push Not at none
      exact short (inside.antisymm (distinct.subperm none)).length_eq
    obtain ⟨key, member, unplaced⟩ := missing
    have stuck : ∀ other, ¬ Ready nodes outEdges ordered other := by
      intro other ready
      have queued := (frontier.queued other).mpr ready
      cases queued
    exact cyclic_of_stuck stuck member unplaced
  · exact (frontier.greedy.topological (complete full)).acyclic cyclic

end Frontier

end GreedyOrder

end DecoyEngine.Data
