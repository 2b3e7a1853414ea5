import DecoyEngine.Data.GreedyOrder
import DecoyEngine.Relationships.Graph

namespace DecoyEngine.Relationships

open DecoyEngine.Data DecoyEngine.Data.GreedyOrder

/-! The Kahn loop finds the greedy order, or stops at a cycle. -/

variable {nodes : List NodeKey} {outEdges : NodeKey → List NodeKey} {state : KahnState}

theorem foldl_min_le (first : NodeKey) (rest : List NodeKey) :
    ∀ node ∈ first :: rest, rest.foldl min first ≤ node := by
  induction rest generalizing first with
  | nil => simp
  | cons next rest ih =>
      intro node member
      have bound := ih (min first next)
      rcases List.mem_cons.mp member with same | later
      · rw [same]
        exact (bound _ List.mem_cons_self).trans (min_le_left _ _)
      · rcases List.mem_cons.mp later with same | later
        · rw [same]
          exact (bound _ List.mem_cons_self).trans (min_le_right _ _)
        · exact bound node (List.mem_cons_of_mem _ later)

theorem foldl_min_mem (first : NodeKey) (rest : List NodeKey) :
    rest.foldl min first ∈ first :: rest := by
  induction rest generalizing first with
  | nil => simp
  | cons next rest ih =>
      rcases List.mem_cons.mp (ih (min first next)) with same | later
      · rw [List.foldl_cons, same]
        rcases min_choice first next with left | right
        · rw [left]
          exact List.mem_cons_self
        · rw [right]
          exact List.mem_cons_of_mem _ List.mem_cons_self
      · exact List.mem_cons_of_mem _ (List.mem_cons_of_mem _ later)

theorem heapPop_eq_none {queue : List NodeKey} : heapPop queue = none ↔ queue = [] := by
  cases queue with
  | nil => simp [heapPop]
  | cons node rest => simp [heapPop]

theorem heapPop_eq_some {queue rest : List NodeKey} {node : NodeKey}
    (popped : heapPop queue = some (node, rest)) :
    node ∈ queue ∧ (∀ other ∈ queue, node ≤ other) ∧ rest = queue.erase node := by
  cases queue with
  | nil => cases popped
  | cons first others =>
      simp only [heapPop, Option.some.injEq, Prod.mk.injEq] at popped
      obtain ⟨least, remaining⟩ := popped
      subst least
      exact ⟨foldl_min_mem first others, foldl_min_le first others, remaining.symm⟩

/-- The counters cover the edges to come and what is queued is released. -/
structure Releasing (state : KahnState) (children : List NodeKey) : Prop where
  covered : ∀ key, children.count key ≤ state.indegree key
  nodup : state.queue.Nodup
  released : ∀ key ∈ state.queue, state.indegree key = 0

theorem queue_releaseChild (state : KahnState) (child : NodeKey) :
    (releaseChild state child).queue =
      if state.indegree child - 1 = 0 then child :: state.queue else state.queue := by
  simp only [releaseChild, if_true]

theorem Releasing.step {child : NodeKey} {rest : List NodeKey}
    (releasing : Releasing state (child :: rest)) : Releasing (releaseChild state child) rest := by
  have positive : 0 < state.indegree child := by
    have covered := releasing.covered child
    rw [List.count_cons_self] at covered
    omega
  have fresh : child ∉ state.queue := fun queued => by
    have zero := releasing.released child queued
    omega
  have others : ∀ key ∈ state.queue, key ≠ child := fun key queued same => fresh (same ▸ queued)
  have kept : ∀ key ∈ state.queue, (releaseChild state child).indegree key = 0 := by
    intro key queued
    simp only [releaseChild, others key queued, if_false]
    exact releasing.released key queued
  refine ⟨?_, ?_, ?_⟩
  · intro key
    have covered := releasing.covered key
    by_cases same : key = child
    · subst same
      rw [List.count_cons_self] at covered
      simp only [releaseChild, if_true]
      omega
    · rw [List.count_cons_of_ne (Ne.symm same)] at covered
      simpa only [releaseChild, same, if_false] using covered
  · by_cases last : state.indegree child - 1 = 0
    · rw [queue_releaseChild, if_pos last]
      exact List.nodup_cons.mpr ⟨fresh, releasing.nodup⟩
    · rw [queue_releaseChild, if_neg last]
      exact releasing.nodup
  · intro key queued
    rw [queue_releaseChild] at queued
    by_cases last : state.indegree child - 1 = 0
    · rw [if_pos last] at queued
      rcases List.mem_cons.mp queued with same | queued
      · rw [same]
        simpa only [releaseChild, if_true] using last
      · exact kept key queued
    · rw [if_neg last] at queued
      exact kept key queued

theorem mem_queue_releaseChild {child : NodeKey} {rest : List NodeKey}
    (releasing : Releasing state (child :: rest)) (key : NodeKey) :
    (key ∈ (releaseChild state child).queue ∨
        (key ∈ rest ∧ (releaseChild state child).indegree key = rest.count key)) ↔
      (key ∈ state.queue ∨
        (key ∈ child :: rest ∧ state.indegree key = (child :: rest).count key)) := by
  by_cases same : key = child
  · subst same
    have covered := releasing.covered key
    rw [List.count_cons_self] at covered
    simp only [releaseChild, if_true, List.count_cons_self, List.mem_cons_self, true_and]
    by_cases last : state.indegree key - 1 = 0
    · rw [if_pos last]
      simp only [List.mem_cons_self, true_or, true_iff]
      right
      omega
    · rw [if_neg last]
      have present : state.indegree key - 1 = rest.count key → key ∈ rest := by
        intro equal
        rw [equal] at last
        exact List.count_pos_iff.mp (Nat.pos_of_ne_zero last)
      have shifted : state.indegree key - 1 = rest.count key ↔
          state.indegree key = rest.count key + 1 := by omega
      rw [← shifted, and_iff_right_of_imp present]
  · have queued : key ∈ (releaseChild state child).queue ↔ key ∈ state.queue := by
      rw [queue_releaseChild]
      by_cases last : state.indegree child - 1 = 0
      · rw [if_pos last, List.mem_cons, or_iff_right same]
      · rw [if_neg last]
    rw [queued, List.count_cons_of_ne (Ne.symm same)]
    simp [releaseChild, same]

theorem ordered_releaseChildren (children : List NodeKey) :
    (children.foldl releaseChild state).ordered = state.ordered := by
  induction children generalizing state with
  | nil => rfl
  | cons child rest ih => exact ih

theorem indegree_releaseChildren (children : List NodeKey) (key : NodeKey) :
    (children.foldl releaseChild state).indegree key =
      state.indegree key - children.count key := by
  induction children generalizing state with
  | nil => rfl
  | cons child rest ih =>
      rw [List.foldl_cons, ih]
      by_cases same : key = child
      · subst same
        rw [List.count_cons_self]
        simp only [releaseChild, if_true]
        omega
      · rw [List.count_cons_of_ne (Ne.symm same)]
        simp only [releaseChild, same, if_false]

theorem Releasing.queue {children : List NodeKey} (releasing : Releasing state children) :
    (children.foldl releaseChild state).queue.Nodup ∧
      ∀ key, key ∈ (children.foldl releaseChild state).queue ↔
        (key ∈ state.queue ∨ (key ∈ children ∧ state.indegree key = children.count key)) := by
  induction children generalizing state with
  | nil => exact ⟨releasing.nodup, fun key => by simp⟩
  | cons child rest ih =>
      obtain ⟨nodup, queued⟩ := ih releasing.step
      refine ⟨nodup, fun key => ?_⟩
      rw [List.foldl_cons, queued key]
      exact mem_queue_releaseChild releasing key

/-- Kahn's loop at every pass: what is placed was the least ready node each time, the in-degrees
count the parents that are not placed yet, and the queue is the ready nodes. -/
structure KahnInvariant (nodes : List NodeKey) (outEdges : NodeKey → List NodeKey)
    (state : KahnState) : Prop where
  greedy : Greedy nodes outEdges state.ordered
  counted : ∀ key, state.indegree key = blocked nodes outEdges state.ordered key
  nodup : state.queue.Nodup
  queued : ∀ key, key ∈ state.queue ↔ Ready nodes outEdges state.ordered key

variable (outEdges) in
/-- The body of the loop: place the popped node and release its children. -/
def kahnPlace (state : KahnState) (node : NodeKey) (queue : List NodeKey) : KahnState :=
  ((outEdges node).insertionSort (· ≤ ·)).foldl releaseChild
    { state with queue, ordered := state.ordered ++ [node] }

theorem ordered_kahnPlace (node : NodeKey) (queue : List NodeKey) :
    (kahnPlace outEdges state node queue).ordered = state.ordered ++ [node] :=
  ordered_releaseChildren _

theorem KahnInvariant.frontier (invariant : KahnInvariant nodes outEdges state) :
    Frontier nodes outEdges state.ordered state.queue state.indegree :=
  ⟨invariant.greedy, invariant.counted, invariant.nodup, invariant.queued⟩

theorem KahnInvariant.place (distinct : nodes.Nodup)
    (within : ∀ node ∈ nodes, ∀ child ∈ outEdges node, child ∈ nodes)
    (invariant : KahnInvariant nodes outEdges state) {node : NodeKey} {queue : List NodeKey}
    (popped : heapPop state.queue = some (node, queue)) :
    KahnInvariant nodes outEdges (kahnPlace outEdges state node queue) := by
  obtain ⟨queued, least, remaining⟩ := heapPop_eq_some popped
  subst remaining
  have ready := (invariant.queued node).mp queued
  have sorted := (outEdges node).perm_insertionSort (· ≤ ·)
  have releasing : Releasing
      { state with queue := state.queue.erase node, ordered := state.ordered ++ [node] }
      ((outEdges node).insertionSort (· ≤ ·)) := by
    refine ⟨fun key => ?_, invariant.nodup.erase node, fun key member => ?_⟩
    · have place : blocked nodes outEdges (state.ordered ++ [node]) key +
          (outEdges node).count key = blocked nodes outEdges state.ordered key :=
        blocked_place distinct ready.node ready.unplaced key
      rw [sorted.count_eq, invariant.counted]
      omega
    · rw [invariant.counted]
      exact ((invariant.queued key).mp (List.mem_of_mem_erase member)).released
  obtain ⟨nodup, members⟩ := releasing.queue
  have frontier : Frontier nodes outEdges
      (kahnPlace outEdges state node (state.queue.erase node)).ordered
      (kahnPlace outEdges state node (state.queue.erase node)).queue
      (kahnPlace outEdges state node (state.queue.erase node)).indegree := by
    rw [ordered_kahnPlace]
    apply invariant.frontier.place distinct (within node ready.node) queued least _ nodup
    · intro key
      refine (members key).trans ?_
      rw [invariant.nodup.mem_erase_iff, sorted.mem_iff, sorted.count_eq, and_comm]
    · intro key
      refine (indegree_releaseChildren _ key).trans ?_
      rw [sorted.count_eq]
  exact ⟨frontier.greedy, frontier.counted, frontier.nodup, frontier.queued⟩

/-- A run of the loop keeps the invariant, and with fuel for every node it empties the queue. -/
theorem kahnLoop_spec (distinct : nodes.Nodup)
    (within : ∀ node ∈ nodes, ∀ child ∈ outEdges node, child ∈ nodes) (fuel : Nat)
    (invariant : KahnInvariant nodes outEdges state)
    (enough : nodes.length ≤ fuel + state.ordered.length) :
    KahnInvariant nodes outEdges (kahnLoop outEdges fuel state) ∧
      (kahnLoop outEdges fuel state).queue = [] := by
  induction fuel generalizing state with
  | zero =>
      refine ⟨invariant, List.eq_nil_iff_forall_not_mem.mpr fun key queued => ?_⟩
      have room := invariant.frontier.room queued
      omega
  | succ fuel ih =>
      cases popped : heapPop state.queue with
      | none =>
          rw [kahnLoop, popped]
          exact ⟨invariant, heapPop_eq_none.mp popped⟩
      | some next =>
          obtain ⟨node, queue⟩ := next
          have run : kahnLoop outEdges (fuel + 1) state =
              kahnLoop outEdges fuel (kahnPlace outEdges state node queue) := by
            rw [kahnLoop, popped]
            rfl
          rw [run]
          apply ih (invariant.place distinct within popped)
          rw [ordered_kahnPlace, List.length_append, List.length_singleton]
          omega

theorem kahnLoop_cases (distinct : nodes.Nodup)
    (within : ∀ node ∈ nodes, ∀ child ∈ outEdges node, child ∈ nodes)
    {indegree : NodeKey → Nat} (counted : ∀ key, indegree key = blocked nodes outEdges [] key) :
    let final := kahnLoop outEdges nodes.length
      { queue := nodes.filter (fun node => indegree node = 0), indegree, ordered := [] }
    Greedy nodes outEdges final.ordered ∧
      (final.ordered.length ≠ nodes.length ↔ Cyclic nodes outEdges) ∧
      (final.ordered.length = nodes.length → final.ordered.Perm nodes) := by
  intro final
  have first := Frontier.start distinct counted
  have initial : KahnInvariant nodes outEdges
      { queue := nodes.filter (fun node => indegree node = 0), indegree, ordered := [] } :=
    ⟨first.greedy, first.counted, first.nodup, first.queued⟩
  obtain ⟨invariant, emptied⟩ := kahnLoop_spec distinct within nodes.length initial (by simp)
  have frontier := invariant.frontier
  rw [emptied] at frontier
  exact ⟨frontier.greedy, frontier.finished distinct⟩

end DecoyEngine.Relationships
