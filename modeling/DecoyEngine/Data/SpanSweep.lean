import Mathlib.Data.List.Pairwise
import Mathlib.Data.List.TakeWhile

namespace DecoyEngine.Data

/-! Choosing disjoint spans: leftmost, then longest, then first in the list.

A sweep goes once through the stably sorted candidates; `Greedy` says what it
computes, with no sort: again and again the best candidate that is left. -/

namespace SpanSweep

variable {ι : Type u} (start stop : ι → Nat)

/-- The sort key `(start, -(stop - start))`, as `≤`. -/
def before (s t : ι) : Bool :=
  start s < start t || (start s == start t &&
    (stop t : Int) - start t ≤ (stop s : Int) - start s)

def sweep : Int → List ι → List ι
  | _, [] => []
  | lastEnd, s :: rest =>
      if lastEnd ≤ start s then s :: sweep (stop s) rest else sweep lastEnd rest

def select (candidates : List ι) : List ι :=
  sweep start stop (-1) (candidates.mergeSort (before start stop))

def admissible (lastEnd : Int) (pool : List ι) : List ι :=
  pool.filter (fun s => lastEnd ≤ start s)

/-- The candidate taken is the first of the best that start at `lastEnd` or later. -/
inductive Greedy : Int → List ι → List ι → Prop where
  | done {lastEnd : Int} {pool : List ι} :
      admissible start lastEnd pool = [] → Greedy lastEnd pool []
  | take {lastEnd : Int} {pool earlier later kept : List ι} {s : ι} :
      admissible start lastEnd pool = earlier ++ s :: later →
      (∀ t ∈ earlier, before start stop t s = false) →
      (∀ t ∈ later, before start stop s t = true) →
      Greedy (stop s) (earlier ++ later) kept → Greedy lastEnd pool (s :: kept)

variable {start stop} {candidates pool : List ι} {lastEnd : Int} {s t : ι}

theorem before_iff : before start stop s t = true ↔
    start s < start t ∨ start s = start t ∧
      (stop t : Int) - start t ≤ (stop s : Int) - start s := by
  simp [before]

theorem before_trans {u : ι} (first : before start stop s t = true)
    (second : before start stop t u = true) : before start stop s u = true := by
  rw [before_iff] at first second ⊢
  omega

theorem before_total (s t : ι) : (before start stop s t || before start stop t s) = true := by
  rw [Bool.or_eq_true, before_iff, before_iff]
  omega

section Sorting

variable {α : Type u} {le : α → α → Bool}

theorem eq_of_append_eq (test : α → Bool) {front back front' back' : List α}
    (same : front ++ back = front' ++ back') (accepts : ∀ y ∈ front, test y = true)
    (rejects : ∀ y ∈ back, test y = false) (accepts' : ∀ y ∈ front', test y = true)
    (rejects' : ∀ y ∈ back', test y = false) : front = front' ∧ back = back' := by
  have cut : ∀ {f b : List α}, (∀ y ∈ f, test y = true) → (∀ y ∈ b, test y = false) →
      (f ++ b).takeWhile test = f := by
    intro f b good bad
    rw [List.takeWhile_append_of_pos good]
    cases b with
    | nil => rw [List.takeWhile_nil, List.append_nil]
    | cons y b =>
        rw [List.takeWhile_cons_of_neg (by rw [bad y (by simp)]; exact Bool.false_ne_true),
          List.append_nil]
  have fronts : front = front' := by
    rw [← cut accepts rejects, same, cut accepts' rejects']
  subst fronts
  exact ⟨rfl, List.append_cancel_left same⟩

/-- Taking the head of a stably sorted list takes the first of the least elements away. -/
theorem mergeSort_head (trans : ∀ a b c, le a b → le b c → le a c)
    (total : ∀ a b, le a b || le b a) {xs rest : List α} {x : α}
    (sorted : xs.mergeSort le = x :: rest) :
    ∃ earlier later, xs = earlier ++ x :: later ∧ (∀ y ∈ earlier, le y x = false) ∧
      (∀ y ∈ later, le x y = true) ∧ (earlier ++ later).mergeSort le = rest := by
  induction xs generalizing rest with
  | nil => simp at sorted
  | cons a xs ih =>
      obtain ⟨front, back, whole, others, worse⟩ := List.mergeSort_cons trans total a xs
      have ordered := List.pairwise_mergeSort trans total (a :: xs)
      rw [whole] at sorted ordered
      have above : ∀ y ∈ back, le a y = true :=
        (List.pairwise_cons.mp (List.pairwise_append.mp ordered).2.1).1
      cases front with
      | nil =>
          rw [List.nil_append] at sorted others
          cases sorted
          refine ⟨[], xs, rfl, List.forall_mem_nil _, fun y member => above y ?_, others⟩
          exact others ▸ List.mem_mergeSort.mpr member
      | cons first front =>
          rw [List.cons_append] at sorted
          cases sorted
          obtain ⟨earlier, later, split, earlierWorse, laterBetter, remaining⟩ := ih others
          refine ⟨a :: earlier, later, by rw [split, List.cons_append], ?_, laterBetter, ?_⟩
          · intro y member
            rcases List.mem_cons.mp member with same | inEarlier
            · have known := worse x (by simp)
              rw [same]
              simpa using known
            · exact earlierWorse y inEarlier
          · obtain ⟨front', back', whole', others', worse'⟩ :=
              List.mergeSort_cons trans total a (earlier ++ later)
            have ordered' := List.pairwise_mergeSort trans total (a :: (earlier ++ later))
            rw [whole'] at ordered'
            have above' : ∀ y ∈ back', le a y = true :=
              (List.pairwise_cons.mp (List.pairwise_append.mp ordered').2.1).1
            have cut := eq_of_append_eq (fun y => !le a y) (remaining.symm.trans others')
              (fun y member => worse y (by simp [member]))
              (fun y member => by rw [above y member]; rfl) worse'
              (fun y member => by rw [above' y member]; rfl)
            rw [List.cons_append, whole', cut.1, cut.2]

end Sorting

/-! The sweep computes the greedy choice. -/

theorem Greedy.congr {pool' kept : List ι} (greedy : Greedy start stop lastEnd pool kept)
    (same : admissible start lastEnd pool = admissible start lastEnd pool') :
    Greedy start stop lastEnd pool' kept := by
  cases greedy with
  | done none => exact .done (same ▸ none)
  | take split worse better rest => exact .take (same ▸ split) worse better rest

theorem Greedy.unique {kept kept' : List ι} (greedy : Greedy start stop lastEnd pool kept)
    (other : Greedy start stop lastEnd pool kept') : kept = kept' := by
  induction greedy generalizing kept' with
  | done none =>
      cases other with
      | done _ => rfl
      | take split _ _ _ => simp [none] at split
  | @take lastEnd pool earlier later kept s split worse better rest ih =>
      cases other with
      | done none => simp [none] at split
      | @take _ _ earlier' later' kept' s' split' worse' better' rest' =>
          have parts := split.symm.trans split'
          rcases List.append_eq_append_iff.mp parts with ⟨middle, front, back⟩ | ⟨middle, front, back⟩
          · cases middle with
            | nil =>
                simp only [List.nil_append, List.cons.injEq, List.append_nil] at front back
                obtain ⟨rfl, rfl⟩ := back
                subst front
                rw [ih rest']
            | cons m middle =>
                rw [List.cons_append, List.cons.injEq] at back
                have first := worse' s (by simp [front, back.1])
                have second := better s' (by simp [back.2])
                rw [first] at second
                exact absurd second Bool.false_ne_true
          · cases middle with
            | nil =>
                simp only [List.nil_append, List.cons.injEq, List.append_nil] at front back
                obtain ⟨rfl, rfl⟩ := back
                subst front
                rw [ih rest']
            | cons m middle =>
                rw [List.cons_append, List.cons.injEq] at back
                have first := worse s' (by simp [front, back.1])
                have second := better' s (by simp [back.2])
                rw [first] at second
                exact absurd second Bool.false_ne_true

theorem sweep_greedy {sorted : List ι} (proper : ∀ s ∈ pool, start s ≤ stop s)
    (stable : pool.mergeSort (before start stop) = sorted) :
    Greedy start stop lastEnd pool (sweep start stop lastEnd sorted) := by
  induction sorted generalizing pool lastEnd with
  | nil =>
      have empty : pool = [] := List.length_eq_zero_iff.mp (by
        rw [← (List.mergeSort_perm pool (before start stop)).length_eq, stable, List.length_nil])
      exact .done (by rw [empty, admissible, List.filter_nil])
  | cons s rest ih =>
      obtain ⟨earlier, later, split, worse, better, remaining⟩ :=
        mergeSort_head (fun _ _ _ => before_trans) before_total stable
      have others : ∀ t ∈ earlier ++ later, start t ≤ stop t := by
        intro t member
        refine proper t (split ▸ ?_)
        rcases List.mem_append.mp member with inEarlier | inLater
        · exact List.mem_append_left _ inEarlier
        · exact List.mem_append_right _ (List.mem_cons_of_mem s inLater)
      rw [sweep]
      split_ifs with starts
      · have chosen : admissible start lastEnd pool =
            admissible start lastEnd earlier ++ s :: admissible start lastEnd later := by
          rw [split, admissible, List.filter_append, List.filter_cons_of_pos (by simpa using starts)]
          rfl
        refine .take chosen (fun t member => worse t (List.mem_filter.mp member).1)
          (fun t member => better t (List.mem_filter.mp member).1) ?_
        apply (ih others remaining).congr
        have ends := proper s (by simp [split])
        simp only [admissible, ← List.filter_append, List.filter_filter]
        apply List.filter_congr
        intro t _
        have narrower : (stop s : Int) ≤ start t → lastEnd ≤ start t := by omega
        by_cases after : (stop s : Int) ≤ start t <;> simp [after, narrower]
      · apply (ih others remaining).congr
        rw [split, admissible, admissible, List.filter_append, List.filter_append,
          List.filter_cons_of_neg (by simpa using starts)]

theorem select_greedy (proper : ∀ s ∈ candidates, start s ≤ stop s) :
    Greedy start stop (-1) candidates (select start stop candidates) :=
  sweep_greedy proper rfl

/-! What a sweep keeps. -/

theorem sweep_subset {sorted : List ι} : sweep start stop lastEnd sorted ⊆ sorted := by
  induction sorted generalizing lastEnd with
  | nil => exact List.Subset.refl _
  | cons s rest ih =>
      rw [sweep]
      split_ifs
      · exact List.cons_subset_cons s ih
      · exact List.subset_cons_of_subset s ih

theorem select_subset : select start stop candidates ⊆ candidates :=
  fun _ member => List.mem_mergeSort.mp (sweep_subset member)

theorem sweep_starts {sorted : List ι} (proper : ∀ s ∈ sorted, start s ≤ stop s) :
    ∀ s ∈ sweep start stop lastEnd sorted, lastEnd ≤ start s := by
  induction sorted generalizing lastEnd with
  | nil => exact List.forall_mem_nil _
  | cons s rest ih =>
      have tail : ∀ t ∈ rest, start t ≤ stop t := fun t member => proper t (by simp [member])
      rw [sweep]
      split_ifs with starts
      · intro t member
        rcases List.mem_cons.mp member with same | later
        · exact same ▸ starts
        · have after := ih tail t later
          have ends := proper s (by simp)
          omega
      · exact ih tail

theorem sweep_disjoint {sorted : List ι} (proper : ∀ s ∈ sorted, start s ≤ stop s) :
    (sweep start stop lastEnd sorted).Pairwise (fun s t => stop s ≤ start t) := by
  induction sorted generalizing lastEnd with
  | nil => exact .nil
  | cons s rest ih =>
      have tail : ∀ t ∈ rest, start t ≤ stop t := fun t member => proper t (by simp [member])
      rw [sweep]
      split_ifs
      · exact .cons (fun t member => Int.ofNat_le.mp (sweep_starts tail t member)) (ih tail)
      · exact ih tail

theorem select_disjoint (proper : ∀ s ∈ candidates, start s ≤ stop s) :
    (select start stop candidates).Pairwise (fun s t => stop s ≤ start t) :=
  sweep_disjoint fun s member => proper s (List.mem_mergeSort.mp member)

theorem sweep_covers {sorted : List ι} (ordered : sorted.Pairwise (fun t u => before start stop t u = true))
    (member : s ∈ sorted) (after : lastEnd ≤ start s) :
    s ∈ sweep start stop lastEnd sorted ∨ ∃ t ∈ sweep start stop lastEnd sorted,
      before start stop t s = true ∧ start s < stop t := by
  induction sorted generalizing lastEnd with
  | nil => cases member
  | cons first rest ih =>
      obtain ⟨heads, tails⟩ := List.pairwise_cons.mp ordered
      rcases List.mem_cons.mp member with same | later
      · subst same
        rw [sweep, if_pos after]
        exact .inl (by simp)
      · rw [sweep]
        split_ifs with starts
        · by_cases inside : (stop first : Int) ≤ start s
          · rcases ih tails later inside with kept | ⟨t, kept, precedes, overlaps⟩
            · exact .inl (by simp [kept])
            · exact .inr ⟨t, by simp [kept], precedes, overlaps⟩
          · exact .inr ⟨first, by simp, heads s later, by omega⟩
        · exact ih tails later after

theorem select_covers (member : s ∈ candidates) :
    s ∈ select start stop candidates ∨ ∃ t ∈ select start stop candidates,
      before start stop t s = true ∧ start s < stop t :=
  sweep_covers (List.pairwise_mergeSort (fun _ _ _ => before_trans) before_total candidates)
    (List.mem_mergeSort.mpr member) (by omega)

theorem select_covers_start (member : s ∈ candidates) (some : start s < stop s) :
    ∃ t ∈ select start stop candidates, start t ≤ start s ∧ start s < stop t := by
  rcases select_covers member with kept | ⟨t, kept, precedes, overlaps⟩
  · exact ⟨s, kept, Nat.le_refl _, some⟩
  · rw [before_iff] at precedes
    exact ⟨t, kept, by omega, overlaps⟩

def NestedOrDisjoint (start stop : ι → Nat) (s t : ι) : Prop :=
  stop s ≤ start t ∨ stop t ≤ start s ∨ (start s ≤ start t ∧ stop t ≤ stop s) ∨
    (start t ≤ start s ∧ stop s ≤ stop t)

theorem select_covers_whole (member : s ∈ candidates) (some : start s < stop s)
    (apart : ∀ t ∈ candidates, NestedOrDisjoint start stop t s) :
    ∃ t ∈ select start stop candidates, start t ≤ start s ∧ stop s ≤ stop t := by
  rcases select_covers member with kept | ⟨t, kept, precedes, overlaps⟩
  · exact ⟨s, kept, Nat.le_refl _, Nat.le_refl _⟩
  · have uncrossed := apart t (select_subset kept)
    rw [before_iff] at precedes
    rw [NestedOrDisjoint] at uncrossed
    exact ⟨t, kept, by omega, by omega⟩

end SpanSweep

end DecoyEngine.Data
