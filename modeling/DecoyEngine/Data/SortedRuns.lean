import Mathlib.Data.List.Iterate
import Mathlib.Data.List.Sort
import Mathlib.Order.Basic

namespace DecoyEngine.Data

/-! A list sorted by a key, read run by run.

A stable sort keeps what it does to each part of the list, and one pass over the
sorted list that starts anew wherever the key changes numbers every part on its
own.  Results scattered to distinct positions are found there again. -/

section StableSort

variable {α : Type} {r : α → α → Prop} [DecidableRel r] [IsTrans α r]

theorem filter_orderedInsert (keep : α → Bool) (item : α) {items : List α}
    (sorted : items.Pairwise r) :
    (items.orderedInsert r item).filter keep =
      if keep item then (items.filter keep).orderedInsert r item else items.filter keep := by
  induction items with
  | nil => cases kept : keep item <;> simp [kept]
  | cons first rest ih =>
      obtain ⟨firstLe, restSorted⟩ := List.pairwise_cons.mp sorted
      specialize ih restSorted
      by_cases before : r item first
      · rw [List.orderedInsert_cons_of_le r _ before, List.filter_cons]
        cases kept : keep item with
        | false => rfl
        | true =>
            rw [if_pos rfl, if_pos rfl]
            -- whatever is kept of the list stays behind `item`
            cases whole : (first :: rest).filter keep with
            | nil => rfl
            | cons head tail =>
                have member : head ∈ first :: rest :=
                  (List.mem_filter.mp (whole ▸ List.mem_cons_self)).1
                have le : r item head := by
                  rcases List.mem_cons.mp member with rfl | later
                  · exact before
                  · exact IsTrans.trans _ _ _ before (firstLe head later)
                rw [List.orderedInsert_cons_of_le r _ le]
      · rw [List.orderedInsert_of_not_le r _ before, List.filter_cons, ih, List.filter_cons]
        cases keepFirst : keep first with
        | false => rfl
        | true =>
            cases kept : keep item with
            | false => rfl
            | true =>
                rw [if_pos rfl, if_pos rfl, if_pos rfl, if_pos rfl,
                  List.orderedInsert_of_not_le r _ before]

theorem filter_insertionSort [Std.Total r] (keep : α → Bool) (items : List α) :
    (items.insertionSort r).filter keep = (items.filter keep).insertionSort r := by
  induction items with
  | nil => rfl
  | cons item rest ih =>
      rw [List.insertionSort_cons,
        filter_orderedInsert keep item (List.pairwise_insertionSort r rest), ih, List.filter_cons]
      cases keep item <;> rfl

end StableSort

section Congruence

variable {α : Type} {r s : α → α → Prop} [DecidableRel r] [DecidableRel s]

theorem orderedInsert_congr {item : α} {items : List α}
    (same : ∀ other ∈ items, (r item other ↔ s item other)) :
    items.orderedInsert r item = items.orderedInsert s item := by
  induction items with
  | nil => rfl
  | cons first rest ih =>
      rw [List.forall_mem_cons] at same
      by_cases before : r item first
      · rw [List.orderedInsert_cons_of_le r _ before,
          List.orderedInsert_cons_of_le s _ (same.1.mp before)]
      · rw [List.orderedInsert_of_not_le r _ before,
          List.orderedInsert_of_not_le s _ (mt same.1.mpr before), ih same.2]

theorem insertionSort_congr {items : List α}
    (same : items.Pairwise (fun x y => (r x y ↔ s x y))) :
    items.insertionSort r = items.insertionSort s := by
  induction items with
  | nil => rfl
  | cons item rest ih =>
      obtain ⟨itemSame, restSame⟩ := List.pairwise_cons.mp same
      rw [List.insertionSort_cons, List.insertionSort_cons, ih restSame]
      exact orderedInsert_congr fun other member =>
        itemSame other ((List.mem_insertionSort s).mp member)

end Congruence

section Runs

variable {α κ σ : Type} [DecidableEq κ] (key : α → κ) (first : α → σ) (next : σ → σ)

/-- The state at an item: the next one in a run, a first one where the key changes. -/
def runState : Option (κ × σ) → α → σ
  | some (last, state), item => if last = key item then next state else first item
  | none, item => first item

def runStates : Option (κ × σ) → List α → List σ
  | _, [] => []
  | before, item :: rest =>
      let state := runState key first next before item
      state :: runStates (some (key item, state)) rest

/-- The states of one part of the list, taken on its own. -/
def ownStates : Option σ → List α → List σ
  | _, [] => []
  | before, item :: rest =>
      let state := before.elim (first item) next
      state :: ownStates (some state) rest

@[simp] theorem length_runStates (before : Option (κ × σ)) (items : List α) :
    (runStates key first next before items).length = items.length := by
  induction items generalizing before with
  | nil => rfl
  | cons item rest ih => rw [runStates, List.length_cons, ih, List.length_cons]

variable {key first next}

theorem ownStates_some (state : σ) (own : List α) :
    ownStates first next (some state) own = List.iterate next (next state) own.length := by
  induction own generalizing state with
  | nil => rfl
  | cons item rest ih => rw [ownStates, Option.elim_some, ih, List.length_cons, List.iterate]

theorem ownStates_getElem {own : List α} {lead : α} {i : Nat} (leads : own[0]? = some lead)
    (inside : i < own.length) :
    (ownStates first next none own)[i]? = some (next^[i] (first lead)) := by
  cases own with
  | nil => cases leads
  | cons head tail =>
      obtain rfl : head = lead := Option.some.inj leads
      rw [ownStates, Option.elim_none, ownStates_some]
      exact List.getElem?_iterate next (first head) (tail.length + 1) i inside

section Sorted

variable {κ : Type} [LinearOrder κ] {key : α → κ}

variable (first next) in
/-- Past an item of its own, a part continues its states; past any other it is still to start. -/
theorem filter_runStates_after {items : List α} {last : κ} (state : σ) (part : κ)
    (sorted : items.Pairwise (fun x y => key x ≤ key y)) (above : ∀ x ∈ items, last ≤ key x) :
    (items.zip (runStates key first next (some (last, state)) items)).filter
        (fun entry => key entry.1 = part) =
      let own := items.filter (fun x => key x = part)
      own.zip (ownStates first next (if last = part then some state else none) own) := by
  induction items generalizing last state with
  | nil => rfl
  | cons item rest ih =>
      obtain ⟨itemLe, restSorted⟩ := List.pairwise_cons.mp sorted
      have tail := fun newState => ih newState restSorted itemLe
      dsimp only at tail
      rw [runStates, List.zip_cons_cons, List.filter_cons, List.filter_cons, tail]
      by_cases mine : key item = part
      · subst mine
        simp only [decide_true, if_true, ownStates, List.zip_cons_cons]
        by_cases same : last = key item
        · simp only [runState, if_pos same, Option.elim_some]
        · simp only [runState, if_neg same, Option.elim_none]
      · simp only [decide_eq_false mine, if_neg mine, Bool.false_eq_true, if_false]
        by_cases same : last = part
        · -- the part ended before `item`
          have ended : rest.filter (fun x => key x = part) = [] := by
            refine List.filter_eq_nil_iff.mpr fun x member here => mine ?_
            have le := above item List.mem_cons_self
            exact le_antisymm ((itemLe x member).trans (of_decide_eq_true here).le)
              (same ▸ le)
          rw [ended]
          rfl
        · rw [if_neg same]

variable (first next) in
theorem filter_runStates {items : List α} (part : κ)
    (sorted : items.Pairwise (fun x y => key x ≤ key y)) :
    (items.zip (runStates key first next none items)).filter (fun entry => key entry.1 = part) =
      let own := items.filter (fun x => key x = part)
      own.zip (ownStates first next none own) := by
  cases items with
  | nil => rfl
  | cons item rest =>
      obtain ⟨itemLe, restSorted⟩ := List.pairwise_cons.mp sorted
      have tail := filter_runStates_after first next (first item) part restSorted itemLe
      dsimp only at tail
      rw [runStates, List.zip_cons_cons, List.filter_cons, List.filter_cons, runState, tail]
      by_cases mine : key item = part
      · simp only [decide_eq_true mine, if_true, ownStates, List.zip_cons_cons, if_pos mine,
          Option.elim_none]
      · simp only [decide_eq_false mine, if_neg mine, Bool.false_eq_true, if_false]

variable (first next) in
theorem mem_zip_runStates {items : List α} {part : κ} {lead x : α} {i : Nat}
    (sorted : items.Pairwise (fun x y => key x ≤ key y))
    (leads : (items.filter (fun x => key x = part))[0]? = some lead)
    (found : (items.filter (fun x => key x = part))[i]? = some x) :
    (x, next^[i] (first lead)) ∈ items.zip (runStates key first next none items) := by
  have inside := (List.getElem?_eq_some_iff.mp found).1
  have entry : ((items.filter (fun x => key x = part)).zip
      (ownStates first next none (items.filter (fun x => key x = part))))[i]? =
        some (x, next^[i] (first lead)) := by
    rw [List.getElem?_zip_eq_some]
    exact ⟨found, ownStates_getElem leads inside⟩
  have member := List.mem_of_getElem? entry
  rw [← filter_runStates first next part sorted] at member
  exact (List.mem_filter.mp member).1

end Sorted

end Runs

section Scatter

variable {β : Type}

def scatter (result : List β) (entries : List (Nat × β)) : List β :=
  entries.foldl (fun result entry => result.set entry.1 entry.2) result

@[simp] theorem length_scatter (result : List β) (entries : List (Nat × β)) :
    (scatter result entries).length = result.length := by
  induction entries generalizing result with
  | nil => rfl
  | cons entry rest ih => rw [scatter, List.foldl_cons, ← scatter, ih, List.length_set]

theorem scatter_other {result : List β} {entries : List (Nat × β)} {pos : Nat}
    (other : pos ∉ entries.map Prod.fst) : (scatter result entries)[pos]? = result[pos]? := by
  induction entries generalizing result with
  | nil => rfl
  | cons entry rest ih =>
      rw [List.map_cons, List.mem_cons, not_or] at other
      rw [scatter, List.foldl_cons, ← scatter, ih other.2, List.getElem?_set_ne (Ne.symm other.1)]

theorem scatter_getElem {result : List β} {entries : List (Nat × β)} {pos : Nat} {value : β}
    (distinct : (entries.map Prod.fst).Nodup) (written : (pos, value) ∈ entries)
    (inside : pos < result.length) : (scatter result entries)[pos]? = some value := by
  induction entries generalizing result with
  | nil => cases written
  | cons entry rest ih =>
      rw [List.map_cons, List.nodup_cons] at distinct
      rw [scatter, List.foldl_cons, ← scatter]
      rcases List.mem_cons.mp written with here | later
      · subst here
        rw [scatter_other distinct.1, List.getElem?_set_self inside]
      · exact ih distinct.2 later (by rwa [List.length_set])

end Scatter

end DecoyEngine.Data
