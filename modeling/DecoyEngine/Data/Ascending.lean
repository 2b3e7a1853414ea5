import Mathlib.Data.List.Sort
import Mathlib.Order.Lattice

namespace DecoyEngine.Data

/-! Rows in ascending key order, and cutting such a list at a key. -/

variable {α κ : Type*} [LinearOrder κ] {key : α → κ} {rows : List α}

def Ascending (key : α → κ) (rows : List α) : Prop :=
  rows.Pairwise fun left right => key left ≤ key right

instance (key : α → κ) (rows : List α) : Decidable (Ascending key rows) :=
  inferInstanceAs (Decidable (rows.Pairwise _))

namespace Ascending

theorem append {left right : List α} (leftAscending : Ascending key left)
    (rightAscending : Ascending key right)
    (below : ∀ x ∈ left, ∀ y ∈ right, key x ≤ key y) : Ascending key (left ++ right) :=
  List.pairwise_append.mpr ⟨leftAscending, rightAscending, below⟩

theorem of_append_left {left right : List α} (ascending : Ascending key (left ++ right)) :
    Ascending key left :=
  (List.pairwise_append.mp ascending).1

theorem of_append_right {left right : List α} (ascending : Ascending key (left ++ right)) :
    Ascending key right :=
  (List.pairwise_append.mp ascending).2.1

theorem le_of_append {left right : List α} (ascending : Ascending key (left ++ right)) :
    ∀ x ∈ left, ∀ y ∈ right, key x ≤ key y :=
  (List.pairwise_append.mp ascending).2.2

theorem take_countP (ascending : Ascending key rows) (cutoff : κ) :
    (∀ row ∈ rows.take (rows.countP fun row => key row ≤ cutoff), key row ≤ cutoff) ∧
    ∀ row ∈ rows.drop (rows.countP fun row => key row ≤ cutoff), cutoff < key row := by
  induction rows with
  | nil => simp
  | cons head tail ih =>
      obtain ⟨headLe, tailAscending⟩ := List.pairwise_cons.mp ascending
      obtain ⟨taken, dropped⟩ := ih tailAscending
      by_cases small : key head ≤ cutoff
      · have counted : (head :: tail).countP (fun row => key row ≤ cutoff) =
            tail.countP (fun row => key row ≤ cutoff) + 1 :=
          List.countP_cons_of_pos (by simpa using small)
        rw [counted, List.take_succ_cons, List.drop_succ_cons]
        constructor
        · intro row member
          cases List.mem_cons.mp member with
          | inl isHead =>
              rw [isHead]
              exact small
          | inr inTail => exact taken row inTail
        · exact dropped
      · -- The first key over the cutoff closes the prefix: nothing after it counts.
        have above : ∀ row ∈ head :: tail, cutoff < key row := by
          intro row member
          cases List.mem_cons.mp member with
          | inl isHead =>
              rw [isHead]
              exact not_le.mp small
          | inr inTail => exact lt_of_lt_of_le (not_le.mp small) (headLe row inTail)
        have counted : (head :: tail).countP (fun row => key row ≤ cutoff) = 0 := by
          apply List.countP_eq_zero.mpr
          intro row member
          simpa using above row member
        rw [counted, List.take_zero, List.drop_zero]
        exact ⟨by simp, above⟩

theorem eq_of_perm {left right : List α} (leftAscending : Ascending key left)
    (rightAscending : Ascending key right) (perm : left.Perm right)
    (unique : (left.map key).Nodup) : left = right := by
  apply List.Perm.eq_of_pairwise _ leftAscending rightAscending perm
  intro x y xMember yMember xy yx
  have yLeft : y ∈ left := perm.mem_iff.mpr yMember
  exact List.inj_on_of_nodup_map unique xMember yLeft (le_antisymm xy yx)

end Ascending

end DecoyEngine.Data
