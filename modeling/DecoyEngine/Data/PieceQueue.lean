import Mathlib.Data.List.Basic

namespace DecoyEngine

/-! Rows taken from the front of a queue of pieces, the last of which is cut. -/

/-- Pieces of rows that can be sliced. -/
structure Sliceable (P R : Type) where
  rows : P → List R
  slice : P → Nat → Nat → P
  rows_slice : ∀ piece start count,
    rows (slice piece start count) = ((rows piece).drop start).take count

namespace Sliceable

variable {P R : Type} (pieces : Sliceable P R)

def length (piece : P) : Nat := (pieces.rows piece).length

/-- The first rows of a queue, and the queue without them. -/
def takeRows : Nat → List P → List P × List P
  | _, [] => ([], [])
  | need, head :: rest =>
      if need = 0 then ([], head :: rest)
      else if pieces.length head ≤ need then
        let later := takeRows (need - pieces.length head) rest
        (head :: later.1, later.2)
      else
        ([pieces.slice head 0 need],
          pieces.slice head need (pieces.length head - need) :: rest)

theorem takeRows_rows (need : Nat) (queue : List P) :
    (pieces.takeRows need queue).1.flatMap pieces.rows =
        (queue.flatMap pieces.rows).take need ∧
      (pieces.takeRows need queue).2.flatMap pieces.rows =
        (queue.flatMap pieces.rows).drop need := by
  induction queue generalizing need with
  | nil => simp [takeRows]
  | cons head rest ih =>
      unfold takeRows
      by_cases none : need = 0
      · simp [none]
      · rw [if_neg none]
        by_cases whole : pieces.length head ≤ need
        · obtain ⟨taken, left⟩ := ih (need - pieces.length head)
          rw [length] at taken left whole
          rw [if_pos (by exact whole)]
          simp only [List.flatMap_cons, List.take_append, List.drop_append]
          rw [length, taken, left, List.take_of_length_le whole, List.drop_eq_nil_of_le whole]
          exact ⟨rfl, rfl⟩
        · rw [if_neg whole]
          rw [length, Nat.not_le] at whole
          simp only [List.flatMap_cons, List.flatMap_nil, List.append_nil, rows_slice,
            List.drop_zero, List.take_append_of_le_length (Nat.le_of_lt whole),
            List.drop_append_of_le_length (Nat.le_of_lt whole)]
          refine ⟨trivial, ?_⟩
          rw [length, List.take_of_length_le (Nat.le_of_eq List.length_drop)]

theorem takeRows_ne_nil {need : Nat} {queue : List P} (some' : 0 < need)
    (enough : need ≤ (queue.flatMap pieces.rows).length) :
    (pieces.takeRows need queue).1 ≠ [] := by
  intro nothing
  have rows := (pieces.takeRows_rows need queue).1
  rw [nothing, List.flatMap_nil] at rows
  have count := congrArg List.length rows
  rw [List.length_take, List.length_nil] at count
  omega

end Sliceable

end DecoyEngine
