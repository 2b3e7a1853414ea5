import Mathlib.Data.List.Basic

namespace DecoyEngine.Data

/-! Closed vocabularies: the members of an enumeration and the word each is written as.
For an enumeration without fields the two laws are found by cases. -/

class Vocabulary (α : Type) where
  members : List α
  word : α → String
  complete : ∀ member, member ∈ members := by
    intro member
    cases member <;> decide
  distinct : ∀ left right, word left = word right → left = right := by
    intro left right
    cases left <;> cases right <;> decide

namespace Vocabulary

variable {α : Type} [Vocabulary α]

/-- `Enum(text)`; `none` is its `ValueError`. -/
def ofWord (text : String) : Option α := (members : List α).find? fun member => word member = text

theorem ofWord_word (member : α) : ofWord (word member) = some member := by
  rw [ofWord]
  cases found : (members : List α).find? fun other => word other = word member with
  | none =>
      have absent := List.find?_eq_none.mp found member (complete member)
      simp at absent
  | some other =>
      have same := List.find?_some found
      rw [distinct other member (of_decide_eq_true same)]

end Vocabulary

end DecoyEngine.Data
