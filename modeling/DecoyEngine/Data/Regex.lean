import Mathlib.Data.List.Basic

namespace DecoyEngine.Data

/-! Backtracking regular expressions.

`ends` lists every place a pattern can end from a given start, in the order in
which a backtracking matcher comes to them; the match is the first.  Positions
count from the start of the text, so that a pattern can look behind.  A
repetition goes on only while its body consumes. -/

inductive Regex (α : Type u) where
  | empty
  | set (accepts : α → Bool)
  | seq (first second : Regex α)
  | alt (first second : Regex α)
  | repeated (body : Regex α) (limit : Option Nat)
  | ahead (body : Regex α)
  | notAhead (body : Regex α)
  | notBehind (accepts : α → Bool)
  | boundary (word : α → Bool)
  | finish (newline : α → Bool)

namespace Regex

variable {α : Type u} {β : Type v}

def holdsAt (accepts : α → Bool) (text : List α) (i : Nat) : Bool := (text[i]?).any accepts

def repeatEnds (step : Nat → List Nat) : Nat → Nat → List Nat
  | 0, i => [i]
  | limit + 1, i => ((step i).filter (fun j => i < j)).flatMap (repeatEnds step limit) ++ [i]

/-- The places where a match that begins at `i` can end, in the order in which a backtracking
matcher tries them. -/
def ends (text : List α) : Regex α → Nat → List Nat
  | .empty, i => [i]
  | .set accepts, i => if holdsAt accepts text i then [i + 1] else []
  | .seq first second, i => (first.ends text i).flatMap (second.ends text)
  | .alt first second, i => first.ends text i ++ second.ends text i
  | .repeated body limit, i => repeatEnds (body.ends text) (limit.getD (text.length - i)) i
  | .ahead body, i => if (body.ends text i).isEmpty then [] else [i]
  | .notAhead body, i => if (body.ends text i).isEmpty then [i] else []
  | .notBehind accepts, i => if 0 < i && holdsAt accepts text (i - 1) then [] else [i]
  | .boundary word, i =>
      if (0 < i && holdsAt word text (i - 1)) != holdsAt word text i then [i] else []
  | .finish newline, i =>
      if i = text.length || (i + 1 = text.length && holdsAt newline text i) then [i] else []

/-! The derived forms of the notation. -/

/-- `r?` -/
def opt (r : Regex α) : Regex α := .repeated r (some 1)

/-- `r*` -/
def star (r : Regex α) : Regex α := .repeated r none

/-- `r+` -/
def plus (r : Regex α) : Regex α := .seq r (star r)

/-- `r{count}` -/
def times (r : Regex α) : Nat → Regex α
  | 0 => .empty
  | count + 1 => .seq r (times r count)

/-- `r{low,high}` -/
def between (r : Regex α) (low high : Nat) : Regex α :=
  .seq (times r low) (.repeated r (some (high - low)))

/-- `r{low,}` -/
def atLeast (r : Regex α) (low : Nat) : Regex α := .seq (times r low) (star r)

/-- The pattern that is each of `parts` in turn. -/
def all (parts : List (Regex α)) : Regex α := parts.foldr .seq .empty

/-- `first|rest`, tried in order. -/
def oneOf (first : Regex α) : List (Regex α) → Regex α
  | [] => first
  | next :: rest => .alt first (oneOf next rest)

/-! Matching: `match` at one place, and `finditer` along the text. -/

/-- The end of the match that starts at `i`.  Where the last match was empty and ended
at `i`, another empty one is passed over. -/
def matchAt (r : Regex α) (text : List α) (mustAdvance : Bool) (i : Nat) : Option Nat :=
  (r.ends text i).find? (fun stop => !mustAdvance || stop != i)

def finditerFrom (r : Regex α) (text : List α) : Nat → Bool → Nat → List (Nat × Nat)
  | 0, _, _ => []
  | fuel + 1, mustAdvance, i =>
      if text.length < i then []
      else
        match r.matchAt text mustAdvance i with
        | some stop => (i, stop) :: finditerFrom r text fuel (stop == i) stop
        | none => finditerFrom r text fuel false (i + 1)

/-- A place is visited twice at most, the second time after an empty match there. -/
def finditer (r : Regex α) (text : List α) : List (Nat × Nat) :=
  finditerFrom r text (2 * text.length + 2) false 0

/-! Where ends lie. -/

section Bounds

attribute [local simp] ends repeatEnds

variable {text : List α} {r first second body : Regex α} {accepts : α → Bool} {i j stop : Nat}

theorem holdsAt_lt (holds : holdsAt accepts text i = true) : i < text.length := by
  by_contra outside
  simp [holdsAt, List.getElem?_eq_none (Nat.le_of_not_lt outside)] at holds

theorem repeatEnds_bounds {step : Nat → List Nat} {top : Nat}
    (bounded : ∀ i, ∀ stop ∈ step i, i ≤ stop ∧ stop ≤ max i top) {limit : Nat}
    (member : stop ∈ repeatEnds step limit i) : i ≤ stop ∧ stop ≤ max i top := by
  induction limit generalizing i with
  | zero =>
      rw [repeatEnds, List.mem_singleton] at member
      omega
  | succ limit ih =>
      simp only [repeatEnds, List.mem_append, List.mem_flatMap, List.mem_filter,
        decide_eq_true_eq, List.mem_singleton] at member
      rcases member with ⟨next, ⟨reached, -⟩, later⟩ | same
      · have near := bounded i next reached
        have far := ih later
        omega
      · omega

theorem eq_of_mem_if {holds : Prop} [Decidable holds]
    (member : stop ∈ if holds then [i] else []) : stop = i := by
  split at member
  · exact List.mem_singleton.mp member
  · cases member

theorem eq_of_mem_unless {holds : Prop} [Decidable holds]
    (member : stop ∈ if holds then [] else [i]) : stop = i := by
  split at member
  · cases member
  · exact List.mem_singleton.mp member

theorem ends_bounds (member : stop ∈ r.ends text i) : i ≤ stop ∧ stop ≤ max i text.length := by
  induction r generalizing i stop with
  | empty =>
      rw [ends, List.mem_singleton] at member
      omega
  | set accepts =>
      rw [ends] at member
      split at member
      case isTrue holds =>
        have within := holdsAt_lt holds
        rw [List.mem_singleton] at member
        omega
      case isFalse => cases member
  | seq first second firstIh secondIh =>
      rw [ends, List.mem_flatMap] at member
      obtain ⟨middle, reached, later⟩ := member
      have near := firstIh reached
      have far := secondIh later
      omega
  | alt first second firstIh secondIh =>
      rw [ends, List.mem_append] at member
      exact member.elim firstIh secondIh
  | repeated body limit ih => exact repeatEnds_bounds (fun i stop => ih) member
  | ahead body ih =>
      have same := eq_of_mem_unless member
      omega
  | notAhead body ih =>
      have same := eq_of_mem_if member
      omega
  | notBehind accepts =>
      have same := eq_of_mem_unless member
      omega
  | boundary word =>
      have same := eq_of_mem_if member
      omega
  | finish newline =>
      have same := eq_of_mem_if member
      omega

theorem matchAt_bounds {mustAdvance : Bool} (matched : r.matchAt text mustAdvance i = some stop) :
    i ≤ stop ∧ stop ≤ max i text.length :=
  ends_bounds (List.mem_of_find?_eq_some matched)

theorem finditerFrom_bounds {fuel : Nat} {mustAdvance : Bool} {span : Nat × Nat}
    (member : span ∈ r.finditerFrom text fuel mustAdvance i) :
    i ≤ span.1 ∧ span.1 ≤ span.2 ∧ span.2 ≤ text.length := by
  induction fuel generalizing mustAdvance i with
  | zero => cases member
  | succ fuel ih =>
      rw [finditerFrom] at member
      split at member
      · cases member
      next inside =>
        split at member
        next stop matched =>
          have bounds := matchAt_bounds matched
          rcases List.mem_cons.mp member with same | later
          · subst same
            dsimp only
            omega
          · have after := ih later
            exact ⟨by omega, after.2⟩
        next => exact ⟨Nat.le_of_succ_le (ih member).1, (ih member).2⟩

theorem finditer_bounds {span : Nat × Nat} (member : span ∈ r.finditer text) :
    span.1 ≤ span.2 ∧ span.2 ≤ text.length :=
  (finditerFrom_bounds member).2

theorem finditerFrom_ends {fuel : Nat} {mustAdvance : Bool} {span : Nat × Nat}
    (member : span ∈ r.finditerFrom text fuel mustAdvance i) : span.2 ∈ r.ends text span.1 := by
  induction fuel generalizing mustAdvance i with
  | zero => cases member
  | succ fuel ih =>
      rw [finditerFrom] at member
      split at member
      · cases member
      · split at member
        next stop matched =>
          rcases List.mem_cons.mp member with rfl | later
          · exact List.mem_of_find?_eq_some matched
          · exact ih later
        next => exact ih member

end Bounds

/-! What a match is made of. -/

section Only

variable {P : α → Prop} {text : List α} {r : Regex α} {i stop : Nat}

/-- Every character that the pattern consumes has the property. -/
def Only (P : α → Prop) : Regex α → Prop
  | .set accepts => ∀ ch, accepts ch = true → P ch
  | .seq first second => first.Only P ∧ second.Only P
  | .alt first second => first.Only P ∧ second.Only P
  | .repeated body _ => body.Only P
  | .empty | .ahead _ | .notAhead _ | .notBehind _ | .boundary _ | .finish _ => True

/-- The characters between two places of a text. -/
def Between (P : α → Prop) (text : List α) (i stop : Nat) : Prop :=
  ∀ k ch, i ≤ k → k < stop → text[k]? = some ch → P ch

theorem Between.trans {middle : Nat} (first : Between P text i middle)
    (second : Between P text middle stop) : Between P text i stop := by
  intro k ch from' before at'
  by_cases left : k < middle
  · exact first k ch from' left at'
  · exact second k ch (Nat.le_of_not_lt left) before at'

theorem Between.refl : Between P text i i := fun _ _ from' before =>
  absurd before (Nat.not_lt.mpr from')

theorem repeatEnds_between {step : Nat → List Nat}
    (only : ∀ i, ∀ stop ∈ step i, Between P text i stop) {limit : Nat}
    (member : stop ∈ repeatEnds step limit i) : Between P text i stop := by
  induction limit generalizing i with
  | zero =>
      rw [List.mem_singleton.mp member]
      exact .refl
  | succ limit ih =>
      simp only [repeatEnds, List.mem_append, List.mem_flatMap, List.mem_filter,
        List.mem_singleton] at member
      rcases member with ⟨next, ⟨reached, -⟩, later⟩ | rfl
      · exact (only i next reached).trans (ih later)
      · exact .refl

theorem Only.ends (only : r.Only P) (member : stop ∈ r.ends text i) : Between P text i stop := by
  induction r generalizing i stop with
  | empty =>
      rw [List.mem_singleton.mp member]
      exact .refl
  | set accepts =>
      rw [Regex.ends] at member
      split at member
      · next holds =>
          rw [List.mem_singleton] at member
          intro k ch from' before at'
          obtain rfl : k = i := by omega
          rw [holdsAt, at', Option.any_some] at holds
          exact only ch holds
      · cases member
  | seq first second firstIh secondIh =>
      obtain ⟨middle, reached, later⟩ := List.mem_flatMap.mp member
      exact (firstIh only.1 reached).trans (secondIh only.2 later)
  | alt first second firstIh secondIh =>
      rcases List.mem_append.mp member with left | right
      · exact firstIh only.1 left
      · exact secondIh only.2 right
  | repeated body limit ih => exact repeatEnds_between (fun i stop => ih only) member
  | ahead body ih =>
      rw [eq_of_mem_unless member]
      exact .refl
  | notAhead body ih =>
      rw [eq_of_mem_if member]
      exact .refl
  | notBehind accepts =>
      rw [eq_of_mem_unless member]
      exact .refl
  | boundary word =>
      rw [eq_of_mem_if member]
      exact .refl
  | finish newline =>
      rw [eq_of_mem_if member]
      exact .refl

theorem Only.piece (only : r.Only P) {span : Nat × Nat} (member : span ∈ r.finditer text) :
    ∀ ch ∈ (text.drop span.1).take (span.2 - span.1), P ch := by
  have within := only.ends (finditerFrom_ends member)
  intro ch inPiece
  obtain ⟨k, at'⟩ := List.getElem?_of_mem inPiece
  rw [List.getElem?_take] at at'
  split at at'
  · next before =>
      rw [List.getElem?_drop] at at'
      exact within (span.1 + k) ch (Nat.le_add_right _ _) (by omega) at'
  · cases at'

theorem only_times (only : r.Only P) (count : Nat) : (times r count).Only P := by
  induction count with
  | zero => trivial
  | succ count ih => exact ⟨only, ih⟩

end Only

end Regex

end DecoyEngine.Data
