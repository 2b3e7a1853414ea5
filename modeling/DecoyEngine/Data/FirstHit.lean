import Mathlib.Data.List.Nodup
import Mathlib.Logic.Nontrivial.Defs

namespace DecoyEngine.Data

/-! First-hit lookup through a list of sources.

Asking the sources of a list in order and taking the first answer depends on the
list only through the order in which its members first occur. -/

variable {α : Type u} {β : Type v} [BEq α] [LawfulBEq α]

theorem nodup_eraseDups (xs : List α) : xs.eraseDups.Nodup := by
  induction hn : xs.length using Nat.strongRecOn generalizing xs with
  | ind n ih =>
      cases xs with
      | nil => simp
      | cons x xs =>
          have shorter : (xs.filter (fun y => !y == x)).length < n := by
            have := List.length_filter_le (fun y => !y == x) xs
            rw [← hn, List.length_cons]
            omega
          rw [List.eraseDups_cons, List.nodup_cons]
          refine ⟨?_, ih _ shorter _ rfl⟩
          rw [List.mem_eraseDups]
          simp

omit [LawfulBEq α] in
theorem eraseDups_sublist (xs : List α) : xs.eraseDups.Sublist xs := by
  induction hn : xs.length using Nat.strongRecOn generalizing xs with
  | ind n ih =>
      cases xs with
      | nil => simp
      | cons x xs =>
          have shorter : (xs.filter (fun y => !y == x)).length < n := by
            have := List.length_filter_le (fun y => !y == x) xs
            rw [← hn, List.length_cons]
            omega
          rw [List.eraseDups_cons]
          exact ((ih _ shorter _ rfl).trans List.filter_sublist).cons_cons x

theorem findSome_filter_ne (f : α → Option β) {x : α} (xs : List α) (miss : f x = none) :
    (xs.filter (fun y => !y == x)).findSome? f = xs.findSome? f := by
  induction xs with
  | nil => rfl
  | cons y ys ih =>
      by_cases same : y = x
      · simp [same, miss, ih]
      · simp [same, ih, List.findSome?_cons]

theorem findSome_eraseDups (f : α → Option β) (xs : List α) :
    xs.eraseDups.findSome? f = xs.findSome? f := by
  induction hn : xs.length using Nat.strongRecOn generalizing xs with
  | ind n ih =>
      cases xs with
      | nil => rfl
      | cons x xs =>
          have shorter : (xs.filter (fun y => !y == x)).length < n := by
            have := List.length_filter_le (fun y => !y == x) xs
            rw [← hn, List.length_cons]
            omega
          rw [List.eraseDups_cons, List.findSome?_cons, List.findSome?_cons]
          cases answer : f x with
          | some value => rfl
          | none =>
              rw [ih _ shorter _ rfl]
              exact findSome_filter_ne f xs answer

omit [BEq α] [LawfulBEq α] in
theorem eq_of_findSome [Nontrivial β] {xs ys : List α} (xsDistinct : xs.Nodup)
    (ysDistinct : ys.Nodup) (agree : ∀ f : α → Option β, xs.findSome? f = ys.findSome? f) :
    xs = ys := by
  classical
  obtain ⟨first, second, different⟩ := exists_pair_ne β
  induction xs generalizing ys with
  | nil =>
      cases ys with
      | nil => rfl
      | cons y ys => simpa using agree (fun _ => some first)
  | cons x xs ih =>
      cases ys with
      | nil => simpa using agree (fun _ => some first)
      | cons y ys =>
          have heads : x = y := by
            by_contra apart
            have answers := agree (fun z => if z = x then some first else some second)
            have other : ¬ y = x := fun same => apart same.symm
            simp only [List.findSome?_cons, if_true, other, if_false] at answers
            exact different (Option.some.inj answers)
          subst heads
          obtain ⟨xFresh, xsRest⟩ := List.nodup_cons.mp xsDistinct
          obtain ⟨yFresh, ysRest⟩ := List.nodup_cons.mp ysDistinct
          refine congrArg (x :: ·) (ih xsRest ysRest fun f => ?_)
          -- silence the shared head, which occurs in neither tail
          have answers := agree (fun z => if z = x then none else f z)
          have silent : ∀ {zs : List α}, x ∉ zs →
              zs.findSome? (fun z => if z = x then none else f z) = zs.findSome? f := by
            intro zs fresh
            induction zs with
            | nil => rfl
            | cons z zs ih =>
                have other : ¬ z = x := fun same => fresh (same ▸ List.mem_cons_self)
                have rest := ih (fun member => fresh (List.mem_cons_of_mem _ member))
                simp [List.findSome?_cons, other, rest]
          simpa [List.findSome?_cons, silent xFresh, silent yFresh] using answers

/-- Two precedence lists agree on every lookup exactly when their members first occur
in the same order. -/
theorem findSome_agree_iff [Nontrivial β] (xs ys : List α) :
    (∀ f : α → Option β, xs.findSome? f = ys.findSome? f) ↔ xs.eraseDups = ys.eraseDups := by
  constructor
  · intro agree
    have distinctAgree : ∀ f : α → Option β,
        xs.eraseDups.findSome? f = ys.eraseDups.findSome? f := by
      intro f
      rw [findSome_eraseDups, findSome_eraseDups, agree]
    exact eq_of_findSome (nodup_eraseDups xs) (nodup_eraseDups ys) distinctAgree
  · intro same f
    rw [← findSome_eraseDups f xs, same, findSome_eraseDups]

end DecoyEngine.Data
