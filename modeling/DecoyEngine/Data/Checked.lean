import Mathlib.Data.List.Forall2

namespace DecoyEngine.Data

/-! Loops that stop at the first failure. -/

variable {α β : Type u} {ε : Type v}

theorem bind_eq_ok {x : Except ε α} {f : α → Except ε β} {result : β}
    (run : (x >>= f) = .ok result) : ∃ value, x = .ok value ∧ f value = .ok result := by
  cases x with
  | error error => cases run
  | ok value => exact ⟨value, rfl, run⟩

theorem ok_bind (value : α) (f : α → Except ε β) : (Except.ok value >>= f) = f value := rfl

theorem bind_eq_ok_iff {x : Except ε α} {f : α → Except ε β} {result : β} :
    (x >>= f) = .ok result ↔ ∃ value, x = .ok value ∧ f value = .ok result := by
  constructor
  · exact bind_eq_ok
  · intro ⟨value, first, second⟩
    rw [first]
    exact second

theorem mapM_eq_ok {f : α → Except ε β} {xs : List α} {ys : List β} :
    xs.mapM f = .ok ys ↔ List.Forall₂ (fun x y => f x = .ok y) xs ys := by
  induction xs generalizing ys with
  | nil =>
      rw [List.mapM_nil, List.forall₂_nil_left_iff]
      constructor
      · intro same
        cases same
        rfl
      · intro empty
        rw [empty]
        rfl
  | cons x xs ih =>
      rw [List.mapM_cons, List.forall₂_cons_left_iff]
      cases head : f x with
      | error error => simp [bind, Except.bind]
      | ok y =>
          cases tail : xs.mapM f with
          | error error =>
              have none' : ∀ zs, ¬ List.Forall₂ (fun x y => f x = .ok y) xs zs := by
                intro zs all
                rw [← ih, tail] at all
                cases all
              simp [bind, Except.bind, none']
          | ok zs =>
              have rest : ∀ us, List.Forall₂ (fun x y => f x = .ok y) xs us ↔ zs = us := by
                intro us
                rw [← ih, tail, Except.ok.injEq]
              simp only [bind, Except.bind, pure, Except.pure, Except.ok.injEq, rest]
              constructor
              · intro same
                exact ⟨y, zs, rfl, rfl, same.symm⟩
              · rintro ⟨y', us, rfl, rfl, same⟩
                exact same.symm

theorem exists_right_of_forall₂ {R : α → β → Prop} {xs : List α} {ys : List β}
    (related : List.Forall₂ R xs ys) {x : α} (member : x ∈ xs) : ∃ y ∈ ys, R x y := by
  induction related with
  | nil => cases member
  | cons head tail ih =>
      cases List.mem_cons.mp member with
      | inl isHead => exact ⟨_, List.mem_cons_self, isHead ▸ head⟩
      | inr inTail =>
          obtain ⟨y, inRest, holds⟩ := ih inTail
          exact ⟨y, List.mem_cons_of_mem _ inRest, holds⟩

theorem exists_left_of_forall₂ {R : α → β → Prop} {xs : List α} {ys : List β}
    (related : List.Forall₂ R xs ys) {y : β} (member : y ∈ ys) : ∃ x ∈ xs, R x y :=
  exists_right_of_forall₂ related.flip member

theorem exists_result_of_mapM {f : α → Except ε β} {xs : List α} {ys : List β}
    (success : xs.mapM f = .ok ys) {x : α} (member : x ∈ xs) : ∃ y ∈ ys, f x = .ok y :=
  exists_right_of_forall₂ (mapM_eq_ok.mp success) member

theorem exists_source_of_mapM {f : α → Except ε β} {xs : List α} {ys : List β}
    (success : xs.mapM f = .ok ys) {y : β} (member : y ∈ ys) : ∃ x ∈ xs, f x = .ok y :=
  exists_left_of_forall₂ (mapM_eq_ok.mp success) member

theorem exists_of_mapM_error {f : α → Except ε β} {xs : List α} {error : ε}
    (failed : xs.mapM f = .error error) : ∃ x ∈ xs, f x = .error error := by
  induction xs with
  | nil => cases failed
  | cons x xs ih =>
      rw [List.mapM_cons] at failed
      cases head : f x with
      | error other =>
          rw [head] at failed
          cases failed
          exact ⟨x, List.mem_cons_self, head⟩
      | ok y =>
          cases tail : xs.mapM f with
          | error other =>
              rw [head, tail] at failed
              cases failed
              obtain ⟨z, member, raised⟩ := ih tail
              exact ⟨z, List.mem_cons_of_mem _ member, raised⟩
          | ok zs =>
              rw [head, tail] at failed
              cases failed

theorem exists_mapM {f : α → Except ε β} {xs : List α} (total : ∀ x ∈ xs, ∃ y, f x = .ok y) :
    ∃ ys, xs.mapM f = .ok ys := by
  cases run : xs.mapM f with
  | ok ys => exact ⟨ys, rfl⟩
  | error error =>
      obtain ⟨x, member, failed⟩ := exists_of_mapM_error run
      obtain ⟨y, ran⟩ := total x member
      rw [ran] at failed
      cases failed

theorem mapM_mapError {δ : Type v} (g : ε → δ) (f : α → Except ε β) (xs : List α) :
    xs.mapM (fun x => (f x).mapError g) = (xs.mapM f).mapError g := by
  induction xs with
  | nil => rfl
  | cons x xs ih =>
      rw [List.mapM_cons, List.mapM_cons, ih]
      cases f x with
      | error error => rfl
      | ok y => cases xs.mapM f <;> rfl

theorem mapM_append_error {f : α → Except ε β} {front : List α} (back : List α) {x : α}
    {error : ε} (before : ∀ y ∈ front, ∃ z, f y = .ok z) (failed : f x = .error error) :
    (front ++ x :: back).mapM f = .error error := by
  obtain ⟨ys, ran⟩ := exists_mapM before
  rw [List.mapM_append, ran, List.mapM_cons, failed]
  rfl

theorem mapM_fuse {γ : Type u} {f : α → Except ε β} {g : β → Except ε γ} {xs : List α}
    (total : (∀ x ∈ xs, ∃ y, f x = .ok y) ∨
      ∀ x ∈ xs, ∀ y, f x = .ok y → ∃ z, g y = .ok z) :
    (xs.mapM f >>= fun ys => ys.mapM g) = xs.mapM fun x => f x >>= g := by
  induction xs with
  | nil => rfl
  | cons x xs ih =>
      have later := ih (total.imp (fun all y member => all y (List.mem_cons_of_mem _ member))
        fun all y member => all y (List.mem_cons_of_mem _ member))
      rw [List.mapM_cons, List.mapM_cons, ← later]
      cases head : f x with
      | error error => rfl
      | ok y =>
          cases tail : xs.mapM f with
          | ok ys => exact List.mapM_cons (m := Except ε)
          | error error =>
              cases second : g y with
              | ok z =>
                  simp only [bind, Except.bind, second]
              | error other =>
                  rcases total with all | all
                  · obtain ⟨ys, ran⟩ := exists_mapM fun y member =>
                      all y (List.mem_cons_of_mem _ member)
                    rw [tail] at ran
                    cases ran
                  · obtain ⟨z, ran⟩ := all x List.mem_cons_self y head
                    rw [second] at ran
                    cases ran

theorem forM_eq_ok {f : α → Except ε PUnit} {xs : List α} :
    xs.forM f = .ok () ↔ ∀ x ∈ xs, f x = .ok () := by
  induction xs with
  | nil => simp [pure, Except.pure]
  | cons x xs ih =>
      have unfolded : (x :: xs).forM f = f x >>= fun _ => xs.forM f := rfl
      rw [unfolded, List.forall_mem_cons, ← ih]
      cases f x with
      | error error => simp [bind, Except.bind]
      | ok done => simp [bind, Except.bind]

theorem mapM_eq_some {f : α → Option β} {xs : List α} {ys : List β} :
    xs.mapM f = some ys ↔ List.Forall₂ (fun x y => f x = some y) xs ys := by
  induction xs generalizing ys with
  | nil =>
      rw [List.mapM_nil, List.forall₂_nil_left_iff]
      exact ⟨fun same => (Option.some.inj same).symm, fun empty => congrArg some empty.symm⟩
  | cons x xs ih =>
      rw [List.mapM_cons, List.forall₂_cons_left_iff]
      simp only [Option.bind_eq_bind, Option.bind_eq_some_iff, ih]
      constructor
      · rintro ⟨y, head, zs, tail, same⟩
        exact ⟨y, zs, head, tail, (Option.some.inj same).symm⟩
      · rintro ⟨y, zs, head, tail, rfl⟩
        exact ⟨y, head, zs, tail, rfl⟩

theorem mapM_flatten_some {f : α → Option β} {groups : List (List α)} {ys : List β}
    (success : groups.flatten.mapM f = some ys) :
    ∃ lists, groups.mapM (fun group => group.mapM f) = some lists ∧ lists.flatten = ys := by
  induction groups generalizing ys with
  | nil => exact ⟨[], rfl, Option.some.inj success⟩
  | cons group groups ih =>
      rw [List.flatten_cons, List.mapM_append] at success
      simp only [Option.bind_eq_bind, Option.bind_eq_some_iff] at success
      obtain ⟨first, head, rest, tail, same⟩ := success
      obtain ⟨lists, later, flat⟩ := ih tail
      refine ⟨first :: lists, ?_, ?_⟩
      · rw [List.mapM_cons, head, later]
        rfl
      · rw [List.flatten_cons, flat]
        exact Option.some.inj same

section Fold

variable {σ : Type v} {f : σ → α → Except ε σ} {xs : List α} {start final : σ}

theorem foldlM_cons_ok {x : α} (run : (x :: xs).foldlM f start = .ok final) :
    ∃ middle, f start x = .ok middle ∧ xs.foldlM f middle = .ok final := by
  rw [List.foldlM_cons] at run
  cases head : f start x with
  | error error =>
      rw [head] at run
      cases run
  | ok middle =>
      rw [head] at run
      exact ⟨middle, rfl, run⟩

theorem foldlM_preserves {P : σ → Prop}
    (step : ∀ {state x next}, P state → f state x = .ok next → P next)
    (holds : P start) (run : xs.foldlM f start = .ok final) : P final := by
  induction xs generalizing start with
  | nil =>
      cases run
      exact holds
  | cons x xs ih =>
      obtain ⟨middle, head, rest⟩ := foldlM_cons_ok run
      exact ih (step holds head) rest

/-- What a step establishes for its element and later steps keep holds for every element of a
completed loop. -/
theorem foldlM_establishes {Q : α → σ → Prop}
    (establishes : ∀ {state x next}, f state x = .ok next → Q x next)
    (keeps : ∀ {state x next y}, f state x = .ok next → Q y state → Q y next)
    (run : xs.foldlM f start = .ok final) : ∀ x ∈ xs, Q x final := by
  induction xs generalizing start with
  | nil =>
      intro x member
      cases member
  | cons x xs ih =>
      obtain ⟨middle, head, rest⟩ := foldlM_cons_ok run
      intro y member
      cases List.mem_cons.mp member with
      | inl isHead =>
          rw [isHead]
          exact foldlM_preserves (fun kept next => keeps next kept) (establishes head) rest
      | inr inRest => exact ih rest y inRest

end Fold

end DecoyEngine.Data
