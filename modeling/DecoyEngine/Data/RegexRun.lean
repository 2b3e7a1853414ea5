import DecoyEngine.Data.Regex

namespace DecoyEngine.Data.Regex

/-! A pattern followed by the rest of the match.

`run text r i rest` is the first answer of `rest` along the ends of `r`: what a
backtracking matcher computes with `rest` as its continuation.  Each constructor
has one law, and greedy repetitions of a character set have one end where the
rest cannot start on a character of the set. -/

variable {α : Type u} {β : Type v} {text : List α}

def run (text : List α) (r : Regex α) (i : Nat) (rest : Nat → Option β) : Option β :=
  (r.ends text i).findSome? rest

theorem findSome_flatMap {γ δ : Type _} (xs : List γ) (f : γ → List δ) (rest : δ → Option β) :
    (xs.flatMap f).findSome? rest = xs.findSome? (fun x => (f x).findSome? rest) := by
  induction xs with
  | nil => rfl
  | cons x xs ih =>
      rw [List.flatMap_cons, List.findSome?_append, List.findSome?_cons, ih]
      cases (f x).findSome? rest <;> rfl

variable {r first second body : Regex α} {accepts : α → Bool} {rest : Nat → Option β} {i : Nat}

section Laws

attribute [local simp] ends

@[simp] theorem run_empty : run text .empty i rest = rest i := by simp [run]

@[simp] theorem run_set :
    run text (.set accepts) i rest = if holdsAt accepts text i then rest (i + 1) else none := by
  rw [run, ends]
  split <;> simp

@[simp] theorem run_seq :
    run text (.seq first second) i rest =
      run text first i (fun j => run text second j rest) := by
  rw [run, ends, findSome_flatMap]
  rfl

@[simp] theorem run_alt :
    run text (.alt first second) i rest = (run text first i rest).or (run text second i rest) := by
  rw [run, ends, List.findSome?_append]
  rfl

@[simp] theorem run_ahead :
    run text (.ahead body) i rest =
      if (run text body i some).isSome then rest i else none := by
  rw [run, ends, run]
  cases body.ends text i <;> simp

@[simp] theorem run_notAhead :
    run text (.notAhead body) i rest =
      if (run text body i some).isSome then none else rest i := by
  rw [run, ends, run]
  cases body.ends text i <;> simp

@[simp] theorem run_notBehind :
    run text (.notBehind accepts) i rest =
      if 0 < i && holdsAt accepts text (i - 1) then none else rest i := by
  rw [run, ends]
  split <;> simp

@[simp] theorem run_boundary {word : α → Bool} :
    run text (.boundary word) i rest =
      if (0 < i && holdsAt word text (i - 1)) != holdsAt word text i then rest i else none := by
  rw [run, ends]
  split <;> simp

@[simp] theorem run_finish {newline : α → Bool} :
    run text (.finish newline) i rest =
      if i = text.length || (i + 1 = text.length && holdsAt newline text i) then rest i
      else none := by
  rw [run, ends]
  split <;> simp

end Laws

theorem mem_of_run {stop : Nat} (matched : run text r i some = some stop) :
    stop ∈ r.ends text i := by
  obtain ⟨j, member, same⟩ := List.exists_of_findSome?_eq_some matched
  exact Option.some.inj same ▸ member

theorem matchAt_eq_run : r.matchAt text false i = run text r i some := by
  rw [matchAt, run]
  cases r.ends text i <;> simp

/-! Repetitions. -/

/-- The pattern takes at least one character, wherever it matches. -/
def Consumes (text : List α) (r : Regex α) : Prop :=
  ∀ i, ∀ stop ∈ r.ends text i, i < stop ∧ stop ≤ text.length

theorem consumes_set : Consumes text (.set accepts) := by
  intro i stop member
  rw [ends] at member
  split at member
  · next holds =>
      have inside := holdsAt_lt holds
      rw [List.mem_singleton] at member
      omega
  · cases member

theorem consumes_seq (consumes : Consumes text first) : Consumes text (.seq first second) := by
  intro i stop member
  rw [ends, List.mem_flatMap] at member
  obtain ⟨middle, reached, later⟩ := member
  have near := consumes i middle reached
  have far := ends_bounds later
  omega

theorem consumes_after (consumes : Consumes text second) : Consumes text (.seq first second) := by
  intro i stop member
  rw [ends, List.mem_flatMap] at member
  obtain ⟨middle, reached, later⟩ := member
  have near := ends_bounds reached
  have far := consumes middle stop later
  omega

theorem findSome_repeatEnds {step : Nat → List Nat} (consumes : ∀ i, ∀ stop ∈ step i, i < stop)
    (limit : Nat) :
    (repeatEnds step (limit + 1) i).findSome? rest =
      ((step i).findSome? (fun j => (repeatEnds step limit j).findSome? rest)).or (rest i) := by
  have all : (step i).filter (fun j => i < j) = step i :=
    List.filter_eq_self.mpr fun stop member => by simpa using consumes i stop member
  have last : [i].findSome? rest = rest i := by
    cases answer : rest i <;> simp [answer]
  rw [repeatEnds, List.findSome?_append, findSome_flatMap, all, last]

theorem run_upTo_zero : run text (.repeated body (some 0)) i rest = rest i := by
  simp [run, ends, repeatEnds]

theorem run_upTo_succ (consumes : Consumes text body) (limit : Nat) :
    run text (.repeated body (some (limit + 1))) i rest =
      (run text body i (fun j => run text (.repeated body (some limit)) j rest)).or (rest i) :=
  findSome_repeatEnds (fun i stop member => (consumes i stop member).1) limit

theorem run_opt (consumes : Consumes text body) :
    run text (opt body) i rest = (run text body i rest).or (rest i) := by
  rw [opt, run_upTo_succ consumes]
  simp only [run_upTo_zero]

/-! Greedy runs over a character set. -/

/-- Where the characters of a set end, from `i` on: `while holdsAt accepts text i: i += 1`. -/
def skip (accepts : α → Bool) (text : List α) (i : Nat) : Nat :=
  i + ((text.drop i).takeWhile accepts).length

theorem skip_of_holds (holds : holdsAt accepts text i = true) :
    skip accepts text i = skip accepts text (i + 1) := by
  have inside := holdsAt_lt holds
  have here : accepts (text[i]) = true := by simpa [holdsAt, inside] using holds
  rw [skip, skip, List.drop_eq_getElem_cons inside, List.takeWhile_cons_of_pos here,
    List.length_cons]
  omega

theorem skip_of_not (stops : holdsAt accepts text i = false) : skip accepts text i = i := by
  rw [skip]
  by_cases inside : i < text.length
  · have here : ¬ accepts (text[i]) = true := by simpa [holdsAt, inside] using stops
    rw [List.drop_eq_getElem_cons inside, List.takeWhile_cons_of_neg here]
    rfl
  · rw [List.drop_eq_nil_of_le (Nat.le_of_not_lt inside)]
    rfl

theorem le_skip (accepts : α → Bool) (text : List α) (i : Nat) : i ≤ skip accepts text i :=
  Nat.le_add_right i _

theorem skip_le (inside : i ≤ text.length) : skip accepts text i ≤ text.length := by
  have taken := (List.takeWhile_sublist accepts (l := text.drop i)).length_le
  rw [List.length_drop] at taken
  rw [skip]
  omega

theorem lt_skip_iff : i < skip accepts text i ↔ holdsAt accepts text i = true := by
  cases holds : holdsAt accepts text i with
  | false => simp [skip_of_not holds]
  | true =>
      have onward := le_skip accepts text (i + 1)
      rw [← skip_of_holds holds] at onward
      exact iff_of_true onward rfl

/-- The rest of the match cannot start on a character of the set. -/
def FailsOn (accepts : α → Bool) (text : List α) (rest : Nat → Option β) : Prop :=
  ∀ j, holdsAt accepts text j = true → rest j = none

/-- `set{0,limit}` has one end: where the run of the set ends, if the limit reaches there. -/
theorem run_upTo_set (fails : FailsOn accepts text rest) (limit : Nat) :
    run text (.repeated (.set accepts) (some limit)) i rest =
      if skip accepts text i ≤ i + limit then rest (skip accepts text i) else none := by
  induction limit generalizing i with
  | zero =>
      rw [run_upTo_zero]
      cases holds : holdsAt accepts text i with
      | false => simp [skip_of_not holds]
      | true =>
          have onward := lt_skip_iff.mpr holds
          rw [if_neg (by omega), fails i holds]
  | succ limit ih =>
      rw [run_upTo_succ consumes_set, run_set]
      cases holds : holdsAt accepts text i with
      | false => simp [skip_of_not holds]
      | true =>
          simp only [if_true, ih, skip_of_holds holds, fails i holds, Option.or_none]
          simp only [Nat.add_assoc, Nat.add_comm 1]

theorem run_star_eq_upTo :
    run text (star body) i rest = run text (.repeated body (some (text.length - i))) i rest := rfl

theorem run_star_set (fails : FailsOn accepts text rest) :
    run text (star (.set accepts)) i rest = rest (skip accepts text i) := by
  rw [run_star_eq_upTo, run_upTo_set fails]
  by_cases inside : i ≤ text.length
  · have reach : skip accepts text i ≤ text.length := skip_le inside
    rw [if_pos (by omega)]
  · have outside : holdsAt accepts text i = false := by
      cases holds : holdsAt accepts text i with
      | false => rfl
      | true => exact absurd (holdsAt_lt holds) (by omega)
    simp [skip_of_not outside]

theorem run_plus_set (fails : FailsOn accepts text rest) :
    run text (plus (.set accepts)) i rest =
      if holdsAt accepts text i then rest (skip accepts text i) else none := by
  rw [plus, run_seq, run_set]
  cases holds : holdsAt accepts text i with
  | false => rfl
  | true => simp only [if_true, run_star_set fails, skip_of_holds holds]

theorem run_opt_set (fails : FailsOn accepts text rest) :
    run text (opt (.set accepts)) i rest =
      if holdsAt accepts text i then rest (i + 1) else rest i := by
  rw [run_opt consumes_set, run_set]
  cases holds : holdsAt accepts text i with
  | false => simp
  | true => simp [fails i holds]

theorem run_between_set (fails : FailsOn accepts text rest) (limit : Nat) :
    run text (between (.set accepts) 1 (limit + 1)) i rest =
      if i < skip accepts text i ∧ skip accepts text i ≤ i + (limit + 1) then
        rest (skip accepts text i)
      else none := by
  simp only [between, run_seq, times, run_set, run_empty]
  cases holds : holdsAt accepts text i with
  | false => simp [lt_skip_iff, holds]
  | true =>
      simp only [if_true, Nat.add_sub_cancel, run_upTo_set fails, ← skip_of_holds holds,
        lt_skip_iff.mpr holds, true_and, Nat.add_assoc, Nat.add_comm 1]

/-! Fixed sequences of character sets. -/

/-- Each test in turn holds of the characters from `i` on. -/
def allAt : List (α → Bool) → List α → Nat → Bool
  | [], _, _ => true
  | test :: tests, text, i => holdsAt test text i && allAt tests text (i + 1)

theorem run_all_cons {parts : List (Regex α)} :
    run text (all (r :: parts)) i rest = run text r i (fun j => run text (all parts) j rest) :=
  run_seq

@[simp] theorem run_all_nil : run text (all []) i rest = rest i := run_empty

theorem run_all_set (tests : List (α → Bool)) :
    run text (all (tests.map .set)) i rest =
      if allAt tests text i then rest (i + tests.length) else none := by
  induction tests generalizing i with
  | nil => simp [allAt]
  | cons test tests ih =>
      rw [List.map_cons, run_all_cons, run_set, allAt]
      cases holds : holdsAt test text i with
      | false => simp
      | true => simp [ih, Nat.add_assoc, Nat.add_comm 1]

theorem times_eq_all (count : Nat) : times r count = all (List.replicate count r) := by
  induction count with
  | zero => rfl
  | succ count ih => rw [times, ih, List.replicate_succ, all, all, List.foldr_cons]

theorem run_times_set {count : Nat} :
    run text (times (.set accepts) count) i rest =
      if allAt (List.replicate count accepts) text i then rest (i + count) else none := by
  rw [times_eq_all, ← List.map_replicate, run_all_set, List.length_replicate]

theorem allAt_le {tests : List (α → Bool)} (some : tests ≠ []) (holds : allAt tests text i = true) :
    i + tests.length ≤ text.length := by
  induction tests generalizing i with
  | nil => exact absurd rfl some
  | cons test tests ih =>
      simp only [allAt, Bool.and_eq_true] at holds
      have here := holdsAt_lt holds.1
      cases tests with
      | nil => exact here
      | cons next others =>
          have later := ih (by simp) holds.2
          simp only [List.length_cons] at later ⊢
          omega

theorem run_oneOf_cons {next : Regex α} {others : List (Regex α)} :
    run text (oneOf r (next :: others)) i rest =
      (run text r i rest).or (run text (oneOf next others) i rest) := run_alt

theorem run_oneOf (branches : List (Regex α)) :
    run text (oneOf r branches) i rest =
      (r :: branches).findSome? (fun branch => run text branch i rest) := by
  induction branches generalizing r with
  | nil =>
      rw [oneOf, List.findSome?_cons]
      cases run text r i rest <;> rfl
  | cons next others ih =>
      rw [run_oneOf_cons, ih, List.findSome?_cons (a := r)]
      cases run text r i rest <;> rfl

/-! Where the rest cannot start. -/

theorem failsOn_set {other : α → Bool}
    (disjoint : ∀ x ∈ text, other x = true → accepts x = false) :
    FailsOn other text (fun j => run text (.set accepts) j rest) := by
  intro j holds
  have inside := holdsAt_lt holds
  have here : other (text[j]) = true := by simpa [holdsAt, inside] using holds
  simp [holdsAt, inside, disjoint _ (List.getElem_mem inside) here]

theorem failsOn_plus_set {other : α → Bool}
    (disjoint : ∀ x ∈ text, other x = true → accepts x = false) :
    FailsOn other text (fun j => run text (plus (.set accepts)) j rest) := by
  intro j holds
  simp only [plus, run_seq]
  exact failsOn_set disjoint j holds

theorem findSome_congr {γ : Type _} {xs : List γ} {f g : γ → Option β}
    (same : ∀ x ∈ xs, f x = g x) : xs.findSome? f = xs.findSome? g := by
  induction xs with
  | nil => rfl
  | cons x xs ih =>
      rw [List.findSome?_cons, List.findSome?_cons, same x (by simp),
        ih fun y member => same y (by simp [member])]

theorem findSome_bind {γ δ : Type _} {xs : List γ} {f : γ → Option δ} {next : δ → Option β}
    (alone : ∀ x ∈ xs, ∀ y ∈ xs, ∀ a b, f x = some a → f y = some b → a = b) :
    xs.findSome? (fun x => (f x).bind next) = (xs.findSome? f).bind next := by
  induction xs with
  | nil => rfl
  | cons x xs ih =>
      have tail := ih fun y yIn z zIn => alone y (by simp [yIn]) z (by simp [zIn])
      rw [List.findSome?_cons, List.findSome?_cons, tail]
      cases found : f x with
      | none => rfl
      | some a =>
          cases answer : next a with
          | some result => simp [answer]
          | none =>
              simp only [Option.bind_some, answer]
              cases later : xs.findSome? f with
              | none => rfl
              | some b =>
                  obtain ⟨y, yIn, reached⟩ := List.exists_of_findSome?_eq_some later
                  have same := alone x (by simp) y (by simp [yIn]) a b found reached
                  rw [← same, Option.bind_some, answer]

/-! Scanning with a pattern that never matches empty. -/

theorem finditerFrom_consuming (consumes : Consumes text r) {fuel : Nat} {i : Nat} :
    finditerFrom r text (fuel + 1) false i =
      if text.length < i then []
      else
        match run text r i some with
        | some stop => (i, stop) :: finditerFrom r text fuel false stop
        | none => finditerFrom r text fuel false (i + 1) := by
  rw [finditerFrom, matchAt_eq_run]
  split
  · rfl
  · cases matched : run text r i some with
    | none => rfl
    | some stop =>
        have onward := consumes i stop (mem_of_run matched)
        have moved : (stop == i) = false := by
          rw [beq_eq_false_iff_ne]
          omega
        simp only [moved]

end DecoyEngine.Data.Regex
