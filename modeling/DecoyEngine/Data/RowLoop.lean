import DecoyEngine.Data.Batches
import Mathlib.Data.List.MinMax

namespace DecoyEngine.Data

/-! A loop over rows that stops at the first failure, and the same loop cut into ranges. -/

variable {α β γ ε : Type*}

/-- The rows in order, numbered from `start`; a failure carries its row's number. -/
def rowLoop (row : α → Except ε β) : (start : Nat) → List α → Except (Nat × ε) (List β)
  | _, [] => .ok []
  | start, x :: xs =>
      match row x with
      | .error error => .error (start, error)
      | .ok y => (rowLoop row (start + 1) xs).map (y :: ·)

variable {row : α → Except ε β}

theorem rowLoop_append (start : Nat) (xs ys : List α) :
    rowLoop row start (xs ++ ys) =
      match rowLoop row start xs with
      | .error failure => .error failure
      | .ok front => (rowLoop row (start + xs.length) ys).map (front ++ ·) := by
  induction xs generalizing start with
  | nil =>
      rw [List.nil_append, rowLoop, List.length_nil, Nat.add_zero]
      cases rowLoop row start ys <;> rfl
  | cons x xs ih =>
      rw [List.cons_append, rowLoop, rowLoop]
      cases row x with
      | error error => rfl
      | ok y =>
          dsimp only
          rw [ih, List.length_cons, Nat.add_right_comm, ← Nat.add_assoc]
          cases rowLoop row (start + 1) xs with
          | error failure => rfl
          | ok front => cases rowLoop row (start + xs.length + 1) ys <;> rfl

theorem rowLoop_error_bounds {start : Nat} {xs : List α} {failure : Nat × ε}
    (failed : rowLoop row start xs = .error failure) :
    start ≤ failure.1 ∧ failure.1 < start + xs.length := by
  induction xs generalizing start with
  | nil => cases failed
  | cons x xs ih =>
      rw [rowLoop] at failed
      rw [List.length_cons]
      cases head : row x with
      | error error =>
          rw [head] at failed
          cases failed
          dsimp only
          omega
      | ok y =>
          rw [head] at failed
          cases tail : rowLoop row (start + 1) xs with
          | ok ys =>
              rw [tail] at failed
              cases failed
          | error other =>
              rw [tail] at failed
              cases failed
              have bounds := ih tail
              omega

theorem rowLoop_mapM (start : Nat) (xs : List α) :
    (rowLoop row start xs).mapError Prod.snd = xs.mapM row := by
  induction xs generalizing start with
  | nil => rfl
  | cons x xs ih =>
      rw [rowLoop, List.mapM_cons, ← ih (start + 1)]
      cases row x with
      | error error => rfl
      | ok y => cases rowLoop row (start + 1) xs <;> rfl

def failureOf : Except ε β → Option ε
  | .error failure => some failure
  | .ok _ => none

/-- The failure of the lowest row, whatever the order of the results. -/
def firstFailure (results : List (Except (Nat × ε) β)) : Option (Nat × ε) :=
  (results.filterMap failureOf).argmin Prod.fst

theorem failureOf_map (f : β → γ) (result : Except ε β) :
    failureOf (result.map f) = failureOf result := by
  cases result <;> rfl

theorem firstFailure_map (f : β → γ) (results : List (Except (Nat × ε) β)) :
    firstFailure (results.map (Except.map f)) = firstFailure results := by
  rw [firstFailure, List.filterMap_map]
  congr 1
  exact List.filterMap_congr fun result _ => failureOf_map f result

/-- What the results that did not fail hold, in order. -/
def successes (results : List (Except ε (List β))) : List β :=
  results.flatMap fun result => result.toOption.getD []

theorem argmin_cons_of_le {key : α → Nat} {x : α} {xs : List α} (least : ∀ y ∈ xs, key x ≤ key y) :
    (x :: xs).argmin key = some x := by
  rw [List.argmin_cons]
  cases found : xs.argmin key with
  | none => rfl
  | some y =>
      have above := least y (List.argmin_mem found)
      exact if_neg (Nat.not_lt.mpr above)

theorem failures_bounds (row : α → Except ε β) {stop : Nat} (rows : List α) {ranges : List (Nat × Nat)}
    {start : Nat} (abuts : Abuts start stop ranges) :
    ∀ failure ∈ (ranges.map fun range => rowLoop row range.1 (rowSlice rows range)).filterMap
      failureOf, start ≤ failure.1 := by
  induction ranges generalizing start with
  | nil => exact List.forall_mem_nil _
  | cons range ranges ih =>
      obtain ⟨rfl, ordered, rest⟩ := abuts
      intro failure member
      rw [List.map_cons, List.filterMap_cons] at member
      have later := ih rest failure
      cases head : rowLoop row range.1 (rowSlice rows range) with
      | ok ys =>
          rw [head] at member
          exact Nat.le_trans ordered (later member)
      | error first =>
          rw [head] at member
          rcases List.mem_cons.mp member with isFirst | inRest
          · rw [isFirst]
            exact (rowLoop_error_bounds head).1
          · exact Nat.le_trans ordered (later inRest)

/-- The loop over the whole is its ranges' loops: the failure of the lowest row, or all rows. -/
theorem rowLoop_ranges (row : α → Except ε β) {rows : List α} {ranges : List (Nat × Nat)} {start : Nat}
    (abuts : Abuts start rows.length ranges) :
    let results := ranges.map fun range => rowLoop row range.1 (rowSlice rows range)
    rowLoop row start (rows.drop start) =
      match firstFailure results with
      | some failure => .error failure
      | none => .ok (successes results) := by
  dsimp only
  induction ranges generalizing start with
  | nil =>
      have done : start = rows.length := abuts
      rw [done, List.drop_length]
      rfl
  | cons range ranges ih =>
      obtain ⟨rfl, ordered, rest⟩ := abuts
      have size : (rowSlice rows range).length = range.2 - range.1 := length_rowSlice rest.le
      rw [← rowSlice_append_drop ordered rows, rowLoop_append, size,
        Nat.add_sub_cancel' ordered, ih rest, List.map_cons]
      cases head : rowLoop row range.1 (rowSlice rows range) with
      | error failure =>
          have bounds := rowLoop_error_bounds head
          rw [size] at bounds
          have least := failures_bounds row rows rest
          have first : firstFailure (.error failure ::
              ranges.map fun range => rowLoop row range.1 (rowSlice rows range)) = some failure :=
            argmin_cons_of_le fun other member => by
              have above := least other member
              omega
          rw [first]
      | ok ys =>
          have same : firstFailure (.ok ys ::
              ranges.map fun range => rowLoop row range.1 (rowSlice rows range)) =
              firstFailure (ranges.map fun range => rowLoop row range.1 (rowSlice rows range)) :=
            rfl
          rw [same]
          cases firstFailure (ranges.map fun range => rowLoop row range.1 (rowSlice rows range)) with
          | some failure => rfl
          | none => rfl

end DecoyEngine.Data
