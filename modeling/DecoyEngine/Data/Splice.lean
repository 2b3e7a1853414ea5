import Mathlib.Data.List.Basic

namespace DecoyEngine.Data

/-! Replacing the selected elements of a list, one by one, in place.

`splice selected xs ys` walks `xs`, keeps what `selected` rejects and takes the
next element of `ys` for what it accepts.  It is the list-level meaning of
"extract the selected positions, transform, write back". -/

variable {α : Type u} (selected : α → Bool)

def splice : List α → List α → List α
  | [], _ => []
  | x :: xs, ys =>
      if selected x then
        match ys with
        | [] => x :: xs
        | y :: ys => y :: splice xs ys
      else x :: splice xs ys

theorem length_splice (xs ys : List α) : (splice selected xs ys).length = xs.length := by
  induction xs generalizing ys with
  | nil => rfl
  | cons x xs ih =>
      cases ys <;> cases chosen : selected x <;> simp [splice, chosen, ih]

theorem splice_filter (xs : List α) : splice selected xs (xs.filter selected) = xs := by
  induction xs with
  | nil => rfl
  | cons x xs ih => cases chosen : selected x <;> simp [splice, chosen, ih]

theorem filter_splice {xs ys : List α} (chosen : ∀ y ∈ ys, selected y = true)
    (length : ys.length = (xs.filter selected).length) :
    (splice selected xs ys).filter selected = ys := by
  induction xs generalizing ys with
  | nil => exact (List.length_eq_zero_iff.mp (by simpa using length)).symm
  | cons x xs ih =>
      cases head : selected x with
      | false =>
          have rest := ih chosen (by simpa [head] using length)
          simpa [splice, head] using rest
      | true =>
          cases ys with
          | nil => simp [head] at length
          | cons y ys =>
              have others : ∀ z ∈ ys, selected z = true := fun z member => chosen z (by simp [member])
              have rest := ih others (by simpa [head] using length)
              simp [splice, head, chosen y (by simp), rest]

theorem splice_splice {xs ys zs : List α} (chosen : ∀ y ∈ ys, selected y = true)
    (first : ys.length = (xs.filter selected).length)
    (second : zs.length = (xs.filter selected).length) :
    splice selected (splice selected xs ys) zs = splice selected xs zs := by
  induction xs generalizing ys zs with
  | nil => rfl
  | cons x xs ih =>
      cases head : selected x with
      | false =>
          have rest := ih chosen (by simpa [head] using first) (by simpa [head] using second)
          simp [splice, head, rest]
      | true =>
          cases ys with
          | nil => simp [head] at first
          | cons y ys =>
              cases zs with
              | nil => simp [head] at second
              | cons z zs =>
                  have others : ∀ w ∈ ys, selected w = true :=
                    fun w member => chosen w (by simp [member])
                  have rest := ih others (by simpa [head] using first) (by simpa [head] using second)
                  simp [splice, head, chosen y (by simp), rest]

theorem splice_eq_self_iff {xs ys : List α} (chosen : ∀ y ∈ ys, selected y = true)
    (length : ys.length = (xs.filter selected).length) :
    splice selected xs ys = xs ↔ ys = xs.filter selected := by
  constructor
  · intro same
    have found := filter_splice selected chosen length
    rw [same] at found
    exact found.symm
  · rintro rfl
    exact splice_filter selected xs

theorem splice_all {xs ys : List α} (chosen : ∀ x ∈ xs, selected x = true)
    (length : ys.length = xs.length) : splice selected xs ys = ys := by
  induction xs generalizing ys with
  | nil => exact (List.length_eq_zero_iff.mp length).symm
  | cons x xs ih =>
      cases ys with
      | nil => simp at length
      | cons y ys =>
          have others : ∀ z ∈ xs, selected z = true := fun z member => chosen z (by simp [member])
          have rest := ih others (by simpa using length)
          simp [splice, chosen x (by simp), rest]

theorem splice_unselected {xs : List α} (ys : List α) {i : Nat} {x : α}
    (found : xs[i]? = some x) (rejected : selected x = false) :
    (splice selected xs ys)[i]? = some x := by
  induction xs generalizing ys i with
  | nil => simp at found
  | cons head xs ih =>
      cases i with
      | zero =>
          obtain rfl : head = x := by simpa using found
          simp [splice, rejected]
      | succ i =>
          have tail : xs[i]? = some x := by simpa using found
          cases chosen : selected head with
          | false => simpa [splice, chosen] using ih ys tail
          | true =>
              cases ys with
              | nil => simpa [splice, chosen] using tail
              | cons y ys => simpa [splice, chosen] using ih ys tail

theorem splice_selected {xs ys : List α} (chosen : ∀ y ∈ ys, selected y = true) {i : Nat} {x : α}
    (found : xs[i]? = some x) (accepted : selected x = true) :
    ∃ y, (splice selected xs ys)[i]? = some y ∧ selected y = true := by
  induction xs generalizing ys i with
  | nil => simp at found
  | cons head xs ih =>
      cases i with
      | zero =>
          obtain rfl : head = x := by simpa using found
          cases ys with
          | nil => exact ⟨head, by simp [splice, accepted], accepted⟩
          | cons y ys => exact ⟨y, by simp [splice, accepted], chosen y (by simp)⟩
      | succ i =>
          have tail : xs[i]? = some x := by simpa using found
          cases kept : selected head with
          | false =>
              obtain ⟨y, here, inside⟩ := ih chosen tail
              exact ⟨y, by simpa [splice, kept] using here, inside⟩
          | true =>
              cases ys with
              | nil => exact ⟨x, by simpa [splice, kept] using tail, accepted⟩
              | cons y ys =>
                  have others : ∀ w ∈ ys, selected w = true :=
                    fun w member => chosen w (by simp [member])
                  obtain ⟨z, here, inside⟩ := ih others tail
                  exact ⟨z, by simpa [splice, kept] using here, inside⟩

def selectedPositions (xs : List α) : List Nat :=
  (xs.zipIdx.filter (fun entry => selected entry.1)).map Prod.snd

def writeAt (xs : List α) (positions : List Nat) (ys : List α) : List α :=
  (positions.zip ys).foldl (fun result entry => result.set entry.1 entry.2) xs

theorem extract_positions [Inhabited α] (xs : List α) :
    (selectedPositions selected xs).map (fun i => xs[i]!) = xs.filter selected := by
  have entries : ∀ entry ∈ xs.zipIdx, xs[entry.2]! = entry.1 := by
    rintro ⟨x, i⟩ member
    have found := List.mem_zipIdx_iff_getElem?.mp member
    simp [List.getElem!_eq_getElem?_getD, found]
  rw [selectedPositions, List.map_map]
  have values : (xs.zipIdx.filter (fun entry => selected entry.1)).map
      ((fun i => xs[i]!) ∘ Prod.snd) =
      (xs.zipIdx.filter (fun entry => selected entry.1)).map Prod.fst :=
    List.map_congr_left (fun entry member => entries entry (List.mem_of_mem_filter member))
  rw [values]
  have swap := (List.filter_map (f := Prod.fst) (p := selected) (l := xs.zipIdx)).symm
  rw [List.zipIdx_map_fst] at swap
  exact swap

theorem writeAt_positions (xs ys : List α)
    (length : ys.length = (xs.filter selected).length) :
    writeAt xs (selectedPositions selected xs) ys = splice selected xs ys := by
  suffices general : ∀ done : List α,
      (((xs.zipIdx done.length).filter (fun entry => selected entry.1)).map Prod.snd |>.zip ys).foldl
        (fun result entry => result.set entry.1 entry.2) (done ++ xs) =
      done ++ splice selected xs ys by
    simpa [writeAt, selectedPositions] using general []
  induction xs generalizing ys with
  | nil => intro done; simp [splice]
  | cons x xs ih =>
      intro done
      cases head : selected x with
      | false =>
          have rest := ih ys (by simpa [head] using length) (done ++ [x])
          simpa [splice, head, List.zipIdx_cons] using rest
      | true =>
          cases ys with
          | nil => simp [head] at length
          | cons y ys =>
              have rest := ih ys (by simpa [head] using length) (done ++ [y])
              simpa [splice, head, List.zipIdx_cons] using rest

end DecoyEngine.Data
