import DecoyEngine.Data.Checked
import DecoyEngine.Determinism.NativeBatch

namespace DecoyEngine.Determinism.Native

open DecoyEngine.Data DecoyEngine.Generation

/-! The ranges of a batch, the windows carved for them, and what filling the windows leaves. -/

variable {α β γ : Type}

theorem closeRanges_abuts (nranges perRange : Nat) {i rowLo : Nat} (opened : rowLo ≤ i)
    (seenNonNull quota closed : Nat) (slots : List (Option γ)) :
    Abuts rowLo (i + slots.length)
      (closeRanges nranges perRange i rowLo seenNonNull quota closed slots) := by
  induction slots generalizing i rowLo seenNonNull quota closed with
  | nil => exact ⟨rfl, opened, rfl⟩
  | cons slot slots ih =>
      have next : i + (slot :: slots).length = i + 1 + slots.length := by
        rw [List.length_cons]
        omega
      rw [closeRanges, next]
      generalize (if slot.isSome then seenNonNull + 1 else seenNonNull) = seen
      split
      · exact ⟨rfl, Nat.le_succ_of_le opened, ih (Nat.le_refl _) _ _ _⟩
      · exact ih (Nat.le_succ_of_le opened) _ _ _

theorem closeRanges_length {nranges perRange i rowLo seenNonNull quota closed : Nat}
    (some' : closed < nranges) (slots : List (Option γ)) :
    (closeRanges nranges perRange i rowLo seenNonNull quota closed slots).length + closed
      ≤ nranges := by
  induction slots generalizing i rowLo seenNonNull quota closed with
  | nil =>
      rw [closeRanges, List.length_singleton]
      omega
  | cons slot slots ih =>
      rw [closeRanges]
      generalize (if slot.isSome then seenNonNull + 1 else seenNonNull) = seen
      split
      · rename_i closing
        have more : closed + 1 < nranges := by omega
        have rest := @ih (i + 1) (i + 1) seen (quota + perRange) (closed + 1) more
        rw [List.length_cons]
        omega
      · exact ih some'

theorem balancedRowRanges_abuts (slots : List (Option γ)) (threads : Nat) :
    Abuts 0 slots.length (balancedRowRanges slots threads) := by
  have abuts : Abuts 0 (0 + slots.length) (balancedRowRanges slots threads) :=
    closeRanges_abuts _ _ (Nat.le_refl 0) _ _ _ slots
  rwa [Nat.zero_add] at abuts

theorem balancedRowRanges_length {slots : List (Option γ)} (valid : nonNull slots ≠ 0)
    (threads : Nat) : (balancedRowRanges slots threads).length ≤ max threads 1 := by
  have some' : 0 < min (max threads 1) (nonNull slots) := by omega
  exact Nat.le_trans (closeRanges_length some' slots) (Nat.min_le_left _ _)

theorem nonNull_cons (slot : Option γ) (slots : List (Option γ)) :
    nonNull (slot :: slots) = (if slot.isSome then 1 else 0) + nonNull slots := by
  rw [nonNull, List.countP_cons, Nat.add_comm]
  rfl

/-- The offsets after `acc` as they are without a limit. -/
def offsetList (width : Nat) : (acc : Nat) → List (Option γ) → List Nat
  | _, [] => []
  | acc, slot :: slots =>
      let next := if slot.isSome then acc + width else acc
      next :: offsetList width next slots

/-- The offset of a row: what the valid rows before it take. -/
def offsetAt (width : Nat) (slots : List (Option γ)) (index : Nat) : Nat :=
  width * nonNull (slots.take index)

theorem next_eq (width acc : Nat) (slot : Option γ) (slots : List (Option γ)) :
    (if slot.isSome then acc + width else acc) + width * nonNull slots =
      acc + width * nonNull (slot :: slots) := by
  rw [nonNull_cons]
  split
  · rw [Nat.mul_add, Nat.mul_one, Nat.add_assoc]
  · rw [Nat.zero_add]

theorem offsetsFrom_ok {width acc : Nat} {slots : List (Option γ)}
    (fits : acc + width * nonNull slots ≤ i32Max) :
    offsetsFrom width acc slots =
      .ok (offsetList width acc slots, acc + width * nonNull slots) := by
  induction slots generalizing acc with
  | nil => rfl
  | cons slot slots ih =>
      have same := next_eq width acc slot slots
      rw [offsetsFrom, offsetList]
      dsimp only
      rw [if_neg (by omega), ih (by omega), same]
      rfl

theorem offsetsFrom_overflow {width acc : Nat} {slots : List (Option γ)} (start : acc ≤ i32Max)
    (large : i32Max < acc + width * nonNull slots) :
    offsetsFrom width acc slots = .error .offsetOverflow := by
  induction slots generalizing acc with
  | nil =>
      have none' : nonNull ([] : List (Option γ)) = 0 := rfl
      rw [none', Nat.mul_zero] at large
      omega
  | cons slot slots ih =>
      have same := next_eq width acc slot slots
      rw [offsetsFrom]
      by_cases past : i32Max < if slot.isSome then acc + width else acc
      · exact if_pos past
      · rw [if_neg past, ih (by omega) (by omega)]
        rfl

theorem offsetList_length (width acc : Nat) (slots : List (Option γ)) :
    (offsetList width acc slots).length = slots.length := by
  induction slots generalizing acc with
  | nil => rfl
  | cons slot slots ih => rw [offsetList, List.length_cons, List.length_cons, ih]

theorem offsetList_get {width acc : Nat} {slots : List (Option γ)} {index : Nat}
    (inside : index ≤ slots.length) :
    (acc :: offsetList width acc slots)[index]? = some (acc + offsetAt width slots index) := by
  induction slots generalizing acc index with
  | nil =>
      obtain rfl : index = 0 := Nat.le_zero.mp inside
      rfl
  | cons slot slots ih =>
      cases index with
      | zero => rfl
      | succ index =>
          rw [List.length_cons] at inside
          rw [List.getElem?_cons_succ, offsetList, ih (by omega), offsetAt, offsetAt, List.take_succ_cons, next_eq]

theorem offsetAt_mono (width : Nat) (slots : List (Option γ)) {lo hi : Nat} (ordered : lo ≤ hi) :
    offsetAt width slots lo ≤ offsetAt width slots hi := by
  apply Nat.mul_le_mul_left
  have front : (slots.take lo).Sublist (slots.take hi) := by
    rw [show lo = min lo hi from (Nat.min_eq_left ordered).symm, ← List.take_take]
    exact List.take_sublist _ _
  exact front.countP_le

theorem offsetAt_slice (width : Nat) (slots : List (Option γ)) {lo hi : Nat} (ordered : lo ≤ hi) :
    offsetAt width slots hi - offsetAt width slots lo
      = width * nonNull (rowSlice slots (lo, hi)) := by
  have split : slots.take hi = slots.take lo ++ rowSlice slots (lo, hi) := by
    rw [rowSlice, ← List.take_add, Nat.add_sub_cancel' ordered]
  rw [offsetAt, offsetAt, split, nonNull, List.countP_append, ← nonNull, ← nonNull, Nat.mul_add]
  omega

/-- Windows by a monotone bound on the rows cover the buffer from the first bound to the last. -/
theorem carve_abuts {size : Nat × Nat → Option Nat} (bound : Nat → Nat) {start stop : Nat}
    {ranges : List (Nat × Nat)}
    (monotone : ∀ lo hi, lo ≤ hi → bound lo ≤ bound hi)
    (sized : ∀ lo hi, lo ≤ hi → hi ≤ stop → size (lo, hi) = some (bound hi - bound lo))
    (abuts : Abuts start stop ranges) {values : List α}
    (whole : values.length = bound stop - bound start) :
    carve size values ranges = some (ranges.map fun range =>
      ⟨range.1, range.2, rowSlice values
        (bound range.1 - bound start, bound range.2 - bound start)⟩, []) := by
  induction ranges generalizing start values with
  | nil =>
      have same : start = stop := abuts
      rw [same, Nat.sub_self] at whole
      rw [carve, List.length_eq_zero_iff.mp whole]
      rfl
  | cons range ranges ih =>
      obtain ⟨rfl, ordered, rest⟩ := abuts
      obtain ⟨lo, hi⟩ := range
      dsimp only at ordered rest whole ⊢
      have covered := rest.le
      have first := monotone lo hi ordered
      have last := monotone hi stop covered
      have tailLength : (values.drop (bound hi - bound lo)).length = bound stop - bound hi := by
        rw [List.length_drop]
        omega
      rw [carve, sized lo hi ordered covered]
      simp only [Option.bind_eq_bind, Option.bind_some]
      rw [splitAtMut, if_pos (by omega), Option.bind_some, ih rest tailLength, Option.bind_some,
        List.map_cons]
      congr 3
      · rw [rowSlice, Nat.sub_self, List.drop_zero, Nat.sub_zero]
      · apply List.map_congr_left
        intro other member
        congr 1
        have above := rest.bounds other member
        have lower := monotone hi other.1 above.1
        rw [rowSlice, rowSlice, List.drop_drop]
        dsimp only
        congr 1
        · omega
        · congr 1
          omega

/-- A row's piece: nothing for a null, `width` elements otherwise. -/
def Sized (width : Nat) (slot : Option γ) (piece : Option (List α)) : Prop :=
  piece.isSome = slot.isSome ∧ ∀ elements, piece = some elements → elements.length = width

theorem fillRows_eq {row : Option γ → Except BatchError (Option (List α))} {width : Nat}
    (front : List α) {rest : List α} (i : Nat) {slots : List (Option γ)}
    (sized : ∀ slot ∈ slots, ∀ piece, row slot = .ok piece → Sized width slot piece)
    (room : rest.length = width * nonNull slots) :
    fillRows row i front.length (front ++ rest) slots =
      some ((rowLoop row i slots).map fun pieces => front ++ pieces.flatMap (·.getD [])) := by
  induction slots generalizing front rest i with
  | nil =>
      have empty : rest = [] := List.length_eq_zero_iff.mp room
      rw [empty]
      rfl
  | cons slot slots ih =>
      have later := fun slot member => sized slot (List.mem_cons_of_mem _ member)
      rw [fillRows, rowLoop]
      rw [nonNull_cons] at room
      cases head : row slot with
      | error error => rfl
      | ok piece =>
          obtain ⟨presence, width'⟩ := sized slot List.mem_cons_self piece head
          cases piece with
          | none =>
              rw [← presence] at room
              dsimp only
              rw [ih front (i + 1) later (by simpa using room)]
              cases rowLoop row (i + 1) slots <;> rfl
          | some token =>
              have length := width' token rfl
              have grown : rest.length = width + width * nonNull slots := by
                rw [room, ← presence, Option.isSome_some, if_pos rfl, Nat.mul_add, Nat.mul_one]
              have written : (front ++ rest).take front.length ++ token ++
                  (front ++ rest).drop (front.length + token.length) =
                  (front ++ token) ++ rest.drop width := by
                rw [List.take_left, List.drop_append, length]
                simp
              have left : (rest.drop width).length = width * nonNull slots := by
                rw [List.length_drop]
                omega
              dsimp only
              rw [copyFromSlice, if_pos (by rw [List.length_append]; omega), written]
              dsimp only
              rw [← List.length_append, ih (front ++ token) (i + 1) later left]
              cases rowLoop row (i + 1) slots with
              | error failure => rfl
              | ok pieces => simp [Except.map]

theorem fillIndexRows_eq {row : Option γ → Except BatchError (Option α)} {rowLo i : Nat}
    (opened : rowLo ≤ i) (zero : α) {front : List α} (start : front.length = i - rowLo)
    (slots : List (Option γ)) :
    fillIndexRows row rowLo i (front ++ List.replicate slots.length zero) slots =
      some ((rowLoop row i slots).map fun indices =>
        front ++ indices.flatMap fun index => [index.getD zero]) := by
  induction slots generalizing front i with
  | nil => simp [fillIndexRows, rowLoop, Except.map]
  | cons slot slots ih =>
      rw [fillIndexRows, rowLoop]
      cases head : row slot with
      | error error => rfl
      | ok index =>
          have step : ∀ value : α, fillIndexRows row rowLo (i + 1)
              ((front ++ [value]) ++ List.replicate slots.length zero) slots =
              some ((rowLoop row (i + 1) slots).map fun indices =>
                (front ++ [value]) ++ indices.flatMap fun index => [index.getD zero]) := by
            intro value
            apply ih (by omega)
            rw [List.length_append, List.length_singleton]
            omega
          have finish : ∀ value : α, index.getD zero = value →
              some ((rowLoop row (i + 1) slots).map fun indices =>
                (front ++ [value]) ++ indices.flatMap fun index => [index.getD zero]) =
              some (((rowLoop row (i + 1) slots).map (index :: ·)).map fun indices =>
                front ++ indices.flatMap fun index => [index.getD zero]) := by
            intro value isValue
            cases rowLoop row (i + 1) slots with
            | error failure => rfl
            | ok indices => simp [Except.map, isValue]
          rw [List.length_cons, List.replicate_succ, List.append_cons]
          cases index with
          | none =>
              dsimp only
              rw [step zero, finish zero rfl]
          | some value =>
              have written : (front ++ [zero] ++ List.replicate slots.length zero).take (i - rowLo) ++
                  [value] ++ (front ++ [zero] ++ List.replicate slots.length zero).drop
                    (i - rowLo + 1) = (front ++ [value]) ++ List.replicate slots.length zero := by
                have front' : front.length + 1 = (front ++ [zero]).length := by simp
                rw [← start, front', List.drop_left, List.append_assoc front, List.take_left]
              dsimp only
              rw [copyFromSlice, if_pos (by simp [start]), List.length_singleton, written]
              dsimp only
              rw [step value, finish value rfl]

theorem successes_map {β : Type} (piece : β → List α)
    (results : List (Except (Nat × BatchError) (List β))) :
    successes (results.map (Except.map fun rows => rows.flatMap piece)) =
      (successes results).flatMap piece := by
  induction results with
  | nil => rfl
  | cons result results ih =>
      rw [List.map_cons, successes, List.flatMap_cons, ← successes, ih, successes, successes,
        List.flatMap_cons, List.flatMap_append]
      cases result <;> rfl

section Join

variable {δ : Type} {slots : List (Option γ)}
  {ranges : List (Nat × Nat)} {window : Nat × Nat → List α}
  {run : RangeTask α → Option (Except (Nat × BatchError) (List α))}
  {row : Option γ → Except BatchError δ} {piece : δ → List α}

/-- The tasks of a batch, each with its window. -/
def tasksOf (window : Nat × Nat → List α) (ranges : List (Nat × Nat)) : List (RangeTask α) :=
  ranges.map fun range => ⟨range.1, range.2, window range⟩

theorem run_tasks
    (runs : ∀ range ∈ ranges, run ⟨range.1, range.2, window range⟩ =
      some ((rowLoop row range.1 (rowSlice slots range)).map fun rows => rows.flatMap piece)) :
    (tasksOf window ranges).mapM run =
      some ((ranges.map fun range => rowLoop row range.1 (rowSlice slots range)).map
        (Except.map fun rows => rows.flatMap piece)) := by
  rw [mapM_eq_some, tasksOf, List.forall₂_map_left_iff, List.map_map, List.forall₂_map_right_iff,
    List.forall₂_same]
  exact runs

/-- The joined buffer is that of the rows in order, and so is the error; only the pool, which one
range does without, can fail besides. -/
theorem joinTasks_eq (pool : Except (String × String) Unit) (window : Nat × Nat → List α)
    (run : RangeTask α → Option (Except (Nat × BatchError) (List α))) (abuts : Abuts 0 slots.length ranges)
    (runs : ∀ range ∈ ranges, run ⟨range.1, range.2, window range⟩ =
      some ((rowLoop row range.1 (rowSlice slots range)).map fun rows => rows.flatMap piece)) :
    (joinTasks pool (some (tasksOf window ranges, [])) run =
      match slots.mapM row with
      | .error error => .error (.error error)
      | .ok rows => .ok (rows.flatMap piece)) ∨
    ∃ code detail, pool = .error (code, detail) ∧ 1 < ranges.length ∧
      joinTasks pool (some (tasksOf window ranges, [])) run =
        .error (.error (.pool code detail)) := by
  have several : (tasksOf window ranges).length = ranges.length := List.length_map _
  have whole := rowLoop_ranges row abuts
  have joined : runRangeTasks pool (tasksOf window ranges) run =
        .ok ((ranges.map fun range => rowLoop row range.1 (rowSlice slots range)).map
          (Except.map fun rows => rows.flatMap piece)) →
      joinTasks pool (some (tasksOf window ranges, [])) run =
        match slots.mapM row with
        | .error error => .error (.error error)
        | .ok rows => .ok (rows.flatMap piece) := by
    intro collected
    rw [joinTasks, collected]
    dsimp only at whole ⊢
    rw [firstErrorByRowIndex, firstFailure_map, successes_map, ← rowLoop_mapM 0]
    rw [List.drop_zero] at whole
    rw [whole]
    cases firstFailure (ranges.map fun range => rowLoop row range.1 (rowSlice slots range)) with
    | some failure => rfl
    | none => exact congrArg Except.ok (List.append_nil _)
  by_cases one : ranges.length ≤ 1
  · left
    apply joined
    unfold runRangeTasks
    rw [run_tasks runs, several]
    exact if_pos one
  · cases pool with
    | ok built =>
        left
        apply joined
        unfold runRangeTasks
        rw [run_tasks runs]
        exact ite_self _
    | error refusal =>
        right
        refine ⟨refusal.1, refusal.2, rfl, Nat.lt_of_not_le one, ?_⟩
        have refused : runRangeTasks (.error refusal) (tasksOf window ranges) run =
            .error (.error (.pool refusal.1 refusal.2)) := by
          unfold runRangeTasks
          rw [several]
          exact if_neg one
        rw [joinTasks, refused]

end Join

end DecoyEngine.Determinism.Native
