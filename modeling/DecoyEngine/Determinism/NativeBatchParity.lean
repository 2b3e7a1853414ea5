import DecoyEngine.Determinism.NativeBatchRanges
import Mathlib.Tactic.IntervalCases

namespace DecoyEngine.Determinism.Native

open DecoyEngine.Data DecoyEngine.Generation

/-! The batch kernels against their row loops. -/

theorem utf8_ofList (chars : List Char) :
    utf8 (String.ofList chars) = chars.flatMap String.utf8EncodeChar := by
  rw [utf8, String.toByteArray_ofList, List.utf8Encode]
  simp

theorem isUtf8_utf8 (text : String) : isUtf8 (utf8 text) := by
  have whole : ByteArray.mk (utf8 text).toArray = text.toByteArray := by simp [utf8]
  rw [isUtf8, whole]
  exact text.isValidUTF8

theorem length_utf8_le (chars : List Char) :
    (utf8 (String.ofList chars)).length ≤ 4 * chars.length := by
  rw [utf8_ofList]
  induction chars with
  | nil => exact Nat.le_refl 0
  | cons ch chars ih =>
      have one := ch.utf8Size_le_four
      rw [List.flatMap_cons, List.length_append, String.length_utf8EncodeChar, List.length_cons]
      omega

theorem length_utf8_ascii {chars : List Char} (ascii : ∀ ch ∈ chars, ch.utf8Size = 1) :
    (utf8 (String.ofList chars)).length = chars.length := by
  rw [utf8_ofList]
  induction chars with
  | nil => rfl
  | cons ch chars ih =>
      have one := ascii ch List.mem_cons_self
      rw [List.flatMap_cons, List.length_append, String.length_utf8EncodeChar, one,
        ih fun other member => ascii other (List.mem_cons_of_mem _ member), List.length_cons,
        Nat.add_comm]

theorem hexText_ascii (bytes : Bytes) : ∀ ch ∈ hexText bytes, ch.utf8Size = 1 := by
  have digits : ∀ digit < 16, (hexChar digit).utf8Size = 1 := by decide
  intro ch member
  obtain ⟨byte, _, inPair⟩ := List.mem_flatMap.mp member
  have bound := byte.toNat_lt
  rcases List.mem_cons.mp inPair with isHigh | inLow
  · rw [isHigh]
    exact digits _ (by omega)
  · rw [List.mem_singleton.mp inLow]
    exact digits _ (by omega)

theorem length_hexText (bytes : Bytes) : (hexText bytes).length = 2 * bytes.length := by
  induction bytes with
  | nil => rfl
  | cons byte bytes ih =>
      rw [hexText, List.flatMap_cons, ← hexText, List.length_append, ih, List.length_cons]
      simp only [List.length_cons, List.length_nil]
      omega

theorem length_hexTokenInto {digest : Bytes} (size : digest.length = 32) (truncate : Option Int) :
    (utf8 (hexTokenInto digest truncate)).length = min (pythonSliceStop hexLen truncate) 64 := by
  rw [hexTokenInto, length_utf8_ascii fun ch member =>
    hexText_ascii digest ch (List.mem_of_mem_take member), List.length_take, length_hexText, size]

theorem length_hexTokenInto_constant {digest : Bytes} (size : digest.length = 32)
    (truncate : Option Int) :
    (utf8 (hexTokenInto digest truncate)).length = constantOutputWidth truncate := by
  rw [length_hexTokenInto size, constantOutputWidth, length_hexTokenInto List.length_replicate]

theorem length_hexPrefixInto {digest : Bytes} (size : digest.length = 32) {hexChars : Nat}
    (even : hexChars % 2 = 0) (within : hexChars ≤ hexLen) :
    (utf8 (hexPrefixInto digest (hexChars / 2))).length = hexChars := by
  have small : hexChars ≤ 64 := within
  rw [hexPrefixInto, length_utf8_ascii (hexText_ascii _), length_hexText, List.length_take, size]
  omega

section Assembly

variable {γ : Type} {width : Nat}

/-- A row's token: text of `width` bytes, or nothing for a null. -/
def Shaped (width : Nat) (slot : Option γ) (token : Option Bytes) : Prop :=
  Sized width slot token ∧ ∀ bytes, token = some bytes → isUtf8 bytes

theorem Shaped.text {slot : Option γ} {token : Option Bytes} (shaped : Shaped width slot token) :
    isUtf8 (token.getD []) := by
  cases token with
  | none => exact isUtf8_utf8 ""
  | some bytes => exact shaped.2 bytes rfl

theorem Shaped.length {slot : Option γ} {token : Option Bytes} (shaped : Shaped width slot token) :
    (token.getD []).length = if slot.isSome then width else 0 := by
  rw [← shaped.1.1]
  cases token with
  | none => rfl
  | some bytes => exact shaped.1.2 bytes rfl

variable {slots : List (Option γ)} {tokens : List (Option Bytes)}

theorem offsetList_bounds (width acc : Nat) (slots : List (Option γ)) :
    ∀ offset ∈ acc :: offsetList width acc slots,
      acc ≤ offset ∧ offset ≤ acc + width * nonNull slots := by
  induction slots generalizing acc with
  | nil =>
      intro offset member
      rw [List.mem_singleton.mp member]
      exact ⟨Nat.le_refl _, Nat.le_add_right _ _⟩
  | cons slot slots ih =>
      intro offset member
      have same := next_eq width acc slot slots
      rcases List.mem_cons.mp member with isFirst | later
      · rw [isFirst]
        exact ⟨Nat.le_refl _, Nat.le_add_right _ _⟩
      · have bounds := ih _ offset later
        have step : acc ≤ if slot.isSome then acc + width else acc := by
          split <;> omega
        omega

theorem offsetList_monotone (acc : Nat) (slots : List (Option γ)) :
    (acc :: offsetList width acc slots).Pairwise (· ≤ ·) := by
  induction slots generalizing acc with
  | nil => exact List.pairwise_singleton _ _
  | cons slot slots ih =>
      refine List.pairwise_cons.mpr ⟨fun offset member => ?_, ih _⟩
      exact (offsetList_bounds width acc (slot :: slots) offset (List.mem_cons_of_mem _ member)).1

theorem slices_eq (shaped : List.Forall₂ (Shaped width) slots tokens) (front : Bytes) :
    ((front.length :: offsetList width front.length slots).zip
        (offsetList width front.length slots)).map
      (rowSlice (front ++ tokens.flatMap (·.getD []))) = tokens.map (·.getD []) := by
  induction shaped generalizing front with
  | nil => rfl
  | @cons slot token slots tokens head tail ih =>
      have length := head.length
      have next : (if slot.isSome then front.length + width else front.length) =
          (front ++ token.getD []).length := by
        rw [List.length_append, length]
        split <;> rfl
      have later := ih (front ++ token.getD [])
      rw [List.append_assoc] at later
      rw [offsetList, next, List.zip_cons_cons, List.map_cons, List.map_cons, List.flatMap_cons, later]
      congr 1
      rw [rowSlice]
      dsimp only
      rw [List.drop_left, List.length_append, Nat.add_sub_cancel_left, List.take_left]

theorem length_tokens (shaped : List.Forall₂ (Shaped width) slots tokens) :
    (tokens.flatMap (·.getD [])).length = width * nonNull slots := by
  induction shaped with
  | nil => rfl
  | @cons slot token slots tokens head tail ih =>
      have same := next_eq width 0 slot slots
      rw [List.flatMap_cons, List.length_append, ih, head.length]
      simpa using same

theorem tokens_text (shaped : List.Forall₂ (Shaped width) slots tokens) :
    ∀ token ∈ tokens, isUtf8 (token.getD []) := by
  induction shaped with
  | nil => exact List.forall_mem_nil _
  | cons head tail ih => exact List.forall_mem_cons.mpr ⟨head.text, ih⟩

theorem validity_tokens (shaped : List.Forall₂ (Shaped width) slots tokens) :
    slots.map Option.isSome = tokens.map Option.isSome := by
  induction shaped with
  | nil => rfl
  | cons head tail ih => rw [List.map_cons, List.map_cons, ih, head.1.1]

theorem zipWith_validity (tokens : List (Option Bytes)) :
    List.zipWith (fun slice valid => if valid then some slice else none)
      (tokens.map (·.getD [])) (tokens.map Option.isSome) = tokens := by
  induction tokens with
  | nil => rfl
  | cons token tokens ih =>
      rw [List.map_cons, List.map_cons, List.zipWith_cons_cons, ih]
      cases token <;> rfl

theorem tryNew_rows (reason : String) (shaped : List.Forall₂ (Shaped width) slots tokens) :
    ∃ array, StringArray.tryNew reason (0 :: offsetList width 0 slots)
        (tokens.flatMap (·.getD [])) (slots.map Option.isSome) = .ok array ∧
      array.offsets = 0 :: offsetList width 0 slots ∧ array.rows = tokens := by
  have slices := slices_eq shaped []
  rw [List.nil_append, List.length_nil] at slices
  have layout : StringLayout (0 :: offsetList width 0 slots) (tokens.flatMap (·.getD []))
      (slots.map Option.isSome) :=
    { slots := by rw [List.length_cons, offsetList_length, List.length_map]
      within := fun offset member => by
        have bounds := offsetList_bounds width 0 slots offset member
        rw [length_tokens shaped]
        omega
      text := fun range member => by
        have inSlices := List.mem_map_of_mem
          (f := rowSlice (tokens.flatMap (·.getD []))) member
        rw [List.tail_cons, slices] at inSlices
        obtain ⟨token, inTokens, isSlice⟩ := List.mem_map.mp inSlices
        rw [← isSlice]
        exact tokens_text shaped token inTokens }
  refine ⟨⟨_, _, _, offsetList_monotone 0 slots, layout⟩, ?_, rfl, ?_⟩
  · rw [StringArray.tryNew, dif_pos (offsetList_monotone 0 slots), dif_pos layout]
  · have back := zipWith_validity tokens
    rw [← slices, List.zipWith_map_left] at back
    rw [StringArray.rows]
    dsimp only
    rw [List.tail_cons, validity_tokens shaped]
    exact back

theorem allNull_rows (reason : String) {slots : List (Option γ)} (empty : nonNull slots = 0) :
    ∃ array, allNullStrings reason slots = .ok array ∧ (∀ offset ∈ array.offsets, offset = 0) ∧
      array.rows = slots.map fun _ => none := by
  have nulls : ∀ slot ∈ slots, slot = none := by
    intro slot member
    have absent := List.countP_eq_zero.mp empty slot member
    simpa using absent
  have shaped : List.Forall₂ (Shaped 0) slots (slots.map fun _ => none) := by
    rw [List.forall₂_map_right_iff, List.forall₂_same]
    intro slot member
    rw [nulls slot member]
    exact ⟨⟨rfl, nofun⟩, nofun⟩
  have zeros : List.replicate (slots.length + 1) 0 = 0 :: offsetList 0 0 slots := by
    symm
    rw [List.eq_replicate_iff, List.length_cons, offsetList_length]
    refine ⟨rfl, fun offset member => ?_⟩
    have bounds := offsetList_bounds 0 0 slots offset member
    omega
  have blank : (slots.map fun _ => (none : Option Bytes)).flatMap (·.getD []) = [] := by
    simp
  obtain ⟨array, made, offsets, rows⟩ := tryNew_rows reason shaped
  refine ⟨array, ?_, ?_, rows⟩
  · rw [allNullStrings, zeros, ← blank, made]
  · rw [offsets, ← zeros]
    intro offset member
    exact List.eq_of_mem_replicate member

end Assembly

section Fill

variable {γ : Type} {width : Nat} {slots : List (Option γ)} {threads : Nat}

theorem partitionIntoTasks_eq {α : Type} {values : List α} {ranges : List (Nat × Nat)}
    (abuts : Abuts 0 slots.length ranges) (whole : values.length = width * nonNull slots) :
    partitionIntoTasks (0 :: offsetList width 0 slots) values ranges =
      some (tasksOf (fun range => rowSlice values
        (offsetAt width slots range.1, offsetAt width slots range.2)) ranges, []) := by
  have start : offsetAt width slots 0 = 0 := by
    rw [offsetAt, List.take_zero]
    exact Nat.mul_zero width
  have last : offsetAt width slots slots.length = width * nonNull slots := by
    rw [offsetAt, List.take_length]
  have sized : ∀ lo hi, lo ≤ hi → hi ≤ slots.length →
      (do
        let hi ← (0 :: offsetList width 0 slots)[hi]?
        let lo ← (0 :: offsetList width 0 slots)[lo]?
        some (hi - lo)) = some (offsetAt width slots hi - offsetAt width slots lo) := by
    intro lo hi ordered within
    rw [offsetList_get within, offsetList_get (Nat.le_trans ordered within), Nat.zero_add,
      Nat.zero_add]
    rfl
  have spanned : values.length = offsetAt width slots slots.length - offsetAt width slots 0 := by
    rw [last, start, whole, Nat.sub_zero]
  rw [partitionIntoTasks, tasksOf, carve_abuts (offsetAt width slots)
    (fun lo hi => offsetAt_mono width slots) sized abuts spanned]
  simp only [start, Nat.sub_zero]

theorem partitionIndexTasks_eq {α : Type} {values : List α} {ranges : List (Nat × Nat)}
    {stop : Nat} (abuts : Abuts 0 stop ranges) (whole : values.length = stop) :
    partitionIndexTasks values ranges = some (tasksOf (rowSlice values) ranges, []) :=
  carve_abuts id (fun _ _ ordered => ordered) (fun _ _ _ _ => rfl) abuts whole

/-- The outcome of a string batch whose rows gave `outcome`. -/
def stringsOf (reason : String) (width : Nat) (slots : List (Option γ)) :
    Except BatchError (List (Option Bytes)) → Except BatchFailure StringArray
  | .error error => .error (.error error)
  | .ok tokens =>
      StringArray.tryNew reason (0 :: offsetList width 0 slots) (tokens.flatMap (·.getD []))
        (slots.map Option.isSome)

def indicesOf (reason : String) (slots : List (Option γ)) :
    Except BatchError (List (Option UInt64)) → Except BatchFailure UInt64Array
  | .error error => .error (.error error)
  | .ok indices =>
      UInt64Array.tryNew reason (indices.flatMap fun index => [index.getD 0])
        (slots.map Option.isSome)

/-- What the pool alone can do to a batch. -/
def PoolRefuses {δ : Type} (pool : Except (String × String) Unit) (threads : Nat)
    (result : Except BatchFailure δ) : Prop :=
  ∃ code detail, pool = .error (code, detail) ∧ 1 < threads ∧
    result = .error (.error (.pool code detail))

theorem several_threads {count : Nat} (bound : count ≤ max threads 1) (several : 1 < count) :
    1 < threads := by
  omega

theorem fillStrings_eq (reason : String) (pool : Except (String × String) Unit)
    {row : Option γ → Except BatchError (Option Bytes)}
    (sized : ∀ slot ∈ slots, ∀ token, row slot = .ok token → Sized width slot token)
    (valid : nonNull slots ≠ 0) (fits : width * nonNull slots ≤ i32Max) (threads : Nat) :
    fillStrings reason pool width row slots threads = stringsOf reason width slots (slots.mapM row) ∨
      PoolRefuses pool threads (fillStrings reason pool width row slots threads) := by
  have abuts := balancedRowRanges_abuts slots threads
  have total : 0 + width * nonNull slots ≤ i32Max := by omega
  have zeros : (List.replicate (width * nonNull slots) (0 : UInt8)).length
      = width * nonNull slots := List.length_replicate
  have runs : ∀ range ∈ balancedRowRanges slots threads,
      fillRows row range.1 0 (rowSlice (List.replicate (width * nonNull slots) (0 : UInt8))
          (offsetAt width slots range.1, offsetAt width slots range.2))
        (rowSlice slots (range.1, range.2)) =
      some ((rowLoop row range.1 (rowSlice slots range)).map fun tokens =>
        tokens.flatMap (·.getD [])) := by
    intro range member
    have bounds := abuts.bounds range member
    have below := offsetAt_mono width slots bounds.2.2
    have last : offsetAt width slots slots.length = width * nonNull slots := by
      rw [offsetAt, List.take_length]
    have within : offsetAt width slots range.2
        ≤ (List.replicate (width * nonNull slots) (0 : UInt8)).length := by omega
    have room : (rowSlice (List.replicate (width * nonNull slots) (0 : UInt8))
        (offsetAt width slots range.1, offsetAt width slots range.2)).length =
        width * nonNull (rowSlice slots (range.1, range.2)) := by
      rw [length_rowSlice within, offsetAt_slice width slots bounds.2.1]
    have inside : ∀ slot ∈ rowSlice slots (range.1, range.2), ∀ token, row slot = .ok token →
        Sized width slot token := fun slot member =>
      sized slot (List.mem_of_mem_drop (List.mem_of_mem_take member))
    exact fillRows_eq [] range.1 inside room
  have joined := joinTasks_eq pool
    (fun range => rowSlice (List.replicate (width * nonNull slots) (0 : UInt8))
      (offsetAt width slots range.1, offsetAt width slots range.2))
    (fun task => fillRows row task.rowLo 0 task.out (rowSlice slots (task.rowLo, task.rowHi)))
    abuts runs
  rw [fillStrings, offsetsFrom_ok total, Nat.zero_add]
  dsimp only
  rw [partitionIntoTasks_eq abuts zeros]
  rcases joined with same | ⟨code, detail, refused, several, same⟩
  · left
    rw [same]
    cases slots.mapM row <;> rfl
  · right
    refine ⟨code, detail, refused, several_threads (balancedRowRanges_length valid threads) several,
      ?_⟩
    rw [same]

theorem fillIndices_eq (reason : String) (pool : Except (String × String) Unit)
    (row : Option γ → Except BatchError (Option UInt64)) (valid : nonNull slots ≠ 0)
    (threads : Nat) :
    fillIndices reason pool row slots threads = indicesOf reason slots (slots.mapM row) ∨
      PoolRefuses pool threads (fillIndices reason pool row slots threads) := by
  have abuts := balancedRowRanges_abuts slots threads
  have zeros : (List.replicate slots.length (0 : UInt64)).length = slots.length :=
    List.length_replicate
  have runs : ∀ range ∈ balancedRowRanges slots threads,
      fillIndexRows row range.1 range.1
        (rowSlice (List.replicate slots.length (0 : UInt64)) range)
        (rowSlice slots (range.1, range.2)) =
      some ((rowLoop row range.1 (rowSlice slots range)).map fun indices =>
        indices.flatMap fun index => [index.getD 0]) := by
    intro range member
    have bounds := abuts.bounds range member
    have window : rowSlice (List.replicate slots.length (0 : UInt64)) range =
        List.replicate (rowSlice slots (range.1, range.2)).length 0 := by
      rw [length_rowSlice bounds.2.2, rowSlice, List.drop_replicate, List.take_replicate]
      congr 1
      omega
    have start : ([] : List UInt64).length = range.1 - range.1 := (Nat.sub_self range.1).symm
    rw [window]
    exact fillIndexRows_eq (Nat.le_refl range.1) 0 start (rowSlice slots range)
  have joined := joinTasks_eq pool (rowSlice (List.replicate slots.length (0 : UInt64)))
    (fun task => fillIndexRows row task.rowLo task.rowLo task.out
      (rowSlice slots (task.rowLo, task.rowHi))) abuts runs
  rw [fillIndices, partitionIndexTasks_eq abuts zeros]
  rcases joined with same | ⟨code, detail, refused, several, same⟩
  · left
    rw [same]
    cases slots.mapM row <;> rfl
  · right
    refine ⟨code, detail, refused, several_threads (balancedRowRanges_length valid threads) several,
      ?_⟩
    rw [same]

/-- Rows that are null where their slot is make an array that reads back as them. -/
theorem indicesOf_rows (reason : String) {indices : List (Option UInt64)}
    (presence : slots.map Option.isSome = indices.map Option.isSome) :
    ∃ array, indicesOf reason slots (.ok indices) = .ok array ∧ array.rows = indices := by
  have values : (indices.flatMap fun index => [index.getD 0]) = indices.map (·.getD 0) := by
    rw [List.map_eq_flatMap]
  have lengths : (indices.map (·.getD 0)).length = (slots.map Option.isSome).length := by
    rw [presence, List.length_map, List.length_map]
  rw [indicesOf, values, UInt64Array.tryNew, dif_pos lengths]
  refine ⟨_, rfl, ?_⟩
  rw [UInt64Array.rows]
  dsimp only
  rw [presence, List.zipWith_map, List.zipWith_self]
  have each : ∀ index : Option UInt64,
      (if index.isSome then some (index.getD 0) else none) = index := by
    intro index
    cases index <;> rfl
  rw [funext each]
  exact List.map_id _

end Fill

end DecoyEngine.Determinism.Native
