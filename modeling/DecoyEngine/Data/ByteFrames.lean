import DecoyEngine.Data.Numerals

namespace DecoyEngine.Data

/-! Byte blocks behind a four-byte big-endian length. -/

/-- `len(block).to_bytes(4, "big") + block`; `none` is the overflow of the length. -/
def frame (block : List UInt8) : Option (List UInt8) :=
  (toBytesBig block.length 4).map (· ++ block)

theorem frame_eq_none {block : List UInt8} : frame block = none ↔ 2 ^ 32 ≤ block.length := by
  rw [frame, Option.map_eq_none_iff, toBytesBig]
  split
  · simp only [reduceCtorEq, false_iff]
    omega
  · simp only [true_iff]
    omega

theorem frame_cases {block framed : List UInt8} (framing : frame block = some framed) :
    ∃ head, framed = head ++ block ∧ head.length = 4 ∧ fromBytesBig head = block.length := by
  rw [frame, Option.map_eq_some_iff] at framing
  obtain ⟨head, encoded, rfl⟩ := framing
  exact ⟨head, rfl, length_of_toBytesBig encoded, fromBytesBig_toBytesBig encoded⟩

theorem frame_append_inj {left right leftFrame rightFrame leftRest rightRest : List UInt8}
    (leftFramed : frame left = some leftFrame) (rightFramed : frame right = some rightFrame)
    (same : leftFrame ++ leftRest = rightFrame ++ rightRest) :
    left = right ∧ leftRest = rightRest := by
  obtain ⟨leftHead, rfl, leftWidth, leftLength⟩ := frame_cases leftFramed
  obtain ⟨rightHead, rfl, rightWidth, rightLength⟩ := frame_cases rightFramed
  rw [List.append_assoc, List.append_assoc] at same
  obtain ⟨heads, bodies⟩ := List.append_inj same (leftWidth.trans rightWidth.symm)
  have lengths : left.length = right.length := by rw [← leftLength, heads, rightLength]
  exact List.append_inj bodies lengths

def slice (bytes : List UInt8) (start count : Nat) : List UInt8 := (bytes.drop start).take count

/-- `struct.unpack(">I", ...)`; `none` is its error on fewer than four bytes. -/
def unpackLength (bytes : List UInt8) : Option Nat :=
  if bytes.length = 4 then some (fromBytesBig bytes) else none

section Reading

variable {block framed : List UInt8}

theorem length_slice (bytes : List UInt8) (start count : Nat) :
    (slice bytes start count).length = min count (bytes.length - start) := by
  rw [slice, List.length_take, List.length_drop]

theorem slice_append (before bytes rest : List UInt8) :
    slice (before ++ bytes ++ rest) before.length bytes.length = bytes := by
  rw [slice, List.append_assoc, List.drop_left, List.take_left]

theorem unpackLength_short {bytes : List UInt8} {start : Nat} (short : bytes.length < start + 4) :
    unpackLength (slice bytes start 4) = none := by
  have width := length_slice bytes start 4
  rw [unpackLength, if_neg (by omega)]

theorem unpackLength_inside {bytes : List UInt8} {start size : Nat}
    (read : unpackLength (slice bytes start 4) = some size) : start + 4 ≤ bytes.length := by
  by_contra short
  rw [unpackLength_short (by omega)] at read
  cases read

theorem unpackLength_framed (framing : frame block = some framed) (before rest : List UInt8) :
    unpackLength (slice (before ++ framed ++ rest) before.length 4) = some block.length := by
  obtain ⟨head, rfl, width, length⟩ := frame_cases framing
  have read := slice_append before head (block ++ rest)
  rw [List.append_assoc, ← List.append_assoc head, ← List.append_assoc before, width] at read
  rw [read, unpackLength, if_pos width, length]

theorem slice_framed (framing : frame block = some framed) (before rest : List UInt8) :
    slice (before ++ framed ++ rest) (before.length + 4) block.length = block := by
  obtain ⟨head, rfl, width, length⟩ := frame_cases framing
  have read := slice_append (before ++ head) block rest
  rw [List.length_append, width] at read
  rw [← List.append_assoc before]
  exact read

/-- A frame cut behind its length still gives the length, and what is left of the block. -/
theorem framed_cut (framing : frame block = some framed) (before : List UInt8) {count : Nat}
    (wide : 4 ≤ count) :
    unpackLength (slice (before ++ framed.take count) before.length 4) = some block.length ∧
      slice (before ++ framed.take count) (before.length + 4) block.length =
        block.take (count - 4) := by
  obtain ⟨head, rfl, width, length⟩ := frame_cases framing
  have cut : (head ++ block).take count = head ++ block.take (count - 4) := by
    rw [List.take_append, List.take_of_length_le (by omega), width]
  have front := slice_append before head (block.take (count - 4))
  rw [List.append_assoc, width] at front
  rw [cut]
  refine ⟨by rw [front, unpackLength, if_pos width, length], ?_⟩
  rw [slice, ← List.append_assoc, ← width, ← List.length_append, List.drop_left]
  exact List.take_of_length_le (List.length_take_le' _ _)

theorem length_framed (framing : frame block = some framed) :
    framed.length = 4 + block.length := by
  obtain ⟨head, rfl, width, _⟩ := frame_cases framing
  rw [List.length_append, width]

end Reading

end DecoyEngine.Data
