import Mathlib.Data.List.Basic

namespace DecoyEngine.Data

/-! Text files as bytes: UTF-8, and the physical lines a binary reader sees. -/

def utf8Encode (text : List Char) : List UInt8 := text.flatMap String.utf8EncodeChar

/-- `bytes.decode("utf-8")`; `none` is its `UnicodeDecodeError`. -/
def utf8Decode (bytes : List UInt8) : Option (List Char) :=
  (ByteArray.mk bytes.toArray).utf8Decode?.map Array.toList

/-- What `readline` gives one call after another: each line with its line feed. -/
def physicalLines : List UInt8 → List (List UInt8)
  | [] => []
  | byte :: rest =>
      if byte = 10 then [byte] :: physicalLines rest
      else
        match physicalLines rest with
        | [] => [[byte]]
        | line :: lines => (byte :: line) :: lines

theorem utf8Decode_utf8Encode (text : List Char) : utf8Decode (utf8Encode text) = some text := by
  have whole : ByteArray.mk (utf8Encode text).toArray = text.utf8Encode := by
    rw [List.utf8Encode, ← utf8Encode]
    exact ByteArray.ext (by rw [List.data_toByteArray])
  rw [utf8Decode, whole, List.utf8Decode?_utf8Encode, Option.map_some, List.toList_toArray]

theorem utf8Encode_of_utf8Decode {bytes : List UInt8} {text : List Char}
    (decoded : utf8Decode bytes = some text) : bytes = utf8Encode text := by
  obtain ⟨chars, found, isText⟩ := Option.map_eq_some_iff.mp decoded
  have whole : (ByteArray.mk bytes.toArray).utf8Decode?.isSome := by rw [found]; rfl
  have encoded := ByteArray.utf8Encode_get_utf8Decode? (h := whole)
  rw [Option.get_of_eq_some whole found, isText, List.utf8Encode, ← utf8Encode] at encoded
  have data := congrArg ByteArray.data encoded
  rw [List.data_toByteArray] at data
  exact (congrArg Array.toList data).symm

/-- An ASCII character is its own byte; the bytes of the others are all above ASCII. -/
theorem utf8EncodeChar_cases (ch : Char) :
    (ch.toNat < 128 ∧ String.utf8EncodeChar ch = [UInt8.ofNat ch.toNat]) ∨
      (128 ≤ ch.toNat ∧ String.utf8EncodeChar ch ≠ [] ∧
        ∀ byte ∈ String.utf8EncodeChar ch, 128 ≤ byte.toNat) := by
  have high : ∀ {byte : UInt8} {code : Nat}, byte = UInt8.ofNat code → 128 ≤ code % 256 →
      128 ≤ byte.toNat := by
    intro byte code same above
    rw [same]
    exact above
  have value : ch.toNat = ch.val.toNat := rfl
  rw [value, String.utf8EncodeChar]
  split_ifs with one two three
  · exact .inl ⟨by omega, rfl⟩
  · refine .inr ⟨by omega, by simp, fun byte member => ?_⟩
    simp only [List.mem_cons, List.not_mem_nil, or_false] at member
    rcases member with same | same <;> exact high same (by omega)
  · refine .inr ⟨by omega, by simp, fun byte member => ?_⟩
    simp only [List.mem_cons, List.not_mem_nil, or_false] at member
    rcases member with same | same | same <;> exact high same (by omega)
  · refine .inr ⟨by omega, by simp, fun byte member => ?_⟩
    simp only [List.mem_cons, List.not_mem_nil, or_false] at member
    rcases member with same | same | same | same <;> exact high same (by omega)

theorem lineFeed_of_mem {ch : Char} (member : 10 ∈ String.utf8EncodeChar ch) : ch = '\n' := by
  have value : ∀ {code : Nat}, (10 : UInt8) = UInt8.ofNat code → 10 = code % 256 := by
    intro code same
    exact congrArg UInt8.toNat same
  rw [String.utf8EncodeChar] at member
  split_ifs at member
  · have same := value (List.mem_singleton.mp member)
    have code : ch.val.toNat = 10 := by omega
    exact Char.ext (UInt32.toNat_inj.mp code)
  -- Every byte of a longer encoding is 0x80 at least.
  · simp only [List.mem_cons, List.not_mem_nil, or_false] at member
    rcases member with same | same <;> have bits := value same <;> omega
  · simp only [List.mem_cons, List.not_mem_nil, or_false] at member
    rcases member with same | same | same <;> have bits := value same <;> omega
  · simp only [List.mem_cons, List.not_mem_nil, or_false] at member
    rcases member with same | same | same | same <;> have bits := value same <;> omega

theorem lineFeed_not_mem {text : List Char} (absent : '\n' ∉ text) : 10 ∉ utf8Encode text := by
  intro member
  obtain ⟨ch, inText, encoded⟩ := List.mem_flatMap.mp member
  exact absent (lineFeed_of_mem encoded ▸ inText)

theorem physicalLines_cons {line : List UInt8} (absent : 10 ∉ line) (rest : List UInt8) :
    physicalLines (line ++ 10 :: rest) = (line ++ [10]) :: physicalLines rest := by
  induction line with
  | nil => rfl
  | cons byte line ih =>
      have other : byte ≠ 10 := fun same => absent (by simp [same])
      have tail := ih (fun member => absent (by simp [member]))
      rw [List.cons_append, physicalLines, if_neg other, tail]
      rfl

end DecoyEngine.Data
