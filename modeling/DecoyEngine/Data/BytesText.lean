import Mathlib.Data.List.Basic
import Mathlib.Data.List.TakeWhile

namespace DecoyEngine.Data

/-! Byte strings as text: `repr`, and hexadecimal digits.  Characters are given by their codes:
34 and 39 are the two quotation marks, 92 the backslash. -/

def hexCode (digit : Nat) : Nat := if digit < 10 then 48 + digit else 87 + digit

def escapeByte (quote byte : Nat) : List Nat :=
  if byte = quote ∨ byte = 92 then [92, byte]
  else if byte = 9 then [92, 116]
  else if byte = 10 then [92, 110]
  else if byte = 13 then [92, 114]
  else if byte < 32 ∨ 127 ≤ byte then [92, 120, hexCode (byte / 16), hexCode (byte % 16)]
  else [byte]

/-- The mark that needs no escapes, where there is one. -/
def quoteMark (bytes : List Nat) : Nat := if 39 ∈ bytes ∧ 34 ∉ bytes then 34 else 39

def bytesCodes (bytes : List Nat) : List Nat :=
  98 :: quoteMark bytes :: bytes.flatMap (escapeByte (quoteMark bytes)) ++ [quoteMark bytes]

def bytesRepr (bytes : List UInt8) : List Char :=
  (bytesCodes (bytes.map UInt8.toNat)).map Char.ofNat

def hexValue (code : Nat) : Nat := if code < 58 then code - 48 else code - 87

def readEscape : List Nat → Option (Nat × List Nat)
  | [] => none
  | kind :: rest =>
      if kind = 116 then some (9, rest)
      else if kind = 110 then some (10, rest)
      else if kind = 114 then some (13, rest)
      else if kind = 120 then
        match rest with
        | high :: low :: rest => some (hexValue high * 16 + hexValue low, rest)
        | _ => none
      else some (kind, rest)

def readByte : List Nat → Option (Nat × List Nat)
  | [] => none
  | first :: rest => if first = 92 then readEscape rest else some (first, rest)

theorem hexValue_hexCode {digit : Nat} (small : digit < 16) : hexValue (hexCode digit) = digit := by
  revert digit
  decide

theorem readByte_escapeByte {quote byte : Nat} (mark : quote = 34 ∨ quote = 39)
    (small : byte < 256) (rest : List Nat) :
    readByte (escapeByte quote byte ++ rest) = some (byte, rest) := by
  rw [escapeByte]
  split
  · rename_i escaped
    have escapable : byte = 34 ∨ byte = 39 ∨ byte = 92 := by omega
    rcases escapable with isByte | isByte | isByte <;> rw [isByte] <;> rfl
  split
  · rename_i tab
    rw [tab]
    rfl
  split
  · rename_i newline
    rw [newline]
    rfl
  split
  · rename_i return'
    rw [return']
    rfl
  split
  · have high := hexValue_hexCode (show byte / 16 < 16 by omega)
    have low := hexValue_hexCode (show byte % 16 < 16 by omega)
    simp only [List.cons_append, List.nil_append, readByte, if_true, readEscape, high, low]
    simp only [Nat.reduceEqDiff, if_false]
    congr 2
    omega
  · rename_i special _ _ _ _
    have plain : byte ≠ 92 := fun isBackslash => special (Or.inr isBackslash)
    simp only [List.cons_append, List.nil_append, readByte, if_neg plain]

theorem escapeByte_ne_nil (quote byte : Nat) (rest : List Nat) :
    escapeByte quote byte ++ rest ≠ [] := by
  unfold escapeByte
  repeat' split
  all_goals simp

theorem flatMap_escapeByte_injective {quote : Nat} (mark : quote = 34 ∨ quote = 39)
    {left right : List Nat} (leftSmall : ∀ byte ∈ left, byte < 256)
    (rightSmall : ∀ byte ∈ right, byte < 256)
    (same : left.flatMap (escapeByte quote) = right.flatMap (escapeByte quote)) :
    left = right := by
  induction left generalizing right with
  | nil =>
      cases right with
      | nil => rfl
      | cons byte right => exact absurd same.symm (escapeByte_ne_nil quote byte _)
  | cons first left ih =>
      cases right with
      | nil => exact absurd same (escapeByte_ne_nil quote first _)
      | cons second right =>
          rw [List.flatMap_cons, List.flatMap_cons] at same
          have read := congrArg readByte same
          rw [readByte_escapeByte mark (leftSmall first List.mem_cons_self),
            readByte_escapeByte mark (rightSmall second List.mem_cons_self)] at read
          obtain ⟨bytes, rests⟩ := Prod.mk.inj (Option.some.inj read)
          rw [bytes, ih (fun byte member => leftSmall byte (List.mem_cons_of_mem _ member))
            (fun byte member => rightSmall byte (List.mem_cons_of_mem _ member)) rests]

theorem quoteMark_cases (bytes : List Nat) : quoteMark bytes = 34 ∨ quoteMark bytes = 39 := by
  rw [quoteMark]
  split
  · exact Or.inl rfl
  · exact Or.inr rfl

theorem escapeByte_ascii {quote byte : Nat} (small : byte < 256)
    (mark : quote = 34 ∨ quote = 39) : ∀ code ∈ escapeByte quote byte, code < 128 := by
  have hex : ∀ {digit : Nat}, digit < 16 → hexCode digit < 128 := by decide
  intro code member
  rw [escapeByte] at member
  split at member
  · simp only [List.mem_cons, List.not_mem_nil, or_false] at member
    omega
  split at member
  · simp only [List.mem_cons, List.not_mem_nil, or_false] at member
    omega
  split at member
  · simp only [List.mem_cons, List.not_mem_nil, or_false] at member
    omega
  split at member
  · simp only [List.mem_cons, List.not_mem_nil, or_false] at member
    omega
  split at member
  · have high := hex (show byte / 16 < 16 by omega)
    have low := hex (show byte % 16 < 16 by omega)
    simp only [List.mem_cons, List.not_mem_nil, or_false] at member
    omega
  · simp only [List.mem_cons, List.not_mem_nil, or_false] at member
    omega

theorem bytesCodes_ascii {bytes : List Nat} (small : ∀ byte ∈ bytes, byte < 256) :
    ∀ code ∈ bytesCodes bytes, code < 128 := by
  intro code member
  have mark := quoteMark_cases bytes
  simp only [bytesCodes, List.cons_append, List.mem_cons, List.mem_append, List.mem_flatMap,
    List.not_mem_nil, or_false] at member
  rcases member with isCode | isCode | ⟨byte, inBytes, escaped⟩ | isCode
  · omega
  · omega
  · exact escapeByte_ascii (small byte inBytes) mark code escaped
  · omega

theorem bytesCodes_injective {left right : List Nat} (leftSmall : ∀ byte ∈ left, byte < 256)
    (rightSmall : ∀ byte ∈ right, byte < 256) (same : bytesCodes left = bytesCodes right) :
    left = right := by
  simp only [bytesCodes, List.cons_append, List.cons.injEq, true_and] at same
  obtain ⟨marks, bodies⟩ := same
  rw [← marks] at bodies
  exact flatMap_escapeByte_injective (quoteMark_cases left) leftSmall rightSmall
    (List.append_cancel_right bodies)

theorem bytesRepr_injective {left right : List UInt8} (same : bytesRepr left = bytesRepr right) :
    left = right := by
  have small : ∀ bytes : List UInt8, ∀ byte ∈ bytes.map UInt8.toNat, byte < 256 := by
    intro bytes byte member
    obtain ⟨byte', _, isByte⟩ := List.mem_map.mp member
    rw [← isByte]
    exact byte'.toNat_lt
  have readBack : ∀ codes : List Nat, (∀ code ∈ codes, code < 128) →
      (codes.map Char.ofNat).map Char.toNat = codes := by
    intro codes ascii
    induction codes with
    | nil => rfl
    | cons code codes ih =>
        have one : ∀ code < 128, (Char.ofNat code).toNat = code := by decide
        rw [List.map_cons, List.map_cons, one code (ascii code List.mem_cons_self),
          ih fun other member => ascii other (List.mem_cons_of_mem _ member)]
  have codes := congrArg (List.map Char.toNat) same
  rw [bytesRepr, bytesRepr, readBack _ (bytesCodes_ascii (small left)),
    readBack _ (bytesCodes_ascii (small right))] at codes
  have bytes := bytesCodes_injective (small left) (small right) codes
  exact List.map_injective_iff.mpr (fun _ _ => UInt8.toNat_inj.mp) bytes

def hexChar (digit : Nat) : Char := Char.ofNat (hexCode digit)

/-- `bytes.hex()`. -/
def hexText (bytes : List UInt8) : List Char :=
  bytes.flatMap fun byte => [hexChar (byte.toNat / 16), hexChar (byte.toNat % 16)]

def hexDigit (ch : Char) : Option Nat :=
  if 48 ≤ ch.toNat ∧ ch.toNat ≤ 57 then some (ch.toNat - 48)
  else if 97 ≤ ch.toNat ∧ ch.toNat ≤ 102 then some (ch.toNat - 87)
  else if 65 ≤ ch.toNat ∧ ch.toNat ≤ 70 then some (ch.toNat - 55)
  else none

def isAsciiSpace (ch : Char) : Bool := ch.toNat = 32 || (9 ≤ ch.toNat && ch.toNat ≤ 13)

/-- `bytes.fromhex`: white space may stand before a byte, not inside it. -/
def fromHex : List Char → Option (List UInt8)
  | [] => some []
  | [ch] => if isAsciiSpace ch then some [] else none
  | high :: low :: rest =>
      if isAsciiSpace high then fromHex (low :: rest)
      else do
        let upper ← hexDigit high
        let lower ← hexDigit low
        let bytes ← fromHex rest
        some (UInt8.ofNat (upper * 16 + lower) :: bytes)

theorem hexDigit_hexChar {digit : Nat} (small : digit < 16) :
    hexDigit (hexChar digit) = some digit ∧ isAsciiSpace (hexChar digit) = false := by
  revert digit
  decide

theorem fromHex_hexText (bytes : List UInt8) : fromHex (hexText bytes) = some bytes := by
  induction bytes with
  | nil => rfl
  | cons byte bytes ih =>
      have bound := byte.toNat_lt
      obtain ⟨upper, notSpace⟩ := hexDigit_hexChar (show byte.toNat / 16 < 16 by omega)
      obtain ⟨lower, _⟩ := hexDigit_hexChar (show byte.toNat % 16 < 16 by omega)
      have number : byte.toNat / 16 * 16 + byte.toNat % 16 = byte.toNat := by omega
      have whole : UInt8.ofNat (byte.toNat / 16 * 16 + byte.toNat % 16) = byte := by
        rw [number, UInt8.ofNat_toNat]
      rw [hexText, List.flatMap_cons, ← hexText, List.cons_append, List.cons_append,
        List.nil_append, fromHex, if_neg (by simp [notSpace]), upper, lower, ih]
      simp only [Option.bind_eq_bind, Option.bind_some, whole]

end DecoyEngine.Data
