import Mathlib.Data.Nat.Digits.Lemmas

namespace DecoyEngine.Data

/-! Fixed-width positional numerals.

`fixedDigits` lists exactly `width` digits, least significant first, and drops
whatever does not fit.  Every fixed-width rendering in the engine (FF1 halves,
big-endian integers, zero-padded decimals) is one of these lists read in one of
the two directions. -/

def fixedDigits (radix : Nat) : Nat → Nat → List Nat
  | 0, _ => []
  | width + 1, value => value % radix :: fixedDigits radix width (value / radix)

@[simp] theorem length_fixedDigits (radix width value : Nat) :
    (fixedDigits radix width value).length = width := by
  induction width generalizing value with
  | zero => rfl
  | succ width ih => simp [fixedDigits, ih]

theorem fixedDigits_lt {radix : Nat} (positive : 0 < radix) (width value : Nat) :
    ∀ digit ∈ fixedDigits radix width value, digit < radix := by
  induction width generalizing value with
  | zero => simp [fixedDigits]
  | succ width ih =>
      intro digit member
      rcases List.mem_cons.mp member with rfl | member
      · exact Nat.mod_lt _ positive
      · exact ih (value / radix) digit member

theorem ofDigits_fixedDigits (radix width value : Nat) :
    Nat.ofDigits radix (fixedDigits radix width value) = value % radix ^ width := by
  induction width generalizing value with
  | zero => simp [fixedDigits, Nat.mod_one]
  | succ width ih =>
      rw [fixedDigits, Nat.ofDigits_cons, ih, Nat.pow_succ', Nat.mod_mul]

theorem ofDigits_fixedDigits_of_lt {radix width value : Nat} (fits : value < radix ^ width) :
    Nat.ofDigits radix (fixedDigits radix width value) = value := by
  rw [ofDigits_fixedDigits, Nat.mod_eq_of_lt fits]

theorem fixedDigits_add (radix low high value : Nat) :
    fixedDigits radix (low + high) value =
      fixedDigits radix low value ++ fixedDigits radix high (value / radix ^ low) := by
  induction low generalizing value with
  | zero => simp [fixedDigits]
  | succ low ih =>
      rw [Nat.succ_add_eq_add_succ, Nat.add_succ, fixedDigits, ih, fixedDigits, List.cons_append,
        Nat.div_div_eq_div_mul, Nat.pow_succ']

theorem fixedDigits_ofDigits {radix : Nat} {digits : List Nat}
    (bounded : ∀ digit ∈ digits, digit < radix) :
    fixedDigits radix digits.length (Nat.ofDigits radix digits) = digits := by
  induction digits with
  | nil => rfl
  | cons digit rest ih =>
      have small := bounded digit (by simp)
      have positive : 0 < radix := by omega
      rw [List.length_cons, fixedDigits, Nat.ofDigits_cons]
      simp only [Nat.add_mul_mod_self_left, Nat.mod_eq_of_lt small,
        Nat.add_mul_div_left digit _ positive, Nat.div_eq_of_lt small, Nat.zero_add]
      rw [ih (fun other member => bounded other (by simp [member]))]

theorem ofDigits_lt_pow {radix : Nat} {digits : List Nat} (positive : 0 < radix)
    (bounded : ∀ digit ∈ digits, digit < radix) :
    Nat.ofDigits radix digits < radix ^ digits.length := by
  have reduced := ofDigits_fixedDigits radix digits.length (Nat.ofDigits radix digits)
  rw [fixedDigits_ofDigits bounded] at reduced
  rw [reduced]
  exact Nat.mod_lt _ (Nat.pow_pos positive)

theorem foldl_digits (radix : Nat) (digits : List Nat) :
    digits.foldl (fun value digit => value * radix + digit) 0 =
      Nat.ofDigits radix digits.reverse := by
  rw [Nat.ofDigits_eq_foldr, List.foldr_reverse]
  congr 1
  funext value digit
  simp [Nat.mul_comm radix, Nat.add_comm]

/-- `int.to_bytes(length, "big")`; `none` is its overflow error. -/
def toBytesBig (value length : Nat) : Option (List UInt8) :=
  if value < 256 ^ length then
    some ((fixedDigits 256 length value).reverse.map UInt8.ofNat)
  else none

/-- `int.from_bytes(bytes, "big")`. -/
def fromBytesBig (bytes : List UInt8) : Nat :=
  bytes.foldl (fun value byte => value * 256 + byte.toNat) 0

theorem toBytesBig_of_lt {value length : Nat} (fits : value < 256 ^ length) :
    ∃ bytes, toBytesBig value length = some bytes ∧ bytes.length = length :=
  ⟨_, if_pos fits, by simp⟩

theorem fromBytesBig_eq (bytes : List UInt8) :
    fromBytesBig bytes = Nat.ofDigits 256 (bytes.map UInt8.toNat).reverse := by
  rw [← foldl_digits, List.foldl_map]
  rfl

theorem length_of_toBytesBig {value length : Nat} {bytes : List UInt8}
    (encoded : toBytesBig value length = some bytes) : bytes.length = length := by
  rw [toBytesBig] at encoded
  split at encoded
  · cases encoded
    simp
  · cases encoded

theorem fromBytesBig_toBytesBig {value length : Nat} {bytes : List UInt8}
    (encoded : toBytesBig value length = some bytes) : fromBytesBig bytes = value := by
  rw [toBytesBig] at encoded
  split at encoded
  · rename_i fits
    cases encoded
    have digits : ((fixedDigits 256 length value).reverse.map UInt8.ofNat).map UInt8.toNat =
        (fixedDigits 256 length value).reverse := by
      have each : ∀ digit ∈ (fixedDigits 256 length value).reverse,
          (UInt8.toNat ∘ UInt8.ofNat) digit = id digit := by
        intro digit member
        have small := fixedDigits_lt (by decide) length value digit (List.mem_reverse.mp member)
        exact UInt8.toNat_ofNat_of_lt' small
      rw [List.map_map, List.map_congr_left each, List.map_id]
    rw [fromBytesBig_eq, digits, List.reverse_reverse, ofDigits_fixedDigits_of_lt fits]
  · cases encoded

theorem fromBytesBig_lt (bytes : List UInt8) : fromBytesBig bytes < 256 ^ bytes.length := by
  rw [fromBytesBig_eq]
  have bounded : ∀ digit ∈ (bytes.map UInt8.toNat).reverse, digit < 256 := by
    intro digit member
    obtain ⟨byte, _, rfl⟩ := List.mem_map.mp (List.mem_reverse.mp member)
    exact byte.toNat_lt
  simpa using ofDigits_lt_pow (by decide) bounded

end DecoyEngine.Data
