import DecoyEngine.Data.DecimalText
import Mathlib.Tactic.Positivity
import Mathlib.Tactic.Ring

namespace DecoyEngine.Data

/-! Decimal digits in text: a fixed number of them, and numerals padded with zeros. -/

/-- `str(value).rjust(width, "0")` -/
def rjustDigits (value width : Nat) : List Char :=
  List.replicate (width - (natText value).length) '0' ++ natText value

def digitList (width value : Nat) : List Nat := (fixedDigits 10 width value).reverse

@[simp] theorem length_digitList (width value : Nat) : (digitList width value).length = width := by
  rw [digitList, List.length_reverse, length_fixedDigits]

theorem digitList_lt (width value : Nat) : ∀ digit ∈ digitList width value, digit < 10 :=
  fun digit member => fixedDigits_lt (by decide) width value digit (List.mem_reverse.mp member)

theorem textNat_digitList {width value : Nat} (fits : value < 10 ^ width) :
    textNat ((digitList width value).map digitChar) = value := by
  rw [textNat_digits (digitList_lt width value), digitList, List.reverse_reverse,
    ofDigits_fixedDigits_of_lt fits]

theorem digitList_textNat {digits : List Nat} (small : ∀ digit ∈ digits, digit < 10) :
    digitList digits.length (textNat (digits.map digitChar)) = digits := by
  have reversed : ∀ digit ∈ digits.reverse, digit < 10 := fun digit member =>
    small digit (List.mem_reverse.mp member)
  have recovered := fixedDigits_ofDigits reversed
  rw [List.length_reverse] at recovered
  rw [textNat_digits small, digitList, recovered, List.reverse_reverse]

theorem textNat_lt {digits : List Nat} (small : ∀ digit ∈ digits, digit < 10) :
    textNat (digits.map digitChar) < 10 ^ digits.length := by
  rw [textNat_digits small, ← List.length_reverse]
  exact ofDigits_lt_pow (by decide) fun digit member => small digit (List.mem_reverse.mp member)

theorem rjustDigits_eq {width value : Nat} (some : 0 < width) (fits : value < 10 ^ width) :
    rjustDigits value width = (digitList width value).map digitChar := by
  rw [rjustDigits, natText]
  by_cases zero : value = 0
  · subst zero
    have zeros : fixedDigits 10 width 0 = List.replicate width 0 := by
      have recovered : fixedDigits 10 (List.replicate width 0).length
          (Nat.ofDigits 10 (List.replicate width 0)) = List.replicate width 0 := by
        refine fixedDigits_ofDigits fun digit member => ?_
        rw [List.eq_of_mem_replicate member]
        decide
      rwa [List.length_replicate, Nat.ofDigits_replicate_zero] at recovered
    rw [if_pos rfl, digitList, zeros, List.reverse_replicate, List.map_replicate]
    obtain ⟨rest, rfl⟩ := Nat.exists_eq_succ_of_ne_zero some.ne'
    exact List.replicate_succ'.symm
  · have length : (Nat.digits 10 value).length ≤ width :=
      (Nat.digits_length_le_iff (by decide) value).mpr fits
    have bounded : ∀ digit ∈ Nat.digits 10 value ++
        List.replicate (width - (Nat.digits 10 value).length) 0, digit < 10 := by
      intro digit member
      rcases List.mem_append.mp member with left | right
      · exact Nat.digits_lt_base (by decide) left
      · rw [List.eq_of_mem_replicate right]
        decide
    have recovered := fixedDigits_ofDigits bounded
    rw [List.length_append, List.length_replicate, Nat.add_sub_cancel' length,
      Nat.ofDigits_append_replicate_zero, Nat.ofDigits_digits] at recovered
    rw [if_neg zero, digitList, recovered, List.reverse_append, List.reverse_replicate,
      List.map_append, List.map_replicate, List.length_map, List.length_reverse]
    rfl

theorem digitList_succ (width value : Nat) :
    digitList (width + 1) value = digitList width (value / 10) ++ [value % 10] := by
  rw [digitList, fixedDigits, List.reverse_cons]
  rfl

theorem exists_digits {text : List Char} (ascii : ∀ ch ∈ text, ch ∈ asciiDigits) :
    ∃ digits : List Nat, text = digits.map digitChar ∧ ∀ digit ∈ digits, digit < 10 := by
  induction text with
  | nil => exact ⟨[], rfl, by simp⟩
  | cons ch text ih =>
      rw [List.forall_mem_cons] at ascii
      obtain ⟨digit, small, rfl⟩ := exists_digitChar ascii.1
      obtain ⟨digits, rfl, others⟩ := ih ascii.2
      exact ⟨digit :: digits, rfl, List.forall_mem_cons.mpr ⟨small, others⟩⟩

theorem digitList_head {width value : Nat} (fits : value < 10 ^ width) :
    digitList (width + 1) value = 0 :: digitList width value := by
  rw [digitList, fixedDigits_add, List.reverse_append, fixedDigits, fixedDigits,
    Nat.div_eq_of_lt fits]
  rfl

theorem textNat_append (front back : List Char) :
    textNat (front ++ back) = textNat front * 10 ^ back.length + textNat back := by
  have moved : ∀ (text : List Char) (start : Nat),
      text.foldl (fun value ch => value * 10 + (ch.toNat - 48)) start =
        start * 10 ^ text.length + textNat text := by
    intro text
    induction text with
    | nil =>
        intro start
        simp [textNat]
    | cons ch text ih =>
        intro start
        rw [textNat, List.foldl_cons, List.foldl_cons, ih, ih, List.length_cons, pow_succ]
        ring
  rw [textNat, List.foldl_append, moved]
  rfl

theorem natText_textNat {text : List Char} (ascii : ∀ ch ∈ text, ch ∈ asciiDigits)
    (nonempty : text ≠ []) (first : text.head? ≠ some '0') : natText (textNat text) = text := by
  obtain ⟨digits, rfl, small⟩ := exists_digits ascii
  have reversed : ∀ digit ∈ digits.reverse, digit < 10 := fun digit member =>
    small digit (List.mem_reverse.mp member)
  have leading : ∀ nonempty : digits.reverse ≠ [], digits.reverse.getLast nonempty ≠ 0 := by
    intro nonempty zero
    rw [List.getLast_reverse] at zero
    refine first ?_
    rw [List.head?_map, List.head?_eq_some_head (by simpa using nonempty), zero]
    rfl
  have recovered := Nat.digits_ofDigits 10 (by decide) digits.reverse reversed leading
  have nonzero : Nat.ofDigits 10 digits.reverse ≠ 0 := by
    intro zero
    rw [zero, Nat.digits_zero] at recovered
    exact nonempty (by rw [List.reverse_eq_nil_iff.mp recovered.symm]; rfl)
  rw [textNat_digits small, natText, if_neg nonzero, recovered, List.reverse_reverse]

theorem natText_head {value : Nat} (positive : 0 < value) : (natText value).head? ≠ some '0' := by
  intro zero
  have nonempty : Nat.digits 10 value ≠ [] := by
    rw [ne_eq, Nat.digits_eq_nil_iff_eq_zero]
    omega
  rw [natText, if_neg (by omega), List.head?_map, List.head?_reverse,
    List.getLast?_eq_some_getLast nonempty, Option.map_some] at zero
  have small := Nat.digits_lt_base (by decide : 1 < 10) (List.getLast_mem nonempty)
  have isZero : (Nat.digits 10 value).getLast nonempty = 0 :=
    digitChar_injective small (by decide) (Option.some.inj zero)
  exact Nat.getLast_digit_ne_zero 10 (by omega) isZero

/-- Padded to one digit more than the scale, a numeral is its whole part and its fraction. -/
theorem rjustDigits_split (value scale : Nat) :
    rjustDigits value (scale + 1) =
      natText (value / 10 ^ scale) ++ (digitList scale (value % 10 ^ scale)).map digitChar := by
  have below : value % 10 ^ scale < 10 ^ scale := Nat.mod_lt _ (by positivity)
  by_cases small : value < 10 ^ scale
  · have fits : value < 10 ^ (scale + 1) := by
      rw [pow_succ]
      omega
    rw [rjustDigits_eq (Nat.succ_pos scale) fits, Nat.div_eq_of_lt small, Nat.mod_eq_of_lt small,
      digitList_head small]
    rfl
  · have quotient : 0 < value / 10 ^ scale := Nat.div_pos (by omega) (by positivity)
    let text := natText (value / 10 ^ scale) ++ (digitList scale (value % 10 ^ scale)).map digitChar
    have isValue : textNat text = value := by
      rw [textNat_append, textNat_natText, textNat_digitList below, List.length_map,
        length_digitList, Nat.div_add_mod']
    have ascii : ∀ ch ∈ text, ch ∈ asciiDigits := by
      intro ch member
      rcases List.mem_append.mp member with inWhole | inFraction
      · exact natText_mem_digits _ ch inWhole
      · obtain ⟨digit, inDigits, rfl⟩ := List.mem_map.mp inFraction
        exact digitChar_mem (digitList_lt _ _ digit inDigits)
    have someWhole := natText_ne_nil (value / 10 ^ scale)
    have first : text.head? ≠ some '0' := by
      rw [List.head?_append_of_ne_nil _ someWhole]
      exact natText_head quotient
    have whole := natText_textNat ascii (by simp [text, someWhole]) first
    rw [isValue] at whole
    have length : scale + 1 ≤ text.length := by
      have positive := List.length_pos_of_ne_nil someWhole
      rw [List.length_append, List.length_map, length_digitList]
      omega
    rw [rjustDigits, whole, Nat.sub_eq_zero_of_le length]
    rfl

end DecoyEngine.Data
