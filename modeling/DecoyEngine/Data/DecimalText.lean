import DecoyEngine.Data.Numerals
import DecoyEngine.Data.Text
import Mathlib.Data.List.TakeWhile

namespace DecoyEngine.Data

/-! Decimal numerals as text, and the length-prefixed frames built from them. -/

/-- `str(value)` of a non-negative integer. -/
def natText (value : Nat) : List Char :=
  if value = 0 then ['0'] else (Nat.digits 10 value).reverse.map digitChar

/-- `str(value)` of an integer. -/
def intText : Int → List Char
  | .ofNat value => natText value
  | .negSucc value => '-' :: natText (value + 1)

/-- The longest decimal text `str` makes of an integer, by default. -/
def intMaxStrDigits : Nat := 4300

/-- The number a run of digits stands for, leading zeros included. -/
def textNat (text : List Char) : Nat :=
  text.foldl (fun value ch => value * 10 + (ch.toNat - 48)) 0

/-- The number `%+d` stands for. -/
def signedNumber : List Char → Int
  | '-' :: text => -(textNat text : Int)
  | _ :: text => textNat text
  | [] => 0

theorem toNat_digitChar {digit : Nat} (small : digit < 10) :
    (digitChar digit).toNat = 48 + digit := by
  revert digit
  decide

theorem textNat_digits {digits : List Nat} (small : ∀ digit ∈ digits, digit < 10) :
    textNat (digits.map digitChar) = Nat.ofDigits 10 digits.reverse := by
  rw [textNat, List.foldl_map, ← foldl_digits]
  apply List.foldl_ext
  intro value digit member
  rw [toNat_digitChar (small digit member), Nat.add_sub_cancel_left]

@[simp] theorem textNat_natText (value : Nat) : textNat (natText value) = value := by
  rw [natText]
  split
  · rename_i zero
    rw [zero]
    rfl
  · have small : ∀ digit ∈ (Nat.digits 10 value).reverse, digit < 10 := by
      intro digit member
      exact Nat.digits_lt_base (by decide) (List.mem_reverse.mp member)
    rw [textNat_digits small, List.reverse_reverse, Nat.ofDigits_digits]

theorem textNat_zeros (zeros : Nat) (text : List Char) :
    textNat (List.replicate zeros '0' ++ text) = textNat text := by
  induction zeros with
  | zero => rfl
  | succ zeros ih =>
      rw [List.replicate_succ, List.cons_append]
      exact ih

theorem natText_mem_digits (value : Nat) : ∀ ch ∈ natText value, ch ∈ asciiDigits := by
  intro ch member
  rw [natText] at member
  split at member
  · rw [List.mem_singleton.mp member]
    decide
  · obtain ⟨digit, inDigits, isChar⟩ := List.mem_map.mp member
    rw [← isChar]
    exact digitChar_mem (Nat.digits_lt_base (by decide) (List.mem_reverse.mp inDigits))

theorem natText_ne_nil (value : Nat) : natText value ≠ [] := by
  rw [natText]
  split
  · exact List.cons_ne_nil _ _
  · rename_i nonzero
    simpa [Nat.digits_eq_nil_iff_eq_zero] using nonzero

theorem natText_injective {left right : Nat} (same : natText left = natText right) :
    left = right := by
  rw [← textNat_natText left, same, textNat_natText]

theorem length_natText {value : Nat} (positive : 0 < value) :
    (natText value).length = Nat.log 10 value + 1 := by
  rw [natText, if_neg (by omega), List.length_map, List.length_reverse,
    Nat.length_digits 10 value (by decide) (by omega)]

theorem intText_injective {left right : Int} (same : intText left = intText right) :
    left = right := by
  have unsigned : ∀ value rest, natText value ≠ '-' :: rest := by
    intro value rest minus
    have digit := natText_mem_digits value '-' (by rw [minus]; exact List.mem_cons_self)
    revert digit
    decide
  cases left with
  | ofNat left =>
      cases right with
      | ofNat right => rw [natText_injective same]
      | negSucc right => exact absurd same (unsigned left _)
  | negSucc left =>
      cases right with
      | ofNat right => exact absurd same.symm (unsigned right _)
      | negSucc right =>
          have magnitudes := natText_injective (List.cons.inj same).2
          rw [Nat.succ_injective magnitudes]

theorem takeWhile_append_separator {text : List Char} {separator : Char}
    (absent : separator ∉ text) (rest : List Char) :
    (text ++ separator :: rest).takeWhile (fun ch => ch ≠ separator) = text := by
  rw [List.takeWhile_append_of_pos]
  · simp
  · intro ch member
    simpa using ne_of_mem_of_not_mem member absent

theorem dropWhile_append_separator {text : List Char} {separator : Char}
    (absent : separator ∉ text) (rest : List Char) :
    (text ++ separator :: rest).dropWhile (fun ch => ch ≠ separator) = separator :: rest := by
  rw [List.dropWhile_append_of_pos]
  · simp
  · intro ch member
    simpa using ne_of_mem_of_not_mem member absent

theorem dropWhile_absent {text : List Char} {separator : Char} (absent : separator ∉ text) :
    text.dropWhile (fun ch => ch ≠ separator) = [] := by
  rw [List.dropWhile_eq_nil_iff]
  intro ch member
  simpa using ne_of_mem_of_not_mem member absent

theorem append_separator_inj {left right leftRest rightRest : List Char} {separator : Char}
    (leftAbsent : separator ∉ left) (rightAbsent : separator ∉ right)
    (same : left ++ separator :: leftRest = right ++ separator :: rightRest) :
    left = right ∧ leftRest = rightRest := by
  have prefixes : left = right := by
    rw [← takeWhile_append_separator leftAbsent leftRest, same,
      takeWhile_append_separator rightAbsent]
  rw [prefixes] at same
  exact ⟨prefixes, (List.cons.inj (List.append_cancel_left same)).2⟩

/-- `f"{len(part)}:{part}"`. -/
def framed (part : List Char) : List Char := natText part.length ++ ':' :: part

theorem natText_no_colon (value : Nat) : ':' ∉ natText value := by
  intro member
  have digit := natText_mem_digits value ':' member
  revert digit
  decide

theorem framed_append_inj {left right leftRest rightRest : List Char}
    (same : framed left ++ leftRest = framed right ++ rightRest) :
    left = right ∧ leftRest = rightRest := by
  simp only [framed, List.append_assoc, List.cons_append] at same
  obtain ⟨lengths, bodies⟩ :=
    append_separator_inj (natText_no_colon _) (natText_no_colon _) same
  exact List.append_inj bodies (natText_injective lengths)

theorem flatMap_framed_injective {left right : List (List Char)}
    (same : left.flatMap framed = right.flatMap framed) : left = right := by
  have framed_ne : ∀ part rest, framed part ++ rest ≠ [] := by
    intro part rest
    simp [framed]
  induction left generalizing right with
  | nil =>
      cases right with
      | nil => rfl
      | cons part right => exact absurd same.symm (framed_ne part _)
  | cons first left ih =>
      cases right with
      | nil => exact absurd same (framed_ne first _)
      | cons second right =>
          obtain ⟨parts, rests⟩ := framed_append_inj same
          rw [parts, ih rests]

end DecoyEngine.Data
