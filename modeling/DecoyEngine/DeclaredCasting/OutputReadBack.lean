import DecoyEngine.DeclaredCasting.CobolPacked
import DecoyEngine.DeclaredCasting.NumberPlain
import DecoyEngine.DeclaredCasting.OutputInverse
import DecoyEngine.DeclaredCasting.OutputWidth

namespace DecoyEngine.DeclaredCasting.Output

open Computability
open DecoyEngine.Data hiding scaled
open DecoyEngine.Data.Regex (Spells letter)
open DecoyEngine.DeclaredCasting.Numeric DecoyEngine.DeclaredCasting.NumberText
open DecoyEngine.Transforms.BucketPerturb (ofYmd ofYmd_eq)

/-! What the parsers of integers and dates read back, and the ends of written texts. -/

/-- The padding of `compile_formatter`, on its side. -/
def Align.padded (pad : Char) (count : Nat) : Align → List Char → List Char
  | .right, text => List.replicate count pad ++ text
  | .left, text => text ++ List.replicate count pad

theorem strip_left (pad : Char) (text : List Char) :
    Align.left.strip pad text = (Align.right.strip pad text.reverse).reverse := rfl

theorem edge_left (text : List Char) : Align.left.edge text = Align.right.edge text.reverse :=
  List.head?_reverse.symm

section Strip

variable (align : Align) (pad : Char) (text : List Char)

theorem strip_padded (count : Nat) :
    align.strip pad (align.padded pad count text) = align.strip pad text := by
  have front : ∀ rest : List Char,
      Align.right.strip pad (List.replicate count pad ++ rest) = Align.right.strip pad rest := by
    intro rest
    refine List.dropWhile_append_of_pos fun ch member => ?_
    rw [List.eq_of_mem_replicate member, beq_self_eq_true]
  cases align with
  | right => exact front text
  | left =>
      rw [strip_left, strip_left, Align.padded, List.reverse_append, List.reverse_replicate, front]

/-- A text whose end is no pad is all that is left of its padded form. -/
theorem strip_eq_self (apart : align.edge text ≠ some pad) : align.strip pad text = text := by
  have front : ∀ rest : List Char, rest.head? ≠ some pad → Align.right.strip pad rest = rest := by
    intro rest apart
    cases rest with
    | nil => rfl
    | cons ch rest =>
        have other : (ch == pad) = false :=
          beq_eq_false_iff_ne.mpr fun isPad => apart (congrArg some isPad)
        rw [Align.strip, List.dropWhile_cons, other, if_neg Bool.false_ne_true]
  cases align with
  | right => exact front text apart
  | left =>
      rw [edge_left] at apart
      rw [strip_left, front text.reverse apart, List.reverse_reverse]

theorem edge_strip_ne : align.edge (align.strip pad text) ≠ some pad := by
  have front : ∀ rest : List Char, (Align.right.strip pad rest).head? ≠ some pad := by
    intro rest isPad
    have stops := List.head?_dropWhile_not (· == pad) rest
    rw [Align.strip] at isPad
    rw [isPad] at stops
    exact Bool.false_ne_true (stops.symm.trans (beq_self_eq_true pad))
  cases align with
  | right => exact front text
  | left =>
      rw [edge_left, strip_left, List.reverse_reverse]
      exact front text.reverse

end Strip

/-- The end of a text: its mark, or a digit where it has none. -/
def EndsWith (mark edge : Option Char) : Prop :=
  match mark with
  | some ch => edge = some ch
  | none => ∃ ch ∈ asciiDigits, edge = some ch

theorem EndsWith.eq_pad_iff {mark edge : Option Char} {pad : Char} (ends : EndsWith mark edge)
    (notDigit : pad ∉ asciiDigits) : edge = some pad ↔ mark = some pad := by
  cases mark with
  | some ch => rw [show edge = some ch from ends]
  | none =>
      obtain ⟨ch, digit, rfl⟩ := ends
      refine iff_of_false (fun isPad => ?_) nofun
      obtain rfl := Option.some.inj isPad
      exact notDigit digit

section Integers

variable {type : IntegerType} {negative : Bool} {digits : List Char}

theorem spells_intPattern :
    Spells intPattern
      (Regex.upTo (letter (· ∈ ['+', '-'])) 1 * (letter isDigit * (letter isDigit)∗)) :=
  Regex.spells_seq (Regex.spells_upTo Regex.spells_set 1) (Regex.spells_plus Regex.spells_set)

theorem intText_eq (value : Int) :
    intText value = signed (decide (value < 0)) (natText value.natAbs) := by
  cases value with
  | ofNat value =>
      have nonnegative : decide (Int.ofNat value < 0) = false :=
        decide_eq_false (Int.natCast_nonneg value).not_gt
      rw [nonnegative]
      rfl
  | negSucc value =>
      rw [decide_eq_true (Int.negSucc_lt_zero value)]
      rfl

theorem readInt_signed (isNumeral : IsNumeral digits) :
    readInt (signed negative digits) =
      if negative then -(textNat digits : Int) else textNat digits := by
  cases negative with
  | true => rfl
  | false =>
      obtain ⟨nonempty, ascii⟩ := isNumeral
      cases digits with
      | nil => exact absurd rfl nonempty
      | cons ch rest =>
          have digit := ascii ch List.mem_cons_self
          have notMinus : ch ≠ '-' := ne_of_mem_of_not_mem digit (by decide)
          have notPlus : ch ≠ '+' := ne_of_mem_of_not_mem digit (by decide)
          have unsigned : readInt (ch :: rest) = textNat (ch :: rest) := by
            unfold readInt
            split
            · rename_i isMinus
              exact absurd (List.cons.inj isMinus).1 notMinus
            · rename_i isPlus
              exact absurd (List.cons.inj isPlus).1 notPlus
            · rfl
          exact unsigned

theorem minus_of_readInt_neg {raw : List Char} (isNegative : readInt raw < 0) :
    raw.head? = some '-' := by
  unfold readInt at isNegative
  split at isNegative
  · rfl
  · omega
  · omega

theorem length_significant_le (ascii : ∀ ch ∈ digits, ch ∈ asciiDigits) :
    (digits.dropWhile (· = '0')).length ≤ (natText (textNat digits)).length := by
  induction digits with
  | nil => exact Nat.zero_le _
  | cons ch digits ih =>
      rw [List.forall_mem_cons] at ascii
      by_cases zero : ch = '0'
      · subst zero
        rw [List.dropWhile_cons, if_pos (decide_eq_true rfl)]
        have dropped : textNat ('0' :: digits) = textNat digits := textNat_zeros 1 digits
        rw [dropped]
        exact ih ascii.2
      · rw [List.dropWhile_cons, decide_eq_false zero, if_neg Bool.false_ne_true, natText_textNat
          (List.forall_mem_cons.mpr ascii) (List.cons_ne_nil _ _)
          fun first => zero (Option.some.inj first)]

theorem length_natText_succ_le (value : Nat) :
    (natText (value + 1)).length ≤ (natText value).length + 1 := by
  by_contra long
  have large := pow_le_of_length_natText (Nat.succ_pos value) (not_le.mp long)
  have small : value < 10 ^ (natText value).length := by
    by_cases zero : value = 0
    · subst zero
      decide
    · exact lt_pow_length_natText (Nat.pos_of_ne_zero zero)
  rw [pow_succ] at large
  omega

theorem intBounds_magnitude (type : IntegerType) {value : Int}
    (inside : (intBounds type).1 ≤ value ∧ value ≤ (intBounds type).2) :
    ∃ largest : Nat, (intBounds type).2 = largest ∧ value.natAbs ≤ largest + 1 ∧
      largest < 10 ^ 20 := by
  have width := type.bitWidth_mem
  simp only [List.mem_cons, List.not_mem_nil, or_false] at width
  rw [intBounds] at inside ⊢
  cases sign : type.signed with
  | true =>
      rw [sign, if_pos rfl] at inside
      refine ⟨2 ^ (type.bitWidth - 1) - 1, ?_⟩
      rcases width with width | width | width | width <;> rw [width] at inside ⊢ <;>
        norm_num at inside ⊢ <;> omega
  | false =>
      rw [sign, if_neg Bool.false_ne_true] at inside
      refine ⟨2 ^ type.bitWidth - 1, ?_⟩
      rcases width with width | width | width | width <;> rw [width] at inside ⊢ <;>
        norm_num at inside ⊢ <;> omega

theorem parseInteger_signed {value : Int} (isNumeral : IsNumeral digits)
    (short : (signed negative digits).length ≤ maxText)
    (isValue : value = if negative then -(textNat digits : Int) else textNat digits)
    (inside : (intBounds type).1 ≤ value ∧ value ≤ (intBounds type).2) :
    parseInteger type (signed negative digits) = .ok value := by
  have matched : (Regex.fullmatch [intPattern] (signed negative digits)).isSome = true := by
    rw [Regex.fullmatch_single spells_intPattern]
    refine Language.mem_mul.mpr ⟨if negative then ['-'] else [], ?_, digits,
      mem_plus_digit.mpr isNumeral, by cases negative <;> rfl⟩
    rw [Regex.mem_letter_upTo]
    cases negative <;> decide
  have unsigned : (signed negative digits).dropWhile (· ∈ ['+', '-']) = digits := by
    have bare : digits.dropWhile (· ∈ ['+', '-']) = digits := by
      cases digits with
      | nil => rfl
      | cons ch rest =>
          have signs : ∀ ch ∈ asciiDigits, ch ∉ ['+', '-'] := by decide
          refine List.dropWhile_cons_of_neg ?_
          rw [decide_eq_false (signs ch (isNumeral.2 ch List.mem_cons_self))]
          exact Bool.false_ne_true
    cases negative with
    | false => exact bare
    | true => exact (List.dropWhile_cons_of_pos (by decide)).trans bare
  obtain ⟨largest, isLargest, magnitude, -⟩ := intBounds_magnitude type inside
  have absolute : value.natAbs = textNat digits := by
    rw [isValue]
    cases negative <;> simp
  have significant : (digits.dropWhile (· = '0')).length ≤
      (intText (intBounds type).2).length + 1 := by
    have digitsLength := length_significant_le isNumeral.2
    have below := length_natText_mono magnitude
    have next := length_natText_succ_le largest
    rw [isLargest]
    change _ ≤ (natText largest).length + 1
    rw [← absolute] at digitsLength
    omega
  have read : readInt (signed negative digits) = value :=
    (readInt_signed isNumeral).trans isValue.symm
  rw [parseInteger, if_neg]
  · dsimp only
    rw [unsigned, if_neg (not_lt.mpr significant), read, if_pos inside]
  · rw [not_or, Option.isNone_iff_eq_none]
    exact ⟨not_lt.mpr short, Option.isSome_iff_ne_none.mp matched⟩

theorem readInt_of_parse {raw : List Char} {value : Int}
    (parsed : parseInteger type raw = .ok value) : raw.length ≤ maxText ∧ value = readInt raw := by
  rw [parseInteger] at parsed
  split at parsed
  · cases parsed
  rename_i accepted
  rw [not_or] at accepted
  dsimp only at parsed
  split at parsed
  · cases parsed
  split at parsed
  · exact ⟨not_lt.mp accepted.1, (Except.ok.inj parsed).symm⟩
  · cases parsed

end Integers

theorem edge_cases (align : Align) {text : List Char} (nonempty : text ≠ []) :
    ∃ ch ∈ text, align.edge text = some ch := by
  cases align with
  | right =>
      exact ⟨text.head nonempty, List.head_mem nonempty, List.head?_eq_some_head nonempty⟩
  | left =>
      exact ⟨text.getLast nonempty, List.getLast_mem nonempty,
        List.getLast?_eq_some_getLast nonempty⟩

theorem edge_right_append {front : List Char} (nonempty : front ≠ []) (back : List Char) :
    Align.right.edge (front ++ back) = Align.right.edge front :=
  List.head?_append_of_ne_nil _ nonempty

theorem edge_left_append {back : List Char} (front : List Char) (nonempty : back ≠ []) :
    Align.left.edge (front ++ back) = Align.left.edge back :=
  List.getLast?_append_of_ne_nil _ nonempty

theorem edge_numeral (align : Align) {digits : List Char} (isNumeral : IsNumeral digits) :
    EndsWith none (align.edge digits) := by
  obtain ⟨ch, member, isEdge⟩ := edge_cases align isNumeral.1
  exact ⟨ch, isNumeral.2 ch member, isEdge⟩

/-- The character of a literal. -/
def DatePart.mark : DatePart → Option Char
  | .literal ch => some ch
  | _ => none

def DateFormat.mark (format : DateFormat) : Align → Option Char
  | .right => format.parts.head?.bind DatePart.mark
  | .left => format.parts.getLast?.bind DatePart.mark

def DatePart.language : DatePart → Language Char
  | .year => letter isDigit ^ 4
  | .month | .day => letter isDigit ^ 2
  | .literal ch => letter (· == ch)

theorem spells_datePart (part : DatePart) : Spells part.pattern part.language := by
  cases part with
  | year => exact Regex.spells_times Regex.spells_set 4
  | month => exact Regex.spells_times Regex.spells_set 2
  | day => exact Regex.spells_times Regex.spells_set 2
  | literal ch => exact Regex.spells_set

theorem spells_dateParts (parts : List DatePart) :
    List.Forall₂ Spells (parts.map DatePart.pattern) (parts.map DatePart.language) := by
  rw [List.forall₂_map_left_iff, List.forall₂_map_right_iff, List.forall₂_same]
  exact fun part _ => spells_datePart part

theorem length_of_mem_language {part : DatePart} {word : List Char}
    (member : word ∈ part.language) : word.length = part.width := by
  cases part with
  | literal ch => rw [mem_letter_eq.mp member]; rfl
  | _ => exact (Regex.mem_letter_pow.mp member).1

theorem words_unique {parts : List DatePart} {words others : List (List Char)}
    (are : List.Forall₂ (· ∈ ·) words (parts.map DatePart.language))
    (areOthers : List.Forall₂ (· ∈ ·) others (parts.map DatePart.language))
    (same : words.flatten = others.flatten) : others = words := by
  induction parts generalizing words others with
  | nil =>
      rw [List.map_nil, List.forall₂_nil_right_iff] at are areOthers
      rw [are, areOthers]
  | cons part parts ih =>
      rw [List.map_cons, List.forall₂_cons_right_iff] at are areOthers
      obtain ⟨word, words, isWord, areWords, rfl⟩ := are
      obtain ⟨other, others, isOther, areOthers, rfl⟩ := areOthers
      rw [List.flatten_cons, List.flatten_cons] at same
      have lengths := (length_of_mem_language isWord).trans (length_of_mem_language isOther).symm
      obtain ⟨rfl, rests⟩ := List.append_inj same lengths
      rw [ih areWords areOthers rests]

section DateText

variable {format : DateFormat} {date : Date}

theorem zeroPadded_numeral {width value : Nat} (positive : 0 < width) (fits : value < 10 ^ width) :
    IsNumeral (zeroPadded width value) ∧ (zeroPadded width value).length = width ∧
      textNat (zeroPadded width value) = value := by
  rw [zeroPadded_eq fits]
  refine ⟨⟨?_, ?_⟩, by rw [List.length_map, length_digitList], textNat_digitList fits⟩
  · apply List.ne_nil_of_length_pos
    rw [List.length_map, length_digitList]
    exact positive
  · intro ch member
    obtain ⟨digit, inDigits, rfl⟩ := List.mem_map.mp member
    exact digitChar_mem (digitList_lt _ _ digit inDigits)

theorem datePart_field (date : Date) :
    (IsNumeral (DatePart.text date .year) ∧ (DatePart.text date .year).length = 4 ∧
      textNat (DatePart.text date .year) = date.year) ∧
    (IsNumeral (DatePart.text date .month) ∧ (DatePart.text date .month).length = 2 ∧
      textNat (DatePart.text date .month) = date.month) ∧
    (IsNumeral (DatePart.text date .day) ∧ (DatePart.text date .day).length = 2 ∧
      textNat (DatePart.text date .day) = date.day) := by
  have year := date.yearBounds.2
  rw [Gregorian.maxYear] at year
  have month := date.monthBounds.2
  exact ⟨zeroPadded_numeral (by decide) (by omega), zeroPadded_numeral (by decide) (by omega),
    zeroPadded_numeral (by decide) (day_lt date)⟩

theorem text_mem_language (date : Date) (part : DatePart) : part.text date ∈ part.language := by
  obtain ⟨⟨yearDigits, yearLength, -⟩, ⟨monthDigits, monthLength, -⟩, ⟨dayDigits, dayLength, -⟩⟩ :=
    datePart_field date
  have all : ∀ {text : List Char}, IsNumeral text → ∀ ch ∈ text, isDigit ch = true :=
    fun isNumeral ch member => isDigit_iff.mpr (isNumeral.2 ch member)
  cases part with
  | year => exact Regex.mem_letter_pow.mpr ⟨yearLength, all yearDigits⟩
  | month => exact Regex.mem_letter_pow.mpr ⟨monthLength, all monthDigits⟩
  | day => exact Regex.mem_letter_pow.mpr ⟨dayLength, all dayDigits⟩
  | literal ch => exact mem_letter_eq.mpr rfl

theorem datePart_ends (date : Date) (align : Align) (part : DatePart) :
    EndsWith part.mark (align.edge (part.text date)) := by
  obtain ⟨year, month, day⟩ := datePart_field date
  cases part with
  | year => exact edge_numeral align year.1
  | month => exact edge_numeral align month.1
  | day => exact edge_numeral align day.1
  | literal ch => cases align <;> rfl

theorem lookup_zip_text {parts : List DatePart} {part : DatePart} (member : part ∈ parts) :
    (parts.zip (parts.map (DatePart.text date))).lookup part = some (part.text date) := by
  induction parts with
  | nil => cases member
  | cons first parts ih =>
      rw [List.map_cons, List.zip_cons_cons, List.lookup_cons]
      by_cases isFirst : part = first
      · subst isFirst
        rw [beq_self_eq_true]
      · rw [beq_eq_false_iff_ne.mpr isFirst]
        exact ih ((List.mem_cons.mp member).resolve_left isFirst)

theorem readField_text {parts : List DatePart} {part : DatePart} (member : part ∈ parts) :
    readField parts (parts.map (DatePart.text date)) part = textNat (part.text date) := by
  rw [readField, lookup_zip_text member]
  rfl

theorem datePattern_eq_some {chars : List Char} {parts : List DatePart}
    (pattern : datePattern chars = some parts) :
    dateParts chars = some parts ∧
      DatePart.year ∈ parts ∧ DatePart.month ∈ parts ∧ DatePart.day ∈ parts := by
  rw [datePattern] at pattern
  split at pattern
  · cases pattern
  rename_i found parsed
  split at pattern
  · rename_i counts
    obtain rfl := Option.some.inj pattern
    have present : ∀ part, found.count part = 1 → part ∈ found :=
      fun part once => List.count_pos_iff.mp (by rw [once]; exact Nat.one_pos)
    exact ⟨parsed, present _ counts.1, present _ counts.2.1, present _ counts.2.2.1⟩
  · cases pattern

theorem length_flatMap_text (format : DateFormat) (date : Date) :
    (format.parts.flatMap (DatePart.text date)).length = dateWidth format :=
  measure_parts .codePoints date (dateParts_literals (datePattern_eq_some format.pattern).1)

theorem parseDate_text (date : Date) (short : dateWidth format ≤ 32) :
    parseDate format (format.parts.flatMap (DatePart.text date)) = .ok date := by
  obtain ⟨-, hasYear, hasMonth, hasDay⟩ := datePattern_eq_some format.pattern
  obtain ⟨⟨-, -, year⟩, ⟨-, -, month⟩, ⟨-, -, day⟩⟩ := datePart_field date
  have words : List.Forall₂ (· ∈ ·) (format.parts.map (DatePart.text date))
      (format.parts.map DatePart.language) := by
    rw [List.forall₂_map_left_iff, List.forall₂_map_right_iff, List.forall₂_same]
    exact fun part _ => text_mem_language date part
  have matched := Regex.fullmatch_eq_some (spells_dateParts format.parts) words
    fun others same are => words_unique words are same
  rw [parseDate, if_neg (by rw [length_flatMap_text]; exact not_lt.mpr short), List.flatMap_def,
    matched]
  dsimp only
  rw [readField_text hasYear, readField_text hasMonth, readField_text hasDay, year, month, day,
    ofYmd_eq date.yearBounds date.monthBounds date.dayBounds]

theorem parseDate_ok {raw : List Char} (parsed : parseDate format raw = .ok date) :
    raw.length ≤ 32 ∧ ∃ words : List (List Char), raw = words.flatten ∧
      List.Forall₂ (· ∈ ·) words (format.parts.map DatePart.language) := by
  rw [parseDate] at parsed
  split at parsed
  · cases parsed
  rename_i short
  split at parsed
  · cases parsed
  rename_i words matched
  exact ⟨not_lt.mp short, words, Regex.fullmatch_sound (spells_dateParts format.parts) matched⟩

/-- A literal at an end of the format stands at that end of every text that is read. -/
theorem edge_of_words {parts : List DatePart} {words : List (List Char)} {ch : Char}
    (are : List.Forall₂ (· ∈ ·) words (parts.map DatePart.language)) :
    (parts.head? = some (.literal ch) → words.flatten.head? = some ch) ∧
      (parts.getLast? = some (.literal ch) → words.flatten.getLast? = some ch) := by
  constructor
  · intro isHead
    obtain ⟨rest, rfl⟩ := List.head?_eq_some_iff.mp isHead
    rw [List.map_cons, List.forall₂_cons_right_iff] at are
    obtain ⟨word, words, isWord, -, rfl⟩ := are
    rw [mem_letter_eq.mp isWord]
    rfl
  · intro isLast
    obtain ⟨front, rfl⟩ := List.getLast?_eq_some_iff.mp isLast
    rw [List.map_append] at are
    have behind := List.forall₂_drop_append _ _ _ are
    rw [List.map_cons, List.map_nil, List.forall₂_cons_right_iff] at behind
    obtain ⟨word, others, isWord, isNil, isDrop⟩ := behind
    rw [List.forall₂_nil_right_iff.mp isNil, mem_letter_eq.mp isWord] at isDrop
    rw [← List.take_append_drop (front.map DatePart.language).length words, isDrop,
      List.flatten_append, List.flatten_singleton, List.getLast?_concat]

theorem mark_eq_some {part : Option DatePart} {ch : Char}
    (isMark : part.bind DatePart.mark = some ch) : part = some (.literal ch) := by
  obtain ⟨part, rfl, isMark⟩ := Option.bind_eq_some_iff.mp isMark
  cases part with
  | literal other => rw [Option.some.inj isMark]
  | _ => cases isMark

theorem edge_of_parseDate {raw : List Char} {align : Align} {ch : Char}
    (isMark : format.mark align = some ch) (parsed : parseDate format raw = .ok date) :
    align.edge raw = some ch := by
  obtain ⟨-, words, rfl, are⟩ := parseDate_ok parsed
  cases align with
  | right => exact (edge_of_words are).1 (mark_eq_some isMark)
  | left => exact (edge_of_words are).2 (mark_eq_some isMark)

theorem dateText_ends (format : DateFormat) (date : Date) (align : Align) :
    EndsWith (format.mark align) (align.edge (format.parts.flatMap (DatePart.text date))) := by
  have nonempty : format.parts ≠ [] :=
    List.ne_nil_of_mem (datePattern_eq_some format.pattern).2.1
  have partNonempty : ∀ part : DatePart, part.text date ≠ [] := by
    intro part isNil
    have width := length_of_mem_language (text_mem_language date part)
    rw [isNil] at width
    cases part <;> cases width
  cases align with
  | right =>
      obtain ⟨first, rest, isParts⟩ := List.exists_cons_of_ne_nil nonempty
      have ends := datePart_ends date .right first
      rw [DateFormat.mark, isParts, List.flatMap_cons]
      rw [edge_right_append (partNonempty first)]
      exact ends
  | left =>
      obtain ⟨front, last, isParts⟩ := (List.eq_nil_or_concat' format.parts).resolve_left nonempty
      have ends := datePart_ends date .left last
      rw [DateFormat.mark, isParts, List.flatMap_append, List.getLast?_concat,
        List.flatMap_singleton, edge_left_append _ (partNonempty last)]
      exact ends

end DateText

end DecoyEngine.DeclaredCasting.Output
