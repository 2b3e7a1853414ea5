import DecoyEngine.DeclaredCasting.NumberGrammar

namespace DecoyEngine.DeclaredCasting.NumberText

open Computability
open DecoyEngine.Data hiding scaled
open DecoyEngine.Data.Regex (Spells letter upTo fullmatch)
open DecoyEngine.DeclaredCasting.Numeric

/-! Number texts are read exactly, and with a group separator only as they are written. -/

/-- The decimals of a format: at most `precision` digits at its scale. -/
def Precision.Holds (spec : Precision) (value : Value) (negative : Bool) (number : Nat) : Prop :=
  value.Is negative number spec.scale ∧ number < 10 ^ spec.precision

/-- The number a text denotes: its digits in order, those behind the radix as a fraction. -/
def denoted (radix : Char) (number : List Char) : ℚ :=
  Data.scaled (textNat (number.filter isDigit))
    (-(number.dropWhile (fun ch => ch ≠ radix)).tail.length)

/-- Digits and the separators of the format: no sign and no token. -/
def Unsigned (spec : NumberFormat) (number : List Char) : Prop :=
  ∀ ch ∈ number, ch ∈ asciiDigits ∨ ch = spec.radix ∨ spec.group = some ch

/-- A signed number, with or without a plus sign. -/
def SignWrites (negative : Bool) (number raw : List Char) : Prop :=
  raw = signed negative number ∨ negative = false ∧ raw = '+' :: number

def CurrencyWrites (spec : Currency) (negative : Bool) (number raw : List Char) : Prop :=
  raw = spec.withSign negative (spec.withToken number)

def withoutPlus (raw : List Char) : List Char := if raw.head? = some '+' then raw.drop 1 else raw

/-- What is formatted reads back as the value, what is read denotes the value with no rounding, and
with a group separator it is the text that the value formats to. -/
structure ExactText (spec : NumberFormat) (Writes : Bool → List Char → List Char → Prop)
    (canonical : List Char → List Char) (parse : List Char → Except Reason PyDecimal)
    (format : Value → Except Reason (List Char)) : Prop where
  parse_format : ∀ value negative number, value.Bounded → spec.Holds value negative number →
    ∃ raw, format value = .ok raw ∧ parse raw = .ok (scaled number spec.scale negative)
  format_parse : spec.group.isSome → ∀ raw value, parse raw = .ok value →
    format (.decimal value) = .ok (canonical raw)
  exact : ∀ raw value, parse raw = .ok value → ∃ negative number coefficient,
    Writes negative number raw ∧ Unsigned spec number ∧
      value = .finite negative coefficient (-spec.scale) ∧
      Data.scaled coefficient (-spec.scale) = denoted spec.radix number

section Rendering

variable {spec : NumberFormat} {number whole frac : List Char}

theorem renderNumber_parts (spec : NumberFormat) (value : Nat) :
    NumberParts spec (renderNumber value spec.scale spec.radix spec.group)
      (natText (value / 10 ^ spec.scale))
      ((digitList spec.scale (value % 10 ^ spec.scale)).map digitChar) where
  number_eq := by
    have width : ((digitList spec.scale (value % 10 ^ spec.scale)).map digitChar).length =
        spec.scale := by rw [List.length_map, length_digitList]
    rw [renderNumber, rjustDigits_split, List.length_append, width, Nat.add_sub_cancel,
      List.take_left, List.drop_left]
    rfl
  isNumeral := natText_isNumeral _
  frac_length := by rw [List.length_map, length_digitList]
  frac_digits := by
    intro ch member
    obtain ⟨digit, inDigits, rfl⟩ := List.mem_map.mp member
    exact digitChar_mem (digitList_lt _ _ digit inDigits)
  canonical := fun _ => by rw [textNat_natText]

theorem textNat_rendered (value scale : Nat) :
    textNat (natText (value / 10 ^ scale) ++
      (digitList scale (value % 10 ^ scale)).map digitChar) = value := by
  rw [textNat_append, textNat_natText, textNat_digitList (Nat.mod_lt _ (by positivity)),
    List.length_map, length_digitList, Nat.div_add_mod']

theorem NumberParts.rendered (parts : NumberParts spec number whole frac)
    (grouped : spec.group.isSome) :
    renderNumber (textNat (whole ++ frac)) spec.scale spec.radix spec.group = number := by
  obtain ⟨digits, rfl, small⟩ := exists_digits parts.frac_digits
  have length := parts.frac_length
  rw [List.length_map] at length
  have below := textNat_lt small
  have recovered := digitList_textNat small
  rw [length] at below recovered
  have value : textNat (whole ++ digits.map digitChar) =
      textNat (digits.map digitChar) + 10 ^ spec.scale * textNat whole := by
    rw [textNat_append, List.length_map, length]
    ring
  have rendered := (renderNumber_parts spec (textNat (whole ++ digits.map digitChar))).number_eq
  have quotient : textNat (whole ++ digits.map digitChar) / 10 ^ spec.scale = textNat whole := by
    rw [value, Nat.add_mul_div_left _ _ (by positivity), Nat.div_eq_of_lt below, Nat.zero_add]
  have remainder : textNat (whole ++ digits.map digitChar) % 10 ^ spec.scale =
      textNat (digits.map digitChar) := by
    rw [value, Nat.add_mul_mod_self_left, Nat.mod_eq_of_lt below]
  rw [quotient, remainder, parts.canonical grouped, recovered] at rendered
  rw [rendered, parts.number_eq]

theorem NumberParts.head (parts : NumberParts spec number whole frac) :
    ∃ ch ∈ asciiDigits, ∃ rest, number = ch :: rest := by
  have headed : ∃ ch ∈ whole, ∃ rest, groupText whole spec.group = ch :: rest := by
    obtain ⟨nonempty, -⟩ := parts.isNumeral
    cases spec.group with
    | none =>
        cases whole with
        | nil => exact absurd rfl nonempty
        | cons ch rest => exact ⟨ch, List.mem_cons_self, rest, rfl⟩
    | some sep =>
        obtain ⟨head, groups, rfl, short, threes⟩ := exists_groups whole nonempty
        rw [groupText_append sep short threes]
        cases head with
        | nil => exact absurd short.1 (by simp)
        | cons ch head => exact ⟨ch, by simp, _, rfl⟩
  obtain ⟨ch, member, rest, isText⟩ := headed
  refine ⟨ch, parts.isNumeral.2 ch member, rest ++ fraction spec frac, ?_⟩
  rw [parts.number_eq, isText]
  rfl

theorem length_groupText_le {group : Option Char} (nonempty : whole ≠ []) :
    (groupText whole group).length ≤ 2 * whole.length := by
  cases group with
  | none =>
      rw [groupText]
      omega
  | some sep =>
      obtain ⟨head, groups, rfl, short, threes⟩ := exists_groups whole nonempty
      have length : (groups.flatMap (sep :: ·)).length = 4 * groups.length := by
        clear short nonempty
        induction groups with
        | nil => rfl
        | cons three groups ih =>
            rw [List.forall_mem_cons] at threes
            rw [List.flatMap_cons, List.length_append, List.length_cons, threes.1, ih threes.2,
              List.length_cons]
            omega
      rw [groupText_append sep short threes, List.length_append, List.length_append, length,
        length_flatten_threes threes]
      omega

theorem length_renderNumber {value : Nat} (fits : value < 10 ^ spec.precision) :
    (renderNumber value spec.scale spec.radix spec.group).length ≤ 80 := by
  have parts := renderNumber_parts spec value
  have small := spec.precision_range.2
  have scale := spec.scale_le
  have wholeLength : (natText (value / 10 ^ spec.scale)).length + spec.scale ≤ 39 := by
    by_cases zero : value / 10 ^ spec.scale = 0
    · rw [zero]
      change 1 + spec.scale ≤ 39
      omega
    · by_contra long
      have large := pow_le_of_length_natText (Nat.pos_of_ne_zero zero)
        (show spec.precision - spec.scale < _ by omega)
      have scaledUp : 10 ^ spec.precision ≤ value := by
        rw [Nat.le_div_iff_mul_le (by positivity), ← pow_add, Nat.sub_add_cancel scale] at large
        exact large
      omega
  have grouped : (groupText (natText (value / 10 ^ spec.scale)) spec.group).length ≤
      2 * (natText (value / 10 ^ spec.scale)).length :=
    length_groupText_le parts.isNumeral.1
  have fracLength :
      (fraction spec ((digitList spec.scale (value % 10 ^ spec.scale)).map digitChar)).length ≤
        spec.scale + 1 := by
    rw [fraction]
    split
    · exact Nat.zero_le _
    · rw [List.length_cons, parts.frac_length]
  rw [parts.number_eq, List.length_append]
  omega

end Rendering

section Denotation

variable {radix : Char} {text frac : List Char}

theorem filter_digits {digits : List Char} (all : ∀ ch ∈ digits, ch ∈ asciiDigits) :
    digits.filter isDigit = digits :=
  List.filter_eq_self.mpr fun ch member => isDigit_iff.mpr (all ch member)

theorem denoted_absent (absent : radix ∉ text) :
    denoted radix text = Data.scaled (textNat (text.filter isDigit)) 0 := by
  rw [denoted, dropWhile_absent absent]
  rfl

theorem denoted_point (absent : radix ∉ text) (separator : radix ∉ asciiDigits)
    (digits : ∀ ch ∈ frac, ch ∈ asciiDigits) :
    denoted radix (text ++ radix :: frac) =
      Data.scaled (textNat (text.filter isDigit ++ frac)) (-frac.length) := by
  have notDigit : ¬ isDigit radix = true := fun digit => separator (isDigit_iff.mp digit)
  rw [denoted, dropWhile_append_separator absent, List.filter_append,
    List.filter_cons_of_neg notDigit, filter_digits digits]
  rfl

theorem scaled_padded (frac whole : List Char) {scale : Nat} (short : frac.length ≤ scale) :
    Data.scaled (textNat (whole ++ (frac ++ List.replicate (scale - frac.length) '0'))) (-scale) =
      Data.scaled (textNat (whole ++ frac)) (-frac.length) := by
  have zeros : textNat (List.replicate (scale - frac.length) '0') = 0 := by
    have none := textNat_zeros (scale - frac.length) []
    rwa [List.append_nil] at none
  rw [← List.append_assoc, textNat_append, zeros, List.length_replicate, Nat.add_zero]
  have moved := scaled_mul_pow (textNat (whole ++ frac)) (scale - frac.length) (-frac.length)
  rwa [show -(frac.length : Int) - ((scale - frac.length : Nat) : Int) = -scale by omega] at moved

theorem NumberParts.denoted_eq {spec : NumberFormat} {number whole frac : List Char}
    (parts : NumberParts spec number whole frac) :
    denoted spec.radix number = Data.scaled (textNat (whole ++ frac)) (-spec.scale) := by
  have separator := spec.radix_separator.not_digit
  have absent : spec.radix ∉ groupText whole spec.group := by
    intro member
    rcases mem_groupText member with inWhole | group
    · exact separator (parts.isNumeral.2 spec.radix inWhole)
    · exact spec.distinct group
  have digits : (groupText whole spec.group).filter isDigit = whole := by
    cases group : spec.group with
    | none => exact filter_digits parts.isNumeral.2
    | some sep =>
        have notDigit := (spec.group_separator sep group).not_digit
        have kept : (groupText whole (some sep)).filter isDigit =
            (groupText whole (some sep)).filter (· ≠ sep) := by
          refine List.filter_congr fun ch member => ?_
          rcases mem_groupText member with inWhole | isSep
          · have digit := parts.isNumeral.2 ch inWhole
            rw [isDigit_iff.mpr digit, decide_eq_true (ne_of_mem_of_not_mem digit notDigit)]
          · obtain rfl := Option.some.inj isSep
            rw [decide_eq_false (not_not.mpr rfl), ← Bool.not_eq_true, isDigit_iff]
            exact notDigit
        rw [kept, filter_groupText fun member => notDigit (parts.isNumeral.2 sep member)]
  rw [parts.number_eq, fraction]
  by_cases zero : spec.scale = 0
  · have none : frac = [] := List.length_eq_zero_iff.mp (parts.frac_length.trans zero)
    rw [if_pos zero, List.append_nil, denoted_absent absent, digits, none, zero, List.append_nil]
    rfl
  · rw [if_neg zero, denoted_point absent separator parts.frac_digits, digits, parts.frac_length]

end Denotation

section Parts

variable {spec : NumberFormat} {number whole frac : List Char} {negative : Bool}
  {loss overflow : Reason} {value : PyDecimal}

theorem NumberParts.fromParts_eq_ok (parts : NumberParts spec number whole frac) :
    fromParts spec.toPrecision negative whole frac loss overflow = .ok value ↔
      textNat (whole ++ frac) < 10 ^ spec.precision ∧
        value = scaled (textNat (whole ++ frac)) spec.scale negative := by
  rw [fromParts, if_neg (by rw [parts.frac_length]; omega), parts.frac_length, Nat.sub_self,
    List.replicate_zero, List.append_nil]
  dsimp only
  by_cases large : 10 ^ spec.precision ≤ textNat (whole ++ frac)
  · rw [if_pos large]
    exact iff_of_false nofun fun holds => absurd holds.1 (not_lt.mpr large)
  · rw [if_neg large, Except.ok.injEq]
    exact ⟨fun same => ⟨not_le.mp large, same.symm⟩, fun holds => holds.2.symm⟩

theorem format_of_holds {source : Value} {number : Nat} (bounded : source.Bounded)
    (holds : spec.Holds source negative number) :
    unscale source spec.scale spec.precision = .ok (number, negative) :=
  unscale_eq_ok.mpr ⟨bounded, holds.1, holds.2⟩

theorem NumberParts.reformat (parts : NumberParts spec number whole frac)
    (grouped : spec.group.isSome)
    (parsed : fromParts spec.toPrecision negative whole frac loss overflow = .ok value) :
    ∃ unscaled, unscale (.decimal value) spec.scale spec.precision = .ok (unscaled, negative) ∧
      renderNumber unscaled spec.scale spec.radix spec.group = number := by
  obtain ⟨fits, rfl⟩ := parts.fromParts_eq_ok.mp parsed
  exact ⟨textNat (whole ++ frac),
    unscale_scaled fits spec.precision_range.2 spec.scale_le, parts.rendered grouped⟩

theorem NumberParts.unsigned (parts : NumberParts spec number whole frac) :
    Unsigned spec number := by
  intro ch member
  rw [parts.number_eq, fraction] at member
  rcases List.mem_append.mp member with inWhole | inFraction
  · rcases mem_groupText inWhole with digit | isGroup
    · exact .inl (parts.isNumeral.2 ch digit)
    · exact .inr (.inr isGroup)
  · split at inFraction
    · cases inFraction
    · rcases List.mem_cons.mp inFraction with isRadix | digit
      · exact .inr (.inl isRadix)
      · exact .inl (parts.frac_digits ch digit)

theorem NumberParts.exact (parts : NumberParts spec number whole frac)
    (parsed : fromParts spec.toPrecision negative whole frac loss overflow = .ok value) :
    ∃ coefficient, value = .finite negative coefficient (-spec.scale) ∧
      Data.scaled coefficient (-spec.scale) = denoted spec.radix number := by
  obtain ⟨fits, rfl⟩ := parts.fromParts_eq_ok.mp parsed
  exact ⟨textNat (whole ++ frac), rfl, parts.denoted_eq.symm⟩

end Parts

theorem SignWrites.withoutPlus_eq {negative : Bool} {number raw : List Char}
    (writes : SignWrites negative number raw)
    (digit : ∃ ch ∈ asciiDigits, ∃ rest, number = ch :: rest) :
    withoutPlus raw = signed negative number := by
  obtain ⟨ch, isDigit, rest, rfl⟩ := digit
  rcases writes with rfl | ⟨rfl, rfl⟩
  · cases negative with
    | true => rfl
    | false =>
        have unsigned : ch ≠ '+' := ne_of_mem_of_not_mem isDigit (by decide)
        exact if_neg fun plus => unsigned (Option.some.inj plus)
  · rfl

section Grouped

variable {spec : DecimalGrouped} {negative : Bool} {raw number whole frac : List Char}
  {value : PyDecimal}

theorem parseGrouped_signed (parts : NumberParts spec.toNumberFormat number whole frac)
    (short : number.length ≤ 80) :
    parseGrouped spec (signed negative number) =
      fromParts spec.toPrecision negative whole frac .decimalPrecisionLoss .decimalOverflow := by
  obtain ⟨ch, isDigit, rest, isNumber⟩ := parts.head
  have minus : (ch == '-') = false :=
    beq_eq_false_iff_ne.mpr (ne_of_mem_of_not_mem isDigit (by decide))
  have plus : (ch == '+') = false :=
    beq_eq_false_iff_ne.mpr (ne_of_mem_of_not_mem isDigit (by decide))
  have found := groupedDigits_eq_some.mpr parts
  have length : (signed negative number).length ≤ maxText := by
    rw [maxText]
    cases negative
    · exact short.trans (by decide)
    · change number.length + 1 ≤ 128
      omega
  rw [parseGrouped, if_neg (not_lt.mpr length)]
  cases negative with
  | true =>
      have sign : ((signed true number).head? == some '-') = true := rfl
      have body : (signed true number).drop 1 = number := rfl
      dsimp only
      rw [sign, Bool.true_or, if_pos rfl, body, found]
  | false =>
      have head : (signed false number).head? = some ch := congrArg List.head? isNumber
      dsimp only
      have body : signed false number = number := rfl
      rw [head, show (some ch == some '-') = false from minus,
        show (some ch == some '+') = false from plus, Bool.or_false, if_neg Bool.false_ne_true, body,
        found]

theorem parseGrouped_ok (parsed : parseGrouped spec raw = .ok value) :
    ∃ negative number whole frac, SignWrites negative number raw ∧
      NumberParts spec.toNumberFormat number whole frac ∧
      fromParts spec.toPrecision negative whole frac .decimalPrecisionLoss .decimalOverflow =
        .ok value := by
  rw [parseGrouped] at parsed
  split at parsed
  · cases parsed
  dsimp only at parsed
  split at parsed
  · cases parsed
  rename_i whole frac found
  refine ⟨_, _, whole, frac, ?_, groupedDigits_eq_some.mp found, parsed⟩
  cases raw with
  | nil => exact .inl rfl
  | cons ch rest =>
      by_cases minus : ch = '-'
      · subst minus
        exact .inl rfl
      · have notMinus : (some ch == some '-') = false :=
          beq_eq_false_iff_ne.mpr (by simpa using minus)
        rw [List.head?_cons, notMinus, Bool.false_or]
        by_cases plus : ch = '+'
        · subst plus
          exact .inr ⟨rfl, rfl⟩
        · have notPlus : (some ch == some '+') = false :=
            beq_eq_false_iff_ne.mpr (by simpa using plus)
          rw [notPlus]
          exact .inl rfl

end Grouped

theorem grouped_exact (spec : DecimalGrouped) :
    ExactText spec.toNumberFormat SignWrites withoutPlus (parseGrouped spec)
      (formatPlain spec.toNumberFormat) where
  parse_format value negative number bounded holds := by
    have parts := renderNumber_parts spec.toNumberFormat number
    refine ⟨_, by rw [formatPlain, format_of_holds bounded holds], ?_⟩
    rw [parseGrouped_signed parts (length_renderNumber holds.2), parts.fromParts_eq_ok,
      textNat_rendered]
    exact ⟨holds.2, rfl⟩
  format_parse grouped raw value parsed := by
    obtain ⟨negative, number, whole, frac, writes, parts, isValue⟩ := parseGrouped_ok parsed
    obtain ⟨unscaled, field, rendered⟩ := parts.reformat grouped isValue
    rw [formatPlain, field]
    dsimp only
    rw [rendered, writes.withoutPlus_eq parts.head]
  exact raw value parsed := by
    obtain ⟨negative, number, whole, frac, writes, parts, isValue⟩ := parseGrouped_ok parsed
    obtain ⟨coefficient, isFinite, same⟩ := parts.exact isValue
    exact ⟨negative, number, coefficient, writes, parts.unsigned, isFinite, same⟩

section CurrencyText

variable {spec : Currency} {negative : Bool} {raw body number whole frac : List Char}
  {value : PyDecimal}

theorem withoutToken_eq_some :
    spec.withoutToken body = some number ↔ body = spec.withToken number := by
  rw [Currency.withoutToken, Currency.withToken]
  cases spec.tokenPosition with
  | prefixed =>
      dsimp only
      constructor
      · intro found
        split at found
        · rename_i isPrefix
          obtain ⟨rest, rfl⟩ := isPrefix
          rw [List.drop_left] at found
          rw [Option.some.inj found]
        · cases found
      · intro isBody
        rw [isBody, if_pos (List.prefix_append spec.token number), List.drop_left]
  | suffixed =>
      dsimp only
      constructor
      · intro found
        split at found
        · rename_i isSuffix
          obtain ⟨rest, rfl⟩ := isSuffix
          rw [List.length_append, Nat.add_sub_cancel, List.take_left] at found
          rw [Option.some.inj found]
        · cases found
      · intro isBody
        rw [isBody, if_pos (List.suffix_append number spec.token), List.length_append,
          Nat.add_sub_cancel, List.take_left]

theorem unsigned_withSign (head : ∀ sign ∈ ['-', '(', ')'], body.head? ≠ some sign) :
    spec.unsigned (spec.withSign negative body) = (body, negative) := by
  rw [Currency.unsigned, Currency.withSign]
  cases negative with
  | false =>
      rw [if_neg Bool.false_ne_true]
      cases spec.signStyle with
      | leadingMinus => exact if_neg (head '-' (by simp))
      | accountingParentheses => exact if_neg fun both => head '(' (by simp) both.1
  | true =>
      rw [if_pos rfl]
      cases spec.signStyle with
      | leadingMinus => rfl
      | accountingParentheses =>
          dsimp only
          rw [if_pos ⟨rfl, by rw [List.getLast?_concat]⟩, List.cons_append, List.drop_one,
            List.tail_cons, List.dropLast_concat]

theorem withSign_unsigned (unsigned : spec.unsigned raw = (body, negative)) :
    raw = spec.withSign negative body := by
  rw [Currency.unsigned] at unsigned
  rw [Currency.withSign]
  cases style : spec.signStyle with
  | leadingMinus =>
      rw [style] at unsigned
      dsimp only at unsigned
      split at unsigned
      · rename_i minus
        obtain ⟨rfl, rfl⟩ := Prod.mk.inj unsigned
        obtain ⟨rest, rfl⟩ := List.head?_eq_some_iff.mp minus
        rfl
      · obtain ⟨rfl, rfl⟩ := Prod.mk.inj unsigned
        rfl
  | accountingParentheses =>
      rw [style] at unsigned
      dsimp only at unsigned
      split at unsigned
      · rename_i parentheses
        obtain ⟨rfl, rfl⟩ := Prod.mk.inj unsigned
        obtain ⟨rest, rfl⟩ := List.head?_eq_some_iff.mp parentheses.1
        have closed := parentheses.2
        cases rest with
        | nil => cases closed
        | cons ch rest =>
            rw [List.getLast?_cons_cons] at closed
            exact congrArg ('(' :: ·) (List.dropLast_append_getLast? ')' closed).symm
      · obtain ⟨rfl, rfl⟩ := Prod.mk.inj unsigned
        rfl

theorem parseCurrency_ok (parsed : parseCurrency spec raw = .ok value) :
    ∃ negative number whole frac, CurrencyWrites spec negative number raw ∧
      NumberParts spec.toNumberFormat number whole frac ∧
      fromParts spec.toPrecision negative whole frac .currencyInvalid .currencyInvalid =
        .ok value := by
  rw [parseCurrency] at parsed
  split at parsed
  · cases parsed
  cases unsigned : spec.unsigned raw with
  | mk body negative =>
      rw [unsigned] at parsed
      dsimp only at parsed
      split at parsed
      · cases parsed
      rename_i number isNumber
      split at parsed
      · cases parsed
      rename_i whole frac found
      refine ⟨negative, number, whole, frac, ?_, groupedDigits_eq_some.mp found, parsed⟩
      rw [CurrencyWrites, ← withoutToken_eq_some.mp isNumber]
      exact withSign_unsigned unsigned

theorem length_token (spec : Currency) : spec.token.length ≤ 32 := by
  have each : ∀ token : List Char, token.length ≤ (token.map Char.utf8Size).sum := by
    intro token
    induction token with
    | nil => exact Nat.le_refl 0
    | cons ch token ih =>
        have positive := ch.utf8Size_pos
        rw [List.map_cons, List.sum_cons, List.length_cons]
        omega
  exact (each spec.token).trans spec.token_bytes

theorem length_written (short : number.length ≤ 80) :
    (spec.withSign negative (spec.withToken number)).length ≤ maxText := by
  have token := length_token spec
  have body : (spec.withToken number).length ≤ 112 := by
    rw [Currency.withToken]
    cases spec.tokenPosition <;> (dsimp only; rw [List.length_append]; omega)
  rw [Currency.withSign, maxText]
  cases negative with
  | false =>
      rw [if_neg Bool.false_ne_true]
      omega
  | true =>
      rw [if_pos rfl]
      cases spec.signStyle with
      | leadingMinus =>
          dsimp only
          rw [List.length_cons]
          omega
      | accountingParentheses =>
          dsimp only
          rw [List.cons_append, List.length_cons, List.length_append, List.length_singleton]
          omega

theorem parseCurrency_written (parts : NumberParts spec.toNumberFormat number whole frac)
    (short : number.length ≤ 80) :
    parseCurrency spec (spec.withSign negative (spec.withToken number)) =
      fromParts spec.toPrecision negative whole frac .currencyInvalid .currencyInvalid := by
  have head : ∀ sign ∈ ['-', '(', ')'], (spec.withToken number).head? ≠ some sign := by
    intro sign isSign
    rw [Currency.withToken]
    cases spec.tokenPosition with
    | prefixed =>
        dsimp only
        rw [List.head?_append_of_ne_nil _ spec.token_nonempty]
        exact fun isHead => spec.token_unsigned sign isSign (List.mem_of_head? isHead)
    | suffixed =>
        obtain ⟨ch, digit, rest, rfl⟩ := parts.head
        intro isHead
        obtain rfl := Option.some.inj isHead
        have unsigned : ∀ other ∈ asciiDigits, other ∉ ['-', '(', ')'] := by decide
        exact unsigned ch digit isSign
  rw [parseCurrency, if_neg (not_lt.mpr (length_written short)), unsigned_withSign head]
  dsimp only
  rw [withoutToken_eq_some.mpr rfl]
  dsimp only
  rw [groupedDigits_eq_some.mpr parts]

end CurrencyText

theorem currency_exact (spec : Currency) :
    ExactText spec.toNumberFormat (CurrencyWrites spec) id (parseCurrency spec)
      (formatCurrency spec) where
  parse_format value negative number bounded holds := by
    have parts := renderNumber_parts spec.toNumberFormat number
    refine ⟨_, by rw [formatCurrency, format_of_holds bounded holds], ?_⟩
    rw [parseCurrency_written parts (length_renderNumber holds.2), parts.fromParts_eq_ok,
      textNat_rendered]
    exact ⟨holds.2, rfl⟩
  format_parse grouped raw value parsed := by
    obtain ⟨negative, number, whole, frac, writes, parts, isValue⟩ := parseCurrency_ok parsed
    obtain ⟨unscaled, field, rendered⟩ := parts.reformat grouped isValue
    rw [formatCurrency, field]
    dsimp only
    rw [rendered]
    exact congrArg Except.ok writes.symm
  exact raw value parsed := by
    obtain ⟨negative, number, whole, frac, writes, parts, isValue⟩ := parseCurrency_ok parsed
    obtain ⟨coefficient, isFinite, same⟩ := parts.exact isValue
    exact ⟨negative, number, coefficient, writes, parts.unsigned, isFinite, same⟩

end DecoyEngine.DeclaredCasting.NumberText
