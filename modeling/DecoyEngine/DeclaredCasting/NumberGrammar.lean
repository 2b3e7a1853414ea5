import DecoyEngine.DeclaredCasting.NumberText

namespace DecoyEngine.DeclaredCasting.NumberText

open Computability
open DecoyEngine.Data hiding scaled
open DecoyEngine.Data.Regex (Spells letter upTo fullmatch)
open DecoyEngine.DeclaredCasting.Numeric

/-! The grammar of a number: its whole part in threes, its fraction at the scale. -/

theorem triples_flatten {groups : List (List Char)} (threes : ∀ three ∈ groups, three.length = 3) :
    triples groups.flatten = groups := by
  induction groups with
  | nil => rfl
  | cons three groups ih =>
      rw [List.forall_mem_cons] at threes
      obtain ⟨first, second, third, rfl⟩ := List.length_eq_three.mp threes.1
      rw [List.flatten_cons]
      exact congrArg _ (ih threes.2)

theorem flatten_triples (text : List Char) (whole : text.length % 3 = 0) :
    (triples text).flatten = text ∧ ∀ three ∈ triples text, three.length = 3 := by
  induction text using triples.induct with
  | case1 => exact ⟨rfl, by simp [triples]⟩
  | case2 first second third rest ih =>
      rw [List.length_cons, List.length_cons, List.length_cons] at whole
      obtain ⟨flat, threes⟩ := ih (by omega)
      refine ⟨?_, List.forall_mem_cons.mpr ⟨rfl, threes⟩⟩
      rw [triples, List.flatten_cons, flat]
      rfl
  | case3 short empty longer =>
      match short, empty, longer, whole with
      | [], empty, _, _ => exact absurd rfl empty
      | [_], _, _, whole => cases whole
      | [_, _], _, _, whole => cases whole
      | _ :: _ :: _ :: _, _, longer, _ => exact absurd rfl (longer _ _ _ _)

theorem length_flatten_threes {groups : List (List Char)}
    (threes : ∀ three ∈ groups, three.length = 3) :
    groups.flatten.length = 3 * groups.length := by
  induction groups with
  | nil => rfl
  | cons three groups ih =>
      rw [List.forall_mem_cons] at threes
      rw [List.flatten_cons, List.length_append, threes.1, ih threes.2, List.length_cons]
      omega

theorem intercalate_cons (sep : Char) (head : List Char) (groups : List (List Char)) :
    [sep].intercalate (head :: groups) = head ++ groups.flatMap (sep :: ·) := by
  induction groups generalizing head with
  | nil => simp
  | cons three groups ih =>
      rw [List.intercalate_cons_cons, ih, List.flatMap_cons]
      simp

theorem groupText_append {head : List Char} {groups : List (List Char)} (sep : Char)
    (short : 1 ≤ head.length ∧ head.length ≤ 3) (threes : ∀ three ∈ groups, three.length = 3) :
    groupText (head ++ groups.flatten) (some sep) = head ++ groups.flatMap (sep :: ·) := by
  rw [groupText, List.length_append, length_flatten_threes threes]
  cases groups with
  | nil =>
      rw [if_pos (by rw [List.length_nil]; omega)]
      rfl
  | cons three groups =>
      have isHead : (if (head.length + 3 * (three :: groups).length) % 3 = 0 then 3
          else (head.length + 3 * (three :: groups).length) % 3) = head.length := by
        split <;> omega
      rw [if_neg (by rw [List.length_cons]; omega)]
      dsimp only
      rw [isHead, List.take_left, List.drop_left, triples_flatten threes, intercalate_cons]

theorem exists_groups (text : List Char) (nonempty : text ≠ []) :
    ∃ head groups, text = head ++ List.flatten groups ∧
      (1 ≤ head.length ∧ head.length ≤ 3) ∧ ∀ three ∈ groups, three.length = 3 := by
  have positive := List.length_pos_of_ne_nil nonempty
  let first := if text.length % 3 = 0 then 3 else text.length % 3
  have bounds : 1 ≤ first ∧ first ≤ 3 ∧ first ≤ text.length ∧ (text.length - first) % 3 = 0 := by
    dsimp only [first]
    split <;> omega
  obtain ⟨flat, threes⟩ := flatten_triples (text.drop first)
    (by rw [List.length_drop]; exact bounds.2.2.2)
  refine ⟨text.take first, triples (text.drop first), ?_, ?_, threes⟩
  · rw [flat, List.take_append_drop]
  · rw [List.length_take]
    omega

theorem filter_groupText {whole : List Char} {sep : Char} (absent : sep ∉ whole) :
    (groupText whole (some sep)).filter (· ≠ sep) = whole := by
  cases nonempty : whole with
  | nil => rfl
  | cons first rest =>
      rw [← nonempty]
      obtain ⟨head, groups, rfl, short, threes⟩ := exists_groups whole (by simp [nonempty])
      have inHead : ∀ ch ∈ head, ch ≠ sep := fun ch member =>
        ne_of_mem_of_not_mem (List.mem_append_left _ member) absent
      have inGroups : ∀ three ∈ groups, ∀ ch ∈ three, ch ≠ sep := fun three member ch inThree =>
        ne_of_mem_of_not_mem
          (List.mem_append_right _ (List.mem_flatten.mpr ⟨three, member, inThree⟩)) absent
      have eachGroup : ∀ three ∈ groups, (sep :: three).filter (· ≠ sep) = three := by
        intro three member
        rw [List.filter_cons_of_neg (by simp), List.filter_eq_self]
        intro ch inThree
        exact decide_eq_true (inGroups three member ch inThree)
      rw [groupText_append sep short threes, List.filter_append, List.filter_flatMap,
        List.filter_eq_self.mpr fun ch member => decide_eq_true (inHead ch member)]
      congr 1
      rw [List.flatten_eq_flatMap, List.flatMap_congr eachGroup]
      rfl

theorem mem_groupText {whole : List Char} {group : Option Char} {ch : Char}
    (member : ch ∈ groupText whole group) : ch ∈ whole ∨ group = some ch := by
  cases group with
  | none => exact .inl member
  | some sep =>
      by_cases same : ch = sep
      · exact .inr (congrArg some same.symm)
      · cases nonempty : whole with
        | nil =>
            rw [nonempty] at member
            exact .inl member
        | cons first rest =>
            obtain ⟨head, groups, isWhole, short, threes⟩ :=
              exists_groups whole (by simp [nonempty])
            rw [isWhole, groupText_append sep short threes] at member
            rw [← nonempty, isWhole]
            rcases List.mem_append.mp member with inHead | inGroups
            · exact .inl (List.mem_append_left _ inHead)
            · obtain ⟨three, inThrees, inThree⟩ := List.mem_flatMap.mp inGroups
              refine .inl (List.mem_append_right _ (List.mem_flatten.mpr ⟨three, inThrees, ?_⟩))
              exact (List.mem_cons.mp inThree).resolve_left same

def IsNumeral (text : List Char) : Prop := text ≠ [] ∧ ∀ ch ∈ text, ch ∈ asciiDigits

theorem isDigit_iff {ch : Char} : isDigit ch = true ↔ ch ∈ asciiDigits := decide_eq_true_iff

theorem isNonzeroDigit_iff {ch : Char} :
    isNonzeroDigit ch = true ↔ ch ∈ asciiDigits ∧ ch ≠ '0' := by
  constructor
  · intro holds
    have member := of_decide_eq_true holds
    clear holds
    revert ch
    decide
  · intro ⟨member, nonzero⟩
    revert ch
    decide

theorem mem_letter_eq {ch : Char} {text : List Char} : text ∈ letter (· == ch) ↔ text = [ch] := by
  constructor
  · intro ⟨other, isText, same⟩
    rw [isText, beq_iff_eq.mp same]
  · intro isText
    exact ⟨ch, isText, beq_self_eq_true ch⟩

theorem mem_plus_digit {text : List Char} :
    text ∈ letter isDigit * (letter isDigit)∗ ↔ IsNumeral text := by
  rw [Language.mem_mul]
  constructor
  · intro ⟨word, ⟨ch, isWord, first⟩, others, areOthers, same⟩
    subst isWord same
    refine ⟨by simp, ?_⟩
    rw [List.singleton_append, List.forall_mem_cons]
    exact ⟨isDigit_iff.mp first,
      fun other member => isDigit_iff.mp (Regex.mem_letter_star.mp areOthers other member)⟩
  · intro ⟨nonempty, all⟩
    cases text with
    | nil => exact absurd rfl nonempty
    | cons ch others =>
        rw [List.forall_mem_cons] at all
        exact ⟨[ch], ⟨ch, rfl, isDigit_iff.mpr all.1⟩, others,
          Regex.mem_letter_star.mpr fun other member => isDigit_iff.mpr (all.2 other member), rfl⟩

theorem mem_nonzero_star {text : List Char} :
    text ∈ letter isNonzeroDigit * (letter isDigit)∗ ↔
      IsNumeral text ∧ text.head? ≠ some '0' := by
  rw [Language.mem_mul]
  constructor
  · intro ⟨word, ⟨ch, isWord, first⟩, others, areOthers, same⟩
    subst isWord same
    obtain ⟨digit, nonzero⟩ := isNonzeroDigit_iff.mp first
    refine ⟨⟨by simp, ?_⟩, fun zero => nonzero (Option.some.inj zero)⟩
    rw [List.singleton_append, List.forall_mem_cons]
    exact ⟨digit, fun other member =>
      isDigit_iff.mp (Regex.mem_letter_star.mp areOthers other member)⟩
  · intro ⟨⟨nonempty, all⟩, nonzero⟩
    cases text with
    | nil => exact absurd rfl nonempty
    | cons ch others =>
        rw [List.forall_mem_cons] at all
        have first := isNonzeroDigit_iff.mpr ⟨all.1, fun zero => nonzero (congrArg some zero)⟩
        exact ⟨[ch], ⟨ch, rfl, first⟩, others,
          Regex.mem_letter_star.mpr fun other member => isDigit_iff.mpr (all.2 other member), rfl⟩

def groupLanguage (sep : Char) : Language Char := letter (· == sep) * letter isDigit ^ 3

def wholeLanguage : Option Char → Language Char
  | none => letter isDigit * (letter isDigit)∗
  | some sep =>
      letter (· == '0') + (letter isNonzeroDigit *
          (letter isDigit ^ 0 * upTo (letter isDigit) 2 * (groupLanguage sep)∗) +
        letter isNonzeroDigit * (letter isDigit)∗)

def fracLanguage (spec : NumberFormat) : Language Char :=
  if spec.scale = 0 then 1 else letter (· == spec.radix) * letter isDigit ^ spec.scale

theorem spells_wholePattern (group : Option Char) :
    Spells (wholePattern group) (wholeLanguage group) := by
  cases group with
  | none => exact Regex.spells_plus Regex.spells_set
  | some sep =>
      have groups : Spells (.star (.seq (literal sep) (.times digit 3))) (groupLanguage sep)∗ :=
        Regex.spells_star (Regex.spells_seq Regex.spells_set
          (Regex.spells_times Regex.spells_set 3))
      have head : Spells (.between digit 0 2) (letter isDigit ^ 0 * upTo (letter isDigit) 2) :=
        Regex.spells_seq (Regex.spells_times Regex.spells_set 0)
          (Regex.spells_upTo Regex.spells_set 2)
      exact Regex.spells_alt Regex.spells_set (Regex.spells_alt
        (Regex.spells_seq Regex.spells_set (Regex.spells_seq head groups))
        (Regex.spells_seq Regex.spells_set (Regex.spells_star Regex.spells_set)))

theorem spells_fracPattern (spec : NumberFormat) :
    Spells (fracPattern spec) (fracLanguage spec) := by
  rw [fracPattern, fracLanguage]
  split
  · exact Regex.spells_empty
  · exact Regex.spells_seq Regex.spells_set (Regex.spells_times Regex.spells_set spec.scale)

theorem spells_numberPattern (spec : NumberFormat) :
    List.Forall₂ Spells (numberPattern spec) [wholeLanguage spec.group, fracLanguage spec] :=
  .cons (spells_wholePattern spec.group) (.cons (spells_fracPattern spec) .nil)

theorem mem_groups_star {sep : Char} {text : List Char} :
    text ∈ (groupLanguage sep)∗ ↔
      ∃ groups : List (List Char), text = groups.flatMap (sep :: ·) ∧
        ∀ three ∈ groups, three.length = 3 ∧ ∀ ch ∈ three, ch ∈ asciiDigits := by
  have mem_group : ∀ word, word ∈ groupLanguage sep ↔
      ∃ three : List Char, word = sep :: three ∧ three.length = 3 ∧
        ∀ ch ∈ three, ch ∈ asciiDigits := by
    intro word
    rw [groupLanguage, Language.mem_mul]
    constructor
    · intro ⟨first, isFirst, three, isThree, same⟩
      obtain ⟨length, all⟩ := Regex.mem_letter_pow.mp isThree
      rw [mem_letter_eq.mp isFirst] at same
      exact ⟨three, same.symm, length, fun ch member => isDigit_iff.mp (all ch member)⟩
    · intro ⟨three, same, length, all⟩
      exact ⟨[sep], mem_letter_eq.mpr rfl, three,
        Regex.mem_letter_pow.mpr ⟨length, fun ch member => isDigit_iff.mpr (all ch member)⟩,
        same.symm⟩
  rw [Language.mem_kstar]
  constructor
  · intro ⟨words, isText, are⟩
    subst isText
    induction words with
    | nil => exact ⟨[], rfl, by simp⟩
    | cons word words ih =>
        rw [List.forall_mem_cons] at are
        obtain ⟨three, rfl, isThree⟩ := (mem_group word).mp are.1
        obtain ⟨groups, flat, threes⟩ := ih are.2
        refine ⟨three :: groups, ?_, List.forall_mem_cons.mpr ⟨isThree, threes⟩⟩
        rw [List.flatten_cons, flat, List.flatMap_cons]
  · intro ⟨groups, isText, threes⟩
    refine ⟨groups.map (sep :: ·), by rw [isText, List.flatMap_def], fun word member => ?_⟩
    obtain ⟨three, inGroups, rfl⟩ := List.mem_map.mp member
    exact (mem_group _).mpr ⟨three, rfl, threes three inGroups⟩

def ungroupedLanguage : Language Char :=
  letter isNonzeroDigit * (letter isDigit ^ 3 * (letter isDigit)∗)

theorem spells_ungroupedPattern : Spells ungroupedPattern ungroupedLanguage :=
  Regex.spells_seq Regex.spells_set (Regex.spells_atLeast Regex.spells_set 3)

theorem mem_ungroupedLanguage {text : List Char} :
    text ∈ ungroupedLanguage ↔ IsNumeral text ∧ text.head? ≠ some '0' ∧ 4 ≤ text.length := by
  constructor
  · intro member
    obtain ⟨one, isOne, rest, areRest, rfl⟩ := Language.mem_mul.mp member
    obtain ⟨front, areFront, back, areBack, rfl⟩ := Language.mem_mul.mp areRest
    obtain ⟨three, frontDigits⟩ := Regex.mem_letter_pow.mp areFront
    have restDigits : front ++ back ∈ (letter isDigit)∗ := by
      refine Regex.mem_letter_star.mpr fun ch inRest => ?_
      rcases List.mem_append.mp inRest with inFront | inBack
      · exact frontDigits ch inFront
      · exact Regex.mem_letter_star.mp areBack ch inBack
    obtain ⟨isNumeral, first⟩ := mem_nonzero_star.mp (Language.append_mem_mul isOne restDigits)
    refine ⟨isNumeral, first, ?_⟩
    obtain ⟨ch, rfl, -⟩ := isOne
    rw [List.length_append, List.length_append, List.length_singleton]
    omega
  · intro ⟨isNumeral, first, long⟩
    obtain ⟨one, isOne, rest, areRest, rfl⟩ :=
      Language.mem_mul.mp (mem_nonzero_star.mpr ⟨isNumeral, first⟩)
    rw [Regex.mem_letter_star] at areRest
    obtain ⟨ch, rfl, digit⟩ := isOne
    rw [List.singleton_append, List.length_cons] at long
    have front : rest.take 3 ∈ letter isDigit ^ 3 := by
      refine Regex.mem_letter_pow.mpr ⟨?_, fun other member => areRest other ?_⟩
      · rw [List.length_take]
        omega
      · exact List.mem_of_mem_take member
    have back : rest.drop 3 ∈ (letter isDigit)∗ :=
      Regex.mem_letter_star.mpr fun other member => areRest other (List.mem_of_mem_drop member)
    refine Language.append_mem_mul ⟨ch, rfl, digit⟩ ?_
    rw [← List.take_append_drop 3 rest]
    exact Language.append_mem_mul front back

theorem natText_isNumeral (value : Nat) : IsNumeral (natText value) :=
  ⟨natText_ne_nil value, natText_mem_digits value⟩

theorem isNumeral_canonical {text : List Char} (isNumeral : IsNumeral text)
    (first : text = ['0'] ∨ text.head? ≠ some '0') : natText (textNat text) = text := by
  rcases first with isZero | nonzero
  · rw [isZero]
    rfl
  · exact natText_textNat isNumeral.2 isNumeral.1 nonzero

theorem mem_wholeLanguage_some {sep : Char} {text : List Char} (separator : sep ∉ asciiDigits) :
    text ∈ wholeLanguage (some sep) ∧ text ∉ ungroupedLanguage ↔
      ∃ value, text = groupText (natText value) (some sep) := by
  constructor
  · intro ⟨accepted, short⟩
    rcases accepted with zero | grouped | ungrouped
    · exact ⟨0, mem_letter_eq.mp zero⟩
    · obtain ⟨one, isOne, rest, areRest, rfl⟩ := Language.mem_mul.mp grouped
      obtain ⟨front, areFront, back, areBack, rfl⟩ := Language.mem_mul.mp areRest
      rw [pow_zero, one_mul, Regex.mem_letter_upTo] at areFront
      obtain ⟨groups, rfl, threes⟩ := mem_groups_star.mp areBack
      obtain ⟨ch, rfl, first⟩ := isOne
      have isNumeral : IsNumeral ((ch :: front) ++ groups.flatten) := by
        refine ⟨by simp, fun other member => ?_⟩
        rcases List.mem_append.mp member with inHead | inGroups
        · rcases List.mem_cons.mp inHead with isFirst | inFront
          · exact isFirst ▸ (isNonzeroDigit_iff.mp first).1
          · exact isDigit_iff.mp (areFront.2 other inFront)
        · obtain ⟨three, inThrees, inThree⟩ := List.mem_flatten.mp inGroups
          exact (threes three inThrees).2 other inThree
      refine ⟨textNat ((ch :: front) ++ groups.flatten), ?_⟩
      rw [isNumeral_canonical isNumeral (.inr fun zero =>
        (isNonzeroDigit_iff.mp first).2 (Option.some.inj zero))]
      rw [groupText_append sep ⟨by simp, by rw [List.length_cons]; omega⟩
        fun three member => (threes three member).1]
      rfl
    · obtain ⟨isNumeral, first⟩ := mem_nonzero_star.mp ungrouped
      refine ⟨textNat text, ?_⟩
      rw [isNumeral_canonical isNumeral (.inr first), groupText, if_pos]
      by_contra long
      exact short (mem_ungroupedLanguage.mpr ⟨isNumeral, first, by omega⟩)
  · intro ⟨value, isText⟩
    subst isText
    by_cases zero : value = 0
    · subst zero
      exact ⟨.inl (mem_letter_eq.mpr rfl),
        fun ungrouped => (mem_ungroupedLanguage.mp ungrouped).2.1 rfl⟩
    obtain ⟨nonempty, digits⟩ := natText_isNumeral value
    have nonzero := natText_head (Nat.pos_of_ne_zero zero)
    obtain ⟨head, groups, isValue, short, threes⟩ := exists_groups (natText value) nonempty
    rw [isValue, groupText_append sep short threes]
    rw [isValue] at digits nonzero
    constructor
    · cases head with
      | nil => exact absurd short.1 (by simp)
      | cons ch front =>
          have first : isNonzeroDigit ch = true := isNonzeroDigit_iff.mpr
            ⟨digits ch (by simp), fun isZero => nonzero (congrArg some isZero)⟩
          have inFront : front ∈ upTo (letter isDigit) 2 := by
            refine Regex.mem_letter_upTo.mpr ⟨?_, fun other member => isDigit_iff.mpr ?_⟩
            · exact Nat.le_of_succ_le_succ short.2
            · exact digits other (by simp [member])
          have inGroups : groups.flatMap (sep :: ·) ∈ (groupLanguage sep)∗ := by
            refine mem_groups_star.mpr ⟨groups, rfl, fun three member => ⟨threes three member, ?_⟩⟩
            intro other inThree
            exact digits other
              (List.mem_append_right _ (List.mem_flatten.mpr ⟨three, member, inThree⟩))
          refine .inr (.inl (Language.append_mem_mul (a := [ch]) ⟨ch, rfl, first⟩ ?_))
          rw [pow_zero, one_mul]
          exact Language.append_mem_mul inFront inGroups
    · intro ungrouped
      obtain ⟨⟨-, all⟩, -, long⟩ := mem_ungroupedLanguage.mp ungrouped
      cases groups with
      | nil =>
          rw [List.flatMap_nil, List.append_nil] at long
          omega
      | cons three groups => exact separator (all sep (by simp))

/-- The fraction behind its radix. -/
def fraction (spec : NumberFormat) (frac : List Char) : List Char :=
  if spec.scale = 0 then [] else spec.radix :: frac

/-- `number` is the grouped `whole` and the `frac` of the declared scale. -/
structure NumberParts (spec : NumberFormat) (number whole frac : List Char) : Prop where
  number_eq : number = groupText whole spec.group ++ fraction spec frac
  isNumeral : IsNumeral whole
  frac_length : frac.length = spec.scale
  frac_digits : ∀ ch ∈ frac, ch ∈ asciiDigits
  canonical : spec.group.isSome → natText (textNat whole) = whole

theorem IsSeparator.not_digit {ch : Char} (separator : IsSeparator ch) : ch ∉ asciiDigits := by
  intro digit
  refine separator.2.2 ?_
  clear separator
  revert ch
  decide

section Parts

variable {spec : NumberFormat} {number whole frac : List Char}

theorem drop_fraction (length : frac.length = spec.scale) : (fraction spec frac).drop 1 = frac := by
  rw [fraction]
  split
  · rename_i zero
    rw [zero] at length
    exact (List.length_eq_zero_iff.mp length).symm
  · rfl

theorem mem_fracLanguage {text : List Char} :
    text ∈ fracLanguage spec ↔ ∃ frac : List Char, text = fraction spec frac ∧
      frac.length = spec.scale ∧ ∀ ch ∈ frac, ch ∈ asciiDigits := by
  simp only [fracLanguage, fraction]
  by_cases zero : spec.scale = 0
  · simp only [if_pos zero, Language.mem_one]
    constructor
    · intro isEmpty
      exact ⟨[], isEmpty, zero.symm, by simp⟩
    · intro ⟨frac, isEmpty, _⟩
      exact isEmpty
  · simp only [if_neg zero, Language.mem_mul]
    constructor
    · intro ⟨point, isPoint, frac, areFrac, same⟩
      obtain ⟨length, all⟩ := Regex.mem_letter_pow.mp areFrac
      rw [mem_letter_eq.mp isPoint] at same
      exact ⟨frac, same.symm, length, fun ch member => isDigit_iff.mp (all ch member)⟩
    · intro ⟨frac, same, length, all⟩
      exact ⟨[spec.radix], mem_letter_eq.mpr rfl, frac,
        Regex.mem_letter_pow.mpr ⟨length, fun ch member => isDigit_iff.mpr (all ch member)⟩,
        same.symm⟩

theorem mem_wholeLanguage {group : Option Char} {text : List Char} {ch : Char}
    (accepted : text ∈ wholeLanguage group) (member : ch ∈ text) :
    ch ∈ asciiDigits ∨ group = some ch := by
  cases group with
  | none => exact .inl ((mem_plus_digit.mp accepted).2 ch member)
  | some sep =>
      rcases accepted with zero | grouped | ungrouped
      · rw [mem_letter_eq.mp zero, List.mem_singleton] at member
        exact .inl (by rw [member]; decide)
      · obtain ⟨one, ⟨first, rfl, nonzero⟩, rest, areRest, rfl⟩ := Language.mem_mul.mp grouped
        obtain ⟨front, areFront, back, areBack, rfl⟩ := Language.mem_mul.mp areRest
        rw [pow_zero, one_mul, Regex.mem_letter_upTo] at areFront
        obtain ⟨groups, rfl, threes⟩ := mem_groups_star.mp areBack
        rcases List.mem_append.mp member with isFirst | inRest
        · rw [List.mem_singleton.mp isFirst]
          exact .inl (isNonzeroDigit_iff.mp nonzero).1
        · rcases List.mem_append.mp inRest with inFront | inGroups
          · exact .inl (isDigit_iff.mp (areFront.2 ch inFront))
          · obtain ⟨three, inThrees, inThree⟩ := List.mem_flatMap.mp inGroups
            rcases List.mem_cons.mp inThree with isSep | inDigits
            · exact .inr (congrArg some isSep.symm)
            · exact .inl ((threes three inThrees).2 ch inDigits)
      · exact .inl ((mem_nonzero_star.mp ungrouped).1.2 ch member)

theorem number_split {others : List (List Char)} {text : List Char}
    (isWhole : text ∈ wholeLanguage spec.group)
    (same : [text, fraction spec frac].flatten = others.flatten)
    (are : List.Forall₂ (· ∈ ·) others [wholeLanguage spec.group, fracLanguage spec]) :
    others = [text, fraction spec frac] := by
  have absent : ∀ word ∈ wholeLanguage spec.group, spec.radix ∉ word := by
    intro word accepted member
    rcases mem_wholeLanguage accepted member with digit | group
    · exact spec.radix_separator.not_digit digit
    · exact spec.distinct group
  obtain ⟨otherText, rest, isOther, restAre, rfl⟩ := List.forall₂_cons_right_iff.mp are
  obtain ⟨otherFrac, rest, isOtherFrac, restNil, rfl⟩ := List.forall₂_cons_right_iff.mp restAre
  rw [List.forall₂_nil_right_iff] at restNil
  subst restNil
  obtain ⟨digits, rfl, -, -⟩ := mem_fracLanguage.mp isOtherFrac
  simp only [List.flatten_cons, List.flatten_nil, List.append_nil, fraction] at same ⊢
  by_cases zero : spec.scale = 0
  · simp only [if_pos zero, List.append_nil] at same ⊢
    rw [same]
  · simp only [if_neg zero] at same ⊢
    obtain ⟨texts, fracs⟩ := append_separator_inj (absent text isWhole) (absent _ isOther) same
    rw [texts, fracs]

theorem NumberParts.whole_mem (parts : NumberParts spec number whole frac) :
    groupText whole spec.group ∈ wholeLanguage spec.group ∧
      (spec.group.isSome → groupText whole spec.group ∉ ungroupedLanguage) := by
  cases group : spec.group with
  | none => exact ⟨mem_plus_digit.mpr parts.isNumeral, nofun⟩
  | some sep =>
      have separator := (spec.group_separator sep group).not_digit
      have canonical := parts.canonical (by rw [group]; rfl)
      have accepted := (mem_wholeLanguage_some separator).mpr
        ⟨textNat whole, congrArg (fun text => groupText text (some sep)) canonical.symm⟩
      exact ⟨accepted.1, fun _ => accepted.2⟩

theorem groupedDigits_eq_some :
    groupedDigits spec number = some (whole, frac) ↔ NumberParts spec number whole frac := by
  constructor
  · intro parsed
    rw [groupedDigits] at parsed
    split at parsed
    swap
    · cases parsed
    rename_i text rest matched
    obtain ⟨isNumber, are⟩ := Regex.fullmatch_sound (spells_numberPattern spec) matched
    rw [List.forall₂_cons, List.forall₂_cons] at are
    obtain ⟨isWhole, isFrac, -⟩ := are
    obtain ⟨digits, rfl, length, all⟩ := mem_fracLanguage.mp isFrac
    rw [drop_fraction length] at parsed
    have number_eq : number = text ++ fraction spec digits := by simpa using isNumber
    cases group : spec.group with
    | none =>
        rw [group] at parsed isWhole
        obtain ⟨rfl, rfl⟩ := Prod.mk.inj (Option.some.inj parsed)
        refine ⟨?_, mem_plus_digit.mp isWhole, length, all, by simp [group]⟩
        rw [number_eq, group]
        rfl
    | some sep =>
        rw [group] at parsed isWhole
        dsimp only at parsed
        split at parsed
        · cases parsed
        rename_i short
        rw [Regex.fullmatch_single spells_ungroupedPattern] at short
        obtain ⟨rfl, rfl⟩ := Prod.mk.inj (Option.some.inj parsed)
        have separator := (spec.group_separator sep group).not_digit
        obtain ⟨value, rfl⟩ := (mem_wholeLanguage_some separator).mp ⟨isWhole, short⟩
        have stripped := filter_groupText
          fun member => separator (natText_mem_digits value sep member)
        rw [stripped]
        refine ⟨?_, natText_isNumeral value, length, all, ?_⟩
        · rw [number_eq, group]
        · intro _
          rw [textNat_natText]
  · intro parts
    obtain ⟨isWhole, short⟩ := parts.whole_mem
    have isFrac : fraction spec frac ∈ fracLanguage spec :=
      mem_fracLanguage.mpr ⟨frac, rfl, parts.frac_length, parts.frac_digits⟩
    have matched := Regex.fullmatch_eq_some (spells_numberPattern spec)
      (.cons isWhole (.cons isFrac .nil)) fun others same are => number_split isWhole same are
    have flat : [groupText whole spec.group, fraction spec frac].flatten = number := by
      rw [parts.number_eq]
      simp
    rw [flat] at matched
    rw [groupedDigits, matched]
    dsimp only
    rw [drop_fraction parts.frac_length]
    cases group : spec.group with
    | none => rfl
    | some sep =>
        have separator := (spec.group_separator sep group).not_digit
        have notLong : ¬ (fullmatch [ungroupedPattern] (groupText whole (some sep))).isSome := by
          rw [Regex.fullmatch_single spells_ungroupedPattern, ← group]
          exact short (by rw [group]; rfl)
        dsimp only
        rw [if_neg notLong, filter_groupText fun member => separator (parts.isNumeral.2 sep member)]

end Parts

end DecoyEngine.DeclaredCasting.NumberText
