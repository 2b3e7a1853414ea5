import DecoyEngine.Data.Regex
import Mathlib.Computability.Language

namespace DecoyEngine.Data.Regex

open Computability

/-! The words of a pattern.

A pattern that does not look around it ends where the words of a language end, whatever stands
before and after.  Each constructor has its law, and a full match with capture groups splits the
text into words of the groups. -/

variable {α : Type u}

/-- The ends of `r` are where the words of `language` end. -/
def Spells (r : Regex α) (language : Language α) : Prop :=
  ∀ (before rest : List α) (stop : Nat),
    stop ∈ r.ends (before ++ rest) before.length ↔
      ∃ word after, rest = word ++ after ∧ word ∈ language ∧ stop = before.length + word.length

/-- At most `limit` words, one after the other. -/
def upTo (language : Language α) (limit : Nat) : Language α :=
  {text | ∃ words : List (List α), text = words.flatten ∧ words.length ≤ limit ∧
    ∀ word ∈ words, word ∈ language ∧ word ≠ []}

/-- One letter of a set. -/
def letter (accepts : α → Bool) : Language α := {word | ∃ ch, word = [ch] ∧ accepts ch = true}

variable {r first second body : Regex α} {language left right : Language α} {accepts : α → Bool}

theorem spells_empty : Spells (α := α) .empty 1 := by
  intro before rest stop
  rw [ends, List.mem_singleton]
  constructor
  · intro same
    exact ⟨[], rest, rfl, Language.nil_mem_one, same⟩
  · intro ⟨word, after, _, isEmpty, same⟩
    rw [(Language.mem_one word).mp isEmpty] at same
    exact same

theorem spells_set : Spells (.set accepts) (letter accepts) := by
  intro before rest stop
  have here : holdsAt accepts (before ++ rest) before.length = (rest.head?).any accepts := by
    rw [holdsAt, List.getElem?_append_right (Nat.le_refl _), Nat.sub_self, List.head?_eq_getElem?]
  rw [ends, here]
  cases rest with
  | nil =>
      refine iff_of_false List.not_mem_nil fun found => ?_
      obtain ⟨word, after, isRest, ⟨ch, rfl, -⟩, -⟩ := found
      cases isRest
  | cons ch rest =>
      rw [List.head?_cons, Option.any_some]
      constructor
      · intro member
        split at member
        · rename_i accepted
          exact ⟨[ch], rest, rfl, ⟨ch, rfl, accepted⟩, List.mem_singleton.mp member⟩
        · cases member
      · intro spelled
        obtain ⟨word, after, isRest, ⟨other, rfl, accepted⟩, same⟩ := spelled
        obtain ⟨rfl, -⟩ := List.cons.inj isRest
        rw [if_pos accepted]
        exact List.mem_singleton.mpr same

theorem spells_seq (leftSpells : Spells first left) (rightSpells : Spells second right) :
    Spells (.seq first second) (left * right) := by
  intro before rest stop
  rw [ends, List.mem_flatMap]
  constructor
  · intro ⟨middle, reached, later⟩
    obtain ⟨word, after, rfl, isWord, rfl⟩ := (leftSpells before rest middle).mp reached
    rw [← List.append_assoc, ← List.length_append] at later
    obtain ⟨next, others, rfl, isNext, rfl⟩ := (rightSpells (before ++ word) after stop).mp later
    refine ⟨word ++ next, others, by rw [List.append_assoc], Language.append_mem_mul isWord isNext,
      ?_⟩
    rw [List.length_append, List.length_append, Nat.add_assoc]
  · intro ⟨both, others, isRest, isBoth, same⟩
    obtain ⟨word, isWord, next, isNext, rfl⟩ := Language.mem_mul.mp isBoth
    rw [List.append_assoc] at isRest
    subst isRest
    refine ⟨before.length + word.length,
      (leftSpells before _ _).mpr ⟨word, _, rfl, isWord, rfl⟩, ?_⟩
    rw [← List.append_assoc, ← List.length_append]
    refine (rightSpells (before ++ word) _ _).mpr ⟨next, others, rfl, isNext, ?_⟩
    rw [same, List.length_append, List.length_append, Nat.add_assoc]

theorem spells_alt (leftSpells : Spells first left) (rightSpells : Spells second right) :
    Spells (.alt first second) (left + right) := by
  intro before rest stop
  rw [ends, List.mem_append, leftSpells, rightSpells]
  constructor
  · intro reached
    rcases reached with ⟨word, after, isRest, isWord, same⟩ | ⟨word, after, isRest, isWord, same⟩
    · exact ⟨word, after, isRest, .inl isWord, same⟩
    · exact ⟨word, after, isRest, .inr isWord, same⟩
  · intro ⟨word, after, isRest, isWord, same⟩
    rcases isWord with isLeft | isRight
    · exact .inl ⟨word, after, isRest, isLeft, same⟩
    · exact .inr ⟨word, after, isRest, isRight, same⟩

theorem spells_times (spells : Spells r language) (count : Nat) :
    Spells (times r count) (language ^ count) := by
  induction count with
  | zero => exact spells_empty
  | succ count ih =>
      rw [pow_succ']
      exact spells_seq spells ih

theorem mem_repeatEnds (spells : Spells body language) {before rest : List α} {limit stop : Nat} :
    stop ∈ repeatEnds (body.ends (before ++ rest)) limit before.length ↔
      ∃ (words : List (List α)) (after : List α),
        rest = words.flatten ++ after ∧ words.length ≤ limit ∧
        (∀ word ∈ words, word ∈ language ∧ word ≠ []) ∧
          stop = before.length + words.flatten.length := by
  induction limit generalizing before rest with
  | zero =>
      rw [repeatEnds, List.mem_singleton]
      constructor
      · intro same
        exact ⟨[], rest, rfl, Nat.le_refl 0, List.forall_mem_nil _, same⟩
      · intro spelled
        obtain ⟨words, after, -, few, -, same⟩ := spelled
        obtain rfl := List.length_eq_zero_iff.mp (Nat.le_zero.mp few)
        exact same
  | succ limit ih =>
      simp only [repeatEnds, List.mem_append, List.mem_flatMap, List.mem_filter,
        decide_eq_true_eq, List.mem_singleton]
      constructor
      · intro reached
        rcases reached with ⟨middle, ⟨step, onward⟩, later⟩ | same
        · obtain ⟨word, after, rfl, isWord, rfl⟩ := (spells before rest middle).mp step
          rw [← List.append_assoc, ← List.length_append] at later
          obtain ⟨words, others, rfl, few, are, rfl⟩ := ih.mp later
          have some : word ≠ [] := by
            intro empty
            rw [empty, List.length_nil] at onward
            omega
          refine ⟨word :: words, others, ?_, Nat.succ_le_succ few, ?_, ?_⟩
          · rw [List.flatten_cons, List.append_assoc]
          · exact List.forall_mem_cons.mpr ⟨⟨isWord, some⟩, are⟩
          · rw [List.flatten_cons, List.length_append, List.length_append, Nat.add_assoc]
        · exact ⟨[], rest, rfl, Nat.zero_le _, List.forall_mem_nil _, same⟩
      · intro spelled
        obtain ⟨words, others, isRest, few, are, same⟩ := spelled
        cases words with
        | nil => exact .inr same
        | cons word words =>
            obtain ⟨⟨isWord, some⟩, areWords⟩ := List.forall_mem_cons.mp are
            have positive := List.length_pos_of_ne_nil some
            rw [List.flatten_cons, List.append_assoc] at isRest
            subst isRest
            refine .inl ⟨before.length + word.length,
              ⟨(spells before _ _).mpr ⟨word, _, rfl, isWord, rfl⟩, by omega⟩, ?_⟩
            rw [← List.append_assoc, ← List.length_append]
            refine ih.mpr ⟨words, others, rfl, Nat.le_of_succ_le_succ few, areWords, ?_⟩
            rw [same, List.flatten_cons, List.length_append, List.length_append, Nat.add_assoc]

theorem spells_upTo (spells : Spells body language) (limit : Nat) :
    Spells (.repeated body (some limit)) (upTo language limit) := by
  intro before rest stop
  rw [ends, Option.getD_some, mem_repeatEnds spells]
  constructor
  · intro ⟨words, after, isRest, few, are, same⟩
    exact ⟨words.flatten, after, isRest, ⟨words, rfl, few, are⟩, same⟩
  · intro ⟨text, after, isRest, ⟨words, isText, few, are⟩, same⟩
    subst isText
    exact ⟨words, after, isRest, few, are, same⟩

theorem length_le_flatten {words : List (List α)} (some : ∀ word ∈ words, word ≠ []) :
    words.length ≤ words.flatten.length := by
  induction words with
  | nil => exact Nat.le_refl 0
  | cons word words ih =>
      rw [List.forall_mem_cons] at some
      have positive := List.length_pos_of_ne_nil some.1
      have others := ih some.2
      rw [List.flatten_cons, List.length_append, List.length_cons]
      omega

theorem spells_star (spells : Spells body language) : Spells (star body) language∗ := by
  intro before rest stop
  rw [star, ends, Option.getD_none, List.length_append, Nat.add_sub_cancel_left,
    mem_repeatEnds spells]
  constructor
  · intro ⟨words, after, isRest, _, are, same⟩
    exact ⟨words.flatten, after, isRest,
      Language.join_mem_kstar fun word member => (are word member).1, same⟩
  · intro ⟨text, after, isRest, isText, same⟩
    obtain ⟨words, rfl, are⟩ := Language.mem_kstar_iff_exists_nonempty.mp isText
    refine ⟨words, after, isRest, ?_, are, same⟩
    have few := length_le_flatten fun word member => (are word member).2
    rw [isRest, List.length_append]
    omega

theorem spells_plus (spells : Spells body language) :
    Spells (plus body) (language * language∗) :=
  spells_seq spells (spells_star spells)

theorem spells_atLeast (spells : Spells body language) (low : Nat) :
    Spells (atLeast body low) (language ^ low * language∗) :=
  spells_seq (spells_times spells low) (spells_star spells)

theorem flatten_letters (text : List α) : (text.map fun ch => [ch]).flatten = text := by
  induction text with
  | nil => rfl
  | cons ch text ih => rw [List.map_cons, List.flatten_cons, ih, List.singleton_append]

theorem mem_letter_star {text : List α} : text ∈ (letter accepts)∗ ↔ ∀ ch ∈ text, accepts ch := by
  rw [Language.mem_kstar]
  constructor
  · intro ⟨words, isText, are⟩ ch member
    rw [isText] at member
    obtain ⟨word, inWords, inWord⟩ := List.mem_flatten.mp member
    obtain ⟨other, rfl, accepted⟩ := are word inWords
    rw [List.mem_singleton.mp inWord]
    exact accepted
  · intro accepted
    refine ⟨text.map fun ch => [ch], (flatten_letters text).symm, fun word member => ?_⟩
    obtain ⟨ch, inText, rfl⟩ := List.mem_map.mp member
    exact ⟨ch, rfl, accepted ch inText⟩

theorem mem_letter_pow {text : List α} {count : Nat} :
    text ∈ letter accepts ^ count ↔ text.length = count ∧ ∀ ch ∈ text, accepts ch := by
  induction count generalizing text with
  | zero =>
      rw [pow_zero, Language.mem_one]
      constructor
      · intro isEmpty
        subst isEmpty
        exact ⟨rfl, List.forall_mem_nil _⟩
      · exact fun none => List.length_eq_zero_iff.mp none.1
  | succ count ih =>
      rw [pow_succ', Language.mem_mul]
      constructor
      · intro ⟨word, ⟨ch, isWord, accepted⟩, others, areOthers, same⟩
        subst isWord same
        obtain ⟨length, all⟩ := ih.mp areOthers
        refine ⟨congrArg Nat.succ length, ?_⟩
        rw [List.singleton_append, List.forall_mem_cons]
        exact ⟨accepted, all⟩
      · intro ⟨length, all⟩
        cases text with
        | nil => cases length
        | cons ch text =>
            rw [List.forall_mem_cons] at all
            exact ⟨[ch], ⟨ch, rfl, all.1⟩, text,
              ih.mpr ⟨Nat.succ_injective length, all.2⟩, rfl⟩

theorem mem_letter_upTo {text : List α} {limit : Nat} :
    text ∈ upTo (letter accepts) limit ↔ text.length ≤ limit ∧ ∀ ch ∈ text, accepts ch := by
  constructor
  · intro ⟨words, isText, few, are⟩
    have single : ∀ word ∈ words, word ∈ letter accepts := fun word member => (are word member).1
    have inPower : text ∈ letter accepts ^ words.length :=
      Language.mem_pow.mpr ⟨words, isText, rfl, single⟩
    obtain ⟨length, all⟩ := mem_letter_pow.mp inPower
    exact ⟨by omega, all⟩
  · intro ⟨short, all⟩
    refine ⟨text.map fun ch => [ch], (flatten_letters text).symm,
      (List.length_map _).trans_le short, fun word member => ?_⟩
    obtain ⟨ch, inText, rfl⟩ := List.mem_map.mp member
    exact ⟨⟨ch, rfl, all ch inText⟩, List.cons_ne_nil ch []⟩

def groupsFrom (text : List α) : List (Regex α) → Nat → Option (List (List α))
  | [], i => if i = text.length then some [] else none
  | group :: groups, i =>
      (group.ends text i).findSome? fun stop =>
        (groupsFrom text groups stop).map ((text.drop i).take (stop - i) :: ·)

/-- `fullmatch` of capture groups that follow each other: what each of them matched. -/
def fullmatch (groups : List (Regex α)) (text : List α) : Option (List (List α)) :=
  groupsFrom text groups 0

variable {groups : List (Regex α)} {languages : List (Language α)} {parts : List (List α)}

theorem groupsFrom_sound (spells : List.Forall₂ Spells groups languages) {before rest : List α}
    (matched : groupsFrom (before ++ rest) groups before.length = some parts) :
    rest = parts.flatten ∧ List.Forall₂ (· ∈ ·) parts languages := by
  induction spells generalizing before rest parts with
  | nil =>
      rw [groupsFrom] at matched
      split at matched
      · rename_i finished
        rw [List.length_append] at finished
        obtain rfl := Option.some.inj matched
        exact ⟨List.length_eq_zero_iff.mp (by omega), .nil⟩
      · cases matched
  | cons spell spells ih =>
      rw [groupsFrom] at matched
      obtain ⟨stop, reached, later⟩ := List.exists_of_findSome?_eq_some matched
      obtain ⟨others, matchedOthers, rfl⟩ := Option.map_eq_some_iff.mp later
      obtain ⟨word, after, rfl, isWord, rfl⟩ := (spell before rest stop).mp reached
      rw [← List.append_assoc, ← List.length_append] at matchedOthers
      obtain ⟨isAfter, are⟩ := ih matchedOthers
      have taken : ((before ++ (word ++ after)).drop before.length).take
          (before.length + word.length - before.length) = word := by
        rw [List.drop_left, Nat.add_sub_cancel_left, List.take_left]
      rw [taken]
      exact ⟨by rw [List.flatten_cons, isAfter], .cons isWord are⟩

theorem groupsFrom_complete (spells : List.Forall₂ Spells groups languages) {before rest : List α}
    (isRest : rest = parts.flatten) (are : List.Forall₂ (· ∈ ·) parts languages) :
    (groupsFrom (before ++ rest) groups before.length).isSome := by
  induction spells generalizing before rest parts with
  | nil =>
      cases are
      subst isRest
      rw [groupsFrom, List.flatten_nil, List.append_nil, if_pos rfl]
      rfl
  | cons spell spells ih =>
      cases are with
      | cons isWord others =>
          rename_i word words
          subst isRest
          rw [groupsFrom, List.findSome?_isSome_iff]
          refine ⟨before.length + word.length,
            (spell before _ _).mpr ⟨word, words.flatten, rfl, isWord, rfl⟩, ?_⟩
          rw [Option.isSome_map, List.flatten_cons, ← List.append_assoc, ← List.length_append]
          exact ih rfl others

theorem fullmatch_sound (spells : List.Forall₂ Spells groups languages) {text : List α}
    (matched : fullmatch groups text = some parts) :
    text = parts.flatten ∧ List.Forall₂ (· ∈ ·) parts languages := by
  have fromStart : groupsFrom ([] ++ text) groups ([] : List α).length = some parts := matched
  exact groupsFrom_sound spells fromStart

theorem fullmatch_isSome_iff (spells : List.Forall₂ Spells groups languages) {text : List α} :
    (fullmatch groups text).isSome ↔
      ∃ parts, text = parts.flatten ∧ List.Forall₂ (· ∈ ·) parts languages := by
  constructor
  · intro found
    obtain ⟨parts, matched⟩ := Option.isSome_iff_exists.mp found
    exact ⟨parts, fullmatch_sound spells matched⟩
  · intro ⟨parts, isText, are⟩
    have fromStart : (groupsFrom ([] ++ text) groups ([] : List α).length).isSome :=
      groupsFrom_complete spells isText are
    exact fromStart

theorem fullmatch_single (spells : Spells r language) {text : List α} :
    (fullmatch [r] text).isSome ↔ text ∈ language := by
  rw [fullmatch_isSome_iff (.cons spells .nil)]
  constructor
  · intro ⟨parts, isText, are⟩
    obtain ⟨word, others, isWord, none, rfl⟩ := List.forall₂_cons_right_iff.mp are
    rw [List.forall₂_nil_right_iff] at none
    subst none isText
    rwa [List.flatten_singleton]
  · intro isWord
    exact ⟨[text], List.flatten_singleton.symm, .cons isWord .nil⟩

/-- Where the text splits in one way only, the order in which the matcher tries is immaterial. -/
theorem fullmatch_eq_some (spells : List.Forall₂ Spells groups languages)
    (are : List.Forall₂ (· ∈ ·) parts languages)
    (only : ∀ others, parts.flatten = others.flatten → List.Forall₂ (· ∈ ·) others languages →
      others = parts) :
    fullmatch groups parts.flatten = some parts := by
  have found := (fullmatch_isSome_iff spells).mpr ⟨parts, rfl, are⟩
  obtain ⟨others, matched⟩ := Option.isSome_iff_exists.mp found
  obtain ⟨same, areOthers⟩ := fullmatch_sound spells matched
  rw [matched, only others same areOthers]

end DecoyEngine.Data.Regex
