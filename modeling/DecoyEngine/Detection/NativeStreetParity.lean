import DecoyEngine.Detection.NativeScanParity

namespace DecoyEngine.Detection.Native

open DecoyEngine.Data
open DecoyEngine.Data.Regex (FailsOn holdsAt skip allAt run run_set run_all_cons run_all_nil)

/-! The street scanner prunes what cannot match: greedy runs whose followers start
elsewhere have one end, and at most one unit designator stands at a place. -/

variable {text : List Char} {i : Nat}

section Classes

/-- How the character sets of the pattern lie to one another. -/
abbrev StreetAscii (ch : Char) : Prop :=
  (isStreetWordChar ch = true → isSpace ch = false) ∧
  (isSpace ch = true →
    isAlphanumIgnoreCase ch = false ∧ isUnitChar .asciiOnly ch = false ∧ ch.toLower = ch) ∧
  (isUnitChar .asciiOnly ch = true → isStreetEndChar ch = false) ∧
  (isDigit ch = true → WordClass.asciiOnly.isWord ch = true ∧ isSpace ch = false) ∧
  toAsciiLowercase (byte ch) = byte ch.toLower ∧ ch.toLower.toNat < 128

theorem streetAscii_codes : ∀ code < 128, StreetAscii (Char.ofNat code) := by decide +kernel

theorem streetAscii (eligible : isEligible text = true) : ∀ ch ∈ text, StreetAscii ch := by
  intro ch member
  obtain ⟨code, small, rfl⟩ := exists_code (ascii_of_eligible eligible ch member)
  exact streetAscii_codes code small

theorem isUnitChar_ascii (words : WordClass) (eligible : isEligible text = true) :
    ∀ ch ∈ text, isUnitChar words ch = isUnitChar .asciiOnly ch := by
  intro ch member
  rw [isUnitChar, words.ascii ch (ascii_of_eligible eligible ch member)]
  rfl

theorem agree_streetWordChar (eligible : isEligible text = true) :
    Agree text (fun c => isAsciiAlphanumeric c || [byte '\'', byte '.', byte '-'].contains c)
      isStreetWordChar :=
  (agree_alphanumeric eligible).or (agree_contains eligible ['\'', '.', '-'] (by decide))

theorem agree_unitChar (words : WordClass) (eligible : isEligible text = true) :
    Agree text (fun c => isAsciiWord c || c == byte '-') (isUnitChar words) :=
  (agree_word words eligible).or (agree_char eligible (by decide))

end Classes

section Words

/-- The end of one `[A-Za-z0-9][A-Za-z0-9'.\-]*\s+`. -/
def wordEnd (text : List Char) (s : Nat) : Option Nat :=
  if holdsAt isAlphanumIgnoreCase text s then
    let w := skip isStreetWordChar text (s + 1)
    if holdsAt isSpace text w then some (skip isSpace text w) else none
  else none

theorem streetWordIter_eq (eligible : isEligible text = true) :
    streetWordIter (text.map byte) i = wordEnd text i := by
  simp only [streetWordIter, wordEnd, (agree_alphanumeric eligible).holds,
    (agree_streetWordChar eligible).skips, (agree_space eligible).holds,
    (agree_space eligible).skips]
  cases holdsAt isAlphanumIgnoreCase text i with
  | false => rfl
  | true =>
      cases holdsAt isSpace text (skip isStreetWordChar text (i + 1)) <;> rfl

theorem run_streetWord {rest : Nat → Option Nat} (eligible : isEligible text = true)
    (fails : FailsOn isSpace text rest) :
    run text streetWord i rest = (wordEnd text i).bind rest := by
  have apart : ∀ ch ∈ text, isStreetWordChar ch = true → isSpace ch = false :=
    fun ch member => (streetAscii eligible ch member).1
  have stops : FailsOn isStreetWordChar text
      (fun j => run text (.plus (.set isSpace)) j fun k => run text (.all []) k rest) :=
    Regex.failsOn_plus_set apart
  have spaces : FailsOn isSpace text (fun k => run text (.all []) k rest) := by
    simpa only [run_all_nil] using fails
  simp only [streetWord, run_all_cons, run_set, wordEnd]
  cases holdsAt isAlphanumIgnoreCase text i with
  | false => rfl
  | true =>
      simp only [if_true]
      rw [Regex.run_star_set stops, Regex.run_plus_set spaces, run_all_nil]
      split <;> rfl

/-- The end after each of the first `rounds` words, the furthest last. -/
def wordEnds (text : List Char) : Nat → Nat → List Nat
  | 0, _ => []
  | rounds + 1, pos =>
      match wordEnd text pos with
      | some next => next :: wordEnds text rounds next
      | none => []

theorem streetIterEnds_eq (eligible : isEligible text = true) (rounds : Nat) :
    streetIterEnds (text.map byte) rounds i = wordEnds text rounds i := by
  induction rounds generalizing i with
  | zero => rfl
  | succ rounds ih =>
      rw [streetIterEnds, wordEnds, streetWordIter_eq eligible]
      cases wordEnd text i with
      | none => rfl
      | some next => exact congrArg (next :: ·) ih

theorem wordEnd_space (eligible : isEligible text = true) (space : holdsAt isSpace text i = true) :
    wordEnd text i = none := by
  have apart : ∀ ch ∈ text, isSpace ch = true → isAlphanumIgnoreCase ch = false :=
    fun ch member space => ((streetAscii eligible ch member).2.1 space).1
  have inside := Regex.holdsAt_lt space
  have here : isSpace (text[i]) = true := by simpa [holdsAt, inside] using space
  simp [wordEnd, holdsAt, inside, apart _ (List.getElem_mem inside) here]

theorem run_words {rest : Nat → Option Nat} (eligible : isEligible text = true)
    (fails : FailsOn isSpace text rest) (rounds : Nat) :
    run text (.repeated streetWord (some rounds)) i rest =
      (i :: wordEnds text rounds i).reverse.findSome? rest := by
  have single : ∀ j, [j].findSome? rest = rest j := by
    intro j
    cases answer : rest j <;> simp [answer]
  have consumes : Regex.Consumes text streetWord := Regex.consumes_seq Regex.consumes_set
  induction rounds generalizing i with
  | zero => rw [Regex.run_upTo_zero, wordEnds, List.reverse_singleton, single]
  | succ rounds ih =>
      have onward : FailsOn isSpace text
          (fun j => run text (.repeated streetWord (some rounds)) j rest) := by
        intro j space
        have stuck : wordEnds text rounds j = [] := by
          cases rounds <;> simp [wordEnds, wordEnd_space eligible space]
        simp only [ih, stuck, List.reverse_singleton, single, fails j space]
      rw [Regex.run_upTo_succ consumes, run_streetWord eligible onward, wordEnds,
        List.reverse_cons, List.findSome?_append, single]
      cases wordEnd text i with
      | none => rfl
      | some next => rw [Option.bind_some, ih]

theorem run_wordsBetween {rest : Nat → Option Nat} (eligible : isEligible text = true)
    (fails : FailsOn isSpace text rest) :
    run text (.between streetWord 1 4) i rest =
      (wordEnds text 4 i).reverse.findSome? rest := by
  have onward : FailsOn isSpace text
      (fun j => run text (.repeated streetWord (some 3)) j rest) := by
    intro j space
    have stuck : wordEnds text 3 j = [] := by simp [wordEnds, wordEnd_space eligible space]
    simp [run_words eligible fails, stuck, fails j space]
  simp only [Regex.between, Regex.times, Regex.run_seq, Regex.run_empty]
  rw [run_streetWord eligible onward, wordEnds]
  cases wordEnd text i with
  | none => rfl
  | some next => exact run_words eligible fails 3

end Words

section Literals

variable {rest : Nat → Option Nat}

def folds (word : String) : List (Char → Bool) := word.toList.map foldsTo

theorem run_ignoreCase (word : String) :
    run text (ignoreCase word) i rest =
      if allAt (folds word) text i then rest (i + word.length) else none := by
  have sets : ignoreCase word = .all ((folds word).map .set) := by
    rw [ignoreCase, folds, List.map_map]
    rfl
  rw [sets, Regex.run_all_set, folds, List.length_map, String.length_toList]

theorem run_anyOf (first : String) (others : List String) :
    run text (anyOf (first :: others)) i rest =
      (first :: others).findSome? fun word =>
        if allAt (folds word) text i then rest (i + word.length) else none := by
  rw [anyOf, Regex.run_oneOf, ← List.map_cons, List.findSome?_map]
  exact congrArg (List.findSome? · (first :: others)) (funext run_ignoreCase)

theorem foldsTo_ascii {letter ch : Char} (small : ch.toNat < 128) :
    foldsTo letter ch = (ch.toLower == letter) := by
  have large : ∀ code ∈ extraCases letter, 128 ≤ code := by
    unfold extraCases
    split <;> decide
  have plain : (extraCases letter).contains ch.toNat = false := by
    rw [List.contains_eq_mem, decide_eq_false_iff_not]
    exact fun extra => absurd (large _ extra) (Nat.not_le.mpr small)
  rw [foldsTo, plain, Bool.or_false]

theorem agree_folds (eligible : isEligible text = true) {letter : Char}
    (ascii : letter.toNat < 128) :
    Agree text (fun h => toAsciiLowercase h == byte letter) (foldsTo letter) := by
  have lower : ∀ ch ∈ text, toAsciiLowercase (byte ch) = byte ch.toLower ∧
      ch.toLower.toNat < 128 := fun ch member => (streetAscii eligible ch member).2.2.2.2
  intro ch member
  simp only [(lower ch member).1, foldsTo_ascii (ascii_of_eligible eligible ch member),
    byte_beq (lower ch member).2 ascii]

theorem allAt_folds (eligible : isEligible text = true) {word : String}
    (ascii : ∀ letter ∈ word.toList, letter.toNat < 128) :
    allAt ((bytes word).map fun m h => toAsciiLowercase h == m) (text.map byte) i =
      allAt (folds word) text i := by
  refine allAt_agree ?_
  rw [bytes, folds, List.map_map]
  generalize word.toList = letters at ascii
  induction letters with
  | nil => exact .nil
  | cons letter letters ih =>
      exact .cons (agree_folds eligible (ascii letter (by simp)))
        (ih fun other member => ascii other (by simp [member]))

theorem folds_agree (eligible : isEligible text = true) {left right : List Char}
    (leftAt : allAt (left.map foldsTo) text i = true)
    (rightAt : allAt (right.map foldsTo) text i = true) : left <+: right ∨ right <+: left := by
  induction left generalizing right i with
  | nil => exact .inl (List.nil_prefix)
  | cons a left ih =>
      cases right with
      | nil => exact .inr (List.nil_prefix)
      | cons b right =>
          simp only [List.map_cons, allAt, Bool.and_eq_true] at leftAt rightAt
          have inside := Regex.holdsAt_lt leftAt.1
          have small := ascii_of_eligible eligible _ (List.getElem_mem inside)
          have lowers : text[i].toLower = a ∧ text[i].toLower = b := by
            simpa [holdsAt, inside, foldsTo_ascii small] using And.intro leftAt.1 rightAt.1
          have same : a = b := lowers.1.symm.trans lowers.2
          subst same
          exact (ih leftAt.2 rightAt.2).imp (List.prefix_cons_inj a).mpr (List.prefix_cons_inj a).mpr

end Literals

section Units

variable (words : WordClass) {rest : Nat → Option Nat}

/-- The end of `\s*[\w\-]+`. -/
def unitTail (text : List Char) (start : Nat) : Option Nat :=
  let w := skip isSpace text start
  if holdsAt (isUnitChar words) text w then some (skip (isUnitChar words) text w) else none

def pastDot (text : List Char) (start : Nat) : Nat :=
  if holdsAt (· == '.') text start then start + 1 else start

/-- The end of `\s+(?:unit)\.?\s*[\w\-]+`. -/
def unitEnd (text : List Char) (s : Nat) : Option Nat :=
  if holdsAt isSpace text s then
    let u := skip isSpace text s
    Detection.streetUnits.findSome? fun un =>
      if allAt (folds un) text u then unitTail words text (pastDot text (u + un.length)) else none
  else none

theorem unitTail_dot {start : Nat}
    (dot : holdsAt (· == '.') text start = true) : unitTail words text start = none := by
  have apart : ∀ ch ∈ text, ch = '.' → isSpace ch = false ∧ isUnitChar words ch = false := by
    intro ch member same
    subst same
    rw [isUnitChar, words.ascii '.' (by decide)]
    exact ⟨rfl, rfl⟩
  have inside := Regex.holdsAt_lt dot
  have here : text[start] = '.' := by simpa [holdsAt, inside] using dot
  have plain := apart _ (List.getElem_mem inside) here
  have stays : skip isSpace text start = start := by
    apply Regex.skip_of_not
    simp [holdsAt, inside, plain.1]
  simp [unitTail, stays, holdsAt, inside, plain.2]

theorem afterDot_eq (eligible : isEligible text = true) (start : Nat) (next : Nat → Option Nat) :
    ([true, false].findSome? fun withDot => (afterDot (text.map byte) start withDot).bind next) =
      (if holdsAt (· == '.') text start then next (start + 1) else none).or (next start) := by
  simp only [List.findSome?_cons, afterDot, (agree_char eligible (by decide : '.'.toNat < 128)).holds]
  cases holdsAt (· == '.') text start with
  | false => cases plain : next start <;> simp [plain]
  | true =>
      cases dotted : next (start + 1) <;> cases plain : next start <;> simp [dotted, plain]

theorem unit_letters : ∀ un ∈ Detection.streetUnits, un.toList ≠ [] ∧
    (∀ letter ∈ un.toList, letter.toNat < 128 ∧ isSpace letter = false) ∧
    ∀ other ∈ Detection.streetUnits, un.toList <+: other.toList → un = other := by decide +kernel

theorem streetUnit_eq (eligible : isEligible text = true) (s : Nat) :
    streetUnit (text.map byte) s = unitEnd words text s := by
  have tail : ∀ start, (if skip (isUnitChar words) text (skip isSpace text start) >
      skip isSpace text start then
        some (skip (isUnitChar words) text (skip isSpace text start)) else none) =
          unitTail words text start := by
    intro start
    simp only [unitTail, gt_iff_lt, Regex.lt_skip_iff]
  simp only [streetUnit, unitEnd, (agree_space eligible).holds, (agree_space eligible).skips,
    (agree_unitChar words eligible).skips]
  cases holdsAt isSpace text s with
  | false => rfl
  | true =>
      simp only [Bool.not_true, if_false, if_true, Bool.false_eq_true]
      apply Regex.findSome_congr
      intro un member
      obtain ⟨some, letters, -⟩ := unit_letters un member
      have nonempty : bytes un ≠ [] := by simpa [bytes] using some
      have width : (bytes un).length = un.length := by
        rw [bytes, List.length_map, String.length_toList]
      rw [slice_asciiCiEq nonempty,
        allAt_folds eligible fun letter inWord => (letters letter inWord).1, width]
      cases allAt (folds un) text (skip isSpace text s) with
      | false => rfl
      | true =>
          refine (afterDot_eq eligible _ _).trans ?_
          rw [tail, tail, pastDot]
          cases dot : holdsAt (· == '.') text (skip isSpace text s + un.length) with
          | false => rfl
          | true =>
              rw [unitTail_dot words dot, Option.or_none]
              rfl

theorem folds_space (eligible : isEligible text = true) {un : String}
    (letters : ∀ letter ∈ un.toList, letter.toNat < 128 ∧ isSpace letter = false)
    (some : un.toList ≠ []) (space : holdsAt isSpace text i = true) :
    allAt (folds un) text i = false := by
  have still : ∀ ch ∈ text, isSpace ch = true → ch.toLower = ch :=
    fun ch member space => ((streetAscii eligible ch member).2.1 space).2.2
  have inside := Regex.holdsAt_lt space
  have here : isSpace (text[i]) = true := by simpa [holdsAt, inside] using space
  have small := ascii_of_eligible eligible _ (List.getElem_mem inside)
  rw [folds]
  cases spelled : un.toList with
  | nil => exact absurd spelled some
  | cons letter others =>
      have plain := (letters letter (by simp [spelled])).2
      have other : foldsTo letter text[i] = false := by
        rw [foldsTo_ascii small, still _ (List.getElem_mem inside) here, beq_eq_false_iff_ne]
        intro same
        rw [same, plain] at here
        exact Bool.false_ne_true here
      simp [allAt, holdsAt, inside, other]

theorem run_streetUnit (eligible : isEligible text = true)
    (fails : FailsOn (isUnitChar words) text rest) (s : Nat) :
    run text (Detection.streetUnit words) s rest = (unitEnd words text s).bind rest := by
  have apart : ∀ ch ∈ text, isSpace ch = true → isUnitChar words ch = false := by
    intro ch member space
    rw [isUnitChar_ascii words eligible ch member]
    exact ((streetAscii eligible ch member).2.1 space).2.1
  have ends : ∀ start, run text (.all [.star (.set isSpace), .plus (.set (isUnitChar words))]) start
      rest = (unitTail words text start).bind rest := by
    intro start
    have followed : FailsOn (isUnitChar words) text (fun j => run text (.all []) j rest) := by
      simpa only [run_all_nil] using fails
    rw [run_all_cons]
    simp only [run_all_cons]
    rw [Regex.run_star_set (Regex.failsOn_plus_set apart), Regex.run_plus_set followed,
      run_all_nil, unitTail]
    cases holdsAt (isUnitChar words) text (skip isSpace text start) <;> rfl
  have dotted : ∀ start, run text (.all [.opt (char '.'), .star (.set isSpace),
      .plus (.set (isUnitChar words))]) start rest =
        (unitTail words text (pastDot text start)).bind rest := by
    intro start
    rw [run_all_cons, funext ends, char, Regex.run_opt Regex.consumes_set, run_set, pastDot]
    cases dot : holdsAt (· == '.') text start with
    | false => simp
    | true =>
        rw [unitTail_dot words dot]
        simp
  have designated : ∀ u, run text (.all [anyOf Detection.streetUnits, .opt (char '.'),
      .star (.set isSpace), .plus (.set (isUnitChar words))]) u rest =
        (Detection.streetUnits.findSome? fun un =>
          if allAt (folds un) text u then unitTail words text (pastDot text (u + un.length))
          else none).bind rest := by
    intro u
    rw [run_all_cons, funext dotted, Detection.streetUnits, run_anyOf, ← Detection.streetUnits]
    rw [← Regex.findSome_bind]
    · apply Regex.findSome_congr
      intro un _
      cases allAt (folds un) text u <;> rfl
    · -- Two designators at one place would be prefixes of one another.
      intro un unIn other otherIn a b unEnd otherEnd
      cases unAt : allAt (folds un) text u with
      | false => simp [unAt] at unEnd
      | true =>
          cases otherAt : allAt (folds other) text u with
          | false => simp [otherAt] at otherEnd
          | true =>
              have same : un = other := (folds_agree eligible unAt otherAt).elim
                ((unit_letters un unIn).2.2 other otherIn)
                (fun before => ((unit_letters other otherIn).2.2 un unIn before).symm)
              subst same
              exact Option.some.inj (unEnd.symm.trans otherEnd)
  have stuck : FailsOn isSpace text (fun u => run text (.all [anyOf Detection.streetUnits,
      .opt (char '.'), .star (.set isSpace), .plus (.set (isUnitChar words))]) u rest) := by
    intro u space
    have none : (Detection.streetUnits.findSome? fun un =>
        if allAt (folds un) text u then unitTail words text (pastDot text (u + un.length))
        else none) = none := by
      rw [List.findSome?_eq_none_iff]
      intro un member
      rw [folds_space eligible (unit_letters un member).2.1 (unit_letters un member).1 space]
      rfl
    simp only [designated, none, Option.bind_none]
  rw [Detection.streetUnit, run_all_cons, Regex.run_plus_set stuck, designated, unitEnd]
  cases holdsAt isSpace text s <;> rfl

end Units

section Ending

variable (words : WordClass)

def streetEnds (text : List Char) (pos : Nat) : Bool :=
  holdsAt isStreetEndChar text pos || pos == text.length

theorem agree_streetEnd (eligible : isEligible text = true) :
    Agree text (fun c => isAsciiSpace c || [byte ',', byte '.', byte ';', byte ':', byte '!',
      byte '?', byte ')', byte '"', byte '\''].contains c) isStreetEndChar :=
  (agree_space eligible).or (agree_contains eligible
    [',', '.', ';', ':', '!', '?', ')', '"', '\''] (by decide))

theorem streetLookahead_eq (eligible : isEligible text = true) (inside : i ≤ text.length) :
    streetLookahead (text.map byte) i = streetEnds text i := by
  rw [streetLookahead, (agree_streetEnd eligible).holds, List.length_map, streetEnds]
  by_cases last : i = text.length
  · simp [last]
  · have before : ¬ text.length ≤ i := by omega
    simp [before, last]

theorem run_streetEnd {rest : Nat → Option Nat} :
    run text (.ahead streetEnd) i rest = if streetEnds text i then rest i else none := by
  have newline : ∀ {j}, holdsAt (· == '\n') text j = true → holdsAt isStreetEndChar text j = true := by
    intro j holds
    have inside := Regex.holdsAt_lt holds
    have here : text[j] = '\n' := by simpa [holdsAt, inside] using holds
    have ends : isStreetEndChar '\n' = true := rfl
    simp [holdsAt, inside, here, ends]
  rw [Regex.run_ahead, streetEnd, Regex.run_oneOf_cons, Regex.oneOf, run_set, Regex.run_finish,
    streetEnds]
  cases ends : holdsAt isStreetEndChar text i with
  | true => simp
  | false =>
      have plain : holdsAt (· == '\n') text i = false := by
        cases holds : holdsAt (· == '\n') text i with
        | false => rfl
        | true => exact absurd (newline holds) (by simp [ends])
      by_cases last : i = text.length <;> simp [plain, last]

/-- What follows the dot of a suffix: the unit if it completes, else the end there. -/
def suffixTail (text : List Char) (start : Nat) : Option Nat :=
  ((unitEnd words text start).filter (streetEnds text)).or
    (if streetEnds text start then some start else none)

/-- The end of `(?:suffix)\.?(?:unit)?` and its lookahead. -/
def restEnd (text : List Char) (q : Nat) : Option Nat :=
  uspsStreetSuffixes.findSome? fun suf =>
    if allAt (folds suf) text q then
      let afterSuf := q + suf.length
      (if holdsAt (· == '.') text afterSuf then suffixTail words text (afterSuf + 1)
        else none).or (suffixTail words text afterSuf)
    else none

theorem suffix_letters : ∀ suf ∈ uspsStreetSuffixes, suf.toList ≠ [] ∧
    ∀ letter ∈ suf.toList, letter.toNat < 128 ∧ isSpace letter = false := by decide +kernel

theorem unitEnd_le {stop : Nat} (found : unitEnd words text i = some stop) :
    stop ≤ text.length := by
  simp only [unitEnd] at found
  split at found
  · obtain ⟨un, -, reached⟩ := List.exists_of_findSome?_eq_some found
    split at reached
    · rw [unitTail] at reached
      split at reached
      · next holds =>
          have inside := Nat.le_of_lt (Regex.holdsAt_lt holds)
          cases reached
          exact Regex.skip_le inside
      · cases reached
    · cases reached
  · cases found

theorem streetRest_eq (eligible : isEligible text = true) (q : Nat) :
    streetRest (text.map byte) q = restEnd words text q := by
  have tail : ∀ start ≤ text.length,
      ((streetUnit (text.map byte) start).filter (streetLookahead (text.map byte))).or
        (if streetLookahead (text.map byte) start then some start else none) =
          suffixTail words text start := by
    intro start inside
    have filtered : (unitEnd words text start).filter (streetLookahead (text.map byte)) =
        (unitEnd words text start).filter (streetEnds text) := by
      cases found : unitEnd words text start with
      | none => rfl
      | some stop =>
          simp only [Option.filter_some, streetLookahead_eq eligible (unitEnd_le words found)]
    rw [streetUnit_eq words eligible, filtered, streetLookahead_eq eligible inside, suffixTail]
  simp only [streetRest, restEnd]
  apply Regex.findSome_congr
  intro suf member
  obtain ⟨some, letters⟩ := suffix_letters suf member
  have nonempty : bytes suf ≠ [] := by simpa [bytes] using some
  have width : (bytes suf).length = suf.length := by
    rw [bytes, List.length_map, String.length_toList]
  rw [slice_asciiCiEq nonempty, allAt_folds eligible fun letter inWord => (letters letter inWord).1,
    width]
  cases spelled : allAt (folds suf) text q with
  | false => rfl
  | true =>
      have inside := Regex.allAt_le (by simpa [folds] using some) spelled
      rw [folds, List.length_map, String.length_toList] at inside
      refine (afterDot_eq eligible _ _).trans ?_
      rw [tail _ inside]
      cases dot : holdsAt (· == '.') text (q + suf.length) with
      | false => rfl
      | true => simp only [if_true, tail _ (Regex.holdsAt_lt dot)]

/-- The pattern after the words. -/
def restParts : List (Regex Char) :=
  [anyOf uspsStreetSuffixes, .opt (char '.'), .opt (Detection.streetUnit words), .ahead streetEnd]

theorem run_rest (eligible : isEligible text = true) (q : Nat) :
    run text (.all (restParts words)) q some = restEnd words text q := by
  have unitChars : ∀ ch ∈ text, isUnitChar words ch = true → isStreetEndChar ch = false := by
    intro ch member
    rw [isUnitChar_ascii words eligible ch member]
    exact (streetAscii eligible ch member).2.2.1
  have endsFail : FailsOn (isUnitChar words) text
      (fun j => run text (.all [.ahead streetEnd]) j some) := by
    intro j holds
    have inside := Regex.holdsAt_lt holds
    have here : isUnitChar words text[j] = true := by simpa [holdsAt, inside] using holds
    have plain := unitChars _ (List.getElem_mem inside) here
    have middle : streetEnds text j = false := by
      simp [streetEnds, holdsAt, inside, plain, Nat.ne_of_lt inside]
    change run text (.all [.ahead streetEnd]) j some = none
    rw [run_all_cons, run_streetEnd, middle]
    rfl
  have consumes : Regex.Consumes text (Detection.streetUnit words) :=
    Regex.consumes_seq (Regex.consumes_seq Regex.consumes_set)
  have tail : ∀ start, run text (.all [.opt (Detection.streetUnit words), .ahead streetEnd]) start
      some = suffixTail words text start := by
    intro start
    rw [run_all_cons, Regex.run_opt consumes, run_streetUnit words eligible endsFail, run_all_cons,
      run_streetEnd, run_all_nil, suffixTail]
    cases unitEnd words text start with
    | none => rfl
    | some stop =>
        rw [Option.bind_some, run_all_cons, run_streetEnd, run_all_nil, Option.filter_some]
  rw [restParts, run_all_cons, uspsStreetSuffixes, run_anyOf, ← uspsStreetSuffixes, restEnd]
  apply Regex.findSome_congr
  intro suf _
  rw [run_all_cons, funext tail, char, Regex.run_opt Regex.consumes_set, run_set]

theorem restEnd_space (eligible : isEligible text = true) :
    FailsOn isSpace text (restEnd words text) := by
  intro j space
  rw [restEnd, List.findSome?_eq_none_iff]
  intro suf member
  obtain ⟨some, letters⟩ := suffix_letters suf member
  rw [folds_space eligible letters some space]
  rfl

end Ending

section Whole

variable (words : WordClass)

theorem streetMatchAt_eq (eligible : isEligible text = true) (p : Nat) :
    streetMatchAt (text.map byte) p = run text (streetAddressRe words) p some := by
  have digitWord : ∀ ch ∈ text, isDigit ch = true → words.isWord ch = true := by
    intro ch member digit
    rw [words.ascii ch (ascii_of_eligible eligible ch member)]
    exact ((streetAscii eligible ch member).2.2.2.1 digit).1
  have digitSpace : ∀ ch ∈ text, isDigit ch = true → isSpace ch = false :=
    fun ch member digit => ((streetAscii eligible ch member).2.2.2.1 digit).2
  have rest : (fun q => run text (.all (restParts words)) q some) = restEnd words text :=
    funext (run_rest words eligible)
  have named : ∀ q, run text (.all (.between streetWord 1 4 :: restParts words)) q some =
      (wordEnds text 4 q).reverse.findSome? (restEnd words text) := by
    intro q
    rw [run_all_cons, rest, run_wordsBetween eligible (restEnd_space words eligible)]
  have stuck : FailsOn isSpace text
      (fun q => run text (.all (.between streetWord 1 4 :: restParts words)) q some) := by
    intro j space
    simp only [named, wordEnds, wordEnd_space eligible space, List.reverse_nil,
      List.findSome?_nil]
  have numbered : FailsOn isDigit text (fun j => run text
      (.all (.plus (.set isSpace) :: .between streetWord 1 4 :: restParts words)) j some) := by
    simpa only [run_all_cons] using Regex.failsOn_plus_set digitSpace
  have whole : streetAddressRe words = .all (.boundary words.isWord :: .between digit 1 6 ::
      .plus (.set isSpace) :: .between streetWord 1 4 :: restParts words) := rfl
  rw [whole, run_all_cons, Regex.run_boundary, run_all_cons, digit,
    Regex.run_between_set numbered 5, run_all_cons, Regex.run_plus_set stuck, named]
  simp only [streetMatchAt, (agree_word words eligible).holds, (agree_digit eligible).skips,
    (agree_space eligible).holds, (agree_space eligible).skips, streetIterEnds_eq eligible,
    funext (streetRest_eq words eligible)]
  have onward := Regex.le_skip isDigit text p
  have position : p + (skip isDigit text p - p) = skip isDigit text p := by omega
  rw [position]
  by_cases number : p < skip isDigit text p
  · have holds := Regex.lt_skip_iff.mp number
    have inside := Regex.holdsAt_lt holds
    have here : isDigit text[p] = true := by simpa [holdsAt, inside] using holds
    have word : holdsAt words.isWord text p = true := by
      simp [holdsAt, inside, digitWord _ (List.getElem_mem inside) here]
    have some : (skip isDigit text p - p == 0) = false := by
      rw [beq_eq_false_iff_ne]
      omega
    have few : (decide (skip isDigit text p - p > 6)) = !decide (skip isDigit text p ≤ p + 6) := by
      rw [← decide_not]
      exact decide_eq_decide.mpr (by omega)
    rw [word, some, few]
    cases decide (0 < p) && holdsAt words.isWord text (p - 1) <;>
      by_cases short : skip isDigit text p ≤ p + 6 <;>
      cases holdsAt isSpace text (skip isDigit text p) <;> simp [number, short]
  · have none : (skip isDigit text p - p == 0) = true := by
      rw [beq_iff_eq]
      omega
    simp [number, none]

end Whole

end DecoyEngine.Detection.Native
