import DecoyEngine.Detection.NativeScan
import DecoyEngine.Detection.Patterns

namespace DecoyEngine.Detection.Native

open DecoyEngine.Data
open DecoyEngine.Data.Regex (holdsAt skip allAt run run_set run_times_set run_all_set)

/-! The byte tests read off the characters of an eligible text. -/

/-- A byte test says of every character of the text what `accepts` says. -/
def Agree (text : List Char) (test : UInt8 → Bool) (accepts : Char → Bool) : Prop :=
  ∀ ch ∈ text, test (byte ch) = accepts ch

section Ascii

variable {text : List Char} {test : UInt8 → Bool} {accepts : Char → Bool}

theorem exists_code {ch : Char} (ascii : ch.toNat < 128) : ∃ code < 128, ch = Char.ofNat code :=
  ⟨ch.toNat, ascii, (Char.ofNat_toNat ch).symm⟩

/-- The byte of an ASCII character, tested as the character is. -/
def ScanAscii (ch : Char) : Prop :=
  (0x1c ≤ byte ch ∧ byte ch ≤ 0x1f ↔ 0x1c ≤ ch.toNat ∧ ch.toNat ≤ 0x1f) ∧
  isAsciiDigit (byte ch) = isDigit ch ∧
  isAsciiAlphanumeric (byte ch) = isAlphanumIgnoreCase ch ∧
  isAsciiWord (byte ch) = WordClass.asciiOnly.isWord ch ∧
  (¬ (0x1c ≤ ch.toNat ∧ ch.toNat ≤ 0x1f) → isAsciiSpace (byte ch) = isSpace ch)

instance (ch : Char) : Decidable (ScanAscii ch) := inferInstanceAs (Decidable (_ ∧ _))

theorem scanAscii_codes : ∀ code < 128, ScanAscii (Char.ofNat code) := by decide +kernel

theorem scanAscii {ch : Char} (ascii : ch.toNat < 128) : ScanAscii ch := by
  obtain ⟨code, small, rfl⟩ := exists_code ascii
  exact scanAscii_codes code small

theorem asBytes_ascii (ascii : ∀ ch ∈ text, ch.toNat < 128) : asBytes text = text.map byte := by
  induction text with
  | nil => rfl
  | cons ch text ih =>
      have small : ch.val.toNat ≤ 127 := Nat.le_of_lt_succ (ascii ch (by simp))
      have one : String.utf8EncodeChar ch = [byte ch] := by
        simp only [String.utf8EncodeChar, small, if_true, byte]
        rfl
      rw [asBytes, List.flatMap_cons, one]
      exact congrArg (byte ch :: ·) (ih fun other member => ascii other (by simp [member]))

theorem isEligible_iff :
    isEligible text = true ↔
      ∀ ch ∈ text, ch.toNat < 128 ∧ ¬ (0x1c ≤ ch.toNat ∧ ch.toNat ≤ 0x1f) := by
  have separator : ∀ {ch : Char}, ch.toNat < 128 →
      (0x1c ≤ byte ch ∧ byte ch ≤ 0x1f ↔ 0x1c ≤ ch.toNat ∧ ch.toNat ≤ 0x1f) :=
    fun ascii => (scanAscii ascii).1
  simp only [isEligible, Bool.and_eq_true, List.all_eq_true, decide_eq_true_eq, Bool.not_eq_true',
    List.any_eq_false]
  constructor
  · rintro ⟨ascii, plain⟩ ch member
    rw [asBytes_ascii ascii] at plain
    exact ⟨ascii ch member, fun between =>
      plain (byte ch) (List.mem_map_of_mem member) ((separator (ascii ch member)).mpr between)⟩
  · intro safe
    have ascii := fun ch member => (safe ch member).1
    refine ⟨ascii, ?_⟩
    rw [asBytes_ascii ascii]
    intro b member
    obtain ⟨ch, inText, same⟩ := List.mem_map.mp member
    subst same
    exact fun between => (safe ch inText).2 ((separator (ascii ch inText)).mp between)

theorem ascii_of_eligible (eligible : isEligible text = true) : ∀ ch ∈ text, ch.toNat < 128 :=
  fun ch member => (isEligible_iff.mp eligible ch member).1

theorem asBytes_eligible (eligible : isEligible text = true) :
    asBytes text = text.map byte := asBytes_ascii (ascii_of_eligible eligible)

theorem agree_digit (eligible : isEligible text = true) :
    Agree text isAsciiDigit isDigit :=
  fun ch member => (scanAscii (ascii_of_eligible eligible ch member)).2.1

theorem agree_alphanumeric (eligible : isEligible text = true) :
    Agree text isAsciiAlphanumeric isAlphanumIgnoreCase :=
  fun ch member => (scanAscii (ascii_of_eligible eligible ch member)).2.2.1

theorem byte_beq {left right : Char} (leftSmall : left.toNat < 128)
    (rightSmall : right.toNat < 128) : (byte left == byte right) = (left == right) := by
  have value : ∀ {ch : Char}, ch.toNat < 128 → (byte ch).toNat = ch.toNat := by
    intro ch small
    exact Nat.mod_eq_of_lt (Nat.lt_of_lt_of_le small (by decide))
  rw [Bool.eq_iff_iff, beq_iff_eq, beq_iff_eq]
  refine ⟨fun same => ?_, congrArg byte⟩
  have codes := congrArg UInt8.toNat same
  rw [value leftSmall, value rightSmall] at codes
  exact Char.toNat_inj.mp codes

theorem agree_char (eligible : isEligible text = true) {ch : Char} (ascii : ch.toNat < 128) :
    Agree text (· == byte ch) (· == ch) :=
  fun _ member => byte_beq (ascii_of_eligible eligible _ member) ascii

theorem agree_word (words : WordClass) (eligible : isEligible text = true) :
    Agree text isAsciiWord words.isWord := by
  intro ch member
  have ascii := ascii_of_eligible eligible ch member
  rw [words.ascii ch ascii]
  exact (scanAscii ascii).2.2.2.1

theorem agree_space (eligible : isEligible text = true) : Agree text isAsciiSpace isSpace := by
  intro ch member
  obtain ⟨ascii, plain⟩ := isEligible_iff.mp eligible ch member
  exact (scanAscii ascii).2.2.2.2 plain

theorem agree_contains (eligible : isEligible text = true) (chars : List Char)
    (ascii : ∀ ch ∈ chars, ch.toNat < 128) :
    Agree text ((chars.map byte).contains ·) (chars.contains ·) := by
  intro ch member
  induction chars with
  | nil => rfl
  | cons other chars ih =>
      have tail := ih fun ch member => ascii ch (by simp [member])
      have head := agree_char eligible (ascii other (by simp)) ch member
      simp only at head tail ⊢
      rw [List.map_cons, List.contains_cons, List.contains_cons, tail, head]

theorem Agree.or {otherTest : UInt8 → Bool} {otherAccepts : Char → Bool}
    (agree : Agree text test accepts) (other : Agree text otherTest otherAccepts) :
    Agree text (fun b => test b || otherTest b) (fun ch => accepts ch || otherAccepts ch) := by
  intro ch member
  simp only [agree ch member, other ch member]

theorem Agree.holds (agree : Agree text test accepts) (i : Nat) :
    holdsAt test (text.map byte) i = holdsAt accepts text i := by
  by_cases inside : i < text.length
  · simp [Regex.holdsAt, inside, agree _ (List.getElem_mem inside)]
  · simp [Regex.holdsAt, List.getElem?_eq_none (Nat.le_of_not_lt inside)]

theorem holdsAt_char (eligible : isEligible text = true) (ch : Char) (ascii : ch.toNat < 128)
    (i : Nat) : Regex.holdsAt (· == byte ch) (text.map byte) i = Regex.holdsAt (· == ch) text i :=
  (agree_char eligible ascii).holds i

theorem Agree.skips (agree : Agree text test accepts) (i : Nat) :
    skip test (text.map byte) i = skip accepts text i := by
  have same : ∀ {part : List Char}, part ⊆ text →
      (part.map byte).takeWhile test = (part.takeWhile accepts).map byte := by
    intro part within
    induction part with
    | nil => rfl
    | cons ch part ih =>
        have tail := ih fun other member => within (List.mem_cons_of_mem ch member)
        have head := agree ch (within (by simp))
        cases holds : accepts ch with
        | true => simp [head, holds, tail]
        | false => simp [head, holds]
  rw [Regex.skip, Regex.skip, ← List.map_drop, same (List.drop_subset i text), List.length_map]

end Ascii

/-! Slices of the bytes as sequences of tests. -/

section Slices

variable {α : Type} {b : List α} {i : Nat}

theorem allAt_eq_zip (tests : List (α → Bool)) (inside : i + tests.length ≤ b.length) :
    allAt tests b i = ((rowSlice b (i, i + tests.length)).zip tests).all
      (fun (x, test) => test x) := by
  induction tests generalizing i with
  | nil => simp [allAt]
  | cons test tests ih =>
      rw [List.length_cons] at inside
      have here : i < b.length := by omega
      have later := ih (i := i + 1) (by omega)
      have widen : rowSlice b (i, i + (test :: tests).length) =
          b[i] :: rowSlice b (i + 1, i + 1 + tests.length) := by
        simp only [rowSlice, List.drop_eq_getElem_cons here, List.length_cons,
          Nat.add_sub_cancel_left, List.take_succ_cons]
      rw [allAt, later, widen, List.zip_cons_cons, List.all_cons]
      simp [holdsAt, here]

theorem length_slice {count : Nat} (inside : i + count ≤ b.length) :
    (rowSlice b (i, i + count)).length = count := by
  simp only [rowSlice, List.length_take, List.length_drop]
  omega

theorem slice_all {count : Nat} (some : 0 < count) (test : α → Bool) :
    (decide (i + count > b.length) || !(rowSlice b (i, i + count)).all test) =
      !allAt (List.replicate count test) b i := by
  have size : (List.replicate count test).length = count := List.length_replicate
  by_cases inside : i + count ≤ b.length
  · have zipped := allAt_eq_zip (i := i) (List.replicate count test) (by rwa [size])
    have width := length_slice inside
    have each : ∀ {part : List α}, (part.zip (List.replicate part.length test)).all
        (fun (x, test) => test x) = part.all test := by
      intro part
      induction part with
      | nil => rfl
      | cons x part ih =>
          rw [List.length_cons, List.replicate_succ, List.zip_cons_cons, List.all_cons,
            List.all_cons, ih]
    have same : _ = (rowSlice b (i, i + count)).all test := each
    rw [width] at same
    rw [zipped, size, same]
    simp [Nat.not_lt.mpr inside]
  · have fails : allAt (List.replicate count test) b i = false := by
      cases holds : allAt (List.replicate count test) b i with
      | false => rfl
      | true =>
          have reach := Regex.allAt_le (by simpa using Nat.ne_of_gt some) holds
          exact absurd (size ▸ reach) inside
    simp [fails, Nat.lt_of_not_le inside]

theorem slice_literal {β : Type} (same : β → α → Bool) (word : List β)
    (inside : i + word.length ≤ b.length) :
    ((rowSlice b (i, i + word.length)).zip word).all (fun (x, m) => same m x) =
      allAt (word.map same) b i := by
  have zipped := allAt_eq_zip (i := i) (word.map same) (by rwa [List.length_map])
  rw [zipped, List.length_map, List.zip_map_right, List.all_map]
  rfl

theorem zip_beq {xs ys : List UInt8} (length : xs.length = ys.length) :
    (xs == ys) = (xs.zip ys).all (fun (x, m) => x == m) := by
  induction xs generalizing ys with
  | nil => cases ys <;> simp_all
  | cons x xs ih =>
      cases ys with
      | nil => simp at length
      | cons y ys =>
          rw [List.zip_cons_cons, List.all_cons, ← ih (by simpa using length)]
          rfl

theorem slice_beq {b : List UInt8} (word : List UInt8) (inside : i + word.length ≤ b.length) :
    (rowSlice b (i, i + word.length) == word) = allAt (word.map fun m x => x == m) b i := by
  rw [← slice_literal (fun m x => x == m) word inside, zip_beq (length_slice inside)]

theorem slice_asciiCiEq {b : List UInt8} {needle : String} (some : bytes needle ≠ []) :
    (decide (i + (bytes needle).length > b.length) ||
        !asciiCiEq (rowSlice b (i, i + (bytes needle).length)) needle) =
      !allAt ((bytes needle).map fun m h => toAsciiLowercase h == m) b i := by
  by_cases inside : i + (bytes needle).length ≤ b.length
  · have literal := slice_literal (fun m h => toAsciiLowercase h == m) (bytes needle) inside
    rw [asciiCiEq, length_slice inside, literal]
    simp [Nat.not_lt.mpr inside]
  · have fails : allAt ((bytes needle).map fun m h => toAsciiLowercase h == m) b i = false := by
      cases holds : allAt ((bytes needle).map fun m h => toAsciiLowercase h == m) b i with
      | false => rfl
      | true =>
          have reach := Regex.allAt_le (by simpa using some) holds
          rw [List.length_map] at reach
          exact absurd reach inside
    simp [fails, Nat.lt_of_not_le inside]

end Slices

/-! Sequences of tests on the bytes and on the characters. -/

section Sequences

variable {text : List Char} {i : Nat}

theorem allAt_agree {tests : List (UInt8 → Bool)} {accepts : List (Char → Bool)}
    (agree : List.Forall₂ (Agree text) tests accepts) :
    allAt tests (text.map byte) i = allAt accepts text i := by
  induction agree generalizing i with
  | nil => rfl
  | cons head _ ih => rw [allAt, allAt, head.holds, ih]

theorem allAt_digits (eligible : isEligible text = true) (count : Nat) :
    allAt (List.replicate count isAsciiDigit) (text.map byte) i =
      allAt (List.replicate count isDigit) text i := by
  refine allAt_agree ?_
  induction count with
  | zero => exact .nil
  | succ count ih => exact .cons (agree_digit eligible) ih

theorem allAt_word (eligible : isEligible text = true) (word : List Char)
    (ascii : ∀ ch ∈ word, ch.toNat < 128) :
    allAt ((word.map byte).map fun m x => x == m) (text.map byte) i =
      allAt (word.map fun x ch => ch == x) text i := by
  refine allAt_agree ?_
  induction word with
  | nil => exact .nil
  | cons ch word ih =>
      exact .cons (agree_char eligible (ascii ch (by simp)))
        (ih fun other member => ascii other (by simp [member]))

end Sequences

section Ssn

variable {text : List Char} {p : Nat}

theorem run_exactly {β : Type} (word : List Char) {rest : Nat → Option β} :
    run text (exactly word) p rest =
      if allAt (word.map fun x ch => ch == x) text p then rest (p + word.length) else none := by
  have sets : exactly word = .all ((word.map fun x ch => ch == x).map .set) := by
    rw [exactly, List.map_map]
    rfl
  rw [sets, run_all_set, List.length_map]

theorem run_guarded {β : Type} (word : List Char) (count : Nat) {parts : List (Regex Char)}
    {rest : Nat → Option β} :
    run text (.all (.notAhead (exactly word) :: .times digit count :: parts)) p rest =
      if allAt (word.map fun x ch => ch == x) text p then none
      else if allAt (List.replicate count isDigit) text p then
        run text (.all parts) (p + count) rest
      else none := by
  rw [Regex.run_all_cons, Regex.run_notAhead, run_exactly, Regex.run_all_cons, digit,
    run_times_set]
  split <;> simp_all

theorem run_optChar {β : Type} {ch : Char} {rest : Nat → Option β}
    (fails : Regex.FailsOn (· == ch) text rest) :
    run text (.opt (char ch)) p rest =
      rest (if holdsAt (· == ch) text p then p + 1 else p) := by
  rw [char, Regex.run_opt_set fails, apply_ite rest]

def ssnSerial (text : List Char) (q : Nat) : Option Nat :=
  if allAt (['0', '0', '0', '0'].map fun x ch => ch == x) text q then none
  else if allAt (List.replicate 4 isDigit) text q then some (q + 4) else none

def ssnGroup (text : List Char) (q : Nat) : Option Nat :=
  if allAt (['0', '0'].map fun x ch => ch == x) text q then none
  else if allAt (List.replicate 2 isDigit) text q then
    ssnSerial text (if holdsAt (· == '-') text (q + 2) then q + 2 + 1 else q + 2)
  else none

theorem holdsAt_other {accepts : Char → Bool} {ch : Char} (plain : accepts ch = false)
    (holds : holdsAt (· == ch) text p = true) : holdsAt accepts text p = false := by
  have inside := Regex.holdsAt_lt holds
  have here : text[p] = ch := by simpa [holdsAt, inside] using holds
  simp [holdsAt, inside, here, plain]

theorem run_ssnRe :
    run text ssnRe p some =
      if allAt (['0', '0', '0'].map fun x ch => ch == x) text p ||
          allAt (['6', '6', '6'].map fun x ch => ch == x) text p ||
          (holdsAt (· == '9') text p && allAt (List.replicate 2 isDigit) text (p + 1)) then none
      else if allAt (List.replicate 3 isDigit) text p then
        ssnGroup text (if holdsAt (· == '-') text (p + 3) then p + 3 + 1 else p + 3)
      else none := by
  have dash : isDigit '-' = false := rfl
  have serialFails : Regex.FailsOn (· == '-') text (ssnSerial text) := by
    intro j holds
    simp [ssnSerial, allAt, List.replicate_succ, holdsAt_other dash holds]
  have groupFails : Regex.FailsOn (· == '-') text (ssnGroup text) := by
    intro j holds
    simp [ssnGroup, allAt, List.replicate_succ, holdsAt_other dash holds]
  have serial : (fun q => run text (.all [.notAhead (exactly ['0', '0', '0', '0']),
      .times digit 4]) q some) = ssnSerial text := by
    funext q
    rw [run_guarded, Regex.run_all_nil, ssnSerial]
  have group : (fun q => run text (.all [.notAhead (exactly ['0', '0']), .times digit 2,
      .opt (char '-'), .notAhead (exactly ['0', '0', '0', '0']), .times digit 4]) q some) =
        ssnGroup text := by
    funext q
    rw [run_guarded, Regex.run_all_cons, serial, run_optChar serialFails, ssnGroup]
  have area : (run text (.oneOf (exactly ['0', '0', '0'])
      [exactly ['6', '6', '6'], .all [char '9', .times digit 2]]) p some).isSome =
        (allAt (['0', '0', '0'].map fun x ch => ch == x) text p ||
          allAt (['6', '6', '6'].map fun x ch => ch == x) text p ||
          (holdsAt (· == '9') text p && allAt (List.replicate 2 isDigit) text (p + 1))) := by
    rw [Regex.run_oneOf_cons, Regex.run_oneOf_cons, Regex.oneOf, run_exactly, run_exactly,
      Regex.run_all_cons, char, run_set, Regex.run_all_cons, digit, run_times_set,
      Regex.run_all_nil, Option.isSome_or, Option.isSome_or, Bool.or_assoc]
    simp only [apply_ite Option.isSome, Option.isSome_some, Option.isSome_none]
    cases holdsAt (· == '9') text p <;> simp
  rw [ssnRe, Regex.run_all_cons, Regex.run_notAhead, area, Regex.run_all_cons, digit,
    run_times_set, ← digit, Regex.run_all_cons, group, run_optChar groupFails]

theorem slice_word (eligible : isEligible text = true) (word : List Char)
    (ascii : ∀ ch ∈ word, ch.toNat < 128) (inside : p + word.length ≤ text.length) :
    (rowSlice (text.map byte) (p, p + word.length) == word.map byte) =
      allAt (word.map fun x ch => ch == x) text p := by
  have slice := slice_beq (b := text.map byte) (i := p) (word.map byte) (by simpa using inside)
  rw [List.length_map] at slice
  rw [slice, allAt_word eligible word ascii]

theorem reads_two (test : UInt8 → Bool) (b : List UInt8) (q : Nat) :
    (decide (q + 2 > b.length) || !holdsAt test b q || !holdsAt test b (q + 1)) =
      !allAt (List.replicate 2 test) b q := by
  cases last : holdsAt test b (q + 1) with
  | false => simp [List.replicate_succ, allAt, last]
  | true =>
      have inside := Regex.holdsAt_lt last
      simp [List.replicate_succ, allAt, last, Nat.not_lt.mpr inside]

theorem reads_three (test : UInt8 → Bool) (b : List UInt8) (q : Nat) :
    (decide (q + 3 > b.length) || !holdsAt test b q || !holdsAt test b (q + 1) ||
        !holdsAt test b (q + 2)) = !allAt (List.replicate 3 test) b q := by
  cases last : holdsAt test b (q + 2) with
  | false => simp [List.replicate_succ, allAt, last]
  | true =>
      have inside := Regex.holdsAt_lt last
      simp [List.replicate_succ, allAt, last, Nat.not_lt.mpr inside]

theorem ssnMatchAt_eq (eligible : isEligible text = true) :
    ssnMatchAt (text.map byte) p = run text ssnRe p some := by
  have digits := fun i count => allAt_digits (i := i) eligible count
  have same := fun ch ascii i => holdsAt_char eligible (ch : Char) ascii (i : Nat)
  have serial : ∀ q, (if decide (q + 4 > (text.map byte).length) ||
        !(rowSlice (text.map byte) (q, q + 4)).all isAsciiDigit then none
      else if rowSlice (text.map byte) (q, q + 4) == bytes "0000" then none
      else some (q + 4)) = ssnSerial text q := by
    intro q
    rw [slice_all (by decide), digits, ssnSerial]
    cases whole : allAt (List.replicate 4 isDigit) text q with
    | false => simp
    | true =>
        have inside := Regex.allAt_le (by simp) whole
        have zeros : (rowSlice (text.map byte) (q, q + 4) == bytes "0000") = _ :=
          slice_word eligible ['0', '0', '0', '0'] (by decide) inside
        simp only [zeros]
        rfl
  have group : ∀ q, (if decide (q + 2 > (text.map byte).length) ||
        !holdsAt isAsciiDigit (text.map byte) q ||
        !holdsAt isAsciiDigit (text.map byte) (q + 1) then none
      else if holdsAt (· == byte '0') (text.map byte) q &&
        holdsAt (· == byte '0') (text.map byte) (q + 1) then none
      else ssnSerial text (if holdsAt (· == '-') text (q + 2) then q + 2 + 1 else q + 2)) =
        ssnGroup text q := by
    intro q
    rw [reads_two, digits, same '0' (by decide), same '0' (by decide), ssnGroup]
    cases allAt (List.replicate 2 isDigit) text q <;> simp [allAt]
  rw [run_ssnRe, ssnMatchAt]
  simp only [serial, group, reads_three, digits, same '-' (by decide), same '9' (by decide)]
  cases whole : allAt (List.replicate 3 isDigit) text p with
  | false => simp
  | true =>
      have inside := Regex.allAt_le (by simp) whole
      have zeros : (rowSlice (text.map byte) (p, p + 3) == bytes "000") = _ :=
        slice_word eligible ['0', '0', '0'] (by decide) inside
      have sixes : (rowSlice (text.map byte) (p, p + 3) == bytes "666") = _ :=
        slice_word eligible ['6', '6', '6'] (by decide) inside
      have rest : allAt (List.replicate 2 isDigit) text (p + 1) = true := by
        simp only [List.replicate_succ, allAt, Bool.and_eq_true] at whole ⊢
        exact whole.2
      simp only [zeros, sixes, rest]
      simp

end Ssn

section Zip

variable {text : List Char} {p : Nat} (words : WordClass)

def zipTrailing (text : List Char) (q : Nat) : Option Nat :=
  if holdsAt words.isWord text q then none
  else if holdsAt (· == '.') text q && holdsAt isDigit text (q + 1) then none
  else some q

theorem run_usZipRe :
    run text (usZipRe words) p some =
      if 0 < p && holdsAt words.isWord text (p - 1) then none
      else if allAt (List.replicate 5 isDigit) text p then
        (if holdsAt (· == '-') text (p + 5) && allAt (List.replicate 4 isDigit) text (p + 5 + 1)
          then zipTrailing words text (p + 5 + 5) else none).or (zipTrailing words text (p + 5))
      else none := by
  have trailing : (fun q => run text (.all [.notAhead (.set words.isWord),
      .notAhead (.all [char '.', digit])]) q some) = zipTrailing words text := by
    funext q
    simp only [Regex.run_all_cons, Regex.run_notAhead, run_set, char, digit, Regex.run_all_nil,
      zipTrailing]
    cases holdsAt words.isWord text q <;> cases holdsAt (· == '.') text q <;>
      cases holdsAt isDigit text (q + 1) <;> rfl
  have extension : Regex.Consumes text (.all [char '-', .times digit 4]) :=
    Regex.consumes_seq Regex.consumes_set
  rw [usZipRe, Regex.run_all_cons, Regex.run_notBehind, Regex.run_all_cons, digit, run_times_set,
    ← digit, Regex.run_all_cons, trailing, Regex.run_opt extension, Regex.run_all_cons, char,
    run_set, Regex.run_all_cons, digit, run_times_set, Regex.run_all_nil]
  cases holdsAt (· == '-') text (p + 5) <;> simp

theorem zipMatchAt_eq (eligible : isEligible text = true) :
    zipMatchAt (text.map byte) p = run text (usZipRe words) p some := by
  have digits := fun i count => allAt_digits (i := i) eligible count
  have same := fun ch ascii i => holdsAt_char eligible (ch : Char) ascii (i : Nat)
  have trailing : ∀ q, zipTrailing words text q =
      if zipTrailingOk (text.map byte) q then some q else none := by
    intro q
    rw [zipTrailingOk, zipTrailing, (agree_word words eligible).holds, same '.' (by decide),
      (agree_digit eligible).holds]
    cases holdsAt words.isWord text q <;> cases holdsAt (· == '.') text q <;>
      cases holdsAt isDigit text (q + 1) <;> rfl
  have extension : (decide (p + 5 + 5 ≤ (text.map byte).length) &&
      (rowSlice (text.map byte) (p + 5 + 1, p + 5 + 5)).all isAsciiDigit) =
        allAt (List.replicate 4 isDigit) text (p + 5 + 1) := by
    have sliced := slice_all (b := text.map byte) (i := p + 5 + 1) (by decide : 0 < 4) isAsciiDigit
    rw [digits] at sliced
    have flipped := congrArg Bool.not sliced
    rw [Bool.not_not, Bool.not_or, Bool.not_not] at flipped
    have bound : decide (p + 5 + 5 ≤ (text.map byte).length) =
        !decide (p + 5 + 1 + 4 > (text.map byte).length) := by
      rw [← decide_not]
      exact decide_eq_decide.mpr (by omega)
    rw [bound, ← flipped]
  rw [run_usZipRe, zipMatchAt, (agree_word words eligible).holds]
  simp only [slice_all (by decide : 0 < 5), digits, same '-' (by decide), Bool.and_assoc, trailing]
  simp only [← Bool.and_assoc (decide _), extension]
  cases allAt (List.replicate 5 isDigit) text p <;>
    cases holdsAt (· == '-') text (p + 5) <;>
    cases allAt (List.replicate 4 isDigit) text (p + 5 + 1) <;>
    cases zipTrailingOk (text.map byte) (p + 5 + 5) <;> simp

end Zip

end DecoyEngine.Detection.Native
