import DecoyEngine.Detection.NativeStreetParity
import DecoyEngine.Detection.NativeValidatorParity

namespace DecoyEngine.Detection.Native

open DecoyEngine.Data
open DecoyEngine.Data.Regex (Consumes finditer finditerFrom holdsAt allAt run)

/-! The scan loops against `finditer`: the kernel keeps every position in 32 bits. -/

/-- A span as the kernel reports it. -/
def span32 (idx : UInt32) (span : Nat × Nat) : UInt32 × UInt32 × UInt32 :=
  (idx, span.1.toUInt32, span.2.toUInt32)

/-- The positions of a reported span. -/
def positions (span : UInt32 × UInt32 × UInt32) : Nat × Nat := (span.2.1.toNat, span.2.2.toNat)

section Scan

variable {r : Regex Char} {text : List Char}

theorem finditerFrom_end (consumes : Consumes text r) {rounds p : Nat} (done : text.length ≤ p) :
    finditerFrom r text rounds false p = [] := by
  have past : ∀ {rounds p : Nat}, text.length < p → finditerFrom r text rounds false p = [] := by
    intro rounds p beyond
    cases rounds with
    | zero => rfl
    | succ rounds => rw [Regex.finditerFrom_consuming consumes, if_pos beyond]
  cases rounds with
  | zero => rfl
  | succ rounds =>
      rw [Regex.finditerFrom_consuming consumes]
      split
      · rfl
      · cases matched : run text r p some with
        | none => exact past (by omega)
        | some stop =>
            have onward := consumes p stop (Regex.mem_of_run matched)
            omega

theorem scanFrom_eq (consumes : Consumes text r) {matchAt : Nat → Option Nat}
    (same : ∀ p, matchAt p = run text r p some) (idx : UInt32) {fuel rounds p : Nat}
    (enough : text.length ≤ p + fuel) (longer : text.length < p + rounds) :
    scanFrom matchAt text.length idx fuel p =
      (finditerFrom r text rounds false p).map (span32 idx) := by
  induction fuel generalizing rounds p with
  | zero => rw [finditerFrom_end consumes (by omega), scanFrom, List.map_nil]
  | succ fuel ih =>
      rw [scanFrom, same]
      split
      · next inside =>
          obtain ⟨rounds, rfl⟩ : ∃ earlier, rounds = earlier + 1 := ⟨rounds - 1, by omega⟩
          rw [Regex.finditerFrom_consuming consumes, if_neg (by omega)]
          cases matched : run text r p some with
          | none => exact ih (by omega) (by omega)
          | some stop =>
              have onward := consumes p stop (Regex.mem_of_run matched)
              have later : scanFrom matchAt text.length idx fuel stop =
                  (finditerFrom r text rounds false stop).map (span32 idx) :=
                ih (by omega) (by omega)
              exact congrArg ((idx, p.toUInt32, stop.toUInt32) :: ·) later
      · rw [finditerFrom_end consumes (by omega), List.map_nil]

end Scan

section Scanners

variable {text : List Char}

theorem ssnRe_consumes : Consumes text ssnRe :=
  Regex.consumes_after (Regex.consumes_seq (Regex.consumes_seq Regex.consumes_set))

theorem usZipRe_consumes (words : WordClass) : Consumes text (usZipRe words) :=
  Regex.consumes_after (Regex.consumes_seq (Regex.consumes_seq Regex.consumes_set))

theorem streetAddressRe_consumes (words : WordClass) : Consumes text (streetAddressRe words) :=
  Regex.consumes_after (Regex.consumes_seq (Regex.consumes_seq
    (Regex.consumes_seq Regex.consumes_set)))

theorem scanSsn_eq (eligible : isEligible text = true) (idx : UInt32) :
    scanSsn (asBytes text) idx = (finditer ssnRe text).map (span32 idx) := by
  rw [scanSsn, asBytes_eligible eligible, List.length_map]
  exact scanFrom_eq ssnRe_consumes (fun _ => ssnMatchAt_eq eligible) idx (by omega) (by omega)

theorem scanUsZip_eq (eligible : isEligible text = true) (idx : UInt32) (words : WordClass) :
    scanUsZip (asBytes text) idx = (finditer (usZipRe words) text).map (span32 idx) := by
  rw [scanUsZip, asBytes_eligible eligible, List.length_map]
  exact scanFrom_eq (usZipRe_consumes words) (fun _ => zipMatchAt_eq words eligible) idx
    (by omega) (by omega)

theorem scanStreet_eq (eligible : isEligible text = true) (idx : UInt32) (words : WordClass) :
    scanStreet (asBytes text) idx =
      (finditer (streetAddressRe words) text).map (span32 idx) := by
  rw [scanStreet, asBytes_eligible eligible, List.length_map]
  exact scanFrom_eq (streetAddressRe_consumes words) (streetMatchAt_eq words eligible) idx
    (by omega) (by omega)

end Scanners

section Positions

variable {text : List Char}

theorem positions_span32 {r : Regex Char} (short : text.length < 2 ^ 32) (idx : UInt32) :
    ((finditer r text).map (span32 idx)).map positions = finditer r text := by
  have same : ∀ span ∈ finditer r text, positions (span32 idx span) = span := by
    intro span member
    have bounds := Regex.finditer_bounds member
    have start : span.1.toUInt32.toNat = span.1 := Nat.mod_eq_of_lt (by omega)
    have stop : span.2.toUInt32.toNat = span.2 := Nat.mod_eq_of_lt (by omega)
    rw [positions, span32, start, stop]
  calc ((finditer r text).map (span32 idx)).map positions
      = (finditer r text).map (fun span => positions (span32 idx span)) := List.map_map
    _ = (finditer r text).map id := List.map_congr_left same
    _ = finditer r text := List.map_id _

/-- On an eligible text the scanners report the matches of the Python patterns with each
position modulo `2 ^ 32`, which below that length are the matches themselves; the validators
agree, and the Python ones do not raise, the Luhn sum as long as it fits 32 bits. -/
theorem native_detectors_match (words : WordClass) (eligible : isEligible text = true)
    (idx : UInt32) :
    (scanSsn (asBytes text) idx = (finditer ssnRe text).map (span32 idx) ∧
      scanUsZip (asBytes text) idx = (finditer (usZipRe words) text).map (span32 idx) ∧
      scanStreet (asBytes text) idx =
        (finditer (streetAddressRe words) text).map (span32 idx)) ∧
    (text.length < 2 ^ 32 →
      (scanSsn (asBytes text) idx).map positions = finditer ssnRe text ∧
      (scanUsZip (asBytes text) idx).map positions = finditer (usZipRe words) text ∧
      (scanStreet (asBytes text) idx).map positions = finditer (streetAddressRe words) text) ∧
    (9 * text.length < 2 ^ 32 → Detection.luhnValid text = some (luhnValid text)) ∧
    Detection.ibanValid words text = ibanValid text ∧
    Detection.ipv4Valid text = some (ipv4Valid text) ∧
    Detection.icd10Valid words text = some (icd10Valid text) ∧
    Detection.npiValid text = some (npiValid text) := by
  have ssn := scanSsn_eq eligible idx
  have zip := scanUsZip_eq eligible idx words
  have street := scanStreet_eq eligible idx words
  have ascii : Ascii.IsAscii text := ascii_of_eligible eligible
  refine ⟨⟨ssn, zip, street⟩, fun short => ?_, fun short => ?_, ?_, ?_, ?_, ?_⟩
  · rw [ssn, zip, street]
    exact ⟨positions_span32 short idx, positions_span32 short idx, positions_span32 short idx⟩
  · rw [Ascii.luhnValid_eq ascii, luhnValid_eq eligible short]
  · rw [Ascii.ibanValid_eq words ascii, ibanValid_eq eligible]
  · rw [Ascii.ipv4Valid_eq ascii, ipv4Valid_eq eligible]
  · rw [Ascii.icd10Valid_eq words ascii, icd10Valid_eq eligible]
  · rw [Ascii.npiValid_eq ascii, npiValid_eq eligible]

theorem native_detectors_match_sample :
    isEligible "78701-1234, 5 Elm St. Apt 2, 123-45-6789".toList = true ∧
      (scanStreet (asBytes "78701-1234, 5 Elm St. Apt 2, 123-45-6789".toList) 10).map positions =
        finditer (streetAddressRe WordClass.asciiOnly)
          "78701-1234, 5 Elm St. Apt 2, 123-45-6789".toList ∧
      Detection.luhnValid "78701-1234, 5 Elm St. Apt 2, 123-45-6789".toList =
        some (luhnValid "78701-1234, 5 Elm St. Apt 2, 123-45-6789".toList) := by
  have eligible : isEligible "78701-1234, 5 Elm St. Apt 2, 123-45-6789".toList = true := by
    decide +kernel
  have matched := native_detectors_match WordClass.asciiOnly eligible 10
  have short : 9 * "78701-1234, 5 Elm St. Apt 2, 123-45-6789".toList.length < 2 ^ 32 := by
    decide +kernel
  exact ⟨eligible, (matched.2.1 (by omega)).2.2, matched.2.2.1 short⟩

end Positions

section Wrapping

variable {text front : List Char}

theorem holdsAt_append (accepts : Char → Bool) (k : Nat) :
    holdsAt accepts (front ++ text) (front.length + k) = holdsAt accepts text k := by
  rw [holdsAt, holdsAt, List.getElem?_append_right (Nat.le_add_right _ _), Nat.add_sub_cancel_left]

theorem allAt_append (tests : List (Char → Bool)) (k : Nat) :
    allAt tests (front ++ text) (front.length + k) = allAt tests text k := by
  induction tests generalizing k with
  | nil => rfl
  | cons test tests ih => rw [allAt, allAt, holdsAt_append, Nat.add_assoc, ih]

theorem run_ssnRe_append (k : Nat) :
    run (front ++ text) ssnRe (front.length + k) some =
      (run text ssnRe k some).map (front.length + ·) := by
  have past : ∀ q, (if holdsAt (· == '-') (front ++ text) (front.length + q)
      then front.length + q + 1 else front.length + q) =
        front.length + (if holdsAt (· == '-') text q then q + 1 else q) := by
    intro q
    rw [holdsAt_append]
    split <;> rfl
  have serial : ∀ q, ssnSerial (front ++ text) (front.length + q) =
      (ssnSerial text q).map (front.length + ·) := by
    intro q
    rw [ssnSerial, ssnSerial, allAt_append, allAt_append]
    split
    · rfl
    · split <;> simp [Nat.add_assoc]
  have group : ∀ q, ssnGroup (front ++ text) (front.length + q) =
      (ssnGroup text q).map (front.length + ·) := by
    intro q
    rw [ssnGroup, ssnGroup, allAt_append, allAt_append, Nat.add_assoc, past, serial]
    split
    · rfl
    · split <;> rfl
  rw [run_ssnRe, run_ssnRe, allAt_append, allAt_append, allAt_append, holdsAt_append,
    Nat.add_assoc, allAt_append, Nat.add_assoc, past, group]
  split
  · rfl
  · split <;> rfl

theorem run_ssnRe_other {p : Nat} (other : holdsAt isDigit text p = false) :
    run text ssnRe p some = none := by
  rw [run_ssnRe]
  split
  · rfl
  · simp [List.replicate_succ, allAt, other]

/-- A social security number after `blanks` spaces. -/
def padded (blanks : Nat) : List Char := List.replicate blanks ' ' ++ "123-45-6789".toList

theorem padded_eligible (blanks : Nat) : isEligible (padded blanks) = true := by
  rw [isEligible_iff]
  intro ch member
  rcases List.mem_append.mp member with blank | digit
  · rw [List.eq_of_mem_replicate blank]
    decide
  · clear member
    revert ch
    decide +kernel

theorem length_padded (blanks : Nat) : (padded blanks).length = blanks + 11 := by
  rw [padded, List.length_append, List.length_replicate]
  rfl

theorem finditer_padded (blanks : Nat) :
    finditer ssnRe (padded blanks) = [(blanks, blanks + 11)] := by
  have front : (List.replicate blanks ' ').length = blanks := List.length_replicate
  have found : run (padded blanks) ssnRe blanks some = some (blanks + 11) := by
    have moved : run (List.replicate blanks ' ' ++ "123-45-6789".toList) ssnRe
        ((List.replicate blanks ' ').length + 0) some = _ := run_ssnRe_append 0
    have here : run "123-45-6789".toList ssnRe 0 some = some 11 := by decide +kernel
    rw [front, here] at moved
    exact moved
  have missing : ∀ p < blanks, run (padded blanks) ssnRe p some = none := by
    intro p before
    apply run_ssnRe_other
    have blank : (padded blanks)[p]? = some ' ' := by
      rw [padded, List.getElem?_append_left (by rwa [front]), List.getElem?_replicate,
        if_pos before]
    rw [holdsAt, blank]
    rfl
  have fromHere : ∀ (left rounds : Nat), left ≤ blanks →
      finditerFrom ssnRe (padded blanks) (rounds + left + 1) false (blanks - left) =
        [(blanks, blanks + 11)] := by
    intro left rounds within
    induction left with
    | zero =>
        rw [Regex.finditerFrom_consuming ssnRe_consumes, length_padded, if_neg (by omega),
          Nat.sub_zero, found]
        simp only [finditerFrom_end ssnRe_consumes (Nat.le_of_eq (length_padded blanks))]
    | succ left ih =>
        rw [Regex.finditerFrom_consuming ssnRe_consumes, length_padded, if_neg (by omega),
          missing _ (by omega)]
        have next : blanks - (left + 1) + 1 = blanks - left := by omega
        simp only [next]
        exact ih (by omega)
  have start := fromHere blanks (blanks + 23) (Nat.le_refl blanks)
  rw [Nat.sub_self] at start
  rw [finditer, length_padded, show 2 * (blanks + 11) + 2 = blanks + 23 + blanks + 1 by omega]
  exact start

/-- Four gibibytes of spaces before the number, and the kernel reports it at the start. -/
theorem positions_wrap :
    ¬ ∀ text : List Char, isEligible text = true →
      (scanSsn (asBytes text) 8).map positions = finditer ssnRe text := by
  intro agree
  have same := agree (padded (2 ^ 32)) (padded_eligible _)
  rw [scanSsn_eq (padded_eligible _), finditer_padded] at same
  exact absurd same (by decide +kernel)

end Wrapping

end DecoyEngine.Detection.Native
