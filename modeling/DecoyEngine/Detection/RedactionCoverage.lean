import DecoyEngine.Detection.Verdicts

namespace DecoyEngine.Detection

open DecoyEngine.Data DecoyEngine.Data.SpanSweep

/-! What a redacted cell still shows of its text. -/

def Covered (spans : List Span) (position : Nat) : Prop :=
  ∃ span ∈ spans, span.start ≤ position ∧ position < span.stop

/-- A stretch of the output: text that was kept, or what replaces a span. -/
inductive Segment where
  | verbatim (start stop : Nat)
  | replaced (span : Span)
deriving Repr, DecidableEq

def Segment.render (text token : List Char) (labelToken : Bool) : Segment → List Char
  | .verbatim start stop => piece text start stop
  | .replaced span => replacement token labelToken span

def segmentsFrom (length : Nat) : Nat → List Span → List Segment
  | cursor, [] => if cursor < length then [.verbatim cursor length] else []
  | cursor, span :: spans =>
      (if cursor < span.start then [.verbatim cursor span.start] else []) ++
        .replaced span :: segmentsFrom length span.stop spans

section Candidates

variable {words : WordClass} {text : List Char} {detectorId : String} {span : Span}

theorem Detector.spans_proper {detector : Detector} (member : span ∈ detector.spans detectorId text) :
    span.start ≤ span.stop ∧ span.stop ≤ text.length := by
  obtain ⟨⟨start, stop⟩, matched, found⟩ := List.mem_filterMap.mp member
  have bounds := Regex.finditer_bounds matched
  simp only at found
  split at found
  · cases found
    exact bounds
  · cases found

/-- A span of the text: in order and in range. -/
def Span.Within (text : List Char) (span : Span) : Prop :=
  span.start ≤ span.stop ∧ span.stop ≤ text.length

variable {detectorIds : Option (List String)} {extraSpans : List Span}

theorem rawSpans_proper (extras : ∀ span ∈ extraSpans, span.Within text)
    (member : span ∈ rawSpans words text detectorIds [] extraSpans) : span.Within text := by
  rw [rawSpans, List.flatMap_nil, List.append_nil, List.mem_append, List.mem_flatMap] at member
  rcases member with extra | ⟨detectorId, -, inDetector⟩
  · exact extras span extra
  · split at inDetector
    · cases inDetector
    · exact Detector.spans_proper inDetector

theorem iterSpans_covers (extras : ∀ span ∈ extraSpans, span.Within text)
    (member : span ∈ rawSpans words text detectorIds [] extraSpans)
    (some : span.start < span.stop) :
    iterSpans words text detectorIds [] extraSpans =
      select Span.start Span.stop (rawSpans words text detectorIds [] extraSpans) := by
  have bounds := rawSpans_proper extras member
  rw [iterSpans, if_neg]
  · rfl
  · intro empty
    rw [List.isEmpty_iff.mp empty] at bounds
    have inside := bounds.2
    rw [List.length_nil] at inside
    omega

theorem iterSpans_subset :
    iterSpans words text detectorIds [] extraSpans ⊆
      rawSpans words text detectorIds [] extraSpans := by
  rw [iterSpans]
  split
  · exact List.nil_subset _
  · exact select_subset

theorem iterSpans_disjoint (extras : ∀ span ∈ extraSpans, span.Within text) :
    (iterSpans words text detectorIds [] extraSpans).Pairwise (fun s t => s.stop ≤ t.start) := by
  rw [iterSpans]
  split
  · exact .nil
  · exact select_disjoint fun span member => (rawSpans_proper extras member).1

end Candidates

section Segments

variable {text token : List Char} {labelToken : Bool} {spans : List Span} {cursor position : Nat}

theorem spliceFrom_eq :
    spliceFrom text token labelToken cursor spans =
      (segmentsFrom text.length cursor spans).flatMap (Segment.render text token labelToken) := by
  induction spans generalizing cursor with
  | nil =>
      rw [spliceFrom, segmentsFrom]
      split
      · have whole : text.drop cursor = piece text cursor text.length := by
          rw [piece, List.take_of_length_le (Nat.le_of_eq List.length_drop)]
        simp [Segment.render, whole]
      · rfl
  | cons span spans ih =>
      rw [spliceFrom, segmentsFrom, List.flatMap_append, List.flatMap_cons, ih, List.append_assoc]
      congr 1
      split <;> simp [Segment.render]

theorem cursor_le_verbatim {length start stop : Nat}
    (ordered : spans.Pairwise (fun s t => s.stop ≤ t.start))
    (proper : ∀ span ∈ spans, span.start ≤ span.stop) (ahead : ∀ span ∈ spans, cursor ≤ span.start)
    (member : .verbatim start stop ∈ segmentsFrom length cursor spans) : cursor ≤ start := by
  induction spans generalizing cursor with
  | nil =>
      rw [segmentsFrom] at member
      split at member
      · rw [List.mem_singleton, Segment.verbatim.injEq] at member
        omega
      · cases member
  | cons span spans ih =>
      obtain ⟨heads, tails⟩ := List.pairwise_cons.mp ordered
      have first := ahead span (by simp)
      have bounds := proper span (by simp)
      rw [segmentsFrom, List.mem_append] at member
      rcases member with gap | later
      · split at gap
        · rw [List.mem_singleton, Segment.verbatim.injEq] at gap
          omega
        · cases gap
      · rcases List.mem_cons.mp later with same | rest
        · cases same
        · have further := ih tails (fun other inSpans => proper other (by simp [inSpans])) heads rest
          omega

theorem verbatim_iff {length : Nat} (ordered : spans.Pairwise (fun s t => s.stop ≤ t.start))
    (proper : ∀ span ∈ spans, span.start ≤ span.stop ∧ span.stop ≤ length)
    (ahead : ∀ span ∈ spans, cursor ≤ span.start) (after : cursor ≤ position)
    (inside : position < length) :
    (∃ start stop, .verbatim start stop ∈ segmentsFrom length cursor spans ∧
        start ≤ position ∧ position < stop) ↔ ¬ Covered spans position := by
  induction spans generalizing cursor with
  | nil =>
      have reach : cursor < length := by omega
      simp only [segmentsFrom, reach, if_true, List.mem_singleton, Segment.verbatim.injEq]
      refine ⟨fun _ covered => ?_, fun _ => ⟨cursor, length, ⟨rfl, rfl⟩, after, inside⟩⟩
      obtain ⟨_, member, _⟩ := covered
      cases member
  | cons span spans ih =>
      obtain ⟨heads, tails⟩ := List.pairwise_cons.mp ordered
      have start := ahead span (by simp)
      have bounds := proper span (by simp)
      have others : ∀ other ∈ spans, other.start ≤ other.stop ∧ other.stop ≤ length :=
        fun other member => proper other (by simp [member])
      have gap : ∀ {a b : Nat}, .verbatim a b ∈ segmentsFrom length cursor (span :: spans) ↔
          (a = cursor ∧ b = span.start ∧ cursor < span.start) ∨
            .verbatim a b ∈ segmentsFrom length span.stop spans := by
        intro a b
        rw [segmentsFrom, List.mem_append, List.mem_cons]
        split <;> simp [*]
      by_cases before : position < span.start
      · -- The position lies in the gap ahead of every span.
        have bare : ¬ Covered (span :: spans) position := by
          rintro ⟨other, member, starts, -⟩
          rcases List.mem_cons.mp member with same | later
          · rw [same] at starts
            omega
          · have beyond := heads other later
            omega
        exact iff_of_true
          ⟨cursor, span.start, gap.mpr (.inl ⟨rfl, rfl, by omega⟩), after, before⟩ bare
      · by_cases within : position < span.stop
        · refine iff_of_false ?_ (not_not.mpr ⟨span, by simp, by omega, within⟩)
          rintro ⟨a, b, member, starts, ends⟩
          rcases gap.mp member with ⟨_, same, _⟩ | later
          · omega
          · have beyond := cursor_le_verbatim tails (fun other inSpans => (others other inSpans).1)
              heads later
            omega
        · have rest := ih tails others heads (Nat.le_of_not_lt within)
          have passed : Covered (span :: spans) position ↔ Covered spans position := by
            constructor
            · rintro ⟨other, member, starts, ends⟩
              rcases List.mem_cons.mp member with same | later
              · rw [same] at ends
                exact absurd ends within
              · exact ⟨other, later, starts, ends⟩
            · rintro ⟨other, member, covers⟩
              exact ⟨other, by simp [member], covers⟩
          rw [passed, ← rest]
          constructor
          · rintro ⟨a, b, member, starts, ends⟩
            rcases gap.mp member with ⟨_, same, _⟩ | later
            · omega
            · exact ⟨a, b, later, starts, ends⟩
          · rintro ⟨a, b, member, covers⟩
            exact ⟨a, b, gap.mpr (.inr member), covers⟩

theorem replaced_iff {length : Nat} {span : Span} :
    .replaced span ∈ segmentsFrom length cursor spans ↔ span ∈ spans := by
  induction spans generalizing cursor with
  | nil =>
      rw [segmentsFrom]
      split <;> simp
  | cons first spans ih =>
      rw [segmentsFrom, List.mem_append, List.mem_cons, ih, List.mem_cons, Segment.replaced.injEq]
      split <;> simp

theorem redactCell_eq {words : WordClass} {detectors : Option (List String)}
    {extraSpans : List Span} :
    redactCell words text detectors extraSpans token labelToken =
      (segmentsFrom text.length 0
        (iterSpans words text (detectorSelection detectors) [] extraSpans)).flatMap
          (Segment.render text token labelToken) := by
  rw [redactCell]
  split
  · rename_i empty
    rw [List.isEmpty_iff.mp empty, ← spliceFrom_eq, spliceFrom]
    cases text <;> rfl
  · exact spliceFrom_eq

end Segments

/-- What `text_redact` hides and what it shows.  Every match gets a verdict.  The first position of
every candidate is replaced; what is shown of a candidate lies behind a kept span that comes first
and ends inside it, so that a candidate no other one crosses is hidden whole. -/
theorem redaction_covers (words : WordClass) (text : List Char) (detectors : Option (List String))
    (extraSpans : List Span) (token : List Char) (labelToken : Bool)
    (extras : ∀ span ∈ extraSpans, span.Within text) :
    let candidates := rawSpans words text (detectorSelection detectors) [] extraSpans
    let kept := iterSpans words text (detectorSelection detectors) [] extraSpans
    let segments := segmentsFrom text.length 0 kept
    (∀ entry ∈ spanDetectors words, entry.2.Total text) ∧
      redactCell words text detectors extraSpans token labelToken =
        segments.flatMap (Segment.render text token labelToken) ∧
      (∀ span, .replaced span ∈ segments ↔ span ∈ kept) ∧
      (∀ position < text.length,
        (∃ start stop, .verbatim start stop ∈ segments ∧ start ≤ position ∧ position < stop) ↔
          ¬ Covered kept position) ∧
      ∀ candidate ∈ candidates,
        (candidate.start < candidate.stop → Covered kept candidate.start) ∧
        (∀ position, candidate.start ≤ position → position < candidate.stop →
          ¬ Covered kept position →
          ∃ span ∈ kept, span.start ≤ candidate.start ∧ candidate.start < span.stop ∧
            span.stop ≤ position) ∧
        ((∀ other ∈ candidates, NestedOrDisjoint Span.start Span.stop other candidate) →
          ∀ position, candidate.start ≤ position → position < candidate.stop →
            Covered kept position) := by
  intro candidates kept segments
  have proper : ∀ span ∈ kept, span.Within text :=
    fun span member => rawSpans_proper extras (iterSpans_subset member)
  have firstCovered : ∀ candidate ∈ candidates, candidate.start < candidate.stop →
      ∃ span ∈ kept, span.start ≤ candidate.start ∧ candidate.start < span.stop := by
    intro candidate member nonempty
    have selected : kept = _ := iterSpans_covers extras member nonempty
    rw [selected]
    exact select_covers_start member nonempty
  refine ⟨spanDetectors_total words text, redactCell_eq, fun span => replaced_iff, ?_, ?_⟩
  · intro position inside
    exact verbatim_iff (iterSpans_disjoint extras) proper (fun span _ => Nat.zero_le span.start)
      (Nat.zero_le position) inside
  · intro candidate member
    refine ⟨fun nonempty => firstCovered candidate member nonempty, ?_, ?_⟩
    · intro position starts ends shown
      obtain ⟨span, inKept, before, overlaps⟩ := firstCovered candidate member (by omega)
      refine ⟨span, inKept, before, overlaps, Nat.le_of_not_lt fun inside => shown ?_⟩
      exact ⟨span, inKept, by omega, inside⟩
    · intro apart position starts ends
      have nonempty : candidate.start < candidate.stop := by omega
      have selected : kept = _ := iterSpans_covers extras member nonempty
      obtain ⟨span, inKept, before, whole⟩ := select_covers_whole member nonempty apart
      exact ⟨span, selected ▸ inKept, by omega, by omega⟩

section Samples

/-- A national id number that runs into a phone number: `[0, 9)` and `[1, 11)` cross. -/
def crossingText : List Char := "52305678901".toList

def crossingDetectors : Option (List String) := some ["ssn", "us_phone"]

theorem rawSpans_crossing :
    rawSpans .asciiOnly crossingText crossingDetectors [] [] =
      [⟨"ssn", 0, 9, "523056789".toList⟩, ⟨"us_phone", 1, 11, "2305678901".toList⟩] := by
  decide +kernel

theorem iterSpans_crossing :
    iterSpans .asciiOnly crossingText crossingDetectors [] [] =
      [⟨"ssn", 0, 9, "523056789".toList⟩] := by
  have sorted : (rawSpans .asciiOnly crossingText crossingDetectors [] []).Pairwise
      (fun s t => before Span.start Span.stop s t = true) := by
    rw [rawSpans_crossing]
    decide
  rw [iterSpans, if_neg (by decide), resolve, select, List.mergeSort_of_pairwise sorted,
    rawSpans_crossing]
  decide

theorem redaction_covers_sample :
    Covered (iterSpans .asciiOnly crossingText crossingDetectors [] []) 1 := by
  have covers := redaction_covers .asciiOnly crossingText crossingDetectors [] ['x'] false
    (List.forall_mem_nil _)
  refine (covers.2.2.2.2 ⟨"us_phone", 1, 11, "2305678901".toList⟩ ?_).1 (by decide)
  rw [detectorSelection, if_neg (by decide), rawSpans_crossing]
  exact List.mem_cons_of_mem _ List.mem_cons_self

/-- The last two digits of the phone number are shown. -/
theorem crossing_candidate_shown :
    ∃ candidate ∈ rawSpans .asciiOnly crossingText crossingDetectors [] [],
      (candidate.start ≤ 9 ∧ 10 < candidate.stop) ∧
      ¬ Covered (iterSpans .asciiOnly crossingText crossingDetectors [] []) 9 ∧
      ¬ Covered (iterSpans .asciiOnly crossingText crossingDetectors [] []) 10 ∧
      redactCell .asciiOnly crossingText crossingDetectors [] "[X]".toList false =
        "[X]01".toList := by
  refine ⟨⟨"us_phone", 1, 11, "2305678901".toList⟩, ?_, by decide, ?_, ?_, ?_⟩
  · rw [rawSpans_crossing]
    exact List.mem_cons_of_mem _ List.mem_cons_self
  · rw [iterSpans_crossing]
    rintro ⟨span, member, -, ends⟩
    rw [List.mem_singleton.mp member] at ends
    exact absurd ends (by decide)
  · rw [iterSpans_crossing]
    rintro ⟨span, member, -, ends⟩
    rw [List.mem_singleton.mp member] at ends
    exact absurd ends (by decide)
  · have selected : detectorSelection crossingDetectors = crossingDetectors := by decide
    rw [redactCell, selected, iterSpans_crossing]
    decide

end Samples

end DecoyEngine.Detection
