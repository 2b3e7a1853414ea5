import DecoyEngine.Detection.RedactionCoverage
import DecoyEngine.Detection.TextMask

namespace DecoyEngine.Detection.Native

open DecoyEngine.Data DecoyEngine.Data.SpanSweep

/-! The compiled routes of `text_mask` against `iter_spans` and `splice_spans`. -/

/-- The span a candidate of the kernel stands for. -/
def asSpan (text : List Char) (triple : UInt32 × UInt32 × UInt32) : Span :=
  ⟨supportedIds.getD triple.1.toNat "", triple.2.1.toNat, triple.2.2.toNat,
    piece text triple.2.1.toNat triple.2.2.toNat⟩

/-- On `text` every detector gives the candidates of its Python pattern, under its own index. -/
def CandidatesAgree (words : WordClass) (findIter : Nat → List Char → List (Nat × Nat))
    (text : List Char) : Prop :=
  ∀ detectorId detector, (spanDetectors words).lookup detectorId = some detector →
    (candidatesOf findIter text (indexOf detectorId)).map (asSpan text) =
      detector.spans detectorId text

section Catalog

variable {words : WordClass} {detectorId : String} {detectorIds : Option (List String)}

theorem supported_iff (words : WordClass) :
    ((spanDetectors words).lookup detectorId).isSome = true ↔ detectorId ∈ supportedIds := by
  have catalog : (spanDetectors words).map (·.1) ⊆ supportedIds ∧
      supportedIds ⊆ (spanDetectors words).map (·.1) := by
    have ids : (spanDetectors words).map (·.1) = (spanDetectors .asciiOnly).map (·.1) := rfl
    rw [ids]
    decide
  rw [List.lookup_isSome_iff]
  constructor
  · rintro ⟨entry, member, same⟩
    exact catalog.1 (List.mem_map.mpr ⟨entry, member, (eq_of_beq same).symm⟩)
  · intro member
    obtain ⟨entry, inEntries, same⟩ := List.mem_map.mp (catalog.2 member)
    exact ⟨entry, inEntries, beq_iff_eq.mpr same.symm⟩

theorem indexOf_get (member : detectorId ∈ supportedIds) :
    supportedIds.getD (indexOf detectorId) "" = detectorId := by
  rw [indexOf, List.getD_eq_getElem?_getD, List.getElem?_idxOf member, Option.getD_some]

theorem index_of_get {idx : Nat} (named : supportedIds.getD idx "" = detectorId)
    (member : detectorId ∈ supportedIds) : idx = indexOf detectorId := by
  have inside : idx < supportedIds.length := by
    by_contra beyond
    rw [List.getD_eq_getElem?_getD, List.getElem?_eq_none (by omega), Option.getD_none] at named
    rw [← named] at member
    exact absurd member (by decide)
  rw [List.getD_eq_getElem?_getD, List.getElem?_eq_getElem inside, Option.getD_some] at named
  have distinct : supportedIds.Nodup := by decide
  rw [indexOf, ← named, distinct.idxOf_getElem]

theorem indexOf_inj {other : String} (member : detectorId ∈ supportedIds)
    (member' : other ∈ supportedIds) (same : indexOf detectorId = indexOf other) :
    detectorId = other := by
  rw [← indexOf_get member, same, indexOf_get member']

theorem mem_relevantIds (member : detectorId ∈ relevantIds words detectorIds) :
    detectorId ∈ supportedIds :=
  (supported_iff words).mp (List.mem_filter.mp member).2

end Catalog

section Candidates

variable {words : WordClass} {text : List Char} {detectorIds : Option (List String)}

/-- The spans of one requested id. -/
def spansOf (words : WordClass) (text : List Char) (detectorId : String) : List Span :=
  (((spanDetectors words).lookup detectorId).map (·.spans detectorId text)).getD []

theorem rawSpans_requested :
    rawSpans words text detectorIds [] [] =
      (requested words detectorIds).flatMap (spansOf words text) := by
  rw [rawSpans, List.flatMap_nil, List.append_nil, List.nil_append]
  refine List.flatMap_congr fun detectorId _ => ?_
  rw [spansOf]
  cases (spanDetectors words).lookup detectorId <;> rfl

theorem rawSpans_eq :
    rawSpans words text detectorIds [] [] =
      (relevantIds words detectorIds).flatMap (spansOf words text) := by
  rw [rawSpans_requested, relevantIds]
  induction requested words detectorIds with
  | nil => rfl
  | cons detectorId ids ih =>
      rw [List.flatMap_cons, ih, List.filter_cons]
      split
      · rw [List.flatMap_cons]
      · next unknown =>
          rw [spansOf, Option.not_isSome_iff_eq_none.mp unknown]
          rfl

theorem spansOf_empty (detectorId : String) : spansOf words [] detectorId = [] := by
  have none : ∀ entry ∈ spanDetectors words, entry.2.spans detectorId [] = [] := by
    intro entry member
    simp only [spanDetectors, List.mem_cons, List.not_mem_nil, or_false] at member
    rcases member with rfl | rfl | rfl | rfl | rfl | rfl | rfl | rfl | rfl | rfl | rfl <;> rfl
  rw [spansOf]
  cases found : (spanDetectors words).lookup detectorId with
  | none => rfl
  | some detector =>
      obtain ⟨earlier, later, split, -⟩ := List.lookup_eq_some_iff.mp found
      have member : (detectorId, detector) ∈ spanDetectors words := by simp [split]
      have nothing := none _ member
      rw [Option.map_some, Option.getD_some]
      exact nothing

theorem rawSpans_empty : rawSpans words [] detectorIds [] [] = [] := by
  rw [rawSpans_eq, List.flatMap_eq_nil_iff]
  exact fun detectorId _ => spansOf_empty detectorId

theorem iterSpans_eq :
    iterSpans words text detectorIds [] [] = resolve (rawSpans words text detectorIds [] []) := by
  rw [iterSpans]
  split
  · next empty =>
      rw [List.isEmpty_iff.mp empty, rawSpans_empty, resolve, select, List.mergeSort_nil, sweep]
  · rfl

theorem spansOf_id {detectorId : String} {span : Span}
    (member : span ∈ spansOf words text detectorId) :
    span.detectorId = detectorId ∧ span.matchedText = piece text span.start span.stop := by
  rw [spansOf] at member
  cases found : (spanDetectors words).lookup detectorId with
  | none => simp [found] at member
  | some detector =>
      rw [found, Option.map_some, Option.getD_some, Detector.spans, List.mem_filterMap] at member
      obtain ⟨bounds, -, kept⟩ := member
      simp only at kept
      split at kept
      · cases kept
        exact ⟨rfl, rfl⟩
      · cases kept

theorem rawSpans_id {span : Span} (member : span ∈ rawSpans words text detectorIds [] []) :
    span.detectorId ∈ relevantIds words detectorIds ∧
      span.matchedText = piece text span.start span.stop := by
  rw [rawSpans_eq, List.mem_flatMap] at member
  obtain ⟨detectorId, relevant, inSpans⟩ := member
  have named := spansOf_id inSpans
  exact ⟨named.1 ▸ relevant, named.2⟩

end Candidates

section Merge

variable {words : WordClass} {findIter : Nat → List Char → List (Nat × Nat)} {text : List Char}
  {detectorIds : Option (List String)} {detectorId : String} {ids : List String}

theorem candidatesOf_asSpan (agree : CandidatesAgree words findIter text)
    (supported : detectorId ∈ supportedIds) :
    (candidatesOf findIter text (indexOf detectorId)).map (asSpan text) =
      spansOf words text detectorId := by
  obtain ⟨detector, found⟩ := Option.isSome_iff_exists.mp ((supported_iff words).mpr supported)
  rw [spansOf, found, agree detectorId detector found]
  rfl

theorem candidatesOf_index (agree : CandidatesAgree words findIter text)
    (supported : detectorId ∈ supportedIds) {triple : UInt32 × UInt32 × UInt32}
    (member : triple ∈ candidatesOf findIter text (indexOf detectorId)) :
    triple.1.toNat = indexOf detectorId := by
  have inSpans : asSpan text triple ∈ spansOf words text detectorId :=
    candidatesOf_asSpan agree supported ▸ List.mem_map_of_mem member
  exact index_of_get (spansOf_id inSpans).1 supported

theorem candidatesForCell_asSpan (agree : CandidatesAgree words findIter text)
    (supported : ∀ detectorId ∈ ids, detectorId ∈ supportedIds) :
    (candidatesForCell findIter text (ids.map indexOf)).map (asSpan text) =
      ids.flatMap (spansOf words text) := by
  rw [candidatesForCell, List.flatMap_map, List.map_flatMap]
  exact List.flatMap_congr fun detectorId member =>
    candidatesOf_asSpan agree (supported detectorId member)

theorem candidates_by_index (agree : CandidatesAgree words findIter text)
    (supported : ∀ detectorId ∈ ids, detectorId ∈ supportedIds) (distinct : ids.Nodup)
    (member : detectorId ∈ supportedIds) :
    (candidatesForCell findIter text (ids.map indexOf)).filter
        (fun triple => triple.1.toNat == indexOf detectorId) =
      if detectorId ∈ ids then candidatesOf findIter text (indexOf detectorId) else [] := by
  induction ids with
  | nil => rfl
  | cons first ids ih =>
      obtain ⟨fresh, distinct⟩ := List.nodup_cons.mp distinct
      have inFirst := supported first (by simp)
      have rest := ih (fun other inIds => supported other (by simp [inIds])) distinct
      rw [candidatesForCell] at rest
      rw [candidatesForCell, List.map_cons, List.flatMap_cons, List.filter_append, rest]
      by_cases same : detectorId = first
      · subst same
        rw [if_neg fresh, if_pos (by simp), List.append_nil, List.filter_eq_self]
        exact fun triple inOwn => beq_iff_eq.mpr (candidatesOf_index agree member inOwn)
      · have others : (candidatesOf findIter text (indexOf first)).filter
            (fun triple => triple.1.toNat == indexOf detectorId) = [] := by
          rw [List.filter_eq_nil_iff]
          intro triple inFirstOnes equal
          have index := candidatesOf_index agree inFirst inFirstOnes
          exact same (indexOf_inj member inFirst ((eq_of_beq equal).symm.trans index))
        rw [others, List.nil_append]
        simp [same]

theorem requestedRustIds_spec (words : WordClass) (detectorIds : Option (List String)) :
    (requestedRustIds detectorIds).Nodup ∧
      ∀ detectorId, detectorId ∈ requestedRustIds detectorIds ↔
        detectorId ∈ supportedIds ∧ detectorId ∈ requested words detectorIds := by
  cases detectorIds with
  | none =>
      refine ⟨by decide, fun detectorId => ⟨fun member => ⟨member, ?_⟩, And.left⟩⟩
      have known := List.lookup_isSome_iff.mp ((supported_iff words).mpr member)
      obtain ⟨entry, inEntries, same⟩ := known
      exact List.mem_map.mpr ⟨entry, inEntries, (eq_of_beq same).symm⟩
  | some ids =>
      rw [requestedRustIds, requested, Option.getD_some]
      have grows : ∀ seen : List String, seen.Nodup →
          let result := ids.foldl (fun seen detectorId =>
            if supportedIds.contains detectorId && !seen.contains detectorId then
              seen ++ [detectorId] else seen) seen
          result.Nodup ∧ ∀ detectorId, detectorId ∈ result ↔
            detectorId ∈ seen ∨ detectorId ∈ supportedIds ∧ detectorId ∈ ids := by
        induction ids with
        | nil => simp
        | cons first ids ih =>
            intro seen distinct
            rw [List.foldl_cons]
            split
            · next new =>
                simp only [Bool.and_eq_true, List.contains_iff_mem, Bool.not_eq_true',
                  ← Bool.not_eq_true] at new
                have extended := ih (seen ++ [first])
                  (List.nodup_append.mpr ⟨distinct, by simp, by
                    intro other inSeen _ inFirst equal
                    rw [List.mem_singleton.mp inFirst] at equal
                    exact new.2 (equal ▸ inSeen)⟩)
                refine ⟨extended.1, fun detectorId => ?_⟩
                rw [extended.2]
                simp only [List.mem_append, List.mem_cons, List.not_mem_nil, or_false]
                constructor
                · rintro ((inSeen | same) | inRest)
                  · exact .inl inSeen
                  · exact .inr ⟨same ▸ new.1, .inl same⟩
                  · exact .inr ⟨inRest.1, .inr inRest.2⟩
                · rintro (inSeen | ⟨supported, same | inRest⟩)
                  · exact .inl (.inl inSeen)
                  · exact .inl (.inr same)
                  · exact .inr ⟨supported, inRest⟩
            · next old =>
                simp only [Bool.and_eq_true, List.contains_iff_mem, Bool.not_eq_true',
                  ← Bool.not_eq_true, not_and, not_not] at old
                have kept := ih seen distinct
                refine ⟨kept.1, fun detectorId => ?_⟩
                rw [kept.2, List.mem_cons]
                constructor
                · rintro (inSeen | inRest)
                  · exact .inl inSeen
                  · exact .inr ⟨inRest.1, .inr inRest.2⟩
                · rintro (inSeen | ⟨supported, same | inRest⟩)
                  · exact .inl inSeen
                  · exact .inl (same ▸ old (same ▸ supported))
                  · exact .inr ⟨supported, inRest⟩
      simpa using grows [] .nil

theorem mergedSpans_none : mergedSpans words text none detectorId = spansOf words text detectorId := by
  rw [mergedSpans, spansOf]
  cases (spanDetectors words).lookup detectorId <;> rfl

theorem mergedSpans_some (agree : CandidatesAgree words findIter text)
    (asked : detectorId ∈ requested words detectorIds) :
    mergedSpans words text
        (some (candidatesForCell findIter text ((requestedRustIds detectorIds).map indexOf)))
        detectorId =
      spansOf words text detectorId := by
  obtain ⟨distinct, members⟩ := requestedRustIds_spec words detectorIds
  by_cases supported : detectorId ∈ supportedIds
  · have own := candidates_by_index agree (fun other member => ((members other).mp member).1)
      distinct supported
    rw [if_pos ((members detectorId).mpr ⟨supported, asked⟩)] at own
    simp only [mergedSpans, List.contains_iff_mem.mpr supported, if_true, own]
    rw [← candidatesOf_asSpan agree supported]
    refine List.map_congr_left fun triple member => ?_
    rw [asSpan, candidatesOf_index agree supported member, indexOf_get supported]
  · have unsupported : supportedIds.contains detectorId = false := by simpa using supported
    rw [← mergedSpans_none]
    simp only [mergedSpans, unsupported, Bool.false_eq_true, if_false]

theorem merge_eq (agree : isEligible text = true → CandidatesAgree words findIter text) :
    mergeTextRedactSpans words text detectorIds
        (textRedactCandidates findIter (requestedRustIds detectorIds) (some text)) =
      iterSpans words text detectorIds [] [] := by
  rw [mergeTextRedactSpans, iterSpans, rawSpans_requested, textRedactCandidates, Option.bind_some]
  congr 2
  refine List.flatMap_congr fun detectorId asked => ?_
  split
  · next eligible => exact mergedSpans_some (agree eligible) asked
  · exact mergedSpans_none

end Merge

section Selection

variable {words : WordClass} {text : List Char}

theorem candidateBefore_eq {a b : UInt32 × UInt32 × UInt32}
    (proper : (asSpan text a).start ≤ (asSpan text a).stop)
    (proper' : (asSpan text b).start ≤ (asSpan text b).stop) :
    candidateBefore a b = before Span.start Span.stop (asSpan text a) (asSpan text b) := by
  simp only [asSpan] at proper proper'
  have lengths : (b.2.2 - b.2.1 ≤ a.2.2 - a.2.1) ↔
      (b.2.2.toNat : Int) - b.2.1.toNat ≤ (a.2.2.toNat : Int) - a.2.1.toNat := by
    rw [UInt32.le_iff_toNat_le, UInt32.toNat_sub_of_le _ _ (UInt32.le_iff_toNat_le.mpr proper'),
      UInt32.toNat_sub_of_le _ _ (UInt32.le_iff_toNat_le.mpr proper)]
    omega
  have starts : (a.2.1 == b.2.1) = (a.2.1.toNat == b.2.1.toNat) := by
    rw [Bool.eq_iff_iff, beq_iff_eq, beq_iff_eq, UInt32.toNat_inj]
  rw [candidateBefore, before, asSpan, asSpan, starts, decide_eq_decide.mpr lengths,
    decide_eq_decide.mpr UInt32.lt_iff_toNat_lt]

theorem sweepCandidates_eq {candidates : List (UInt32 × UInt32 × UInt32)} {lastEnd : Int} :
    (sweepCandidates lastEnd candidates).map (asSpan text) =
      sweep Span.start Span.stop lastEnd (candidates.map (asSpan text)) := by
  induction candidates generalizing lastEnd with
  | nil => rfl
  | cons candidate rest ih =>
      have begins : (asSpan text candidate).start = candidate.2.1.toNat := rfl
      rw [sweepCandidates, List.map_cons, sweep, begins]
      split
      · rw [List.map_cons, ih]
        rfl
      · exact ih

theorem detected_spans {candidates : List (UInt32 × UInt32 × UInt32)} {raw : List Span}
    (same : candidates.map (asSpan text) = raw) (proper : ∀ span ∈ raw, span.start ≤ span.stop) :
    (sweepCandidates (-1) (candidates.mergeSort candidateBefore)).map (asSpan text) =
      resolve raw := by
  have ordered : ∀ a ∈ candidates, ∀ b ∈ candidates, candidateBefore a b =
      before Span.start Span.stop (asSpan text a) (asSpan text b) := by
    intro a inCandidates b inCandidates'
    exact candidateBefore_eq (proper _ (same ▸ List.mem_map_of_mem inCandidates))
      (proper _ (same ▸ List.mem_map_of_mem inCandidates'))
  rw [sweepCandidates_eq, List.map_mergeSort ordered, same]
  rfl

end Selection

section Strategies

variable {words : WordClass} {passes : String → Bool} {ids : List String} {detectorId : String}

theorem verbatimByIndex_get (supported : ∀ detectorId ∈ ids, detectorId ∈ supportedIds)
    (member : detectorId ∈ ids) :
    (verbatimByIndex ((ids.map indexOf).zip (ids.map passes))).getD (indexOf detectorId) false =
      passes detectorId := by
  have fold : ∀ table : List Bool, table.length = catalogLen →
      let result := ids.foldl (fun table id => table.set (indexOf id) (passes id)) table
      result.length = catalogLen ∧ ∀ other ∈ supportedIds,
        result.getD (indexOf other) false =
          if other ∈ ids then passes other else table.getD (indexOf other) false := by
    clear member
    induction ids with
    | nil => exact fun table sized => ⟨sized, fun other _ => by simp⟩
    | cons first ids ih =>
        intro table sized
        have inFirst := supported first (by simp)
        have inside : indexOf first < table.length := by
          rw [sized]
          exact List.idxOf_lt_length_of_mem inFirst
        have rest := ih (fun other inIds => supported other (by simp [inIds]))
          (table.set (indexOf first) (passes first)) (by rw [List.length_set, sized])
        refine ⟨rest.1, fun other known => ?_⟩
        rw [List.foldl_cons, rest.2 other known]
        by_cases later : other ∈ ids
        · simp [later]
        · rw [if_neg later, List.getD_eq_getElem?_getD, List.getElem?_set]
          by_cases same : other = first
          · subst same
            simp [inside]
          · have apart : indexOf first ≠ indexOf other :=
              fun equal => same (indexOf_inj known inFirst equal.symm)
            simp [apart, same, later, List.getD_eq_getElem?_getD]
  have entries : (ids.map indexOf).zip (ids.map passes) =
      ids.map (fun id => (indexOf id, passes id)) := by
    exact List.zip_map' ..
  have table := fold (List.replicate catalogLen false) List.length_replicate
  rw [verbatimByIndex, entries, List.foldl_map, table.2 detectorId (supported detectorId member),
    if_pos member]

end Strategies

section Splice

variable {ε : Type} {text token : List Char} {policy : String} {spans : List Span} {cursor : Nat}
  {passes : String → Bool} {masking : Span → Except ε (List Char)}

/-- A kept span with its strategy. -/
def spliceSpanOf (passes : String → Bool) (span : Span) : SpliceSpan :=
  ⟨span.start, span.stop, passes span.detectorId⟩

theorem gapPiece_eq (policies : policy ∈ nativePolicies) (gap : List Char) :
    gapPiece gap token (policy == "passthrough") = applyUnmatched gap policy token := by
  rw [gapPiece, applyUnmatched]
  cases gap with
  | nil => rfl
  | cons ch gap =>
      simp only [nativePolicies, List.mem_cons, List.not_mem_nil, or_false] at policies
      rcases policies with rfl | rfl <;> rfl

theorem spliceCellFrom_eq (policies : policy ∈ nativePolicies)
    (ordered : spans.Pairwise (fun s t => s.stop ≤ t.start))
    (proper : ∀ span ∈ spans, span.Within text) (ahead : ∀ span ∈ spans, cursor ≤ span.start)
    (masks : ∀ span ∈ spans, masking span =
      .ok (if passes span.detectorId then piece text span.start span.stop else token)) :
    ∃ masked, spliceSpansFrom text masking policy token cursor spans = .ok masked ∧
      spliceCellFrom text token (policy == "passthrough") cursor (spans.map (spliceSpanOf passes)) =
        some masked := by
  induction spans generalizing cursor with
  | nil =>
      refine ⟨_, rfl, ?_⟩
      rw [List.map_nil, spliceCellFrom, gapPiece_eq policies]
      split
      · rfl
      · next beyond =>
          rw [List.drop_of_length_le (Nat.le_of_not_lt beyond)]
          rfl
  | cons span spans ih =>
      obtain ⟨heads, tails⟩ := List.pairwise_cons.mp ordered
      obtain ⟨forward, inside⟩ := proper span (by simp)
      have first := ahead span (by simp)
      obtain ⟨rest, python, rust⟩ := ih tails (fun other member => proper other (by simp [member]))
        heads (fun other member => masks other (by simp [member]))
      have gap : (if cursor < span.start then
          applyUnmatched (piece text cursor span.start) policy token else []) =
          gapPiece (piece text cursor span.start) token (policy == "passthrough") := by
        rw [gapPiece_eq policies]
        split
        · rfl
        · next beyond =>
            have none : span.start - cursor = 0 := by omega
            rw [piece, none, List.take_zero]
            rfl
      rw [spliceSpansFrom, masks span (by simp), python, List.map_cons, spliceCellFrom, gap]
      refine ⟨_, rfl, ?_⟩
      have usable : ((spliceSpanOf passes span).start < cursor ||
          (spliceSpanOf passes span).stop < (spliceSpanOf passes span).start ||
          text.length < (spliceSpanOf passes span).stop) = false := by
        simp only [spliceSpanOf, Bool.or_eq_false_iff]
        exact ⟨⟨decide_eq_false (by omega), decide_eq_false (by omega)⟩,
          decide_eq_false (by omega)⟩
      rw [usable]
      simp only [Bool.false_eq_true, if_false, spliceSpanOf] at rust ⊢
      rw [rust]
      rfl

theorem spliceCell_eq (policies : policy ∈ nativePolicies) (nonempty : text.isEmpty = false)
    (ordered : spans.Pairwise (fun s t => s.stop ≤ t.start))
    (proper : ∀ span ∈ spans, span.Within text)
    (masks : ∀ span ∈ spans, masking span =
      .ok (if passes span.detectorId then piece text span.start span.stop else token)) :
    ∃ masked, spliceSpans text spans masking policy token = .ok masked ∧
      spliceCell text (spans.map (spliceSpanOf passes)) token (policy == "passthrough") =
        if isAscii text then some masked else none := by
  obtain ⟨masked, python, rust⟩ := spliceCellFrom_eq policies ordered proper
    (fun span _ => Nat.zero_le span.start) masks
  refine ⟨masked, ?_, ?_⟩
  · rw [spliceSpans, ← python]
    cases spans with
    | nil =>
        have some : 0 < text.length := by
          cases text with
          | nil => cases nonempty
          | cons ch text => simp
        rw [List.isEmpty_nil, if_pos rfl, spliceSpansFrom, if_pos some, List.drop_zero]
    | cons span spans => rfl
  · rw [spliceCell, nonempty, rust]
    cases isAscii text <;> rfl

end Splice

section Routes

variable {ε : Type} (keyed : String → Span → Except ε (List Char)) (words : WordClass)
  (findIter : Nat → List Char → List (Nat × Nat)) (detectorIds : Option (List String))
  (strategyMap : List (String × String)) (policy : String) (token : List Char)

def passesThrough (strategyMap : List (String × String)) (detectorId : String) : Bool :=
  strategyOf strategyMap detectorId == "passthrough"

/-- The plan of a configuration the native splice takes over. -/
def nativePlan : SplicePlan where
  token
  passthroughUnmatched := policy == "passthrough"
  verbatim := (relevantIds words detectorIds).map fun detectorId =>
    (detectorId, passesThrough strategyMap detectorId)
  rustIds := some (relevantIds words detectorIds)
  rustVerbatim := (relevantIds words detectorIds).map (passesThrough strategyMap)

theorem planNativeSplice_eq :
    planNativeSplice words detectorIds strategyMap policy token =
      if policy ∈ nativePolicies ∧ ∀ detectorId ∈ relevantIds words detectorIds,
          strategyOf strategyMap detectorId ∈ nativeStrategies then
        some (nativePlan words detectorIds strategyMap policy token)
      else none := by
  have allRust : (relevantIds words detectorIds).all (supportedIds.contains ·) = true :=
    List.all_eq_true.mpr fun detectorId member => List.contains_iff_mem.mpr (mem_relevantIds member)
  have gate : (relevantIds words detectorIds).any
      (fun detectorId => strategyOf strategyMap detectorId ∉ nativeStrategies) = true ↔
        ¬ ∀ detectorId ∈ relevantIds words detectorIds,
          strategyOf strategyMap detectorId ∈ nativeStrategies := by
    simp
  rw [planNativeSplice]
  simp only [allRust, if_true, gate]
  by_cases policies : policy ∈ nativePolicies
  · by_cases strategies : ∀ detectorId ∈ relevantIds words detectorIds,
        strategyOf strategyMap detectorId ∈ nativeStrategies
    · rw [if_neg (not_not.mpr policies), if_neg (not_not.mpr strategies),
        if_pos ⟨policies, strategies⟩]
      rfl
    · rw [if_neg (not_not.mpr policies), if_pos strategies, if_neg (fun both => strategies both.2)]
  · rw [if_pos policies, if_neg (fun both => policies both.1)]

/-- The table of the strategies, by catalog index. -/
def verbatimTable : List Bool :=
  verbatimByIndex (((relevantIds words detectorIds).map indexOf).zip
    ((relevantIds words detectorIds).map (passesThrough strategyMap)))

variable {keyed words findIter detectorIds strategyMap policy token} {text : List Char}

theorem isAscii_of_isEligible (eligible : isEligible text = true) : isAscii text = true := by
  rw [isEligible, Bool.and_eq_true] at eligible
  exact eligible.1

theorem iterSpans_within {span : Span}
    (member : span ∈ iterSpans words text detectorIds [] []) : span.Within text :=
  rawSpans_proper (List.forall_mem_nil _) (iterSpans_subset member)

theorem detected_eq (agree : CandidatesAgree words findIter text) :
    (sweepCandidates (-1) ((candidatesForCell findIter text
        ((relevantIds words detectorIds).map indexOf)).mergeSort candidateBefore)).map
      (fun candidate => ⟨candidate.2.1.toNat, candidate.2.2.toNat,
        (verbatimTable words detectorIds strategyMap).getD candidate.1.toNat false⟩) =
      (iterSpans words text detectorIds [] []).map (spliceSpanOf (passesThrough strategyMap)) := by
  have supported : ∀ detectorId ∈ relevantIds words detectorIds, detectorId ∈ supportedIds :=
    fun detectorId member => mem_relevantIds member
  have raw := candidatesForCell_asSpan agree supported
  rw [← rawSpans_eq] at raw
  have kept := detected_spans raw
    (fun span member => (rawSpans_proper (List.forall_mem_nil _) member).1)
  rw [iterSpans_eq, ← kept, List.map_map]
  refine List.map_congr_left fun candidate member => ?_
  have inKept : asSpan text candidate ∈ iterSpans words text detectorIds [] [] := by
    rw [iterSpans_eq, ← kept]
    exact List.mem_map_of_mem member
  have relevant := (rawSpans_id (iterSpans_subset inKept)).1
  have index : candidate.1.toNat = indexOf (asSpan text candidate).detectorId :=
    index_of_get rfl (supported _ relevant)
  rw [Function.comp_apply, spliceSpanOf, index, verbatimTable, verbatimByIndex_get supported relevant]
  rfl

theorem masks_eq (keyed : String → Span → Except ε (List Char)) (token : List Char)
    (strategies : ∀ detectorId ∈ relevantIds words detectorIds,
      strategyOf strategyMap detectorId ∈ nativeStrategies) {span : Span}
    (member : span ∈ iterSpans words text detectorIds [] []) :
    maskSpan keyed (strategyOf strategyMap span.detectorId) token span =
      .ok (if passesThrough strategyMap span.detectorId then piece text span.start span.stop
        else token) := by
  obtain ⟨relevant, matched⟩ := rawSpans_id (iterSpans_subset member)
  have strategy := strategies _ relevant
  simp only [nativeStrategies, List.mem_cons, List.not_mem_nil, or_false] at strategy
  rw [passesThrough]
  rcases strategy with redact | passthrough
  · rw [redact]
    rfl
  · rw [passthrough, ← matched]
    rfl

theorem cell_agrees (keyed : String → Span → Except ε (List Char)) (token : List Char)
    (agree : isEligible text = true → CandidatesAgree words findIter text)
    (policies : policy ∈ nativePolicies)
    (strategies : ∀ detectorId ∈ relevantIds words detectorIds,
      strategyOf strategyMap detectorId ∈ nativeStrategies) :
    ∃ masked, maskCell keyed words text detectorIds strategyMap policy token = .ok masked ∧
      detectSpliceCell findIter text ((relevantIds words detectorIds).map indexOf)
          (verbatimTable words detectorIds strategyMap) token (policy == "passthrough") =
        (if isEligible text then some masked else none) ∧
      spliceCell text ((iterSpans words text detectorIds [] []).map
          (spliceSpanOf (passesThrough strategyMap))) token (policy == "passthrough") =
        if isAscii text then some masked else none := by
  cases empty : text.isEmpty with
  | true =>
      rw [List.isEmpty_iff.mp empty]
      exact ⟨[], rfl, rfl, rfl⟩
  | false =>
      obtain ⟨masked, python, rust⟩ := spliceCell_eq policies empty
        (iterSpans_disjoint (List.forall_mem_nil _)) (fun span member => iterSpans_within member)
        (fun span member => masks_eq keyed token strategies member)
      refine ⟨masked, ?_, ?_, rust⟩
      · rw [maskCell, maskCellWithSpans, empty]
        exact python
      · rw [detectSpliceCell]
        cases eligible : isEligible text with
        | false => rfl
        | true =>
            simp only [Bool.not_true, Bool.false_eq_true, if_false, if_true]
            rw [detected_eq (agree eligible), rust, isAscii_of_isEligible eligible]
            rfl

end Routes

end DecoyEngine.Detection.Native
