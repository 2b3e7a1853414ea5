import DecoyEngine.Detection.TextMaskAgreement

namespace DecoyEngine.Detection.Native

open DecoyEngine.Data DecoyEngine.Data.SpanSweep

/-! A batch of cells through the compiled splice (`splice_batch`). -/

section Batch

variable {ε : Type} {keyed : String → Span → Except ε (List Char)} {words : WordClass}
  {findIter : Nat → List Char → List (Nat × Nat)} {detectorIds : Option (List String)}
  {strategyMap : List (String × String)} {policy : String} {token : List Char}

theorem mapM_zip_map {m : Type → Type} [Monad m] [LawfulMonad m] {α β γ δ : Type} (f : α → β) (g : α → γ)
    (h : α × β × γ → m δ) (values : List α) :
    (values.zip ((values.map f).zip (values.map g))).mapM h =
      values.mapM (fun value => h (value, f value, g value)) := by
  induction values with
  | nil => rfl
  | cons value values ih =>
      simp only [List.map_cons, List.zip_cons_cons, List.mapM_cons, ih]

theorem mapM_congr {m : Type → Type} [Monad m] [LawfulMonad m] {α β : Type} {f g : α → m β} {values : List α}
    (same : ∀ value ∈ values, f value = g value) : values.mapM f = values.mapM g := by
  induction values with
  | nil => rfl
  | cons value values ih =>
      rw [List.mapM_cons, List.mapM_cons, same value (by simp),
        ih (fun other member => same other (by simp [member]))]

theorem textMaskDetectSplice_eq (findIter : Nat → List Char → List (Nat × Nat)) (words : WordClass)
    (detectorIds : Option (List String)) (strategyMap : List (String × String)) (policy : String)
    (token : List Char) (values : List (Option (List Char))) :
    textMaskDetectSplice findIter values (relevantIds words detectorIds)
        ((relevantIds words detectorIds).map (passesThrough strategyMap)) token
        (policy == "passthrough") =
      .ok (values.map fun value => value.bind fun text =>
        detectSpliceCell findIter text ((relevantIds words detectorIds).map indexOf)
          (verbatimTable words detectorIds strategyMap) token (policy == "passthrough")) := by
  have known : (relevantIds words detectorIds).find?
      (fun detectorId => !supportedIds.contains detectorId) = none := by
    rw [List.find?_eq_none]
    intro detectorId member
    simpa using mem_relevantIds member
  rw [textMaskDetectSplice, if_neg (by rw [List.length_map]; exact not_not.mpr rfl), known]
  rfl

theorem maskCell_eq (text : List Char) :
    maskCell keyed words text detectorIds strategyMap policy token =
      maskCellWithSpans keyed text (iterSpans words text detectorIds [] []) strategyMap policy
        token := by
  rw [maskCell, maskCellWithSpans]
  split <;> rfl

theorem spliceBatch_eq {batch : List (Option (List Char))}
    (agree : ∀ text, some text ∈ batch → isEligible text = true →
      CandidatesAgree words findIter text)
    (policies : policy ∈ nativePolicies)
    (strategies : ∀ detectorId ∈ relevantIds words detectorIds,
      strategyOf strategyMap detectorId ∈ nativeStrategies) :
    spliceBatch keyed words findIter batch (nativePlan words detectorIds strategyMap policy token)
        detectorIds strategyMap policy token =
      .ok (batch.mapM fun value => value.mapM fun text =>
        maskCell keyed words text detectorIds strategyMap policy token) := by
  have detected := textMaskDetectSplice_eq findIter words detectorIds strategyMap policy token batch
  rw [spliceBatch]
  simp only [nativePlan, detected]
  refine congrArg Except.ok ?_
  simp only [Option.isSome_some, if_true, mapM_zip_map]
  refine mapM_congr fun value member => ?_
  cases value with
  | none => rfl
  | some text =>
      obtain ⟨masked, python, rust, -⟩ := cell_agrees keyed token
        (agree text member) policies strategies
      simp only [Option.bind_some, rust]
      cases isEligible text with
      | true =>
          simp only [if_true, Option.mapM_some, python]
          rfl
      | false =>
          simp only [Bool.false_eq_true, if_false, Option.getD_none, ← maskCell_eq]
          rfl

theorem lookup_map {β : Type} (f : String → β) {ids : List String} {detectorId : String}
    (member : detectorId ∈ ids) :
    (ids.map (fun id => (id, f id))).lookup detectorId = some (f detectorId) := by
  induction ids with
  | nil => cases member
  | cons first ids ih =>
      rw [List.map_cons, List.lookup_cons]
      by_cases same : detectorId = first
      · rw [beq_iff_eq.mpr same, same]
      · rw [beq_eq_false_iff_ne.mpr same]
        exact ih ((List.mem_cons.mp member).resolve_left same)

end Batch

/-- The three ways through a cell agree wherever the kernel does not decline, and the batch,
whose declined cells go back to Python, agrees everywhere. The spans they replace are the
leftmost-then-longest choice among the candidates in requested order. -/
theorem masking_routes_agree {ε : Type} (keyed : String → Span → Except ε (List Char))
    (words : WordClass) (findIter : Nat → List Char → List (Nat × Nat))
    (batch : List (Option (List Char))) (detectorIds : Option (List String))
    (strategyMap : List (String × String)) (policy : String) (token : List Char)
    (agree : ∀ text, some text ∈ batch → isEligible text = true →
      CandidatesAgree words findIter text)
    (policies : policy ∈ nativePolicies)
    (strategies : ∀ detectorId ∈ relevantIds words detectorIds,
      strategyOf strategyMap detectorId ∈ nativeStrategies) :
    ∃ plan, planNativeSplice words detectorIds strategyMap policy token = some plan ∧
      plan.rustIds = some (relevantIds words detectorIds) ∧
      spliceBatch keyed words findIter batch plan detectorIds strategyMap policy token =
        .ok (batch.mapM fun value => value.mapM fun text =>
          maskCell keyed words text detectorIds strategyMap policy token) ∧
      ∀ text, some text ∈ batch →
        let candidates := rawSpans words text detectorIds [] []
        let kept := iterSpans words text detectorIds [] []
        let indices := (relevantIds words detectorIds).map indexOf
        let merged := mergeTextRedactSpans words text detectorIds
          (textRedactCandidates findIter (requestedRustIds detectorIds) (some text))
        (∃ masked, maskCell keyed words text detectorIds strategyMap policy token = .ok masked ∧
          detectSpliceCell findIter text indices (verbatimByIndex (indices.zip plan.rustVerbatim))
              plan.token plan.passthroughUnmatched =
            (if isEligible text then some masked else none) ∧
          spliceCell text (merged.map fun span =>
                ⟨span.start, span.stop, (plan.verbatim.lookup span.detectorId).getD false⟩)
              plan.token plan.passthroughUnmatched =
            if isAscii text then some masked else none) ∧
        merged = kept ∧
        kept.Pairwise (fun s t => s.stop ≤ t.start) ∧ kept.Pairwise (fun s t => s.start ≤ t.start) ∧
        Greedy Span.start Span.stop (-1) candidates kept ∧
        ∀ chosen, Greedy Span.start Span.stop (-1) candidates chosen → chosen = kept := by
  refine ⟨nativePlan words detectorIds strategyMap policy token, ?_, rfl,
    spliceBatch_eq agree policies strategies, ?_⟩
  · rw [planNativeSplice_eq, if_pos ⟨policies, strategies⟩]
  · intro text member candidates kept indices merged
    have mergedKept : merged = kept := merge_eq (agree text member)
    have disjoint : kept.Pairwise (fun s t => s.stop ≤ t.start) :=
      iterSpans_disjoint (List.forall_mem_nil _)
    have proper : ∀ span ∈ kept, span.Within text := fun span => iterSpans_within
    have greedy : Greedy Span.start Span.stop (-1) candidates kept := by
      have selected : kept = resolve candidates := iterSpans_eq
      rw [selected]
      exact select_greedy fun span inCandidates =>
        (rawSpans_proper (List.forall_mem_nil _) inCandidates).1
    refine ⟨?_, mergedKept, disjoint, ?_, greedy, fun chosen other => other.unique greedy⟩
    · obtain ⟨masked, python, detected, spliced⟩ :=
        cell_agrees keyed token (agree text member) policies strategies
      refine ⟨masked, python, detected, ?_⟩
      rw [mergedKept, ← spliced]
      congr 1
      refine List.map_congr_left fun span inKept => ?_
      have relevant := (rawSpans_id (iterSpans_subset inKept)).1
      rw [nativePlan, lookup_map (passesThrough strategyMap) relevant]
      rfl
    · have starts : kept.Pairwise (fun s t => s.stop ≤ t.start ∧ s.start ≤ s.stop) := by
        refine disjoint.imp_of_mem fun {s t} inKept _ apart => ⟨apart, (proper s inKept).1⟩
      exact starts.imp fun both => Nat.le_trans both.2 both.1

section Samples

/-- A regex engine that finds what the Python patterns find. -/
def patternFindIter (idx : Nat) (text : List Char) : List (Nat × Nat) :=
  ((spanDetectors .asciiOnly).lookup (supportedIds.getD idx "")).elim [] (·.regex.finditer text)

def sampleBatch : List (Option (List Char)) :=
  [some "a@b.com, 78701".toList, none, some "né".toList, some []]

theorem agrees_of_spans {text : List Char}
    (same : ∀ entry ∈ spanDetectors .asciiOnly,
      (candidatesOf patternFindIter text (indexOf entry.1)).map (asSpan text) =
        entry.2.spans entry.1 text) :
    CandidatesAgree .asciiOnly patternFindIter text := by
  intro detectorId detector found
  obtain ⟨earlier, later, split, -⟩ := List.lookup_eq_some_iff.mp found
  exact same (detectorId, detector) (by simp [split])

theorem masking_routes_agree_sample :
    ∃ plan, planNativeSplice .asciiOnly (some ["us_zip", "email", "mrn", "email"])
        [("us_zip", "passthrough")] "redact" "[X]".toList = some plan ∧
      spliceBatch (fun _ _ => Except.error ()) .asciiOnly patternFindIter sampleBatch plan
          (some ["us_zip", "email", "mrn", "email"]) [("us_zip", "passthrough")] "redact"
          "[X]".toList =
        .ok (sampleBatch.mapM fun value => value.mapM fun text =>
          maskCell (fun _ _ => Except.error ()) .asciiOnly text
            (some ["us_zip", "email", "mrn", "email"]) [("us_zip", "passthrough")] "redact"
            "[X]".toList) := by
  have agree : ∀ text, some text ∈ sampleBatch → isEligible text = true →
      CandidatesAgree .asciiOnly patternFindIter text := by
    have same : ∀ value ∈ sampleBatch, ∀ text ∈ value, isEligible text = true →
        ∀ entry ∈ spanDetectors .asciiOnly,
          (candidatesOf patternFindIter text (indexOf entry.1)).map (asSpan text) =
            entry.2.spans entry.1 text := by
      decide +kernel
    intro text member eligible
    exact agrees_of_spans (same (some text) member text rfl eligible)
  obtain ⟨plan, planned, -, batch, -⟩ :=
    masking_routes_agree (fun _ _ => Except.error ()) .asciiOnly patternFindIter sampleBatch
      (some ["us_zip", "email", "mrn", "email"]) [("us_zip", "passthrough")] "redact" "[X]".toList
      agree (by decide) (by decide)
  exact ⟨plan, planned, batch⟩

/-- Text beyond ASCII makes both kernels decline. -/
theorem kernel_declines :
    CandidatesAgree .asciiOnly patternFindIter "né".toList ∧
      maskCell (fun _ _ => Except.error ()) .asciiOnly "né".toList (some ["email"]) [] "redact"
          "[X]".toList = .ok "[X]".toList ∧
      detectSpliceCell patternFindIter "né".toList [indexOf "email"]
          (verbatimByIndex [(indexOf "email", false)]) "[X]".toList false = none ∧
      spliceCell "né".toList [] "[X]".toList false = none := by
  have none : iterSpans .asciiOnly "né".toList (some ["email"]) [] [] = [] := by
    have raw : rawSpans .asciiOnly "né".toList (some ["email"]) [] [] = [] := by decide +kernel
    rw [iterSpans_eq, raw, resolve, select, List.mergeSort_nil, sweep]
  refine ⟨agrees_of_spans (by decide +kernel), ?_, by decide +kernel, by decide +kernel⟩
  rw [maskCell_eq, none]
  rfl

end Samples

end DecoyEngine.Detection.Native
