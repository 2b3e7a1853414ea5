import DecoyEngine.Detection.NativeScan
import DecoyEngine.Detection.Spans

namespace DecoyEngine.Detection

open DecoyEngine.Data

/-! The span masking of `transforms/text_mask.py` and its splice. -/

def unmatchedToken : List Char := "[UNMATCHED]".toList

/-- An empty segment stays empty under every policy. -/
def applyUnmatched (text : List Char) (policy : String) (token : List Char) : List Char :=
  if text.isEmpty then text
  else if policy = "passthrough" then text
  else if policy = "replace_with_token" then unmatchedToken
  else token

section Splice

variable {ε : Type}

def spliceSpansFrom (text : List Char) (maskSpan : Span → Except ε (List Char)) (policy : String)
    (token : List Char) : Nat → List Span → Except ε (List Char)
  | cursor, [] =>
      pure (if cursor < text.length then applyUnmatched (text.drop cursor) policy token else [])
  | cursor, span :: spans => do
      let gap := if cursor < span.start then
        applyUnmatched (piece text cursor span.start) policy token else []
      let masked ← maskSpan span
      let rest ← spliceSpansFrom text maskSpan policy token span.stop spans
      pure (gap ++ masked ++ rest)

def spliceSpans (text : List Char) (spans : List Span) (maskSpan : Span → Except ε (List Char))
    (policy : String) (token : List Char) : Except ε (List Char) :=
  if spans.isEmpty then pure (applyUnmatched text policy token)
  else spliceSpansFrom text maskSpan policy token 0 spans

/-- The strategies a key goes into: `fpe`, `faker` and `date_shift`. -/
def keyedStrategies : List String := ["fpe", "faker", "date_shift"]

/-- `_mask_span`, over what the keyed strategies give. -/
def maskSpan (keyed : String → Span → Except ε (List Char)) (strategy : String)
    (token : List Char) (span : Span) : Except ε (List Char) :=
  if strategy ∈ keyedStrategies then keyed strategy span
  else if strategy = "passthrough" then pure span.matchedText
  else pure token

end Splice

/-- `DETECTOR_DEFAULTS` -/
def detectorDefaults : List (String × String) :=
  [("ssn", "fpe"), ("us_phone", "fpe"), ("us_zip", "fpe"), ("pan", "fpe"), ("fax_number", "fpe"),
   ("npi", "fpe"), ("person_name", "faker"), ("first_name", "faker"), ("last_name", "faker"),
   ("address", "faker"), ("location", "faker"), ("iso_date", "date_shift"),
   ("us_date", "date_shift"), ("eu_date", "date_shift"), ("email", "redact"), ("cvv", "redact"),
   ("iban", "redact"), ("ipv4", "redact"), ("icd10", "redact"), ("mrn", "redact"),
   ("url", "redact"), ("health_plan_id", "redact"), ("license_num", "redact"),
   ("vehicle_id", "redact"), ("device_id", "redact"), ("biometric_id", "redact"),
   ("street_address", "redact")]

/-- `effective_map.get(detector_id, "redact")` -/
def strategyOf (strategyMap : List (String × String)) (detectorId : String) : String :=
  ((strategyMap.lookup detectorId).or (detectorDefaults.lookup detectorId)).getD "redact"

section Cells

variable {ε : Type} (keyed : String → Span → Except ε (List Char))

def maskCellWithSpans (text : List Char) (spans : List Span) (strategyMap : List (String × String))
    (policy : String) (token : List Char) : Except ε (List Char) :=
  if text.isEmpty then pure text
  else spliceSpans text spans
    (fun span => maskSpan keyed (strategyOf strategyMap span.detectorId) token span) policy token

def maskCell (words : WordClass) (text : List Char) (detectorIds : Option (List String))
    (strategyMap : List (String × String)) (policy : String) (token : List Char) :
    Except ε (List Char) :=
  if text.isEmpty then pure text
  else maskCellWithSpans keyed text (iterSpans words text detectorIds [] []) strategyMap policy token

end Cells

/-! The compiled kernel: candidates (`text_redact.rs`), merge and splice (`text_mask.rs`). -/

namespace Native

def supportedIds : List String :=
  ["email", "us_phone", "pan", "iban", "ipv4", "icd10", "npi", "url", "ssn", "us_zip",
   "street_address"]

def catalogLen : Nat := supportedIds.length

def lookaroundFreeCount : Nat := 8

/-- `_INDEX_OF`, and the position `text_mask_detect_splice` looks up. -/
def indexOf (detectorId : String) : Nat := supportedIds.idxOf detectorId

/-- `run_validator` of `validator_for` -/
def validates (idx : Nat) (matched : List Char) : Bool :=
  match idx with
  | 2 => luhnValid matched
  | 3 => ibanValid matched
  | 4 => ipv4Valid matched
  | 5 => icd10Valid matched
  | 6 => npiValid matched
  | _ => true

def scanLookaround (idx : Nat) (text : List Char) : List (UInt32 × UInt32 × UInt32) :=
  match idx with
  | 8 => scanSsn (asBytes text) idx.toUInt32
  | 9 => scanUsZip (asBytes text) idx.toUInt32
  | 10 => scanStreet (asBytes text) idx.toUInt32
  | _ => []

/-! `findIter idx text` stands for `regexes[idx].find_iter(text)`. -/

section Candidates

variable (findIter : Nat → List Char → List (Nat × Nat))

def candidatesOf (text : List Char) (idx : Nat) : List (UInt32 × UInt32 × UInt32) :=
  if idx < lookaroundFreeCount then
    (findIter idx text).filterMap fun found =>
      if validates idx (piece text found.1 found.2) then
        some (idx.toUInt32, found.1.toUInt32, found.2.toUInt32)
      else none
  else scanLookaround idx text

def candidatesForCell (text : List Char) (indices : List Nat) :
    List (UInt32 × UInt32 × UInt32) :=
  indices.flatMap (candidatesOf findIter text)

end Candidates

structure SpliceSpan where
  start : Nat
  stop : Nat
  verbatim : Bool
deriving Repr, DecidableEq

def isAscii (text : List Char) : Bool := text.all fun ch => ch.toNat < 128

/-- `push_gap` -/
def gapPiece (gap token : List Char) (passthroughUnmatched : Bool) : List Char :=
  if gap.isEmpty then [] else if passthroughUnmatched then gap else token

def spliceCellFrom (text token : List Char) (passthroughUnmatched : Bool) :
    Nat → List SpliceSpan → Option (List Char)
  | cursor, [] => some (gapPiece (text.drop cursor) token passthroughUnmatched)
  | cursor, span :: spans =>
      if span.start < cursor || span.stop < span.start || text.length < span.stop then none
      else do
        let rest ← spliceCellFrom text token passthroughUnmatched span.stop spans
        pure (gapPiece (piece text cursor span.start) token passthroughUnmatched ++
          (if span.verbatim then piece text span.start span.stop else token) ++ rest)

/-- On ASCII text the byte offsets of the source are character offsets. -/
def spliceCell (text : List Char) (spans : List SpliceSpan) (token : List Char)
    (passthroughUnmatched : Bool) : Option (List Char) :=
  if !isAscii text then none
  else if text.isEmpty then some []
  else spliceCellFrom text token passthroughUnmatched 0 spans

/-- The comparator of `cands.sort_by`, as `≤`; the lengths are `u32` differences. -/
def candidateBefore (a b : UInt32 × UInt32 × UInt32) : Bool :=
  a.2.1 < b.2.1 || (a.2.1 == b.2.1 && b.2.2 - b.2.1 ≤ a.2.2 - a.2.1)

def sweepCandidates : Int → List (UInt32 × UInt32 × UInt32) → List (UInt32 × UInt32 × UInt32)
  | _, [] => []
  | lastEnd, candidate :: rest =>
      if lastEnd ≤ (candidate.2.1.toNat : Int) then
        candidate :: sweepCandidates candidate.2.2.toNat rest
      else sweepCandidates lastEnd rest

def detectSpliceCell (findIter : Nat → List Char → List (Nat × Nat)) (text : List Char)
    (indices : List Nat) (verbatim : List Bool) (token : List Char)
    (passthroughUnmatched : Bool) : Option (List Char) :=
  if !isEligible text then none
  else
    let candidates := (candidatesForCell findIter text indices).mergeSort candidateBefore
    let spans := (sweepCandidates (-1) candidates).map fun candidate =>
      ⟨candidate.2.1.toNat, candidate.2.2.toNat, verbatim.getD candidate.1.toNat false⟩
    spliceCell text spans token passthroughUnmatched

/-- The array `verbatim_by_index`: a later entry of one detector overwrites an earlier one. -/
def verbatimByIndex (entries : List (Nat × Bool)) : List Bool :=
  entries.foldl (fun table entry => table.set entry.1 entry.2) (List.replicate catalogLen false)

/-- `text_mask_detect_splice`: detection and replacement of a whole column in the kernel, with every
cell that it declines handed back; a `none` cell is null. -/
def textMaskDetectSplice (findIter : Nat → List Char → List (Nat × Nat))
    (values : List (Option (List Char))) (detectorIds : List String) (verbatim : List Bool)
    (token : List Char) (passthroughUnmatched : Bool) :
    Except String (List (Option (List Char))) :=
  if detectorIds.length ≠ verbatim.length then .error "verbatim_length_mismatch"
  else
    match detectorIds.find? (fun detectorId => !supportedIds.contains detectorId) with
    | some _ => .error "unknown_detector_id"
    | none =>
        let indices := detectorIds.map indexOf
        let table := verbatimByIndex (indices.zip verbatim)
        .ok (values.map fun value => value.bind fun text =>
          detectSpliceCell findIter text indices table token passthroughUnmatched)

/-- `text_mask_splice_spans` -/
def textMaskSpliceSpans (values : List (Option (List Char))) (spans : List (List SpliceSpan))
    (token : List Char) (passthroughUnmatched : Bool) : List (Option (List Char)) :=
  values.zipWith (fun value cellSpans => value.bind fun text =>
    spliceCell text cellSpans token passthroughUnmatched) spans

/-- One cell of `text_redact_candidates`: `none` for a null or an ineligible cell. -/
def textRedactCandidates (findIter : Nat → List Char → List (Nat × Nat))
    (detectorIds : List String) (value : Option (List Char)) :
    Option (List (UInt32 × UInt32 × UInt32)) :=
  value.bind fun text =>
    if isEligible text then some (candidatesForCell findIter text (detectorIds.map indexOf))
    else none

/-! The Python side of the boundary (`_text_redact_kernel.py`, `_text_mask_native_splice.py`). -/

def requestedRustIds (detectorIds : Option (List String)) : List String :=
  match detectorIds with
  | none => supportedIds
  | some ids => (ids.foldl (fun seen detectorId =>
      if supportedIds.contains detectorId && !seen.contains detectorId then seen ++ [detectorId]
      else seen) [])

section Merge

variable (words : WordClass)

/-- The spans of one requested id: from the kernel's candidates, or from the Python pattern. -/
def mergedSpans (text : List Char)
    (rustCandidates : Option (List (UInt32 × UInt32 × UInt32))) (detectorId : String) :
    List Span :=
  let scanned := match (spanDetectors words).lookup detectorId with
    | none => []
    | some detector => detector.spans detectorId text
  match rustCandidates with
  | none => scanned
  | some candidates =>
      if supportedIds.contains detectorId then
        (candidates.filter (fun triple => triple.1.toNat == indexOf detectorId)).map fun triple =>
          ⟨detectorId, triple.2.1.toNat, triple.2.2.toNat,
            piece text triple.2.1.toNat triple.2.2.toNat⟩
      else scanned

def mergeTextRedactSpans (text : List Char) (detectorIds : Option (List String))
    (rustCandidates : Option (List (UInt32 × UInt32 × UInt32))) : List Span :=
  if text.isEmpty then []
  else resolve ((requested words detectorIds).flatMap (mergedSpans words text rustCandidates))

end Merge

structure SplicePlan where
  token : List Char
  passthroughUnmatched : Bool
  verbatim : List (String × Bool)
  rustIds : Option (List String)
  rustVerbatim : List Bool
deriving Repr, DecidableEq

def nativeStrategies : List String := ["redact", "passthrough"]

def nativePolicies : List String := ["redact", "passthrough"]

/-- The requested ids that are span detectors. -/
def relevantIds (words : WordClass) (detectorIds : Option (List String)) : List String :=
  (requested words detectorIds).filter fun detectorId =>
    ((spanDetectors words).lookup detectorId).isSome

/-- `plan_native_splice`: what the kernel is told about the detectors of a column, or `none` where a
policy or a strategy keeps the whole column on the Python route. -/
def planNativeSplice (words : WordClass) (detectorIds : Option (List String))
    (strategyMap : List (String × String)) (policy : String) (token : List Char) :
    Option SplicePlan :=
  let relevant := relevantIds words detectorIds
  let passes := fun detectorId => strategyOf strategyMap detectorId == "passthrough"
  if policy ∉ nativePolicies then none
  else if relevant.any (fun detectorId => strategyOf strategyMap detectorId ∉ nativeStrategies) then
    none
  else
    let allRust := relevant.all (supportedIds.contains ·)
    some {
      token
      passthroughUnmatched := policy == "passthrough"
      verbatim := relevant.map fun detectorId => (detectorId, passes detectorId)
      rustIds := if allRust then some relevant else none
      rustVerbatim := if allRust then relevant.map passes else [] }

/-- `splice_batch`, with the oracle's splice as the fallback of a cell the kernel declines. -/
def spliceBatch {ε : Type} (keyed : String → Span → Except ε (List Char)) (words : WordClass)
    (findIter : Nat → List Char → List (Nat × Nat)) (batch : List (Option (List Char)))
    (plan : SplicePlan) (detectorIds : Option (List String))
    (strategyMap : List (String × String)) (policy : String) (token : List Char) :
    Except String (Except ε (List (Option (List Char)))) := do
  let merged := batch.map fun value => value.map fun text =>
    match textRedactCandidates findIter (requestedRustIds detectorIds) value with
    | none => iterSpans words text detectorIds [] []
    | some candidates => mergeTextRedactSpans words text detectorIds (some candidates)
  let results ← match plan.rustIds with
    | some rustIds =>
        textMaskDetectSplice findIter batch rustIds plan.rustVerbatim plan.token
          plan.passthroughUnmatched
    | none =>
        pure (textMaskSpliceSpans batch
          (merged.map fun spans => (spans.getD []).map fun span =>
            ⟨span.start, span.stop, (plan.verbatim.lookup span.detectorId).getD false⟩)
          plan.token plan.passthroughUnmatched)
  let spansFor := if plan.rustIds.isSome then batch.map (fun _ => none) else merged
  pure ((batch.zip (results.zip spansFor)).mapM fun cell =>
    match cell.1, cell.2.1 with
    | none, _ => pure none
    | some _, some masked => pure (some masked)
    | some text, none => some <$> maskCellWithSpans keyed text
        (cell.2.2.getD (iterSpans words text detectorIds [] [])) strategyMap policy token)

end Native

end DecoyEngine.Detection
