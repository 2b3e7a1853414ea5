import DecoyEngine.Data.SpanSweep
import DecoyEngine.Detection.Patterns
import DecoyEngine.Detection.Validators

namespace DecoyEngine.Detection

open DecoyEngine.Data

/-! In-text span extraction (`iter_spans` of `detection/detectors.py`) and the redaction that
replaces the spans (`_splice` of `execution/_strategies/_text_redact.py`). -/

structure Span where
  detectorId : String
  start : Nat
  stop : Nat
  matchedText : List Char
deriving Repr, DecidableEq

/-- `text[start:stop]` -/
def piece (text : List Char) (start stop : Nat) : List Char := (text.drop start).take (stop - start)

/-- A compiled pattern and its validator, which can raise. -/
structure Detector where
  regex : Regex Char
  validator : Option (List Char → Option Bool) := none

/-- `_SPAN_DETECTORS` -/
def spanDetectors (words : WordClass) : List (String × Detector) :=
  [("email", { regex := emailRe }),
   ("ssn", { regex := ssnRe }),
   ("us_phone", { regex := usPhoneRe }),
   ("us_zip", { regex := usZipRe words }),
   ("pan", { regex := panRe, validator := luhnValid }),
   ("iban", { regex := ibanRe, validator := fun matched => some (ibanValid words matched) }),
   ("ipv4", { regex := ipv4Re, validator := ipv4Valid }),
   ("icd10", { regex := icd10Re, validator := icd10Valid words }),
   ("npi", { regex := npiRe, validator := npiValid }),
   ("url", { regex := urlRe }),
   ("street_address", { regex := streetAddressRe words })]

/-- One detector's matches that its validator lets through, in `finditer` order.  No validator of
the catalog raises on what its own pattern matches (`spanDetectors_total`). -/
def Detector.spans (detector : Detector) (detectorId : String) (text : List Char) : List Span :=
  (detector.regex.finditer text).filterMap fun (start, stop) =>
    let matched := piece text start stop
    if (detector.validator.map fun valid => (valid matched).getD false).getD true then
      some ⟨detectorId, start, stop, matched⟩
    else none

/-- The built-in detectors that run: those requested, with all of them for `None`. -/
def requested (words : WordClass) (detectorIds : Option (List String)) : List String :=
  detectorIds.getD ((spanDetectors words).map (·.1))

/-- `raw_spans`: the extra spans, then the built-ins as requested, then the custom detectors. -/
def rawSpans (words : WordClass) (text : List Char) (detectorIds : Option (List String))
    (custom : List (String × Detector)) (extraSpans : List Span) : List Span :=
  extraSpans ++
    (requested words detectorIds).flatMap (fun detectorId =>
      match (spanDetectors words).lookup detectorId with
      | none => []
      | some detector => detector.spans detectorId text) ++
    custom.flatMap (fun spec => spec.2.spans spec.1 text)

/-- The stable sort and the sweep over the candidates. -/
def resolve (candidates : List Span) : List Span := SpanSweep.select Span.start Span.stop candidates

def iterSpans (words : WordClass) (text : List Char) (detectorIds : Option (List String))
    (custom : List (String × Detector)) (extraSpans : List Span) : List Span :=
  if text.isEmpty then [] else resolve (rawSpans words text detectorIds custom extraSpans)

section Redaction

/-- What replaces a span: the token, or the label of its detector. -/
def replacement (token : List Char) (labelToken : Bool) (span : Span) : List Char :=
  if labelToken then "[REDACTED:".toList ++ span.detectorId.toList ++ [']'] else token

def spliceFrom (text token : List Char) (labelToken : Bool) : Nat → List Span → List Char
  | cursor, [] => if cursor < text.length then text.drop cursor else []
  | cursor, span :: spans =>
      (if cursor < span.start then piece text cursor span.start else []) ++
        replacement token labelToken span ++ spliceFrom text token labelToken span.stop spans

/-- `_splice` -/
def splice (text : List Char) (spans : List Span) (token : List Char) (labelToken : Bool) :
    List Char :=
  spliceFrom text token labelToken 0 spans

/-- The handler takes an empty detector list for all detectors. -/
def detectorSelection (detectors : Option (List String)) : Option (List String) :=
  if detectors = some [] then none else detectors

/-- One cell of `text_redact`. -/
def redactCell (words : WordClass) (text : List Char) (detectors : Option (List String))
    (extraSpans : List Span) (token : List Char) (labelToken : Bool) : List Char :=
  let spans := iterSpans words text (detectorSelection detectors) [] extraSpans
  if spans.isEmpty then text else splice text spans token labelToken

end Redaction

end DecoyEngine.Detection
