import DecoyEngine.Data.Json
import DecoyEngine.Data.Vocabulary

namespace DecoyEngine.Reasons

open DecoyEngine.Data

/-! Reason records on the wire (`reasons/_record.py`, `reasons/_types.py`).

The registry is a parameter: the specification of each identity.  Payloads are JSON objects with
their members in the order of `sort_keys`. -/

inductive Phase where
  | configuration | resolve | compile | mask | generate | finalize | verify | publish | cleanup
  | unknown
deriving Repr, DecidableEq

instance : Vocabulary Phase where
  members := [.configuration, .resolve, .compile, .mask, .generate, .finalize, .verify, .publish,
    .cleanup, .unknown]
  word
    | .configuration => "configuration"
    | .resolve => "resolve"
    | .compile => "compile"
    | .mask => "mask"
    | .generate => "generate"
    | .finalize => "finalize"
    | .verify => "verify"
    | .publish => "publish"
    | .cleanup => "cleanup"
    | .unknown => "unknown"

inductive Severity where
  | info | warning | error
deriving Repr, DecidableEq

instance : Vocabulary Severity where
  members := [.info, .warning, .error]
  word
    | .info => "info"
    | .warning => "warning"
    | .error => "error"

inductive Kind where
  | failure | finding | warning | decision | control
deriving Repr, DecidableEq

instance : Vocabulary Kind where
  members := [.failure, .finding, .warning, .decision, .control]
  word
    | .failure => "failure"
    | .finding => "finding"
    | .warning => "warning"
    | .decision => "decision"
    | .control => "control"

inductive RetryClass where
  | never | configurationRepair | environmentRepair | retryOperation | restartAttempt | unknown
deriving Repr, DecidableEq

instance : Vocabulary RetryClass where
  members := [.never, .configurationRepair, .environmentRepair, .retryOperation, .restartAttempt,
    .unknown]
  word
    | .never => "never"
    | .configurationRepair => "configuration_repair"
    | .environmentRepair => "environment_repair"
    | .retryOperation => "retry_operation"
    | .restartAttempt => "restart_attempt"
    | .unknown => "unknown"

inductive Outcome where
  | execution | findings | verification | publication | configuration | cancelled | success
deriving Repr, DecidableEq

instance : Vocabulary Outcome where
  members := [.execution, .findings, .verification, .publication, .configuration, .cancelled,
    .success]
  word
    | .execution => "execution"
    | .findings => "findings"
    | .verification => "verification"
    | .publication => "publication"
    | .configuration => "configuration"
    | .cancelled => "cancelled"
    | .success => "success"

inductive Operation where
  | read | resolveSecret | stage | write | close | commit | abort | sidecar | verify
deriving Repr, DecidableEq

instance : Vocabulary Operation where
  members := [.read, .resolveSecret, .stage, .write, .close, .commit, .abort, .sidecar, .verify]
  word
    | .read => "read"
    | .resolveSecret => "resolve_secret"
    | .stage => "stage"
    | .write => "write"
    | .close => "close"
    | .commit => "commit"
    | .abort => "abort"
    | .sidecar => "sidecar"
    | .verify => "verify"

inductive PublicationState where
  | notPublished | published | partly | unknown
deriving Repr, DecidableEq

instance : Vocabulary PublicationState where
  members := [.notPublished, .published, .partly, .unknown]
  word
    | .notPublished => "not_published"
    | .published => "published"
    | .partly => "partial"
    | .unknown => "unknown"

inductive CleanupState where
  | notNeeded | attempted | confirmed | failed | unknown
deriving Repr, DecidableEq

instance : Vocabulary CleanupState where
  members := [.notNeeded, .attempted, .confirmed, .failed, .unknown]
  word
    | .notNeeded => "not_needed"
    | .attempted => "attempted"
    | .confirmed => "confirmed"
    | .failed => "failed"
    | .unknown => "unknown"

/-- `COUNT_KEYS`, in the order of their words. -/
inductive CountKey where
  | attempt | batches | bytes | columns | errors | findings | retries | rows | tables
deriving Repr, DecidableEq

instance : Vocabulary CountKey where
  members := [.attempt, .batches, .bytes, .columns, .errors, .findings, .retries, .rows, .tables]
  word
    | .attempt => "attempt"
    | .batches => "batches"
    | .bytes => "bytes"
    | .columns => "columns"
    | .errors => "errors"
    | .findings => "findings"
    | .retries => "retries"
    | .rows => "rows"
    | .tables => "tables"

def isAsciiLetter (ch : Char) : Bool := ('a' ≤ ch && ch ≤ 'z') || ('A' ≤ ch && ch ≤ 'Z')

def isAsciiDigit (ch : Char) : Bool := '0' ≤ ch && ch ≤ '9'

/-- One character of `first`, then at most `more` of `rest`. -/
def shaped (first rest : Char → Bool) (more : Nat) (text : String) : Bool :=
  match text.toList with
  | [] => false
  | head :: tail => first head && tail.all rest && tail.length ≤ more

/-- `_SAFE_REF`. -/
def isSafeRef : String → Bool :=
  shaped (fun ch => isAsciiLetter ch || isAsciiDigit ch)
    (fun ch => isAsciiLetter ch || isAsciiDigit ch || ch ∈ ['_', '.', '-']) 63

/-- `_SAFE_IDENTITY`. -/
def isSafeIdentity : String → Bool :=
  shaped (fun ch => 'a' ≤ ch && ch ≤ 'z')
    (fun ch => ('a' ≤ ch && ch ≤ 'z') || isAsciiDigit ch || ch ∈ ['_', '.', ':', '-']) 95

abbrev SafeRef := { text : String // isSafeRef text = true }

abbrev SafeIdentity := { text : String // isSafeIdentity text = true }

def approve (shape : String → Bool) (text : String) : Option { text : String // shape text = true } :=
  if approved : shape text = true then some ⟨text, approved⟩ else none

/-- The first group of `REGISTRY_VERSION_RE`, with ASCII digits. -/
def registryMajor (text : String) : Option (List Char) :=
  match text.toList.splitOn '.' with
  | [major, minor, patch] =>
      if (1 ≤ major.length ∧ major.length ≤ 4) ∧ (1 ≤ minor.length ∧ minor.length ≤ 5) ∧
          (1 ≤ patch.length ∧ patch.length ≤ 6) ∧
          (major ++ minor ++ patch).all isAsciiDigit then some major
      else none
  | _ => none

def registryVersion : String := "1.6.0"

def reasonSchemaVersion : Int := 1

def maxCounts : Nat := 16

structure PhaseRule where
  phase : Phase
  severity : Severity
  outcome : Outcome
  retry : RetryClass
deriving Repr, DecidableEq

/-- A registry entry; it has at least one rule. -/
structure ReasonSpec where
  space : String
  code : String
  kind : Kind
  defaultRule : PhaseRule
  moreRules : List PhaseRule
deriving Repr, DecidableEq

def ReasonSpec.ruleFor (spec : ReasonSpec) (phase : Phase) : Option PhaseRule :=
  (spec.defaultRule :: spec.moreRules).find? fun rule => rule.phase = phase

/-- Entries are held under their own identity. -/
structure Registry where
  find : String → String → Option ReasonSpec
  identity : ∀ {space code spec}, find space code = some spec → spec.space = space ∧ spec.code = code

/-- `counts` has each key at most once, in the order of the keys: every constructor of the source
sorts them. -/
structure ReasonContext where
  objectRef : Option SafeRef
  operation : Option Operation
  storageRef : Option SafeRef
  publicationState : Option PublicationState
  cleanupState : Option CleanupState
  counts : CountKey → Option Nat
  truncated : Bool
  originalIdentity : Option (SafeIdentity × SafeIdentity)

namespace ReasonContext

def empty : ReasonContext :=
  ⟨none, none, none, none, none, fun _ => none, false, none⟩

def wordOrNull {α : Type} [Vocabulary α] : Option α → Json
  | some member => .text (Vocabulary.word member)
  | none => .null

def refOrNull : Option SafeRef → Json
  | some ref => .text ref.val
  | none => .null

def countMembers (counts : CountKey → Option Nat) : List (String × Json) :=
  Vocabulary.members.filterMap fun key =>
    (counts key).map fun count : Nat => (Vocabulary.word key, .int count)

def identityOrNull : Option (SafeIdentity × SafeIdentity) → Json
  | some identity => .array [.text identity.1.val, .text identity.2.val]
  | none => .null

def toPayload (context : ReasonContext) : Json :=
  .object [
    ("cleanup_state", wordOrNull context.cleanupState),
    ("counts", .object (countMembers context.counts)),
    ("object_ref", refOrNull context.objectRef),
    ("operation", wordOrNull context.operation),
    ("original_identity", identityOrNull context.originalIdentity),
    ("publication_state", wordOrNull context.publicationState),
    ("storage_ref", refOrNull context.storageRef),
    ("truncated", .bool context.truncated)]

/-- `_enum_or_none`. -/
def wordOf {α : Type} [Vocabulary α] : Option Json → Option α
  | some (.text text) => Vocabulary.ofWord text
  | _ => none

/-- `approve_ref`. -/
def refOf : Option Json → Option SafeRef
  | some (.text text) => approve isSafeRef text
  | _ => none

/-- A count of the closed vocabulary. -/
def countOf (entry : String × Json) : Option (CountKey × Nat) :=
  match Vocabulary.ofWord entry.1, entry.2 with
  | some key, .int value => if 0 ≤ value then some (key, value.toNat) else none
  | _, _ => none

def countsOf : Option Json → CountKey → Option Nat
  | some (.object entries), key => ((entries.take maxCounts).filterMap countOf).lookup key
  | _, _ => none

/-- Whether reading the counts drops something. -/
def dropsCounts : Option Json → Bool
  | some (.object entries) =>
      maxCounts < entries.length || (entries.take maxCounts).any fun entry => (countOf entry).isNone
  | some .null => false
  | none => false
  | _ => true

def identityOf : Option Json → Option (SafeIdentity × SafeIdentity)
  | some (.array [.text space, .text code]) =>
      match approve isSafeIdentity space, approve isSafeIdentity code with
      | some space, some code => some (space, code)
      | _, _ => none
  | _ => none

def isTrue : Option Json → Bool
  | some (.bool value) => value
  | _ => false

def fromPayload : Json → ReasonContext
  | .object members => {
      objectRef := refOf (members.lookup "object_ref")
      operation := wordOf (members.lookup "operation")
      storageRef := refOf (members.lookup "storage_ref")
      publicationState := wordOf (members.lookup "publication_state")
      cleanupState := wordOf (members.lookup "cleanup_state")
      counts := countsOf (members.lookup "counts")
      truncated := isTrue (members.lookup "truncated") || dropsCounts (members.lookup "counts")
      originalIdentity := identityOf (members.lookup "original_identity") }
  | _ => { empty with truncated := true }

def merged (context other : ReasonContext) : ReasonContext where
  objectRef := other.objectRef.or context.objectRef
  operation := other.operation.or context.operation
  storageRef := other.storageRef.or context.storageRef
  publicationState := other.publicationState.or context.publicationState
  cleanupState := other.cleanupState.or context.cleanupState
  counts key := (other.counts key).or (context.counts key)
  truncated := context.truncated || other.truncated
  originalIdentity := other.originalIdentity.or context.originalIdentity

end ReasonContext

structure ReasonRecord where
  schemaVersion : Int
  registryVersion : String
  space : String
  code : String
  kind : Kind
  phase : Phase
  severity : Severity
  retryClass : RetryClass
  outcome : Outcome
  context : ReasonContext

namespace ReasonRecord

variable (registry : Registry)

/-- The rule a record at `phase` has to follow. -/
def allowedRule (spec : ReasonSpec) (phase : Phase) : Option PhaseRule :=
  (spec.ruleFor phase).or (if phase = .unknown then some spec.defaultRule else none)

def validate (record : ReasonRecord) : Bool :=
  record.schemaVersion = reasonSchemaVersion &&
  record.registryVersion = Reasons.registryVersion &&
  match registry.find record.space record.code with
  | none => false
  | some spec =>
      match allowedRule spec record.phase with
      | none => false
      | some rule =>
          record.kind = spec.kind && record.severity = rule.severity &&
          record.outcome = rule.outcome && record.retryClass = rule.retry

/-- `none` is the `ValueError` of the check. -/
def toPayload (record : ReasonRecord) : Option Json :=
  if record.validate registry then
    (registry.find record.space record.code).map fun spec =>
      let rule := (spec.ruleFor record.phase).getD spec.defaultRule
      .object [
        ("code", .text spec.code),
        ("context", record.context.toPayload),
        ("kind", .text (Vocabulary.word spec.kind)),
        ("namespace", .text spec.space),
        ("outcome", .text (Vocabulary.word rule.outcome)),
        ("phase", .text (Vocabulary.word record.phase)),
        ("registry_version", .text Reasons.registryVersion),
        ("retry_class", .text (Vocabulary.word rule.retry)),
        ("schema_version", .int reasonSchemaVersion),
        ("severity", .text (Vocabulary.word rule.severity))]
  else none

/-- A phase without a rule is reported as unknown; `none` is an identity never declared. -/
def forReason (space code : String) (phase : Phase) (context : ReasonContext) :
    Option ReasonRecord :=
  (registry.find space code).map fun spec =>
    let (rule, phase) :=
      match spec.ruleFor phase with
      | some rule => (rule, phase)
      | none => (spec.defaultRule, .unknown)
    { schemaVersion := reasonSchemaVersion
      registryVersion := Reasons.registryVersion
      space, code, kind := spec.kind, phase, severity := rule.severity
      retryClass := rule.retry, outcome := rule.outcome, context }

/-- Python's `== 1`. -/
def isSchemaVersion : Option Json → Bool
  | some (.int value) => value = reasonSchemaVersion
  | some (.bool value) => value
  | some (.float (.number (.finite false magnitude))) =>
      magnitude.isInteger && magnitude.truncated = 1
  | _ => false

/-- The registry version of the writer, where its major is this registry's. -/
def supportedVersion : Option Json → Bool
  | some (.text text) =>
      (registryMajor text).isSome && registryMajor text = registryMajor Reasons.registryVersion
  | _ => false

/-- A record of a newer registry: the identity is kept, uninterpreted. -/
def fromFuture (space code : Option Json) (phase : Phase) (context : ReasonContext) :
    Option ReasonRecord :=
  let context :=
    match ReasonContext.identityOf (do some (.array [← space, ← code])) with
    | some identity => context.merged { ReasonContext.empty with originalIdentity := some identity }
    | none => context
  forReason registry "decoy" "unknown_reason_from_future" phase context

def registered (space code : Option Json) : Option ReasonSpec :=
  match space, code with
  | some (.text space), some (.text code) => registry.find space code
  | _, _ => none

/-- `from_payload`; `none` only where the diagnostics themselves are not declared. -/
def fromPayload : Json → Option ReasonRecord
  | .object members =>
      if isSchemaVersion (members.lookup "schema_version") &&
          supportedVersion (members.lookup "registry_version") then
        let phase := (ReasonContext.wordOf (members.lookup "phase")).getD .unknown
        let context := ReasonContext.fromPayload ((members.lookup "context").getD .null)
        match registered registry (members.lookup "namespace") (members.lookup "code") with
        | some spec => forReason registry spec.space spec.code phase context
        | none =>
            fromFuture registry (members.lookup "namespace") (members.lookup "code") phase context
      else forReason registry "decoy" "unsupported_schema_version" .unknown .empty
  | _ => forReason registry "decoy" "reason_record_invalid" .unknown .empty

end ReasonRecord

theorem approve_val {shape : String → Bool} (text : { text : String // shape text = true }) :
    approve shape text.val = some text := by
  rw [approve, dif_pos text.property]

namespace ReasonContext

theorem wordOf_wordOrNull {α : Type} [Vocabulary α] (member : Option α) :
    wordOf (some (wordOrNull member)) = member := by
  cases member with
  | none => rfl
  | some member => exact Vocabulary.ofWord_word member

theorem refOf_refOrNull (ref : Option SafeRef) : refOf (some (refOrNull ref)) = ref := by
  cases ref with
  | none => rfl
  | some ref => exact approve_val ref

theorem identityOf_identityOrNull (identity : Option (SafeIdentity × SafeIdentity)) :
    identityOf (some (identityOrNull identity)) = identity := by
  cases identity with
  | none => rfl
  | some identity => simp [identityOrNull, identityOf, approve_val]

theorem countOf_written (key : CountKey) (count : Nat) :
    countOf (Vocabulary.word key, .int count) = some (key, count) := by
  simp [countOf, Vocabulary.ofWord_word]

/-- The counts as pairs, in the order of the keys. -/
def countPairs (counts : CountKey → Option Nat) (keys : List CountKey) : List (CountKey × Nat) :=
  keys.filterMap fun key => (counts key).map fun count => (key, count)

theorem lookup_countPairs (counts : CountKey → Option Nat) (keys : List CountKey) (key : CountKey) :
    (countPairs counts keys).lookup key = if key ∈ keys then counts key else none := by
  induction keys with
  | nil => rfl
  | cons first keys ih =>
      rw [countPairs, List.filterMap_cons, ← countPairs]
      cases held : counts first with
      | none =>
          rw [Option.map_none]
          dsimp only
          rw [ih]
          by_cases same : key = first
          · simp [same, held]
          · simp [same]
      | some count =>
          rw [Option.map_some]
          dsimp only
          by_cases same : key = first
          · simp [same, held]
          · have other : (key == first) = false := by simpa using same
            rw [List.lookup_cons, other, ih]
            simp [same]

theorem filterMap_countOf (counts : CountKey → Option Nat) :
    (countMembers counts).filterMap countOf = countPairs counts Vocabulary.members := by
  rw [countMembers, List.filterMap_filterMap, countPairs]
  congr 1
  funext key
  cases counts key with
  | none => rfl
  | some count => simp [countOf_written]

theorem length_countMembers (counts : CountKey → Option Nat) :
    (countMembers counts).length ≤ maxCounts := by
  apply (List.length_filterMap_le _ _).trans
  decide

theorem countsOf_countMembers (counts : CountKey → Option Nat) :
    countsOf (some (.object (countMembers counts))) = counts := by
  funext key
  rw [countsOf, List.take_of_length_le (length_countMembers counts), filterMap_countOf,
    lookup_countPairs, if_pos (Vocabulary.complete key)]

theorem dropsCounts_countMembers (counts : CountKey → Option Nat) :
    dropsCounts (some (.object (countMembers counts))) = false := by
  have few := length_countMembers counts
  rw [dropsCounts, List.take_of_length_le few, Bool.or_eq_false_iff]
  refine ⟨by simpa using few, ?_⟩
  rw [List.any_eq_false]
  intro entry member
  obtain ⟨key, _, isEntry⟩ := List.mem_filterMap.mp member
  obtain ⟨count, _, rfl⟩ := Option.map_eq_some_iff.mp isEntry
  simp [countOf_written]

theorem fromPayload_toPayload (context : ReasonContext) :
    fromPayload context.toPayload = context := by
  obtain ⟨objectRef, operation, storageRef, publication, cleanup, counts, truncated, identity⟩ :=
    context
  have lookups := And.intro (countsOf_countMembers counts) (dropsCounts_countMembers counts)
  simp [toPayload, fromPayload, List.lookup_cons, wordOf_wordOrNull, refOf_refOrNull,
    identityOf_identityOrNull, lookups, isTrue]

end ReasonContext

namespace ReasonRecord

variable {registry : Registry} {record : ReasonRecord}

theorem forReason_of_validate (valid : record.validate registry = true) :
    forReason registry record.space record.code record.phase record.context = some record := by
  obtain ⟨schema, version, space, code, kind, phase, severity, retry, outcome, context⟩ := record
  simp only [validate, Bool.and_eq_true, decide_eq_true_eq] at valid
  obtain ⟨⟨rfl, rfl⟩, valid⟩ := valid
  rw [forReason]
  cases found : registry.find space code with
  | none => simp [found] at valid
  | some spec =>
      simp only [found, allowedRule] at valid
      cases ruled : spec.ruleFor phase with
      | some rule =>
          simp only [ruled, Option.some_or, Bool.and_eq_true, decide_eq_true_eq] at valid
          obtain ⟨⟨⟨rfl, rfl⟩, rfl⟩, rfl⟩ := valid
          simp [ruled]
      | none =>
          by_cases unknown : phase = .unknown
          · simp only [ruled, Option.none_or, if_pos unknown, Bool.and_eq_true,
              decide_eq_true_eq] at valid
            obtain ⟨⟨⟨rfl, rfl⟩, rfl⟩, rfl⟩ := valid
            subst unknown
            simp [ruled]
          · simp [ruled, unknown] at valid

theorem fromPayload_toPayload {payload : Json} (written : record.toPayload registry = some payload) :
    fromPayload registry payload = some record := by
  rw [toPayload] at written
  split at written
  · rename_i valid
    obtain ⟨spec, found, rfl⟩ := Option.map_eq_some_iff.mp written
    obtain ⟨sameSpace, sameCode⟩ := registry.identity found
    have supported : supportedVersion (some (.text Reasons.registryVersion)) = true := by decide
    have phase : ReasonContext.wordOf (some (.text (Vocabulary.word record.phase))) =
        some record.phase := Vocabulary.ofWord_word record.phase
    simp [fromPayload, List.lookup_cons, isSchemaVersion, supported, phase, registered, sameSpace,
      sameCode, found, ReasonContext.fromPayload_toPayload, forReason_of_validate valid]
  · cases written

end ReasonRecord

end DecoyEngine.Reasons
