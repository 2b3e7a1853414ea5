import DecoyEngine.DeclaredCasting.Quarantine
import DecoyEngine.DeclaredCasting.QuarantineCodec
import DecoyEngine.Reasons.Record
import Mathlib.Data.List.Sort

namespace DecoyEngine.DeclaredCasting.Quarantine

open DecoyEngine.Data DecoyEngine.Determinism DecoyEngine.Reasons

/-! A sealed quarantine artifact, from the envelopes written to the records read back
(`declared_casting/_quarantine_local.py`).

`json` is a parameter; it keeps the order of members, so `sort_keys` is an order of the document
that is dumped.  Reading gives `none` for every exception, from a handler or through it. -/

/-- `json.dumps(...).encode("utf-8")` and `json.loads`. -/
structure JsonCodec where
  dumps : Json → Bytes
  loads : Bytes → Option Json

structure Envelope where
  table : String
  rowPosition : Int
  reasons : List Reasons.ReasonRecord
  row : Dict String Cell

/-- `QuarantineRecord`: the table and the position are taken as they are read. -/
structure Record where
  table : Json
  rowPosition : Json
  reasons : List Reasons.ReasonRecord
  row : Dict String Value

structure Header where
  keyVersion : String
  owner : String
  run : String
  createdAt : Double
  expiresAt : Double
  tokenSalt : String

def magic : Bytes := utf8 "DQA1\n"

def Header.document (header : Header) : Json :=
  .object [
    ("created_at", .float header.createdAt),
    ("expires_at", .float header.expiresAt),
    ("format", .text "decoy-quarantine/v1"),
    ("key_version", .text header.keyVersion),
    ("owner", .text header.owner),
    ("protection", .text "encrypted"),
    ("run", .text header.run),
    ("token_salt", .text header.tokenSalt)]

def rowMembers (row : Dict String Cell) : List (String × Json) :=
  (row.entries.map fun entry => (entry.1, encode entry.2.value)).insertionSort
    fun left right => left.1 ≤ right.1

def Envelope.document (registry : Registry) (envelope : Envelope) : Option Json := do
  let reasons ← envelope.reasons.mapM fun reason => reason.toPayload registry
  some (.object [
    ("reasons", .array reasons),
    ("row", .object (rowMembers envelope.row)),
    ("row_position", .int envelope.rowPosition),
    ("table", .text envelope.table)])

/-- The line of an envelope; one that cannot be written is empty. -/
def Envelope.line (json : JsonCodec) (registry : Registry) (envelope : Envelope) : Bytes :=
  match envelope.document registry with
  | some document => json.dumps document
  | none => []

section Writing

variable (store : Store) (json : JsonCodec) (registry : Registry) (policy : Policy)

def headBytes (header : Header) : Option Bytes := (frame (json.dumps header.document)).map (magic ++ ·)

/-- Rows that are all accepted. -/
def writeRows (session : Session) : List (Envelope × Faults) → Option Session
  | [] => some session
  | (envelope, faults) :: rows =>
      match writeRow store policy session (envelope.line json registry) faults with
      | (session, .done) => writeRows session rows
      | _ => none

/-- The artifact and the receipt of a session from `begin` to `seal`. -/
def artifact (header : Header) (rows : List (Envelope × Faults)) (faults : Faults) :
    Option (Bytes × Receipt) := do
  let session ← writeRows store json registry policy (opened (← headBytes json header)) rows
  match sealSession store session faults with
  | (session, .sealed receipt) => session.finalFile.map fun file => (file, receipt)
  | _ => none

end Writing

def readHeader (json : JsonCodec) (blob : Bytes) : Option Json :=
  if magic <+: blob then do
    let size ← unpackLength (slice blob 5 4)
    json.loads (slice blob 9 size)
  else none

/-- `_frames`, one token per unit of fuel: the tokens, the trailer, and where the body ends.  A
token is not checked for its length; the length that should follow it is. -/
def framesWithin (json : JsonCodec) (blob : Bytes) : Nat → Nat → Option (List Bytes × Json × Nat)
  | 0, _ => none
  | fuel + 1, position =>
      match unpackLength (slice blob position 4) with
      | none => none
      | some 0 => do
          let size ← unpackLength (slice blob (position + 4) 4)
          let trailer ← json.loads (slice blob (position + 8) size)
          some ([], trailer, position)
      | some size => do
          let (tokens, trailer, bodyEnd) ← framesWithin json blob fuel (position + 4 + size)
          some (slice blob (position + 4) size :: tokens, trailer, bodyEnd)

/-- Every token moves the position, so the walk is over within the blob's length. -/
def framesFrom (json : JsonCodec) (blob : Bytes) (position : Nat) :
    Option (List Bytes × Json × Nat) :=
  framesWithin json blob (blob.length + 1) position

def sections (json : JsonCodec) (blob : Bytes) : Option (List Bytes × Json × Nat) := do
  let size ← unpackLength (slice blob 5 4)
  framesFrom json blob (9 + size)

def readLine (json : JsonCodec) (registry : Registry) (line : Bytes) : Option Record := do
  let raw ← json.loads line
  let table ← raw.member "table"
  let rowPosition ← raw.member "row_position"
  let reasons ← (← (← raw.member "reasons").elements).mapM (Reasons.ReasonRecord.fromPayload registry)
  match ← raw.member "row" with
  | .object members =>
      let pairs ← members.mapM fun entry => (decode entry.2).map fun value => (entry.1, value)
      some ⟨table, rowPosition, reasons, (Dict.empty : Dict String Value).sets pairs⟩
  | _ => none

section Reading

variable (store : Store) (json : JsonCodec) (registry : Registry) (admits : Json → Bool)

/-- `_verify`: the digest in the trailer is the digest of what stands before it. -/
def verify (blob : Bytes) : Option (List Bytes) := do
  let (tokens, trailer, bodyEnd) ← sections json blob
  match ← trailer.member "sha256" with
  | .text digest =>
      if digest.toList = store.sha256 (blob.take bodyEnd) then some tokens else none
  | _ => none

def readToken (token : Bytes) : Option (List Record) := do
  (List.splitOn 10 (← store.decrypt token)).mapM (readLine json registry)

/-- `open`; `admits` is the check of the token, the owner, the run, the key version and the expiry
against the header. -/
def openArtifact (blob : Bytes) : Option (List Record) := do
  let header ← readHeader json blob
  if admits header then
    let tokens ← verify store json blob
    let records ← tokens.mapM (readToken store json registry)
    some records.flatten
  else none

end Reading

end DecoyEngine.DeclaredCasting.Quarantine
