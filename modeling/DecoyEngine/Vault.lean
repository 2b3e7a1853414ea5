import DecoyEngine.Data.Batches
import DecoyEngine.Data.ByteFrames
import DecoyEngine.Data.Dict
import DecoyEngine.Data.FlatJson
import DecoyEngine.Determinism.Derive
import Mathlib.Data.List.Sort
import Mathlib.Data.Prod.Lex
import Mathlib.Data.String.Basic

namespace DecoyEngine.Vault

open DecoyEngine.Data DecoyEngine.Determinism

/-! The token vault (`vault.py`). -/

structure Entry where
  namespaceName : String
  masked : String
  source : String
deriving Repr, DecidableEq

abbrev VaultKey := String × String

def Entry.key (entry : Entry) : VaultKey := (entry.namespaceName, entry.masked)

/-- Triples sort as Python sorts tuples of text. -/
def Entry.sortKey (entry : Entry) : String ×ₗ String ×ₗ String :=
  toLex (entry.namespaceName, toLex (entry.masked, entry.source))

/-- `pyarrow.parquet` and the run's Fernet.  `encrypt` has a draw of its own for each chunk;
`none` is a table that cannot be built, an unreadable one and an invalid token. -/
structure Codec where
  writeTable : List Entry → Option Bytes
  readTable : Bytes → Option (List Entry)
  encrypt : Nat → Bytes → Bytes
  decrypt : Bytes → Option Bytes

structure Codec.RoundTrips (codec : Codec) : Prop where
  table : ∀ rows bytes, codec.writeTable rows = some bytes → codec.readTable bytes = some rows
  token : ∀ draw payload, codec.decrypt (codec.encrypt draw payload) = some payload

def vaultFormatVersion : String := "decoy-vault/v2"

/-- `b"DCYVAULT2\n"`. -/
def magic : Bytes := [68, 67, 89, 86, 65, 85, 76, 84, 50, 10]

/-- Conflicting sources of one key leave `None`, which no later source changes. -/
def collapseStep (byKey : Dict VaultKey (Option String)) (entry : Entry) :
    Dict VaultKey (Option String) :=
  match byKey.find entry.key with
  | some held => if held ≠ some entry.source then byKey.set entry.key none else byKey
  | none => byKey.set entry.key (some entry.source)

def collapse (entries : List Entry) : Dict VaultKey (Option String) :=
  entries.foldl collapseStep Dict.empty

def ambiguousDropped (byKey : Dict VaultKey (Option String)) : Nat :=
  byKey.entries.countP fun item => item.2 = none

def vaultRows (byKey : Dict VaultKey (Option String)) : List Entry :=
  (byKey.entries.filterMap fun item =>
    item.2.map fun source => ⟨item.1.1, item.1.2, source⟩).insertionSort
      fun left right => left.sortKey ≤ right.sortKey

/-- The members in the order of `sort_keys`. -/
def vaultHeader (ambiguous chunkRows chunkCount : Nat) : List FlatJson.Member :=
  [("ambiguous_dropped".toList, .number ambiguous),
   ("chunk_count".toList, .number chunkCount),
   ("chunk_rows".toList, .number chunkRows),
   ("format".toList, .text vaultFormatVersion.toList),
   ("seed_protocol_version".toList, .number seedProtocolVersion.toNat)]

inductive WriteError where
  | lengthOverflow
  | tableRefused
deriving Repr, DecidableEq

def framed (block : Bytes) : Except WriteError Bytes :=
  match frame block with
  | some bytes => .ok bytes
  | none => .error .lengthOverflow

def chunkFrame (codec : Codec) (chunk : List Entry × Nat) : Except WriteError Bytes :=
  match codec.writeTable chunk.1 with
  | some payload => framed (codec.encrypt chunk.2 payload)
  | none => .error .tableRefused

/-- `parts`: the magic, the header frame and one frame for each chunk.  The entries are the
set of added triples, in whatever order it iterates. -/
def vaultParts (codec : Codec) (chunkRows : Nat) (entries : List Entry) :
    Except WriteError (List Bytes) := do
  let byKey := collapse entries
  let rows := vaultRows byKey
  let chunkCount := (rows.length + chunkRows - 1) / chunkRows
  let header := FlatJson.dumps (vaultHeader (ambiguousDropped byKey) chunkRows chunkCount)
  let headerFrame ← framed (utf8 (String.ofList header))
  let chunkFrames ← (rangeSlices chunkRows rows).zipIdx.mapM (chunkFrame codec)
  .ok (magic :: headerFrame :: chunkFrames)

def write (codec : Codec) (chunkRows : Nat) (entries : List Entry) : Except WriteError Bytes := do
  let parts ← vaultParts codec chunkRows entries
  .ok parts.flatten

inductive VaultError where
  | truncatedPrefix
  | truncatedBody
  | badMagic
  | unreadableHeader
  | formatUnsupported (declared : Option FlatJson.Value)
  | protocolVersionMismatch (declared : Option FlatJson.Value)
  | keyMismatch
  -- raised by `int` and by `pyarrow`, not wrapped
  | valueError
  | arrowInvalid
deriving DecidableEq

namespace VaultError

def code : VaultError → String
  | truncatedPrefix => "vault_unreadable"
  | truncatedBody => "vault_unreadable"
  | badMagic => "vault_unreadable"
  | unreadableHeader => "vault_unreadable"
  | formatUnsupported _ => "vault_format_unsupported"
  | protocolVersionMismatch _ => "vault_protocol_version_mismatch"
  | keyMismatch => "vault_key_mismatch"
  | valueError => "ValueError"
  | arrowInvalid => "ArrowInvalid"

/-- `repr` of a header member. -/
def valueText : Option FlatJson.Value → String
  | none => "None"
  | some (.number value) => String.ofList (natText value)
  | some (.text chars) => "'" ++ String.ofList chars ++ "'"

/-- The message; `shown` is the `repr` of the file's display name. -/
def message (shown : String) : VaultError → String
  | truncatedPrefix => "vault file truncated (length prefix)"
  | truncatedBody => "vault file truncated (block body)"
  | badMagic => s!"{shown} is not a decoy vault file (bad magic header)."
  | unreadableHeader => s!"vault {shown} has an unreadable header"
  | formatUnsupported declared =>
      s!"vault {shown} declares format {valueText declared}; this engine " ++
      s!"consumes '{vaultFormatVersion}'."
  | protocolVersionMismatch declared =>
      s!"vault {shown} was written under seed protocol version " ++
      s!"{valueText declared}; this engine runs version {seedProtocolVersion.toNat}. " ++
      "Cross-version unmask is not supported; re-mask under this engine " ++
      s!"or use an engine at protocol version {valueText declared}."
  | keyMismatch =>
      "the config's seed does not decrypt this vault; pass the SAME " ++
      "pipeline config the mask run that wrote the vault used."
  | valueError => "invalid literal for int() with base 10"
  | arrowInvalid => "Could not open Parquet input source"

end VaultError

/-- One length-prefixed block at `offset`, and the offset behind it. -/
def readFrame (blob : Bytes) (offset : Nat) : Except VaultError (Bytes × Nat) :=
  if blob.length < offset + 4 then .error .truncatedPrefix
  else
    let length := fromBytesBig ((blob.drop offset).take 4)
    let start := offset + 4
    let stop := start + length
    if blob.length < stop then .error .truncatedBody
    else .ok ((blob.drop start).take length, stop)

/-- `json.loads` of the header. -/
def loadHeader (bytes : Bytes) : Option (List FlatJson.Member) :=
  (String.fromUTF8? ⟨bytes.toArray⟩).bind fun text => FlatJson.loads text.toList

def headerGet (header : List FlatJson.Member) (key : String) : Option FlatJson.Value :=
  (header.reverse.find? fun member => member.1 = key.toList).map Prod.snd

/-- `int(header.get("ambiguous_dropped", 0))`. -/
def headerAmbiguous (header : List FlatJson.Member) : Except VaultError Nat :=
  match headerGet header "ambiguous_dropped" with
  | none => .ok 0
  | some (.number value) => .ok value
  | some (.text chars) =>
      if chars ≠ [] ∧ ∀ ch ∈ chars, ch ∈ asciiDigits then .ok (textNat chars)
      else .error .valueError

def readChunk (codec : Codec) (token : Bytes) : Except VaultError (List Entry) :=
  match codec.decrypt token with
  | none => .error .keyMismatch
  | some payload =>
      match codec.readTable payload with
      | none => .error .arrowInvalid
      | some rows => .ok rows

/-- `while offset < len(blob)`.  A frame takes four bytes at least, so that fuel for every
byte is never short. -/
def loadChunks (codec : Codec) (blob : Bytes) :
    Nat → Nat → Dict VaultKey String → Except VaultError (Dict VaultKey String)
  | 0, _, mapping => .ok mapping
  | fuel + 1, offset, mapping =>
      if offset < blob.length then do
        let (token, offset) ← readFrame blob offset
        let rows ← readChunk codec token
        loadChunks codec blob fuel offset
          (mapping.sets (rows.map fun row => (row.key, row.source)))
      else .ok mapping

/-- `load_vault`: the magic, the header frame with its format, its protocol version and the number
of ambiguous keys, and then chunk after chunk into one mapping. -/
def loadVault (codec : Codec) (blob : Bytes) : Except VaultError (Dict VaultKey String × Nat) :=
  if ¬ magic <+: blob then .error .badMagic
  else do
    let (headerBytes, offset) ← readFrame blob magic.length
    match loadHeader headerBytes with
    | none => .error .unreadableHeader
    | some header =>
        let declared := headerGet header "format"
        if declared ≠ some (.text vaultFormatVersion.toList) then
          .error (.formatUnsupported declared)
        else
          let version := headerGet header "seed_protocol_version"
          if version ≠ some (.number seedProtocolVersion.toNat) then
            .error (.protocolVersionMismatch version)
          else do
            let ambiguous ← headerAmbiguous header
            let mapping ← loadChunks codec blob blob.length offset Dict.empty
            .ok (mapping, ambiguous)

end DecoyEngine.Vault
