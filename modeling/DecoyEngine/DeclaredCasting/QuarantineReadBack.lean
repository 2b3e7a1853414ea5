import DecoyEngine.Data.Checked
import DecoyEngine.DeclaredCasting.QuarantineLayout

namespace DecoyEngine.DeclaredCasting.Quarantine

open DecoyEngine.Data DecoyEngine.Determinism DecoyEngine.Reasons

/-! What a sealed artifact gives back, whole and cut short. -/

/-- The record of an envelope: the same row, whatever the order of its columns. -/
structure ReadsAs (envelope : Envelope) (record : Record) : Prop where
  table : record.table = .text envelope.table
  rowPosition : record.rowPosition = .int envelope.rowPosition
  reasons : record.reasons = envelope.reasons
  row : record.row.entries.Perm (envelope.row.entries.map fun entry => (entry.1, entry.2.value))

section Lines

variable {store : Store} {json : JsonCodec} {registry : Registry}

theorem rowMembers_eq (row : Dict String Cell) :
    rowMembers row = (row.entries.insertionSort fun left right => left.1 ≤ right.1).map
      fun entry => (entry.1, encode entry.2.value) := by
  rw [rowMembers]
  symm
  apply List.map_insertionSort
  intro left _ right _
  exact Iff.rfl

theorem decode_members {row : Dict String Cell}
    (whole : ∀ entry ∈ row.entries, entry.2.value.wholeMicros = true) :
    (rowMembers row).mapM (fun entry => (decode entry.2).map fun value => (entry.1, value)) =
      some ((row.entries.insertionSort fun left right => left.1 ≤ right.1).map
        fun entry => (entry.1, entry.2.value)) := by
  rw [rowMembers_eq, mapM_eq_some, List.forall₂_map_left_iff, List.forall₂_map_right_iff,
    List.forall₂_same]
  intro entry member
  have inRow : entry ∈ row.entries := List.mem_insertionSort _ |>.mp member
  rw [decode_encode entry.2.value entry.2.distinct (whole entry inRow), Option.map_some]

theorem line_document {envelope : Envelope} (nonempty : envelope.line json registry ≠ []) :
    ∃ document, envelope.document registry = some document ∧
      envelope.line json registry = json.dumps document := by
  rw [Envelope.line] at nonempty ⊢
  cases written : envelope.document registry with
  | none => simp [written] at nonempty
  | some document => exact ⟨document, rfl, rfl⟩

theorem readLine_document {envelope : Envelope} {document : Json} {line : Bytes}
    (written : envelope.document registry = some document)
    (whole : ∀ entry ∈ envelope.row.entries, entry.2.value.wholeMicros = true)
    (loads : json.loads line = some document) :
    ∃ record, readLine json registry line = some record ∧ ReadsAs envelope record := by
  rw [Envelope.document] at written
  simp only [Option.bind_eq_bind, Option.bind_eq_some_iff, Option.some.injEq] at written
  obtain ⟨payloads, reasons, rfl⟩ := written
  have reasonsBack : payloads.mapM (Reasons.ReasonRecord.fromPayload registry) = some envelope.reasons := by
    rw [mapM_eq_some] at reasons ⊢
    exact reasons.flip.imp fun payload reason => Reasons.ReasonRecord.fromPayload_toPayload
  have pairs := decode_members whole
  generalize sorted : (envelope.row.entries.insertionSort fun left right => left.1 ≤ right.1).map
    (fun entry => (entry.1, entry.2.value)) = columns at pairs
  refine ⟨⟨.text envelope.table, .int envelope.rowPosition, envelope.reasons,
    (Dict.empty : Dict String Value).sets columns⟩, ?_, rfl, rfl, rfl, ?_⟩
  · simp only [readLine, loads, Json.member, List.lookup_cons, String.reduceBEq, Option.bind_eq_bind,
      Option.bind_some, Json.elements, reasonsBack, pairs]
  · have order := List.perm_insertionSort (fun left right => left.1 ≤ right.1) envelope.row.entries
    have distinct : (columns.map Prod.fst).Nodup := by
      rw [← sorted, List.map_map]
      exact (order.map Prod.fst).nodup_iff.mpr envelope.row.distinct
    have entries : ((Dict.empty : Dict String Value).sets columns).entries = columns :=
      Dict.entries_sets distinct
    dsimp only
    rw [entries, ← sorted]
    exact order.map _

theorem readLines {rows : List (Envelope × Faults)}
    (linesRead : ∀ row ∈ rows, ∀ document, row.1.document registry = some document →
      json.loads (json.dumps document) = some document ∧ 10 ∉ json.dumps document)
    (whole : ∀ row ∈ rows, ∀ entry ∈ row.1.row.entries, entry.2.value.wholeMicros = true)
    (lined : ∀ row ∈ rows, row.1.line json registry ≠ []) :
    ∃ records, (rows.map fun row => row.1.line json registry).mapM (readLine json registry) =
      some records ∧ List.Forall₂ ReadsAs (rows.map Prod.fst) records := by
  induction rows with
  | nil => exact ⟨[], rfl, .nil⟩
  | cons row rows ih =>
      rw [List.forall_mem_cons] at linesRead whole lined
      obtain ⟨document, isDocument, isLine⟩ := line_document lined.1
      obtain ⟨record, read, reads⟩ :=
        readLine_document isDocument whole.1 (linesRead.1 document isDocument).1
      obtain ⟨records, later, related⟩ := ih linesRead.2 whole.2 lined.2
      refine ⟨record :: records, ?_, .cons reads related⟩
      rw [List.map_cons, List.mapM_cons, isLine, read, later]
      rfl

theorem lines_oneLine {rows : List (Envelope × Faults)}
    (linesRead : ∀ row ∈ rows, ∀ document, row.1.document registry = some document →
      json.loads (json.dumps document) = some document ∧ 10 ∉ json.dumps document)
    (lined : ∀ row ∈ rows, row.1.line json registry ≠ []) :
    ∀ line ∈ rows.map (fun row => row.1.line json registry), 10 ∉ line := by
  intro line member
  obtain ⟨row, inRows, rfl⟩ := List.mem_map.mp member
  obtain ⟨document, isDocument, isLine⟩ := line_document (lined row inRows)
  rw [isLine]
  exact (linesRead row inRows document isDocument).2

theorem joinLines_eq (lines : List Bytes) : joinLines lines = [10].intercalate lines := by
  induction lines with
  | nil => rfl
  | cons line lines ih =>
      cases lines with
      | nil => simp [joinLines]
      | cons next rest => rw [joinLines, ih, List.intercalate_cons_cons]; simp

theorem readToken_encrypts {lines : List Bytes} {token : Bytes}
    (inverts : ∀ draw payload, store.decrypt (store.encrypt draw payload) = some payload)
    (oneLine : ∀ line ∈ lines, 10 ∉ line) (encrypts : Encrypts store lines token) :
    readToken store json registry token = lines.mapM (readLine json registry) := by
  obtain ⟨nonempty, draw, rfl⟩ := encrypts
  rw [readToken, inverts, joinLines_eq]
  change (List.splitOn 10 ([10].intercalate lines)).mapM _ = _
  rw [List.splitOn_intercalate 10 oneLine nonempty]

theorem mapM_readToken {groups : List (List Bytes)} {tokens : List Bytes} {records : List Record}
    (inverts : ∀ draw payload, store.decrypt (store.encrypt draw payload) = some payload)
    (oneLine : ∀ line ∈ groups.flatten, 10 ∉ line)
    (encrypted : List.Forall₂ (Encrypts store) groups tokens)
    (lines : groups.flatten.mapM (readLine json registry) = some records) :
    ∃ lists, tokens.mapM (readToken store json registry) = some lists ∧ lists.flatten = records := by
  obtain ⟨lists, read, flat⟩ := mapM_flatten_some lines
  refine ⟨lists, ?_, flat⟩
  rw [← read]
  clear read lines
  induction encrypted with
  | nil => rfl
  | cons encrypts encrypted ih =>
      rename_i group token groups tokens
      rw [List.flatten_cons] at oneLine
      rw [List.mapM_cons, List.mapM_cons,
        readToken_encrypts inverts (fun line member => oneLine line (List.mem_append_left _ member))
          encrypts,
        ih fun line member => oneLine line (List.mem_append_right _ member)]

end Lines

/-- What a blob's digest covers. -/
def bodyOf (json : JsonCodec) (blob : Bytes) : Option Bytes :=
  (sections json blob).map fun found => blob.take found.2.2

def digestOf (json : JsonCodec) (blob : Bytes) : Option Json := do
  (← sections json blob).2.1.member "sha256"

section Artifact

variable {store : Store} {json : JsonCodec} {registry : Registry} {policy : Policy}
  {header : Header} {rows : List (Envelope × Faults)} {faults : Faults} {file : Bytes}
  {receipt : Receipt}

theorem artifact_layout
    (written : artifact store json registry policy header rows faults = some (file, receipt)) :
    ∃ headFrame, Frames (json.dumps header.document) headFrame ∧
      (∀ row ∈ rows, row.1.line json registry ≠ []) ∧
      SealedFile store (magic ++ headFrame) (rows.map fun row => row.1.line json registry)
        receipt file := by
  rw [artifact] at written
  simp only [Option.bind_eq_bind, Option.bind_eq_some_iff, headBytes, Option.map_eq_some_iff]
    at written
  obtain ⟨start, ⟨headFrame, framing, rfl⟩, session, wrote, last⟩ := written
  obtain ⟨nonempty, lines⟩ := (opened_written (magic ++ headFrame)).writeRows wrote
  split at last
  · rename_i after given sealing
    obtain ⟨content, final, layout⟩ := lines.sealSession sealing
    rw [final, Option.map_some, Option.some.injEq, Prod.mk.injEq] at last
    obtain ⟨rfl, rfl⟩ := last
    exact ⟨headFrame, framing, nonempty, layout⟩
  · cases last

variable (store json registry) in
theorem openArtifact_verified {admits : Json → Bool} {blob : Bytes} {document : Json}
    {tokens : List Bytes} (headed : readHeader json blob = some document)
    (admitted : admits document = true) (verified : verify store json blob = some tokens) :
    openArtifact store json registry admits blob =
      (tokens.mapM (readToken store json registry)).map List.flatten := by
  rw [openArtifact, headed]
  simp only [Option.bind_eq_bind, Option.bind_some, admitted, if_true, verified]
  cases tokens.mapM (readToken store json registry) with
  | none => rfl
  | some lists => rfl

theorem openArtifact_verifies {admits : Json → Bool} {blob : Bytes} {records : List Record}
    (accepted : openArtifact store json registry admits blob = some records) :
    ∃ tokens, verify store json blob = some tokens := by
  rw [openArtifact] at accepted
  simp only [Option.bind_eq_bind, Option.bind_eq_some_iff] at accepted
  obtain ⟨document, -, admitted⟩ := accepted
  split at admitted
  · simp only [Option.bind_eq_some_iff] at admitted
    obtain ⟨tokens, verified, -⟩ := admitted
    exact ⟨tokens, verified⟩
  · cases admitted

variable (json) in
theorem verify_of_digest {blob : Bytes} {tokens : List Bytes} {trailer : Json} {bodyEnd : Nat}
    {digest : List Char} (walked : sections json blob = some (tokens, trailer, bodyEnd))
    (named : trailer.member "sha256" = some (.text (String.ofList digest)))
    (matched : digest = store.sha256 (blob.take bodyEnd)) :
    verify store json blob = some tokens := by
  rw [verify, walked]
  simp only [Option.bind_eq_bind, Option.bind_some, named, String.toList_ofList, matched, if_true]

theorem verify_cases {blob : Bytes} {tokens : List Bytes}
    (verified : verify store json blob = some tokens) :
    ∃ trailer bodyEnd digest, sections json blob = some (tokens, trailer, bodyEnd) ∧
      trailer.member "sha256" = some (.text digest) ∧
      digest.toList = store.sha256 (blob.take bodyEnd) := by
  rw [verify] at verified
  simp only [Option.bind_eq_bind, Option.bind_eq_some_iff] at verified
  obtain ⟨⟨walked, trailer, bodyEnd⟩, found, body, named, checked⟩ := verified
  split at checked
  · rename_i digest
    split at checked
    · rename_i matched
      obtain rfl := Option.some.inj checked
      exact ⟨trailer, bodyEnd, digest, found, named, matched⟩
    · cases checked
  · cases checked

theorem receipt_digest (receipt : Receipt) :
    receipt.document.member "sha256" = some (.text (String.ofList receipt.digest)) := by
  simp [Receipt.document, Json.member, List.lookup_cons]

theorem tokens_of_body {headFrame : Bytes} {tokens frames found : List Bytes} {blob : Bytes}
    {trailer : Json} {bodyEnd : Nat} (framing : Frames (json.dumps header.document) headFrame)
    (framed : List.Forall₂ Frames tokens frames) (nonempty : ∀ token ∈ tokens, token ≠ [])
    (walked : sections json blob = some (found, trailer, bodyEnd))
    (body : blob.take bodyEnd = magic ++ headFrame ++ frames.flatten) :
    found = tokens ∧ ∃ rest, blob = magic ++ headFrame ++ rest := by
  obtain ⟨rest, isBlob⟩ : ∃ rest, blob = magic ++ headFrame ++ frames.flatten ++ rest :=
    ⟨blob.drop bodyEnd, by rw [← body, List.take_append_drop]⟩
  have start : blob = magic ++ headFrame ++ (frames.flatten ++ rest) := by
    rw [isBlob, List.append_assoc]
  refine ⟨?_, _, start⟩
  rw [start, sections_start framing, ← start, isBlob, framesFrom_frames framed nonempty] at walked
  obtain ⟨⟨later, trailer', bodyEnd'⟩, tail, same⟩ := Option.map_eq_some_iff.mp walked
  simp only [Prod.mk.injEq] at same
  obtain ⟨rfl, rfl, rfl⟩ := same
  obtain ⟨-, upper, longer⟩ := framesWithin_bodyEnd tail
  rw [← isBlob] at upper
  have length := congrArg List.length body
  rw [List.length_take, Nat.min_eq_left upper] at length
  have none : later = [] := by
    by_contra some
    exact absurd length (Nat.ne_of_gt (longer some))
  rw [none, List.append_nil]

theorem encrypts_nonempty (nonempty : ∀ draw payload, store.encrypt draw payload ≠ [])
    {groups : List (List Bytes)} {tokens : List Bytes}
    (encrypted : List.Forall₂ (Encrypts store) groups tokens) : ∀ token ∈ tokens, token ≠ [] := by
  induction encrypted with
  | nil => exact List.forall_mem_nil _
  | cons encrypts encrypted ih =>
      obtain ⟨-, draw, rfl⟩ := encrypts
      exact List.forall_mem_cons.mpr ⟨nonempty draw _, ih⟩

end Artifact

/-- A sealed file whose header and trailer are read. -/
structure Readable (store : Store) (json : JsonCodec) (header : Header) (receipt : Receipt)
    (tokens : List Bytes) (file : Bytes) (body : Bytes) : Prop where
  headerReads : json.Reads (json.dumps header.document) header.document
  trailerReads : json.Reads (trailerBytes receipt) receipt.document
  filled : ∀ token ∈ tokens, token ≠ []
  digest : receipt.digest = store.sha256 body
  parts : ∃ headFrame frames trailer, Frames (json.dumps header.document) headFrame ∧
    List.Forall₂ Frames tokens frames ∧ Frames (trailerBytes receipt) trailer ∧
    body = magic ++ headFrame ++ frames.flatten ∧ file = body ++ ([0, 0, 0, 0] ++ trailer)

namespace Readable

variable {store : Store} {json : JsonCodec} {registry : Registry} {header : Header}
  {receipt : Receipt} {tokens : List Bytes} {file body : Bytes} {admits : Json → Bool}

theorem headed (readable : Readable store json header receipt tokens file body) :
    readHeader json file = some header.document := by
  obtain ⟨headFrame, frames, trailer, framing, -, -, rfl, rfl⟩ := readable.parts
  rw [List.append_assoc _ frames.flatten]
  exact readHeader_start framing readable.headerReads _

theorem walked (readable : Readable store json header receipt tokens file body) :
    sections json file = some (tokens, receipt.document, body.length) ∧
      file.take body.length = body := by
  obtain ⟨headFrame, frames, trailer, framing, framed, trailing, rfl, rfl⟩ := readable.parts
  refine ⟨?_, List.take_left⟩
  have start : magic ++ headFrame ++ frames.flatten ++ ([0, 0, 0, 0] ++ trailer) =
      magic ++ headFrame ++ (frames.flatten ++ ([0, 0, 0, 0] ++ trailer)) := by
    rw [List.append_assoc _ frames.flatten]
  rw [start, sections_start framing, ← start, framesFrom_frames framed readable.filled,
    framesFrom_ending trailing readable.trailerReads, Option.map_some, List.append_nil]

theorem opened (readable : Readable store json header receipt tokens file body)
    (admitted : admits header.document = true) :
    openArtifact store json registry admits file =
      (tokens.mapM (readToken store json registry)).map List.flatten := by
  obtain ⟨walked, taken⟩ := readable.walked
  apply openArtifact_verified store json registry readable.headed admitted
  apply verify_of_digest json walked (receipt_digest receipt)
  rw [taken, readable.digest]

theorem cut (readable : Readable store json header receipt tokens file body) {count : Nat}
    (short : count < file.length) :
    openArtifact store json registry admits (file.take count) = none := by
  obtain ⟨headFrame, frames, trailer, framing, framed, trailing, rfl, rfl⟩ := readable.parts
  rw [List.append_assoc _ frames.flatten] at short ⊢
  by_cases inHead : count < (magic ++ headFrame).length
  · rw [List.take_append_of_le_length (by omega), openArtifact,
      readHeader_cut framing readable.headerReads inHead]
    rfl
  · have kept : (magic ++ headFrame ++ (frames.flatten ++ ([0, 0, 0, 0] ++ trailer))).take count =
        magic ++ headFrame ++ (frames.flatten ++ ([0, 0, 0, 0] ++ trailer)).take
          (count - (magic ++ headFrame).length) := by
      rw [List.take_append, List.take_of_length_le (by omega)]
    have left : count - (magic ++ headFrame).length <
        (frames.flatten ++ ([0, 0, 0, 0] ++ trailer)).length := by
      rw [List.length_append] at short
      omega
    have lost := framesFrom_cut framed readable.filled trailing readable.trailerReads
      (magic ++ headFrame) left
    have unverified : verify store json (magic ++ headFrame ++ (frames.flatten ++
        ([0, 0, 0, 0] ++ trailer)).take (count - (magic ++ headFrame).length)) = none := by
      rw [verify, sections_start framing, lost]
      rfl
    rw [kept, openArtifact, readHeader_start framing readable.headerReads]
    simp only [Option.bind_eq_bind, Option.bind_some, unverified, Option.bind_none, ite_self]

theorem sameBody (readable : Readable store json header receipt tokens file body) {blob : Bytes}
    {records : List Record} (admitted : admits header.document = true)
    (accepted : openArtifact store json registry admits blob = some records)
    {found : List Bytes} {trailer : Json} {bodyEnd : Nat}
    (walked : sections json blob = some (found, trailer, bodyEnd))
    (verified : verify store json blob = some found) (same : blob.take bodyEnd = body) :
    openArtifact store json registry admits file = some records := by
  obtain ⟨headFrame, frames, _, framing, framed, -, isBody, -⟩ := readable.parts
  obtain ⟨rfl, rest, rfl⟩ := tokens_of_body framing framed readable.filled walked
    (same.trans isBody)
  rw [readable.opened admitted, ← accepted]
  symm
  exact openArtifact_verified store json registry
    (readHeader_start framing readable.headerReads rest) admitted verified

end Readable

theorem openArtifact_sealed {store : Store} {json : JsonCodec} {registry : Registry}
    {admits : Json → Bool} {blob : Bytes} {records : List Record}
    (accepted : openArtifact store json registry admits blob = some records) :
    ∃ body, bodyOf json blob = some body ∧
      digestOf json blob = some (.text (String.ofList (store.sha256 body))) := by
  obtain ⟨found, verified⟩ := openArtifact_verifies accepted
  obtain ⟨trailer, bodyEnd, digest, walked, named, matched⟩ := verify_cases verified
  refine ⟨blob.take bodyEnd, by rw [bodyOf, walked]; rfl, ?_⟩
  rw [digestOf, walked, ← matched, String.ofList_toList]
  exact named

/-- Rows whose instants and durations are whole microseconds come back as they were written, in
order, whatever the thresholds of a flush; a file cut short is refused; a file is accepted only
with the digest of its own body; and one that is accepted with the receipt's digest gives the same
records, or its body has the digest of another body. -/
theorem sealed_artifact_reads_back {store : Store} {json : JsonCodec} {registry : Registry}
    {policy : Policy} {header : Header} {rows : List (Envelope × Faults)} {faults : Faults}
    {file : Bytes} {receipt : Receipt} (admits : Json → Bool)
    (inverts : ∀ draw payload, store.decrypt (store.encrypt draw payload) = some payload)
    (nonempty : ∀ draw payload, store.encrypt draw payload ≠ [])
    (headerReads : json.Reads (json.dumps header.document) header.document)
    (trailerReads : json.Reads (trailerBytes receipt) receipt.document)
    (linesRead : ∀ row ∈ rows, ∀ document, row.1.document registry = some document →
      json.loads (json.dumps document) = some document ∧ 10 ∉ json.dumps document)
    (whole : ∀ row ∈ rows, ∀ entry ∈ row.1.row.entries, entry.2.value.wholeMicros = true)
    (admitted : admits header.document = true)
    (written : artifact store json registry policy header rows faults = some (file, receipt)) :
    (∃ records, openArtifact store json registry admits file = some records ∧
      List.Forall₂ ReadsAs (rows.map Prod.fst) records) ∧
    (∀ count < file.length, openArtifact store json registry admits (file.take count) = none) ∧
    (∀ other records, openArtifact store json registry admits other = some records →
      digestOf json other = some (.text (String.ofList receipt.digest)) →
      openArtifact store json registry admits file = some records ∨
      ∃ body otherBody, bodyOf json file = some body ∧ bodyOf json other = some otherBody ∧
        otherBody ≠ body ∧ store.sha256 otherBody = store.sha256 body) ∧
    ∀ other records, openArtifact store json registry admits other = some records →
      ∃ body, bodyOf json other = some body ∧
        digestOf json other = some (.text (String.ofList (store.sha256 body))) := by
  obtain ⟨headFrame, framing, lined, layout⟩ := artifact_layout written
  obtain ⟨groups, tokens, frames, trailer, encrypted, framed, lines, trailing, digest, isFile⟩ :=
    layout.layout
  have readable : Readable store json header receipt tokens file
      (magic ++ headFrame ++ frames.flatten) :=
    ⟨headerReads, trailerReads, encrypts_nonempty nonempty encrypted, digest,
      headFrame, frames, trailer, framing, framed, trailing, rfl, isFile⟩
  refine ⟨?_, fun count short => readable.cut short, ?_, fun _ _ => openArtifact_sealed⟩
  · obtain ⟨records, read, related⟩ := readLines linesRead whole lined
    rw [← lines] at read
    have oneLine : ∀ line ∈ groups.flatten, 10 ∉ line := by
      rw [lines]
      exact lines_oneLine linesRead lined
    obtain ⟨lists, tokensRead, flat⟩ := mapM_readToken inverts oneLine encrypted read
    refine ⟨records, ?_, related⟩
    rw [readable.opened admitted, tokensRead, Option.map_some, flat]
  · intro other records accepted sameDigest
    obtain ⟨found, verified⟩ := openArtifact_verifies accepted
    obtain ⟨otherTrailer, bodyEnd, named, otherWalked, member, matched⟩ := verify_cases verified
    obtain ⟨walked, taken⟩ := readable.walked
    have digests : named.toList = receipt.digest := by
      rw [digestOf, otherWalked] at sameDigest
      have texts := member.symm.trans sameDigest
      simp only [Option.some.injEq, Json.text.injEq] at texts
      rw [texts, String.toList_ofList]
    by_cases same : other.take bodyEnd = magic ++ headFrame ++ frames.flatten
    · exact Or.inl (readable.sameBody admitted accepted otherWalked verified same)
    · refine Or.inr ⟨_, other.take bodyEnd, ?_, ?_, same, ?_⟩
      · rw [bodyOf, walked, Option.map_some, taken]
      · rw [bodyOf, otherWalked, Option.map_some]
      · rw [← matched, digests, digest]

namespace Sample

def registry : Registry := ⟨fun _ _ => none, nofun⟩

def row : Dict String Cell :=
  ⟨[("a", ⟨.bytes [0, 255], by decide⟩), ("b", ⟨.int 1, by decide⟩)], by decide⟩

def envelope (position : Int) : Envelope := ⟨"t", position, [], row⟩

def header : Header := ⟨"k1", "o", "r", .number (.finite false ⟨0, -1074, by decide, by decide,
  by decide, Or.inr rfl⟩), .number (.finite false ⟨0, -1074, by decide, by decide, by decide,
  Or.inr rfl⟩), "s"⟩

/-- A text given in pieces. -/
def bytes (pieces : List String) : Bytes := pieces.flatMap utf8

def headerText : Bytes := bytes [
  "\x7b\"created_at\": ", "0.0, ", "\"expires_at\": ", "0.0, \"format\": ",
  "\"decoy-quarantine/v1\", ", "\"key_version\": ", "\"k1\", \"owner\": ", "\"o\", ",
  "\"protection\": ", "\"encrypted\", ", "\"run\": \"r\", ", "\"token_salt\": \"s\"\x7d"]

def lineText (position : String) : Bytes := bytes [
  "\x7b\"reasons\": [], ", "\"row\": \x7b\"a\": ", "\x7b\"$hex\": ", "\"00ff\"\x7d, ", "\"b\": 1\x7d, ",
  "\"row_position\": ", position, ", \"table\": \"t\"\x7d"]

def flatDocument (members : List FlatJson.Member) : Json :=
  .object (members.map fun member => (String.ofList member.1,
    match member.2 with
    | .number value => .int value
    | .text chars => .text (String.ofList chars)))

def lineDocument (position : Int) : Json := ((envelope position).document registry).getD .null

/-- The texts of the documents of this example. -/
def json : JsonCodec where
  dumps
    | .object [_, _, (_, .int 0), _] => lineText "0"
    | .object [_, _, (_, .int _), _] => lineText "1"
    | _ => headerText
  loads text :=
    if text = headerText then some header.document
    else if text = lineText "0" then some (lineDocument 0)
    else if text = lineText "1" then some (lineDocument 1)
    else (FlatJson.loads (text.map fun byte => Char.ofNat byte.toNat)).map flatDocument

def store (sha256 : Bytes → List Char) : Store :=
  { encrypt := fun _ payload => 128 :: payload, decrypt := List.tail?, sha256
    chunkRows := 1, chunkBytes := 1048576 }

def policy : Policy := ⟨2, 1000⟩

def rows : List (Envelope × Faults) := [(envelope 0, Faults.clear 0), (envelope 1, Faults.clear 1)]

/-- A digest that tells bodies of different lengths apart. -/
def digest (body : Bytes) : List Char := natText body.length

def written : Option (Bytes × Receipt) :=
  artifact (store digest) json registry policy header rows (Faults.clear 2)

/-- The file without its last token, under a new digest; the count of the rows is left. -/
def resealed (file : Bytes) (bodyEnd : Nat) : Bytes :=
  file.take bodyEnd ++ ([0, 0, 0, 0] ++
    (frame (trailerBytes ⟨2, 176, digest (file.take bodyEnd)⟩)).getD [])

def receipt : Receipt := ⟨2, 176, ['3', '5', '9']⟩

theorem written_receipt : written.map Prod.snd = some receipt := by decide +kernel

theorem loads_eq (text : Bytes) : json.loads text =
    if text = headerText then some header.document
    else if text = lineText "0" then some (lineDocument 0)
    else if text = lineText "1" then some (lineDocument 1)
    else (FlatJson.loads (text.map fun byte => Char.ofNat byte.toNat)).map flatDocument := rfl

theorem dumps_header : json.dumps header.document = headerText := rfl

/-- The brace closes the texts of this example and stands nowhere else in the first two; the
texts differ, and those of the rows are lines. -/
theorem texts_spec :
    (125 ∉ headerText.dropLast ∧ 125 ∉ (trailerBytes receipt).dropLast) ∧
    (125 ∈ headerText ∧ 125 ∈ lineText "0" ∧ 125 ∈ lineText "1") ∧
    (10 ∉ lineText "0" ∧ 10 ∉ lineText "1") ∧
    (lineText "0" ≠ headerText ∧ lineText "1" ≠ headerText ∧ lineText "1" ≠ lineText "0") ∧
    trailerBytes receipt ≠ headerText ∧ trailerBytes receipt ≠ lineText "0" ∧
    trailerBytes receipt ≠ lineText "1" ∧
    FlatJson.loads ((trailerBytes receipt).map fun byte => Char.ofNat byte.toNat) =
      some (trailerMembers receipt) := by
  decide +kernel

theorem loads_unclosed {text : Bytes} (unclosed : 125 ∉ text) : json.loads text = none := by
  obtain ⟨-, ⟨header, first, second⟩, -⟩ := texts_spec
  have other {known : Bytes} (ends : 125 ∈ known) : text ≠ known :=
    fun same => unclosed (same ▸ ends)
  rw [loads_eq, if_neg (other header), if_neg (other first), if_neg (other second),
    Option.map_eq_none_iff, Option.eq_none_iff_forall_ne_some]
  intro object loaded
  obtain ⟨byte, member, brace⟩ := List.mem_map.mp (FlatJson.loads_closes loaded)
  have small := byte.toNat_lt
  have valid : byte.toNat.isValidChar := Or.inl (by omega)
  have code := congrArg Char.toNat brace
  rw [Char.ofNat, dif_pos valid] at code
  exact unclosed ((UInt8.toNat_inj.mp code : byte = 125) ▸ member)

theorem loads_cut {text : Bytes} (once : 125 ∉ text.dropLast) {count : Nat}
    (short : count < text.length) : json.loads (text.take count) = none := by
  refine loads_unclosed fun member => once ?_
  rw [List.dropLast_eq_take]
  exact List.take_subset_take_left text (Nat.le_sub_one_of_lt short) member

theorem headerReads : json.Reads (json.dumps header.document) header.document := by
  rw [dumps_header]
  constructor
  · rw [loads_eq, if_pos rfl]
  · intro count short
    exact loads_cut texts_spec.1.1 short

theorem trailerReads : json.Reads (trailerBytes receipt) receipt.document := by
  obtain ⟨once, -, -, -, header, first, second, members⟩ := texts_spec
  constructor
  · rw [loads_eq, if_neg header, if_neg first, if_neg second, members]
    rfl
  · intro count short
    exact loads_cut once.2 short

theorem linesRead : ∀ row ∈ rows, ∀ document, row.1.document registry = some document →
    json.loads (json.dumps document) = some document ∧ 10 ∉ json.dumps document := by
  obtain ⟨-, -, oneLine, apart, -⟩ := texts_spec
  intro row member document isDocument
  rcases List.mem_cons.mp member with rfl | member
  · obtain rfl : lineDocument 0 = document := Option.some.inj isDocument
    have dumped : json.dumps (lineDocument 0) = lineText "0" := rfl
    rw [dumped]
    exact ⟨by rw [loads_eq, if_neg apart.1, if_pos rfl], oneLine.1⟩
  · obtain rfl := List.mem_singleton.mp member
    obtain rfl : lineDocument 1 = document := Option.some.inj isDocument
    have dumped : json.dumps (lineDocument 1) = lineText "1" := rfl
    rw [dumped]
    exact ⟨by rw [loads_eq, if_neg apart.2.1, if_neg apart.2.2, if_pos rfl], oneLine.2⟩

end Sample

theorem sealed_artifact_reads_back_two_rows :
    ∃ file, Sample.written = some (file, Sample.receipt) ∧
      (∃ records,
        openArtifact (Sample.store Sample.digest) Sample.json Sample.registry (fun _ => true) file =
          some records ∧
        List.Forall₂ ReadsAs (Sample.rows.map Prod.fst) records) ∧
      ∀ count < file.length, openArtifact (Sample.store Sample.digest) Sample.json Sample.registry
        (fun _ => true) (file.take count) = none := by
  obtain ⟨⟨file, receipt⟩, made, isReceipt⟩ := Option.map_eq_some_iff.mp Sample.written_receipt
  dsimp only at isReceipt
  subst isReceipt
  have whole : ∀ row ∈ Sample.rows, ∀ entry ∈ row.1.row.entries,
      entry.2.value.wholeMicros = true := by decide +kernel
  have read := sealed_artifact_reads_back (fun _ => true) (fun _ _ => rfl)
    (fun _ _ => List.cons_ne_nil _ _) Sample.headerReads Sample.trailerReads Sample.linesRead whole
    rfl made
  exact ⟨file, made, read.1, read.2.1⟩

/-- Two rows are sealed; without its last token and with its digest made again the file is
accepted, and gives one. -/
theorem resealed_file_reads_shorter :
    Sample.written.map (fun made => (made.2.rows,
      (openArtifact (Sample.store Sample.digest) Sample.json Sample.registry (fun _ => true)
        (Sample.resealed made.1 266)).map List.length)) = some (2, some 1) := by
  decide +kernel

end DecoyEngine.DeclaredCasting.Quarantine
