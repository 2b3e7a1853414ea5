import DecoyEngine.Data.ByteFrames
import DecoyEngine.Data.FlatJson
import DecoyEngine.Determinism.Derive

namespace DecoyEngine.DeclaredCasting.Quarantine

open DecoyEngine.Data DecoyEngine.Determinism

/-! The protected quarantine store (`declared_casting/_quarantine_local.py`) and the part of the
cast boundary that holds its session (`_boundary.py`).

A session writes one file, by its two names: the partial file until it is sealed, the final file
from then on.  Every system call can fail; what fails is part of the input. -/

structure Store where
  /-- Fernet under the store's key, with a draw of its own for each token. -/
  encrypt : Nat → Bytes → Bytes
  decrypt : Bytes → Option Bytes
  /-- `hashlib.sha256(...).hexdigest()`. -/
  sha256 : Bytes → List Char
  chunkRows : Nat
  chunkBytes : Nat

structure Policy where
  maxRows : Nat
  maxBytes : Nat
deriving Repr, DecidableEq

structure Session where
  /-- `state.fd >= 0`. -/
  fdOpen : Bool
  partialFile : Option Bytes
  finalFile : Option Bytes
  hashed : Bytes
  rows : Nat
  plainBytes : Nat
  buffer : List Bytes
  bufferBytes : Nat
deriving Repr, DecidableEq

/-- One operation's system calls: which of them succeed, and how many bytes of a failed write
reach the file. -/
structure Faults where
  draw : Nat
  encrypted : Bool
  appendStops : Option Nat
  trailerStops : Option Nat
  synced : Bool
  closed : Bool
  renamed : Bool
  directorySynced : Bool
  cleanupClosed : Bool
  partialUnlinked : Bool
  finalUnlinked : Bool
  located : Bool
deriving Repr, DecidableEq

inductive CleanupState where
  | notNeeded | confirmed | failed
deriving Repr, DecidableEq

structure Receipt where
  rows : Nat
  bytes : Nat
  digest : List Char
deriving Repr, DecidableEq

inductive Outcome where
  | done
  | writeFailed (budget : Bool) (cleanup : CleanupState)
  | sealFailed (cleanup : CleanupState)
  | sealed (receipt : Receipt)
  | aborted (cleanup : CleanupState)
deriving Repr, DecidableEq

/-- The code and the message of the error raised. -/
def Outcome.error : Outcome → Option (String × String)
  | .writeFailed true _ => some ("protected_quarantine_write_failed", "quarantine budget exceeded.")
  | .writeFailed false _ => some ("protected_quarantine_write_failed", "quarantine write failed.")
  | .sealFailed _ => some ("protected_quarantine_seal_failed", "quarantine could not be sealed.")
  | _ => none

/-- `_write_all`: an unlinked file is written on without a name. -/
def writeAll (session : Session) (data : Bytes) (stops : Option Nat) : Session × Bool :=
  if session.fdOpen then
    match stops with
    | none => ({ session with partialFile := session.partialFile.map (· ++ data) }, true)
    | some landed =>
        ({ session with partialFile := session.partialFile.map (· ++ data.take landed) }, false)
  else (session, false)

/-- `_cleanup`: a name that is not there counts as removed. -/
def cleanup (session : Session) (faults : Faults) : Session × CleanupState :=
  let session := { session with fdOpen := session.fdOpen && !faults.cleanupClosed }
  if faults.partialUnlinked then
    let session := { session with partialFile := none }
    if faults.finalUnlinked then ({ session with finalFile := none }, .confirmed)
    else (session, .failed)
  else (session, .failed)

/-- `b"\n".join(lines)`. -/
def joinLines : List Bytes → Bytes
  | [] => []
  | [line] => line
  | line :: next :: rest => line ++ 10 :: joinLines (next :: rest)

def failWrite (session : Session) (budget : Bool) (faults : Faults) : Session × Outcome :=
  let (session, state) := cleanup session faults
  (session, .writeFailed budget state)

section Operations

variable (store : Store)

def flush (session : Session) (faults : Faults) : Session × Outcome :=
  if session.buffer = [] then (session, .done)
  else
    let payload := joinLines session.buffer
    let session := { session with buffer := [], bufferBytes := 0 }
    match if faults.encrypted then frame (store.encrypt faults.draw payload) else none with
    | none => failWrite session false faults
    | some bytes =>
        match writeAll session bytes faults.appendStops with
        | (session, true) => ({ session with hashed := session.hashed ++ bytes }, .done)
        | (session, false) => failWrite session false faults

/-- An empty line is a row that could not be encoded. -/
def writeRow (policy : Policy) (session : Session) (line : Bytes) (faults : Faults) :
    Session × Outcome :=
  if line = [] then failWrite session false faults
  else if policy.maxRows < session.rows + 1 ∨ policy.maxBytes < session.plainBytes + line.length then
    failWrite session true faults
  else
    let session := { session with
      rows := session.rows + 1
      plainBytes := session.plainBytes + line.length
      buffer := session.buffer ++ [line]
      bufferBytes := session.bufferBytes + line.length }
    if store.chunkRows ≤ session.buffer.length ∨ store.chunkBytes ≤ session.bufferBytes then
      flush store session faults
    else (session, .done)

/-- The members in the order of `sort_keys`. -/
def trailerMembers (receipt : Receipt) : List FlatJson.Member :=
  [("bytes".toList, .number receipt.bytes), ("rows".toList, .number receipt.rows),
   ("sha256".toList, .text receipt.digest)]

def trailerBytes (receipt : Receipt) : Bytes :=
  utf8 (String.ofList (FlatJson.dumps (trailerMembers receipt)))

/-- `os.replace` of the partial file, and the sync of its directory. -/
def publishAtomic (session : Session) (faults : Faults) : Session × Bool :=
  match session.partialFile with
  | none => (session, false)
  | some content =>
      if faults.renamed then
        ({ session with partialFile := none, finalFile := some content }, faults.directorySynced)
      else (session, false)

def writeTrailer (session : Session) (receipt : Receipt) (faults : Faults) : Session × Bool :=
  match frame (trailerBytes receipt) with
  | none => (session, false)
  | some bytes =>
      match writeAll session ([0, 0, 0, 0] ++ bytes) faults.trailerStops with
      | (session, false) => (session, false)
      | (session, true) =>
          if faults.synced && faults.closed then
            publishAtomic { session with fdOpen := false } faults
          else (session, false)

/-- `seal`; the name is a keyword. -/
def sealSession (session : Session) (faults : Faults) : Session × Outcome :=
  match flush store session faults with
  | (session, .done) =>
      let receipt := ⟨session.rows, session.plainBytes, store.sha256 session.hashed⟩
      match writeTrailer session receipt faults with
      | (session, true) => (session, .sealed receipt)
      | (session, false) =>
          let (session, state) := cleanup session faults
          (session, .sealFailed state)
  | failed => failed

def abort (session : Session) (faults : Faults) : Session × Outcome :=
  let (session, state) := cleanup session faults
  (session, .aborted state)

/-- A session right after `begin`: the partial file holds the head. -/
def opened (head : Bytes) : Session :=
  { fdOpen := true, partialFile := some head, finalFile := none, hashed := head, rows := 0
    plainBytes := 0, buffer := [], bufferBytes := 0 }

inductive Operation where
  | writeRow (line : Bytes)
  | flush
  | sealSession
  | abort
deriving Repr, DecidableEq

def step (policy : Policy) (session : Session) (event : Operation × Faults) : Session × Outcome :=
  match event.1 with
  | .writeRow line => writeRow store policy session line event.2
  | .flush => flush store session event.2
  | .sealSession => sealSession store session event.2
  | .abort => abort session event.2

def run (policy : Policy) (session : Session) (events : List (Operation × Faults)) : Session :=
  events.foldl (fun session event => (step store policy session event).1) session

end Operations

/-- The handles of a run on its quarantine. -/
structure Boundary where
  session : Session
  holdsSession : Bool
  holdsReceipt : Bool
  lastCleanup : CleanupState
deriving Repr, DecidableEq

namespace Boundary

variable (store : Store)

def start (head : Bytes) : Boundary :=
  { session := opened head, holdsSession := true, holdsReceipt := false, lastCleanup := .notNeeded }

/-- A row of `_write_rows`, through the open session.  Its callers seal last: no row follows the
seal, where the source would begin another session with names of its own. -/
def writeRow (policy : Policy) (boundary : Boundary) (line : Bytes) (faults : Faults) : Boundary :=
  if boundary.holdsSession then
    { boundary with session := (Quarantine.writeRow store policy boundary.session line faults).1 }
  else boundary

/-- `finish`: a seal that raises leaves the session with its holder. -/
def finish (boundary : Boundary) (faults : Faults) : Boundary :=
  if boundary.holdsSession then
    match sealSession store boundary.session faults with
    | (session, .sealed _) =>
        { boundary with session, holdsSession := false, holdsReceipt := true }
    | (session, _) => { boundary with session }
  else boundary

/-- `discard`: only the final name is removed. -/
def discard (session : Session) (faults : Faults) : Session × CleanupState :=
  if faults.located && faults.finalUnlinked then ({ session with finalFile := none }, .confirmed)
  else (session, .failed)

def abortSession (boundary : Boundary) (faults : Faults) : Boundary × CleanupState :=
  if boundary.holdsSession then
    match cleanup boundary.session faults with
    | (session, .confirmed) => ({ boundary with session, holdsSession := false }, .confirmed)
    | (session, _) => ({ boundary with session }, .failed)
  else (boundary, .confirmed)

def abortReceipt (boundary : Boundary) (faults : Faults) : Boundary × CleanupState :=
  if boundary.holdsReceipt then
    match discard boundary.session faults with
    | (session, .confirmed) => ({ boundary with session, holdsReceipt := false }, .confirmed)
    | (session, _) => ({ boundary with session }, .failed)
  else (boundary, .confirmed)

def abort (boundary : Boundary) (faults : Faults) : Boundary × CleanupState :=
  if !boundary.holdsSession && !boundary.holdsReceipt then (boundary, boundary.lastCleanup)
  else
    let (boundary, first) := boundary.abortSession faults
    let (boundary, second) := boundary.abortReceipt faults
    let state := if first = .confirmed ∧ second = .confirmed then .confirmed else .failed
    ({ boundary with lastCleanup := state }, state)

inductive Call where
  | writeRow (line : Bytes)
  | finish
  | abort
deriving Repr, DecidableEq

def step (policy : Policy) (boundary : Boundary) (event : Call × Faults) : Boundary :=
  match event.1 with
  | .writeRow line => boundary.writeRow store policy line event.2
  | .finish => boundary.finish store event.2
  | .abort => (boundary.abort event.2).1

def run (policy : Policy) (boundary : Boundary) (events : List (Call × Faults)) : Boundary :=
  events.foldl (step store policy) boundary

end Boundary

end DecoyEngine.DeclaredCasting.Quarantine
