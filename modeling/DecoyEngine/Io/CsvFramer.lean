import DecoyEngine.Io.CsvMachine

namespace DecoyEngine.Io

/-! The block-wise record framer (`io/csv_framer.py`).

The locals of `iter_csv_records` that live across blocks are `Framer`, with the records
yielded so far; those of one block are `BlockScan`.  A raise carries what was yielded
before it. -/

inductive QuoteState where
  | clean | quoted | afterQuote
deriving Repr, DecidableEq

structure Framer where
  state : QuoteState
  atStart : Bool
  pieces : List Bytes
  recLen : Nat
  index : Nat
  pendingCr : Bool
  yielded : List Bytes
deriving Repr, DecidableEq

structure BlockScan where
  framer : Framer
  pos : Nat
  recStart : Nat
  heldCr : Bool
deriving Repr, DecidableEq

/-- `block[start:end]`. -/
def slice (block : Bytes) (start stop : Nat) : Bytes := (block.take stop).drop start

/-- `block.find(b'"', pos)`. -/
def findQuote (block : Bytes) (pos : Nat) : Option Nat :=
  ((block.drop pos).idxOf? quoteByte).map (fun offset => pos + offset)

/-- The spans of `\r\n|\r|\n` in a region that starts at `pos`. -/
def terminators (pos : Nat) : Bytes → List (Nat × Nat)
  | [] => []
  | first :: rest =>
      if first = crByte then
        match rest with
        | [] => [(pos, pos + 1)]
        | second :: later =>
            if second = lfByte then (pos, pos + 2) :: terminators (pos + 2) later
            else (pos, pos + 1) :: terminators (pos + 1) (second :: later)
      else if first = lfByte then (pos, pos + 1) :: terminators (pos + 1) rest
      else terminators (pos + 1) rest

/-- The locals of the loop over the terminators of a region. -/
structure RegionScan where
  framer : Framer
  recStart : Nat
  cursor : Nat
deriving Repr, DecidableEq

/-- One terminator of the region: the record that ends there is yielded, or refused where it is
larger than the cap. -/
def matchRound (cap : Int) (block : Bytes) (scan : RegionScan) (span : Nat × Nat) :
    Except Framed RegionScan :=
  let framer := scan.framer
  if cap < framer.recLen + (span.1 - scan.recStart : Nat) then
    .error (framer.yielded, .recordTooLarge framer.index)
  else
    let record :=
      if framer.pieces ≠ [] then (framer.pieces ++ [slice block scan.recStart span.2]).flatten
      else slice block scan.recStart span.2
    .ok {
      framer := { framer with
        pieces := []
        recLen := if framer.pieces ≠ [] then 0 else framer.recLen
        yielded := framer.yielded ++ [record]
        index := framer.index + 1
        atStart := true }
      recStart := span.2
      cursor := span.2 }

/-- A round of the scan loop outside quotes: up to the next quote, or to the end of the
block with a CR that ends it held back. -/
def cleanRound (cap : Int) (block : Bytes) (scan : BlockScan) : Except Framed BlockScan := do
  let quote := findQuote block scan.pos
  let held := quote = none ∧ block.getLast? = some crByte
  let scanEnd := if held then block.length - 1 else quote.getD block.length
  let region ← (terminators scan.pos (slice block scan.pos scanEnd)).foldlM (matchRound cap block)
    ⟨scan.framer, scan.recStart, scan.pos⟩
  let atStart :=
    if region.cursor < scanEnd then decide (block[scanEnd - 1]? = some commaByte)
    else region.framer.atStart
  match quote with
  | none =>
      .ok ⟨{ region.framer with atStart := atStart }, block.length, region.recStart, held⟩
  | some quote =>
      if atStart then
        .ok ⟨{ region.framer with atStart := true, state := .quoted }, quote + 1, region.recStart,
          scan.heldCr⟩
      else .ok ⟨{ region.framer with atStart := false }, quote + 1, region.recStart, scan.heldCr⟩

/-- One round of `while pos < n`. -/
def scanRound (cap : Int) (block : Bytes) (scan : BlockScan) : Except Framed BlockScan :=
  match scan.framer.state with
  | .quoted =>
      match findQuote block scan.pos with
      | none => .ok { scan with pos := block.length }
      | some quote =>
          .ok { scan with pos := quote + 1, framer := { scan.framer with state := .afterQuote } }
  | .afterQuote =>
      if block[scan.pos]? = some quoteByte then
        .ok { scan with pos := scan.pos + 1, framer := { scan.framer with state := .quoted } }
      else .ok { scan with framer := { scan.framer with state := .clean, atStart := false } }
  | .clean => cleanRound cap block scan

/-- `while pos < n`; a round moves `pos` or leaves the after-quote state. -/
def scanLoop (cap : Int) (block : Bytes) : Nat → BlockScan → Except Framed BlockScan
  | 0, scan => .ok scan
  | fuel + 1, scan =>
      if scan.pos < block.length then do
        let next ← scanRound cap block scan
        scanLoop cap block fuel next
      else .ok scan

/-- A CR held over from the block before is decided by the first byte of this one. -/
def resumeBlock (framer : Framer) (block : Bytes) (pos : Nat) : BlockScan :=
  if framer.pendingCr then
    let joined := block.head? = some lfByte
    let terminator := if joined then [crByte, lfByte] else [crByte]
    let framer := { framer with
      pendingCr := false
      yielded := framer.yielded ++ [framer.pieces.flatten ++ terminator]
      pieces := []
      recLen := 0
      index := framer.index + 1
      atStart := true
      state := .clean }
    if joined then ⟨framer, max pos 1, 1, false⟩ else ⟨framer, pos, 0, false⟩
  else ⟨framer, pos, 0, false⟩

/-- What is left of the block goes to the pieces of the record in progress. -/
def endBlock (cap : Int) (block : Bytes) (scan : BlockScan) : Except Framed Framer :=
  let bodyEnd := if scan.heldCr then block.length - 1 else block.length
  let framer :=
    if scan.recStart < bodyEnd then
      { scan.framer with
        pieces := scan.framer.pieces ++ [slice block scan.recStart bodyEnd]
        recLen := scan.framer.recLen + (bodyEnd - scan.recStart) }
    else scan.framer
  if cap < framer.recLen then .error (framer.yielded, .recordTooLarge framer.index)
  else .ok { framer with pendingCr := scan.heldCr }

/-- One round of `while True`, for a block that is not empty. -/
def blockRound (cap : Int) (framer : Framer) (first : Bool) (block : Bytes) :
    Except Framed Framer := do
  let pos := if first ∧ bom <+: block then bom.length else 0
  let scan ← scanLoop cap block (2 * block.length + 1) (resumeBlock framer block pos)
  endBlock cap block scan

def blockLoop (cap : Int) : Framer → Bool → List Bytes → Except Framed Framer
  | framer, _, [] => .ok framer
  | framer, first, block :: blocks => do
      let framer ← blockRound cap framer first block
      blockLoop cap framer false blocks

/-- The blocks `fh.read(block_size)` returns until it returns none. -/
def readBlocks (blockSize : Nat) : Nat → Bytes → List Bytes
  | 0, _ => []
  | fuel + 1, rest =>
      if rest = [] then []
      else rest.take blockSize :: readBlocks blockSize fuel (rest.drop blockSize)

/-- The end of the file. -/
def endStream (framer : Framer) : Framed :=
  if framer.pendingCr then
    (framer.yielded ++ [framer.pieces.flatten ++ [crByte]], .finished)
  else if framer.state = .quoted then (framer.yielded, .unterminatedQuote framer.index)
  else if framer.pieces ≠ [] then (framer.yielded ++ [framer.pieces.flatten], .finished)
  else (framer.yielded, .finished)

def Framer.start : Framer := ⟨.clean, true, [], 0, 0, false, []⟩

/-- `iter_csv_records`, `none` for a block size it refuses. -/
def iterCsvRecords (cap : Int) (blockSize : Nat) (stream : Bytes) : Option Framed :=
  if blockSize < 4 then none
  else
    match blockLoop cap Framer.start true (readBlocks blockSize stream.length stream) with
    | .error framed => some framed
    | .ok framer => some (endStream framer)

end DecoyEngine.Io
