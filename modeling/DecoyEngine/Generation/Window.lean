import DecoyEngine.Data.BudgetedPrefix
import DecoyEngine.Data.DecimalText
import DecoyEngine.Data.TextLines

namespace DecoyEngine.Generation.Window

open DecoyEngine.Data

/-! Windowed generation (`generation/window.py`) beside the full run of one table
(`generation/synthesize.py`). `V` holds the values that are not text. -/

/-- What a generator emits: text, or a value Arrow stores in a fixed number of bits. -/
inductive CellType where
  | text
  | fixed (bits : Nat)
deriving Repr, DecidableEq

inductive Cell (V : Type) where
  | null
  | text (value : List Char)
  | fixed (bits : Nat) (value : V)
deriving Repr, DecidableEq

/-- The values of one type of cell. -/
def Payload (V : Type) : CellType → Type
  | .text => List Char
  | .fixed _ => V

def Cell.of {V : Type} : (type : CellType) → Payload V type → Cell V
  | .text, value => .text value
  | .fixed bits, value => .fixed bits value

variable {V : Type}

/-- A validated `StatisticalSpec` with its column seed. `row` is the draw of one row: a function
of the seed it is given and, in a conditional column, of the parent cell. -/
structure StatisticalSpec (V : Type) where
  type : CellType
  isDatetime : Bool
  conditionOn : Option String
  colSeed : Int
  row : Int → Option (Cell V) → Payload V type

/-- A generate column with what its generator computes for one row. -/
inductive Family (V : Type) where
  | sequence (start step : Int) (front back : List Char) (padLength : Nat)
  | faker (type : CellType) (dateOfBirth pooled : Bool) (row : Nat → Payload V type)
  | statistical (spec : StatisticalSpec V)
  | windowedDate (anchor : String) (row : Nat → Cell V → List Char)
  | other (kind : String)

structure GenerateColumn (V : Type) where
  name : String
  nullInjected : Bool
  family : Family V

/-- `str.zfill` -/
def zfill (text : List Char) (width : Nat) : List Char :=
  let fill := List.replicate (width - text.length) '0'
  match text with
  | '-' :: digits => '-' :: (fill ++ digits)
  | digits => fill ++ digits

/-- The cell of a sequence column at the absolute position `i`. -/
def sequenceCell (start step : Int) (front back : List Char) (padLength i : Nat) : Cell V :=
  let value := start + i * step
  let body := if 0 < padLength then zfill (intText value) padLength else intText value
  .text (front ++ body ++ back)

/-- The name of a column with its reason to be Class B. -/
abbrev Verdict := String × Option String

/-- An anchor whose dates are known to stay in range. -/
def windowedAnchorOk : Family V → Bool
  | .faker _ dateOfBirth _ _ => dateOfBirth
  | .statistical spec => spec.isDatetime
  | _ => false

/-- `_class_b_reason`; the error is the refusal of a conditional column. -/
def classBReason (column : GenerateColumn V) (earlier : List (GenerateColumn V))
    (verdicts : List Verdict) : Except String (Option String) :=
  if column.nullInjected then .ok (some "null_injection")
  else
    match column.family with
    | .sequence .. => .ok none
    | .faker _ _ pooled _ => .ok (if pooled then some "pooled_faker" else none)
    | .statistical spec =>
        match spec.conditionOn with
        | none => .ok none
        | some parent =>
            if parent ∉ earlier.map (·.name) then .error "is not declared before this column"
            else .ok (((verdicts.lookup parent).join).map fun _ => "condition_parent_class_b")
    | .windowedDate anchor _ =>
        match earlier.find? (·.name = anchor) with
        | none => .ok (some "windowed_date_anchor_not_earlier")
        | some found =>
            if (verdicts.lookup found.name).join.isSome then
              .ok (some "windowed_date_anchor_class_b")
            else if windowedAnchorOk found.family then .ok none
            else .ok (some "windowed_date_anchor_type")
    | .other kind => .ok (some ("family_class_b:" ++ kind))

def classify : List (GenerateColumn V) → List Verdict → List (GenerateColumn V) →
    Except String (List Verdict)
  | _, verdicts, [] => .ok verdicts
  | earlier, verdicts, column :: columns => do
      let reason ← classBReason column earlier verdicts
      classify (earlier ++ [column]) (verdicts ++ [(column.name, reason)]) columns

/-- The verdict of `classify_window_table`: no refusal, and no column with a Class B reason. -/
def isClassA (columns : List (GenerateColumn V)) : Bool :=
  decide (columns.map (·.name)).Nodup &&
    match classify [] [] columns with
    | .error _ => false
    | .ok verdicts => verdicts.all (·.2.isNone)

inductive WindowError where
  | windowInvalid (message : String)
  | notClassA
  | conditionUnavailable (column parent : String)
  | keyError (name : String)
  | valueError (message : String)
deriving Repr, DecidableEq

/-- Columns already drawn, by name. -/
abbrev Siblings (V : Type) := List (String × List (Cell V))

/-- `sample_column`: seeded by the absolute row, the parent read at the local position. -/
def sampleColumn (column : String) (spec : StatisticalSpec V) (n : Nat)
    (parentValues : Option (List (Cell V))) (start : Nat) : Except WindowError (List (Cell V)) :=
  match spec.conditionOn, parentValues with
  | some parent, none => .error (.conditionUnavailable column parent)
  | some _, some values =>
      .ok ((List.range n).map fun i : Nat =>
        Cell.of spec.type (spec.row (spec.colSeed + start + i) (some (values.getD i .null))))
  | none, _ =>
      .ok ((List.range n).map fun i : Nat =>
        Cell.of spec.type (spec.row (spec.colSeed + start + i) none))

/-- The date drawn for the row `i`; a null anchor gives a null and draws nothing. -/
def windowedCell (row : Nat → Cell V → List Char) (i : Nat) : Cell V → Cell V
  | .null => .null
  | anchor => .text (row i anchor)

/-- `apply_windowed_date` -/
def applyWindowedDate (row : Nat → Cell V → List Char) (anchors : List (Cell V))
    (rowOffset : Nat) : List (Cell V) :=
  anchors.mapIdx fun j anchor => windowedCell row (rowOffset + j) anchor

/-- The window draw of `_build_streams`: the rows of a window are drawn at their own positions of
the column's stream, so that a window is a slice of the full draw. -/
def draw (column : GenerateColumn V) (off n : Nat) (siblings : Siblings V) :
    Except WindowError (List (Cell V)) :=
  match column.family with
  | .sequence start step front back padLength =>
      .ok ((List.range n).map fun k => sequenceCell start step front back padLength (off + k))
  | .faker type _ _ row => .ok ((List.range n).map fun k => Cell.of type (row (off + k)))
  | .statistical spec =>
      match spec.conditionOn with
      | none => sampleColumn column.name spec n none off
      | some parent =>
          match siblings.lookup parent with
          | none => .error (.keyError parent)
          | some values =>
              if values.length ≠ n then
                .error (.windowInvalid "parent window is not aligned to the requested window")
              else sampleColumn column.name spec n (some values) off
  | .windowedDate anchor row =>
      match siblings.lookup anchor with
      | none => .error (.keyError anchor)
      | some anchors => .ok (applyWindowedDate row anchors off)
  | .other _ => .error .notClassA

/-- One chunk: the columns in declared order, each with the ones before it. -/
def drawWindow (columns : List (GenerateColumn V)) (off n : Nat) :
    Except WindowError (Siblings V) :=
  columns.foldlM (fun window column => do
    let cells ← draw column off n window
    pure (window ++ [(column.name, cells)])) []

/-- `_generate_column` of the full run, which every windowed read is compared with. -/
def generateColumn (column : GenerateColumn V) (n : Nat) (generated : Siblings V) :
    Except WindowError (List (Cell V)) :=
  match column.family with
  | .sequence start step front back padLength =>
      .ok ((List.range n).map fun i => sequenceCell start step front back padLength i)
  | .faker type _ _ row => .ok ((List.range n).map fun i => Cell.of type (row i))
  | .statistical spec =>
      match spec.conditionOn with
      | none => sampleColumn column.name spec n none 0
      | some parent =>
          match generated.lookup parent with
          | none => .error (.conditionUnavailable column.name parent)
          | some values => sampleColumn column.name spec n (some values) 0
  | .windowedDate anchor row =>
      .ok (applyWindowedDate row ((generated.lookup anchor).getD (List.replicate n .null)) 0)
  | .other kind => .error (.valueError ("unexpected generator type " ++ kind))

/-- The full run of a table: all rows, in one piece. -/
def generateTable (columns : List (GenerateColumn V)) (rowCount : Nat) :
    Except WindowError (Siblings V) :=
  columns.foldlM (fun generated column => do
    let cells ← generateColumn column rowCount generated
    pure (generated ++ [(column.name, cells)])) []

/-- What reading `pa.null().bit_width` does: give a width, or raise. -/
inductive AttributeRead where
  | width (bits : Nat)
  | attributeError
  | valueError
deriving Repr, DecidableEq

inductive ArrowType where
  | string
  | fixed (bits : Nat)
  | null
deriving Repr, DecidableEq

/-- The type `pa.table` infers for the cells of one column. -/
def arrowType (cells : List (Cell V)) : ArrowType :=
  match cells.find? (fun cell => match cell with | .null => false | _ => true) with
  | some (.text _) => .string
  | some (.fixed bits _) => .fixed bits
  | _ => .null

def binaryLength : Cell V → Nat
  | .text value => (utf8Encode value).length
  | _ => 0

/-- What one column adds to `_row_bytes`; `hasattr` lets a `ValueError` through. -/
def columnBytes (nullWidth : AttributeRead) (cells : List (Cell V)) :
    Except WindowError (List Nat) :=
  match arrowType cells with
  | .string => .ok (cells.map fun cell => binaryLength cell + 4)
  | .fixed bits => .ok (cells.map fun _ => max (bits / 8) 1)
  | .null =>
      match nullWidth with
      | .width bits => .ok (cells.map fun _ => max (bits / 8) 1)
      | .attributeError => .ok (cells.map fun _ => 8)
      | .valueError => .error (.valueError "Non-fixed width type")

/-- `_row_bytes` of a table with `numRows` rows. -/
def rowBytes (nullWidth : AttributeRead) (numRows : Nat) (table : Siblings V) :
    Except WindowError (List Nat) :=
  table.foldlM (fun total column => do
    let bytes ← columnBytes nullWidth column.2
    pure (total.zipWith (· + ·) bytes)) (List.replicate numRows 0)

structure GeneratedWindow (V : Type) where
  table : Siblings V
  offset : Nat
  rowsRequested : Nat
  rowsEmitted : Nat
  bytesEmitted : Nat
  capped : Bool

structure ReadState (V : Type) where
  acc : Siblings V
  emitted : Nat
  used : Nat
  done : Nat
  capped : Bool

/-- The loop body of `generate_rows`: the next chunk of the window, of `chunkRows` rows at most, cut
where the budget is used up. -/
def readChunk (nullWidth : AttributeRead) (columns : List (GenerateColumn V))
    (offset count : Nat) (budgetBytes : Option Int) (chunkRows : Nat) (state : ReadState V) :
    Except WindowError (ReadState V) := do
  let size := min chunkRows (count - state.done)
  let window ← drawWindow columns (offset + state.done) size
  let (keep, used, capped) ← match budgetBytes with
    | none => pure (size, state.used, state.capped)
    | some budget => do
        let costs ← rowBytes nullWidth size window
        let running := cumsum costs
        let keep := searchsortedRight running (budget - state.used)
        pure (keep, state.used + (if keep = 0 then 0 else running.getD (keep - 1) 0),
          decide (keep < size))
  pure {
    acc := state.acc.map fun column =>
      (column.1, column.2 ++ ((window.lookup column.1).getD []).take keep)
    emitted := state.emitted + keep
    used := used
    done := state.done + size
    capped := capped }

def readLoop (nullWidth : AttributeRead) (columns : List (GenerateColumn V))
    (offset count : Nat) (budgetBytes : Option Int) (chunkRows : Nat) :
    Nat → ReadState V → Except WindowError (ReadState V)
  | 0, state => pure state
  | fuel + 1, state =>
      if state.done < count ∧ state.capped = false then do
        let next ← readChunk nullWidth columns offset count budgetBytes chunkRows state
        readLoop nullWidth columns offset count budgetBytes chunkRows fuel next
      else pure state

/-- Row positions are packed into 8 bytes. -/
def maxPosition : Nat := 2 ^ 63

/-- `generate_rows` without a deadline. A chunk takes a row at least, so `count` rounds do. -/
def generateRows (nullWidth : AttributeRead) (columns : List (GenerateColumn V))
    (offset count : Nat) (budgetBytes : Option Int) (chunkRows : Nat) :
    Except WindowError (GeneratedWindow V) :=
  if maxPosition < offset + count then
    .error (.windowInvalid "offset + count exceeds the addressable row range")
  else if chunkRows < 1 then .error (.windowInvalid "chunk_rows must be >= 1")
  else if !isClassA columns then .error .notClassA
  else do
    let state ← readLoop nullWidth columns offset count budgetBytes chunkRows count
      ⟨columns.map fun column => (column.name, []), 0, 0, 0, false⟩
    let bytes ← match budgetBytes with
      | some _ => pure state.used
      | none => do
          let costs ← rowBytes nullWidth state.emitted state.acc
          pure costs.sum
    pure ⟨state.acc, offset, count, state.emitted, bytes, state.capped⟩

end DecoyEngine.Generation.Window
