import DecoyEngine.Data.JsonPath
import DecoyEngine.Data.PyRepr
import DecoyEngine.Data.Text
import Mathlib.Data.List.Sort

namespace DecoyEngine.Execution.Nested

open DecoyEngine.Data

/-! The `nested` strategy (`_strategies/_nested.py`): the values at a target in the JSON cells of a
column are gathered into one column, masked there by the child strategy and written back. -/

structure StrategyError where
  code : String
  strategy : String
  message : String
deriving Repr, DecidableEq

structure RowError where
  column : String
  rowIndex : Nat
  trigger : String
  reason : String
deriving Repr, DecidableEq

structure QualityWarning where
  code : String
  provider : String
  column : String
  detail : List (String × String)
deriving Repr, DecidableEq

inductive Cell where
  | null
  | malformed (text : String)
  | json (value : Json)

/-- A parsed target. `find` gives the paths of the matches in the order of the search, and
`printed` is `str(match.full_path)`. -/
structure Target where
  text : String
  find : Json → List Path
  printed : Path → List Char
  addressed : ∀ value path, path ∈ find value → (value.get path).isSome
  distinct : ∀ value, (find value).Nodup
  printed_root : (printed []).count '.' = 0
  printed_child : ∀ path segment, path ≠ [] →
    (printed path).count '.' < (printed (path ++ [segment])).count '.'

/-- What a child gives for a leaf: the object it was given, or a value of its own. -/
inductive Masked where
  | kept
  | fresh (value : Json)

/-- A row error of the child, by the position of the leaf. -/
structure ChildError where
  position : Nat
  trigger : String
  reason : String

/-- A child strategy that masks each leaf by itself and leaves nulls as they are. -/
structure Child where
  mask : Json → Masked
  errors : List Json → List ChildError
  warnings : List Json → List QualityWarning
  mask_null : mask .null = .kept ∨ mask .null = .fresh .null
  errors_at : ∀ leaves error, error ∈ errors leaves → error.position < leaves.length

/-- The masked value of a leaf. -/
def Child.value (child : Child) (leaf : Json) : Json :=
  match child.mask leaf with
  | .kept => leaf
  | .fresh masked => masked

def isFloat : Json → Bool
  | .float _ => true
  | _ => false

def isNull : Json → Bool
  | .null => true
  | _ => false

def isInt : Json → Bool
  | .int _ => true
  | _ => false

/-- The values of a column as far as pandas has seen them. -/
structure Seen where
  null : Bool := false
  bool : Bool := false
  float : Bool := false
  int : Bool := false
  unsigned : Bool := false
  negative : Bool := false

def Seen.sawInt (seen : Seen) (value : Int) : Seen :=
  { seen with
    int := true
    unsigned := seen.unsigned || (2 ^ 63 ≤ value && value < 2 ^ 64)
    negative := seen.negative || (-2 ^ 63 ≤ value && value < 0) }

/-- The search of `pd.DataFrame` for the type of a column of values (`maybe_convert_objects`):
whether they become float64. It ends at the first value that keeps the column as it is, asks of no
integer after a null whether it fits numpy's integers, and makes a double of every integer on the
way. `asDouble` is `float`, `none` for its `OverflowError`. -/
def convertObjects (asDouble : Int → Option Double) : Seen → List Json → Option Bool
  | seen, [] => some (!seen.bool && (seen.float || seen.int && seen.null))
  | seen, .null :: rest => convertObjects asDouble { seen with null := true } rest
  | seen, .bool _ :: rest => convertObjects asDouble { seen with bool := true } rest
  | seen, .float _ :: rest => convertObjects asDouble { seen with float := true } rest
  | seen, .int value :: rest =>
      match asDouble value with
      | none => none
      | some _ =>
          if seen.null then convertObjects asDouble { seen with int := true } rest
          else if ((seen.sawInt value).unsigned && (seen.sawInt value).negative) ||
              2 ^ 64 ≤ value || value < -2 ^ 63 then some false
          else convertObjects asDouble (seen.sawInt value) rest
  | _, _ :: _ => some false

def isFloat64 (asDouble : Int → Option Double) (leaves : List Json) : Bool :=
  convertObjects asDouble {} leaves = some true

example : isFloat64 (fun _ => some .nan) [.null, .int (2 ^ 70)] = true ∧
    isFloat64 (fun _ => some .nan) [.int (2 ^ 70), .null] = false := by decide

/-- A number or a null in a float64 column. -/
def toFloat (asDouble : Int → Option Double) : Json → Json
  | .int value => ((asDouble value).map Json.float).getD (.int value)
  | .null => .float .nan
  | leaf => leaf

/-- The values as the frame holds them. -/
def frameColumn (asDouble : Int → Option Double) (leaves : List Json) : List Json :=
  if isFloat64 asDouble leaves then leaves.map (toFloat asDouble) else leaves

/-- `text.split(".")` -/
def splitDots : List Char → List (List Char)
  | [] => [[]]
  | '.' :: rest => [] :: splitDots rest
  | ch :: rest =>
      match splitDots rest with
      | [] => [[ch]]
      | part :: parts => (ch :: part) :: parts

/-- `_path_segments` -/
def pathSegments (printed : List Char) : List (List Char) :=
  let raw := strip printed
  if raw.head? = some '(' ∧ raw.getLast? = some ')' then splitDots (raw.drop 1).dropLast
  else splitDots raw

variable (target : Target)

def depth (path : Path) : Nat := (pathSegments (target.printed path)).length

/-- `_order_matches_deepest_first` -/
def orderDeepestFirst (paths : List Path) : List Path :=
  paths.insertionSort fun left right => depth target right ≤ depth target left

/-- `_has_prefix_overlap` -/
def hasPrefixOverlap : List Path → Bool
  | [] => false
  | deeper :: rest =>
      let segments := pathSegments (target.printed deeper)
      (rest.any fun shallower =>
        let outer := pathSegments (target.printed shallower)
        outer.length < segments.length && segments.take outer.length == outer) ||
      hasPrefixOverlap rest

/-- A cell with matches, deepest first. -/
structure Located where
  position : Nat
  value : Json
  paths : List Path

def locate : Cell × Nat → Option Located
  | (.json value, position) =>
      if (target.find value).isEmpty then none
      else some ⟨position, value, orderDeepestFirst target (target.find value)⟩
  | _ => none

def leafAt (value : Json) (path : Path) : Json := (value.get path).getD .null

def Located.leaves (located : Located) : List Json := located.paths.map (leafAt located.value)

/-- `leaf_outer_pos` of the cell. -/
def Located.rows (located : Located) : List Nat := located.paths.map fun _ => located.position

def allLocated (cells : List Cell) : List Located := cells.zipIdx.filterMap (locate target)

def allLeaves (cells : List Cell) : List Json :=
  (allLocated target cells).flatMap Located.leaves

def allRows (cells : List Cell) : List Nat := (allLocated target cells).flatMap Located.rows

def cellErrors (column : String) : Cell × Nat → Option RowError
  | (.malformed _, position) =>
      some ⟨column, position, "format_error", "cell is not valid JSON under nested masking"⟩
  | _ => none

def cellWarnings (column : String) : Cell × Nat → Option QualityWarning
  | (.malformed _, position) =>
      some ⟨"nested_cell_json_parse_error", "nested", column, [("row_pos", toString position)]⟩
  | (.json value, position) =>
      let ordered := orderDeepestFirst target (target.find value)
      if hasPrefixOverlap target ordered then
        some ⟨"nested_jsonpath_path_overlap", "nested", column,
          [("row_pos", toString position), ("target", target.text),
            ("match_count", toString ordered.length)]⟩
      else none
  | _ => none

def Cell.isJson : Cell → Bool
  | .json _ => true
  | _ => false

/-- What is written for a leaf: the object it was read from, or another value. -/
inductive New where
  | same
  | value (value : Json)

/-- The child's answer for an entry of the frame, where a container is the object of the cell. -/
def newLeaf (child : Child) (entry : Json) : New :=
  match child.mask entry with
  | .fresh value => .value value
  | .kept => if entry.isContainer then .same else .value entry

/-- A parsed cell while it is written: its object, changed in place, and the value that took its
place at the root. -/
structure Document where
  object : Json
  rebound : Option Json

def Document.parsed (document : Document) : Json := document.rebound.getD document.object

/-- `parsed = m.full_path.update(parsed, new_value)` -/
def Document.write (document : Document) (path : Path) (new : New) : Document :=
  match path, new, document.rebound with
  | [], .same, _ => ⟨document.object, none⟩
  | [], .value value, _ => ⟨document.object, some value⟩
  | _ :: _, .same, none => document
  | _ :: _, .same, some root =>
      ⟨document.object, some (root.set path (leafAt document.object path))⟩
  | _ :: _, .value value, none => ⟨document.object.set path value, none⟩
  | _ :: _, .value value, some root => ⟨document.object, some (root.set path value)⟩

/-- `_writeback_would_corrupt` -/
def writebackWouldCorrupt (path : Path) (root : Json) : Bool :=
  match path.getLast?, root.get path.dropLast with
  | none, _ => false
  | some _, none => true
  | some (.index _), some (.array _) => false
  | some (.index _), some _ => true
  | some (.field _), some (.object _) => false
  | some (.field _), some _ => true

def unwritable (column : String) : StrategyError :=
  ⟨"nested_target_unwritable_container", "nested",
    "nested target resolved to a match whose masked value cannot be written back reliably for " ++
    "column " ++ pyRepr column ++ " (an array/index selector applied to a JSON object; " ++
    "jsonpath-ng coerces it and the write would not replace the object). Failing closed to " ++
    "avoid leaking the source value. Use an object-appropriate target (e.g. `$.*` or a field " ++
    "path) instead of an array selector on an object."⟩

/-- The writeback of one cell. -/
def writeBack (column : String) (document : Document) :
    List (Path × New) → Except StrategyError Document
  | [] => .ok document
  | (path, new) :: rest =>
      if writebackWouldCorrupt path document.parsed then .error (unwritable column)
      else writeBack column (document.write path new) rest

/-- The writeback of the column, with the cursor in the masked leaves. -/
def writeBackAll (column : String) :
    List Located → List New → Except StrategyError (List (Nat × Json))
  | [], _ => .ok []
  | located :: rest, leaves =>
      match writeBack column ⟨located.value, none⟩ (located.paths.zip leaves) with
      | .error error => .error error
      | .ok document =>
          match writeBackAll column rest (leaves.drop located.paths.length) with
          | .error error => .error error
          | .ok documents => .ok ((located.position, document.parsed) :: documents)

def unmappable (column : String) (position count : Nat) : StrategyError :=
  ⟨"nested_child_row_error_unmappable", "nested",
    "nested child recorded a RowError at leaf position " ++ toString position ++
    ", outside the collected-leaf range [0, " ++ toString count ++ ") for column " ++
    pyRepr column ++ "; it cannot be mapped to an outer row. Failing closed."⟩

/-- The child's row errors, on the rows of the table. -/
def remapErrors (column : String) (rows : List Nat) :
    List ChildError → Except StrategyError (List RowError)
  | [] => .ok []
  | error :: rest =>
      match rows[error.position]? with
      | none => .error (unmappable column error.position rows.length)
      | some row =>
          match remapErrors column rows rest with
          | .error failure => .error failure
          | .ok errors => .ok (⟨column, row, error.trigger, error.reason⟩ :: errors)

def matchedNothing (column : String) : StrategyError :=
  ⟨"nested_target_matched_nothing", "nested",
    "nested target " ++ pyRepr target.text ++ " matched no value in any non-null cell of column " ++
    pyRepr column ++ ". A target that matches nothing across the whole column is treated as a " ++
    "misconfiguration (a typoed or wrong path) rather than a silent passthrough, which would " ++
    "emit every cell unmasked. Verify the target path."⟩

structure Output where
  cells : List Cell
  warnings : List QualityWarning
  rowErrors : List RowError

/-- `col_values[pos] = json.dumps(parsed)` for each masked cell. -/
def assign (cells : List Cell) (documents : List (Nat × Json)) : List Cell :=
  documents.foldl (fun cells entry => cells.set entry.1 (.json entry.2)) cells

/-- What a run raises: an error of the strategy, or the `OverflowError` of an integer too large
for a float on the way into the frame. -/
inductive Failure where
  | refused (error : StrategyError)
  | overflow
deriving Repr, DecidableEq

/-- `NestedStrategyHandler.run`, past the checks of the configuration: the leaves of all cells are
collected into one column, masked by the child strategy, and written back to the paths they came
from. -/
def run (asDouble : Int → Option Double) (column : String) (child : Child) (cells : List Cell) :
    Except Failure Output :=
  let warnings := cells.zipIdx.filterMap (cellWarnings target column)
  let rowErrors := cells.zipIdx.filterMap (cellErrors column)
  let leaves := allLeaves target cells
  if leaves.isEmpty then
    if cells.any Cell.isJson then .error (.refused (matchedNothing target column))
    else .ok ⟨cells, warnings, rowErrors⟩
  else if convertObjects asDouble {} leaves = none then .error .overflow
  else
    let frame := frameColumn asDouble leaves
    match remapErrors column (allRows target cells) (child.errors frame) with
    | .error error => .error (.refused error)
    | .ok childErrors =>
        match writeBackAll column (allLocated target cells) (frame.map (newLeaf child)) with
        | .error error => .error (.refused error)
        | .ok documents =>
            .ok ⟨assign cells documents, warnings ++ child.warnings frame,
              rowErrors ++ childErrors⟩

end DecoyEngine.Execution.Nested
