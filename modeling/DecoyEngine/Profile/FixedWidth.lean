import DecoyEngine.Data.DecimalText
import DecoyEngine.Data.TextLines

namespace DecoyEngine.Profile

open DecoyEngine.Data

/-! Fixed-width files: the layout (`config/_fixed_width.py`), the writer
(`profile/_fixed_width_writer.py`) and the reader (`profile/_fixed_width_reader.py`). -/

/-- One code point of a Python `str`: a character, or an unpaired surrogate. -/
inductive CodePoint where
  | scalar (ch : Char)
  | surrogate (low : Fin 2048)
deriving Repr, DecidableEq

namespace CodePoint

def char? : CodePoint → Option Char
  | .scalar ch => some ch
  | .surrogate _ => none

/-- `text.encode("utf-8")`; `none` is its `UnicodeEncodeError`. -/
def encode (text : List CodePoint) : Option (List UInt8) := (text.mapM char?).map utf8Encode

def ofText (text : List Char) : List CodePoint := text.map .scalar

end CodePoint

inductive ColumnType where
  | str
  | int
  | float
deriving Repr, DecidableEq

inductive Align where
  | left
  | right
deriving Repr, DecidableEq

structure FixedWidthColumn where
  name : String
  start : Nat
  width : Nat
  type : ColumnType := .str
  pad : CodePoint := .scalar ' '
  align : Align := .left
  positive : 0 < width := by decide
deriving DecidableEq

def FixedWidthColumn.stop (column : FixedWidthColumn) : Nat := column.start + column.width

/-- Every column starts at or after the end of the one before it. -/
def inOrder : Nat → List FixedWidthColumn → Prop
  | _, [] => True
  | prevEnd, column :: columns => prevEnd ≤ column.start ∧ inOrder column.stop columns

instance decidableInOrder : (prevEnd : Nat) → (columns : List FixedWidthColumn) →
    Decidable (inOrder prevEnd columns)
  | _, [] => .isTrue trivial
  | prevEnd, column :: columns =>
      @instDecidableAnd _ _ (Nat.decLe prevEnd column.start) (decidableInOrder column.stop columns)

structure FixedWidthLayout where
  columns : List FixedWidthColumn
  exactRecordWidth : Bool := false
  nonempty : columns ≠ [] := by decide
  named : (columns.map (·.name)).Nodup := by decide
  ordered : inOrder 0 columns := by decide

/-- `record_width`: the largest `start + width`. -/
def FixedWidthLayout.recordWidth (layout : FixedWidthLayout) : Nat :=
  (layout.columns.map FixedWidthColumn.stop).foldr max 0

/-- Python floats `F` and the reals `R` (`numbers.Real` that are not integral: floats, numpy floats,
fractions) as the writer and the reader use them: `float` of a real, where `none` is its
`OverflowError`, `repr`, `float(text)`, `==` of a float with a real, and the sign. -/
structure FloatText (F R : Type) where
  toFloat : R → Option F
  isNan : F → Bool
  repr : F → List Char
  parse : List CodePoint → Option F
  eq : F → R → Bool
  negative : F → Bool
  repr_plain : ∀ value, '\n' ∉ repr value ∧ '\r' ∉ repr value

/-- A Python value: `integer` is a `numbers.Integral` other than a `bool`, `number` a `numbers.Real`
that is not integral, and `other` anything else. -/
inductive Value (R : Type) where
  | text (value : List CodePoint)
  | integer (value : Int)
  | boolean (value : Bool)
  | number (value : R)
  | other
deriving DecidableEq

/-- One cell of a frame, with `type(value).__name__`. -/
structure Cell (R : Type) where
  value : Value R
  typeName : String
deriving DecidableEq

variable {F R : Type}

/-- A frame of uniquely or repeatedly labelled columns, row by row. -/
structure Frame (R : Type) where
  labels : List String
  rows : List (List (Cell R))
  rectangular : ∀ row ∈ rows, row.length = labels.length

/-- `sys.get_int_max_str_digits()` -/
def maxStrDigits : Nat := 4300

/-- The digits of an integer literal: runs of decimals joined by single underscores. -/
def literalDigits (text : List CodePoint) : Option (List Nat) :=
  (text.splitOn (.scalar '_')).foldr (fun run digits =>
    if run.isEmpty then none
    else do
      let values ← run.mapM (fun point => point.char?.bind decimalValue)
      let rest ← digits
      pure (values ++ rest)) (some [])

def magnitude (text : List CodePoint) : Option Nat :=
  (literalDigits text).bind fun digits =>
    if maxStrDigits < digits.length then none
    else some (digits.foldl (fun value digit => 10 * value + digit) 0)

def isBlank (point : CodePoint) : Bool := point.char?.any isSpace

/-- `int(text)`; `none` is its `ValueError`. -/
def parseInt (text : List CodePoint) : Option Int :=
  let body := ((text.dropWhile isBlank).reverse.dropWhile isBlank).reverse
  match body with
  | .scalar '-' :: rest => (magnitude rest).map (fun value => -(value : Int))
  | .scalar '+' :: rest => (magnitude rest).map (fun value => (value : Int))
  | rest => (magnitude rest).map (fun value => (value : Int))

/-- `_strip_pad` -/
def stripPad (raw : List CodePoint) (column : FixedWidthColumn) : List CodePoint :=
  match column.align with
  | .left => (raw.reverse.dropWhile (· == column.pad)).reverse
  | .right => raw.dropWhile (· == column.pad)

structure CastFailure where
  lineNo : Nat
  column : String
  valueLength : Nat
  type : ColumnType
deriving Repr, DecidableEq

def cast (floats : FloatText F R) (type : ColumnType) (text : List CodePoint) :
    Option (Value F) :=
  match type with
  | .str => some (.text text)
  | .int => (parseInt text).map .integer
  | .float => (floats.parse text).map .number

/-- `_cast_value`: an all-pad numeric is tried again with its pad characters. -/
def castValue (floats : FloatText F R) (stripped raw : List CodePoint)
    (column : FixedWidthColumn) (lineNo : Nat) : Except CastFailure (Value F) :=
  let candidate := if stripped = [] ∧ column.type ≠ .str then raw else stripped
  match cast floats column.type candidate with
  | some value => .ok value
  | none => .error ⟨lineNo, column.name, candidate.length, column.type⟩

inductive FieldFailure where
  | wrongType (column : String) (want : ColumnType) (got : String)
  | embeddedNewline (column : String) (length : Nat)
  | integerTooLarge (column : String)
  | notANumber (column : String)
  /-- The `OverflowError` of `float(value)`, which nothing catches. -/
  | tooLargeForFloat
  | overflow (column : String) (length width : Nat)
  | unencodable (column : String) (length : Nat)
  | ambiguous (column : String) (length : Nat) (pad : CodePoint) (align : Align) (width : Nat)
deriving Repr, DecidableEq

/-- `_render_value`: the text of a cell by the type of its column. A cell of another type is
refused, and so is what would break the line or has no exact text. -/
def renderValue (floats : FloatText F R) (cell : Cell R) (column : FixedWidthColumn) :
    Except FieldFailure (List CodePoint) :=
  match column.type, cell.value with
  | .str, .text text =>
      if .scalar '\n' ∈ text ∨ .scalar '\r' ∈ text then
        .error (.embeddedNewline column.name text.length)
      else .ok text
  | .int, .integer value =>
      if maxStrDigits < (natText value.natAbs).length then .error (.integerTooLarge column.name)
      else .ok (CodePoint.ofText (intText value))
  | .float, .number value =>
      match floats.toFloat value with
      | none => .error .tooLargeForFloat
      | some rounded =>
          if floats.isNan rounded then .error (.notANumber column.name)
          else .ok (CodePoint.ofText (floats.repr rounded))
  | want, _ => .error (.wrongType column.name want cell.typeName)

/-- `_pad_field` -/
def padField (rendered : List CodePoint) (column : FixedWidthColumn) : List CodePoint :=
  match column.align with
  | .left => rendered ++ List.replicate (column.width - rendered.length) column.pad
  | .right => List.replicate (column.width - rendered.length) column.pad ++ rendered

/-- `_equal` -/
def equal (floats : FloatText F R) (decoded : Value F) (original : Value R) : Bool :=
  match decoded, original with
  | .text decoded, .text original => decoded == original
  | .integer decoded, .integer original => decoded == original
  | .number decoded, .number original =>
      floats.eq decoded original && (floats.toFloat original).any fun rounded =>
        floats.negative decoded == floats.negative rounded
  | _, _ => false

/-- `_render_field`: a field is used only when the reader's own decode gives the value back. -/
def renderField (floats : FloatText F R) (cell : Cell R) (column : FixedWidthColumn) :
    Except FieldFailure (List CodePoint) :=
  match renderValue floats cell column with
  | .error failure => .error failure
  | .ok rendered =>
      let ambiguous := FieldFailure.ambiguous column.name rendered.length column.pad column.align
        column.width
      if column.width < rendered.length then
        .error (.overflow column.name rendered.length column.width)
      else if (CodePoint.encode rendered).isNone then
        .error (.unencodable column.name rendered.length)
      else
        let field := padField rendered column
        match castValue floats (stripPad field column) field column 0 with
        | .error _ => .error ambiguous
        | .ok decoded => if equal floats decoded cell.value then .ok field else .error ambiguous

/-- `buffer[start:start + width] = field` -/
def writeSlice (buffer field : List CodePoint) (column : FixedWidthColumn) : List CodePoint :=
  buffer.take column.start ++ field ++ buffer.drop column.stop

def fillRecord (floats : FloatText F R) (row : String → Option (Cell R)) :
    List CodePoint → List FixedWidthColumn → Except FieldFailure (List CodePoint)
  | buffer, [] => pure buffer
  | buffer, column :: columns => do
      let field ← renderField floats ((row column.name).getD ⟨.other, "KeyError"⟩) column
      fillRecord floats row (writeSlice buffer field column) columns

/-- `_build_record`; a row gives the value of a column by its name. -/
def buildRecord (floats : FloatText F R) (row : String → Option (Cell R))
    (spec : FixedWidthLayout) : Except FieldFailure (List CodePoint) :=
  fillRecord floats row (List.replicate spec.recordWidth (.scalar ' ')) spec.columns

inductive WriteFailure where
  | padsWithLineSeparator (column : String)
  | duplicateLabels (labels : List String)
  | missingColumns (names : List String)
  | unnamedColumns (labels : List String)
  | field (rowIndex : Nat) (failure : FieldFailure)
  | unencodableRecord
deriving Repr, DecidableEq

/-- `_check_layout` -/
def checkLayout (spec : FixedWidthLayout) : Except WriteFailure Unit :=
  match spec.columns.find? (fun column => column.pad = .scalar '\n' ∨ column.pad = .scalar '\r') with
  | some column => .error (.padsWithLineSeparator column.name)
  | none => .ok ()

/-- `_check_columns` -/
def checkColumns (frame : Frame R) (spec : FixedWidthLayout) : Except WriteFailure Unit :=
  let duplicates := frame.labels.filter (fun label => 1 < frame.labels.count label)
  let names := spec.columns.map (·.name)
  let missing := names.filter (· ∉ frame.labels)
  let extra := frame.labels.filter (· ∉ names)
  if duplicates ≠ [] then .error (.duplicateLabels duplicates.dedup)
  else if missing ≠ [] then .error (.missingColumns missing)
  else if extra ≠ [] then .error (.unnamedColumns extra)
  else .ok ()

def Frame.cell (frame : Frame R) (row : List (Cell R)) (name : String) : Option (Cell R) :=
  (frame.labels.zip row).lookup name

/-- The record loop of `_write_all`; a record that cannot be encoded raises in `handle.write`. -/
def writeRows (floats : FloatText F R) (frame : Frame R) (spec : FixedWidthLayout) :
    Nat → List (List (Cell R)) → Except WriteFailure (List UInt8)
  | _, [] => pure []
  | rowIndex, row :: rows =>
      match buildRecord floats (frame.cell row) spec with
      | .error failure => .error (.field rowIndex failure)
      | .ok line =>
          match CodePoint.encode line with
          | none => .error .unencodableRecord
          | some encoded => do
              let rest ← writeRows floats frame spec (rowIndex + 1) rows
              pure (encoded ++ 10 :: rest)

def render (floats : FloatText F R) (frame : Frame R) (spec : FixedWidthLayout) :
    Except WriteFailure (List UInt8) := do
  checkLayout spec
  checkColumns frame spec
  writeRows floats frame spec 0 frame.rows

/-- `write_fixed_width`, with the file at the target path before and after. -/
def writeFixedWidth (floats : FloatText F R) (frame : Frame R) (spec : FixedWidthLayout)
    (target : Option (List UInt8)) : Except WriteFailure Unit × Option (List UInt8) :=
  match render floats frame spec with
  | .error failure => (.error failure, target)
  | .ok records => (.ok (), some records)

inductive ReadFailure where
  | notUtf8 (lineNo : Nat)
  | overlong (lineNo length required : Nat)
  | tooShort (lineNo length required : Nat)
  | cast (failure : CastFailure)
deriving Repr, DecidableEq

/-- `line[start:start + width]` -/
def slice (line : List CodePoint) (column : FixedWidthColumn) : List CodePoint :=
  (line.drop column.start).take column.width

/-- `raw_line.rstrip("\r\n")` -/
def stripLineEnd (line : List Char) : List Char :=
  (line.reverse.dropWhile (fun ch => ch == '\r' || ch == '\n')).reverse

def parseRow (floats : FloatText F R) (spec : FixedWidthLayout) (lineNo : Nat)
    (line : List CodePoint) : Except CastFailure (List (Value F)) :=
  spec.columns.mapM fun column =>
    let raw := slice line column
    castValue floats (stripPad raw column) raw column lineNo

/-- The loop of `_parse_records`, over the lines still to read; `count` records are there. -/
def parseLines (floats : FloatText F R) (spec : FixedWidthLayout) (maxRecords : Option Nat) :
    (lineNo count : Nat) → List (List UInt8) → Except ReadFailure (List (List (Value F)))
  | _, _, [] => pure []
  | lineNo, count, raw :: lines =>
      if maxRecords.any (· ≤ count) then pure []
      else
        match utf8Decode raw with
        | none => .error (.notUtf8 lineNo)
        | some decoded =>
            let line := CodePoint.ofText (stripLineEnd decoded)
            if line = [] then parseLines floats spec maxRecords (lineNo + 1) count lines
            else if spec.exactRecordWidth && spec.recordWidth < line.length then
              .error (.overlong lineNo line.length spec.recordWidth)
            else if line.length < spec.recordWidth then
              .error (.tooShort lineNo line.length spec.recordWidth)
            else
              match parseRow floats spec lineNo line with
              | .error failure => .error (.cast failure)
              | .ok row => do
                  let rows ← parseLines floats spec maxRecords (lineNo + 1) (count + 1) lines
                  pure (row :: rows)

/-- `read_fixed_width`: the rows, with their cells in layout order. -/
def readFixedWidth (floats : FloatText F R) (spec : FixedWidthLayout)
    (maxRecords : Option Nat) (file : List UInt8) : Except ReadFailure (List (List (Value F))) :=
  parseLines floats spec maxRecords 1 0 (physicalLines file)

end DecoyEngine.Profile
