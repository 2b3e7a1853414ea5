import DecoyEngine.Data.Calendar
import DecoyEngine.Data.Gregorian
import DecoyEngine.DeclaredCasting.Cobol
import DecoyEngine.DeclaredCasting.NumberText

namespace DecoyEngine.DeclaredCasting.Output

open DecoyEngine.Data hiding scaled
open DecoyEngine.DeclaredCasting.Numeric DecoyEngine.DeclaredCasting.NumberText
open DecoyEngine.DeclaredCasting.Cobol (Picture formatOverpunch formatZoned formatComp3 comp3Length)

/-! Declared output formats and their widths (`contracts/_declared_formats.py`,
`declared_casting/_catalog.py`). -/

inductive DatePart where
  | year | month | day
  | literal (ch : Char)
deriving Repr, DecidableEq

/-- `_DATE_LITERALS`. -/
def dateLiterals : List Char := "-/. :_,".toList

/-- The loop of `date_pattern`. -/
def dateParts : List Char → Option (List DatePart)
  | [] => some []
  | '%' :: 'Y' :: rest => (dateParts rest).map (.year :: ·)
  | '%' :: 'm' :: rest => (dateParts rest).map (.month :: ·)
  | '%' :: 'd' :: rest => (dateParts rest).map (.day :: ·)
  | ch :: rest => if ch ∈ dateLiterals then (dateParts rest).map (.literal ch :: ·) else none

def DatePart.isField : DatePart → Bool
  | .literal _ => false
  | _ => true

/-- Fields have a literal between them. -/
def separated : List DatePart → Bool
  | first :: second :: rest => !(first.isField && second.isField) && separated (second :: rest)
  | _ => true

/-- `date_pattern`; every violation is a refused format. -/
def datePattern (format : List Char) : Option (List DatePart) :=
  match dateParts format with
  | none => none
  | some parts =>
      if parts.count .year = 1 ∧ parts.count .month = 1 ∧ parts.count .day = 1 ∧
          separated parts then some parts
      else none

structure DateFormat where
  format : List Char
  parts : List DatePart
  pattern : datePattern format = some parts

def DatePart.width : DatePart → Nat
  | .year => 4
  | .month | .day => 2
  | .literal _ => 1

def dateWidth (format : DateFormat) : Nat := (format.parts.map DatePart.width).sum

/-- `ISO_FORMAT`. -/
def isoFormat : DateFormat where
  format := "%Y-%m-%d".toList
  parts := [.year, .literal '-', .month, .literal '-', .day]
  pattern := by decide

def DatePart.text (date : Date) : DatePart → List Char
  | .year => zeroPadded 4 date.year
  | .month => zeroPadded 2 date.month
  | .day => zeroPadded 2 date.day
  | .literal ch => [ch]

inductive WidthUnit where
  | codePoints | bytes
deriving Repr, DecidableEq

inductive Align where
  | left | right
deriving Repr, DecidableEq

/-- `_Padded`. -/
structure Padded where
  width : Option Nat
  widthUnit : Option WidthUnit
  pad : Char
  align : Align
  width_range : ∀ declared ∈ width, 1 ≤ declared ∧ declared ≤ 1000000
  unit_declared : width.isSome → widthUnit.isSome
  pad_bytes : widthUnit = some .bytes → pad.utf8Size = 1

/-- The fields `signed` and `bit_width`. -/
structure IntegerType where
  signed : Bool
  bitWidth : Nat
  bitWidth_mem : bitWidth ∈ [8, 16, 32, 64]

/-- A declared output format with its slot and its specification; the three COBOL fields have no
slot and are as wide as their picture. -/
inductive OutputFormat where
  | stringExact (slot : Padded)
  | integerAscii (slot : Padded) (type : IntegerType)
  | integerZeroPad (slot : Padded) (type : IntegerType) (required : slot.width.isSome)
      (zero : slot.pad = '0' ∧ slot.align = .right)
  | decimalPlain (slot : Padded) (spec : Precision)
  | decimalGrouped (slot : Padded) (spec : DecimalGrouped)
  | dateIso (slot : Padded) (wide : ∀ width ∈ slot.width, 10 ≤ width)
  | dateStrftime (slot : Padded) (format : DateFormat)
      (wide : ∀ width ∈ slot.width, dateWidth format ≤ width)
  | currency (slot : Padded) (spec : Currency)
  | overpunch (spec : Picture)
  | zoned (spec : Picture)
  | comp3 (spec : Picture)

/-- The controls of a format that has them. -/
def OutputFormat.slot : OutputFormat → Option Padded
  | .stringExact slot | .integerAscii slot _ | .integerZeroPad slot _ _ _ | .decimalPlain slot _
  | .decimalGrouped slot _ | .dateIso slot _ | .dateStrftime slot _ _ | .currency slot _ =>
      some slot
  | .overpunch _ | .zoned _ | .comp3 _ => none

def OutputFormat.width (format : OutputFormat) : Option Nat := format.slot.bind Padded.width

def OutputFormat.unit (format : OutputFormat) : WidthUnit :=
  (format.slot.bind Padded.widthUnit).getD .codePoints

def OutputFormat.binary : OutputFormat → Bool
  | .zoned _ | .comp3 _ => true
  | _ => false

/-- A logical value; what is no text, number or plain date is `number .other`. -/
inductive OutputValue where
  | text (value : List Char)
  | number (value : Value)
  | date (value : Date)

inductive OutputError where
  | inputTypeIncompatible
  | integerInvalid
  | integerOverflow
  | dateInvalid
  | widthOverflow
  | numeric (reason : Reason)
  | cobol (failure : Cobol.Failure)
deriving Repr, DecidableEq

def OutputError.code : OutputError → String
  | .inputTypeIncompatible => "declared_cast_input_type_incompatible"
  | .integerInvalid => "declared_integer_invalid"
  | .integerOverflow => "declared_integer_overflow"
  | .dateInvalid => "declared_date_invalid"
  | .widthOverflow => "declared_output_width_overflow"
  | .numeric reason => reason.code
  | .cobol (.registered reason) => reason.code
  | .cobol .overflowError => "OverflowError"

inductive Rendering where
  | text (chars : List Char)
  | bytes (value : List UInt8)
deriving DecidableEq

/-- `len(text.encode("utf-8"))` or `len(text)`. -/
def measureText (unit : WidthUnit) (text : List Char) : Nat :=
  match unit with
  | .bytes => (text.map Char.utf8Size).sum
  | .codePoints => text.length

def Rendering.measure (unit : WidthUnit) : Rendering → Nat
  | .text chars => measureText unit chars
  | .bytes value => value.length

/-- `int_bounds`. -/
def intBounds (type : IntegerType) : Int × Int :=
  if type.signed then (-(2 ^ (type.bitWidth - 1)), 2 ^ (type.bitWidth - 1) - 1)
  else (0, 2 ^ type.bitWidth - 1)

/-- `format_integer` as far as `str(value)`. -/
def integerText (type : IntegerType) : OutputValue → Except OutputError (List Char)
  | .number (.int value) =>
      if (intBounds type).1 ≤ value ∧ value ≤ (intBounds type).2 then .ok (intText value)
      else .error .integerOverflow
  | _ => .error .integerInvalid

/-- The sign of an integer text, and its digits. -/
def signAndDigits (text : List Char) : List Char × List Char :=
  match text with
  | '-' :: digits => (['-'], digits)
  | digits => ([], digits)

def zeroPad (width : Nat) (text : List Char) : Except OutputError (List Char) :=
  let sign := (signAndDigits text).1
  let digits := (signAndDigits text).2
  let room := (width : Int) - sign.length
  if room < digits.length then .error .widthOverflow
  else .ok (sign ++ List.replicate (room.toNat - digits.length) '0' ++ digits)

def dateText (format : DateFormat) : OutputValue → Except OutputError (List Char)
  | .date value => .ok (format.parts.flatMap (DatePart.text value))
  | _ => .error .dateInvalid

/-- The number a decimal or COBOL formatter reads. -/
def OutputValue.toNumber : OutputValue → Value
  | .number value => value
  | _ => .other

def textResult {ε : Type} (wrap : ε → OutputError) (result : Except ε (List Char)) :
    Except OutputError Rendering :=
  (result.mapError wrap).map .text

def bytesResult (result : Except Cobol.Failure (List UInt8)) : Except OutputError Rendering :=
  (result.mapError .cobol).map .bytes

/-- The renderings of the format kernels, zeros of `integer/zero-pad/v1` apart. -/
def unpadded : OutputFormat → OutputValue → Except OutputError Rendering
  | .stringExact _, .text value => .ok (.text value)
  | .stringExact _, _ => .error .inputTypeIncompatible
  | .integerAscii _ type, value => textResult id (integerText type value)
  | .integerZeroPad _ type _ _, value => textResult id (integerText type value)
  | .decimalPlain _ spec, value => textResult .numeric (formatPlain spec.plain value.toNumber)
  | .decimalGrouped _ spec, value =>
      textResult .numeric (formatPlain spec.toNumberFormat value.toNumber)
  | .dateIso _ _, value => textResult id (dateText isoFormat value)
  | .dateStrftime _ format _, value => textResult id (dateText format value)
  | .currency _ spec, value => textResult .numeric (formatCurrency spec value.toNumber)
  | .overpunch spec, value => textResult .cobol (formatOverpunch spec value.toNumber)
  | .zoned spec, value => bytesResult (formatZoned spec value.toNumber)
  | .comp3 spec, value => bytesResult (formatComp3 spec value.toNumber)

/-- The kernel of the format. -/
def kernel (format : OutputFormat) (value : OutputValue) : Except OutputError Rendering :=
  match format with
  | .integerZeroPad slot type _ _ =>
      match integerText type value with
      | .error error => .error error
      | .ok text => textResult id (zeroPad (slot.width.getD 0) text)
  | format => unpadded format value

def isZeroPad : OutputFormat → Bool
  | .integerZeroPad _ _ _ _ => true
  | _ => false

/-- Padding to a declared width. -/
def padText (slot : Padded) (unit : WidthUnit) (text : List Char) :
    Except OutputError (List Char) :=
  match slot.width with
  | none => .ok text
  | some width =>
      let room := (width : Int) - measureText unit text
      if room < 0 then .error .widthOverflow
      else
        match slot.align with
        | .left => .ok (text ++ List.replicate room.toNat slot.pad)
        | .right => .ok (List.replicate room.toNat slot.pad ++ text)

/-- `compile_formatter`, before the inverse is checked. -/
def formatValue (format : OutputFormat) (value : OutputValue) : Except OutputError Rendering :=
  match kernel format value with
  | .error error => .error error
  | .ok (.bytes bytes) => .ok (.bytes bytes)
  | .ok (.text text) =>
      if isZeroPad format then .ok (.text text)
      else
        match format.slot with
        | none => .ok (.text text)
        | some slot => (padText slot format.unit text).map .text

def staticWidth : OutputFormat → Option Nat
  | .dateIso _ _ => some 10
  | .dateStrftime _ format _ => some (dateWidth format)
  | .overpunch spec | .zoned spec => some spec.precision
  | .comp3 spec => some (comp3Length spec.precision)
  | _ => none

def outputWidth (format : OutputFormat) : Option Nat :=
  match format.width with
  | some width => some width
  | none => staticWidth format

/-- Places of a number: whole part, fraction with its point, group separators. -/
def numberWidth (precision scale : Nat) (grouped : Bool) : Nat :=
  let whole := max (precision - scale) 1
  whole + (if scale = 0 then 0 else scale + 1) + (if grouped then (whole - 1) / 3 else 0)

/-- `max_rendered_width`: the width that no rendering of the format passes, where there is one; the
layout is sized by it before a row is seen. -/
def maxRenderedWidth (format : OutputFormat) : Option Nat :=
  match staticWidth format with
  | some fixed => some fixed
  | none =>
      match format with
      | .integerAscii _ type | .integerZeroPad _ type _ _ =>
          some (max (intText (intBounds type).1).length (intText (intBounds type).2).length)
      | .decimalPlain _ spec => some (numberWidth spec.precision spec.scale false + 1)
      | .decimalGrouped _ spec =>
          some (numberWidth spec.precision spec.scale spec.group.isSome + 1)
      | .currency _ spec =>
          some (numberWidth spec.precision spec.scale spec.group.isSome + 2 +
            measureText format.unit spec.token)
      | _ => none

/-- The width check of a fixed-width target (`plan/_checks_declared_casting.py`). -/
def slotAdmitted (format : OutputFormat) (layoutWidth : Nat) : Bool :=
  outputWidth format = some layoutWidth && !(format.unit = .bytes && !format.binary)

end DecoyEngine.DeclaredCasting.Output
