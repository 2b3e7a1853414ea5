import DecoyEngine.Data.DecimalReader
import DecoyEngine.DeclaredCasting.OutputFormats
import DecoyEngine.Transforms.BucketPerturb
import Mathlib.Data.List.DropRight

namespace DecoyEngine.DeclaredCasting.Output

open DecoyEngine.Data hiding scaled
open DecoyEngine.DeclaredCasting.Numeric DecoyEngine.DeclaredCasting.NumberText
open DecoyEngine.DeclaredCasting.Cobol (parseOverpunch parseZoned parseComp3)
open DecoyEngine.Transforms.BucketPerturb (ofYmd)

/-! `compile_formatter` with its inverse check (`declared_casting/_catalog.py`): what is written is
read back by the parser of the inverse format. -/

/-- `_INT` -/
def intPattern : Regex Char := .seq (.opt (.set (· ∈ ['+', '-']))) (.plus digit)

/-- `int(raw)` -/
def readInt : List Char → Int
  | '-' :: digits => -(textNat digits : Int)
  | '+' :: digits => textNat digits
  | digits => textNat digits

def parseInteger (type : IntegerType) (raw : List Char) : Except OutputError Int :=
  if maxText < raw.length ∨ (Regex.fullmatch [intPattern] raw).isNone then .error .integerInvalid
  else
    let significant := (raw.dropWhile (· ∈ ['+', '-'])).dropWhile (· = '0')
    if (intText (intBounds type).2).length + 1 < significant.length then .error .integerOverflow
    else if (intBounds type).1 ≤ readInt raw ∧ readInt raw ≤ (intBounds type).2 then
      .ok (readInt raw)
    else .error .integerOverflow

/-- `_GROUP`, and `re.escape` of a literal. -/
def DatePart.pattern : DatePart → Regex Char
  | .year => .times digit 4
  | .month | .day => .times digit 2
  | .literal ch => NumberText.literal ch

/-- `int(m.group(name))` -/
def readField (parts : List DatePart) (words : List (List Char)) (part : DatePart) : Nat :=
  textNat (((parts.zip words).lookup part).getD [])

def parseDate (format : DateFormat) (raw : List Char) : Except OutputError Date :=
  if 32 < raw.length then .error .dateInvalid
  else
    match Regex.fullmatch (format.parts.map DatePart.pattern) raw with
    | none => .error .dateInvalid
    | some words =>
        let field := readField format.parts words
        match ofYmd (field .year) (field .month) (field .day) with
        | none => .error .dateInvalid
        | some date => .ok date

/-- A parser of text, on a rendering. -/
def onText {α ε : Type} (invalid : OutputError) (wrap : ε → OutputError) (build : α → OutputValue)
    (parse : List Char → Except ε α) : Rendering → Except OutputError OutputValue
  | .text raw => ((parse raw).mapError wrap).map build
  | .bytes _ => .error invalid

/-- A parser of bytes, on a rendering. -/
def onBytes {α ε : Type} (invalid : OutputError) (wrap : ε → OutputError) (build : α → OutputValue)
    (parse : List UInt8 → Except ε α) : Rendering → Except OutputError OutputValue
  | .text _ => .error invalid
  | .bytes raw => ((parse raw).mapError wrap).map build

def integerValue (value : Int) : OutputValue := .number (.int value)

def decimalValue (value : PyDecimal) : OutputValue := .number (.decimal value)

/-- The parse kernel of `desc.inverse` on the fields of the format. -/
def inverse : OutputFormat → Rendering → Except OutputError OutputValue
  | .stringExact _ =>
      onText .inputTypeIncompatible id OutputValue.text (fun raw => Except.ok raw)
  | .integerAscii _ type | .integerZeroPad _ type _ _ =>
      onText .integerInvalid id integerValue (parseInteger type)
  | .decimalPlain _ spec =>
      onText (.numeric .decimalInvalid) .numeric decimalValue (parsePlain spec)
  | .decimalGrouped _ spec =>
      onText (.numeric .decimalInvalid) .numeric decimalValue (parseGrouped spec)
  | .dateIso _ _ => onText .dateInvalid id .date (parseDate isoFormat)
  | .dateStrftime _ format _ => onText .dateInvalid id .date (parseDate format)
  | .currency _ spec =>
      onText (.numeric .currencyInvalid) .numeric decimalValue (parseCurrency spec)
  | .overpunch spec => onText (.cobol Cobol.bad) .cobol decimalValue (parseOverpunch spec)
  | .zoned spec => onBytes (.cobol Cobol.bad) .cobol decimalValue (parseZoned spec)
  | .comp3 spec => onBytes (.cobol Cobol.bad) .cobol decimalValue (parseComp3 spec)

/-- Precision and scale of a decimal twin. -/
def OutputFormat.decimals : OutputFormat → Option (Nat × Nat)
  | .decimalPlain _ spec => some (spec.precision, spec.scale)
  | .decimalGrouped _ spec => some (spec.precision, spec.scale)
  | .currency _ spec => some (spec.precision, spec.scale)
  | .overpunch spec | .zoned spec | .comp3 spec => some (spec.precision, spec.scale)
  | _ => none

/-- `_normalized` -/
def normalized (format : OutputFormat) (value : OutputValue) : Option OutputValue :=
  match format.decimals with
  | none => some value
  | some (precision, scale) =>
      match unscale value.toNumber scale precision with
      | .error _ => none
      | .ok (number, negative) => some (decimalValue (scaled number scale negative))

/-- `d.is_signed()` -/
def isSigned : PyDecimal → Bool
  | .infinity negative => negative
  | .finite negative _ _ => negative

/-- `_same` -/
def same : OutputValue → OutputValue → Bool
  | .text left, .text right => left == right
  | .date left, .date right => left == right
  | .number (.int left), .number (.int right) => left == right
  | .number (.decimal left), .number (.decimal right) =>
      left.exact == right.exact && isSigned left == isSigned right
  | _, _ => false

/-- The end of a text where its padding stands. -/
def Align.edge : Align → List Char → Option Char
  | .right, text => text.head?
  | .left, text => text.getLast?

/-- `emitted.lstrip(pad)` or `emitted.rstrip(pad)` -/
def Align.strip (pad : Char) : Align → List Char → List Char
  | .right, text => text.dropWhile (· == pad)
  | .left, text => text.rdropWhile (· == pad)

/-- The text without its padding, where a width is declared. -/
def probe (format : OutputFormat) : Rendering → Rendering
  | .bytes raw => .bytes raw
  | .text emitted =>
      if isZeroPad format then .text emitted
      else
        match format.slot with
        | none => .text emitted
        | some slot =>
            if slot.width.isSome then .text (slot.align.strip slot.pad emitted) else .text emitted

inductive FormatterError where
  /-- a failed outcome -/
  | row (failure : OutputError)
  /-- `DeclaredCastContractError` -/
  | contract (code message : String)
deriving DecidableEq

def notExactInverse : FormatterError :=
  .contract "declared_cast_contract_invalid" "formatter is not the exact inverse of its parser."

/-- A probe that does not give the value back. -/
def mismatch : OutputFormat → FormatterError
  | .stringExact _ => .row .widthOverflow
  | _ => notExactInverse

/-- The value was read back. -/
def readsBack (format : OutputFormat) (value : OutputValue) (probed : Rendering) : Bool :=
  match inverse format probed, normalized format value with
  | .ok back, some expected => same back expected
  | _, _ => false

/-- `_inverse_checked` -/
def inverseChecked (format : OutputFormat) (value : OutputValue) (emitted : Rendering) :
    Except FormatterError Rendering :=
  if readsBack format value (probe format emitted) then .ok emitted else .error (mismatch format)

/-- `compile_formatter` -/
def compileFormatter (format : OutputFormat) (value : OutputValue) :
    Except FormatterError Rendering :=
  match formatValue format value with
  | .error failure => .error (.row failure)
  | .ok emitted => inverseChecked format value emitted

end DecoyEngine.DeclaredCasting.Output
