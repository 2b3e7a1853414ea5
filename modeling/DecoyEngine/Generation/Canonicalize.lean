import DecoyEngine.Data.BytesText
import DecoyEngine.Data.ByteFrames
import DecoyEngine.Data.Calendar
import DecoyEngine.Determinism.Derive
import Mathlib.Data.Nat.Size

namespace DecoyEngine.Generation

open DecoyEngine.Data DecoyEngine.Determinism

/-! Canonical source bytes: the Python rules (`generation/pool/_canonicalize.py`) and the native
ones (`decoy-engine-native/src/canonicalize.rs`). -/

inductive IntType where
  | int8 | int16 | int32 | int64
  | uint8 | uint16 | uint32 | uint64
deriving Repr, DecidableEq

/-- The values of the type, lower bound included and upper bound not. -/
def IntType.bounds : IntType → Int × Int
  | .int8 => (-2 ^ 7, 2 ^ 7)
  | .int16 => (-2 ^ 15, 2 ^ 15)
  | .int32 => (-2 ^ 31, 2 ^ 31)
  | .int64 => (-2 ^ 63, 2 ^ 63)
  | .uint8 => (0, 2 ^ 8)
  | .uint16 => (0, 2 ^ 16)
  | .uint32 => (0, 2 ^ 32)
  | .uint64 => (0, 2 ^ 64)

structure IntCell where
  type : IntType
  value : Int
  inside : type.bounds.1 ≤ value ∧ value < type.bounds.2

inductive TimeUnit where
  | second | millisecond | microsecond | nanosecond
deriving Repr, DecidableEq

inductive Cell where
  | boolean (value : Bool)
  | integer (value : IntCell)
  | text (value : String)
  | binary (value : Bytes)
  -- days since 1970-01-01
  | date (days : Int32)
  | timestamp (unit : TimeUnit) (timezone : Option String) (ticks : Int64)

/-- The values a cell or a caller can hand over.  An instant counts from 1970-01-01, in
microseconds, or in nanoseconds for a `pandas.Timestamp`. -/
inductive PyValue where
  | none
  | boolean (value : Bool)
  | integer (value : Int)
  | float (shown : String)
  | decimal (text : String)
  | datetime (micros : Int) (aware : Bool)
  | timestamp (nanos : Int) (aware : Bool)
  -- `pandas.NaT`, a datetime without a time zone
  | notATime
  | date (days : Int)
  | text (value : String)
  | binary (value : Bytes)

inductive GenerationError where
  | nullUnreachable
  | floatUnsupported (shown : String)
  | timezoneNaiveDatetime
  -- `int.to_bytes`, not wrapped
  | overflow
deriving Repr, DecidableEq

def GenerationError.code : GenerationError → String
  | .nullUnreachable => "null_canonicalization_unreachable"
  | .floatUnsupported _ => "float_canonicalization_unsupported"
  | .timezoneNaiveDatetime => "timezone_naive_datetime"
  | .overflow => "OverflowError"

/-- `int.bit_length`. -/
def bitLength (value : Int) : Nat := value.natAbs.size

/-- `int.to_bytes(length, "big", signed=True)`. -/
def toBytesSigned (value : Int) (length : Nat) : Option Bytes :=
  if -2 ^ (8 * length - 1) ≤ value ∧ value < 2 ^ (8 * length - 1) then
    toBytesBig (value % 256 ^ length).toNat length
  else none

def encodeInt (value : Int) : Option Bytes := do
  let nbytes := (bitLength value + 8) / 8
  let body ← toBytesSigned value nbytes
  frame body

/-- The fields `isoformat` reads, with the part below the second in nanoseconds. -/
structure ClockFields where
  date : Civil
  hour : Nat
  minute : Nat
  second : Nat
  nanos : Nat
deriving Repr, DecidableEq

def ClockFields.secondsText (fields : ClockFields) : List Char :=
  fields.date.isoText ++ 'T' :: zeroPadded 2 fields.hour ++ ':' :: zeroPadded 2 fields.minute ++
    ':' :: zeroPadded 2 fields.second

def utcOffset : List Char := ['+', '0', '0', ':', '0', '0']

def encodeText (chars : List Char) : Bytes := utf8 (String.ofList chars)

def fieldsOfMicros (micros : Int) : ClockFields :=
  let ofDay := (micros % 86400000000).toNat
  { date := civilOfDays (micros / 86400000000)
    hour := ofDay / 3600000000
    minute := ofDay / 60000000 % 60
    second := ofDay / 1000000 % 60
    nanos := ofDay % 1000000 * 1000 }

/-- `datetime.isoformat()` in UTC: microseconds where there are any. -/
def isoformatDatetime (micros : Int) : List Char :=
  let fields := fieldsOfMicros micros
  let microsecond := fields.nanos / 1000
  let fraction := if microsecond = 0 then [] else '.' :: zeroPadded 6 microsecond
  fields.secondsText ++ fraction ++ utcOffset

/-- `Timestamp.isoformat()` in UTC: the nanoseconds follow the microseconds. -/
def isoformatTimestamp (nanos : Int) : List Char :=
  let fields := fieldsOfMicros (nanos / 1000)
  let microsecond := fields.nanos / 1000
  let nanosecond := (nanos % 1000).toNat
  let fraction := if microsecond = 0 then [] else '.' :: zeroPadded 6 microsecond
  let below :=
    if nanosecond = 0 then fraction
    else if microsecond ≠ 0 then fraction ++ zeroPadded 3 nanosecond
    else '.' :: zeroPadded 9 nanosecond
  fields.secondsText ++ below ++ utcOffset

section Python

variable (nfc : String → String)

/-- `_canonicalize_source`: the bytes that a value is derived from, by its Python type. Floats and
times without a zone have no bytes that would be the same everywhere, and are refused. -/
def canonicalizeSource : PyValue → Except GenerationError Bytes
  | .none => .error .nullUnreachable
  | .boolean value => .ok [if value then 1 else 0]
  | .integer value =>
      match encodeInt value with
      | some bytes => .ok bytes
      | none => .error .overflow
  | .float shown => .error (.floatUnsupported shown)
  | .decimal text => .ok (utf8 text)
  | .datetime micros aware =>
      if aware then .ok (encodeText (isoformatDatetime micros))
      else .error .timezoneNaiveDatetime
  | .timestamp nanos aware =>
      if aware then .ok (encodeText (isoformatTimestamp nanos))
      else .error .timezoneNaiveDatetime
  | .notATime => .error .timezoneNaiveDatetime
  | .date days => .ok (encodeText (civilOfDays days).isoText)
  | .text value => .ok (utf8 (nfc value))
  -- `str` of a byte string is its `repr`
  | .binary value => .ok (utf8 (nfc (String.ofList (bytesRepr value))))

/-- Years that a `datetime` can hold. -/
def representable (micros : Int) : Prop :=
  1 ≤ (fieldsOfMicros micros).date.year ∧ (fieldsOfMicros micros).date.year ≤ 9999

instance (micros : Int) : Decidable (representable micros) := inferInstanceAs (Decidable (_ ∧ _))

inductive PythonFailure where
  -- a year that `datetime` cannot hold, in UTC or in the column's time zone
  | outOfRange
  | generation (error : GenerationError)
deriving DecidableEq

variable (utcoffset : String → Int → Int)

/-- `as_py` of a datetime column. -/
def datetimeAsPy (timezone : Option String) (micros : Int) : Except PythonFailure PyValue :=
  let localMicros := match timezone with
    | some zone => micros + utcoffset zone micros
    | none => micros
  if representable micros ∧ representable localMicros then
    .ok (.datetime micros timezone.isSome)
  else .error .outOfRange

/-- `as_py` of `pyarrow`; `utcoffset` is the time zone database. -/
def asPy : Cell → Except PythonFailure PyValue
  | .boolean value => .ok (.boolean value)
  | .integer value => .ok (.integer value.value)
  | .text value => .ok (.text value)
  | .binary value => .ok (.binary value)
  | .date days =>
      if representable (days.toInt * 86400000000) then .ok (.date days.toInt)
      else .error .outOfRange
  | .timestamp .second timezone ticks =>
      datetimeAsPy utcoffset timezone (ticks.toInt * 1000000)
  | .timestamp .millisecond timezone ticks =>
      datetimeAsPy utcoffset timezone (ticks.toInt * 1000)
  | .timestamp .microsecond timezone ticks => datetimeAsPy utcoffset timezone ticks.toInt
  | .timestamp .nanosecond timezone ticks =>
      if ticks = Int64.minValue then .ok .notATime
      else .ok (.timestamp ticks.toInt timezone.isSome)

def pythonCanonical (cell : Cell) : Except PythonFailure Bytes := do
  let value ← asPy utcoffset cell
  match canonicalizeSource nfc value with
  | .ok bytes => .ok bytes
  | .error error => .error (.generation error)

end Python

namespace Native

structure CanonError where
  code : String
  detail : String
deriving Repr, DecidableEq

def CanonError.unsupported (detail : String) : CanonError := ⟨"mixed_object_not_native", detail⟩

/-- `u128::leading_zeros`. -/
def leadingZeros (magnitude : Nat) : Nat :=
  ((List.range 128).reverse.takeWhile fun bit => !magnitude.testBit bit).length

/-- `u128::to_be_bytes`. -/
def toBeBytes (value : Nat) : Bytes := (fixedDigits 256 16 value).reverse.map UInt8.ofNat

def twosComplementBe (value : Int) (nbytes : Nat) : Bytes :=
  let modulus := 2 ^ (nbytes * 8)
  let unsigned := if 0 ≤ value then value.toNat else modulus - value.natAbs
  (toBeBytes unsigned).drop (16 - nbytes)

def encodeInt (value : Int) : Bytes :=
  let magnitude := value.natAbs
  let bitLength := if magnitude = 0 then 0 else 128 - leadingZeros magnitude
  let nbytes := (bitLength + 8) / 8
  let body := twosComplementBe value nbytes
  (fixedDigits 256 4 nbytes).reverse.map UInt8.ofNat ++ body

/-- Years that chrono's `NaiveDate` can hold. -/
def chronoYears : Int × Int := (-262143, 262142)

/-- `DateTime::from_timestamp(secs, nanos)`. -/
def fromTimestamp (secs : Int) (nanos : Nat) : Option ClockFields :=
  let date := civilOfDays (secs / 86400)
  let ofDay := (secs % 86400).toNat
  if chronoYears.1 ≤ date.year ∧ date.year ≤ chronoYears.2 then
    some { date, hour := ofDay / 3600, minute := ofDay / 60 % 60, second := ofDay % 60, nanos }
  else none

/-- The `timestamp_*_to_datetime` of `arrow_array::temporal_conversions`. -/
def toDatetime (unit : TimeUnit) (ticks : Int) : Option ClockFields :=
  match unit with
  | .second => fromTimestamp ticks 0
  | .millisecond => fromTimestamp (ticks / 1000) ((ticks % 1000).toNat * 1000000)
  | .microsecond => fromTimestamp (ticks / 1000000) ((ticks % 1000000).toNat * 1000)
  | .nanosecond => fromTimestamp (ticks / 1000000000) (ticks % 1000000000).toNat

def encodeTimestamp (unit : TimeUnit) (ticks : Int) : Except CanonError Bytes :=
  match toDatetime unit ticks with
  | none => .error (.unsupported "timestamp tick value out of the representable range")
  | some fields =>
      let fraction :=
        if fields.nanos = 0 then []
        else if fields.nanos % 1000 = 0 then '.' :: zeroPadded 6 (fields.nanos / 1000)
        else '.' :: zeroPadded 9 fields.nanos
      .ok (encodeText (fields.secondsText ++ fraction ++ utcOffset))

def typeName : Cell → String
  | .binary _ => "Binary"
  | .date _ => "Date32"
  | _ => ""

def canonicalizeRow (nfc : String → String) : Cell → Except CanonError Bytes
  | .text value => .ok (utf8 (nfc value))
  | .boolean value => .ok [if value then 1 else 0]
  | .integer value => .ok (encodeInt value.value)
  | .timestamp unit (some _) ticks => encodeTimestamp unit ticks.toInt
  | .timestamp _ none _ =>
      .error (.unsupported "timestamp column has no timezone (naive datetime)")
  | cell => .error (.unsupported s!"Arrow type {typeName cell} is not native-admitted")

def isAdmittedType : Cell → Bool
  | .text _ => true
  | .boolean _ => true
  | .integer _ => true
  | .timestamp _ (some _) _ => true
  | _ => false

end Native

end DecoyEngine.Generation
