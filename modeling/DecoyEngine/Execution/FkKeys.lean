import DecoyEngine.Data.Double
import DecoyEngine.Data.BytesText

namespace DecoyEngine.Execution

open DecoyEngine.Data

/-! Canonical FK match keys and their join tokens (`execution/_fk_keys.py`). -/

/-- A finite Decimal an Arrow decimal column can hold. -/
structure KeyDecimal where
  negative : Bool
  coefficient : Nat
  exponent : Int
  coefficient_lt : coefficient < 10 ^ 76
  exponent_ge : -76 ≤ exponent
  exponent_le : exponent ≤ 76
deriving DecidableEq

/-- A naive instant of the years 1 to 9999: the `timedelta` since 1970-01-01, and the
nanosecond of a `pd.Timestamp` (0 for a `datetime`). -/
structure NaiveTimestamp where
  days : Int
  inYears : -719162 ≤ days ∧ days ≤ 2932896
  seconds : Fin 86400
  microseconds : Fin 1000000
  nanosecond : Fin 1000
deriving DecidableEq

/-- A component of a foreign key as Python holds it, with the types that the key functions tell
apart. -/
inductive FkComponent where
  | null
  | bool (value : Bool)
  | int (value : Int)
  | float (value : Double)
  | decimal (value : KeyDecimal)
  | str (text : List Char)
  | bytes (value : List UInt8)
  -- by its proleptic Gregorian ordinal
  | date (ordinal : Nat)
  | timestamp (value : NaiveTimestamp)
  | notATime
deriving DecidableEq

/-- What `fk_key_value` returns: a bool, a whole float and a whole Decimal have become ints, a
missing value the sentinel. -/
inductive KeyValue where
  | nullFkKey
  | int (value : Int)
  | float (value : DoubleNumber)
  | decimal (value : KeyDecimal)
  | str (text : List Char)
  | bytes (value : List UInt8)
  | date (ordinal : Nat)
  | timestamp (value : NaiveTimestamp)
  | notATime
deriving DecidableEq

def withSign (negative : Bool) (magnitude : Nat) : Int :=
  if negative then -(magnitude : Int) else magnitude

namespace KeyDecimal

variable (value : KeyDecimal)

/-- `int(abs(value))`. -/
def truncated : Nat :=
  if 0 ≤ value.exponent then value.coefficient * 10 ^ value.exponent.toNat
  else value.coefficient / 10 ^ (-value.exponent).toNat

/-- `value == int(value)`. -/
def isInteger : Bool :=
  0 ≤ value.exponent || value.coefficient % 10 ^ (-value.exponent).toNat = 0

def toDecimal : PyDecimal := .finite value.negative value.coefficient value.exponent

end KeyDecimal

/-- `_fk_key_value`: the value under which the parent map finds a component. Integral floats and
decimals are the integer they are equal to, and every null is one key. -/
def fkKeyValue : FkComponent → KeyValue
  | .null => .nullFkKey
  | .bool value => .int (if value then 1 else 0)
  | .int value => .int value
  | .float .nan => .nullFkKey
  | .float (.number (.infinity negative)) => .float (.infinity negative)
  | .float (.number (.finite negative magnitude)) =>
      if magnitude.isInteger then .int (withSign negative magnitude.truncated)
      else .float (.finite negative magnitude)
  | .decimal value =>
      if value.isInteger then .int (withSign value.negative value.truncated) else .decimal value
  | .str text => .str text
  | .bytes value => .bytes value
  | .date ordinal => .date ordinal
  | .timestamp value => .timestamp value
  | .notATime => .notATime

/-- `_DECIMAL_JOIN_CONTEXT`. -/
def joinPrecision : Nat := 200

def decimalJoinToken (value : PyDecimal) : List Char :=
  match value.normalize joinPrecision with
  | .finite negative coefficient exponent =>
      if coefficient = 0 then (PyDecimal.finite false coefficient exponent).repr
      else (PyDecimal.finite negative coefficient exponent).repr
  | .infinity negative => (PyDecimal.infinity negative).repr

def decimalOf : DoubleNumber → PyDecimal
  | .infinity negative => .infinity negative
  | .finite negative magnitude => magnitude.toDecimal negative

def epochNanoseconds (value : NaiveTimestamp) : Int :=
  (value.days * 86400 + value.seconds) * 10 ^ 9 + value.microseconds * 1000 + value.nanosecond

inductive TokenTag where
  | null
  | int
  | dec
  | str
  | ts
  | date
  | obj
deriving DecidableEq

def TokenTag.text : TokenTag → List Char
  | .null => ['\x00', 'N', 'U', 'L', 'L']
  | .int => ['\x00', 'I', 'N', 'T', ':']
  | .dec => ['\x00', 'D', 'E', 'C', ':']
  | .str => ['\x00', 'S', 'T', 'R', ':']
  | .ts => ['\x00', 'T', 'S', ':']
  | .date => ['\x00', 'D', 'A', 'T', 'E', ':']
  | .obj => ['\x00', 'O', 'B', 'J', ':']

def KeyValue.tag : KeyValue → TokenTag
  | .nullFkKey => .null
  | .int _ => .int
  | .float _ => .dec
  | .decimal _ => .dec
  | .str _ => .str
  | .bytes _ => .obj
  | .date _ => .date
  | .timestamp _ => .ts
  | .notATime => .obj

def KeyValue.body : KeyValue → List Char
  | .nullFkKey => []
  | .int value => intText value
  | .float value => decimalJoinToken (decimalOf value)
  | .decimal value => decimalJoinToken value.toDecimal
  | .str text => framed text
  | .bytes value => "bytes:".toList ++ bytesRepr value
  | .date ordinal => natText ordinal
  | .timestamp value => intText (epochNanoseconds value)
  -- unequal to itself, so the instant branch passes it on to `type:repr`
  | .notATime => "NaTType:NaT".toList

def KeyValue.token (value : KeyValue) : List Char := value.tag.text ++ value.body

/-- `f"{value}"` of an int raises over 4300 digits. -/
def KeyValue.isPrintable : KeyValue → Bool
  | .int value => value.natAbs < 10 ^ intMaxStrDigits
  | _ => true

inductive FkKeyError where
  | valueError
deriving Repr, DecidableEq

def fkJoinKey (value : FkComponent) : Except FkKeyError (List Char) :=
  let normalized := fkKeyValue value
  if normalized.isPrintable then .ok normalized.token else .error .valueError

/-- The token of a component whose int, if it is one, prints. -/
def FkComponent.joinText (value : FkComponent) : List Char := (fkKeyValue value).token

def joinTextTuple (values : List FkComponent) : List Char :=
  (values.map FkComponent.joinText).flatMap framed

def fkJoinKeyTuple (values : List FkComponent) : Except FkKeyError (List Char) := do
  let parts ← values.mapM fkJoinKey
  .ok (parts.flatMap framed)

/-- An exact number: Python compares ints, floats and Decimals by value. -/
inductive PyNumber where
  | infinite (negative : Bool)
  | finite (value : ℚ)
deriving DecidableEq

def FkComponent.number : FkComponent → Option PyNumber
  | .bool value => some (.finite (if value then 1 else 0))
  | .int value => some (.finite value)
  | .float (.number (.infinity negative)) => some (.infinite negative)
  | .float (.number (.finite negative magnitude)) =>
      some (.finite (signedValue negative magnitude.value))
  | .decimal value =>
      some (.finite (signedValue value.negative (scaled value.coefficient value.exponent)))
  | _ => none

def KeyValue.number : KeyValue → Option PyNumber
  | .int value => some (.finite value)
  | .float (.infinity negative) => some (.infinite negative)
  | .float (.finite negative magnitude) => some (.finite (signedValue negative magnitude.value))
  | .decimal value =>
      some (.finite (signedValue value.negative (scaled value.coefficient value.exponent)))
  | _ => none

/-- `left == right`. -/
def pyEq (left right : KeyValue) : Bool :=
  match left.number, right.number with
  | some left, some right => left = right
  | some _, none => false
  | none, some _ => false
  | none, none => left = right && left ≠ .notATime

theorem signedValue_natCast (negative : Bool) (magnitude : Nat) :
    ((withSign negative magnitude : Int) : ℚ) = signedValue negative magnitude := by
  cases negative <;> simp [withSign, signedValue]

theorem signedValue_inj {left right : Bool} {leftValue rightValue : ℚ} (leftPos : 0 < leftValue)
    (rightPos : 0 < rightValue)
    (same : signedValue left leftValue = signedValue right rightValue) :
    left = right ∧ leftValue = rightValue := by
  cases left <;> cases right <;> simp only [signedValue, if_true, Bool.false_eq_true, if_false] at same
  · exact ⟨rfl, same⟩
  · exfalso
    linarith
  · exfalso
    linarith
  · exact ⟨rfl, neg_injective same⟩

theorem KeyDecimal.truncated_eq {value : KeyDecimal} (whole : value.isInteger = true) :
    (value.truncated : ℚ) = scaled value.coefficient value.exponent := by
  rw [truncated]
  split
  · rename_i nonnegative
    rw [scaled_of_nonnegative _ nonnegative]
  · rename_i negative
    simp only [isInteger, Bool.or_eq_true, decide_eq_true_eq, negative, false_or] at whole
    rw [scaled_of_negative _ (by omega),
      Nat.cast_div (Nat.dvd_of_mod_eq_zero whole) (by positivity)]

theorem number_fkKeyValue (component : FkComponent) :
    (fkKeyValue component).number = component.number := by
  cases component with
  | bool value => cases value <;> rfl
  | float value =>
      cases value with
      | nan => rfl
      | number value =>
          cases value with
          | infinity negative => rfl
          | finite negative magnitude =>
              simp only [fkKeyValue, FkComponent.number]
              split
              · rename_i whole
                simp only [KeyValue.number, signedValue_natCast,
                  DoubleMagnitude.truncated_eq whole]
              · rfl
  | decimal value =>
      simp only [fkKeyValue, FkComponent.number]
      split
      · rename_i whole
        simp only [KeyValue.number, signedValue_natCast, KeyDecimal.truncated_eq whole]
      · rfl
  | _ => rfl

/-- A normalized number that is not an int is fractional or infinite. -/
def KeyValue.Normal : KeyValue → Prop
  | .float (.finite _ magnitude) => magnitude.isInteger = false
  | .decimal value => value.isInteger = false
  | _ => True

theorem fkKeyValue_normal (component : FkComponent) : (fkKeyValue component).Normal := by
  cases component with
  | float value =>
      cases value with
      | nan => trivial
      | number value =>
          cases value with
          | infinity negative => trivial
          | finite negative magnitude =>
              simp only [fkKeyValue]
              split
              · trivial
              · rename_i fractional
                simpa [KeyValue.Normal] using fractional
  | decimal value =>
      simp only [fkKeyValue]
      split
      · trivial
      · rename_i fractional
        simpa [KeyValue.Normal] using fractional
  | _ => trivial

end DecoyEngine.Execution
