import DecoyEngine.Data.DigitText
import DecoyEngine.DeclaredCasting.Numeric

namespace DecoyEngine.DeclaredCasting.Cobol

open DecoyEngine.Data hiding scaled
open DecoyEngine.DeclaredCasting.Numeric

/-! COBOL field codecs (`declared_casting/_cobol.py`): trailing overpunch in ASCII, zoned decimal in
EBCDIC and COMP-3 packed decimal. -/

/-- A declared picture. -/
structure Picture where
  precision : Nat
  scale : Nat
  signed : Bool
  precision_range : 1 ≤ precision ∧ precision ≤ 38
  scale_le : scale ≤ precision

inductive Failure where
  | registered (reason : Reason)
  /-- `int.to_bytes` of an integer that does not fit -/
  | overflowError
deriving Repr, DecidableEq

def bad : Failure := .registered .cobolInvalid

/-- `POSITIVE` -/
def positive : List Char := "\x7bABCDEFGHI".toList

/-- `NEGATIVE` -/
def negative : List Char := "\x7dJKLMNOPQR".toList

/-- `_OVERPUNCH` -/
def overpunch : List (Char × Nat × Bool) :=
  positive.zipIdx.map (fun entry => (entry.1, entry.2, false)) ++
    negative.zipIdx.map (fun entry => (entry.1, entry.2, true))

def zonedPositive : List Nat := [0xA, 0xC, 0xE]

def zonedNegative : List Nat := [0xB, 0xD]

def comp3Length (precision : Nat) : Nat := (precision + 2) / 2

/-- `int(ch)` of an ASCII digit. -/
def digitOf (ch : Char) : Nat := ch.toNat - 48

/-- `_digits_value` -/
def digitsValue (digits : List Char) (spec : Picture) (isNegative : Bool) : PyDecimal :=
  scaled (textNat digits) spec.scale isNegative

/-- A failure of `unscale` as the formatter returns it. -/
def unscaled (spec : Picture) (value : Value) : Except Failure (Nat × Bool) :=
  (unscale value spec.scale spec.precision).mapError .registered

/-- An overpunch field: digits, the last of which carries the sign in its letter. -/
def parseOverpunch (spec : Picture) (raw : List Char) : Except Failure PyDecimal :=
  if raw.length ≠ spec.precision then .error bad
  else
    match raw.getLast? with
    | none => .error bad
    | some last =>
        let body := raw.dropLast
        match overpunch.lookup last with
        | none => .error bad
        | some (digit, isNegative) =>
            if body.all (· ∈ asciiDigits) then
              .ok (digitsValue (body ++ [digitChar digit]) spec isNegative)
            else .error bad

def formatOverpunch (spec : Picture) (value : Value) : Except Failure (List Char) :=
  match unscaled spec value with
  | .error failure => .error failure
  | .ok (number, isNegative) =>
      let digits := rjustDigits number spec.precision
      let table := if isNegative then negative else positive
      .ok (digits.dropLast ++
        (digits.getLast?.bind (fun last => table[digitOf last]?)).toList)

def zone (byte : UInt8) : Nat := byte.toNat >>> 4

def digit (byte : UInt8) : Nat := byte.toNat &&& 0xF

def zonedByte (zone digit : Nat) : UInt8 := UInt8.ofNat (zone <<< 4 ||| digit)

/-- The loop over the bytes: digits everywhere, the zone `F` on all but the last. -/
def zonedDigits : List UInt8 → Except Failure (List Char)
  | [] => .ok []
  | byte :: rest =>
      if 9 < digit byte then .error bad
      else if rest ≠ [] ∧ zone byte ≠ 0xF then .error bad
      else (zonedDigits rest).map (digitChar (digit byte) :: ·)

/-- A zoned field in EBCDIC: a digit in the low nibble of each byte, the sign in the zone of the
last. -/
def parseZoned (spec : Picture) (raw : List UInt8) : Except Failure PyDecimal :=
  if raw.length ≠ spec.precision then .error bad
  else
    match zonedDigits raw with
    | .error failure => .error failure
    | .ok digits =>
        match raw.getLast? with
        | none => .error bad
        | some last =>
            if spec.signed then
              if zone last ∉ zonedPositive ∧ zone last ∉ zonedNegative then .error bad
              else .ok (digitsValue digits spec (decide (zone last ∈ zonedNegative)))
            else if zone last ≠ 0xF then .error bad
            else .ok (digitsValue digits spec false)

/-- The sign nibble of a formatted field. -/
def signNibble (spec : Picture) (isNegative : Bool) : Nat :=
  if spec.signed then (if isNegative then 0xD else 0xC) else 0xF

def formatZoned (spec : Picture) (value : Value) : Except Failure (List UInt8) :=
  match unscaled spec value with
  | .error failure => .error failure
  | .ok (number, isNegative) =>
      if isNegative ∧ ¬ spec.signed then .error bad
      else
        let digits := rjustDigits number spec.precision
        let out := digits.map (fun ch => zonedByte 0xF (digitOf ch))
        .ok (out.dropLast ++ (digits.getLast?.map (fun last =>
          zonedByte (signNibble spec isNegative) (digitOf last))).toList)

def nibbles (raw : List UInt8) : List Nat := raw.flatMap (fun byte => [zone byte, digit byte])

def parseComp3 (spec : Picture) (raw : List UInt8) : Except Failure PyDecimal :=
  if raw.length ≠ comp3Length spec.precision then .error bad
  else
    let digitNibbles := (nibbles raw).dropLast
    let sign := (nibbles raw).getLastD 0
    if digitNibbles.any (fun nibble => decide (9 < nibble)) then .error bad
    else if spec.precision < digitNibbles.length ∧ digitNibbles.head? ≠ some 0 then .error bad
    else if spec.signed then
      if sign ∉ [0xC, 0xD] then .error bad
      else .ok (digitsValue (digitNibbles.map digitChar) spec (sign == 0xD))
    else if sign ≠ 0xF then .error bad
    else .ok (digitsValue (digitNibbles.map digitChar) spec (sign == 0xD))

/-- `int(digits, 16)` of decimal digits. -/
def hexNat (digits : List Char) : Nat :=
  digits.foldl (fun value ch => value * 16 + digitOf ch) 0

def formatComp3 (spec : Picture) (value : Value) : Except Failure (List UInt8) :=
  match unscaled spec value with
  | .error failure => .error failure
  | .ok (number, isNegative) =>
      if isNegative ∧ ¬ spec.signed then .error bad
      else
        let length := comp3Length spec.precision
        let digits := rjustDigits number (2 * length - 1)
        let packed := hexNat digits * 16 + signNibble spec isNegative
        match toBytesBig packed length with
        | some bytes => .ok bytes
        | none => .error .overflowError

end DecoyEngine.DeclaredCasting.Cobol
