import DecoyEngine.Data.Text

namespace DecoyEngine.Checksums

open DecoyEngine.Data

/-! The check-digit registry (`checksums.py`).

`luhn`, `iban`, `isbn13`, `ean13` and `gtin` delegate to the third-party package
python-stdnum, which the model takes as a parameter; `npi` and `vin` are the
engine's own code. -/

inductive Scheme where
  | luhn | npi | iban | vin | isbn13 | ean13 | gtin
deriving Repr, DecidableEq

def Scheme.name : Scheme → String
  | .luhn => "luhn"
  | .npi => "npi"
  | .iban => "iban"
  | .vin => "vin"
  | .isbn13 => "isbn13"
  | .ean13 => "ean13"
  | .gtin => "gtin"

/-- The python-stdnum entry points; a check-digit function that raises returns `none`. -/
structure Stdnum where
  luhnIsValid : List Char → Bool
  luhnCalcCheckDigit : List Char → Option (List Char)
  ibanIsValid : List Char → Bool
  ibanCalcCheckDigits : List Char → Option (List Char)
  isbnIsValid : List Char → Bool
  eanIsValid : List Char → Bool
  eanCalcCheckDigit : List Char → Option (List Char)

/-- One digit's contribution at distance `i` from the right end of the body. -/
def luhnTerm (i digit : Nat) : Nat :=
  if i % 2 = 0 then (if 9 < digit * 2 then digit * 2 - 9 else digit * 2) else digit

/-- The accumulated total of the digits from distance `i` on, rightmost first. -/
def luhnTotal (i : Nat) : List Nat → Nat
  | [] => 0
  | digit :: rest => luhnTerm i digit + luhnTotal (i + 1) rest

def luhnCd (digits : List Char) : Option (List Char) :=
  (digits.reverse.mapM decimalValue).map
    (fun values => [digitChar ((10 - luhnTotal 0 values % 10) % 10)])

/-- A whole number is Luhn-valid when its total, the last digit undoubled, ends in 0. -/
def luhnValid (number : List Char) : Bool :=
  match number.reverse.mapM decimalValue with
  | some values => luhnTotal 1 values % 10 == 0
  | none => false

def npiPrefix : List Char := ['8', '0', '8', '4', '0']

/-- `re.match(r"^\d{10}$", value)`: `\d` is any Unicode decimal digit and `$` also
matches before a final newline. -/
def npiReMatch (value : List Char) : Bool :=
  (value.take 10).length == 10 && (value.take 10).all (fun ch => (decimalValue ch).isSome) &&
    (value.drop 10 == [] || value.drop 10 == ['\n'])

def npiCalcCheckDigit (body : List Char) : Option (List Char) :=
  luhnCd (npiPrefix ++ body)

def npiValidate (value : List Char) : Bool :=
  if !npiReMatch value then false
  else if value[0]! ∉ ['1', '2'] then false
  else some [value[9]!] == npiCalcCheckDigit (value.take 9)

def vinTrans (ch : Char) : Option Nat :=
  match ch with
  | 'A' => some 1 | 'B' => some 2 | 'C' => some 3 | 'D' => some 4 | 'E' => some 5
  | 'F' => some 6 | 'G' => some 7 | 'H' => some 8 | 'J' => some 1 | 'K' => some 2
  | 'L' => some 3 | 'M' => some 4 | 'N' => some 5 | 'P' => some 7 | 'R' => some 9
  | 'S' => some 2 | 'T' => some 3 | 'U' => some 4 | 'V' => some 5 | 'W' => some 6
  | 'X' => some 7 | 'Y' => some 8 | 'Z' => some 9
  | '0' => some 0 | '1' => some 1 | '2' => some 2 | '3' => some 3 | '4' => some 4
  | '5' => some 5 | '6' => some 6 | '7' => some 7 | '8' => some 8 | '9' => some 9
  | _ => none

def vinWeights : List Nat := [8, 7, 6, 5, 4, 3, 2, 10, 0, 9, 8, 7, 6, 5, 4, 3, 2]

def vinCharset : List Char :=
  ['A', 'B', 'C', 'D', 'E', 'F', 'G', 'H', 'J', 'K', 'L', 'M', 'N', 'P', 'R', 'S', 'T', 'U', 'V',
   'W', 'X', 'Y', 'Z', '0', '1', '2', '3', '4', '5', '6', '7', '8', '9']

/-- The weighted sum; `none` is the `KeyError` of a foreign character or the
`IndexError` of an eighteenth one. -/
def vinSum : List Char → List Nat → Option Nat
  | [], _ => some 0
  | _ :: _, [] => none
  | ch :: rest, weight :: weights => do
      let value ← vinTrans ch
      let total ← vinSum rest weights
      some (value * weight + total)

def vinCheckChar (total : Nat) : Char :=
  if total % 11 = 10 then 'X' else digitChar (total % 11)

def vinCheckFromFull (vin17 : List Char) : Option (List Char) :=
  (vinSum vin17 vinWeights).map (fun total => [vinCheckChar total])

def vinCalcCheckDigit (body : List Char) : Option (List Char) :=
  vinCheckFromFull (body.take 8 ++ ['0'] ++ body.drop 8)

def vinValidate (value : List Char) : Bool :=
  let v := upper (strip value)
  if v.length ≠ 17 then false
  else if !v.all (fun ch => (vinTrans ch).isSome) then false
  else vinCheckFromFull v == some [v[8]!]

def validate (stdnum : Stdnum) : Scheme → List Char → Bool
  | .luhn, value => stdnum.luhnIsValid value
  | .npi, value => npiValidate value
  | .iban, value => stdnum.ibanIsValid value
  | .vin, value => vinValidate value
  | .isbn13, value => stdnum.isbnIsValid value
  | .ean13, value => stdnum.eanIsValid value
  | .gtin, value => stdnum.eanIsValid value

def calcCheckDigit (stdnum : Stdnum) : Scheme → List Char → Option (List Char)
  | .luhn, body => stdnum.luhnCalcCheckDigit body
  | .npi, body => npiCalcCheckDigit body
  | .iban, body => stdnum.ibanCalcCheckDigits (body.take 2 ++ ['x', 'x'] ++ body.drop 2)
  | .vin, body => vinCalcCheckDigit body
  | .isbn13, body => stdnum.eanCalcCheckDigit body
  | .ean13, body => stdnum.eanCalcCheckDigit body
  | .gtin, body => stdnum.eanCalcCheckDigit body

/-- `_SCHEME_REQUIRED_CHARSET`; `iban` has no entry. -/
def schemeRequiredCharset : Scheme → Option (List Char)
  | .iban => none
  | .vin => some vinCharset
  | _ => some asciiDigits

/-- python-stdnum's documented behaviour on printable ASCII text: the check-digit
functions take digit strings and return one digit, the Luhn and ISBN validators accept
exactly matching check digits, and the EAN validator first strips `-` separators. -/
structure Stdnum.Consistent (stdnum : Stdnum) : Prop where
  luhn_calc : ∀ body, (∀ ch ∈ body, ch ∈ asciiDigits) →
    ∃ check ∈ asciiDigits, stdnum.luhnCalcCheckDigit body = some [check]
  luhn_valid : ∀ body check, stdnum.luhnIsValid (body ++ [check]) = true →
    (∀ ch ∈ body ++ [check], ch ∈ asciiDigits) ∧ stdnum.luhnCalcCheckDigit body = some [check]
  ean_calc : ∀ body, (∀ ch ∈ body, ch ∈ asciiDigits) →
    ∃ check ∈ asciiDigits, stdnum.eanCalcCheckDigit body = some [check]
  ean_calc_digits : ∀ body check, (∀ ch ∈ body, isPrintableAscii ch = true) →
    stdnum.eanCalcCheckDigit body = some check → ∀ ch ∈ body, ch ∈ asciiDigits
  ean_valid : ∀ text, (∀ ch ∈ text, isPrintableAscii ch = true) → stdnum.eanIsValid text = true →
    ∃ body check, text.filter (fun ch => ch != '-') = body ++ [check] ∧
      (∀ ch ∈ body ++ [check], ch ∈ asciiDigits) ∧ stdnum.eanCalcCheckDigit body = some [check]
  isbn_valid : ∀ body check, body.length = 12 → (∀ ch ∈ body, ch ∈ asciiDigits) →
    isPrintableAscii check = true → stdnum.isbnIsValid (body ++ [check]) = true →
    stdnum.eanCalcCheckDigit body = some [check]

end DecoyEngine.Checksums
