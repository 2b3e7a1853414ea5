import DecoyEngine.Data.DecimalText
import DecoyEngine.Detection.Patterns

namespace DecoyEngine.Detection

open DecoyEngine.Data

/-! The per-value validators of the span detectors (`detection/_validators.py`).  `none` is the
`ValueError` of an `int` that is not caught. -/

/-- One digit of a Luhn sum. -/
def luhnDigit (double : Bool) (d : Nat) : Nat :=
  if double then (if 2 * d > 9 then 2 * d - 9 else 2 * d) else d

/-- `for i, ch in enumerate(reversed(digits))`, doubling where `i % 2` is `parity`. -/
def luhnTotal (parity : Nat) (digits : List Nat) : Nat :=
  (digits.reverse.zipIdx.map fun entry => luhnDigit (entry.2 % 2 == parity) entry.1).sum

/-- `re.sub(r"[\s-]", "", value)` -/
def dropSeparators (value : List Char) : List Char :=
  value.filter (fun ch => !(isSpace ch || ch == '-'))

/-- `_luhn_valid` -/
def luhnValid (value : List Char) : Option Bool :=
  let digits := dropSeparators value
  if !isDigits digits || digits.length < 13 then some false
  else (digits.mapM decimalValue).map fun values => luhnTotal 1 values % 10 == 0

/-- `_IBAN_COUNTRIES` -/
def ibanCountries : List (Char × Char) :=
  [('A', 'D'), ('A', 'E'), ('A', 'L'), ('A', 'T'), ('A', 'Z'), ('B', 'A'), ('B', 'E'), ('B', 'G'),
   ('B', 'H'), ('B', 'R'), ('B', 'Y'), ('C', 'H'), ('C', 'R'), ('C', 'Y'), ('C', 'Z'), ('D', 'E'),
   ('D', 'K'), ('D', 'O'), ('E', 'E'), ('E', 'G'), ('E', 'S'), ('F', 'I'), ('F', 'O'), ('F', 'R'),
   ('G', 'B'), ('G', 'E'), ('G', 'I'), ('G', 'L'), ('G', 'R'), ('G', 'T'), ('H', 'R'), ('H', 'U'),
   ('I', 'E'), ('I', 'L'), ('I', 'Q'), ('I', 'S'), ('I', 'T'), ('J', 'O'), ('K', 'W'), ('K', 'Z'),
   ('L', 'B'), ('L', 'C'), ('L', 'I'), ('L', 'T'), ('L', 'U'), ('L', 'V'), ('M', 'C'), ('M', 'D'),
   ('M', 'E'), ('M', 'K'), ('M', 'R'), ('M', 'T'), ('M', 'U'), ('N', 'L'), ('N', 'O'), ('P', 'K'),
   ('P', 'L'), ('P', 'S'), ('P', 'T'), ('Q', 'A'), ('R', 'O'), ('R', 'S'), ('R', 'U'), ('S', 'A'),
   ('S', 'C'), ('S', 'E'), ('S', 'I'), ('S', 'K'), ('S', 'M'), ('S', 'T'), ('S', 'V'), ('T', 'L'),
   ('T', 'N'), ('T', 'R'), ('U', 'A'), ('V', 'A'), ('V', 'G'), ('X', 'K')]

/-- What stands for one character of an IBAN; the code of a letter is `ord(c) - 55`. -/
def ibanDigits (words : WordClass) (ch : Char) : Option (List Char) :=
  if isDigitChar ch then some [ch]
  else if words.isAlpha ch then some (natText (ch.toNat - 55))
  else none

/-- `_iban_valid`, which catches the `ValueError`. -/
def ibanValid (words : WordClass) (value : List Char) : Bool :=
  let iban := (words.upperText value).filter (fun ch => !isSpace ch)
  if iban.length < 15 || 34 < iban.length then false
  else if !(words.isLetters (iban.take 2) && isDigits ((iban.take 4).drop 2)) then false
  else if !(ibanCountries.any fun country => iban.take 2 == [country.1, country.2]) then false
  else
    match (iban.drop 4 ++ iban.take 4).mapM (ibanDigits words) with
    | none => false
    | some digits => (intOf digits.flatten).any fun number => number % 97 == 1

/-- `text.split(separator)` -/
def splitOn (separator : Char) : List Char → List (List Char)
  | [] => [[]]
  | ch :: rest =>
      if ch == separator then [] :: splitOn separator rest
      else
        match splitOn separator rest with
        | [] => [[ch]]
        | part :: parts => (ch :: part) :: parts

/-- The loop of `_ipv4_valid` over the parts. -/
def octetsValid : List (List Char) → Option Bool
  | [] => some true
  | part :: parts =>
      if !isDigits part || 3 < part.length then some false
      else
        match intOf part with
        | none => none
        | some number => if 255 < number then some false else octetsValid parts

/-- `_ipv4_valid` -/
def ipv4Valid (value : List Char) : Option Bool :=
  let parts := splitOn '.' value
  if parts.length != 4 then some false else octetsValid parts

/-- `_npi_valid` -/
def npiValid (value : List Char) : Option Bool :=
  let digits := dropSeparators value
  if !isDigits digits || digits.length != 10 then some false
  else
    match (['8', '0', '8', '4', '0'] ++ digits.take 9).mapM decimalValue,
        decimalValue (digits.getD 9 '0') with
    | some prefixed, some check => some ((10 - luhnTotal 0 prefixed % 10) % 10 == check)
    | _, _ => none

/-- `_ICD10_CHAPTERS` -/
def icd10Chapters : List (Char × (Nat × Nat)) :=
  [('A', (0, 99)), ('B', (0, 99)), ('C', (0, 99)), ('D', (0, 89)), ('E', (0, 89)), ('F', (1, 99)),
   ('G', (0, 99)), ('H', (0, 95)), ('I', (0, 99)), ('J', (0, 99)), ('K', (0, 95)), ('L', (0, 99)),
   ('M', (0, 99)), ('N', (0, 99)), ('O', (0, 99)), ('P', (0, 96)), ('Q', (0, 99)), ('R', (0, 99)),
   ('S', (0, 99)), ('T', (0, 88)), ('U', (0, 85)), ('V', (0, 99)), ('W', (0, 99)), ('X', (0, 99)),
   ('Y', (0, 99)), ('Z', (0, 99))]

/-- `_icd10_valid` -/
def icd10Valid (words : WordClass) (value : List Char) : Option Bool :=
  let v := (words.upperText (strip value)).filter (· != '.')
  match v with
  | chapter :: tens :: units :: rest =>
      if !(rest.length ≤ 4 && words.isAlpha chapter && isDigitChar tens && isDigitChar units) then
        some false
      else
        match icd10Chapters.lookup chapter with
        | none => some false
        | some (low, high) =>
            (intOf [tens, units]).map fun category => low ≤ category && category ≤ high
  | _ => some false

end DecoyEngine.Detection
