import DecoyEngine.Data.Regex
import DecoyEngine.Data.Text

namespace DecoyEngine.Detection

open DecoyEngine.Data

/-! The patterns of the span detectors (`detection/_patterns.py` and the street pattern of
`detection/detectors.py`), over Unicode text. -/

/-- `\w`, `str.isalpha` and `str.upper`, character by character.  What Unicode says of them beyond
ASCII is left open. -/
structure WordClass where
  isWord : Char → Bool
  isAlpha : Char → Bool
  upper : Char → List Char
  ascii : ∀ ch, ch.toNat < 128 → isWord ch = (ch.isAlphanum || ch == '_')
  alpha_ascii : ∀ ch, ch.toNat < 128 → isAlpha ch = ch.isAlpha
  upper_ascii : ∀ ch, ch.toNat < 128 → upper ch = [ch.toUpper]
  /-- A digit is the uppercase of nothing but itself. -/
  upper_digit : ∀ ch, ∀ raised ∈ upper ch, isDigitChar raised = true → raised = ch

theorem isDigitChar_toUpper {ch : Char} (digit : isDigitChar ch.toUpper = true) :
    ch.toUpper = ch := by
  by_cases ascii : ch.toNat < 128
  · have all : ∀ code < 128, isDigitChar (Char.ofNat code).toUpper = true →
        (Char.ofNat code).toUpper = Char.ofNat code := by decide +kernel
    rw [← Char.ofNat_toNat ch] at digit ⊢
    exact all ch.toNat ascii digit
  · refine dif_neg ?_
    rintro ⟨-, high⟩
    exact ascii (Nat.lt_of_le_of_lt (UInt32.le_iff_toNat_le.mp high) (by decide))

/-- The characters of ASCII alone. -/
def WordClass.asciiOnly : WordClass where
  isWord ch := ch.isAlphanum || ch == '_'
  isAlpha := Char.isAlpha
  upper ch := [ch.toUpper]
  ascii _ _ := rfl
  alpha_ascii _ _ := rfl
  upper_ascii _ _ := rfl
  upper_digit ch raised member digit := by
    rw [List.mem_singleton.mp member] at digit ⊢
    exact isDigitChar_toUpper digit

/-- `text.upper()` -/
def WordClass.upperText (words : WordClass) (text : List Char) : List Char :=
  text.flatMap words.upper

/-- `text.isalpha()` -/
def WordClass.isLetters (words : WordClass) (text : List Char) : Bool :=
  !text.isEmpty && text.all words.isAlpha

section Notation

/-- `\d` -/
def isDigit (ch : Char) : Bool := (decimalValue ch).isSome

def digit : Regex Char := .set isDigit

def char (ch : Char) : Regex Char := .set (· == ch)

def among (chars : List Char) : Regex Char := .set (chars.contains ·)

def exactly (word : List Char) : Regex Char := .all (word.map char)

/-- The lowercase letters that `IGNORECASE` also finds in characters outside ASCII. -/
def extraCases : Char → List Nat
  | 'i' => [0x130, 0x131]
  | 's' => [0x17F]
  | 'k' => [0x212A]
  | _ => []

/-- A lowercase `letter` of the pattern under `IGNORECASE`. -/
def foldsTo (letter ch : Char) : Bool :=
  ch.toLower == letter || (extraCases letter).contains ch.toNat

/-- `[A-Za-z]` under `IGNORECASE`. -/
def isLetterIgnoreCase (ch : Char) : Bool :=
  ch.isAlpha || [0x130, 0x131, 0x17F, 0x212A].contains ch.toNat

def isAlphanumIgnoreCase (ch : Char) : Bool := isLetterIgnoreCase ch || ch.isDigit

def ignoreCase (word : String) : Regex Char :=
  .all (word.toList.map (fun letter => .set (foldsTo letter)))

end Notation

section Patterns

def emailRe : Regex Char :=
  .all [.plus (.set fun ch => ch.isAlphanum || ['.', '_', '%', '+', '-'].contains ch),
    char '@',
    .plus (.set fun ch => ch.isAlphanum || ['.', '-'].contains ch),
    char '.',
    .atLeast (.set Char.isAlpha) 2]

def ssnRe : Regex Char :=
  .all [.notAhead (.oneOf (exactly ['0', '0', '0'])
      [exactly ['6', '6', '6'], .all [char '9', .times digit 2]]),
    .times digit 3,
    .opt (char '-'),
    .notAhead (exactly ['0', '0']),
    .times digit 2,
    .opt (char '-'),
    .notAhead (exactly ['0', '0', '0', '0']),
    .times digit 4]

def phoneSeparator : Regex Char := .set fun ch => isSpace ch || ['.', '-'].contains ch

def usPhoneRe : Regex Char :=
  .all [.opt (.all [.opt (char '+'), char '1', .opt phoneSeparator]),
    .opt (char '('),
    .set (fun ch => '2' ≤ ch && ch ≤ '9'), .times digit 2,
    .opt (char ')'),
    .opt phoneSeparator,
    .set (fun ch => '2' ≤ ch && ch ≤ '9'), .times digit 2,
    .opt phoneSeparator,
    .times digit 4]

def usZipRe (words : WordClass) : Regex Char :=
  .all [.notBehind words.isWord,
    .times digit 5,
    .opt (.all [char '-', .times digit 4]),
    .notAhead (.set words.isWord),
    .notAhead (.all [char '.', digit])]

def panSeparator : Regex Char := .opt (.set fun ch => isSpace ch || ch == '-')

def panRe : Regex Char :=
  .all [.times digit 4, panSeparator, .times digit 4, panSeparator, .times digit 4, panSeparator,
    .between digit 1 7]

def ibanRe : Regex Char :=
  .all [.times (.set Char.isUpper) 2,
    .times digit 2,
    .between (.set fun ch => isSpace ch || ch.isUpper || ch.isDigit) 11 34]

def ipv4Re : Regex Char :=
  .all [.times (.all [.between digit 1 3, char '.']) 3, .between digit 1 3]

def icd10Re : Regex Char :=
  .all [.set isLetterIgnoreCase,
    .times digit 2,
    .opt (.all [.opt (char '.'), .between (.set isAlphanumIgnoreCase) 1 4])]

def npiRe : Regex Char := .times digit 10

def urlRe : Regex Char :=
  .all [exactly ['h', 't', 't', 'p'], .opt (char 's'), exactly [':', '/', '/'],
    .atLeast (.set fun ch => ch.isAlphanum ||
      ['-', '.', '_', '~', ':', '/', '?', '#', '[', ']', '@', '!', '$', '&', '\'', '(', ')', '*',
        '+', ',', ';', '=', '%'].contains ch) 4]

/-- `_USPS_STREET_SUFFIXES` -/
def uspsStreetSuffixes : List String :=
  ["street", "st", "avenue", "ave", "boulevard", "blvd", "road", "rd", "drive", "dr", "lane", "ln",
   "court", "ct", "circle", "cir", "place", "pl", "terrace", "ter", "trail", "trl", "parkway",
   "pkwy", "highway", "hwy", "way", "plaza", "plz", "square", "sq", "expressway", "expy",
   "freeway", "fwy", "crossing", "xing", "loop", "alley", "aly", "bend", "cove", "cv", "point",
   "pt", "ridge", "rdg"]

/-- The secondary-unit designators of the street pattern. -/
def streetUnits : List String := ["apt", "apartment", "suite", "ste", "unit", "#"]

/-- `(?:first|second|...)` of words, any case. -/
def anyOf : List String → Regex Char
  | [] => .empty
  | first :: others => .oneOf (ignoreCase first) (others.map ignoreCase)

/-- `[A-Za-z0-9'.\-]` under `IGNORECASE`. -/
def isStreetWordChar (ch : Char) : Bool :=
  isAlphanumIgnoreCase ch || ['\'', '.', '-'].contains ch

/-- `[\w\-]` -/
def isUnitChar (words : WordClass) (ch : Char) : Bool := words.isWord ch || ch == '-'

/-- `[\s,.;:!?)"']` -/
def isStreetEndChar (ch : Char) : Bool :=
  isSpace ch || [',', '.', ';', ':', '!', '?', ')', '"', '\''].contains ch

def streetWord : Regex Char :=
  .all [.set isAlphanumIgnoreCase, .star (.set isStreetWordChar), .plus (.set isSpace)]

def streetUnit (words : WordClass) : Regex Char :=
  .all [.plus (.set isSpace),
    anyOf streetUnits,
    .opt (char '.'),
    .star (.set isSpace),
    .plus (.set (isUnitChar words))]

def streetEnd : Regex Char :=
  .oneOf (.set isStreetEndChar) [.finish (· == '\n')]

def streetAddressRe (words : WordClass) : Regex Char :=
  .all [.boundary words.isWord,
    .between digit 1 6,
    .plus (.set isSpace),
    .between streetWord 1 4,
    anyOf uspsStreetSuffixes,
    .opt (char '.'),
    .opt (streetUnit words),
    .ahead streetEnd]

end Patterns

end DecoyEngine.Detection
