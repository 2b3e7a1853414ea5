import DecoyEngine.Data.Batches
import DecoyEngine.Data.RegexRun

namespace DecoyEngine.Detection.Native

open DecoyEngine.Data

/-! The byte scanners and validators of the native detector kernel
(`decoy-engine-native/src/text_redact.rs`).  `holdsAt test b i` is `i < n && test(b[i])`, and
`skip test b i` is where `while i < n && test(b[i]) { i += 1 }` stops. -/

/-- `text.as_bytes()` -/
def asBytes (text : List Char) : List UInt8 := text.flatMap String.utf8EncodeChar

def byte (ch : Char) : UInt8 := ch.toUInt8

def bytes (text : String) : List UInt8 := text.toList.map byte

section Classes

def isAsciiDigit (b : UInt8) : Bool := byte '0' ≤ b && b ≤ byte '9'

def isAsciiUppercase (b : UInt8) : Bool := byte 'A' ≤ b && b ≤ byte 'Z'

def isAsciiLowercase (b : UInt8) : Bool := byte 'a' ≤ b && b ≤ byte 'z'

def isAsciiAlphabetic (b : UInt8) : Bool := isAsciiUppercase b || isAsciiLowercase b

def isAsciiAlphanumeric (b : UInt8) : Bool := isAsciiAlphabetic b || isAsciiDigit b

def toAsciiLowercase (b : UInt8) : UInt8 := if isAsciiUppercase b then b + 32 else b

def toAsciiUppercase (b : UInt8) : UInt8 := if isAsciiLowercase b then b - 32 else b

def isAsciiWord (b : UInt8) : Bool := isAsciiAlphanumeric b || b == byte '_'

def isAsciiSpace (b : UInt8) : Bool := [byte ' ', 9, 10, 0x0b, 0x0c, 13].contains b

def asciiCiEq (hay : List UInt8) (needle : String) : Bool :=
  let nb := bytes needle
  hay.length == nb.length && (hay.zip nb).all fun (h, m) => toAsciiLowercase h == m

/-- Every code point is ASCII, and none is in 0x1c-0x1f. -/
def isEligible (text : List Char) : Bool :=
  text.all (fun ch => ch.toNat < 128) && !((asBytes text).any fun b => 0x1c ≤ b && b ≤ 0x1f)

end Classes

section Scanners

open Regex (holdsAt skip)

/-- `while p < n`: push a match and go on from its end, else try the next position. -/
def scanFrom (matchAt : Nat → Option Nat) (n : Nat) (idx : UInt32) :
    Nat → Nat → List (UInt32 × UInt32 × UInt32)
  | 0, _ => []
  | fuel + 1, p =>
      if p < n then
        match matchAt p with
        | some stop => (idx, p.toUInt32, stop.toUInt32) :: scanFrom matchAt n idx fuel stop
        | none => scanFrom matchAt n idx fuel (p + 1)
      else []

/-- The end of a social security number that begins at `p`: area, group and serial with their
forbidden values, the hyphens between them optional. -/
def ssnMatchAt (b : List UInt8) (p : Nat) : Option Nat :=
  let n := b.length
  if p + 3 > n || !holdsAt isAsciiDigit b p || !holdsAt isAsciiDigit b (p + 1) ||
      !holdsAt isAsciiDigit b (p + 2) then none
  else
    let area := rowSlice b (p, p + 3)
    if area == bytes "000" || area == bytes "666" || holdsAt (· == byte '9') b p then none
    else
      let q := p + 3
      let q := if holdsAt (· == byte '-') b q then q + 1 else q
      if q + 2 > n || !holdsAt isAsciiDigit b q || !holdsAt isAsciiDigit b (q + 1) then none
      else if holdsAt (· == byte '0') b q && holdsAt (· == byte '0') b (q + 1) then none
      else
        let q := q + 2
        let q := if holdsAt (· == byte '-') b q then q + 1 else q
        if q + 4 > n || !(rowSlice b (q, q + 4)).all isAsciiDigit then none
        else if rowSlice b (q, q + 4) == bytes "0000" then none
        else some (q + 4)

def scanSsn (b : List UInt8) (idx : UInt32) : List (UInt32 × UInt32 × UInt32) :=
  scanFrom (ssnMatchAt b) b.length idx b.length 0

def zipTrailingOk (b : List UInt8) (stop : Nat) : Bool :=
  if holdsAt isAsciiWord b stop then false
  else if holdsAt (· == byte '.') b stop && holdsAt isAsciiDigit b (stop + 1) then false
  else true

def zipMatchAt (b : List UInt8) (p : Nat) : Option Nat :=
  let n := b.length
  if 0 < p && holdsAt isAsciiWord b (p - 1) then none
  else if p + 5 > n || !(rowSlice b (p, p + 5)).all isAsciiDigit then none
  else
    let base := p + 5
    let ext := base + 5
    if holdsAt (· == byte '-') b base && base + 5 ≤ n &&
        (rowSlice b (base + 1, base + 5)).all isAsciiDigit && zipTrailingOk b ext then some ext
    else if zipTrailingOk b base then some base
    else none

def scanUsZip (b : List UInt8) (idx : UInt32) : List (UInt32 × UInt32 × UInt32) :=
  scanFrom (zipMatchAt b) b.length idx b.length 0

/-- `STREET_SUFFIXES` -/
def streetSuffixes : List String :=
  ["street", "st", "avenue", "ave", "boulevard", "blvd", "road", "rd", "drive", "dr", "lane", "ln",
   "court", "ct", "circle", "cir", "place", "pl", "terrace", "ter", "trail", "trl", "parkway",
   "pkwy", "highway", "hwy", "way", "plaza", "plz", "square", "sq", "expressway", "expy",
   "freeway", "fwy", "crossing", "xing", "loop", "alley", "aly", "bend", "cove", "cv", "point",
   "pt", "ridge", "rdg"]

/-- `STREET_UNITS` -/
def streetUnits : List String := ["apt", "apartment", "suite", "ste", "unit", "#"]

def streetLookahead (b : List UInt8) (pos : Nat) : Bool :=
  if b.length ≤ pos then true
  else
    holdsAt (fun c => isAsciiSpace c || [byte ',', byte '.', byte ';', byte ':', byte '!',
      byte '?', byte ')', byte '"', byte '\''].contains c) b pos

/-- The position after the dot at `i`, for `with_dot` in turn; `none` where there is no dot. -/
def afterDot (b : List UInt8) (i : Nat) : Bool → Option Nat
  | true => if holdsAt (· == byte '.') b i then some (i + 1) else none
  | false => some i

/-- The optional unit behind a street address: blanks, one of the unit words with or without a dot,
and what it numbers. -/
def streetUnit (b : List UInt8) (s : Nat) : Option Nat :=
  if !holdsAt isAsciiSpace b s then none
  else
    let u := skip isAsciiSpace b s
    streetUnits.findSome? fun un =>
      let ul := (bytes un).length
      if u + ul > b.length || !asciiCiEq (rowSlice b (u, u + ul)) un then none
      else
        [true, false].findSome? fun withDot => do
          let afterDot ← afterDot b (u + ul) withDot
          let w := skip isAsciiSpace b afterDot
          let e := skip (fun c => isAsciiWord c || c == byte '-') b w
          if e > w then some e else none

def streetRest (b : List UInt8) (q : Nat) : Option Nat :=
  streetSuffixes.findSome? fun suf =>
    let slen := (bytes suf).length
    if q + slen > b.length || !asciiCiEq (rowSlice b (q, q + slen)) suf then none
    else
      [true, false].findSome? fun withDot => do
        let afterDot ← afterDot b (q + slen) withDot
        ((streetUnit b afterDot).filter (streetLookahead b)).or
          (if streetLookahead b afterDot then some afterDot else none)

def streetWordIter (b : List UInt8) (s : Nat) : Option Nat :=
  if !holdsAt isAsciiAlphanumeric b s then none
  else
    let w := skip (fun c => isAsciiAlphanumeric c ||
      [byte '\'', byte '.', byte '-'].contains c) b (s + 1)
    if !holdsAt isAsciiSpace b w then none
    else some (skip isAsciiSpace b w)

/-- The end after each round of `for _ in 0..rounds`. -/
def streetIterEnds (b : List UInt8) : Nat → Nat → List Nat
  | 0, _ => []
  | rounds + 1, pos =>
      match streetWordIter b pos with
      | some next => next :: streetIterEnds b rounds next
      | none => []

def streetMatchAt (b : List UInt8) (p : Nat) : Option Nat :=
  if 0 < p && holdsAt isAsciiWord b (p - 1) then none
  else
    let dr := skip isAsciiDigit b p - p
    if dr == 0 || dr > 6 || !holdsAt isAsciiSpace b (p + dr) then none
    else
      let q := skip isAsciiSpace b (p + dr)
      (streetIterEnds b 4 q).reverse.findSome? (streetRest b)

def scanStreet (b : List UInt8) (idx : UInt32) : List (UInt32 × UInt32 × UInt32) :=
  scanFrom (streetMatchAt b) b.length idx b.length 0

end Scanners

section Validators

def isStripWs (b : UInt8) : Bool := [byte ' ', 9, 10, 0x0b, 0x0c, 13].contains b

/-- One digit of a Luhn sum: `d *= 2; if d > 9 { d -= 9 }` where it is doubled. -/
def luhnDigit (double : Bool) (d : UInt32) : UInt32 :=
  if double then (if d * 2 > 9 then d * 2 - 9 else d * 2) else d

/-- `for (i, b) in digits.iter().rev().enumerate()`, doubling where `i % 2` is `parity`; the sum
wraps, as it does in a release build. -/
def luhnTotal (parity : Nat) (digits : List UInt8) : UInt32 :=
  digits.reverse.zipIdx.foldl
    (fun total entry =>
      total + luhnDigit (entry.2 % 2 == parity) (entry.1 - byte '0').toUInt32) 0

def luhnValid (value : List Char) : Bool :=
  let digits := (asBytes value).filter fun b => !(isStripWs b || b == byte '-')
  if digits.length < 13 || !digits.all isAsciiDigit then false
  else luhnTotal 1 digits % 10 == 0

def npiValid (value : List Char) : Bool :=
  let digits := (asBytes value).filter fun b => !(isStripWs b || b == byte '-')
  if digits.length != 10 || !digits.all isAsciiDigit then false
  else
    let total := luhnTotal 0 (bytes "80840" ++ digits.take 9)
    (10 - total % 10) % 10 == (digits.getD 9 0 - byte '0').toUInt32

/-- `value.split(separator)`, over the bytes. -/
def splitOn (separator : UInt8) : List UInt8 → List (List UInt8)
  | [] => [[]]
  | b :: rest =>
      if b == separator then [] :: splitOn separator rest
      else
        match splitOn separator rest with
        | [] => [[b]]
        | part :: parts => (b :: part) :: parts

/-- `p.parse::<u32>()` of one to three digits. -/
def parseOctet (pb : List UInt8) : UInt32 :=
  pb.foldl (fun value b => value * 10 + (b - byte '0').toUInt32) 0

def ipv4Valid (value : List Char) : Bool :=
  let parts := splitOn (byte '.') (asBytes value)
  if parts.length != 4 then false
  else
    parts.all fun pb =>
      if pb.isEmpty || 3 < pb.length || !pb.all isAsciiDigit then false
      else !(parseOctet pb > 255)

/-- `COUNTRIES` -/
def countries : List String :=
  ["AD", "AE", "AL", "AT", "AZ", "BA", "BE", "BG", "BH", "BR", "BY", "CH", "CR",
   "CY", "CZ", "DE", "DK", "DO", "EE", "EG", "ES", "FI", "FO", "FR", "GB", "GE",
   "GI", "GL", "GR", "GT", "HR", "HU", "IE", "IL", "IQ", "IS", "IT", "JO", "KW",
   "KZ", "LB", "LC", "LI", "LT", "LU", "LV", "MC", "MD", "ME", "MK", "MR", "MT",
   "MU", "NL", "NO", "PK", "PL", "PS", "PT", "QA", "RO", "RS", "RU", "SA", "SC",
   "SE", "SI", "SK", "SM", "ST", "SV", "TL", "TN", "TR", "UA", "VA", "VG", "XK"]

def ibanCountry (c0 c1 : UInt8) : Bool := countries.any fun cc => bytes cc == [c0, c1]

/-- One character of the mod-97 loop. -/
def ibanStep (rem : UInt32) (c : UInt8) : Option UInt32 :=
  if isAsciiDigit c then some ((rem * 10 + (c - byte '0').toUInt32) % 97)
  else if isAsciiUppercase c then
    let v := (c - byte 'A').toUInt32 + 10
    let rem := (rem * 10 + v / 10) % 97
    some ((rem * 10 + v % 10) % 97)
  else none

def ibanValid (value : List Char) : Bool :=
  let cleaned := ((asBytes value).filter fun b => !isStripWs b).map toAsciiUppercase
  let n := cleaned.length
  if !(15 ≤ n && n ≤ 34) then false
  else
    match cleaned with
    | c0 :: c1 :: c2 :: c3 :: rest =>
        if !(isAsciiAlphabetic c0 && isAsciiAlphabetic c1 && isAsciiDigit c2 && isAsciiDigit c3)
        then false
        else if !ibanCountry c0 c1 then false
        else ((rest ++ [c0, c1, c2, c3]).foldlM ibanStep 0).any (· == 1)
    | _ => false

/-- The chapters of ICD-10 by letter and first two digits, as the crate tabulates them. -/
def icd10ChapterRange (chapter : UInt8) : Option (UInt32 × UInt32) :=
  if [byte 'A', byte 'B', byte 'C'].contains chapter then some (0, 99)
  else if chapter == byte 'D' then some (0, 89)
  else if chapter == byte 'E' then some (0, 89)
  else if chapter == byte 'F' then some (1, 99)
  else if chapter == byte 'G' then some (0, 99)
  else if chapter == byte 'H' then some (0, 95)
  else if [byte 'I', byte 'J'].contains chapter then some (0, 99)
  else if chapter == byte 'K' then some (0, 95)
  else if [byte 'L', byte 'M', byte 'N', byte 'O'].contains chapter then some (0, 99)
  else if chapter == byte 'P' then some (0, 96)
  else if [byte 'Q', byte 'R', byte 'S'].contains chapter then some (0, 99)
  else if chapter == byte 'T' then some (0, 88)
  else if chapter == byte 'U' then some (0, 85)
  else if [byte 'V', byte 'W', byte 'X', byte 'Y', byte 'Z'].contains chapter then some (0, 99)
  else none

/-- `value.trim_matches(...)` with the strip set. -/
def trim (value : List UInt8) : List UInt8 :=
  ((value.dropWhile isStripWs).reverse.dropWhile isStripWs).reverse

def icd10Valid (value : List Char) : Bool :=
  let v := ((trim (asBytes value)).filter (· != byte '.')).map toAsciiUppercase
  match v with
  | v0 :: v1 :: v2 :: rest =>
      if !(rest.length ≤ 4) || !isAsciiAlphabetic v0 || !isAsciiDigit v1 || !isAsciiDigit v2 then
        false
      else
        let cat := (v1 - byte '0').toUInt32 * 10 + (v2 - byte '0').toUInt32
        match icd10ChapterRange v0 with
        | some (lo, hi) => cat ≥ lo && cat ≤ hi
        | none => false
  | _ => false

end Validators

end DecoyEngine.Detection.Native
