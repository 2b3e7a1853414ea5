import DecoyEngine.Checksums
import DecoyEngine.Data.Splice
import DecoyEngine.Transforms.Ff1
import Mathlib.Data.List.Sort

namespace DecoyEngine.Transforms

open DecoyEngine.Data DecoyEngine.Checksums

/-! Format-preserving encryption of one value (`transforms/fpe.py` and
`transforms/_fpe_checksum.py`).

A string is the list of its characters.  Every way a call can end without a value
is a constructor of `FpeRaise`: the coded errors of the engine, with the text and
code each site gives, and the exceptions the engine lets through. -/

def charsets : List (String × String) :=
  [("digits", "0123456789"),
   ("alpha", "abcdefghijklmnopqrstuvwxyz"),
   ("ALPHA", "ABCDEFGHIJKLMNOPQRSTUVWXYZ"),
   ("alphanum", "0123456789abcdefghijklmnopqrstuvwxyz"),
   ("ALPHANUM", "0123456789ABCDEFGHIJKLMNOPQRSTUVWXYZabcdefghijklmnopqrstuvwxyz")]

def resolveFpeCharset (charsetSpec : String) : List Char :=
  ((charsets.lookup charsetSpec).getD charsetSpec).toList

/-- The raises of `FpeUnencryptableError` and `FpeChecksumError`, one constructor for each place in
the source that raises, with what its message prints. -/
inductive FpeError where
  | keySize (length : Nat)
  | radixRange (radix : Nat)
  | duplicateSymbols
  | notPrintable (offenders : List Nat)
  | domainTooSmall (length radix : Nat)
  | bodyTooLong (length : Nat)
  | tweakTooLong (length : Nat)
  | foreignSymbol
  | ff1Rejected (error : Ff1Error)
  | emptyValue
  | nothingInCharset (length : Nat)
  | lengthInvariant (body positions length : Nat)
  | outOfCharset (length distinct : Nat)
  | unknownScheme (name : String)
  | ibanUnsupported
  | exactLength (scheme : Scheme) (expected : List Nat) (length : Nat)
  | minimumLength (scheme : Scheme) (minimum length : Nat)
  | invalidSource (scheme : Scheme)
deriving Repr, DecidableEq

def FpeError.code : FpeError → String
  | .keySize _ | .radixRange _ | .duplicateSymbols | .notPrintable _ | .bodyTooLong _
  | .tweakTooLong _ | .foreignSymbol | .ff1Rejected _ => "fpe.unencryptable_length"
  | .domainTooSmall _ _ | .emptyValue => "fpe.unencryptable_domain"
  | .nothingInCharset _ | .lengthInvariant _ _ _ | .outOfCharset _ _ => "fpe.unencryptable"
  | .unknownScheme _ | .ibanUnsupported | .exactLength _ _ _ | .minimumLength _ _ _ =>
      "fpe.checksum_unsupported"
  | .invalidSource _ => "fpe.checksum_invalid_source"

/-- `f"U+{ord(ch):04X}"`. -/
def codePoint (value : Nat) : String :=
  let digits := (Nat.toDigits 16 value).map Char.toUpper
  "U+" ++ String.ofList (List.replicate (4 - digits.length) '0' ++ digits)

def FpeError.message : FpeError → String
  | .keySize length =>
      s!"fpe key must be exactly {ff1KeyBytes} bytes (AES-256 only); got {length}. " ++
      "This indicates a key-derivation bug, not a data issue."
  | .radixRange radix =>
      s!"fpe charset resolves to radix {radix}, outside the deployed profile's " ++
      s!"[{ff1MinRadix}, {ff1MaxRadix}] range."
  | .duplicateSymbols =>
      "fpe charset contains duplicate symbols; FF1 requires an ordered, " ++
      "duplicate-free alphabet (a duplicate would make decode ambiguous)."
  | .notPrintable offenders =>
      let codepoints := ", ".intercalate (offenders.map codePoint)
      s!"fpe charset has {offenders.length} character(s) outside printable " ++
      s!"ASCII (0x21-0x7E): {codepoints}. Custom fpe charsets are " ++
      "restricted to printable ASCII so one code point is always " ++
      "exactly one symbol; use only characters in that range."
  | .domainTooSmall length radix =>
      s!"value has {length} in-charset character(s); the domain (radix**length = " ++
      s!"{radix}**{length} = {radix ^ length}) is below the FF1 minimum admissible domain " ++
      s!"({ff1MinDomain}). Use a wider charset, a longer/covering format, " ++
      "or route this column through a different strategy."
  | .bodyTooLong length =>
      s!"value has {length} in-charset characters, exceeding the deployed FF1 " ++
      s!"profile's maximum length of {ff1MaxLen}."
  | .tweakTooLong length =>
      s!"fpe tweak is {length} bytes, exceeding the deployed profile's " ++
      s!"maximum tweak length ({ff1MaxTweakLen} bytes)."
  | .foreignSymbol =>
      "fpe body contains a character outside the configured alphabet; " ++
      "every body character must be a member of the resolved charset."
  | .ff1Rejected error => "FF1 rejected this input: " ++ error.message
  | .emptyValue =>
      "fpe cannot encrypt an empty (zero-length) value: its in-charset " ++
      "domain is below the FF1 minimum admissible domain. An empty " ++
      "string is not a null (nulls never reach this layer) and carries " ++
      "no format-preserving domain to permute over."
  | .nothingInCharset length =>
      s!"fpe cannot encrypt this {length}-character value: it has no " ++
      "character in the configured charset, so there is nothing to " ++
      "format-preserving-encrypt and the value cannot be reversibly " ++
      "masked. The engine fails closed rather than emit a " ++
      "non-invertible covering hash that would silently not " ++
      "round-trip. Use a charset that covers this column's data, or route " ++
      "the column through a different strategy (hash/redact)."
  | .lengthInvariant body positions length =>
      s!"fpe internal length invariant: permuted body length {body} != " ++
      s!"{positions} in-charset positions (source value length " ++
      s!"{length}). Refusing to reinsert a mismatched body, which would " ++
      "leak or drop a character."
  | .outOfCharset length distinct =>
      s!"fpe cannot encrypt this {length}-character value with " ++
      s!"preserve_separators=false: it contains {distinct} distinct " ++
      "out-of-charset character(s). Returning the value unchanged would leak it " ++
      "in the clear, so the engine fails closed. Enable preserve_separators to " ++
      "keep structural separators in place, use a charset that covers the data, " ++
      "or route the column through a different strategy."
  | .unknownScheme name =>
      s!"FPE checksum mode received unknown scheme '{name}'. " ++
      "Known schemes: ['ean13', 'gtin', 'iban', 'isbn13', 'luhn', 'npi', 'vin']. " ++
      "Check your config for typos; valid fpe checksum schemes are " ++
      "luhn, npi, vin, isbn13, ean13, gtin (iban is not supported for FPE)."
  | .ibanUnsupported =>
      "FPE checksum mode does not support 'iban': per-country BBAN " ++
      "structure (enforced by stdnum.iban.validate) cannot be satisfied " ++
      "by a format-preservation permutation. Use validate-only or a " ++
      "different strategy for IBAN columns. " ++
      "See carry-forward note in p5-infra-1-python-stdnum.md."
  | .exactLength scheme expected length =>
      let lengths := " or ".intercalate (expected.map toString)
      s!"FPE checksum scheme '{scheme.name}' requires exactly {lengths} character(s); " ++
      s!"got {length}. A value outside the scheme's fixed length cannot " ++
      "be format-preserving-encrypted without leaking or truncating a character, " ++
      "so the engine fails closed. Fix the source data or route this column " ++
      "through a different strategy."
  | .minimumLength scheme minimum length =>
      s!"FPE checksum scheme '{scheme.name}' requires at least {minimum} characters " ++
      s!"(body + check digit); got {length}. The engine fails closed " ++
      "rather than pass the value through unmasked."
  | .invalidSource scheme =>
      "FPE checksum mode: source value fails checksums.validate() for " ++
      s!"scheme '{scheme.name}'; its check digit does not match its body. " ++
      "Permuting an already-invalid identifier would produce output " ++
      "that looks checksum-valid but has no honest source, so the " ++
      "engine fails closed. Fix the source data or route this column " ++
      "through a different strategy."

inductive FpeRaise where
  | fpeError (error : FpeError)
  -- `int.to_bytes` inside the primitive: not an `Ff1Error`, so not rewrapped
  | overflowError
  -- a check-digit function given a character it cannot read
  | checkDigitError
deriving Repr, DecidableEq

/-- The offending code points `check_charset_ascii_printable` reports, ascending. -/
def charsetOffenders (charset : List Char) : List Nat :=
  ((charset.filter (fun ch => !isPrintableAscii ch)).map Char.toNat).dedup.insertionSort (· ≤ ·)

section Value

variable (cipher : BlockCipher) (stdnum : Stdnum)

def ff1Run (forward : Bool) (key tweak : List UInt8) (radix : Nat) (numerals : List Nat) :
    Except Ff1Raise (List Nat) :=
  if forward then encrypt cipher key tweak radix numerals
  else decrypt cipher key tweak radix numerals

/-- The rewrapping of an `Ff1Error`, and the numerals read back through the alphabet. -/
def decodeResult (charset : List Char) : Except Ff1Raise (List Nat) → Except FpeRaise (List Char)
  | .error (.ff1Error error) => .error (.fpeError (.ff1Rejected error))
  | .error .overflowError => .error .overflowError
  | .ok result => .ok (result.map (fun i => charset[i]!))

/-- `_permute`: FF1 over the positions of the symbols in the charset, behind the checks of key,
radix, charset, domain and tweak in the order in which the source makes them. -/
def permute (s : List Char) (key : List UInt8) (charset : List Char) (tweak : List UInt8)
    (forward : Bool) : Except FpeRaise (List Char) :=
  let n := s.length
  let radix := charset.length
  if n = 0 then .ok s
  else if key.length ≠ ff1KeyBytes then .error (.fpeError (.keySize key.length))
  else if ¬ (ff1MinRadix ≤ radix ∧ radix ≤ ff1MaxRadix) then .error (.fpeError (.radixRange radix))
  else if charset.dedup.length ≠ radix then .error (.fpeError .duplicateSymbols)
  else if charsetOffenders charset ≠ [] then
    .error (.fpeError (.notPrintable (charsetOffenders charset)))
  else if n < minDomainLength radix then .error (.fpeError (.domainTooSmall n radix))
  else if ff1MaxLen < n then .error (.fpeError (.bodyTooLong n))
  else if ff1MaxTweakLen < tweak.length then .error (.fpeError (.tweakTooLong tweak.length))
  else if s.any (fun ch => ch ∉ charset) then .error (.fpeError .foreignSymbol)
  else
    decodeResult charset
      (ff1Run cipher forward key tweak radix (s.map (fun ch => charset.idxOf ch)))

/-- A check-digit function's result, or the exception it lets through. -/
def checkDigit (result : Option (List Char)) : Except FpeRaise (List Char) :=
  match result with
  | some check => .ok check
  | none => .error .checkDigitError

/-- `_luhn_check_digit`; the registry's `_luhn_cd` is the same loop. -/
def luhnCheckDigit (body : List Char) : Except FpeRaise (List Char) :=
  checkDigit (luhnCd body)

def exactLengths : Scheme → Option (List Nat)
  | .npi => some [10]
  | .isbn13 => some [13]
  | .ean13 => some [13]
  | .vin => some [17]
  | .gtin => some [8, 12, 13, 14]
  | _ => none

def minLengths : Scheme → Option Nat
  | .luhn => some 2
  | _ => none

def validateSchemeLength (scheme : Scheme) (s : List Char) : Except FpeRaise Unit := do
  if let some exact := exactLengths scheme then
    if s.length ∉ exact then throw (.fpeError (.exactLength scheme exact s.length))
  if let some minimum := minLengths scheme then
    if s.length < minimum then throw (.fpeError (.minimumLength scheme minimum s.length))

def schemeOfName (name : String) : Option Scheme :=
  [Scheme.luhn, .npi, .iban, .vin, .isbn13, .ean13, .gtin].find? (fun scheme => scheme.name == name)

def vinPermutationCharset (charset : List Char) : List Char :=
  let vinCharset := charset.filter (fun ch => ch ∈ vinCharset)
  if vinCharset.length < 2 then asciiDigits else vinCharset

/-- The per-scheme branches of `_fpe_checksum_permute`, after its guards: the body of the identifier
is permuted, the characters that the scheme fixes stay, and the check characters are computed anew.
-/
def checksumBody (s : List Char) (key : List UInt8) (charset : List Char) (tweak : List UInt8)
    (forward : Bool) : Scheme → Except FpeRaise (List Char)
  | .npi => do
      let middleBody ← permute cipher ((s.take 9).drop 1) key asciiDigits tweak forward
      let body9 := s.take 1 ++ middleBody
      let check ← checkDigit (calcCheckDigit stdnum .npi body9)
      .ok (body9 ++ check)
  | .isbn13 => do
      let inner ← permute cipher ((s.take 12).drop 3) key asciiDigits tweak forward
      let body12 := s.take 3 ++ inner
      let check ← checkDigit (calcCheckDigit stdnum .isbn13 body12)
      .ok (body12 ++ check)
  | .vin => do
      let rawBody := s.take 8 ++ s.drop 9
      let enc ← permute cipher rawBody key (vinPermutationCharset charset) tweak forward
      let check ← checkDigit (calcCheckDigit stdnum .vin enc)
      .ok (enc.take 8 ++ check ++ enc.drop 8)
  | scheme => do
      let body ← permute cipher s.dropLast key asciiDigits tweak forward
      let check ← checkDigit (calcCheckDigit stdnum scheme body)
      .ok (body ++ check)

def fpeChecksumPermute (s : List Char) (key : List UInt8) (charset : List Char)
    (tweak : List UInt8) (schemeName : String) (forward : Bool) : Except FpeRaise (List Char) :=
  match schemeOfName schemeName with
  | none => .error (.fpeError (.unknownScheme schemeName))
  | some .iban => .error (.fpeError .ibanUnsupported)
  | some scheme => do
      validateSchemeLength scheme s
      if forward ∧ ¬ validate stdnum scheme s then .error (.fpeError (.invalidSource scheme))
      else checksumBody cipher stdnum s key charset tweak forward scheme

/-- `_fpe_pure_value`: a value that lies in the charset. Checksum mode goes through its scheme, Luhn
mode permutes all but the last character and computes that one anew, and everything else is permuted
whole. -/
def fpePureValue (s : List Char) (key : List UInt8) (charset : List Char) (tweak : List UInt8)
    (validateLuhn : Bool) (checksum : Option String) (forward : Bool) :
    Except FpeRaise (List Char) :=
  if s = [] then .ok s
  else
    match checksum with
    | some scheme => fpeChecksumPermute cipher stdnum s key charset tweak scheme forward
    | none =>
        if validateLuhn ∧ 2 ≤ s.length then do
          let body ← permute cipher s.dropLast key charset tweak forward
          let check ← luhnCheckDigit body
          .ok (body ++ check)
        else permute cipher s key charset tweak forward

/-- `fpe_value`: one cell, encrypted or decrypted. With separators preserved only the characters of
the charset are permuted, in their own places; without, a character outside the charset refuses the
value. -/
def fpeValue (val : List Char) (key : List UInt8) (charset : List Char) (tweak : List UInt8)
    (preserveSeparators validateLuhn : Bool) (checksum : Option String) (forward : Bool) :
    Except FpeRaise (List Char) :=
  let inCharset := fun ch => decide (ch ∈ charset)
  if val = [] then .error (.fpeError .emptyValue)
  else if preserveSeparators then
    let positions := selectedPositions inCharset val
    if positions = [] then .error (.fpeError (.nothingInCharset val.length))
    else do
      let body ← fpePureValue cipher stdnum (positions.map (fun i => val[i]!)) key charset tweak
        validateLuhn checksum forward
      if body.length ≠ positions.length then
        .error (.fpeError (.lengthInvariant body.length positions.length val.length))
      else .ok (writeAt val positions body)
  else if ¬ val.all inCharset then
    .error (.fpeError (.outOfCharset val.length
      (val.filter (fun ch => !inCharset ch)).dedup.length))
  else fpePureValue cipher stdnum val key charset tweak validateLuhn checksum forward

/-- A column's `fpe` settings as its handler reads them. -/
structure FpeConfig where
  charset : List Char
  preserveSeparators : Bool
  validateLuhn : Bool
  checksum : Option String
deriving Repr, DecidableEq

/-- `checksum` takes priority, and `validate_luhn` needs an all-digit charset: both the
masking handler and the unmasking path pass this flag on. -/
def FpeConfig.luhnMode (config : FpeConfig) : Bool :=
  config.checksum.isNone && config.validateLuhn && config.charset.all (fun ch => ch ∈ asciiDigits)

def fpeEncryptValue (config : FpeConfig) (key tweak : List UInt8) (val : List Char) :
    Except FpeRaise (List Char) :=
  fpeValue cipher stdnum val key config.charset tweak config.preserveSeparators config.luhnMode
    config.checksum true

def fpeDecryptValue (config : FpeConfig) (key tweak : List UInt8) (val : List Char) :
    Except FpeRaise (List Char) :=
  fpeValue cipher stdnum val key config.charset tweak config.preserveSeparators config.luhnMode
    config.checksum false

end Value

/-- What the compile-time checks and the handler accept. -/
structure FpeConfig.Valid (config : FpeConfig) : Prop where
  unique : config.charset.Nodup
  printable : ∀ ch ∈ config.charset, isPrintableAscii ch = true
  nondegenerate : 2 ≤ config.charset.length
  scheme : ∀ name, config.checksum = some name → ∃ scheme required,
    schemeOfName name = some scheme ∧ schemeRequiredCharset scheme = some required ∧
      ∀ ch ∈ required, ch ∈ config.charset

end DecoyEngine.Transforms
