import DecoyEngine.Determinism.Derive
import DecoyEngine.Transforms.Fpe

namespace DecoyEngine.Transforms

open DecoyEngine.Data DecoyEngine.Determinism

/-! Format-preserving encryption of a string column, by the compiled kernel
(`decoy-engine-native/src/fpe.rs`) and by its reference (`native/_crypto_reference.py`).

The kernel has no checksum mode.  Its cipher is the `fpe` crate, which is outside the engine. -/

/-- A row that failed, with the code both kernels report. -/
structure RowError where
  rowIndex : Nat
  code : String
deriving Repr, DecidableEq

/-- One cell of a string column. -/
abbrev Cell := Option (List Char)

structure ArrayResult where
  values : List Cell
  errors : List RowError
deriving Repr, DecidableEq

def ArrayResult.append (first second : ArrayResult) : ArrayResult :=
  ⟨first.values ++ second.values, first.errors ++ second.errors⟩

/-- `FF1_KEY_LABEL`. -/
def ff1KeyLabel : Bytes := utf8 "ff1-key/v1"

/-- `_UNENCRYPTABLE_STRATEGY_CODE`. -/
def unencryptableStrategyCode : List (String × String) :=
  [("fpe.unencryptable_domain", "fpe_unencryptable_domain"),
   ("fpe.unencryptable_length", "fpe_unencryptable_length")]

def strategyCodeForUnencryptable (error : FpeError) : String :=
  (unencryptableStrategyCode.lookup error.code).getD "fpe_unencryptable_value"

/-- `_CHECKSUM_STRATEGY_CODE`. -/
def checksumStrategyCode : List (String × String) :=
  [("fpe.checksum_invalid_source", "fpe_checksum_invalid_source")]

def strategyCodeForChecksum (error : FpeError) : String :=
  (checksumStrategyCode.lookup error.code).getD "fpe_checksum_unsupported"

/-- The raises of `FpeChecksumError`. -/
def FpeError.isChecksum : FpeError → Bool
  | .unknownScheme _ | .ibanUnsupported | .exactLength _ _ _ | .minimumLength _ _ _
  | .invalidSource _ => true
  | _ => false

/-- A pass of `_ReferenceFpe._run`'s loop; what it lets through ends the batch. -/
def referenceRow (transform : List Char → Except FpeRaise (List Char)) (rowIndex : Nat) :
    Cell → Except FpeRaise ArrayResult
  | none => .ok ⟨[none], []⟩
  | some text =>
      if text = [] then .ok ⟨[some []], []⟩
      else
        match transform text with
        | .ok out => .ok ⟨[some out], []⟩
        | .error (.fpeError error) =>
            let code := if error.isChecksum then strategyCodeForChecksum error
              else strategyCodeForUnencryptable error
            .ok ⟨[none], [⟨rowIndex, code⟩]⟩
        | .error raised => .error raised

def referenceRows (transform : List Char → Except FpeRaise (List Char)) :
    Nat → List Cell → Except FpeRaise ArrayResult
  | _, [] => .ok ⟨[], []⟩
  | rowIndex, cell :: cells => do
      let first ← referenceRow transform rowIndex cell
      let rest ← referenceRows transform (rowIndex + 1) cells
      .ok (first.append rest)

namespace Native

/-- An `FF1<Aes256>`; `none` is an error of the crate. -/
structure Ff1 where
  encrypt : (tweak : List UInt8) → (numerals : List Nat) → Option (List Nat)
  decrypt : (tweak : List UInt8) → (numerals : List Nat) → Option (List Nat)

structure FpeCrate where
  /-- `FF1::new`. -/
  new : (key : List UInt8) → (radix : Nat) → Option Ff1

/-- The crate and `_ff1` compute one permutation over the deployed profile. -/
structure FpeCrate.ComputesFf1 (crate : FpeCrate) (cipher : BlockCipher) : Prop where
  built : ∀ (key : List UInt8) (radix : Nat), key.length = ff1KeyBytes → ff1MinRadix ≤ radix →
    radix ≤ ff1MaxRadix → ∃ ff1, crate.new key radix = some ff1 ∧
      ∀ (tweak : List UInt8) (numerals : List Nat), tweak.length ≤ ff1MaxTweakLen →
        minDomainLength radix ≤ numerals.length → numerals.length ≤ ff1MaxLen →
        (∀ numeral ∈ numerals, numeral < radix) →
        ff1.encrypt tweak numerals = (encrypt cipher key tweak radix numerals).toOption ∧
          ff1.decrypt tweak numerals = (decrypt cipher key tweak radix numerals).toOption

inductive StatusCode where
  | unencryptableValue | unencryptableDomain | unencryptableLength
deriving Repr, DecidableEq

def StatusCode.text : StatusCode → String
  | .unencryptableValue => "fpe_unencryptable_value"
  | .unencryptableDomain => "fpe_unencryptable_domain"
  | .unencryptableLength => "fpe_unencryptable_length"

/-- Why a value gives no string: a status code, or the panic of an `expect`. -/
inductive Failure where
  | status (code : StatusCode)
  | panic
deriving Repr, DecidableEq

/-- `min_domain_length`, for the radices its caller passes (at least 2). -/
def minDomainLength (radix : Nat) : Nat :=
  minDomainLengthFrom radix 20 1 radix

/-- `ch.to_digit(10)`. -/
def toDigit (ch : Char) : Option Nat :=
  if 48 ≤ ch.toNat ∧ ch.toNat ≤ 57 then some (ch.toNat - 48) else none

/-- The loop of `luhn_check_digit` over the reversed body; `none` is its panic. -/
def luhnLoop : (i total : Nat) → List Char → Option Nat
  | _, total, [] => some total
  | i, total, ch :: rest =>
      match toDigit ch with
      | none => none
      | some n =>
          let doubled := if i % 2 = 0 then (if 9 < n * 2 then n * 2 - 9 else n * 2) else n
          luhnLoop (i + 1) (total + doubled) rest

def luhnCheckDigit (body : List Char) : Option Char :=
  (luhnLoop 0 0 body.reverse).map fun total => digitChar ((10 - total % 10) % 10)

structure ResolvedConfig where
  charset : List Char
  charToIdx : Char → Option Nat
  radix : Nat
  preserveSeparators : Bool
  validateLuhn : Bool
  charsetPrintableAscii : Bool
  charsetHasDuplicate : Bool
  tweakLen : Nat

/-- The collected map: the last index of a symbol, as a `u16`. -/
def charIndex (charset : List Char) (ch : Char) : Option Nat :=
  (charset.zipIdx.reverse.lookup ch).map (· % 2 ^ 16)

/-- The configuration `fpe_transform_array` builds; the radix is a `u32`. -/
def ResolvedConfig.resolve (charset : List Char) (preserveSeparators validateLuhn : Bool)
    (tweak : List UInt8) : ResolvedConfig :=
  { charset, charToIdx := charIndex charset, radix := charset.length % 2 ^ 32
    preserveSeparators, validateLuhn
    charsetPrintableAscii := charset.all fun ch => 0x21 ≤ ch.toNat && ch.toNat ≤ 0x7E
    charsetHasDuplicate := charset.dedup.length != charset.length
    tweakLen := tweak.length }

section Value

variable (config : ResolvedConfig) (ff1 : Option Ff1) (tweak : List UInt8)

/-- The crate's `permute`: the same transform in fixed-width arithmetic, with the refusals of the
crate in the crate's own order. -/
def permute (s : List Char) (forward : Bool) : Except Failure (List Char) :=
  let n := s.length
  if n = 0 then .ok []
  else if ¬ (ff1MinRadix ≤ config.radix ∧ config.radix ≤ ff1MaxRadix) then
    .error (.status .unencryptableLength)
  else if config.charsetHasDuplicate then .error (.status .unencryptableLength)
  else if ¬ config.charsetPrintableAscii then .error (.status .unencryptableLength)
  else if n < minDomainLength config.radix then .error (.status .unencryptableDomain)
  else if ff1MaxLen < n then .error (.status .unencryptableLength)
  else if ff1MaxTweakLen < config.tweakLen then .error (.status .unencryptableLength)
  else
    match s.mapM config.charToIdx with
    | none => .error (.status .unencryptableLength)
    | some numerals =>
        match ff1 with
        | none => .error (.status .unencryptableLength)
        | some ff1 =>
            match if forward then ff1.encrypt tweak numerals else ff1.decrypt tweak numerals with
            | some out => .ok (out.map fun i => config.charset[i]!)
            | none => .error (.status .unencryptableLength)

def fpePureValue (s : List Char) (forward : Bool) : Except Failure (List Char) :=
  if s = [] then .ok []
  else if config.validateLuhn ∧ 2 ≤ s.length then do
    let body ← permute config ff1 tweak s.dropLast forward
    match luhnCheckDigit body with
    | none => .error .panic
    | some check => .ok (body ++ [check])
  else permute config ff1 tweak s forward

def fpeOne (value : List Char) (forward : Bool) : Except Failure (List Char) :=
  let inCharset := fun ch => (config.charToIdx ch).isSome
  if config.preserveSeparators then
    let positions := selectedPositions inCharset value
    if positions = [] then .error (.status .unencryptableValue)
    else do
      let body ← fpePureValue config ff1 tweak (positions.map fun i => value[i]!) forward
      if body.length ≠ positions.length then .error (.status .unencryptableValue)
      else .ok (writeAt value positions body)
  else if value.any fun ch => !inCharset ch then .error (.status .unencryptableValue)
  else fpePureValue config ff1 tweak value forward

/-- A pass of `fill_range`'s loop; `none` is a panic. -/
def row (forward : Bool) (rowIndex : Nat) : Cell → Option ArrayResult
  | none => some ⟨[none], []⟩
  | some value =>
      if value = [] then some ⟨[some []], []⟩
      else
        match fpeOne config ff1 tweak value forward with
        | .ok out => some ⟨[some out], []⟩
        | .error (.status code) => some ⟨[none], [⟨rowIndex, code.text⟩]⟩
        | .error .panic => none

def rows (forward : Bool) : Nat → List Cell → Option ArrayResult
  | _, [] => some ⟨[], []⟩
  | rowIndex, cell :: cells => do
      let first ← row config ff1 tweak forward rowIndex cell
      let rest ← rows forward (rowIndex + 1) cells
      some (first.append rest)

/-- Rows `lo..hi`. -/
def fillRange (forward : Bool) (array : List Cell) (range : Nat × Nat) : Option ArrayResult :=
  rows config ff1 tweak forward range.1 ((array.drop range.1).take (range.2 - range.1))

end Value

/-- The `while lo < len` loop; every pass moves `lo` on, so `len` passes are enough. -/
def rowRangesFrom (len per : Nat) : (fuel lo : Nat) → List (Nat × Nat)
  | 0, _ => []
  | fuel + 1, lo =>
      if lo < len then
        let hi := min (lo + per) len
        (lo, hi) :: rowRangesFrom len per fuel hi
      else []

def rowRanges (len threads : Nat) : List (Nat × Nat) :=
  if len = 0 then []
  else
    let nranges := min (max threads 1) len
    let per := (len + nranges - 1) / nranges
    rowRangesFrom len per len 0

inductive KernelError where
  | maskKeyRequired
  | derive (error : Determinism.Native.DeriveError)
  | inputNotString
  | keyNotAes256
  | pool (code detail : String)
deriving Repr, DecidableEq

def KernelError.code : KernelError → String
  | .maskKeyRequired => "mask_key_required"
  | .derive error => error.code
  | .inputNotString => "fpe_input_not_string"
  | .keyNotAes256 => "fpe_key_not_aes256"
  | .pool code _ => code

def KernelError.detail : KernelError → String
  | .maskKeyRequired =>
      "mask_key is required and must be non-empty; refusing to emit unkeyed output"
  | .derive error => error.detail
  | .inputNotString =>
      "fpe native kernel accepts only a pa.string() array; got another Arrow type"
  | .keyNotAes256 => "derived FF1 key was not 32 bytes (AES-256)"
  | .pool _ detail => detail

/-- How a batch ends without a result. -/
inductive BatchFailure where
  | error (error : KernelError)
  | panic
deriving Repr, DecidableEq

/-- The ranges' results joined in order; a panic in any of them is the call's. -/
def joinRanges : List (Option ArrayResult) → Except BatchFailure ArrayResult
  | [] => .ok ⟨[], []⟩
  | none :: _ => .error .panic
  | some first :: rest => (joinRanges rest).map first.append

section Array

variable (crate : FpeCrate) {mac : Bytes → Bytes → Bytes}
  (hkdf : Determinism.Native.HkdfCrate mac)

/-- The key of the batch, after the checks that come before any row.  `array` is `none` for
another Arrow type than strings. -/
def batchKey (array : Option (List Cell)) (maskKey : Option Bytes) (namespaceName : String) :
    Except KernelError (List Cell × Bytes) :=
  match maskKey with
  | none | some [] => .error .maskKeyRequired
  | some maskKey =>
      match array with
      | none => .error .inputNotString
      | some cells =>
          match Determinism.Native.deriveMac hkdf maskKey namespaceName ff1KeyLabel with
          | .error error => .error (.derive error)
          | .ok state =>
              let key := state.digest mac
              if key.length ≠ 32 then .error .keyNotAes256 else .ok (cells, key)

/-- The cipher of the batch. -/
def batchFf1 (key : Bytes) (radix : Nat) : Option Ff1 :=
  if ff1MinRadix ≤ radix ∧ radix ≤ ff1MaxRadix then crate.new key radix else none

/-- `pool` is the shared thread pool, or the error of building it. -/
def fpeTransformArray (pool : Except (String × String) Unit) (array : Option (List Cell))
    (maskKey : Option Bytes) (namespaceName : String) (tweak : List UInt8) (charset : List Char)
    (preserveSeparators validateLuhn forward : Bool) (threads : Nat) :
    Except BatchFailure ArrayResult :=
  match batchKey hkdf array maskKey namespaceName with
  | .error error => .error (.error error)
  | .ok (cells, key) =>
      let config := ResolvedConfig.resolve charset preserveSeparators validateLuhn tweak
      let ff1 := batchFf1 crate key config.radix
      let ranges := rowRanges cells.length threads
      let fill := joinRanges (ranges.map (fillRange config ff1 tweak forward cells))
      if ranges.length ≤ 1 then fill
      else
        match pool with
        | .error (code, detail) => .error (.error (.pool code detail))
        | .ok () => fill

end Array

end Native

end DecoyEngine.Transforms
