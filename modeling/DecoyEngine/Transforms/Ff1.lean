import DecoyEngine.Data.Numerals

namespace DecoyEngine.Transforms

open DecoyEngine.Data

/-! The FF1 primitive (`transforms/_ff1.py`).

AES itself is outside the engine: the model takes the forward block function as a
parameter and relies on nothing but its block length.  Every operation that can
raise in the source (`Ff1Error`, or the `OverflowError` of `int.to_bytes`) returns
an `Except`. -/

/-- The forward AES block function `CIPH_K`, keyed by its first argument. -/
structure BlockCipher where
  encryptBlock : List UInt8 → List UInt8 → List UInt8
  length_encryptBlock : ∀ key block, block.length = 16 → (encryptBlock key block).length = 16

def ff1MinRadix : Nat := 2
def ff1MaxRadix : Nat := 64
def ff1MaxLen : Nat := 256
def ff1MaxTweakLen : Nat := 256
def ff1KeyBytes : Nat := 32
def ff1StandardMaxRadix : Nat := 2 ^ 16
def ff1MinDomain : Nat := 1000000

def ff1Rounds : Nat := 10

/-- The `Ff1Error` raised at each check, with the numbers its text reports. -/
inductive Ff1Error where
  | prfUnaligned (length : Nat)
  | overflow (width radix : Nat)
  | keySize (length : Nat)
  | radixTooSmall (radix : Nat)
  | radixTooLarge (radix : Nat)
  | tooShort (length : Nat)
  | numeralRange (radix outOfRange length : Nat)
  | tweakTooLong (length : Nat)
deriving Repr, DecidableEq

def Ff1Error.message : Ff1Error → String
  | .prfUnaligned length => s!"PRF input must be block-aligned; got {length} bytes"
  | .overflow width radix =>
      s!"value does not fit in {width} base-{radix} digits (overflow)"
  | .keySize length => s!"AES key must be 16, 24, or 32 bytes; got {length}"
  | .radixTooSmall radix => s!"radix must be >= 2; got {radix}"
  | .radixTooLarge radix =>
      s!"radix must be <= {ff1StandardMaxRadix} (NIST SP 800-38G Rev.1 2PD's own domain bound); got {radix}"
  | .tooShort length =>
      s!"numeral string must have length >= 2 (NIST FF1 precondition); got {length}"
  | .numeralRange radix outOfRange length =>
      s!"every numeral must be in [0, {radix}); {outOfRange} of {length} numeral(s) are out of range"
  | .tweakTooLong length => s!"tweak length must fit in a uint32; got {length} bytes"

/-- Everything the primitive can raise. -/
inductive Ff1Raise where
  | ff1Error (error : Ff1Error)
  | overflowError
deriving Repr, DecidableEq

/-- `int.to_bytes(length, "big")` as a raising operation. -/
def intToBytes (value length : Nat) : Except Ff1Raise (List UInt8) :=
  match toBytesBig value length with
  | some bytes => .ok bytes
  | none => .error .overflowError

/-- The search loop of `min_domain_length`; radix 2 needs the most rounds, 20. -/
def minDomainLengthFrom (radix : Nat) : Nat → Nat → Nat → Nat
  | 0, length, _ => length
  | fuel + 1, length, value =>
      if value < ff1MinDomain then minDomainLengthFrom radix fuel (length + 1) (value * radix)
      else length

/-- `min_domain_length` for the radices its callers pass (at least 2). -/
def minDomainLength (radix : Nat) : Nat :=
  minDomainLengthFrom radix 20 1 radix

section Primitive

variable (cipher : BlockCipher)

def ciph (key block : List UInt8) : List UInt8 :=
  cipher.encryptBlock key block

def xorBytes (left right : List UInt8) : List UInt8 :=
  List.zipWith (fun a b => a ^^^ b) left right

/-- The first `blocks` ciphertext blocks of AES-CBC chained from `chain`. -/
def cbcEncrypt (key : List UInt8) : Nat → List UInt8 → List UInt8 → List UInt8
  | 0, _, _ => []
  | blocks + 1, chain, data =>
      let block := cipher.encryptBlock key (xorBytes chain (data.take 16))
      block ++ cbcEncrypt key blocks block (data.drop 16)

def prf (key data : List UInt8) : Except Ff1Raise (List UInt8) :=
  if data.length % 16 ≠ 0 then .error (.ff1Error (.prfUnaligned data.length))
  else
    let ciphertext := cbcEncrypt cipher key (data.length / 16) (List.replicate 16 0) data
    .ok (ciphertext.drop (ciphertext.length - 16))

/-- The `while len(s) < d` loop of `_s_block`; `fuel` bounds its iterations. -/
def sBlockLoop (key r : List UInt8) (d : Nat) :
    Nat → List UInt8 → Nat → Except Ff1Raise (List UInt8)
  | 0, s, _ => .ok s
  | fuel + 1, s, j =>
      if s.length < d then
        match intToBytes (fromBytesBig r ^^^ j) 16 with
        | .error raised => .error raised
        | .ok block => sBlockLoop key r d fuel (s ++ ciph cipher key block) (j + 1)
      else .ok s

/-- Each pass appends a block, so `d` passes always reach `d` bytes. -/
def sBlock (key r : List UInt8) (d : Nat) : Except Ff1Raise (List UInt8) :=
  match sBlockLoop cipher key r d d r 1 with
  | .error raised => .error raised
  | .ok s => .ok (s.take d)

def numRadix (numerals : List Nat) (radix : Nat) : Nat :=
  numerals.foldl (fun x numeral => x * radix + numeral) 0

/-- Digit extraction from the last position to the first; returns what is left of `x`. -/
def strMRadixLoop (radix : Nat) : Nat → Nat → List Nat → Nat × List Nat
  | 0, x, digits => (x, digits)
  | m + 1, x, digits => strMRadixLoop radix m (x / radix) (x % radix :: digits)

def strMRadix (x m radix : Nat) : Except Ff1Raise (List Nat) :=
  let (rest, digits) := strMRadixLoop radix m x []
  if rest ≠ 0 then .error (.ff1Error (.overflow m radix)) else .ok digits

def bitLength (value : Nat) : Nat :=
  if value = 0 then 0 else value.log2 + 1

def byteLenForRadixPower (radix length : Nat) : Nat :=
  let maxValue := radix ^ length - 1
  let bits := if 0 < maxValue then bitLength maxValue else 0
  (bits + 7) / 8

def buildP (radix u n tweakLen : Nat) : Except Ff1Raise (List UInt8) := do
  let radixBytes ← intToBytes radix 3
  let nBytes ← intToBytes n 4
  let tweakBytes ← intToBytes tweakLen 4
  .ok ([1, 2, 1] ++ radixBytes ++ [UInt8.ofNat ff1Rounds, UInt8.ofNat (u % 256)] ++ nBytes ++
    tweakBytes)

def validateCommon (key tweak : List UInt8) (radix : Nat) (numerals : List Nat) :
    Except Ff1Raise (Nat × Nat) :=
  if key.length ∉ [16, 24, 32] then .error (.ff1Error (.keySize key.length))
  else if radix < 2 then .error (.ff1Error (.radixTooSmall radix))
  else if ff1StandardMaxRadix < radix then .error (.ff1Error (.radixTooLarge radix))
  else if numerals.length < 2 then .error (.ff1Error (.tooShort numerals.length))
  else if numerals.any (fun digit => !decide (digit < radix)) then
    .error (.ff1Error (.numeralRange radix
      (numerals.countP (fun digit => !decide (digit < radix))) numerals.length))
  else if 2 ^ 32 ≤ tweak.length then .error (.ff1Error (.tweakTooLong tweak.length))
  else .ok (numerals.length, tweak.length)

/-- The values both directions compute once, before their round loops. -/
structure RoundContext where
  key : List UInt8
  tweak : List UInt8
  radix : Nat
  u : Nat
  v : Nat
  byteLen : Nat
  d : Nat
  p : List UInt8
  zeroPad : List UInt8

def roundContext (key tweak : List UInt8) (radix : Nat) (numerals : List Nat) :
    Except Ff1Raise RoundContext := do
  let (n, t) ← validateCommon key tweak radix numerals
  let u := n / 2
  let v := n - u
  let byteLen := byteLenForRadixPower radix v
  let p ← buildP radix u n t
  .ok { key, tweak, radix, u, v, byteLen
        d := 4 * ((byteLen + 3) / 4) + 4
        p
        -- Python's `%` with a positive modulus is the nonnegative residue.
        zeroPad := List.replicate ((-(t : Int) - byteLen - 1) % 16).toNat 0 }

namespace RoundContext

variable (context : RoundContext)

/-- Steps 6.i to 6.iv of one round: the integer `y` derived from the kept half. -/
def roundValue (i : Nat) (kept : List Nat) : Except Ff1Raise Nat := do
  let keptBytes ← intToBytes (numRadix kept context.radix) context.byteLen
  let q := context.tweak ++ context.zeroPad ++ [UInt8.ofNat i] ++ keptBytes
  let r ← prf cipher context.key (context.p ++ q)
  let s ← sBlock cipher context.key r context.d
  .ok (fromBytesBig s)

def halfWidth (i : Nat) : Nat :=
  if i % 2 = 0 then context.u else context.v

def encryptRound (i : Nat) (halves : List Nat × List Nat) :
    Except Ff1Raise (List Nat × List Nat) := do
  let (a, b) := halves
  let y ← context.roundValue cipher i b
  let m := context.halfWidth i
  let c := (numRadix a context.radix + y) % context.radix ^ m
  let cNumerals ← strMRadix c m context.radix
  .ok (b, cNumerals)

def decryptRound (i : Nat) (halves : List Nat × List Nat) :
    Except Ff1Raise (List Nat × List Nat) := do
  let (a, b) := halves
  let y ← context.roundValue cipher i a
  let m := context.halfWidth i
  let c := (((numRadix b context.radix : Int) - y) % (context.radix ^ m : Nat)).toNat
  let cNumerals ← strMRadix c m context.radix
  .ok (cNumerals, a)

end RoundContext

def encrypt (key tweak : List UInt8) (radix : Nat) (numerals : List Nat) :
    Except Ff1Raise (List Nat) := do
  let context ← roundContext key tweak radix numerals
  let (a, b) ← (List.range ff1Rounds).foldlM
    (fun halves i => context.encryptRound cipher i halves)
    (numerals.take context.u, numerals.drop context.u)
  .ok (a ++ b)

def decrypt (key tweak : List UInt8) (radix : Nat) (numerals : List Nat) :
    Except Ff1Raise (List Nat) := do
  let context ← roundContext key tweak radix numerals
  let (a, b) ← (List.range ff1Rounds).reverse.foldlM
    (fun halves i => context.decryptRound cipher i halves)
    (numerals.take context.u, numerals.drop context.u)
  .ok (a ++ b)

end Primitive

end DecoyEngine.Transforms
