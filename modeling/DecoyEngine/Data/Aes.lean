import Mathlib.Data.List.Basic

namespace DecoyEngine.Data

/-! The AES block function (FIPS 197), forward direction only.

Bytes are numbers below 256 here, so that the kernel evaluates them directly.  A block
and a round key are sixteen bytes, column by column. -/

namespace Aes

/-- The S-box: row `r` holds the images of `16 r` to `16 r + 15`, lowest byte first. -/
def sboxRows : List Nat :=
  [0x76abd7fe2b670130c56f6bf27b777c63, 0xc072a49cafa2d4adf04759fa7dc982ca,
   0x1531d871f1e5a534ccf73f362693fdb7, 0x75b227ebe28012079a059618c323c704,
   0x842fe329b3d63b52a05a6e1b1a2c8309, 0xcf584c4a39becb6a5bb1fc20ed00d153,
   0xa89f3c507f02f94585334d43fbaaefd0, 0xd2f3ff1021dab6bcf5389d928f40a351,
   0x73195d643d7ea7c41744975fec130ccd, 0xdb0b5ede14b8ee4688902a22dc4f8160,
   0x79e4959162acd3c25c2406490a3a32e0, 0x08ae7a65eaf4566ca94ed58d6d37c8e7,
   0x8a8bbd4b1f74dde8c6b4a61c2e2578ba, 0x9e1dc186b95735610ef6034866b53e70,
   0xdf2855cee9871e9b948ed9691198f8e1, 0x16bb54b00f2d99416842e6bf0d89a18c]

def subByte (b : Nat) : Nat := (sboxRows.getD (b / 16) 0 >>> (8 * (b % 16))) % 256

/-- Multiplication by `x` in the field of 256 elements. -/
def xtime (b : Nat) : Nat := if b < 128 then 2 * b else (2 * b % 256) ^^^ 0x1b

def xorWords (left right : List Nat) : List Nat := List.zipWith (fun a b => a ^^^ b) left right

def subWord (word : List Nat) : List Nat := word.map subByte

def rotWord : List Nat → List Nat
  | [] => []
  | byte :: rest => rest ++ [byte]

/-- The key schedule's words, newest first; each call adds `fuel` more. -/
def expandWords (nk : Nat) : Nat → Nat → Nat → List (List Nat) → List (List Nat)
  | 0, _, _, words => words
  | fuel + 1, i, rcon, words =>
      let previous := words.headD []
      let origin := words.getD (nk - 1) []
      if i % nk = 0 then
        let mixed := xorWords (subWord (rotWord previous)) [rcon, 0, 0, 0]
        expandWords nk fuel (i + 1) (xtime rcon) (xorWords origin mixed :: words)
      else if 6 < nk ∧ i % nk = 4 then
        expandWords nk fuel (i + 1) rcon (xorWords origin (subWord previous) :: words)
      else expandWords nk fuel (i + 1) rcon (xorWords origin previous :: words)

/-- Four words make a round key. -/
def roundKeys : List (List Nat) → List (List Nat)
  | a :: b :: c :: d :: rest => (a ++ b ++ c ++ d) :: roundKeys rest
  | _ => []

/-- The round keys of a 16, 24 or 32 byte key. -/
def expandKey (key : List Nat) : List (List Nat) :=
  let nk := key.length / 4
  let initial := (List.range nk).map (fun i => (key.drop (4 * i)).take 4)
  roundKeys (expandWords nk (4 * (nk + 7) - nk) nk 1 initial.reverse).reverse

def shiftRows : List Nat → List Nat
  | [a0, a1, a2, a3, b0, b1, b2, b3, c0, c1, c2, c3, d0, d1, d2, d3] =>
      [a0, b1, c2, d3, b0, c1, d2, a3, c0, d1, a2, b3, d0, a1, b2, c3]
  | state => state

def mixColumns : List Nat → List Nat
  | a :: b :: c :: d :: rest =>
      (xtime a ^^^ xtime b ^^^ b ^^^ c ^^^ d) :: (a ^^^ xtime b ^^^ xtime c ^^^ c ^^^ d) ::
        (a ^^^ b ^^^ xtime c ^^^ xtime d ^^^ d) :: (xtime a ^^^ a ^^^ b ^^^ c ^^^ xtime d) ::
        mixColumns rest
  | state => state

def rounds : List (List Nat) → List Nat → List Nat
  | [], state => state
  | [last], state => xorWords (shiftRows (subWord state)) last
  | roundKey :: rest, state =>
      rounds rest (xorWords (mixColumns (shiftRows (subWord state))) roundKey)

def cipherBytes (key block : List Nat) : List Nat :=
  match expandKey key with
  | [] => block
  | whitening :: rest => rounds rest (xorWords block whitening)

def encryptBlock (key block : List UInt8) : List UInt8 :=
  let result := cipherBytes (key.map UInt8.toNat) (block.map UInt8.toNat)
  (List.range 16).map (fun i => UInt8.ofNat (result.getD i 0))

theorem length_encryptBlock (key block : List UInt8) : (encryptBlock key block).length = 16 := by
  simp [encryptBlock]

/-- The AES-256 example vector of the standard. -/
example : encryptBlock ((List.range 32).map UInt8.ofNat)
    ((List.range 16).map (fun i => UInt8.ofNat (17 * i))) =
    [0x8e, 0xa2, 0xb7, 0xca, 0x51, 0x67, 0x45, 0xbf, 0xea, 0xfc, 0x49, 0x90, 0x4b, 0x49, 0x60,
     0x89] := by
  decide +kernel

end Aes

end DecoyEngine.Data
