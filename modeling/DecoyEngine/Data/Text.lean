import Mathlib.Data.List.Basic
import Mathlib.Data.Nat.Digits.Lemmas

namespace DecoyEngine.Data

/-! Character classes of Python text, over lists of Unicode scalar values. -/

/-- The zero of every run of ten decimal digits (category Nd, Unicode 15). -/
def decimalZeros : List Nat :=
  [0x30, 0x660, 0x6F0, 0x7C0, 0x966, 0x9E6, 0xA66, 0xAE6, 0xB66, 0xBE6, 0xC66, 0xCE6, 0xD66,
   0xDE6, 0xE50, 0xED0, 0xF20, 0x1040, 0x1090, 0x17E0, 0x1810, 0x1946, 0x19D0, 0x1A80, 0x1A90,
   0x1B50, 0x1BB0, 0x1C40, 0x1C50, 0xA620, 0xA8D0, 0xA900, 0xA9D0, 0xA9F0, 0xAA50, 0xABF0,
   0xFF10, 0x104A0, 0x10D30, 0x11066, 0x110F0, 0x11136, 0x111D0, 0x112F0, 0x11450, 0x114D0,
   0x11650, 0x116C0, 0x11730, 0x118E0, 0x11950, 0x11C50, 0x11D50, 0x11DA0, 0x11F50, 0x16A60,
   0x16AC0, 0x16B50, 0x1D7CE, 0x1D7D8, 0x1D7E2, 0x1D7EC, 0x1D7F6, 0x1E140, 0x1E2F0, 0x1E4F0,
   0x1E950, 0x1FBF0]

/-- `int(ch)` of one character; `none` is its `ValueError`. -/
def decimalValue (ch : Char) : Option Nat :=
  (decimalZeros.find? (fun base => decide (base ≤ ch.toNat ∧ ch.toNat < base + 10))).map
    (fun base => ch.toNat - base)

/-- The runs of characters that are digits and not decimal ones (superscripts, circled digits and
their like): `str.isdigit` takes them, `int` does not. -/
def otherDigits : List (Nat × Nat) :=
  [(0xB2, 0xB3), (0xB9, 0xB9), (0x1369, 0x1371), (0x19DA, 0x19DA), (0x2070, 0x2070),
   (0x2074, 0x2079), (0x2080, 0x2089), (0x2460, 0x2468), (0x2474, 0x247C), (0x2488, 0x2490),
   (0x24EA, 0x24EA), (0x24F5, 0x24FD), (0x24FF, 0x24FF), (0x2776, 0x277E), (0x2780, 0x2788),
   (0x278A, 0x2792), (0x10A40, 0x10A43), (0x10E60, 0x10E68), (0x11052, 0x1105A),
   (0x1F100, 0x1F10A)]

/-- `ch.isdigit()` -/
def isDigitChar (ch : Char) : Bool :=
  (decimalValue ch).isSome ||
    otherDigits.any fun run => decide (run.1 ≤ ch.toNat) && decide (ch.toNat ≤ run.2)

/-- `text.isdigit()` -/
def isDigits (text : List Char) : Bool := !text.isEmpty && text.all isDigitChar

/-- `int(text)` of a text that `isdigit` takes; `none` is its `ValueError`. -/
def intOf (text : List Char) : Option Nat :=
  (text.mapM decimalValue).map fun digits => digits.foldl (fun value digit => 10 * value + digit) 0

/-- A bound over a text is decided along the text, not over all characters. -/
instance (priority := 2000) decidableForallChar (text : List Char) (p : Char → Prop)
    [DecidablePred p] : Decidable (∀ ch ∈ text, p ch) :=
  List.decidableBAll p text

def asciiDigits : List Char := ['0', '1', '2', '3', '4', '5', '6', '7', '8', '9']

/-- `str(d)` of one digit. -/
def digitChar (digit : Nat) : Char := Char.ofNat (48 + digit)

theorem decimalValue_digitChar {digit : Nat} (small : digit < 10) :
    decimalValue (digitChar digit) = some digit := by
  revert digit
  decide

theorem toNat_of_isAlpha {ch : Char} (letter : ch.isAlpha = true) :
    65 ≤ ch.toNat ∧ ch.toNat ≤ 122 := by
  rcases Bool.or_eq_true_iff.mp letter with upper | lower
  · obtain ⟨low, high⟩ : ch.val ≥ 65 ∧ ch.val ≤ 90 := of_decide_eq_true upper
    exact ⟨UInt32.le_iff_toNat_le.mp low, (UInt32.le_iff_toNat_le.mp high).trans (by decide)⟩
  · obtain ⟨low, high⟩ : ch.val ≥ 97 ∧ ch.val ≤ 122 := by simpa using Bool.and_eq_true_iff.mp lower
    exact ⟨le_trans (by decide) (UInt32.le_iff_toNat_le.mp low), UInt32.le_iff_toNat_le.mp high⟩

theorem digitChar_mem {digit : Nat} (small : digit < 10) : digitChar digit ∈ asciiDigits := by
  revert digit
  decide

theorem exists_digitChar {ch : Char} (digit : ch ∈ asciiDigits) :
    ∃ value < 10, ch = digitChar value := by
  revert digit ch
  decide

theorem digitChar_injective {left right : Nat} (leftSmall : left < 10) (rightSmall : right < 10)
    (same : digitChar left = digitChar right) : left = right := by
  have values := congrArg decimalValue same
  rw [decimalValue_digitChar leftSmall, decimalValue_digitChar rightSmall] at values
  exact Option.some.inj values

def isSpace (ch : Char) : Bool :=
  (9 ≤ ch.toNat && ch.toNat ≤ 13) || (28 ≤ ch.toNat && ch.toNat ≤ 32) ||
    ch.toNat ∈ [0x85, 0xA0, 0x1680, 0x2028, 0x2029, 0x202F, 0x205F, 0x3000] ||
    (0x2000 ≤ ch.toNat && ch.toNat ≤ 0x200A)

/-- `text.strip()`. -/
def strip (text : List Char) : List Char :=
  ((text.dropWhile isSpace).reverse.dropWhile isSpace).reverse

/-- `text.upper()` on ASCII text. -/
def upper (text : List Char) : List Char := text.map Char.toUpper

/-- Printable ASCII without the space: `!` to `~`. -/
def isPrintableAscii (ch : Char) : Bool := 0x21 ≤ ch.toNat && ch.toNat ≤ 0x7E

theorem isSpace_printable {ch : Char} (printable : isPrintableAscii ch = true) :
    isSpace ch = false := by
  simp only [isPrintableAscii, Bool.and_eq_true, decide_eq_true_eq] at printable
  simp only [isSpace, List.mem_cons, List.not_mem_nil, or_false, Bool.or_eq_false_iff,
    Bool.and_eq_false_iff, decide_eq_false_iff_not]
  omega

theorem strip_printable {text : List Char} (printable : ∀ ch ∈ text, isPrintableAscii ch = true) :
    strip text = text := by
  have untouched : ∀ {other : List Char}, (∀ ch ∈ other, isPrintableAscii ch = true) →
      other.dropWhile isSpace = other := by
    intro other visible
    cases other with
    | nil => rfl
    | cons head rest =>
        rw [List.dropWhile_cons_of_neg]
        simp [isSpace_printable (visible head (by simp))]
  rw [strip, untouched printable, untouched (fun ch member => printable ch (by simpa using member)),
    List.reverse_reverse]

end DecoyEngine.Data
