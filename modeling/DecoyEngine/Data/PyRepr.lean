import DecoyEngine.Data.BytesText
import Mathlib.Data.List.Sort
import Mathlib.Data.String.Basic

namespace DecoyEngine.Data

/-! `repr` of strings and of lists of strings, as error messages print them. -/

/-- The control and format characters of Latin-1.  Past Latin-1 every character counts as
printable here. -/
def isUnprintable (char : Char) : Bool :=
  char.toNat < 32 || (127 ≤ char.toNat && char.toNat ≤ 160) || char.toNat = 173

def escapeChar (quote char : Char) : List Char :=
  if char = quote ∨ char = '\\' then ['\\', char]
  else if char = '\t' then ['\\', 't']
  else if char = '\n' then ['\\', 'n']
  else if char = '\r' then ['\\', 'r']
  else if isUnprintable char then
    ['\\', 'x', Char.ofNat (hexCode (char.toNat / 16)), Char.ofNat (hexCode (char.toNat % 16))]
  else [char]

/-- Single quotation marks, unless the text holds one and no double one. -/
def reprQuote (chars : List Char) : Char :=
  if '\'' ∈ chars ∧ '"' ∉ chars then '"' else '\''

def reprChars (chars : List Char) : List Char :=
  reprQuote chars :: chars.flatMap (escapeChar (reprQuote chars)) ++ [reprQuote chars]

/-- `repr(text)` of a string. -/
def pyRepr (text : String) : String := String.ofList (reprChars text.toList)

def listText (items : List String) : String := "[" ++ ", ".intercalate items ++ "]"

/-- `repr` of a list of strings. -/
def namesText (names : List String) : String := listText (names.map pyRepr)

/-- `sorted` of a list of strings. -/
def sorted (names : List String) : List String := names.insertionSort (· ≤ ·)

example : reprChars "it's\n".toList = "\"it's\\n\"".toList := by decide

end DecoyEngine.Data
