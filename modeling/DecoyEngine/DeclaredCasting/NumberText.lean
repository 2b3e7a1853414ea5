import DecoyEngine.Data.DigitText
import DecoyEngine.Data.RegexLanguage
import DecoyEngine.DeclaredCasting.Numeric

namespace DecoyEngine.DeclaredCasting.NumberText

open DecoyEngine.Data hiding scaled
open DecoyEngine.DeclaredCasting.Numeric

/-! Plain, grouped and currency text (`declared_casting/_numeric.py`). -/

structure Precision where
  precision : Nat
  scale : Nat
  precision_range : 1 ≤ precision ∧ precision ≤ 38
  scale_le : scale ≤ precision

/-- `_separator`: one printable ASCII character that no number starts with. -/
def IsSeparator (ch : Char) : Prop :=
  32 ≤ ch.toNat ∧ ch.toNat < 127 ∧ ch ∉ "0123456789+-() ".toList

instance : DecidablePred IsSeparator := fun _ => inferInstanceAs (Decidable (_ ∧ _ ∧ _))

/-- What `format_plain` and `_number_pattern` read of a format. -/
structure NumberFormat extends Precision where
  radix : Char
  group : Option Char
  radix_separator : IsSeparator radix
  group_separator : ∀ ch, group = some ch → IsSeparator ch
  distinct : group ≠ some radix

/-- The defaults of `getattr` for a format without separators. -/
def Precision.plain (spec : Precision) : NumberFormat :=
  { spec with
    radix := '.'
    group := none
    radix_separator := by decide
    group_separator := nofun
    distinct := nofun }

structure DecimalGrouped extends NumberFormat where
  group_isSome : group.isSome

inductive TokenPosition where
  | prefixed
  | suffixed
deriving Repr, DecidableEq

inductive SignStyle where
  | leadingMinus
  | accountingParentheses
deriving Repr, DecidableEq

structure Currency extends NumberFormat where
  token : List Char
  tokenPosition : TokenPosition
  signStyle : SignStyle
  token_nonempty : token ≠ []
  token_bytes : (token.map Char.utf8Size).sum ≤ 32
  token_unsigned : ∀ sign ∈ ['-', '(', ')'], sign ∉ token

/-- `[whole[i : i + 3] for i in range(0, len(whole), 3)]` -/
def triples : List Char → List (List Char)
  | [] => []
  | first :: second :: third :: rest => [first, second, third] :: triples rest
  | short => [short]

/-- `_group` -/
def groupText (whole : List Char) : Option Char → List Char
  | none => whole
  | some sep =>
      if whole.length ≤ 3 then whole
      else
        let head := if whole.length % 3 = 0 then 3 else whole.length % 3
        [sep].intercalate (whole.take head :: triples (whole.drop head))

def renderNumber (unscaled scale : Nat) (radix : Char) (group : Option Char) : List Char :=
  let digits := rjustDigits unscaled (scale + 1)
  let whole := digits.take (digits.length - scale)
  let frac := digits.drop (digits.length - scale)
  groupText whole group ++ (if scale = 0 then [] else radix :: frac)

def formatPlain (spec : NumberFormat) (value : Value) : Except Reason (List Char) :=
  match unscale value spec.scale spec.precision with
  | .error reason => .error reason
  | .ok (number, negative) =>
      .ok (signed negative (renderNumber number spec.scale spec.radix spec.group))

/-- The token on its side of the number. -/
def Currency.withToken (spec : Currency) (number : List Char) : List Char :=
  match spec.tokenPosition with
  | .prefixed => spec.token ++ number
  | .suffixed => number ++ spec.token

/-- The sign around the body. -/
def Currency.withSign (spec : Currency) (negative : Bool) (body : List Char) : List Char :=
  if negative then
    match spec.signStyle with
    | .leadingMinus => '-' :: body
    | .accountingParentheses => '(' :: body ++ [')']
  else body

def formatCurrency (spec : Currency) (value : Value) : Except Reason (List Char) :=
  match unscale value spec.scale spec.precision with
  | .error reason => .error reason
  | .ok (number, negative) =>
      .ok (spec.withSign negative
        (spec.withToken (renderNumber number spec.scale spec.radix spec.group)))

/-- `_from_parts` -/
def fromParts (spec : Precision) (negative : Bool) (whole frac : List Char)
    (loss overflow : Reason) : Except Reason PyDecimal :=
  if spec.scale < frac.length then .error loss
  else
    let unscaled := textNat (whole ++ (frac ++ List.replicate (spec.scale - frac.length) '0'))
    if 10 ^ spec.precision ≤ unscaled then .error overflow
    else .ok (scaled unscaled spec.scale negative)

def isDigit (ch : Char) : Bool := ch ∈ asciiDigits

/-- `[1-9]` -/
def isNonzeroDigit (ch : Char) : Bool := ch ∈ "123456789".toList

def digit : Regex Char := .set isDigit

def nonzeroDigit : Regex Char := .set isNonzeroDigit

def literal (ch : Char) : Regex Char := .set (· == ch)

/-- `_PLAIN`: the sign, the whole part and the fraction with its point. -/
def plainPattern : List (Regex Char) :=
  [.opt (.set (· ∈ ['+', '-'])), .plus digit, .opt (.seq (literal '.') (.plus digit))]

def parsePlain (spec : Precision) (raw : List Char) : Except Reason PyDecimal :=
  if maxText < raw.length then .error .decimalInvalid
  else
    match Regex.fullmatch plainPattern raw with
    | some [sign, whole, frac] =>
        fromParts spec (sign == ['-']) whole (frac.drop 1) .decimalPrecisionLoss .decimalOverflow
    | _ => .error .decimalInvalid

def wholePattern : Option Char → Regex Char
  | none => .plus digit
  | some sep =>
      .alt (literal '0') (.alt
        (.seq nonzeroDigit (.seq (.between digit 0 2)
          (.star (.seq (literal sep) (.times digit 3)))))
        (.seq nonzeroDigit (.star digit)))

def fracPattern (spec : NumberFormat) : Regex Char :=
  if spec.scale = 0 then .empty else .seq (literal spec.radix) (.times digit spec.scale)

/-- `_number_pattern`: the groups `whole` and `frac`. -/
def numberPattern (spec : NumberFormat) : List (Regex Char) :=
  [wholePattern spec.group, fracPattern spec]

/-- `[1-9][0-9]{3,}` -/
def ungroupedPattern : Regex Char := .seq nonzeroDigit (.atLeast digit 3)

def groupedDigits (spec : NumberFormat) (number : List Char) : Option (List Char × List Char) :=
  match Regex.fullmatch (numberPattern spec) number with
  | some [whole, frac] =>
      match spec.group with
      | none => some (whole, frac.drop 1)
      | some sep =>
          if (Regex.fullmatch [ungroupedPattern] whole).isSome then none
          else some (whole.filter (· ≠ sep), frac.drop 1)
  | _ => none

def parseGrouped (spec : DecimalGrouped) (raw : List Char) : Except Reason PyDecimal :=
  if maxText < raw.length then .error .decimalInvalid
  else
    let negative := raw.head? == some '-'
    let number := if negative || raw.head? == some '+' then raw.drop 1 else raw
    match groupedDigits spec.toNumberFormat number with
    | none => .error .decimalInvalid
    | some (whole, frac) =>
        fromParts spec.toPrecision negative whole frac .decimalPrecisionLoss .decimalOverflow

/-- The body of a raw text, and whether its sign was negative. -/
def Currency.unsigned (spec : Currency) (raw : List Char) : List Char × Bool :=
  match spec.signStyle with
  | .leadingMinus => if raw.head? = some '-' then (raw.drop 1, true) else (raw, false)
  | .accountingParentheses =>
      if raw.head? = some '(' ∧ raw.getLast? = some ')' then ((raw.drop 1).dropLast, true)
      else (raw, false)

/-- The number of a body, when the token stands on its side. -/
def Currency.withoutToken (spec : Currency) (body : List Char) : Option (List Char) :=
  match spec.tokenPosition with
  | .prefixed => if spec.token <+: body then some (body.drop spec.token.length) else none
  | .suffixed =>
      if spec.token <:+ body then some (body.take (body.length - spec.token.length)) else none

def parseCurrency (spec : Currency) (raw : List Char) : Except Reason PyDecimal :=
  if maxText < raw.length then .error .currencyInvalid
  else
    let (body, negative) := spec.unsigned raw
    match spec.withoutToken body with
    | none => .error .currencyInvalid
    | some number =>
        match groupedDigits spec.toNumberFormat number with
        | none => .error .currencyInvalid
        | some (whole, frac) =>
            fromParts spec.toPrecision negative whole frac .currencyInvalid .currencyInvalid

example : groupText "1234567".toList (some ',') = "1,234,567".toList := by decide

end DecoyEngine.DeclaredCasting.NumberText
