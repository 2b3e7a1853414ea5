import DecoyEngine.Data.DecimalReader
import DecoyEngine.Data.Double

namespace DecoyEngine.Execution.TopCode

open DecoyEngine.Data

/-! Top- and bottom-coding of an object column (`_strategies/_top_code.py`): each cell is read as
an exact number and put over the cap, under the floor or in range. -/

/-- A cell of an object column, by the Python type that decides how its value is read. -/
inductive Cell where
  /-- `None`, `NaT`, `pd.NA` -/
  | missing
  | bool (value : Bool)
  | int (value : Int)
  | float (value : Double)
  | decimal (value : PyDecimal) (limits : value.inLimits = true)
  | decimalNan (signaling : Bool)
  | text (value : List Char)
  /-- any other scalar, by its `str` -/
  | scalar (shown : List Char)
  /-- a list, a dict, an array -/
  | container
deriving DecidableEq

inductive Refusal where
  | strategyError (code : String) (message : String)
  /-- `ValueError`: exceeds the limit for integer string conversion. -/
  | intTooLong
  /-- `decimal.InvalidOperation`, from comparing a signaling NaN with itself. -/
  | signalingNan
deriving Repr, DecidableEq

structure RowError where
  column : String
  rowIndex : Nat
  trigger : String
  reason : String
deriving Repr, DecidableEq

def formatError (column : String) (rowIndex : Nat) : RowError :=
  ⟨column, rowIndex, "format_error", "value is not numeric under top_code"⟩

/-- A value of the provider config; an absent key is `none` of it. -/
inductive ConfigValue where
  | null
  | bool (value : Bool)
  | int (value : Int)
  | float (value : Double)
  | text (value : String)
  | other (repr : String)
deriving DecidableEq

structure TopCodeConfig where
  preset : Option ConfigValue := none
  cap : Option ConfigValue := none
  overLabel : Option ConfigValue := none
  floor : Option ConfigValue := none
  underLabel : Option ConfigValue := none

/-- `_MAX_EXACT_INT` -/
def maxExactInt : Nat := 2 ^ 53

/-- A usable cap or floor, as the number it is. -/
structure Bound where
  value : ℚ
  usable : |value| < maxExactInt

/-- `_is_usable_bound`, with the number it admits. -/
def usableBound : ConfigValue → Option Bound
  | .int value =>
      if usable : |(value : ℚ)| < maxExactInt then some ⟨value, usable⟩ else none
  | .float (.number (.finite negative magnitude)) =>
      if usable : |signedValue negative magnitude.value| < maxExactInt then
        some ⟨signedValue negative magnitude.value, usable⟩
      else none
  | _ => none

/-- `isinstance(label, str)` and not empty. -/
def usableLabel : Option ConfigValue → Option String
  | some (.text "") => none
  | some (.text label) => some label
  | _ => none

/-- `_PRESETS` -/
def presets : String → Option (ConfigValue × String)
  | "hipaa_age" => some (.int 89, "90+")
  | _ => none

def resolveTopBound (cfg : TopCodeConfig) : Option (Bound × String) :=
  match cfg.preset.getD .null with
  | .null => do
      let cap ← usableBound (cfg.cap.getD .null)
      let overLabel ← usableLabel cfg.overLabel
      pure (cap, overLabel)
  | .text preset => do
      let (cap, overLabel) ← presets preset
      let cap ← usableBound cap
      pure (cap, overLabel)
  | _ => none

section Bottom

variable (repr : ConfigValue → String)

def floorUnusable (floor : ConfigValue) : Refusal :=
  .strategyError "top_code_bounds_unresolvable"
    ("top_code floor " ++ repr floor ++ " is not a usable bound (must be a finite number with " ++
      "magnitude below 2**53). Refusing to run rather than silently disable bottom-coding.")

def underLabelUnusable (floor underLabel : ConfigValue) : Refusal :=
  .strategyError "top_code_bounds_unresolvable"
    ("top_code sets floor " ++ repr floor ++ " but no non-empty under_label (got " ++
      repr underLabel ++ "). Refusing to run rather than silently drop the bottom tail.")

/-- The floor and its label, together or not at all. -/
def resolveBottomBound (cfg : TopCodeConfig) : Except Refusal (Option (Bound × String)) :=
  match cfg.floor with
  | none => .ok none
  | some floor =>
      match usableBound floor with
      | none => .error (floorUnusable repr floor)
      | some bound =>
          match usableLabel cfg.underLabel with
          | none => .error (underLabelUnusable repr floor (cfg.underLabel.getD .null))
          | some underLabel => .ok (some (bound, underLabel))

end Bottom

/-- `pd.isna(value)` of a scalar. -/
def isna : Cell → Except Refusal Bool
  | .missing => .ok true
  | .float .nan => .ok true
  | .decimalNan false => .ok true
  | .decimalNan true => .error .signalingNan
  | _ => .ok false

/-- `str(value)` of a cell that is not a bool, an int or a float. -/
def Cell.str : Cell → List Char
  | .decimal value _ => value.text
  | .decimalNan false => "NaN".toList
  | .decimalNan true => "sNaN".toList
  | .text value => value
  | .scalar shown => shown
  | _ => []

inductive Parsed where
  | int (value : Int)
  | frac
  | bad
deriving Repr, DecidableEq

/-- The `Decimal` branch of `_parse_exact`. -/
def parseReading : Option DecimalReading → Parsed
  | none => .bad
  | some (.nan _) => .bad
  | some (.number (.infinity _)) => .bad
  | some (.number dec) =>
      if dec.exact = dec.toIntegralValue.exact then .int dec.truncated else .frac

/-- `_parse_exact` -/
def parseExact : Cell → Parsed
  | .bool _ => .bad
  | .int value => .int value
  | .float .nan => .bad
  | .float (.number (.infinity _)) => .bad
  | .float (.number (.finite negative magnitude)) =>
      if magnitude.isInteger then
        .int (if negative then -(magnitude.truncated : Int) else magnitude.truncated)
      else .frac
  | value => parseReading (readDecimal value.str)

/-- `str(value)` of an integer. -/
def pyStr (value : Int) : Except Refusal (List Char) :=
  if 10 ^ intMaxStrDigits ≤ value.natAbs then .error .intTooLong else .ok (intText value)

/-- What a cell comes to. -/
inductive Mark where
  | overCap
  | under
  | inRange (text : List Char)
  | rowError
  | null
deriving Repr, DecidableEq

namespace Mark

def isInRange : Mark → Bool
  | inRange _ => true
  | _ => false

def text : Mark → Option (List Char)
  | inRange text => some text
  | _ => none

end Mark

def nonIntegralColumn (column : String) : Refusal :=
  .strategyError "top_code_non_integral_object_column"
    ("column '" ++ column ++ "' is an object/string column holding a non-integer numeric value " ++
      "(a decimal). top_code will not coerce such a column through float64 -- a tail value one " ++
      "ULP above the cap would collapse into range and escape generalization. Store the column " ++
      "as a numeric dtype, or pre-round its values, before top_code.")

section Column

variable (column : String) (cap : Bound) (bottom : Option (Bound × String))

/-- The class of a number. -/
def classifyExact (exact : Int) : Except Refusal Mark :=
  if cap.value < exact then .ok .overCap
  else if bottom.any (fun entry => (exact : ℚ) < entry.1.value) then .ok .under
  else (pyStr exact).map .inRange

/-- One turn of the loop of `_classify_object_column`. -/
def classifyCell (value : Cell) : Except Refusal Mark :=
  if value = .container then .ok .rowError
  else do
    let null ← isna value
    if null then pure .null
    else
      match parseExact value with
      | .bad => pure .rowError
      | .frac => .error (nonIntegralColumn column)
      | .int exact => classifyExact cap bottom exact

/-- The masks and texts of the column, with the row errors recorded on the way. -/
structure Classified where
  overMask : List Bool
  underMask : List Bool
  inRangeMask : List Bool
  render : List (Option (List Char))
  rowErrors : List RowError
deriving Repr, DecidableEq

def Classified.empty : Classified := ⟨[], [], [], [], []⟩

def Classified.cons (pos : Nat) (mark : Mark) (rest : Classified) : Classified where
  overMask := (mark == .overCap) :: rest.overMask
  underMask := (mark == .under) :: rest.underMask
  inRangeMask := mark.isInRange :: rest.inRangeMask
  render := mark.text :: rest.render
  rowErrors :=
    if mark = .rowError then formatError column pos :: rest.rowErrors else rest.rowErrors

def classifyFrom (pos : Nat) : List Cell → Except Refusal Classified
  | [] => .ok .empty
  | value :: values => do
      let mark ← classifyCell column cap bottom value
      let rest ← classifyFrom (pos + 1) values
      pure (rest.cons column pos mark)

def classifyObjectColumn (col : List Cell) : Except Refusal Classified :=
  classifyFrom column cap bottom 0 col

/-- The three `where` writes of one row. -/
def writeCell (overLabel : String) (underLabel : Option String) (value : Cell)
    (overMask underMask inRangeMask : Bool) (render : Option (List Char)) : Cell :=
  let result := if inRangeMask then render.elim .missing .text else value
  let result := if overMask then .text overLabel.toList else result
  if underMask then underLabel.elim .missing (fun label => .text label.toList) else result

def writeColumn (overLabel : String) (col : List Cell) (masks : Classified) : List Cell :=
  (col.zip (masks.overMask.zip (masks.underMask.zip (masks.inRangeMask.zip masks.render)))).map fun
    | (value, overMask, underMask, inRangeMask, render) =>
        writeCell overLabel (bottom.map Prod.snd) value overMask underMask inRangeMask render

end Column

/-- `run` on an object column. -/
def run (repr : ConfigValue → String) (column : String) (cfg : TopCodeConfig) (col : List Cell) :
    Except Refusal (List Cell × List RowError) := do
  let some (cap, overLabel) := resolveTopBound cfg
    | throw (.strategyError "top_code_bounds_unresolvable"
        ("column '" ++ column ++ "' uses top_code but neither a known preset (" ++
          repr (cfg.preset.getD .null) ++ ") nor a resolvable numeric cap (" ++
          repr (cfg.cap.getD .null) ++ ") with a non-empty over_label is configured."))
  let bottom ← resolveBottomBound repr cfg
  let masks ← classifyObjectColumn column cap bottom col
  pure (writeColumn bottom overLabel col masks, masks.rowErrors)

theorem run_eq {repr : ConfigValue → String} {cfg : TopCodeConfig} {cap : Bound}
    {overLabel : String} {bottom : Option (Bound × String)} (column : String) (col : List Cell)
    (top : resolveTopBound cfg = some (cap, overLabel))
    (floor : resolveBottomBound repr cfg = .ok bottom) :
    run repr column cfg col = (classifyObjectColumn column cap bottom col).map fun masks =>
      (writeColumn bottom overLabel col masks, masks.rowErrors) := by
  rw [run, top]
  dsimp only
  rw [floor]
  simp only [bind, Except.bind]
  cases classifyObjectColumn column cap bottom col <;> rfl

end DecoyEngine.Execution.TopCode
