import DecoyEngine.Data.Double

namespace DecoyEngine.Data

/-! JSON documents as Python holds them: an object is its members in order. -/

inductive Json where
  | null
  | bool (value : Bool)
  | int (value : Int)
  | float (value : Double)
  | text (value : String)
  | array (items : List Json)
  | object (members : List (String × Json))

namespace Json

/-- `document[key]` of a dict; `none` is every error of the subscript. -/
def member (key : String) : Json → Option Json
  | .object members => members.lookup key
  | _ => none

/-- What a `for` over the document yields; `none` where it cannot be iterated. -/
def elements : Json → Option (List Json)
  | .array items => some items
  | .object members => some (members.map fun entry => .text entry.1)
  | .text value => some (value.toList.map fun ch => .text (String.singleton ch))
  | _ => none

def asText : Json → Option String
  | .text value => some value
  | _ => none

/-- `bool(document)` -/
def truthy : Json → Bool
  | .null => false
  | .bool value => value
  | .int value => value ≠ 0
  | .float (.number (.finite _ magnitude)) => magnitude.mantissa ≠ 0
  | .float _ => true
  | .text value => value ≠ ""
  | .array items => !items.isEmpty
  | .object members => !members.isEmpty

/-- `type(document).__name__` -/
def typeName : Json → String
  | .null => "NoneType"
  | .bool _ => "bool"
  | .int _ => "int"
  | .float _ => "float"
  | .text _ => "str"
  | .array _ => "list"
  | .object _ => "dict"

end Json

end DecoyEngine.Data
