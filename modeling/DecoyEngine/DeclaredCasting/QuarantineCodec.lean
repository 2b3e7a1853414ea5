import DecoyEngine.Data.BytesText
import DecoyEngine.Data.Dict
import DecoyEngine.Data.IsoTime
import DecoyEngine.Data.Json
import DecoyEngine.Data.Vocabulary

namespace DecoyEngine.DeclaredCasting.Quarantine

open DecoyEngine.Data

/-! The tagged JSON of a quarantined cell (`declared_casting/_quarantine_codec.py`). -/

/-- A `timedelta`; `nanos` counts what a pandas `Timedelta` holds below the microsecond. -/
structure Duration where
  days : Int
  seconds : Nat
  micros : Nat
  nanos : Nat
  valid : (-999999999 ≤ days ∧ days ≤ 999999999) ∧ seconds < 86400 ∧ micros < 10 ^ 6 ∧ nanos < 1000
deriving DecidableEq

/-- `timedelta(days=..., seconds=..., microseconds=...)`; `none` is its `OverflowError`. -/
def Duration.ofParts (days seconds micros : Int) : Option Duration :=
  let total := (days * 86400 + seconds) * 10 ^ 6 + micros
  let whole := total / (86400 * 10 ^ 6)
  if fits : -999999999 ≤ whole ∧ whole ≤ 999999999 then
    some {
      days := whole
      seconds := (total / 10 ^ 6 % 86400).toNat
      micros := (total % 10 ^ 6).toNat
      nanos := 0
      valid := ⟨fits, by omega, by omega, by decide⟩ }
  else none

/-- What a cell of an Arrow row is in Python.  The fields of a struct are a dict by name. -/
inductive Value where
  | null
  | bool (value : Bool)
  | int (value : Int)
  | float (value : Double)
  | text (value : String)
  | bytes (value : List UInt8)
  | decimal (value : PyDecimal)
  | date (value : PyDate)
  | time (value : PyTime)
  | datetime (value : PyDatetime)
  | duration (value : Duration)
  | list (items : List Value)
  | tuple (items : List Value)
  | struct (fields : List (String × Value))

inductive Tag where
  | hex | dec | datetime | date | time | td | list | tuple | map
deriving Repr, DecidableEq

instance : Vocabulary Tag where
  members := [.hex, .dec, .datetime, .date, .time, .td, .list, .tuple, .map]
  word
    | .hex => "$hex"
    | .dec => "$dec"
    | .datetime => "$datetime"
    | .date => "$date"
    | .time => "$time"
    | .td => "$td"
    | .list => "$list"
    | .tuple => "$tuple"
    | .map => "$map"

def tagged (tag : Tag) (body : Json) : Json := .object [(Vocabulary.word tag, body)]

def chars (text : List Char) : Json := .text (String.ofList text)

mutual

/-- The tagged JSON of a cell: what JSON cannot tell apart is tagged with its type, so that it is
read back as what it was. -/
def encode : Value → Json
  | .null => .null
  | .bool value => .bool value
  | .int value => .int value
  | .float value => .float value
  | .text value => .text value
  | .bytes value => tagged .hex (chars (hexText value))
  | .decimal value => tagged .dec (chars value.text)
  | .datetime value => tagged .datetime (chars value.isoformat)
  | .date value => tagged .date (chars value.isoformat)
  | .time value => tagged .time (chars value.isoformat)
  | .duration value =>
      tagged .td (.array [.int value.days, .int value.seconds, .int value.micros])
  | .list items => tagged .list (.array (encodeItems items))
  | .tuple items => tagged .tuple (.array (encodeItems items))
  | .struct fields => tagged .map (.array (encodeFields fields))

def encodeItems : List Value → List Json
  | [] => []
  | item :: items => encode item :: encodeItems items

def encodeFields : List (String × Value) → List Json
  | [] => []
  | (name, value) :: fields => .array [.text name, encode value] :: encodeFields fields

end

mutual

/-- A document without a tag, as `json.loads` holds it. -/
def plain : Json → Value
  | .null => .null
  | .bool value => .bool value
  | .int value => .int value
  | .float value => .float value
  | .text value => .text value
  | .array items => .list (plainItems items)
  | .object members => .struct (plainMembers members)

def plainItems : List Json → List Value
  | [] => []
  | item :: items => plain item :: plainItems items

def plainMembers : List (String × Json) → List (String × Value)
  | [] => []
  | (name, body) :: members => (name, plain body) :: plainMembers members

end

def decodeDuration : Json → Option Value
  | .array (.int days :: .int seconds :: .int micros :: _) =>
      (Duration.ofParts days seconds micros).map .duration
  | _ => none

/-- The dict of the pairs: a name that comes again keeps its place and takes the new value. -/
def structOf (pairs : List (String × Value)) : Value :=
  .struct ((Dict.empty : Dict String Value).sets pairs).entries

/-- A body that is no list is still iterated: a text by character, a dict by key. -/
def iterated : Json → Option (List Value)
  | .text text => some (text.toList.map fun ch => .text (String.singleton ch))
  | .object members => some (members.map fun entry => .text entry.1)
  | _ => none

mutual

/-- `_decode`; `none` is every exception it can raise. -/
def decode : Json → Option Value
  | .object [(tag, body)] => decodeTagged (Vocabulary.ofWord tag) body
  | document => some (plain document)

/-- The value of a tagged object; `none` where the body is not one of its tag. -/
def decodeTagged : Option Tag → Json → Option Value
  | some .hex, .text text => (fromHex text.toList).map .bytes
  | some .dec, .text text => (PyDecimal.ofText text.toList).map .decimal
  | some .datetime, .text text => (PyDatetime.fromisoformat text.toList).map .datetime
  | some .date, .text text => (PyDate.fromisoformat text.toList).map .date
  | some .time, .text text => (PyTime.fromisoformat text.toList).map .time
  | some .td, body => decodeDuration body
  | some .list, .array items => (decodeItems items).map .list
  | some .list, body => (iterated body).map .list
  | some .tuple, .array items => (decodeItems items).map .tuple
  | some .tuple, body => (iterated body).map .tuple
  | some .map, .array entries => (decodePairs entries).map structOf
  | _, _ => none

def decodeItems : List Json → Option (List Value)
  | [] => some []
  | item :: items => do
      let value ← decode item
      let values ← decodeItems items
      some (value :: values)

/-- `for k, v in body`, for the keys a struct has: texts. -/
def decodePairs : List Json → Option (List (String × Value))
  | [] => some []
  | .array [.text name, body] :: entries => do
      let value ← decode body
      let pairs ← decodePairs entries
      some ((name, value) :: pairs)
  | _ => none

end

mutual

/-- No dict of the value holds a name twice. -/
def Value.distinct : Value → Bool
  | .list items => distinctItems items
  | .tuple items => distinctItems items
  | .struct fields => (fields.map Prod.fst).Nodup && distinctFields fields
  | _ => true

def distinctItems : List Value → Bool
  | [] => true
  | item :: items => item.distinct && distinctItems items

def distinctFields : List (String × Value) → Bool
  | [] => true
  | (_, value) :: fields => value.distinct && distinctFields fields

end

mutual

/-- No instant or duration of the value has a part below the microsecond. -/
def Value.wholeMicros : Value → Bool
  | .datetime value => value.nano = 0
  | .duration value => value.nanos = 0
  | .list items => wholeItems items
  | .tuple items => wholeItems items
  | .struct fields => wholeFields fields
  | _ => true

def wholeItems : List Value → Bool
  | [] => true
  | item :: items => item.wholeMicros && wholeItems items

def wholeFields : List (String × Value) → Bool
  | [] => true
  | (_, value) :: fields => value.wholeMicros && wholeFields fields

end

theorem Duration.ofParts_self {duration : Duration} (whole : duration.nanos = 0) :
    Duration.ofParts duration.days duration.seconds duration.micros = some duration := by
  obtain ⟨days, seconds, micros, nanos, valid⟩ := duration
  obtain rfl : nanos = 0 := whole
  have quotient : ((days * 86400 + seconds) * 10 ^ 6 + micros) / (86400 * 10 ^ 6) = days := by omega
  have second : (((days * 86400 + seconds) * 10 ^ 6 + micros) / 10 ^ 6 % 86400).toNat = seconds := by
    omega
  have micro : (((days * 86400 + seconds) * 10 ^ 6 + micros) % 10 ^ 6).toNat = micros := by omega
  simp only [Duration.ofParts, quotient, second, micro, dif_pos valid.1]

theorem structOf_distinct {fields : List (String × Value)}
    (distinct : (fields.map Prod.fst).Nodup) : structOf fields = .struct fields := by
  have entries : ((Dict.empty : Dict String Value).sets fields).entries = fields :=
    Dict.entries_sets distinct
  rw [structOf, entries]

theorem decode_tagged (tag : Tag) (body : Json) :
    decode (tagged tag body) = decodeTagged (some tag) body := by
  rw [tagged, decode, Vocabulary.ofWord_word]

mutual

theorem decode_encode : ∀ value : Value, value.distinct → value.wholeMicros →
    decode (encode value) = some value
  | .null, _, _ => by simp [encode, decode, plain]
  | .bool _, _, _ => by simp [encode, decode, plain]
  | .int _, _, _ => by simp [encode, decode, plain]
  | .float _, _, _ => by simp [encode, decode, plain]
  | .text _, _, _ => by simp [encode, decode, plain]
  | .bytes value, _, _ => by
      simp [encode, decode_tagged, decodeTagged, chars, fromHex_hexText]
  | .decimal value, _, _ => by
      simp [encode, decode_tagged, decodeTagged, chars, PyDecimal.ofText_text]
  | .date value, _, _ => by
      simp [encode, decode_tagged, decodeTagged, chars, PyDate.fromisoformat_isoformat]
  | .time value, _, _ => by
      simp [encode, decode_tagged, decodeTagged, chars, PyTime.fromisoformat_isoformat]
  | .datetime value, _, whole => by
      have micros : value.nano = 0 := by simpa [Value.wholeMicros] using whole
      simp [encode, decode_tagged, decodeTagged, chars, PyDatetime.fromisoformat_isoformat micros]
  | .duration value, _, whole => by
      have micros : value.nanos = 0 := by simpa [Value.wholeMicros] using whole
      simp [encode, decode_tagged, decodeTagged, decodeDuration, Duration.ofParts_self micros]
  | .list items, distinct, whole => by
      rw [Value.distinct] at distinct
      rw [Value.wholeMicros] at whole
      simp [encode, decode_tagged, decodeTagged, decodeItems_encodeItems items distinct whole]
  | .tuple items, distinct, whole => by
      rw [Value.distinct] at distinct
      rw [Value.wholeMicros] at whole
      simp [encode, decode_tagged, decodeTagged, decodeItems_encodeItems items distinct whole]
  | .struct fields, distinct, whole => by
      rw [Value.distinct, Bool.and_eq_true] at distinct
      rw [Value.wholeMicros] at whole
      simp [encode, decode_tagged, decodeTagged, decodePairs_encodeFields fields distinct.2 whole,
        structOf_distinct (of_decide_eq_true distinct.1)]

theorem decodeItems_encodeItems : ∀ items : List Value, distinctItems items → wholeItems items →
    decodeItems (encodeItems items) = some items
  | [], _, _ => by simp [encodeItems, decodeItems]
  | item :: items, distinct, whole => by
      rw [distinctItems, Bool.and_eq_true] at distinct
      rw [wholeItems, Bool.and_eq_true] at whole
      simp [encodeItems, decodeItems, decode_encode item distinct.1 whole.1,
        decodeItems_encodeItems items distinct.2 whole.2]

theorem decodePairs_encodeFields : ∀ fields : List (String × Value),
    distinctFields fields → wholeFields fields →
      decodePairs (encodeFields fields) = some fields
  | [], _, _ => by simp [encodeFields, decodePairs]
  | (name, value) :: fields, distinct, whole => by
      rw [distinctFields, Bool.and_eq_true] at distinct
      rw [wholeFields, Bool.and_eq_true] at whole
      simp [encodeFields, decodePairs, decode_encode value distinct.1 whole.1,
        decodePairs_encodeFields fields distinct.2 whole.2]

end

/-- A cell: a value whose dicts hold each name once. -/
structure Cell where
  value : Value
  distinct : value.distinct = true

end DecoyEngine.DeclaredCasting.Quarantine
