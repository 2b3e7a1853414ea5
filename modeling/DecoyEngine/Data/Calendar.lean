import DecoyEngine.Data.DecimalText

namespace DecoyEngine.Data

/-! The proleptic Gregorian calendar and the ISO 8601 text of its instants. -/

structure Civil where
  year : Int
  month : Nat
  day : Nat
deriving Repr, DecidableEq

/-- The date of a day counted from 1970-01-01.  Eras of 400 years start on 1 March, so that a
leap day ends its year. -/
def civilOfDays (days : Int) : Civil :=
  let shifted := days + 719468
  let era := shifted / 146097
  let dayOfEra := (shifted % 146097).toNat
  let yearOfEra := (dayOfEra - dayOfEra / 1460 + dayOfEra / 36524 - dayOfEra / 146096) / 365
  let dayOfYear := dayOfEra - (365 * yearOfEra + yearOfEra / 4 - yearOfEra / 100)
  let shiftedMonth := (5 * dayOfYear + 2) / 153
  let month := if shiftedMonth < 10 then shiftedMonth + 3 else shiftedMonth - 9
  { year := era * 400 + yearOfEra + (if month ≤ 2 then 1 else 0)
    month
    day := dayOfYear - (153 * shiftedMonth + 2) / 5 + 1 }

example : (civilOfDays 0, civilOfDays (-1), civilOfDays 11016) =
    (⟨1970, 1, 1⟩, ⟨1969, 12, 31⟩, ⟨2000, 2, 29⟩) := by decide

/-- `%0*d` of a count: at least `width` digits. -/
def zeroPadded (width value : Nat) : List Char :=
  if value < 10 ^ width then (fixedDigits 10 width value).reverse.map digitChar
  else natText value

/-- The same of an integer; the sign takes a place. -/
def signedPadded (width : Nat) : Int → List Char
  | .ofNat value => zeroPadded width value
  | .negSucc value => '-' :: zeroPadded (width - 1) (value + 1)

def Civil.isoText (date : Civil) : List Char :=
  signedPadded 4 date.year ++ '-' :: zeroPadded 2 date.month ++ '-' :: zeroPadded 2 date.day

theorem zeroPadded_split {high low : Nat} (highSmall : high < 10 ^ 6) (lowSmall : low < 10 ^ 3) :
    zeroPadded 9 (high * 1000 + low) = zeroPadded 6 high ++ zeroPadded 3 low := by
  have digits : fixedDigits 10 9 (high * 1000 + low) =
      fixedDigits 10 3 low ++ fixedDigits 10 6 high := by
    simp only [fixedDigits, List.cons_append, List.nil_append, List.cons.injEq, and_true]
    omega
  rw [zeroPadded, zeroPadded, zeroPadded, if_pos (by omega), if_pos highSmall, if_pos lowSmall,
    digits, List.reverse_append, List.map_append]

end DecoyEngine.Data
