import DecoyEngine.Data.Calendar

namespace DecoyEngine.Data

/-! Dates, times of day and instants as Python's `datetime` prints and reads them.

The readers take the extended forms with full precision to the second: `YYYY-MM-DD`,
`HH:MM:SS[.f...]`, and both joined by one character, with an optional UTC offset. -/

def isLeap (year : Nat) : Bool :=
  year % 4 = 0 && (year % 100 ≠ 0 || year % 400 = 0)

def daysInMonth (year month : Nat) : Nat :=
  if month = 2 then (if isLeap year then 29 else 28)
  else if month ∈ [4, 6, 9, 11] then 30 else 31

structure PyDate where
  year : Nat
  month : Nat
  day : Nat
  valid : (1 ≤ year ∧ year ≤ 9999) ∧ (1 ≤ month ∧ month ≤ 12) ∧ 1 ≤ day ∧ day ≤ daysInMonth year month
deriving DecidableEq

structure PyTime where
  hour : Nat
  minute : Nat
  second : Nat
  micro : Nat
  valid : hour < 24 ∧ minute < 60 ∧ second < 60 ∧ micro < 10 ^ 6
deriving DecidableEq

/-- An offset from UTC in whole seconds. -/
structure PyOffset where
  seconds : Int
  valid : -86400 < seconds ∧ seconds < 86400
deriving DecidableEq

/-- An instant; `nano` counts what a pandas `Timestamp` holds below the microsecond. -/
structure PyDatetime where
  date : PyDate
  time : PyTime
  nano : Nat
  offset : Option PyOffset
  valid : nano < 1000
deriving DecidableEq

def PyDate.isoformat (date : PyDate) : List Char :=
  zeroPadded 4 date.year ++ '-' :: zeroPadded 2 date.month ++ '-' :: zeroPadded 2 date.day

def clockText (time : PyTime) : List Char :=
  zeroPadded 2 time.hour ++ ':' :: zeroPadded 2 time.minute ++ ':' :: zeroPadded 2 time.second

def fractionText (micro nano : Nat) : List Char :=
  if nano ≠ 0 then '.' :: zeroPadded 9 (micro * 1000 + nano)
  else if micro ≠ 0 then '.' :: zeroPadded 6 micro
  else []

def offsetClockText (total : Nat) : List Char :=
  zeroPadded 2 (total / 3600) ++ ':' :: (zeroPadded 2 (total / 60 % 60)
    ++ if total % 60 ≠ 0 then ':' :: zeroPadded 2 (total % 60) else [])

def offsetText : Option PyOffset → List Char
  | none => []
  | some offset =>
      (if offset.seconds < 0 then '-' else '+') :: offsetClockText offset.seconds.natAbs

def PyTime.isoformat (time : PyTime) : List Char :=
  clockText time ++ fractionText time.micro 0

/-- The longer fraction is the one `pandas.Timestamp` adds. -/
def PyDatetime.isoformat (datetime : PyDatetime) : List Char :=
  datetime.date.isoformat ++ 'T' :: (clockText datetime.time
    ++ fractionText datetime.time.micro datetime.nano ++ offsetText datetime.offset)

/-- A run of exactly `count` digits. -/
def readDigits (count : Nat) (chars : List Char) : Option (Nat × List Char) :=
  let digits := chars.take count
  if digits.length = count ∧ ∀ ch ∈ digits, ch ∈ asciiDigits then
    some (textNat digits, chars.drop count)
  else none

def readChar (expected : Char) : List Char → Option (List Char)
  | [] => none
  | ch :: rest => if ch = expected then some rest else none

def readDate (chars : List Char) : Option (PyDate × List Char) := do
  let (year, rest) ← readDigits 4 chars
  let (month, rest) ← readDigits 2 (← readChar '-' rest)
  let (day, rest) ← readDigits 2 (← readChar '-' rest)
  if valid : (1 ≤ year ∧ year ≤ 9999) ∧ (1 ≤ month ∧ month ≤ 12) ∧
      1 ≤ day ∧ day ≤ daysInMonth year month then
    some (⟨year, month, day, valid⟩, rest)
  else none

/-- The digits after the point, cut or filled up to six. -/
def readFraction : List Char → Option (Nat × List Char)
  | '.' :: rest =>
      let digits := rest.takeWhile (· ∈ asciiDigits)
      if digits = [] then none
      else some (textNat ((digits ++ List.replicate 6 '0').take 6), rest.drop digits.length)
  | chars => some (0, chars)

def readTime (chars : List Char) : Option (PyTime × List Char) := do
  let (hour, rest) ← readDigits 2 chars
  let (minute, rest) ← readDigits 2 (← readChar ':' rest)
  let (second, rest) ← readDigits 2 (← readChar ':' rest)
  let (micro, rest) ← readFraction rest
  if valid : hour < 24 ∧ minute < 60 ∧ second < 60 ∧ micro < 10 ^ 6 then
    some (⟨hour, minute, second, micro, valid⟩, rest)
  else none

/-- What is left of an offset after its minutes. -/
def readOffsetSeconds : List Char → Option Nat
  | [] => some 0
  | ':' :: rest => do
      let (seconds, rest) ← readDigits 2 rest
      if rest = [] ∧ seconds < 60 then some seconds else none
  | _ => none

/-- Hours, minutes and perhaps seconds, as a number of seconds. -/
def readOffsetClock (chars : List Char) : Option Nat := do
  let (hours, rest) ← readDigits 2 chars
  let (minutes, rest) ← readDigits 2 (← readChar ':' rest)
  let seconds ← readOffsetSeconds rest
  some (hours * 3600 + minutes * 60 + seconds)

def offsetOf (total : Int) : Option PyOffset :=
  if valid : -86400 < total ∧ total < 86400 then some ⟨total, valid⟩ else none

def readOffset : List Char → Option (Option PyOffset)
  | [] => some none
  | sign :: rest =>
      match readOffsetClock rest with
      | none => none
      | some total =>
          if sign = '+' then (offsetOf total).map some
          else if sign = '-' then (offsetOf (-total)).map some
          else none

def PyDate.fromisoformat (text : List Char) : Option PyDate := do
  let (date, rest) ← readDate text
  if rest = [] then some date else none

def PyTime.fromisoformat (text : List Char) : Option PyTime := do
  let (time, rest) ← readTime text
  if rest = [] then some time else none

def PyDatetime.fromisoformat (text : List Char) : Option PyDatetime := do
  let (date, rest) ← readDate text
  match rest with
  | [] => none
  | _ :: rest => do
      let (time, rest) ← readTime rest
      let offset ← readOffset rest
      some ⟨date, time, 0, offset, by decide⟩

section RoundTrip

variable {width value : Nat}

theorem zeroPadded_of_lt (fits : value < 10 ^ width) :
    (zeroPadded width value).length = width ∧ (∀ ch ∈ zeroPadded width value, ch ∈ asciiDigits) ∧
      textNat (zeroPadded width value) = value := by
  have small : ∀ digit ∈ (fixedDigits 10 width value).reverse, digit < 10 := by
    intro digit member
    exact fixedDigits_lt (by decide) width value digit (List.mem_reverse.mp member)
  rw [zeroPadded, if_pos fits]
  refine ⟨by simp, ?_, ?_⟩
  · intro ch member
    obtain ⟨digit, inside, rfl⟩ := List.mem_map.mp member
    exact digitChar_mem (small digit inside)
  · rw [textNat_digits small, List.reverse_reverse, ofDigits_fixedDigits_of_lt fits]

@[simp] theorem readDigits_zeroPadded (fits : value < 10 ^ width) (rest : List Char) :
    readDigits width (zeroPadded width value ++ rest) = some (value, rest) := by
  obtain ⟨length, digits, number⟩ := zeroPadded_of_lt fits
  have front : (zeroPadded width value ++ rest).take width = zeroPadded width value :=
    List.take_left' length
  have back : (zeroPadded width value ++ rest).drop width = rest := List.drop_left' length
  rw [readDigits, front, back, if_pos ⟨length, digits⟩, number]

@[simp] theorem readChar_self (ch : Char) (rest : List Char) : readChar ch (ch :: rest) = some rest :=
  if_pos rfl

theorem day_le (year month : Nat) : daysInMonth year month ≤ 31 := by
  unfold daysInMonth
  split_ifs <;> omega

theorem readDate_isoformat (date : PyDate) (rest : List Char) :
    readDate (date.isoformat ++ rest) = some (date, rest) := by
  obtain ⟨year, month, day, valid⟩ := date
  have days := day_le year month
  have yearFits : year < 10000 := by omega
  have monthFits : month < 100 := by omega
  have dayFits : day < 100 := by omega
  simp [readDate, PyDate.isoformat, yearFits, monthFits, dayFits, valid]

/-- What may follow a fraction: the end, or a sign. -/
def Ended (rest : List Char) : Prop := ∀ ch ∈ rest.head?, ch ∉ asciiDigits ∧ ch ≠ '.'

theorem ended_nil : Ended [] := nofun

theorem takeWhile_digits {digits rest : List Char} (inside : ∀ ch ∈ digits, ch ∈ asciiDigits)
    (ended : Ended rest) : (digits ++ rest).takeWhile (· ∈ asciiDigits) = digits := by
  have stops : rest.takeWhile (· ∈ asciiDigits) = [] := by
    cases rest with
    | nil => rfl
    | cons ch rest => simp [(ended ch rfl).1]
  rw [List.takeWhile_append_of_pos (by simpa using inside), stops, List.append_nil]

theorem readFraction_fractionText {micro : Nat} (fits : micro < 10 ^ 6) {rest : List Char}
    (ended : Ended rest) : readFraction (fractionText micro 0 ++ rest) = some (micro, rest) := by
  rw [fractionText, if_neg (not_not.mpr rfl)]
  split
  · obtain ⟨length, digits, number⟩ := zeroPadded_of_lt fits
    have nonempty : zeroPadded 6 micro ≠ [] := fun empty => by simp [empty] at length
    have six : (zeroPadded 6 micro ++ List.replicate 6 '0').take 6 = zeroPadded 6 micro :=
      List.take_left' length
    rw [List.cons_append, readFraction, takeWhile_digits digits ended]
    simp only [if_neg nonempty, six, number, List.drop_left]
  · rename_i zero
    rw [not_not] at zero
    cases rest with
    | nil => simp [readFraction, zero]
    | cons ch rest =>
        have notPoint := (ended ch rfl).2
        simp [readFraction, zero, notPoint]

theorem readTime_isoformat (time : PyTime) {rest : List Char} (ended : Ended rest) :
    readTime (time.isoformat ++ rest) = some (time, rest) := by
  obtain ⟨hour, minute, second, micro, valid⟩ := time
  have hourFits : hour < 100 := by omega
  have minuteFits : minute < 100 := by omega
  have secondFits : second < 100 := by omega
  have microFits : micro < 10 ^ 6 := by omega
  simp [readTime, PyTime.isoformat, clockText, hourFits, minuteFits, secondFits,
    readFraction_fractionText microFits ended]
  exact valid

theorem ended_offsetText (offset : Option PyOffset) : Ended (offsetText offset) := by
  cases offset with
  | none => exact ended_nil
  | some offset =>
      intro ch head
      simp only [offsetText, List.head?_cons, Option.mem_def, Option.some.injEq] at head
      subst head
      split <;> decide

theorem readOffsetSeconds_text {total : Nat} :
    readOffsetSeconds (if total % 60 ≠ 0 then ':' :: zeroPadded 2 (total % 60) else [])
      = some (total % 60) := by
  split
  · have fits : total % 60 < 10 ^ 2 := by omega
    have read := readDigits_zeroPadded fits []
    rw [List.append_nil] at read
    have small : total % 60 < 60 := Nat.mod_lt _ (by decide)
    simp [readOffsetSeconds, read, small]
  · rename_i zero
    rw [not_not] at zero
    rw [zero, readOffsetSeconds]

theorem readOffsetClock_text {total : Nat} (day : total < 86400) :
    readOffsetClock (offsetClockText total) = some total := by
  have hourFits : total / 3600 < 10 ^ 2 := by omega
  have minuteFits : total / 60 % 60 < 10 ^ 2 := by omega
  have parts : total / 3600 * 3600 + total / 60 % 60 * 60 + total % 60 = total := by omega
  rw [offsetClockText, readOffsetClock, readDigits_zeroPadded hourFits]
  simp only [Option.bind_eq_bind, Option.bind_some, readChar_self,
    readDigits_zeroPadded minuteFits, readOffsetSeconds_text, parts]

theorem readOffset_offsetText (offset : Option PyOffset) :
    readOffset (offsetText offset) = some offset := by
  cases offset with
  | none => rfl
  | some offset =>
      obtain ⟨seconds, valid⟩ := offset
      have clock : readOffsetClock (offsetClockText seconds.natAbs) = some seconds.natAbs :=
        readOffsetClock_text (by omega)
      have accepted : offsetOf seconds = some ⟨seconds, valid⟩ := dif_pos valid
      rw [offsetText]
      by_cases negative : seconds < 0
      · have value : -(seconds.natAbs : Int) = seconds := by omega
        rw [if_pos negative, readOffset, clock]
        dsimp only
        rw [if_neg (by decide), if_pos rfl, value, accepted, Option.map_some]
      · have value : (seconds.natAbs : Int) = seconds := by omega
        rw [if_neg negative, readOffset, clock]
        dsimp only
        rw [if_pos rfl, value, accepted, Option.map_some]

theorem PyDate.fromisoformat_isoformat (date : PyDate) :
    PyDate.fromisoformat date.isoformat = some date := by
  have read := readDate_isoformat date []
  rw [List.append_nil] at read
  simp [PyDate.fromisoformat, read]

theorem PyTime.fromisoformat_isoformat (time : PyTime) :
    PyTime.fromisoformat time.isoformat = some time := by
  have read := readTime_isoformat time ended_nil
  rw [List.append_nil] at read
  simp [PyTime.fromisoformat, read]

theorem PyDatetime.fromisoformat_isoformat {datetime : PyDatetime} (whole : datetime.nano = 0) :
    PyDatetime.fromisoformat datetime.isoformat = some datetime := by
  obtain ⟨date, time, nano, offset, valid⟩ := datetime
  obtain rfl : nano = 0 := whole
  have clock := readTime_isoformat time (ended_offsetText offset)
  rw [PyTime.isoformat, List.append_assoc] at clock
  simp [PyDatetime.fromisoformat, PyDatetime.isoformat, readDate_isoformat, clock,
    readOffset_offsetText]

end RoundTrip

end DecoyEngine.Data
