import Mathlib.Algebra.Ring.Nat
import Mathlib.Data.Nat.Basic

namespace DecoyEngine.Data

/-! Calendar dates from 0001-01-01 to 9999-12-31 and their ordinals, as `datetime.date` has them:
day 1 is 0001-01-01, a Monday. -/

namespace Gregorian

def isLeap (year : Nat) : Bool := year % 4 == 0 && (year % 100 != 0 || year % 400 == 0)

def monthLength (leap : Bool) (month : Nat) : Nat :=
  if month = 2 then if leap then 29 else 28
  else if month = 4 ∨ month = 6 ∨ month = 9 ∨ month = 11 then 30
  else 31

def daysInMonth (year month : Nat) : Nat := monthLength (isLeap year) month

def yearLength (year : Nat) : Nat := if isLeap year then 366 else 365

def daysBeforeYear (year : Nat) : Nat :=
  let y := year - 1
  y * 365 + y / 4 - y / 100 + y / 400

def daysBefore (leap : Bool) (month : Nat) : Nat :=
  ((List.range' 1 (month - 1)).map (monthLength leap)).sum

def daysBeforeMonth (year month : Nat) : Nat := daysBefore (isLeap year) month

def maxYear : Nat := 9999

def maxOrdinal : Nat := 3652059

/-- The year of a day counted from 0, and the day in it. -/
def splitYear (n : Nat) : Nat × Nat :=
  let n400 := n / 146097
  let n100 := n % 146097 / 36524
  let n4 := n % 146097 % 36524 / 1461
  let n1 := n % 146097 % 36524 % 1461 / 365
  let year := n400 * 400 + n100 * 100 + n4 * 4 + n1 + 1
  -- the last day of a cycle falls past its last whole year
  if n1 = 4 ∨ n100 = 4 then (year - 1, 365) else (year, n % 146097 % 36524 % 1461 % 365)

/-- The month of a day of the year, and the day in it; the estimate can be one month too far. -/
def splitMonth (leap : Bool) (n : Nat) : Nat × Nat :=
  let month := (n + 50) / 32
  if n < daysBefore leap month then (month - 1, n - daysBefore leap (month - 1) + 1)
  else (month, n - daysBefore leap month + 1)

theorem isLeap_iff {year : Nat} :
    isLeap year = true ↔ year % 4 = 0 ∧ (year % 100 ≠ 0 ∨ year % 400 = 0) := by
  simp [isLeap]

theorem daysBeforeYear_cycles (n400 : Nat) {n100 n4 n1 : Nat} (centuries : n100 ≤ 3) (fours : n4 ≤ 24)
    (ones : n1 ≤ 3) : daysBeforeYear (n400 * 400 + n100 * 100 + n4 * 4 + n1 + 1) =
      n400 * 146097 + n100 * 36524 + n4 * 1461 + n1 * 365 := by
  have by4 : (n400 * 400 + n100 * 100 + n4 * 4 + n1) / 4 = n400 * 100 + n100 * 25 + n4 := by omega
  have by100 : (n400 * 400 + n100 * 100 + n4 * 4 + n1) / 100 = n400 * 4 + n100 := by omega
  have by400 : (n400 * 400 + n100 * 100 + n4 * 4 + n1) / 400 = n400 := by omega
  rw [daysBeforeYear, Nat.add_sub_cancel, by4, by100, by400]
  omega

theorem splitYear_spec (n : Nat) :
    1 ≤ (splitYear n).1 ∧ daysBeforeYear (splitYear n).1 + (splitYear n).2 = n ∧
      (splitYear n).2 < yearLength (splitYear n).1 := by
  have large : n = n / 146097 * 146097 + n % 146097 := (Nat.div_add_mod' n _).symm
  have bound : n % 146097 < 146097 := Nat.mod_lt _ (by omega)
  rw [splitYear]
  generalize n / 146097 = n400 at large ⊢
  generalize n % 146097 = rest at large bound ⊢
  have century : rest = rest / 36524 * 36524 + rest % 36524 := (Nat.div_add_mod' rest _).symm
  have bound100 : rest % 36524 < 36524 := Nat.mod_lt _ (by omega)
  generalize rest / 36524 = n100 at century ⊢
  generalize rest % 36524 = rest100 at century bound100 ⊢
  have four : rest100 = rest100 / 1461 * 1461 + rest100 % 1461 :=
    (Nat.div_add_mod' rest100 _).symm
  have bound4 : rest100 % 1461 < 1461 := Nat.mod_lt _ (by omega)
  generalize rest100 / 1461 = n4 at four ⊢
  generalize rest100 % 1461 = rest4 at four bound4 ⊢
  have one : rest4 = rest4 / 365 * 365 + rest4 % 365 := (Nat.div_add_mod' rest4 _).symm
  have bound1 : rest4 % 365 < 365 := Nat.mod_lt _ (by omega)
  generalize rest4 / 365 = n1 at one ⊢
  generalize rest4 % 365 = rest1 at one bound1 ⊢
  have fours : n4 ≤ 24 := by omega
  split
  · next last =>
      rcases last with inFour | inCycle
      · -- 31 December of a leap year that ends four years
        subst inFour
        have centuries : n100 ≤ 3 := by omega
        have cycles := daysBeforeYear_cycles n400 centuries fours (Nat.le_refl 3)
        have leapYear : isLeap (n400 * 400 + n100 * 100 + n4 * 4 + 3 + 1) = true := by
          rw [isLeap_iff]
          omega
        simp only [Nat.add_sub_cancel, yearLength, leapYear, if_true]
        refine ⟨by omega, ?_, by omega⟩
        rw [show n400 * 400 + n100 * 100 + n4 * 4 + 4 = n400 * 400 + n100 * 100 + n4 * 4 + 3 + 1
          from rfl, cycles]
        omega
      · -- 31 December of the year that ends 400 years
        subst inCycle
        have whole : n4 = 0 ∧ n1 = 0 ∧ rest1 = 0 := by omega
        obtain ⟨rfl, rfl, rfl⟩ := whole
        have cycles := daysBeforeYear_cycles n400 (Nat.le_refl 3) (Nat.le_refl 24)
          (Nat.le_refl 3)
        have year : n400 * 400 + 4 * 100 + 0 * 4 + 0 + 1 - 1 =
            n400 * 400 + 3 * 100 + 24 * 4 + 3 + 1 := by omega
        have leapYear : isLeap (n400 * 400 + 3 * 100 + 24 * 4 + 3 + 1) = true := by
          rw [isLeap_iff]
          omega
        simp only [year, yearLength, leapYear, if_true, cycles]
        omega
  · next inner =>
      have centuries : n100 ≤ 3 := by omega
      have ones : n1 ≤ 3 := by omega
      rw [daysBeforeYear_cycles n400 centuries fours ones]
      refine ⟨by omega, by omega, ?_⟩
      rw [yearLength]
      split <;> omega

theorem splitMonth_spec : ∀ leap : Bool, ∀ n < if leap then 366 else 365,
    1 ≤ (splitMonth leap n).1 ∧ (splitMonth leap n).1 ≤ 12 ∧ 1 ≤ (splitMonth leap n).2 ∧
      (splitMonth leap n).2 ≤ monthLength leap (splitMonth leap n).1 ∧
      daysBefore leap (splitMonth leap n).1 + (splitMonth leap n).2 = n + 1 := by
  decide +kernel

theorem splitMonth_eq : ∀ leap : Bool, ∀ month ∈ List.range' 1 12,
    ∀ day ∈ List.range' 1 (monthLength leap month),
      splitMonth leap (daysBefore leap month + day - 1) = (month, day) ∧
        daysBefore leap month + day ≤ if leap then 366 else 365 := by
  decide +kernel

theorem daysBefore_succ (leap : Bool) {month : Nat} (positive : 1 ≤ month) :
    daysBefore leap (month + 1) = daysBefore leap month + monthLength leap month := by
  obtain ⟨m, rfl⟩ := Nat.exists_eq_add_of_le' positive
  rw [daysBefore, Nat.add_sub_cancel, List.range'_concat, List.map_append, List.sum_append,
    daysBefore, Nat.add_sub_cancel, Nat.one_mul, Nat.add_comm 1 m, List.map_singleton,
    List.sum_singleton]

theorem daysBefore_mono (leap : Bool) {first second : Nat} (positive : 1 ≤ first)
    (ordered : first ≤ second) : daysBefore leap first ≤ daysBefore leap second := by
  induction ordered with
  | refl => exact Nat.le_refl _
  | step before ih =>
      rw [daysBefore_succ leap (Nat.le_trans positive before)]
      exact Nat.le_add_right_of_le ih

theorem daysBeforeYear_succ {year : Nat} (positive : 1 ≤ year) :
    daysBeforeYear (year + 1) = daysBeforeYear year + yearLength year := by
  obtain ⟨y, rfl⟩ := Nat.exists_eq_add_of_le' positive
  have fewer : y / 100 ≤ y / 4 := Nat.div_le_div_left (by omega) (by omega)
  simp only [daysBeforeYear, Nat.add_sub_cancel, yearLength, isLeap_iff, Nat.succ_div,
    Nat.dvd_iff_mod_eq_zero]
  split_ifs <;> omega

theorem daysBeforeYear_mono {first second : Nat} (ordered : first ≤ second) :
    daysBeforeYear first ≤ daysBeforeYear second := by
  induction ordered with
  | refl => exact Nat.le_refl _
  | step before ih =>
      rename_i year
      cases Nat.eq_zero_or_pos year with
      | inl zero =>
          subst zero
          exact ih
      | inr positive =>
          rw [daysBeforeYear_succ positive]
          exact Nat.le_add_right_of_le ih

theorem daysBeforeMonth_le (year : Nat) {month : Nat} (inside : month ≤ 12) :
    daysBeforeMonth year (month + 1) ≤ yearLength year := by
  have december : daysBefore (isLeap year) 13 = yearLength year := by
    rw [yearLength]
    cases isLeap year <;> rfl
  exact Nat.le_trans (daysBefore_mono _ (by omega) (by omega)) (Nat.le_of_eq december)

theorem daysBeforeYear_le {year : Nat} (inside : year ≤ maxYear) :
    daysBeforeYear (year + 1) ≤ maxOrdinal := daysBeforeYear_mono (Nat.succ_le_succ inside)

theorem splitYear_le {n : Nat} (within : n < maxOrdinal) : (splitYear n).1 ≤ maxYear := by
  by_contra late
  have beyond : daysBeforeYear 10000 ≤ daysBeforeYear (splitYear n).1 :=
    daysBeforeYear_mono (Nat.lt_of_not_le late)
  have top : daysBeforeYear 10000 = maxOrdinal := rfl
  have whole := (splitYear_spec n).2.1
  omega

end Gregorian

open Gregorian

/-- `datetime.date` -/
structure Date where
  year : Nat
  month : Nat
  day : Nat
  yearBounds : 1 ≤ year ∧ year ≤ maxYear
  monthBounds : 1 ≤ month ∧ month ≤ 12
  dayBounds : 1 ≤ day ∧ day ≤ daysInMonth year month
deriving Repr, DecidableEq

namespace Date

def toordinal (date : Date) : Nat :=
  daysBeforeYear date.year + daysBeforeMonth date.year date.month + date.day

theorem splitMonth_date (date : Date) :
    splitMonth (isLeap date.year) (daysBeforeMonth date.year date.month + date.day - 1) =
      (date.month, date.day) ∧
    daysBeforeMonth date.year date.month + date.day ≤ yearLength date.year := by
  have months := date.monthBounds
  have days := date.dayBounds
  have inYear : date.month ∈ List.range' 1 12 := List.mem_range'_1.mpr (by omega)
  have inMonth : date.day ∈ List.range' 1 (monthLength (isLeap date.year) date.month) := by
    rw [daysInMonth] at days
    exact List.mem_range'_1.mpr (by omega)
  exact splitMonth_eq (isLeap date.year) date.month inYear date.day inMonth

theorem dayOfYear_bounds (date : Date) :
    1 ≤ daysBeforeMonth date.year date.month + date.day ∧
      daysBeforeMonth date.year date.month + date.day ≤ yearLength date.year := by
  have first := date.dayBounds.1
  exact ⟨by omega, date.splitMonth_date.2⟩

theorem toordinal_pos (date : Date) : 1 ≤ date.toordinal := by
  have first := date.dayOfYear_bounds.1
  rw [toordinal]
  omega

theorem toordinal_bounds (date : Date) :
    daysBeforeYear date.year < date.toordinal ∧
      date.toordinal ≤ daysBeforeYear (date.year + 1) := by
  obtain ⟨first, last⟩ := date.dayOfYear_bounds
  rw [daysBeforeYear_succ date.yearBounds.1, toordinal]
  omega

theorem toordinal_le (date : Date) : date.toordinal ≤ maxOrdinal :=
  Nat.le_trans date.toordinal_bounds.2 (daysBeforeYear_le date.yearBounds.2)

theorem year_le_of_toordinal_le {first second : Date}
    (ordered : first.toordinal ≤ second.toordinal) : first.year ≤ second.year := by
  by_contra later
  have before : daysBeforeYear (second.year + 1) ≤ daysBeforeYear first.year :=
    daysBeforeYear_mono (by omega)
  have low := first.toordinal_bounds.1
  have high := second.toordinal_bounds.2
  omega

theorem ext_ymd {first second : Date} (year : first.year = second.year)
    (month : first.month = second.month) (day : first.day = second.day) : first = second := by
  cases first
  cases second
  simp only at year month day
  subst year month day
  rfl

theorem toordinal_injective {first second : Date} (same : first.toordinal = second.toordinal) :
    first = second := by
  have year : first.year = second.year := Nat.le_antisymm
    (year_le_of_toordinal_le (Nat.le_of_eq same)) (year_le_of_toordinal_le (Nat.le_of_eq same.symm))
  have split := first.splitMonth_date.1
  have other := second.splitMonth_date.1
  rw [toordinal, toordinal, year] at same
  rw [year] at split
  have days : daysBeforeMonth second.year first.month + first.day =
      daysBeforeMonth second.year second.month + second.day := by omega
  rw [days, other, Prod.mk.injEq] at split
  exact ext_ymd year split.1.symm split.2.symm

theorem inMonths_iff (date : Date) {year first last : Nat} (yearPositive : 1 ≤ year)
    (positive : 1 ≤ first) (inside : last ≤ 12) :
    (date.year = year ∧ first ≤ date.month ∧ date.month ≤ last) ↔
      daysBeforeYear year + daysBeforeMonth year first < date.toordinal ∧
        date.toordinal ≤ daysBeforeYear year + daysBeforeMonth year (last + 1) := by
  have within := date.dayOfYear_bounds
  have days := date.dayBounds
  have months := date.monthBounds
  have ends := daysBefore_succ (isLeap date.year) months.1
  have whole := daysBeforeMonth_le year inside
  rw [daysInMonth] at days
  rw [daysBeforeMonth] at within
  constructor
  · rintro ⟨rfl, after, before⟩
    have low : daysBefore (isLeap date.year) first ≤ daysBefore (isLeap date.year) date.month :=
      daysBefore_mono _ positive after
    have high : daysBefore (isLeap date.year) (date.month + 1) ≤
        daysBefore (isLeap date.year) (last + 1) := daysBefore_mono _ (by omega) (by omega)
    rw [toordinal, daysBeforeMonth, daysBeforeMonth, daysBeforeMonth]
    omega
  · rintro ⟨after, before⟩
    have bounds := date.toordinal_bounds
    have next := daysBeforeYear_succ yearPositive
    have sameYear : date.year = year := by
      by_contra different
      rcases Nat.lt_or_gt_of_ne different with earlier | later
      · have years : daysBeforeYear (date.year + 1) ≤ daysBeforeYear year :=
          daysBeforeYear_mono earlier
        omega
      · have years : daysBeforeYear (year + 1) ≤ daysBeforeYear date.year :=
          daysBeforeYear_mono later
        omega
    subst sameYear
    simp only [toordinal, daysBeforeMonth] at after before
    refine ⟨rfl, ?_, ?_⟩
    · by_contra early
      have low : daysBefore (isLeap date.year) (date.month + 1) ≤
          daysBefore (isLeap date.year) first := daysBefore_mono _ (by omega) (by omega)
      omega
    · by_contra late
      have high : daysBefore (isLeap date.year) (last + 1) ≤
          daysBefore (isLeap date.year) date.month := daysBefore_mono _ (by omega) (by omega)
      omega

/-- `date.fromordinal`; `none` is the `ValueError` outside `1 ≤ n ≤ maxOrdinal`. -/
def fromordinal (n : Int) : Option Date :=
  if inside : 1 ≤ n ∧ n ≤ maxOrdinal then
    let split := splitYear (n.toNat - 1)
    let monthDay := splitMonth (isLeap split.1) split.2
    have year := splitYear_spec (n.toNat - 1)
    have month := splitMonth_spec (isLeap split.1) split.2 year.2.2
    some {
      year := split.1
      month := monthDay.1
      day := monthDay.2
      yearBounds := ⟨year.1, splitYear_le (by omega)⟩
      monthBounds := ⟨month.1, month.2.1⟩
      dayBounds := ⟨month.2.2.1, month.2.2.2.1⟩ }
  else none

theorem fromordinal_of_bounds {n : Nat} (positive : 1 ≤ n) (within : n ≤ maxOrdinal) :
    ∃ date, fromordinal n = some date ∧ date.toordinal = n := by
  have inside : (1 : Int) ≤ n ∧ (n : Int) ≤ maxOrdinal := by omega
  refine ⟨_, by rw [fromordinal, dif_pos inside], ?_⟩
  have year := splitYear_spec (n - 1)
  have month := splitMonth_spec (isLeap (splitYear (n - 1)).1) (splitYear (n - 1)).2 year.2.2
  simp only [toordinal, daysBeforeMonth, Int.toNat_natCast]
  omega

theorem fromordinal_toordinal (date : Date) : fromordinal date.toordinal = some date := by
  obtain ⟨found, given, same⟩ := fromordinal_of_bounds date.toordinal_pos date.toordinal_le
  rw [given, toordinal_injective same]

theorem fromordinal_eq_some {n : Int} {date : Date} :
    fromordinal n = some date ↔ n = date.toordinal := by
  constructor
  · intro given
    by_cases inside : 1 ≤ n ∧ n ≤ maxOrdinal
    · obtain ⟨m, rfl⟩ := Int.eq_ofNat_of_zero_le (show 0 ≤ n by omega)
      obtain ⟨found, same, ordinal⟩ := fromordinal_of_bounds (n := m) (by omega) (by omega)
      rw [same] at given
      cases given
      rw [ordinal]
    · rw [fromordinal, dif_neg inside] at given
      cases given
  · rintro rfl
    exact fromordinal_toordinal date

/-- `weekday()`: Monday is 0. -/
def weekday (date : Date) : Nat := (date.toordinal + 6) % 7

/-- `date + timedelta(days=…)`; `none` is the `OverflowError`. -/
def addDays (date : Date) (days : Int) : Option Date := fromordinal (date.toordinal + days)

/-- `isocalendar`: the year and the number of the week, both those of its Thursday. -/
def isoWeek (date : Date) : Nat × Nat :=
  let thursday := date.toordinal - date.weekday + 3
  let year := (splitYear (thursday - 1)).1
  (year, (thursday - 1 - daysBeforeYear year) / 7 + 1)

theorem isoWeek_eq_iff {first second : Date} :
    first.isoWeek = second.isoWeek ↔
      first.toordinal - first.weekday = second.toordinal - second.weekday := by
  constructor
  · intro same
    obtain ⟨year, number⟩ := Prod.mk.inj same
    have firstYear := splitYear_spec (first.toordinal - first.weekday + 3 - 1)
    have secondYear := splitYear_spec (second.toordinal - second.weekday + 3 - 1)
    rw [← year] at secondYear number
    generalize daysBeforeYear _ = start at firstYear secondYear number
    have low := first.toordinal_pos
    have high := second.toordinal_pos
    simp only [weekday] at firstYear secondYear number ⊢
    omega
  · intro same
    simp only [isoWeek, same]

end Date

end DecoyEngine.Data
