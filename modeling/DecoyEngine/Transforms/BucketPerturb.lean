import DecoyEngine.Data.Gregorian
import Mathlib.Data.List.GetD

namespace DecoyEngine.Transforms.BucketPerturb

open DecoyEngine.Data.Gregorian
open DecoyEngine.Data (Date)

/-! Dates moved inside their week, month or quarter (`transforms/bucket_perturb.py`). -/

inductive Bucket where
  | week
  | month
  | quarter
deriving Repr, DecidableEq

/-- `datetime.date(year, month, day)`; `none` is the `ValueError`. -/
def ofYmd (year month day : Nat) : Option Date :=
  if valid : (1 ≤ year ∧ year ≤ maxYear) ∧ (1 ≤ month ∧ month ≤ 12) ∧
      (1 ≤ day ∧ day ≤ daysInMonth year month) then
    some ⟨year, month, day, valid.1, valid.2.1, valid.2.2⟩
  else none

def quarterStartMonth : List Nat := [1, 4, 7, 10]

/-- `_bucket_start_and_size`: the first day of the bucket of a date and the number of its days;
`none` is an exception of the date arithmetic. -/
def bucketStartAndSize (date : Date) : Bucket → Option (Date × Nat)
  | .week => do
      let start ← date.addDays (-date.weekday)
      pure (start, 7)
  | .month => do
      let start ← ofYmd date.year date.month 1
      pure (start, daysInMonth date.year date.month)
  | .quarter => do
      let qStartMonth := quarterStartMonth.getD ((date.month - 1) / 3) 0
      let start ← ofYmd date.year qStartMonth 1
      let endMonth := qStartMonth + 2
      let last ← ofYmd date.year endMonth (daysInMonth date.year endMonth)
      pure (start, last.toordinal - start.toordinal + 1)

/-- `_perturb_date`, given the first eight bytes of the digest. -/
def perturbDate (bucket : Bucket) (date : Date) (hash : UInt64) : Option Date := do
  let (bucketStart, bucketSize) ← bucketStartAndSize date bucket
  let offset := hash.toNat % bucketSize
  bucketStart.addDays offset

/-- Two dates of one ISO week, calendar month or calendar quarter. -/
def SameBucket : Bucket → Date → Date → Prop
  | .week, first, second => first.isoWeek = second.isoWeek
  | .month, first, second => first.year = second.year ∧ first.month = second.month
  | .quarter, first, second =>
      first.year = second.year ∧ (first.month - 1) / 3 = (second.month - 1) / 3

/-- The bucket of a date is the run of `size` days from `start` on. -/
structure BucketAt (bucket : Bucket) (date start : Date) (size : Nat) : Prop where
  positive : 0 < size
  small : size ≤ 93
  /-- Months and quarters end inside the calendar; a week starts on a Monday. -/
  ends : bucket ≠ .week ∧ start.toordinal + size ≤ maxOrdinal + 1 ∨
    bucket = .week ∧ size = 7 ∧ start.toordinal % 7 = 1
  found : bucketStartAndSize date bucket = some (start, size)
  days : ∀ day : Date, SameBucket bucket date day ↔
    start.toordinal ≤ day.toordinal ∧ day.toordinal < start.toordinal + size

section Buckets

variable {bucket : Bucket} {date day start : Date} {size : Nat}

theorem SameBucket.refl (bucket : Bucket) (date : Date) : SameBucket bucket date date := by
  cases bucket
  · rfl
  · exact ⟨rfl, rfl⟩
  · exact ⟨rfl, rfl⟩

theorem ofYmd_eq {year month day : Nat} (yearBounds : 1 ≤ year ∧ year ≤ maxYear)
    (monthBounds : 1 ≤ month ∧ month ≤ 12) (dayBounds : 1 ≤ day ∧ day ≤ daysInMonth year month) :
    ofYmd year month day = some ⟨year, month, day, yearBounds, monthBounds, dayBounds⟩ :=
  dif_pos ⟨yearBounds, monthBounds, dayBounds⟩

theorem daysInMonth_bounds (year month : Nat) :
    28 ≤ daysInMonth year month ∧ daysInMonth year month ≤ 31 := by
  rw [daysInMonth, monthLength]
  split_ifs <;> omega

theorem week_bucket (date : Date) : ∃ start, BucketAt .week date start 7 := by
  have positive := date.toordinal_pos
  have within := date.toordinal_le
  obtain ⟨start, given, ordinal⟩ := Date.fromordinal_of_bounds
    (n := date.toordinal - date.weekday) (by rw [Date.weekday]; omega) (by omega)
  have monday : (date.toordinal : Int) + -date.weekday =
      ((date.toordinal - date.weekday : Nat) : Int) := by
    rw [Date.weekday]
    omega
  refine ⟨start, by omega, by omega, .inr ⟨rfl, rfl, ?_⟩, ?_, fun day => ?_⟩
  · rw [ordinal, Date.weekday]
    omega
  · rw [bucketStartAndSize, Date.addDays, monday, given]
    rfl
  · rw [SameBucket, Date.isoWeek_eq_iff, ordinal]
    have first := day.toordinal_pos
    rw [Date.weekday, Date.weekday]
    omega

theorem month_bucket (date : Date) :
    ∃ start, BucketAt .month date start (daysInMonth date.year date.month) := by
  have bounds := daysInMonth_bounds date.year date.month
  have within := daysBeforeMonth_le date.year date.monthBounds.2
  have nextYear := daysBeforeYear_succ date.yearBounds.1
  have calendar := daysBeforeYear_le date.yearBounds.2
  have next : daysBeforeMonth date.year (date.month + 1) =
      daysBeforeMonth date.year date.month + daysInMonth date.year date.month :=
    daysBefore_succ _ date.monthBounds.1
  have first : 1 ≤ 1 ∧ 1 ≤ daysInMonth date.year date.month := by omega
  refine ⟨⟨date.year, date.month, 1, date.yearBounds, date.monthBounds, first⟩, by omega,
    by omega, .inl ⟨nofun, ?_⟩, ?_, fun day => ?_⟩
  · simp only [Date.toordinal]
    omega
  · rw [bucketStartAndSize, ofYmd_eq date.yearBounds date.monthBounds first]
    rfl
  · have inMonth := day.inMonths_iff date.yearBounds.1 date.monthBounds.1 date.monthBounds.2
    rw [next] at inMonth
    simp only [Date.toordinal, SameBucket]
    simp only [Date.toordinal] at inMonth
    omega

theorem quarter_bucket (date : Date) : ∃ start size, BucketAt .quarter date start size := by
  have months := date.monthBounds
  have years := date.yearBounds
  obtain ⟨q, quarter⟩ : ∃ q, (date.month - 1) / 3 = q := ⟨_, rfl⟩
  have inYear : q < 4 := by omega
  have startMonth : quarterStartMonth.getD q 0 = 3 * q + 1 := by
    match q, inYear with
    | 0, _ | 1, _ | 2, _ | 3, _ => rfl
  have second : daysBeforeMonth date.year (3 * q + 1 + 1) =
      daysBeforeMonth date.year (3 * q + 1) + daysInMonth date.year (3 * q + 1) :=
    daysBefore_succ _ (by omega)
  have third : daysBeforeMonth date.year (3 * q + 1 + 2) =
      daysBeforeMonth date.year (3 * q + 1 + 1) + daysInMonth date.year (3 * q + 1 + 1) :=
    daysBefore_succ _ (by omega)
  have beyond : daysBeforeMonth date.year (3 * q + 1 + 2 + 1) =
      daysBeforeMonth date.year (3 * q + 1 + 2) + daysInMonth date.year (3 * q + 1 + 2) :=
    daysBefore_succ _ (by omega)
  have within := daysBeforeMonth_le date.year (by omega : 3 * q + 1 + 2 ≤ 12)
  have nextYear := daysBeforeYear_succ years.1
  have calendar := daysBeforeYear_le years.2
  have length1 := daysInMonth_bounds date.year (3 * q + 1)
  have length2 := daysInMonth_bounds date.year (3 * q + 1 + 1)
  have length3 := daysInMonth_bounds date.year (3 * q + 1 + 2)
  let start : Date := ⟨date.year, 3 * q + 1, 1, years, by omega, by omega⟩
  let last : Date := ⟨date.year, 3 * q + 1 + 2, daysInMonth date.year (3 * q + 1 + 2), years,
    by omega, by omega⟩
  have startDay : start.toordinal =
      daysBeforeYear date.year + daysBeforeMonth date.year (3 * q + 1) + 1 := rfl
  have lastDay : last.toordinal = daysBeforeYear date.year +
      daysBeforeMonth date.year (3 * q + 1 + 2) + daysInMonth date.year (3 * q + 1 + 2) := rfl
  refine ⟨start, last.toordinal - start.toordinal + 1, by omega, by omega, .inl ⟨nofun, by omega⟩, ?_,
    fun day => ?_⟩
  · simp only [bucketStartAndSize, quarter, startMonth]
    rw [ofYmd_eq years (by omega) (by omega : 1 ≤ 1 ∧ 1 ≤ daysInMonth date.year (3 * q + 1)),
      ofYmd_eq years (by omega : 1 ≤ 3 * q + 1 + 2 ∧ 3 * q + 1 + 2 ≤ 12) (by omega)]
    rfl
  · have inQuarter := day.inMonths_iff years.1 (by omega : 1 ≤ 3 * q + 1)
      (by omega : 3 * q + 1 + 2 ≤ 12)
    have three : q = (day.month - 1) / 3 ↔
        3 * q + 1 ≤ day.month ∧ day.month ≤ 3 * q + 1 + 2 := by
      have others := day.monthBounds
      omega
    rw [SameBucket, quarter, three, eq_comm, inQuarter]
    omega

theorem bucketAt (bucket : Bucket) (date : Date) : ∃ start size, BucketAt bucket date start size := by
  cases bucket with
  | week => exact (week_bucket date).imp fun _ at7 => ⟨7, at7⟩
  | month => exact (month_bucket date).imp fun _ found => ⟨_, found⟩
  | quarter => exact quarter_bucket date

theorem bucketStartAndSize_congr {other : Date} (same : SameBucket bucket date other) :
    bucketStartAndSize other bucket = bucketStartAndSize date bucket := by
  cases bucket with
  | week =>
      rw [SameBucket, Date.isoWeek_eq_iff] at same
      have monday : (other.toordinal : Int) + -other.weekday = date.toordinal + -date.weekday := by
        have first := date.toordinal_pos
        have second := other.toordinal_pos
        simp only [Date.weekday] at same ⊢
        omega
      rw [bucketStartAndSize, bucketStartAndSize, Date.addDays, Date.addDays, monday]
  | month =>
      simp only [SameBucket] at same
      rw [bucketStartAndSize, bucketStartAndSize, same.1, same.2]
  | quarter =>
      simp only [SameBucket] at same
      rw [bucketStartAndSize, bucketStartAndSize, same.1, same.2]

theorem SameBucket.symm {first second : Date} (same : SameBucket bucket first second) :
    SameBucket bucket second first := by
  cases bucket with
  | week => exact Eq.symm same
  | month => exact ⟨same.1.symm, same.2.symm⟩
  | quarter => exact ⟨same.1.symm, same.2.symm⟩

theorem SameBucket.trans {first second third : Date} (before : SameBucket bucket first second)
    (after : SameBucket bucket second third) : SameBucket bucket first third := by
  cases bucket with
  | week => exact Eq.trans before after
  | month => exact ⟨before.1.trans after.1, before.2.trans after.2⟩
  | quarter => exact ⟨before.1.trans after.1, before.2.trans after.2⟩

end Buckets

section Runs

variable {bucket : Bucket} {date start : Date} {size : Nat} {hash : UInt64}

theorem perturbDate_eq (found : bucketStartAndSize date bucket = some (start, size)) :
    perturbDate bucket date hash = start.addDays (hash.toNat % size : Nat) := by
  rw [perturbDate, found]
  rfl

theorem perturbDate_cases (inBucket : BucketAt bucket date start size) (hash : UInt64) :
    (∃ out, perturbDate bucket date hash = some out ∧ SameBucket bucket date out) ∧
        start.toordinal + hash.toNat % size ≤ maxOrdinal ∨
      perturbDate bucket date hash = none ∧
        maxOrdinal < start.toordinal + hash.toNat % size := by
  have offset : hash.toNat % size < size := Nat.mod_lt _ inBucket.positive
  have first := start.toordinal_pos
  rw [perturbDate_eq inBucket.found, Date.addDays]
  rcases Nat.lt_or_ge maxOrdinal (start.toordinal + hash.toNat % size) with past | within
  · refine .inr ⟨?_, past⟩
    rw [Date.fromordinal, dif_neg (by omega)]
  · refine .inl ⟨?_, within⟩
    obtain ⟨out, given, ordinal⟩ := Date.fromordinal_of_bounds (by omega) within
    exact ⟨out, by exact_mod_cast given, (inBucket.days out).mpr (by omega)⟩

/-- The Monday of the week that the calendar ends in. -/
def lastMonday : Date := ⟨9999, 12, 27, by decide, by decide, by decide⟩

theorem toordinal_lastMonday : lastMonday.toordinal = maxOrdinal - 4 := by decide +kernel

theorem past_end_iff (inBucket : BucketAt bucket date start size) :
    maxOrdinal < start.toordinal + hash.toNat % size ↔
      ¬ (bucket ≠ .week ∨ date.toordinal < lastMonday.toordinal ∨ hash.toNat % 7 < 5) := by
  have offset : hash.toNat % size < size := Nat.mod_lt _ inBucket.positive
  have inside := (inBucket.days date).mp (.refl bucket date)
  have calendar := date.toordinal_le
  have top : maxOrdinal = 3652059 := rfl
  rw [toordinal_lastMonday]
  rcases inBucket.ends with ⟨other, within⟩ | ⟨rfl, rfl, monday⟩
  · exact iff_of_false (by omega) (not_not.mpr (.inl other))
  · simp only [ne_eq, not_true_eq_false, false_or]
    omega

theorem BucketAt.congr {other : Date} (inBucket : BucketAt bucket date start size)
    (same : SameBucket bucket date other) : BucketAt bucket other start size where
  positive := inBucket.positive
  small := inBucket.small
  ends := inBucket.ends
  found := (bucketStartAndSize_congr same).trans inBucket.found
  days := fun day => by
    rw [← inBucket.days day]
    exact ⟨same.trans, fun there => (same.symm).trans there⟩

theorem foldlM_perturbDate (inBucket : BucketAt bucket date start size) (hashes : List UInt64) :
    (∃ out, hashes.foldlM (perturbDate bucket) date = some out ∧ SameBucket bucket date out) ↔
      ∀ hash ∈ hashes, start.toordinal + hash.toNat % size ≤ maxOrdinal := by
  induction hashes generalizing date with
  | nil => exact iff_of_true ⟨date, rfl, .refl bucket date⟩ nofun
  | cons hash hashes ih =>
      rw [List.foldlM_cons, List.forall_mem_cons]
      rcases perturbDate_cases inBucket hash with ⟨⟨next, run, same⟩, within⟩ | ⟨run, past⟩
      · rw [run, Option.bind_eq_bind, Option.bind_some, and_iff_right within,
          ← ih (inBucket.congr same)]
        exact exists_congr fun out => and_congr_right fun _ =>
          ⟨(same.symm).trans, same.trans⟩
      · rw [run]
        refine iff_of_false ?_ fun all => Nat.not_lt.mpr all.1 past
        rintro ⟨out, failed, -⟩
        cases failed

/-- What a perturbation promises, for the hashes of any number of them in a row. -/
structure BucketLaw (bucket : Bucket) (date : Date) (hashes : List UInt64) : Prop where
  stays : ∃ out, hashes.foldlM (perturbDate bucket) date = some out ∧ SameBucket bucket date out ∧
    bucketStartAndSize out bucket = bucketStartAndSize date bucket
  exact : ∃ start size, bucketStartAndSize date bucket = some (start, size) ∧
    ∀ day : Date, SameBucket bucket date day ↔
      start.toordinal ≤ day.toordinal ∧ day.toordinal < start.toordinal + size
  reaches : ∀ day, SameBucket bucket date day →
    ∃ hash : UInt64, perturbDate bucket date hash = some day

theorem perturbDate_reaches (inBucket : BucketAt bucket date start size) {day : Date}
    (same : SameBucket bucket date day) :
    ∃ hash : UInt64, perturbDate bucket date hash = some day := by
  obtain ⟨after, before⟩ := (inBucket.days day).mp same
  have small := inBucket.small
  refine ⟨UInt64.ofNat (day.toordinal - start.toordinal), ?_⟩
  have value : (UInt64.ofNat (day.toordinal - start.toordinal)).toNat =
      day.toordinal - start.toordinal := UInt64.toNat_ofNat_of_lt' (by
    rw [UInt64.size]
    omega)
  rw [perturbDate_eq inBucket.found, value, Nat.mod_eq_of_lt (by omega), Date.addDays,
    Date.fromordinal_eq_some]
  omega

/-- Perturbing keeps a date in its bucket however often it is done, the bucket is the range of days
that the code computes, and every day of it is reached; only the last week fails, whose Saturday and
Sunday no date has. -/
theorem bucketLaw_iff (bucket : Bucket) (date : Date) (hashes : List UInt64) :
    BucketLaw bucket date hashes ↔
      bucket ≠ .week ∨ date.toordinal < lastMonday.toordinal ∨
        ∀ hash ∈ hashes, hash.toNat % 7 < 5 := by
  obtain ⟨start, size, inBucket⟩ := bucketAt bucket date
  have run := foldlM_perturbDate inBucket hashes
  have all : (∀ hash ∈ hashes, start.toordinal + hash.toNat % size ≤ maxOrdinal) ↔
      (bucket ≠ .week ∨ date.toordinal < lastMonday.toordinal ∨
        ∀ hash ∈ hashes, hash.toNat % 7 < 5) := by
    have each : ∀ hash : UInt64, start.toordinal + hash.toNat % size ≤ maxOrdinal ↔
        (bucket ≠ .week ∨ date.toordinal < lastMonday.toordinal ∨ hash.toNat % 7 < 5) := by
      intro hash
      rw [← Nat.not_lt, past_end_iff inBucket, Classical.not_not]
    simp only [each]
    by_cases whole : bucket ≠ .week ∨ date.toordinal < lastMonday.toordinal
    · exact iff_of_true (fun _ _ => whole.imp_right .inl) (whole.imp_right .inl)
    · rw [not_or] at whole
      simp only [whole.1, whole.2, false_or]
  rw [← all, ← run]
  constructor
  · intro law
    obtain ⟨out, given, same, -⟩ := law.stays
    exact ⟨out, given, same⟩
  · rintro ⟨out, given, same⟩
    exact ⟨⟨out, given, same, bucketStartAndSize_congr same⟩, ⟨start, size, inBucket.found,
      inBucket.days⟩, fun day => perturbDate_reaches inBucket⟩

/-- The last Friday of the calendar, sent to the Saturday after it. -/
theorem last_week_overflows :
    ¬ BucketLaw .week ⟨9999, 12, 31, by decide, by decide, by decide⟩ [5] := by
  rintro ⟨⟨out, given, -⟩, -, -⟩
  have refused : [(5 : UInt64)].foldlM (perturbDate .week)
      ⟨9999, 12, 31, by decide, by decide, by decide⟩ = none := by decide +kernel
  rw [refused] at given
  cases given

end Runs

end DecoyEngine.Transforms.BucketPerturb
