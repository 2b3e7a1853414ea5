import DecoyEngine.Data.IntDouble
import DecoyEngine.Execution.FkKeys

namespace DecoyEngine.Execution

open DecoyEngine.Data

/-! FK output columns of integers (`execution/_fk_keys.py`). -/

inductive NullableDtype where
  | int64 | uint64
deriving Repr, DecidableEq

def NullableDtype.name : NullableDtype → String
  | .int64 => "Int64"
  | .uint64 => "UInt64"

inductive PandasErrorKind where
  | arrowInvalid | overflowError | typeError | valueError
  | other
deriving Repr, DecidableEq

structure PandasError where
  kind : PandasErrorKind
  text : String
deriving Repr, DecidableEq

/-- The kinds `fk_nullable_int_array` catches. -/
def PandasError.isCaught (error : PandasError) : Bool := error.kind ≠ .other

inductive FkColumnError where
  | mixesFloat
  | aboveUInt64 (value : Int)
  | belowInt64 (value : Int)
  | notBuilt (dtype : NullableDtype) (error : PandasError)
  | uncaught (error : PandasError)
deriving Repr, DecidableEq

def fkKeyDtypeUnsupportedCode : String := "out_of_core_fk_key_dtype_unsupported"

def FkColumnError.code : FkColumnError → Option String
  | .uncaught _ => none
  | _ => some fkKeyDtypeUnsupportedCode

def FkColumnError.message : FkColumnError → String
  | .mixesFloat =>
      "FK output column mixes a float value with an integer key beyond " ++
        "exactly-representable float64 precision (> 2**53); int64 would truncate the fraction " ++
        "and float64 would round the integer, so neither dtype can hold both without " ++
        "corrupting one of them."
  | .aboveUInt64 value =>
      "FK output column has a resolved key value " ++ toString value ++
        " that exceeds UInt64's maximum representable value (18446744073709551615); " ++
        "no lossless dtype can hold it."
  | .belowInt64 value =>
      "FK output column has a resolved key value " ++ toString value ++
        " that is below Int64's minimum representable value (-9223372036854775808); " ++
        "no lossless dtype can hold it."
  | .notBuilt dtype error =>
      "FK output column could not be built as a lossless nullable " ++ dtype.name ++
        " array: " ++ error.text
  | .uncaught error => error.text

/-- `pd.isna`. -/
def isMissing : FkComponent → Bool
  | .null | .float .nan | .notATime => true
  | _ => false

def isExactlyFloatRepresentable (value : Int) : Bool := -2 ^ 53 ≤ value && value ≤ 2 ^ 53

/-- The entry of `normalized`; a placeholder for what is no integer. -/
def normalizedEntry : FkComponent → Option Int
  | .int value => some value
  | _ => none

def isNonInt (value : FkComponent) : Bool := !isMissing value && (normalizedEntry value).isNone

def isUnrepresentableInt (value : FkComponent) : Bool :=
  (normalizedEntry value).any fun number => !isExactlyFloatRepresentable number

def losslessFkIntValues (values : List FkComponent) :
    Except FkColumnError (Option (List (Option Int))) :=
  let normalized := values.map normalizedEntry
  let sawNonInt := values.any isNonInt
  let sawUnrepresentableInt := values.any isUnrepresentableInt
  if !sawNonInt then .ok (some normalized)
  else if sawUnrepresentableInt then .error .mixesFloat
  else .ok none

def int64Min : Int := -2 ^ 63
def int64Max : Int := 2 ^ 63 - 1
def uint64Max : Int := 2 ^ 64 - 1

def NullableDtype.Holds : NullableDtype → Int → Prop
  | .int64, value => int64Min ≤ value ∧ value ≤ int64Max
  | .uint64, value => 0 ≤ value ∧ value ≤ uint64Max

instance (dtype : NullableDtype) (value : Int) : Decidable (dtype.Holds value) :=
  match dtype with
  | .int64 => inferInstanceAs (Decidable (_ ∧ _))
  | .uint64 => inferInstanceAs (Decidable (_ ∧ _))

/-- The loop over the values: whether `UInt64` is needed, or the first value no dtype holds. -/
def needsUInt64 : List (Option Int) → Except FkColumnError Bool
  | [] => .ok false
  | none :: rest => needsUInt64 rest
  | some value :: rest =>
      if int64Max < value then
        if uint64Max < value then .error (.aboveUInt64 value)
        else (needsUInt64 rest).map fun _ => true
      else if value < int64Min then .error (.belowInt64 value)
      else needsUInt64 rest

section Columns

variable (pdArray : NullableDtype → List (Option Int) → Except PandasError (List (Option Int)))
variable (rawColumn : List FkComponent → List FkComponent)

def fkNullableIntArray (values : List (Option Int)) :
    Except FkColumnError (List (Option Int)) := do
  let dtype := if (← needsUInt64 values) then NullableDtype.uint64 else .int64
  match pdArray dtype values with
  | .ok array => .ok array
  | .error error =>
      if error.isCaught then .error (.notBuilt dtype error) else .error (.uncaught error)

/-- An entry of a nullable array as a value of the column. -/
def ofNullable : Option Int → FkComponent
  | none => .null
  | some value => .int value

/-- The column a resolved FK is written back as: an integer array, or the bare list. -/
def writeBack (values : List FkComponent) : Except FkColumnError (List FkComponent) := do
  match ← losslessFkIntValues values with
  | some normalized => .ok ((← fkNullableIntArray pdArray normalized).map ofNullable)
  | none => .ok (rawColumn values)

end Columns

/-- `numpy.array` of a list of integers has no integer type for both halves of the range. -/
def Promoted (ints : List Int) : Prop :=
  (∃ value ∈ ints, value < 2 ^ 63) ∧ ∃ value ∈ ints, 2 ^ 63 ≤ value

/-- `argmax` of the floats: the first entry whose float is largest. -/
def firstLargest (ints : List Int) : Option Int :=
  ints.foldl (fun best value =>
    match best with
    | none => some value
    | some kept => if nearestDouble kept < nearestDouble value then some value else some kept) none

/-- The check for lost precision: the first of the largest floats is its integer. -/
def LargestKept (ints : List Int) : Prop :=
  ∀ value ∈ firstLargest ints, nearestDouble value = value

instance (ints : List Int) : Decidable (Promoted ints) := inferInstanceAs (Decidable (_ ∧ _))

instance (ints : List Int) : Decidable (LargestKept ints) :=
  inferInstanceAs (Decidable (∀ value ∈ firstLargest ints, nearestDouble value = value))

/-- The entries of `pd.array` when the type holds every value.  A list with a null is read entry
by entry; one without goes through `numpy.array`. -/
def builtEntries (values : List (Option Int)) : List (Option Int) :=
  let ints := values.filterMap id
  if none ∉ values ∧ Promoted ints ∧ LargestKept ints then ints.map (some ∘ nearestDouble)
  else values

/-- What is relied on of `pd.array` at a nullable dtype: entries that the dtype holds come back,
some of them through float64, and an entry that it does not hold is an error that the caller
catches. -/
structure PandasArray
    (pdArray : NullableDtype → List (Option Int) → Except PandasError (List (Option Int))) :
    Prop where
  built : ∀ dtype values, (∀ value, some value ∈ values → dtype.Holds value) →
    pdArray dtype values = .ok (builtEntries values)
  refused : ∀ dtype values, (∃ value, some value ∈ values ∧ ¬ dtype.Holds value) →
    ∃ error, pdArray dtype values = .error error ∧ error.isCaught = true

/-- The exact number of an integer or a finite float. -/
def FkComponent.exactNumber : FkComponent → Option ℚ
  | .int value => some value
  | .float (.number (.finite negative magnitude)) =>
      some (if negative then -magnitude.value else magnitude.value)
  | _ => none

/-- An assigned list keeps its values, but integers beside floats become doubles. -/
inductive Assigned : FkComponent → FkComponent → Prop where
  | kept (value : FkComponent) : Assigned value value
  | missing {value entry : FkComponent} (noValue : isMissing value = true)
      (noEntry : isMissing entry = true) : Assigned value entry
  | double {value : Int} {entry : FkComponent}
      (nearest : entry.exactNumber = some ((nearestDouble value : Int) : ℚ)) :
      Assigned (.int value) entry

def RawColumn (rawColumn : List FkComponent → List FkComponent) : Prop :=
  ∀ values, List.Forall₂ Assigned values (rawColumn values)

/-- The entry of a value: null for a missing one, else the value or a number equal to it. -/
def SameEntry (value entry : FkComponent) : Prop :=
  isMissing entry = isMissing value ∧
    (isMissing value = false → entry = value ∨
      ∃ number, value.exactNumber = some number ∧ entry.exactNumber = some number)

/-- A column of the values, or the coded error. -/
def LosslessOrRefused (values : List FkComponent) :
    Except FkColumnError (List FkComponent) → Prop
  | .ok column => List.Forall₂ SameEntry values column
  | .error error => error.code = some fkKeyDtypeUnsupportedCode

/-- The lists that pandas rounds: no null, all held by `UInt64`, on both sides of `2 ^ 63`, the
first of those with the largest float a float, another one not. -/
structure Rounded (ints : List Int) : Prop where
  held : ∀ value ∈ ints, NullableDtype.uint64.Holds value
  promoted : Promoted ints
  largest : LargestKept ints
  lossy : ∃ value ∈ ints, nearestDouble value ≠ value

def exceedsInt64 (entry : Option Int) : Bool := entry.any fun value => int64Max < value

/-- The type the values call for. -/
def chosen (values : List (Option Int)) : NullableDtype :=
  if values.any exceedsInt64 then .uint64 else .int64

theorem needsUInt64_eq {values : List (Option Int)}
    (inside : ∀ value, some value ∈ values → int64Min ≤ value ∧ value ≤ uint64Max) :
    needsUInt64 values = .ok (values.any exceedsInt64) := by
  induction values with
  | nil => rfl
  | cons entry rest ih =>
      have tail := ih fun value member => inside value (List.mem_cons_of_mem _ member)
      cases entry with
      | none =>
          rw [needsUInt64, tail]
          rfl
      | some value =>
          obtain ⟨above, below⟩ := inside value List.mem_cons_self
          rw [needsUInt64, tail]
          by_cases large : int64Max < value
          · rw [if_pos large, if_neg (not_lt.mpr below)]
            simp [exceedsInt64, large, Except.map]
          · rw [if_neg large, if_neg (not_lt.mpr above)]
            simp [exceedsInt64, large]

theorem needsUInt64_refused {values : List (Option Int)}
    (outside : ∃ value, some value ∈ values ∧ ¬ (int64Min ≤ value ∧ value ≤ uint64Max)) :
    ∃ error, needsUInt64 values = .error error ∧
      error.code = some fkKeyDtypeUnsupportedCode := by
  induction values with
  | nil =>
      obtain ⟨value, member, -⟩ := outside
      cases member
  | cons entry rest ih =>
      obtain ⟨value, member, beyond⟩ := outside
      cases entry with
      | none =>
          rw [needsUInt64]
          apply ih
          exact ⟨value, (List.mem_cons.mp member).resolve_left nofun, beyond⟩
      | some first =>
          rw [needsUInt64]
          by_cases large : int64Max < first
          · rw [if_pos large]
            by_cases tooLarge : uint64Max < first
            · rw [if_pos tooLarge]
              exact ⟨_, rfl, rfl⟩
            · rw [if_neg tooLarge]
              have inTail : some value ∈ rest := by
                apply (List.mem_cons.mp member).resolve_left
                intro same
                cases same
                rw [int64Max] at large
                rw [int64Min] at beyond
                omega
              obtain ⟨error, failed, coded⟩ := ih ⟨value, inTail, beyond⟩
              rw [failed]
              exact ⟨error, rfl, coded⟩
          · rw [if_neg large]
            by_cases tooSmall : first < int64Min
            · rw [if_pos tooSmall]
              exact ⟨_, rfl, rfl⟩
            · rw [if_neg tooSmall]
              have inTail : some value ∈ rest := by
                apply (List.mem_cons.mp member).resolve_left
                intro same
                cases same
                rw [int64Max] at large
                rw [uint64Max] at beyond
                omega
              exact ih ⟨value, inTail, beyond⟩

theorem holds_bounds {dtype : NullableDtype} {value : Int} (held : dtype.Holds value) :
    int64Min ≤ value ∧ value ≤ uint64Max := by
  cases dtype <;> simp only [NullableDtype.Holds, int64Min, int64Max, uint64Max] at * <;> omega

section Built

variable {pdArray : NullableDtype → List (Option Int) → Except PandasError (List (Option Int))}

theorem fkNullableIntArray_built (pandas : PandasArray pdArray) {values : List (Option Int)}
    (held : ∀ value, some value ∈ values → (chosen values).Holds value) :
    fkNullableIntArray pdArray values = .ok (builtEntries values) := by
  have needs := needsUInt64_eq fun value member => holds_bounds (held value member)
  have array := pandas.built _ values held
  rw [chosen] at array
  simp only [fkNullableIntArray, needs, bind, Except.bind, array]

theorem fkNullableIntArray_refused (pandas : PandasArray pdArray) {values : List (Option Int)}
    (beyond : ∃ value, some value ∈ values ∧ ¬ (chosen values).Holds value) :
    ∃ error, fkNullableIntArray pdArray values = .error error ∧
      error.code = some fkKeyDtypeUnsupportedCode := by
  by_cases inside : ∀ value, some value ∈ values → int64Min ≤ value ∧ value ≤ uint64Max
  · have needs := needsUInt64_eq inside
    obtain ⟨error, failed, caught⟩ := pandas.refused _ values beyond
    rw [chosen] at failed
    simp only [fkNullableIntArray, needs, bind, Except.bind, failed, if_pos caught]
    exact ⟨_, rfl, rfl⟩
  · push Not at inside
    obtain ⟨value, member, outside⟩ := inside
    obtain ⟨error, failed, coded⟩ :=
      needsUInt64_refused ⟨value, member, fun both => absurd both.2 (outside both.1).not_ge⟩
    simp only [fkNullableIntArray, failed, bind, Except.bind]
    exact ⟨error, rfl, coded⟩

end Built

theorem eq_map_some {values : List (Option Int)} (noNull : none ∉ values) :
    values = (values.filterMap id).map some := by
  induction values with
  | nil => rfl
  | cons entry rest ih =>
      cases entry with
      | none => exact absurd List.mem_cons_self noNull
      | some value =>
          have tail := ih fun member => noNull (List.mem_cons_of_mem _ member)
          have step : (some value :: rest).filterMap id = value :: rest.filterMap id := rfl
          rw [step, List.map_cons, ← tail]

theorem filterMap_map_some (ints : List Int) : (ints.map some).filterMap id = ints := by
  rw [List.filterMap_map, Function.id_comp, List.filterMap_some]

theorem builtEntries_eq_iff {values : List (Option Int)} :
    builtEntries values = values ↔ ¬ ∃ ints, values = ints.map some ∧ Promoted ints ∧
      LargestKept ints ∧ ∃ value ∈ ints, nearestDouble value ≠ value := by
  rw [builtEntries]
  by_cases rounds : none ∉ values ∧ Promoted (values.filterMap id) ∧
      LargestKept (values.filterMap id)
  · rw [if_pos rounds]
    obtain ⟨noNull, promoted, largest⟩ := rounds
    have isInts := eq_map_some noNull
    generalize values.filterMap id = ints at isInts promoted largest
    subst isInts
    rw [List.map_inj_left]
    constructor
    · intro exact ⟨others, same, _, _, value, member, lossy⟩
      have equal := List.map_injective_iff.mpr (Option.some_injective Int) same
      subst equal
      exact lossy (Option.some.inj (exact value member))
    · intro noOther value member
      by_contra lossy
      exact noOther ⟨ints, rfl, promoted, largest, value, member, fun same =>
        lossy (congrArg some same)⟩
  · rw [if_neg rounds]
    refine iff_of_true rfl ?_
    intro ⟨ints, isInts, promoted, largest, _⟩
    apply rounds
    rw [isInts, filterMap_map_some]
    exact ⟨by simp, promoted, largest⟩

theorem sameEntry_ofNullable {value : FkComponent} {entry : Option Int}
    (isInt : isNonInt value = false) :
    SameEntry value (ofNullable entry) ↔ normalizedEntry value = entry := by
  cases missing : isMissing value with
  | true =>
      have noEntry : normalizedEntry value = none := by
        cases value <;> first | rfl | cases missing
      rw [noEntry, SameEntry, missing]
      cases entry <;> simp [ofNullable, isMissing]
  | false =>
      cases value with
      | int number =>
          cases entry with
          | none => simp [SameEntry, ofNullable, isMissing, normalizedEntry]
          | some other =>
              simp [SameEntry, ofNullable, isMissing, normalizedEntry, FkComponent.exactNumber,
                eq_comm]
      | _ => simp [isNonInt, missing, normalizedEntry] at isInt

theorem forall_sameEntry_ofNullable {values : List FkComponent} {entries : List (Option Int)}
    (allInts : values.any isNonInt = false) :
    List.Forall₂ SameEntry values (entries.map ofNullable) ↔
      values.map normalizedEntry = entries := by
  rw [List.forall₂_map_right_iff, ← List.forall₂_eq_eq_eq, List.forall₂_map_left_iff]
  rw [List.any_eq_false] at allInts
  constructor
  · intro same
    induction same with
    | nil => exact .nil
    | cons head tail ih =>
        have isInt := Bool.eq_false_of_not_eq_true (allInts _ List.mem_cons_self)
        refine .cons ((sameEntry_ofNullable isInt).mp head) (ih ?_)
        exact fun value member => allInts value (List.mem_cons_of_mem _ member)
  · intro same
    induction same with
    | nil => exact .nil
    | cons head tail ih =>
        have isInt := Bool.eq_false_of_not_eq_true (allInts _ List.mem_cons_self)
        refine .cons ((sameEntry_ofNullable isInt).mpr head) (ih ?_)
        exact fun value member => allInts value (List.mem_cons_of_mem _ member)

theorem map_normalizedEntry_eq {values : List FkComponent} {ints : List Int} :
    values.map normalizedEntry = ints.map some ↔ values = ints.map .int := by
  have entry : ∀ (value : FkComponent) (number : Int),
      normalizedEntry value = some number ↔ value = .int number := by
    intro value number
    cases value <;> simp [normalizedEntry]
  rw [← List.forall₂_eq_eq_eq, ← List.forall₂_eq_eq_eq, List.forall₂_map_left_iff,
    List.forall₂_map_right_iff, List.forall₂_map_right_iff]
  simp only [entry]

theorem any_isNonInt_ints (ints : List Int) :
    (ints.map FkComponent.int).any isNonInt = false := by
  simp [isNonInt, isMissing, normalizedEntry]

theorem sameEntry_of_assigned {value entry : FkComponent} (assigned : Assigned value entry)
    (exact : isUnrepresentableInt value = false) : SameEntry value entry := by
  cases assigned with
  | kept => exact ⟨rfl, fun _ => .inl rfl⟩
  | missing noValue noEntry =>
      exact ⟨noEntry.trans noValue.symm, fun found => absurd (noValue.symm.trans found) nofun⟩
  | @double number _ nearest =>
      have small : |number| ≤ 2 ^ 53 := by
        simp [isUnrepresentableInt, normalizedEntry, isExactlyFloatRepresentable] at exact
        exact abs_le.mpr exact
      rw [nearestDouble_of_abs_le small] at nearest
      have present : isMissing entry = false := by
        cases entry with
        | float double =>
            cases double with
            | nan => cases nearest
            | number double => rfl
        | _ => first | rfl | cases nearest
      exact ⟨present, fun _ => .inr ⟨number, rfl, nearest⟩⟩

section Lossless

variable {pdArray : NullableDtype → List (Option Int) → Except PandasError (List (Option Int))}
variable {rawColumn : List FkComponent → List FkComponent}

theorem chosen_of_promoted {ints : List Int} (promoted : Promoted ints) :
    chosen (ints.map some) = .uint64 := by
  obtain ⟨value, member, large⟩ := promoted.2
  have exceeds : (ints.map some).any exceedsInt64 = true := by
    rw [List.any_eq_true]
    refine ⟨some value, List.mem_map_of_mem member, decide_eq_true ?_⟩
    rw [int64Max]
    omega
  rw [chosen, if_pos exceeds]

theorem int_column_iff (pandas : PandasArray pdArray) {values : List FkComponent}
    (allInts : values.any isNonInt = false) :
    LosslessOrRefused values (writeBack pdArray rawColumn values) ↔
      ¬ ∃ ints, values = ints.map .int ∧ Rounded ints := by
  have classified : losslessFkIntValues values = .ok (some (values.map normalizedEntry)) := by
    rw [losslessFkIntValues, allInts]
    rfl
  by_cases held : ∀ value, some value ∈ values.map normalizedEntry →
      (chosen (values.map normalizedEntry)).Holds value
  · have run : writeBack pdArray rawColumn values =
        .ok ((builtEntries (values.map normalizedEntry)).map ofNullable) := by
      simp only [writeBack, classified, bind, Except.bind, fkNullableIntArray_built pandas held]
    rw [run, LosslessOrRefused, forall_sameEntry_ofNullable allInts, eq_comm, builtEntries_eq_iff]
    apply not_congr
    apply exists_congr
    intro ints
    rw [map_normalizedEntry_eq]
    apply and_congr_right
    intro isInts
    constructor
    · intro ⟨promoted, largest, lossy⟩
      refine ⟨fun value member => ?_, promoted, largest, lossy⟩
      rw [map_normalizedEntry_eq.mpr isInts] at held
      rw [← chosen_of_promoted promoted]
      exact held value (List.mem_map_of_mem member)
    · intro rounded
      exact ⟨rounded.promoted, rounded.largest, rounded.lossy⟩
  · push Not at held
    obtain ⟨error, failed, coded⟩ := fkNullableIntArray_refused pandas held
    have run : writeBack pdArray rawColumn values = .error error := by
      simp only [writeBack, classified, bind, Except.bind, failed]
    rw [run]
    refine iff_of_true coded ?_
    intro ⟨ints, isInts, rounded⟩
    obtain ⟨value, member, beyond⟩ := held
    rw [map_normalizedEntry_eq.mpr isInts] at member beyond
    rw [chosen_of_promoted rounded.promoted] at beyond
    obtain ⟨number, inInts, same⟩ := List.mem_map.mp member
    cases same
    exact beyond (rounded.held value inInts)

/-- A foreign key column is written back with every key as it was, or refused, unless it is a column
of integers that `pd.array` takes through float64 and so rounds. -/
theorem fk_column_lossless_iff (pandas : PandasArray pdArray) (raw : RawColumn rawColumn)
    (values : List FkComponent) :
    LosslessOrRefused values (writeBack pdArray rawColumn values) ↔
      ¬ ∃ ints, values = ints.map .int ∧ Rounded ints := by
  cases nonInt : values.any isNonInt with
  | false => exact int_column_iff pandas nonInt
  | true =>
      have notInts : ¬ ∃ ints, values = ints.map .int ∧ Rounded ints := by
        intro ⟨ints, isInts, _⟩
        rw [isInts, any_isNonInt_ints] at nonInt
        cases nonInt
      refine iff_of_true ?_ notInts
      cases lossy : values.any isUnrepresentableInt with
      | true =>
          have run : writeBack pdArray rawColumn values = .error .mixesFloat := by
            simp [writeBack, losslessFkIntValues, nonInt, lossy, bind, Except.bind]
          rw [run]
          rfl
      | false =>
          have run : writeBack pdArray rawColumn values = .ok (rawColumn values) := by
            simp [writeBack, losslessFkIntValues, nonInt, lossy, bind, Except.bind]
          rw [run]
          rw [List.any_eq_false] at lossy
          have exact : ∀ value ∈ values, isUnrepresentableInt value = false :=
            fun value member => Bool.eq_false_of_not_eq_true (lossy value member)
          have both := (List.forall₂_and_left _ _).mpr ⟨exact, raw values⟩
          exact both.imp fun value entry kept => sameEntry_of_assigned kept.2 kept.1

end Lossless

/-- `pd.array` on the two types. -/
def builtArray (dtype : NullableDtype) (values : List (Option Int)) :
    Except PandasError (List (Option Int)) :=
  if values.all fun entry => entry.all fun value => decide (dtype.Holds value) then
    .ok (builtEntries values)
  else .error ⟨.overflowError, "Python integer out of bounds for " ++ dtype.name⟩

theorem builtArray_pandas : PandasArray builtArray where
  built := by
    intro dtype values held
    have all :
        (values.all fun entry => entry.all fun value => decide (dtype.Holds value)) = true := by
      rw [List.all_eq_true]
      intro entry member
      cases entry with
      | none => rfl
      | some value => exact decide_eq_true (held value member)
    rw [builtArray, if_pos all]
  refused := by
    intro dtype values ⟨value, member, beyond⟩
    refine ⟨⟨.overflowError, "Python integer out of bounds for " ++ dtype.name⟩, if_neg ?_, rfl⟩
    intro all
    exact beyond (of_decide_eq_true (List.all_eq_true.mp all _ member))

theorem rawColumn_id : RawColumn id := fun _ => List.forall₂_same.mpr fun value _ => .kept value

theorem fk_column_lossless_with_null :
    LosslessOrRefused [.int (2 ^ 63), .null, .int (2 ^ 53 + 1)]
      (writeBack builtArray id [.int (2 ^ 63), .null, .int (2 ^ 53 + 1)]) := by
  apply (fk_column_lossless_iff builtArray_pandas rawColumn_id _).mpr
  intro ⟨ints, same, _⟩
  have null : FkComponent.null ∈ ints.map FkComponent.int := same ▸ by simp
  simp at null

/-- The second key comes back as `2 ^ 53`. -/
theorem mixed_keys_rounded :
    writeBack builtArray id [.int (2 ^ 63), .int (2 ^ 53 + 1)] =
        .ok [.int (2 ^ 63), .int (2 ^ 53)] ∧
      ¬ LosslessOrRefused [.int (2 ^ 63), .int (2 ^ 53 + 1)]
        (writeBack builtArray id [.int (2 ^ 63), .int (2 ^ 53 + 1)]) := by
  have run : writeBack builtArray id [.int (2 ^ 63), .int (2 ^ 53 + 1)] =
      .ok [.int (2 ^ 63), .int (2 ^ 53)] := by
    decide +kernel
  refine ⟨run, ?_⟩
  rw [run]
  intro same
  cases same with
  | cons _ rest =>
      cases rest with
      | cons second _ =>
          obtain ⟨number, isValue, isEntry⟩ := (second.2 rfl).resolve_left (by decide)
          cases isValue
          have equal := Option.some.inj isEntry
          norm_num at equal

end DecoyEngine.Execution
