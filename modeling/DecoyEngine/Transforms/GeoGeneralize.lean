import DecoyEngine.Data.Text
import DecoyEngine.Planning.Types

namespace DecoyEngine.Transforms.GeoGeneralize

open DecoyEngine.Data (pyRepr namesText)
open DecoyEngine.Planning (PlanCompileError)

/-! The ZIP cascade (`transforms/geo_generalize.py`): each row takes the first level of the
cascade that enough rows share. -/

/-- `str.isdigit` of one character. -/
structure DigitClass where
  isdigit : Char → Bool
  ascii : ∀ ch, ch.toNat < 128 → isdigit ch = ch.isDigit

/-- The states of the shipped ZIP table, spelled in letters; `[]` for a ZIP it does not hold. -/
structure StateMap where
  get : List Char → List Char
  letters : ∀ zip, ∀ ch ∈ get zip, ch.isAlpha = true

structure GeoConfig where
  geoType : String
  cascade : List String
  kThreshold : Int

def zipLevels : List String := ["state", "suppress", "zip3", "zip5"]

def h3Levels : List String :=
  ["h3_resolution_5", "h3_resolution_7", "h3_resolution_9", "suppress"]

/-- `validate_geo_generalize_config`: the type, a cascade that is not empty, its terminator and its
levels, checked in this order; the first failure is the one that is raised. -/
def validateGeoGeneralizeConfig (config : GeoConfig) : Except PlanCompileError Unit :=
  if config.geoType ∉ ["lat_lng", "zip"] then
    .error ⟨"geo_generalize_unsupported_type", "provider_config.type",
      "geo_generalize: unsupported type " ++ pyRepr config.geoType ++ ". Supported types: " ++
        namesText ["lat_lng", "zip"] ++ "."⟩
  else if config.cascade = [] then
    .error ⟨"geo_generalize_invalid_cascade", "provider_config.cascade",
      "geo_generalize: 'cascade' must be a non-empty list of levels. " ++
        "Example (zip): cascade: [zip5, zip3, state, suppress]. " ++
        "Example (lat_lng): cascade: [h3_resolution_9, h3_resolution_7, suppress]."⟩
  else if "suppress" ∉ config.cascade then
    .error ⟨"geo_generalize_missing_suppress", "provider_config.cascade",
      "geo_generalize: 'cascade' must include 'suppress' as a terminator. " ++
        "Without it there is no defined behavior when all levels are below threshold."⟩
  else
    let validLevels := if config.geoType = "zip" then zipLevels else h3Levels
    match config.cascade.find? (fun level => decide (level ∉ validLevels)) with
    | some level =>
        .error ⟨"geo_generalize_invalid_cascade_level", "provider_config.cascade",
          "geo_generalize: cascade level " ++ pyRepr level ++ " is not valid for type=" ++
            pyRepr config.geoType ++ ". Valid levels: " ++ namesText validLevels ++ "."⟩
    | none => .ok ()

/-- `_extract_zip5` -/
def extractZip5 (digitClass : DigitClass) (value : List Char) : List Char :=
  let digits := value.filter digitClass.isdigit
  if 5 ≤ digits.length then digits.take 5 else digits

/-- `_zip5_to_zip3` -/
def zip5ToZip3 (zip5 : List Char) : List Char :=
  if 3 ≤ zip5.length then zip5.take 3 else zip5

/-- What the cascade knows of a column before its first row. -/
structure Counts where
  zip5 : List Char → Nat
  zip3 : List Char → Nat
  state : List Char → Nat

def countColumn (digitClass : DigitClass) (states : StateMap) (column : List (List Char)) : Counts :=
  let zip5Values := column.map (extractZip5 digitClass)
  let zip3Values := zip5Values.map zip5ToZip3
  let stateValues := zip5Values.map states.get
  { zip5 := zip5Values.count
    zip3 := zip3Values.count
    state := (stateValues.filter (!·.isEmpty)).count }

/-- `_cascade_one_row`: the first level of the cascade, in its declared order, that enough rows of
the column share; the suppressed value where there is none. -/
def cascadeOneRow (k : Int) (counts : Counts) (restricted : List (List Char))
    (z5 z3 state : List Char) : List String → List Char × String
  | [] => ([], "suppressed")
  | level :: cascade =>
      if level = "zip5" then
        if k ≤ counts.zip5 z5 then (z5, "zip5")
        else cascadeOneRow k counts restricted z5 z3 state cascade
      else if level = "zip3" then
        if z3 ∈ restricted then cascadeOneRow k counts restricted z5 z3 state cascade
        else if k ≤ max 20000 (counts.zip3 z3) then (z3, "zip3")
        else cascadeOneRow k counts restricted z5 z3 state cascade
      else if level = "state" then
        if state ≠ [] then
          if k ≤ counts.state state then (state, "state")
          else cascadeOneRow k counts restricted z5 z3 state cascade
        else cascadeOneRow k counts restricted z5 z3 state cascade
      else if level = "suppress" then ([], "suppressed")
      else cascadeOneRow k counts restricted z5 z3 state cascade

/-- `cascade_zip_column`: the released value and the decision of every row. -/
def cascadeZipColumn (digitClass : DigitClass) (states : StateMap) (restricted : List (List Char))
    (config : GeoConfig) (column : List (List Char)) : List (List Char × String) :=
  let counts := countColumn digitClass states column
  column.map fun value =>
    let z5 := extractZip5 digitClass value
    cascadeOneRow config.kThreshold counts restricted z5 (zip5ToZip3 z5) (states.get z5)
      config.cascade

def IsZip (length : Nat) (zip : List Char) : Prop :=
  zip.length = length ∧ ∀ ch ∈ zip, ch.isDigit = true

instance (length : Nat) (zip : List Char) : Decidable (IsZip length zip) :=
  inferInstanceAs (Decidable (_ ∧ _))

section Levels

variable (digitClass : DigitClass) (states : StateMap) (restricted : List (List Char))
  (config : GeoConfig) (column : List (List Char))

/-- The rows of the column with this full ZIP, or in this state. -/
def sharing (zip : List Char) : Nat := column.countP (extractZip5 digitClass · = zip)

def inState (state : List Char) : Nat :=
  column.countP (fun value => states.get (extractZip5 digitClass value) = state)

/-- The condition of a level for a value of the column. -/
def LevelHolds (value : List Char) (level : String) : Prop :=
  let z5 := extractZip5 digitClass value
  let z3 := zip5ToZip3 z5
  let state := states.get z5
  level = "zip5" ∧ config.kThreshold ≤ sharing digitClass column z5 ∨
  level = "zip3" ∧ z3 ∉ restricted ∧ config.kThreshold ≤
    max 20000 (column.countP fun value => zip5ToZip3 (extractZip5 digitClass value) = z3) ∨
  level = "state" ∧ state ≠ [] ∧
    config.kThreshold ≤ inState digitClass states column state ∨
  level = "suppress"

instance (value : List Char) (level : String) :
    Decidable (LevelHolds digitClass states restricted config column value level) :=
  inferInstanceAs (Decidable (_ ∨ _))

def labelOf (level : String) : String := if level = "suppress" then "suppressed" else level

/-- What the cascade promises for one row. -/
structure RowLaw (value out : List Char) (label : String) : Prop where
  released : out = [] ∨
    IsZip 5 out ∧ config.kThreshold ≤ sharing digitClass column out ∨
    IsZip 3 out ∧ out ∉ restricted ∨
    out ≠ [] ∧ states.get (extractZip5 digitClass value) = out ∧
      config.kThreshold ≤ inState digitClass states column out
  malformed : ¬ IsZip 5 (extractZip5 digitClass value) → label ≠ "zip5" ∧ label ≠ "zip3"
  unrestricted : ∀ front ∈ restricted, IsZip 3 front → front <+: out →
    IsZip 5 out ∧ config.kThreshold ≤ sharing digitClass column out
  decision : ∃ before level after, config.cascade = before ++ level :: after ∧
    LevelHolds digitClass states restricted config column value level ∧
    (∀ earlier ∈ before, ¬ LevelHolds digitClass states restricted config column value earlier) ∧
    label = labelOf level

/-- Where a ZIP level holds for a row without a 5-digit ZIP, an earlier level holds already. -/
def Covered (value : List Char) : Prop :=
  ¬ IsZip 5 (extractZip5 digitClass value) →
    ∀ before level after, config.cascade = before ++ level :: after →
      level = "zip5" ∨ level = "zip3" →
      LevelHolds digitClass states restricted config column value level →
      ∃ earlier ∈ before, LevelHolds digitClass states restricted config column value earlier

end Levels


section Cascade

variable {digitClass : DigitClass} {states : StateMap} {restricted : List (List Char)}
  {config : GeoConfig} {column : List (List Char)} {value : List Char}

theorem counts_zip5 (z5 : List Char) :
    (countColumn digitClass states column).zip5 z5 = sharing digitClass column z5 := by
  simp only [countColumn, sharing, List.count, List.countP_map]
  exact List.countP_congr fun _ _ => by simp

theorem counts_zip3 (z3 : List Char) :
    (countColumn digitClass states column).zip3 z3 =
      column.countP (fun value => zip5ToZip3 (extractZip5 digitClass value) = z3) := by
  simp only [countColumn, List.count, List.countP_map]
  exact List.countP_congr fun _ _ => by simp

theorem counts_state {state : List Char} (some : state ≠ []) :
    (countColumn digitClass states column).state state =
      inState digitClass states column state := by
  have kept : (!state.isEmpty) = true := by simpa using some
  simp only [countColumn, inState]
  rw [List.count_filter (p := fun s : List Char => !s.isEmpty) kept, List.count, List.countP_map,
    List.countP_map]
  exact List.countP_congr fun _ _ => by simp

/-- What a level releases for a row. -/
def levelValue (digitClass : DigitClass) (states : StateMap) (value : List Char)
    (level : String) : List Char :=
  let z5 := extractZip5 digitClass value
  if level = "zip5" then z5 else if level = "zip3" then zip5ToZip3 z5
  else if level = "state" then states.get z5 else []

theorem cascadeOneRow_cons (level : String) (cascade : List String) :
    cascadeOneRow config.kThreshold (countColumn digitClass states column) restricted
        (extractZip5 digitClass value) (zip5ToZip3 (extractZip5 digitClass value))
        (states.get (extractZip5 digitClass value)) (level :: cascade) =
      if LevelHolds digitClass states restricted config column value level then
        (levelValue digitClass states value level, labelOf level)
      else
        cascadeOneRow config.kThreshold (countColumn digitClass states column) restricted
          (extractZip5 digitClass value) (zip5ToZip3 (extractZip5 digitClass value))
          (states.get (extractZip5 digitClass value)) cascade := by
  rw [cascadeOneRow]
  by_cases zip5 : level = "zip5"
  · subst zip5
    simp [LevelHolds, levelValue, labelOf, counts_zip5]
  by_cases zip3 : level = "zip3"
  · subst zip3
    simp only [LevelHolds, levelValue, labelOf, counts_zip3]
    by_cases listed : zip5ToZip3 (extractZip5 digitClass value) ∈ restricted <;> simp [listed]
  by_cases state : level = "state"
  · subst state
    simp only [LevelHolds, levelValue, labelOf]
    by_cases known : states.get (extractZip5 digitClass value) = []
    · simp [known]
    · simp [known, counts_state known]
  by_cases suppress : level = "suppress"
  · subst suppress
    simp [LevelHolds, levelValue, labelOf]
  · simp [LevelHolds, zip5, zip3, state, suppress]

variable (digitClass states restricted config column value) in
theorem cascadeOneRow_first (cascade : List String) (ends : "suppress" ∈ cascade) :
    ∃ before level after, cascade = before ++ level :: after ∧
      LevelHolds digitClass states restricted config column value level ∧
      (∀ earlier ∈ before,
        ¬ LevelHolds digitClass states restricted config column value earlier) ∧
      cascadeOneRow config.kThreshold (countColumn digitClass states column) restricted
          (extractZip5 digitClass value) (zip5ToZip3 (extractZip5 digitClass value))
          (states.get (extractZip5 digitClass value)) cascade =
        (levelValue digitClass states value level, labelOf level) := by
  induction cascade with
  | nil => cases ends
  | cons level cascade ih =>
      rw [cascadeOneRow_cons]
      split_ifs with holds
      · exact ⟨[], level, cascade, rfl, holds, nofun, rfl⟩
      · have other : "suppress" ≠ level :=
          fun same => holds (same ▸ .inr (.inr (.inr rfl)))
        obtain ⟨before, first, after, split, firstHolds, misses, row⟩ :=
          ih ((List.mem_cons.mp ends).resolve_left other)
        refine ⟨level :: before, first, after, by rw [split, List.cons_append], firstHolds, ?_, row⟩
        intro earlier member
        rcases List.mem_cons.mp member with same | later
        · exact same ▸ holds
        · exact misses earlier later

theorem suppress_of_accepted (accepted : validateGeoGeneralizeConfig config = .ok ()) :
    "suppress" ∈ config.cascade := by
  by_contra missing
  unfold validateGeoGeneralizeConfig at accepted
  split_ifs at accepted

theorem zip5ToZip3_isZip {z5 : List Char} (zip : IsZip 5 z5) : IsZip 3 (zip5ToZip3 z5) := by
  rw [zip5ToZip3, if_pos (by have := zip.1; omega)]
  exact ⟨by rw [List.length_take]; have := zip.1; omega,
    fun ch member => zip.2 ch (List.mem_of_mem_take member)⟩

theorem first_unique {holds : String → Prop} {before other after tail : List String}
    {level first : String} (split : before ++ level :: after = other ++ first :: tail)
    (levelHolds : holds level) (firstHolds : holds first) (misses : ∀ earlier ∈ before, ¬ holds earlier)
    (otherMisses : ∀ earlier ∈ other, ¬ holds earlier) : level = first := by
  induction before generalizing other with
  | nil =>
      cases other with
      | nil => exact (List.cons.inj split).1
      | cons head other =>
          rw [(List.cons.inj split).1] at levelHolds
          exact absurd levelHolds (otherMisses head List.mem_cons_self)
  | cons head before ih =>
      cases other with
      | nil =>
          rw [← (List.cons.inj split).1] at firstHolds
          exact absurd firstHolds (misses head List.mem_cons_self)
      | cons second other =>
          exact ih (List.cons.inj split).2
            (fun earlier member => misses earlier (List.mem_cons_of_mem _ member))
            (fun earlier member => otherMisses earlier (List.mem_cons_of_mem _ member))

theorem not_starts_with_digits {front text : List Char} (zip : IsZip 3 front)
    (letters : ∀ ch ∈ text, ch.isAlpha = true) : ¬ front <+: text := by
  intro starts
  cases front with
  | nil => exact absurd zip.1 (by simp)
  | cons ch front =>
      have letter := (Data.toNat_of_isAlpha (letters ch (starts.subset List.mem_cons_self))).1
      have digit := zip.2 ch List.mem_cons_self
      simp only [Char.isDigit, Bool.and_eq_true, decide_eq_true_eq, ge_iff_le] at digit
      have low : ch.toNat ≤ 57 := UInt32.le_iff_toNat_le.mp digit.2
      omega

theorem released_of_level {level : String}
    (holds : LevelHolds digitClass states restricted config column value level)
    (zip : level = "zip5" ∨ level = "zip3" → IsZip 5 (extractZip5 digitClass value)) :
    let out := levelValue digitClass states value level
    (out = [] ∨ IsZip 5 out ∧ config.kThreshold ≤ sharing digitClass column out ∨
      IsZip 3 out ∧ out ∉ restricted ∨
      out ≠ [] ∧ states.get (extractZip5 digitClass value) = out ∧
        config.kThreshold ≤ inState digitClass states column out) ∧
    ∀ front ∈ restricted, IsZip 3 front → front <+: out →
      IsZip 5 out ∧ config.kThreshold ≤ sharing digitClass column out := by
  rcases holds with ⟨rfl, enough⟩ | ⟨rfl, allowed, -⟩ | ⟨rfl, known, enough⟩ | rfl
  · have whole := zip (.inl rfl)
    exact ⟨.inr (.inl ⟨whole, enough⟩), fun _ _ _ _ => ⟨whole, enough⟩⟩
  · have short : IsZip 3 (zip5ToZip3 (extractZip5 digitClass value)) :=
      zip5ToZip3_isZip (zip (.inr rfl))
    refine ⟨.inr (.inr (.inl ⟨short, allowed⟩)), fun front listed isZip starts => ?_⟩
    have same : front = zip5ToZip3 (extractZip5 digitClass value) :=
      starts.eq_of_length (isZip.1.trans short.1.symm)
    exact absurd (same ▸ listed) allowed
  · refine ⟨.inr (.inr (.inr ⟨known, rfl, enough⟩)), fun front _ isZip starts => ?_⟩
    exact absurd starts (not_starts_with_digits isZip (states.letters _))
  · refine ⟨.inl rfl, fun front _ isZip starts => ?_⟩
    exact absurd starts (not_starts_with_digits isZip nofun)

theorem rowLaw_iff (accepted : validateGeoGeneralizeConfig config = .ok ()) :
    RowLaw digitClass states restricted config column value
        (cascadeOneRow config.kThreshold (countColumn digitClass states column) restricted
          (extractZip5 digitClass value) (zip5ToZip3 (extractZip5 digitClass value))
          (states.get (extractZip5 digitClass value)) config.cascade).1
        (cascadeOneRow config.kThreshold (countColumn digitClass states column) restricted
          (extractZip5 digitClass value) (zip5ToZip3 (extractZip5 digitClass value))
          (states.get (extractZip5 digitClass value)) config.cascade).2 ↔
      Covered digitClass states restricted config column value := by
  obtain ⟨before, level, after, split, holds, misses, row⟩ :=
    cascadeOneRow_first digitClass states restricted config column value config.cascade
      (suppress_of_accepted accepted)
  rw [row]
  constructor
  · intro law malformed front other back place kind otherHolds
    by_contra! earlier
    have same : level = other := first_unique (split.symm.trans place) holds otherHolds misses earlier
    have refused := law.malformed malformed
    subst same
    rcases kind with rfl | rfl
    · exact refused.1 rfl
    · exact refused.2 rfl
  · intro covered
    have zip : level = "zip5" ∨ level = "zip3" → IsZip 5 (extractZip5 digitClass value) := by
      intro kind
      by_contra malformed
      obtain ⟨earlier, member, earlierHolds⟩ := covered malformed before level after split kind holds
      exact misses earlier member earlierHolds
    obtain ⟨released, unrestricted⟩ := released_of_level holds zip
    refine ⟨released, fun malformed => ?_, unrestricted, before, level, after, split, holds, misses,
      rfl⟩
    rcases holds with ⟨rfl, -⟩ | ⟨rfl, -⟩ | ⟨rfl, -⟩ | rfl
    · exact absurd (zip (.inl rfl)) malformed
    · exact absurd (zip (.inr rfl)) malformed
    · exact ⟨by simp [labelOf], by simp [labelOf]⟩
    · exact ⟨by simp [labelOf], by simp [labelOf]⟩

/-- The promise holds of a column exactly when no malformed code comes first to a ZIP level that
holds for it. -/
theorem cascade_law_iff (digitClass : DigitClass) (states : StateMap)
    (restricted : List (List Char)) (config : GeoConfig) (column : List (List Char))
    (accepted : validateGeoGeneralizeConfig config = .ok ()) :
    List.Forall₂ (fun value row =>
        RowLaw digitClass states restricted config column value row.1 row.2)
      column (cascadeZipColumn digitClass states restricted config column) ↔
    ∀ value ∈ column, Covered digitClass states restricted config column value := by
  rw [cascadeZipColumn, List.forall₂_map_right_iff, List.forall₂_same]
  exact forall₂_congr fun value _ => rowLaw_iff accepted

/-- A class of digits and a table for samples. -/
def asciiDigits : DigitClass := ⟨Char.isDigit, fun _ _ => rfl⟩

def sampleStates : StateMap where
  get zip := if zip = "78701".toList then "TX".toList else []
  letters := by
    intro zip ch member
    split at member
    · have spelled : "TX".toList = ['T', 'X'] := rfl
      rw [spelled, List.mem_pair] at member
      obtain rfl | rfl := member
      · decide
      · decide
    · cases member

def sampleConfig : GeoConfig := ⟨"zip", ["zip5", "zip3", "state", "suppress"], 2⟩

theorem cascade_law_sample :
    List.Forall₂ (fun value row => RowLaw asciiDigits sampleStates ["036".toList] sampleConfig
          ["78701".toList, "78701-1234".toList, "03601".toList] value row.1 row.2)
        ["78701".toList, "78701-1234".toList, "03601".toList]
        (cascadeZipColumn asciiDigits sampleStates ["036".toList] sampleConfig
          ["78701".toList, "78701-1234".toList, "03601".toList]) ↔
      ∀ value ∈ ["78701".toList, "78701-1234".toList, "03601".toList],
        Covered asciiDigits sampleStates ["036".toList] sampleConfig
          ["78701".toList, "78701-1234".toList, "03601".toList] value :=
  cascade_law_iff asciiDigits sampleStates ["036".toList] sampleConfig
    ["78701".toList, "78701-1234".toList, "03601".toList] rfl

/-- A code cut to two digits is below every restricted prefix and is released as one. -/
theorem truncated_code_released :
    ¬ List.Forall₂ (fun value row => RowLaw asciiDigits sampleStates ["036".toList] sampleConfig
          ["03".toList] value row.1 row.2)
        ["03".toList]
        (cascadeZipColumn asciiDigits sampleStates ["036".toList] sampleConfig ["03".toList]) := by
  have released : cascadeZipColumn asciiDigits sampleStates ["036".toList] sampleConfig
      ["03".toList] = [("03".toList, "zip3")] := by decide +kernel
  rw [released, List.forall₂_cons]
  rintro ⟨law, -⟩
  exact (law.malformed (by decide +kernel)).2 rfl

end Cascade

end DecoyEngine.Transforms.GeoGeneralize
