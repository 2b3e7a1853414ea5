import DecoyEngine.Data.CumulativeTable
import Mathlib.Algebra.BigOperators.Ring.Finset
import Mathlib.Data.Nat.Cast.Field
import Mathlib.Data.Rat.Floor
import Mathlib.Tactic.NormNum

namespace DecoyEngine.Execution.Categorical

open DecoyEngine.Data

/-! The weighted draw of the `categorical` strategy (`_strategies/_categorical.py`): the table of
thresholds over a fixed number of buckets, and the category a derived bucket is looked up to. -/

structure StrategyError where
  code : String
  strategy : String
  message : String
deriving Repr, DecidableEq

/-- `_WEIGHTED_CDF_RES` -/
def weightedCdfRes : Nat := 1000000

/-- The value of a finite float: its denominator is a power of two. -/
structure ExactFloat where
  value : ℚ
  exponent : Nat
  den_eq : value.den = 2 ^ exponent

inductive Number where
  | int (value : ℤ)
  | float (value : ExactFloat)

inductive Weight where
  -- of a type that is not admitted
  | notNumber
  | nonFinite
  | number (value : Number)

def Number.value : Number → ℚ
  | .int value => value
  | .float value => value.value

def Number.asIntegerRatio : Number → ℤ × Nat
  | .int value => (value, 1)
  | .float value => (value.value.num, value.value.den)

/-- `_MAX_DOUBLE_RATIO` -/
def maxDoubleRatio : ℤ × ℤ := ((2 ^ 53 - 1) * 2 ^ 971, 1)

def refusal (code message : String) : StrategyError := ⟨code, "categorical", message⟩

def notANumber (i : Nat) : StrategyError :=
  refusal "categorical_weights_nonpositive"
    s!"categorical weight at index {i} is not a number; cannot normalize."

def notFinite (i : Nat) : StrategyError :=
  refusal "categorical_weights_nonpositive"
    s!"categorical weight at index {i} is NaN or infinite; cannot normalize."

def negativeWeight (i : Nat) : StrategyError :=
  refusal "categorical_weights_negative" s!"categorical weight at index {i} is negative."

def sumTooLarge : StrategyError :=
  refusal "categorical_weights_nonpositive"
    "categorical weights sum above the largest finite double; cannot normalize."

def sumZero : StrategyError :=
  refusal "categorical_weights_nonpositive" "categorical weights sum to 0; cannot normalize."

def belowResolution (i : Nat) : StrategyError :=
  refusal "categorical_weight_below_resolution"
    (s!"categorical weight at index {i} is below the CDF resolution " ++
      s!"(1 / {weightedCdfRes} of total). The category would never be " ++
      "selected; remove the category or raise its weight.")

def Weight.isNumber : Weight → Bool
  | .notNumber => false
  | _ => true

def admitWeights (weights : List Weight) : Except StrategyError (List Weight) :=
  match weights.findIdx? (!·.isNumber) with
  | some i => .error (notANumber i)
  | none => .ok weights

/-- The loop of `_exact_ratios`, at an index. -/
def ratiosFrom (i : Nat) : List Weight → Except StrategyError (List (ℤ × Nat))
  | [] => .ok []
  | .number value :: weights =>
      match ratiosFrom (i + 1) weights with
      | .error error => .error error
      | .ok ratios => .ok (value.asIntegerRatio :: ratios)
  | _ :: _ => .error (notFinite i)

def exactRatios (weights : List Weight) : Except StrategyError (List (ℤ × Nat)) :=
  match admitWeights weights with
  | .error error => .error error
  | .ok weights => ratiosFrom 0 weights

/-- The last loop of `_build_cdf`, at an index, a running sum and a previous threshold. -/
def thresholds (total : ℤ) (i : Nat) (running prevThreshold : ℤ) :
    List ℤ → Except StrategyError (List ℤ)
  | [] => .ok []
  | v :: scaled =>
      let running := running + v
      let threshold := (2 * running * weightedCdfRes + total) / (2 * total)
      if 0 < v ∧ threshold = prevThreshold then .error (belowResolution i)
      else
        match thresholds total (i + 1) running threshold scaled with
        | .error error => .error error
        | .ok cdf => .ok (threshold :: cdf)

/-- `_build_cdf`: the thresholds of the categories over `_WEIGHTED_CDF_RES` buckets, from the exact
ratios of the weights, or the first refusal that applies. -/
def buildCdf (weights : List Weight) : Except StrategyError (List ℤ) :=
  match exactRatios weights with
  | .error error => .error error
  | .ok ratios =>
      match ratios.findIdx? (·.1 < 0) with
      | some i => .error (negativeWeight i)
      | none =>
          let denom := (ratios.map Prod.snd).max?.getD 1
          let scaled := ratios.map fun ratio => ratio.1 * ((denom / ratio.2 : Nat) : ℤ)
          let total := scaled.sum
          if maxDoubleRatio.1 * denom < total * maxDoubleRatio.2 then .error sumTooLarge
          else if total = 0 then .error sumZero
          else thresholds total 0 0 0 scaled

/-- The draw of one row: its bucket looked up, clamped to the last category. -/
def drawnCategory {Category : Type u} (categories : List Category) (cdf : List ℤ) (bucket : Nat) :
    Option Category :=
  categories[min (bisectRight cdf (bucket : ℤ)) (categories.length - 1)]?

/-- The rows of the column; `derived` is `derive_index` before its reduction to the pool. -/
def maskRows {Category : Type u} {Key : Type v} (derived : Key → Nat) (categories : List Category)
    (cdf : Option (List ℤ)) (rows : List (Option Key)) : List (Option Category) :=
  rows.map fun row => row.bind fun key =>
    match cdf with
    | none => categories[derived key % categories.length]?
    | some cdf => drawnCategory categories cdf (derived key % weightedCdfRes)

/-- A positive weight whose interval has no bucket. -/
def vanishes (values : List ℚ) (i : Nat) : Bool :=
  values[i]?.any (0 < ·) && cut weightedCdfRes values (i + 1) = cut weightedCdfRes values i

/-- The rules of `_build_cdf` in their order, in terms of the exact weights. -/
def firstRefusal (values : List ℚ) : Option StrategyError :=
  match values.findIdx? (· < 0) with
  | some i => some (negativeWeight i)
  | none =>
      if (maxDoubleRatio.1 : ℚ) / maxDoubleRatio.2 < values.sum then some sumTooLarge
      else if values.sum = 0 then some sumZero
      else ((List.range values.length).find? (vanishes values)).map belowResolution

def exactCdf (values : List ℚ) : List ℤ :=
  (List.range values.length).map fun i => cut weightedCdfRes values (i + 1)

theorem ratiosFrom_number (i : Nat) (weights : List Number) :
    ratiosFrom i (weights.map .number) = .ok (weights.map Number.asIntegerRatio) := by
  induction weights generalizing i with
  | nil => rfl
  | cons weight weights ih => rw [List.map_cons, ratiosFrom, ih, List.map_cons]

theorem exactRatios_number (weights : List Number) :
    exactRatios (weights.map .number) = .ok (weights.map Number.asIntegerRatio) := by
  have admitted : (weights.map Weight.number).findIdx? (!·.isNumber) = none := by
    rw [List.findIdx?_eq_none_iff]
    intro weight member
    obtain ⟨value, -, rfl⟩ := List.mem_map.mp member
    rfl
  rw [exactRatios, admitWeights, admitted]
  exact ratiosFrom_number 0 weights

theorem threshold_eq (running : ℤ) {total : ℤ} (positive : 0 < total) :
    (2 * running * weightedCdfRes + total) / (2 * total) =
      halfUp ((weightedCdfRes : ℚ) * running / total) := by
  have total_ne : (total : ℚ) ≠ 0 := by exact_mod_cast positive.ne'
  have same : (weightedCdfRes : ℚ) * running / total + 1 / 2 =
      ((2 * running * weightedCdfRes + total : ℤ) : ℚ) / ((2 * total : ℤ) : ℚ) := by
    push_cast
    field_simp
  obtain ⟨double, double_eq⟩ := Int.eq_ofNat_of_zero_le (show 0 ≤ 2 * total by omega)
  rw [halfUp, same, double_eq, Int.cast_natCast, Rat.floor_intCast_div_natCast]

theorem threshold_cut {done rest : List ℤ} {v : ℤ} (positive : 0 < (done ++ v :: rest).sum) :
    (2 * (done.sum + v) * weightedCdfRes + (done ++ v :: rest).sum) /
        (2 * (done ++ v :: rest).sum) =
      cut weightedCdfRes ((done ++ v :: rest).map (Int.cast : ℤ → ℚ)) (done.length + 1) := by
  have taken : (done ++ v :: rest).take (done.length + 1) = done ++ [v] := by
    rw [List.take_append, List.take_of_length_le (Nat.le_succ _), Nat.add_sub_cancel_left]
    rfl
  have prefixSum : (done ++ [v]).sum = done.sum + v := by
    rw [List.sum_append, List.sum_singleton]
  rw [threshold_eq _ positive, cut, ← List.map_take, taken, ← prefixSum, Int.cast_list_sum,
    Int.cast_list_sum]

theorem thresholds_eq (done rest : List ℤ) (positive : 0 < (done ++ rest).sum) :
    thresholds (done ++ rest).sum done.length done.sum
        (cut weightedCdfRes ((done ++ rest).map (Int.cast : ℤ → ℚ)) done.length) rest =
      match (List.range' done.length rest.length).find?
          (vanishes ((done ++ rest).map Int.cast)) with
      | some i => .error (belowResolution i)
      | none => .ok ((List.range' done.length rest.length).map fun i =>
          cut weightedCdfRes ((done ++ rest).map (Int.cast : ℤ → ℚ)) (i + 1)) := by
  induction rest generalizing done with
  | nil => rfl
  | cons v rest ih =>
      have next := ih (done ++ [v])
      have whole : done ++ [v] ++ rest = done ++ v :: rest := by simp
      have prefixSum : (done ++ [v]).sum = done.sum + v := by
        rw [List.sum_append, List.sum_singleton]
      have prefixLength : (done ++ [v]).length = done.length + 1 := by simp
      rw [whole, prefixSum, prefixLength] at next
      have here : ((done ++ v :: rest).map (Int.cast : ℤ → ℚ))[done.length]? = some (v : ℚ) := by
        simp
      have vanishing : vanishes ((done ++ v :: rest).map Int.cast) done.length = true ↔
          0 < v ∧ cut weightedCdfRes ((done ++ v :: rest).map (Int.cast : ℤ → ℚ))
            (done.length + 1) =
              cut weightedCdfRes ((done ++ v :: rest).map (Int.cast : ℤ → ℚ)) done.length := by
        rw [vanishes, here, Option.any_some, Bool.and_eq_true, decide_eq_true_eq,
          decide_eq_true_eq, Int.cast_pos]
      simp only [thresholds, threshold_cut positive]
      rw [List.length_cons, List.range'_succ, List.find?_cons]
      by_cases gone : vanishes ((done ++ v :: rest).map Int.cast) done.length = true
      · rw [if_pos (vanishing.mp gone), gone]
      · rw [if_neg (fun both => gone (vanishing.mpr both)), Bool.eq_false_iff.mpr gone,
          next positive]
        cases (List.range' (done.length + 1) rest.length).find?
            (vanishes ((done ++ v :: rest).map Int.cast)) with
        | none => simp
        | some i => rfl

theorem asIntegerRatio_value (weight : Number) :
    weight.value = weight.asIntegerRatio.1 / (weight.asIntegerRatio.2 : ℚ) := by
  cases weight with
  | int value => simp [Number.value, Number.asIntegerRatio]
  | float value => exact (Rat.num_div_den value.value).symm

theorem asIntegerRatio_den (weight : Number) : ∃ k, weight.asIntegerRatio.2 = 2 ^ k := by
  cases weight with
  | int value => exact ⟨0, rfl⟩
  | float value => exact ⟨value.exponent, value.den_eq⟩

def commonDenominator (weights : List Number) : Nat :=
  ((weights.map Number.asIntegerRatio).map Prod.snd).max?.getD 1

theorem dvd_commonDenominator {weights : List Number} {weight : Number}
    (member : weight ∈ weights) :
    weight.asIntegerRatio.2 ∣ commonDenominator weights := by
  have among : weight.asIntegerRatio.2 ∈ (weights.map Number.asIntegerRatio).map Prod.snd :=
    List.mem_map_of_mem (List.mem_map_of_mem member)
  rw [commonDenominator]
  cases largest : ((weights.map Number.asIntegerRatio).map Prod.snd).max? with
  | none =>
      rw [List.max?_eq_none_iff.mp largest] at among
      cases among
  | some denom =>
      obtain ⟨isOne, le⟩ := List.max?_eq_some_iff.mp largest
      obtain ⟨ratio, inRatios, rfl⟩ := List.mem_map.mp isOne
      obtain ⟨other, -, rfl⟩ := List.mem_map.mp inRatios
      obtain ⟨k, power⟩ := asIntegerRatio_den weight
      obtain ⟨k', power'⟩ := asIntegerRatio_den other
      have below := le _ among
      rw [Option.getD_some, power, power'] at *
      exact pow_dvd_pow 2 ((Nat.pow_le_pow_iff_right (by decide)).mp below)

theorem commonDenominator_pos (weights : List Number) : 0 < commonDenominator weights := by
  rw [commonDenominator]
  cases largest : ((weights.map Number.asIntegerRatio).map Prod.snd).max? with
  | none => exact Nat.one_pos
  | some denom =>
      obtain ⟨isOne, -⟩ := List.max?_eq_some_iff.mp largest
      obtain ⟨ratio, inRatios, rfl⟩ := List.mem_map.mp isOne
      obtain ⟨other, -, rfl⟩ := List.mem_map.mp inRatios
      obtain ⟨k, power⟩ := asIntegerRatio_den other
      rw [Option.getD_some, power]
      exact Nat.two_pow_pos k

theorem scaled_value {weights : List Number} {weight : Number} (member : weight ∈ weights) :
    ((weight.asIntegerRatio.1 *
      ((commonDenominator weights / weight.asIntegerRatio.2 : Nat) : ℤ) : ℤ) : ℚ) =
      commonDenominator weights * weight.value := by
  obtain ⟨k, power⟩ := asIntegerRatio_den weight
  have den_ne : (weight.asIntegerRatio.2 : ℚ) ≠ 0 := by
    rw [power]
    exact_mod_cast (Nat.two_pow_pos k).ne'
  rw [asIntegerRatio_value, Int.cast_mul, Int.cast_natCast,
    Nat.cast_div (dvd_commonDenominator member) den_ne]
  field_simp

theorem cut_eq_of_scaled {factor : ℚ} (positive : 0 < factor) {values scaled : List ℚ}
    (scaling : scaled = values.map (factor * ·)) :
    cut weightedCdfRes scaled = cut weightedCdfRes values := by
  funext i
  rw [scaling, cut_scale positive]

theorem vanishes_of_scaled {factor : ℚ} (positive : 0 < factor) {values scaled : List ℚ}
    (scaling : scaled = values.map (factor * ·)) : vanishes scaled = vanishes values := by
  funext i
  rw [vanishes, vanishes, cut_eq_of_scaled positive scaling, scaling, List.getElem?_map]
  cases values[i]? with
  | none => rfl
  | some value =>
      rw [Option.map_some, Option.any_some, Option.any_some]
      simp only [mul_pos_iff_of_pos_left positive]

theorem sum_scaled (factor : ℚ) (values : List ℚ) :
    (values.map (factor * ·)).sum = factor * values.sum := by
  rw [List.sum_map_mul_left, List.map_id']

theorem findIdx_negative_scaled {factor : ℚ} (positive : 0 < factor) (values : List ℚ) :
    (values.map (factor * ·)).findIdx? (· < 0) = values.findIdx? (· < 0) := by
  have same : ((fun value : ℚ => decide (value < 0)) ∘ fun value => factor * value) =
      fun value => decide (value < 0) := by
    funext value
    rw [Function.comp_apply, decide_eq_decide, ← not_le, ← not_le, not_iff_not,
      mul_nonneg_iff_of_pos_left positive]
  rw [List.findIdx?_map, same]

theorem buildCdf_eq (weights : List Number) :
    buildCdf (weights.map .number) =
      match firstRefusal (weights.map Number.value) with
      | some error => .error error
      | none => .ok (exactCdf (weights.map Number.value)) := by
  have denomPos : (0 : ℚ) < commonDenominator weights := by
    exact_mod_cast commonDenominator_pos weights
  have scaling : (((weights.map Number.asIntegerRatio).map fun ratio =>
      ratio.1 * ((commonDenominator weights / ratio.2 : Nat) : ℤ)).map (Int.cast : ℤ → ℚ)) =
        (weights.map Number.value).map ((commonDenominator weights : ℚ) * ·) := by
    rw [List.map_map, List.map_map, List.map_map]
    exact List.map_congr_left fun weight member => scaled_value member
  have negatives : (weights.map Number.asIntegerRatio).findIdx? (·.1 < 0) =
      (weights.map Number.value).findIdx? (· < 0) := by
    rw [List.findIdx?_map, List.findIdx?_map]
    congr 1
    funext weight
    rw [Function.comp_apply, Function.comp_apply, decide_eq_decide]
    cases weight with
    | int value => exact Int.cast_lt_zero.symm
    | float value => exact Rat.num_neg
  rw [buildCdf, exactRatios_number]
  dsimp only
  rw [negatives, firstRefusal]
  cases negative : (weights.map Number.value).findIdx? (· < 0) with
  | some i => rfl
  | none =>
      rw [← commonDenominator]
      generalize (weights.map Number.asIntegerRatio).map (fun ratio =>
        ratio.1 * ((commonDenominator weights / ratio.2 : Nat) : ℤ)) = scaled at scaling ⊢
      generalize weights.map Number.value = values at negative scaling ⊢
      have total : (scaled.sum : ℚ) = commonDenominator weights * values.sum := by
        rw [Int.cast_list_sum, scaling, sum_scaled]
      have length : scaled.length = values.length := by
        rw [← List.length_map (f := (Int.cast : ℤ → ℚ)), scaling, List.length_map]
      have overMax :
          maxDoubleRatio.1 * commonDenominator weights < scaled.sum * maxDoubleRatio.2 ↔
            (maxDoubleRatio.1 : ℚ) / maxDoubleRatio.2 < values.sum := by
        have unit : maxDoubleRatio.2 = 1 := rfl
        rw [unit, mul_one, Int.cast_one, div_one, ← Int.cast_lt (R := ℚ), total, Int.cast_mul,
          Int.cast_natCast, mul_comm, mul_lt_mul_iff_right₀ denomPos]
      have isZero : scaled.sum = 0 ↔ values.sum = 0 := by
        rw [← Int.cast_eq_zero (α := ℚ), total, mul_eq_zero, or_iff_right denomPos.ne']
      have nonneg : 0 ≤ values.sum := List.sum_nonneg fun value member => by
        simpa using List.findIdx?_eq_none_iff.mp negative value member
      by_cases large : (maxDoubleRatio.1 : ℚ) / maxDoubleRatio.2 < values.sum
      · simp only [overMax.mpr large, large, if_true]
      by_cases zero : values.sum = 0
      · rw [if_neg (mt overMax.mp large), if_pos (isZero.mpr zero), if_neg large, if_pos zero]
      have positive : 0 < ([] ++ scaled).sum := by
        rw [List.nil_append, ← Int.cast_pos (R := ℚ), total]
        exact mul_pos denomPos (lt_of_le_of_ne nonneg (Ne.symm zero))
      have table := thresholds_eq [] scaled positive
      rw [List.nil_append, scaling, List.length_nil, List.sum_nil, cut_zero,
        vanishes_of_scaled denomPos rfl, cut_eq_of_scaled denomPos rfl, length,
        ← List.range_eq_range'] at table
      rw [if_neg (mt overMax.mp large), if_neg (mt isZero.mp zero), if_neg large, if_neg zero,
        table, exactCdf]
      cases (List.range values.length).find? (vanishes values) with
      | none => rfl
      | some i => rfl

theorem firstRefusal_scaled {factor : ℚ} (positive : 0 < factor) {values : List ℚ}
    (within : values.sum ≤ maxDoubleRatio.1 / maxDoubleRatio.2)
    (scaledWithin : (values.map (factor * ·)).sum ≤ maxDoubleRatio.1 / maxDoubleRatio.2) :
    firstRefusal (values.map (factor * ·)) = firstRefusal values := by
  rw [firstRefusal, firstRefusal, findIdx_negative_scaled positive,
    vanishes_of_scaled positive rfl, if_neg (not_lt.mpr within), if_neg (not_lt.mpr scaledWithin),
    List.length_map]
  have zero : (values.map (factor * ·)).sum = 0 ↔ values.sum = 0 := by
    rw [sum_scaled, mul_eq_zero, or_iff_right positive.ne']
  simp only [zero]

/-- The buckets of a category. -/
def buckets (cdf : List ℤ) (i : Nat) : ℤ := (cdf[i]?).getD 0 - intervalStart cdf i

/-- What a table of thresholds owes to the weights: one threshold for each, ascending to the
resolution; every share exact up to less than a bucket, none for a zero weight and one at least for
a positive one; and the bisection finds the owner of every bucket. -/
structure ExactTable (values : List ℚ) (cdf : List ℤ) : Prop where
  length : cdf.length = values.length
  sorted : cdf.Pairwise (· ≤ ·)
  last : cdf.getLast? = some (weightedCdfRes : ℤ)
  share : ∀ (i : Nat) (value : ℚ), values[i]? = some value →
    |(buckets cdf i : ℚ) - value * weightedCdfRes / values.sum| < 1
  zero : ∀ i : Nat, values[i]? = some 0 → buckets cdf i = 0
  positive : ∀ (i : Nat) (value : ℚ), values[i]? = some value → 0 < value → 1 ≤ buckets cdf i
  owner : ∀ bucket : Nat, bucket < weightedCdfRes → ∀ i : Nat,
    i = bisectRight cdf (bucket : ℤ) ↔
      intervalStart cdf i ≤ bucket ∧ ∃ threshold, cdf[i]? = some threshold ∧ bucket < threshold
  unclamped : ∀ bucket : Nat, bucket < weightedCdfRes →
    bisectRight cdf (bucket : ℤ) < values.length ∧
    min (bisectRight cdf (bucket : ℤ)) (values.length - 1) = bisectRight cdf (bucket : ℤ)

theorem exactCdf_at {values : List ℚ} {i : Nat} (inside : i < values.length) :
    (exactCdf values)[i]? = some (cut weightedCdfRes values (i + 1)) := by
  rw [exactCdf, List.getElem?_map, List.getElem?_range inside, Option.map_some]

theorem length_exactCdf (values : List ℚ) : (exactCdf values).length = values.length := by
  rw [exactCdf, List.length_map, List.length_range]

theorem intervalStart_exactCdf {values : List ℚ} {i : Nat} (inside : i < values.length) :
    intervalStart (exactCdf values) i = cut weightedCdfRes values i := by
  cases i with
  | zero => exact cut_zero.symm
  | succ i => rw [intervalStart, exactCdf_at (Nat.lt_of_succ_lt inside), Option.getD_some]

theorem buckets_exactCdf {values : List ℚ} {i : Nat} (inside : i < values.length) :
    buckets (exactCdf values) i =
      cut weightedCdfRes values (i + 1) - cut weightedCdfRes values i := by
  rw [buckets, exactCdf_at inside, Option.getD_some, intervalStart_exactCdf inside]

theorem exactCdf_sorted {values : List ℚ} (nonneg : ∀ value ∈ values, 0 ≤ value) :
    (exactCdf values).Pairwise (· ≤ ·) := by
  rw [exactCdf, List.pairwise_map]
  exact List.pairwise_lt_range.imp fun lt => cut_mono nonneg (Nat.succ_le_succ lt.le)

theorem exactCdf_last {values : List ℚ} (total : values.sum ≠ 0) :
    (exactCdf values).getLast? = some (weightedCdfRes : ℤ) := by
  have nonempty : 0 < values.length := by
    refine List.length_pos_iff.mpr fun empty => total ?_
    rw [empty, List.sum_nil]
  rw [List.getLast?_eq_getElem?, length_exactCdf, exactCdf_at (Nat.sub_lt nonempty Nat.one_pos),
    Nat.sub_add_cancel nonempty, cut_length total]

theorem exactCdf_table {values : List ℚ} (accepted : firstRefusal values = none) :
    ExactTable values (exactCdf values) := by
  rw [firstRefusal] at accepted
  cases negative : values.findIdx? (· < 0) with
  | some i =>
      rw [negative] at accepted
      cases accepted
  | none =>
      rw [negative] at accepted
      dsimp only at accepted
      split at accepted
      · cases accepted
      split at accepted
      · cases accepted
      rename_i total
      have visible := List.find?_eq_none.mp (Option.map_eq_none_iff.mp accepted)
      have nonneg : ∀ value ∈ values, 0 ≤ value := fun value member => by
        simpa using List.findIdx?_eq_none_iff.mp negative value member
      have sorted := exactCdf_sorted nonneg
      have inside : ∀ {bucket : Nat}, bucket < weightedCdfRes →
          bisectRight (exactCdf values) (bucket : ℤ) < values.length := by
        intro bucket below
        rw [← length_exactCdf]
        exact bisectRight_lt sorted (exactCdf_last total) (by exact_mod_cast below)
      refine ⟨length_exactCdf values, sorted, exactCdf_last total, ?_, ?_, ?_, ?_, ?_⟩
      · intro i value found
        rw [buckets_exactCdf (List.getElem?_eq_some_iff.mp found).1, mul_comm value]
        exact cut_share found
      · intro i found
        rw [buckets_exactCdf (List.getElem?_eq_some_iff.mp found).1, cut_succ_of_zero found,
          sub_self]
      · intro i value found positive
        have within := (List.getElem?_eq_some_iff.mp found).1
        rw [buckets_exactCdf within]
        have differ : cut weightedCdfRes values (i + 1) ≠ cut weightedCdfRes values i := by
          intro same
          refine visible i (List.mem_range.mpr within) ?_
          rw [vanishes, found, Option.any_some, decide_eq_true positive, decide_eq_true same]
          rfl
        have le : cut weightedCdfRes values i ≤ cut weightedCdfRes values (i + 1) :=
          cut_mono nonneg (Nat.le_succ i)
        omega
      · intro bucket below i
        exact bisectRight_owner sorted (Int.natCast_nonneg bucket) (exactCdf_last total)
          (by exact_mod_cast below) i
      · intro bucket below
        exact ⟨inside below, min_eq_left (Nat.le_sub_one_of_lt (inside below))⟩

/-- `_build_cdf` refuses by the first rule that applies, or its table is exact; and the weights
count only up to one positive factor. -/
theorem weighted_cdf_exact (weights : List Number) :
    (∀ error, buildCdf (weights.map .number) = .error error ↔
      firstRefusal (weights.map Number.value) = some error) ∧
    (∀ cdf, buildCdf (weights.map .number) = .ok cdf →
      ExactTable (weights.map Number.value) cdf ∧
      ∀ (Category Key : Type) (categories : List Category) (derived : Key → Nat)
        (rows : List (Option Key)), categories.length = weights.length →
        maskRows derived categories (some cdf) rows = rows.map fun row => row.bind fun key =>
          categories[bisectRight cdf ((derived key % weightedCdfRes : Nat) : ℤ)]?) ∧
    ∀ factor : ℚ, 0 < factor → ∀ scaled : List Number,
      scaled.map Number.value = (weights.map Number.value).map (factor * ·) →
      (weights.map Number.value).sum ≤ maxDoubleRatio.1 / maxDoubleRatio.2 →
      (scaled.map Number.value).sum ≤ maxDoubleRatio.1 / maxDoubleRatio.2 →
      buildCdf (scaled.map .number) = buildCdf (weights.map .number) := by
  refine ⟨?_, ?_, ?_⟩
  · intro error
    rw [buildCdf_eq]
    cases firstRefusal (weights.map Number.value) with
    | none => simp
    | some refused => simp
  · intro cdf built
    rw [buildCdf_eq] at built
    cases accepted : firstRefusal (weights.map Number.value) with
    | some refused =>
        rw [accepted] at built
        cases built
    | none =>
        rw [accepted] at built
        obtain rfl := Except.ok.inj built
        have table := exactCdf_table accepted
        refine ⟨table, fun Category Key categories derived rows length => ?_⟩
        refine List.map_congr_left fun row member => ?_
        cases row with
        | none => rfl
        | some key =>
            have below := Nat.mod_lt (derived key) (show 0 < weightedCdfRes by decide)
            have unclamped := (table.unclamped _ below).2
            rw [List.length_map, ← length] at unclamped
            rw [Option.bind_some, Option.bind_some]
            dsimp only
            rw [drawnCategory, unclamped]
  · intro factor positive scaled scaling within scaledWithin
    rw [scaling] at scaledWithin
    rw [buildCdf_eq, buildCdf_eq, scaling, firstRefusal_scaled positive within scaledWithin,
      exactCdf, exactCdf, cut_eq_of_scaled positive rfl, List.length_map]

-- 0.25, 1 and 0.75
example : (buildCdf [.number (.float ⟨mkRat 1 4, 2, by decide +kernel⟩), .number (.int 1),
    .number (.float ⟨mkRat 3 4, 2, by decide +kernel⟩)]).toOption =
      some [125000, 625000, 1000000] := by
  decide +kernel

end DecoyEngine.Execution.Categorical
