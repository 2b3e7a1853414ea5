import DecoyEngine.Execution.FkKeys

namespace DecoyEngine.Execution

open DecoyEngine.Data

/-! Fractional numbers -/

theorem DoubleMagnitude.value_ne_natCast {magnitude : DoubleMagnitude}
    (fractional : magnitude.isInteger = false) (whole : Nat) : magnitude.value ≠ whole := by
  intro same
  have negative := DoubleMagnitude.exponent_neg fractional
  rw [DoubleMagnitude.value_of_negative negative, div_eq_iff (by positivity)] at same
  have multiple : magnitude.mantissa = whole * 2 ^ magnitude.fractionBits := by exact_mod_cast same
  simp [DoubleMagnitude.isInteger, multiple] at fractional

theorem KeyDecimal.scaled_ne_natCast {value : KeyDecimal} (fractional : value.isInteger = false)
    (whole : Nat) : scaled value.coefficient value.exponent ≠ whole := by
  intro same
  have negative : value.exponent < 0 := by
    simp only [isInteger, Bool.or_eq_false_iff, decide_eq_false_iff_not] at fractional
    omega
  rw [scaled_of_negative _ negative, div_eq_iff (by positivity)] at same
  have multiple : value.coefficient = whole * 10 ^ (-value.exponent).toNat := by
    exact_mod_cast same
  simp [isInteger, multiple] at fractional

/-- Where a fractional number comes from, given by its coefficient and exponent. -/
inductive Origin (coefficient : Nat) (exponent : Int) : Prop where
  | double (magnitude : DoubleMagnitude) (fractional : magnitude.isInteger = false)
      (value : scaled coefficient exponent = magnitude.value)
  | decimal (short : coefficient < 10 ^ 76) (places : -76 ≤ exponent)

theorem length_natText_le {value digits : Nat} (positive : 0 < value)
    (small : value < 10 ^ digits) : (natText value).length ≤ digits := by
  by_contra long
  have large := pow_le_of_length_natText positive (show digits < (natText value).length by omega)
  omega

theorem double_eq_of_close {left right : DoubleMagnitude} (leftFractional : left.isInteger = false)
    (rightFractional : right.isInteger = false)
    (close : |left.value - right.value| * 10 ^ 199 ≤ left.value + right.value) :
    left.value = right.value := by
  have small : 2 * 2 ^ 53 + 1 < 10 ^ 199 := by norm_num
  rcases Nat.le_total right.fractionBits left.fractionBits with finer | coarser
  · exact eq_of_close (DoubleMagnitude.double_gap leftFractional rightFractional finer) close small
  · rw [abs_sub_comm, add_comm] at close
    exact (eq_of_close (DoubleMagnitude.double_gap rightFractional leftFractional coarser)
      close small).symm

theorem double_eq_decimal_of_close {left : DoubleMagnitude} {coefficient : Nat} {exponent : Int}
    (fractional : left.isInteger = false) (places : -76 ≤ exponent)
    (close : |left.value - scaled coefficient exponent| * 10 ^ 199 ≤
      left.value + scaled coefficient exponent) :
    left.value = scaled coefficient exponent := by
  -- The decimal as a fraction over at most `10 ^ 76`.
  have ratio : ∃ numerator shift : Nat, shift ≤ 76 ∧
      scaled coefficient exponent = (numerator : ℚ) / ((10 ^ shift : Nat) : ℚ) := by
    rcases lt_or_ge exponent 0 with negative | nonnegative
    · exact ⟨coefficient, (-exponent).toNat, by omega, scaled_of_negative coefficient negative⟩
    · refine ⟨coefficient * 10 ^ exponent.toNat, 0, by omega, ?_⟩
      rw [scaled_of_nonnegative coefficient nonnegative, Nat.pow_zero, Nat.cast_one, div_one]
  obtain ⟨numerator, shift, few, isRatio⟩ := ratio
  have power : (10 : Nat) ^ shift ≤ 10 ^ 76 := Nat.pow_le_pow_right (by decide) few
  rw [isRatio] at close ⊢
  apply eq_of_close (DoubleMagnitude.fraction_gap fractional (by positivity)) close
  calc 2 * (2 ^ 53 * 10 ^ shift) + 1 ≤ 2 * (2 ^ 53 * 10 ^ 76) + 1 := by
        apply Nat.add_le_add_right
        exact Nat.mul_le_mul_left 2 (Nat.mul_le_mul_left _ power)
    _ < 10 ^ 199 := by norm_num

theorem scaled_eq_of_same_token {coefficient other : Nat} {exponent otherExponent : Int}
    {negative sign : Bool} (positive : 0 < coefficient) (otherPositive : 0 < other)
    (origin : Origin coefficient exponent) (otherOrigin : Origin other otherExponent)
    (same : (PyDecimal.finite negative coefficient exponent).normalize joinPrecision =
      (PyDecimal.finite sign other otherExponent).normalize joinPrecision) :
    negative = sign ∧ scaled coefficient exponent = scaled other otherExponent := by
  obtain ⟨signs, close⟩ := close_of_normalize_eq 199 (by decide) positive otherPositive same
  refine ⟨signs, ?_⟩
  cases origin with
  | double magnitude fractional value =>
      cases otherOrigin with
      | double magnitude' fractional' value' =>
          rw [value, value'] at close ⊢
          exact double_eq_of_close fractional fractional' close
      | decimal short places =>
          rw [value] at close ⊢
          exact double_eq_decimal_of_close fractional places close
  | decimal short places =>
      cases otherOrigin with
      | double magnitude' fractional' value' =>
          rw [value', abs_sub_comm, add_comm] at close
          rw [value']
          exact (double_eq_decimal_of_close fractional' places close).symm
      | decimal short' places' =>
          have few := length_natText_le positive short
          have few' := length_natText_le otherPositive short'
          exact scaled_eq_of_normalize_eq 199 (by decide) positive otherPositive
            (by omega) (by omega) same

/-- A key whose token carries the decimal tag. -/
inductive DecimalForm (value : KeyValue) : Prop where
  | infinity (negative : Bool)
      (number : value.number = some (.infinite negative))
      (body : value.body = (PyDecimal.infinity negative).repr)
  | finite (negative : Bool) (coefficient : Nat) (exponent : Int) (positive : 0 < coefficient)
      (origin : Origin coefficient exponent)
      (number : value.number = some (.finite (signedValue negative (scaled coefficient exponent))))
      (body : value.body =
        ((PyDecimal.finite negative coefficient exponent).normalize joinPrecision).repr)

theorem decimalJoinToken_eq {negative : Bool} {coefficient : Nat} {exponent : Int}
    (positive : 0 < coefficient) :
    decimalJoinToken (.finite negative coefficient exponent) =
      ((PyDecimal.finite negative coefficient exponent).normalize joinPrecision).repr := by
  obtain ⟨stripped, strippedExponent, isNormal, trailing, _⟩ :=
    normalize_finite (show 0 < 199 by decide) negative positive exponent
  have nonzero : stripped ≠ 0 := by
    intro zero
    rw [zero] at trailing
    exact trailing rfl
  rw [decimalJoinToken, joinPrecision, isNormal]
  simp only [if_neg nonzero]

theorem decimalForm {value : KeyValue} (normal : value.Normal) (tagged : value.tag = .dec) :
    DecimalForm value := by
  cases value with
  | float value =>
      cases value with
      | infinity negative => exact .infinity negative rfl rfl
      | finite negative magnitude =>
          obtain ⟨coefficient, exponent, isDecimal, isValue⟩ := magnitude.toDecimal_spec negative
          have positive : 0 < coefficient := by
            apply Nat.pos_of_ne_zero
            intro zero
            rw [zero, scaled, Nat.cast_zero, zero_mul] at isValue
            exact DoubleMagnitude.value_ne_natCast normal 0 (by rw [← isValue, Nat.cast_zero])
          refine .finite negative coefficient exponent positive
            (.double magnitude normal isValue) ?_ ?_
          · rw [isValue]
            rfl
          · rw [← decimalJoinToken_eq positive, ← isDecimal]
            rfl
  | decimal value =>
      have positive : 0 < value.coefficient := by
        apply Nat.pos_of_ne_zero
        intro zero
        apply KeyDecimal.scaled_ne_natCast normal 0
        rw [zero, scaled, Nat.cast_zero, zero_mul]
      refine .finite value.negative value.coefficient value.exponent positive
        (.decimal value.coefficient_lt value.exponent_ge) rfl ?_
      rw [← decimalJoinToken_eq positive]
      rfl
  | _ => cases tagged

theorem decimalForm_body_eq_iff {left right : KeyValue} (leftForm : DecimalForm left)
    (rightForm : DecimalForm right) : left.body = right.body ↔ left.number = right.number := by
  cases leftForm with
  | infinity negative number body =>
      cases rightForm with
      | infinity negative' number' body' =>
          rw [body, body', number, number']
          constructor
          · intro same
            have values := PyDecimal.repr_injective same
            injection values with signs
            rw [signs]
          · intro same
            injection same with same
            injection same with signs
            rw [signs]
      | finite negative' coefficient exponent positive origin number' body' =>
          obtain ⟨_, _, isNormal, _⟩ :=
            normalize_finite (show 0 < 199 by decide) negative' positive exponent
          rw [body, body', number, number', joinPrecision, isNormal]
          constructor
          · intro same
            cases PyDecimal.repr_injective same
          · intro same
            cases same
  | finite negative coefficient exponent positive origin number body =>
      cases rightForm with
      | infinity negative' number' body' =>
          obtain ⟨_, _, isNormal, _⟩ :=
            normalize_finite (show 0 < 199 by decide) negative positive exponent
          rw [body, body', number, number', joinPrecision, isNormal]
          constructor
          · intro same
            cases PyDecimal.repr_injective same
          · intro same
            cases same
      | finite negative' coefficient' exponent' positive' origin' number' body' =>
          rw [body, body', number, number']
          constructor
          · intro same
            obtain ⟨signs, values⟩ := scaled_eq_of_same_token positive positive' origin origin'
              (PyDecimal.repr_injective same)
            rw [signs, values]
          · intro same
            injection same with same
            injection same with same
            obtain ⟨signs, values⟩ :=
              signedValue_inj (scaled_pos positive _) (scaled_pos positive' _) same
            rw [signs]
            exact congrArg PyDecimal.repr (normalize_congr (show 0 < 199 by decide) positive
              positive' values)

theorem tagText_append_inj {left right : TokenTag} {leftBody rightBody : List Char}
    (same : left.text ++ leftBody = right.text ++ rightBody) :
    left = right ∧ leftBody = rightBody := by
  cases left <;> cases right <;> simp [TokenTag.text] at same <;> exact ⟨rfl, same⟩

theorem epochNanoseconds_injective {left right : NaiveTimestamp}
    (same : epochNanoseconds left = epochNanoseconds right) : left = right := by
  obtain ⟨days, _, ⟨seconds, secondsLt⟩, ⟨micros, microsLt⟩, ⟨nanos, nanosLt⟩⟩ := left
  obtain ⟨days', _, ⟨seconds', secondsLt'⟩, ⟨micros', microsLt'⟩, ⟨nanos', nanosLt'⟩⟩ := right
  simp only [epochNanoseconds] at same
  simp only [NaiveTimestamp.mk.injEq, Fin.mk.injEq]
  omega

theorem framed_injective {left right : List Char} (same : framed left = framed right) :
    left = right := by
  have appended : framed left ++ [] = framed right ++ [] := by rw [same]
  exact (framed_append_inj appended).1

/-- The dictionary's test on two keys: the same object (there is one NaT), or equal. -/
def sameKey (left right : KeyValue) : Prop :=
  pyEq left right = true ∨ (left = .notATime ∧ right = .notATime)

theorem pyEq_of_number {left right : KeyValue} {leftNumber rightNumber : PyNumber}
    (leftIs : left.number = some leftNumber) (rightIs : right.number = some rightNumber) :
    pyEq left right = true ↔ left.number = right.number := by
  rw [pyEq, leftIs, rightIs]
  simp

theorem pyEq_of_not_number {left right : KeyValue} (leftIs : left.number = none)
    (rightIs : right.number = none) : sameKey left right ↔ left = right := by
  rw [sameKey, pyEq, leftIs, rightIs]
  simp only [Bool.and_eq_true, decide_eq_true_eq]
  constructor
  · intro same
    rcases same with ⟨same, _⟩ | ⟨isLeft, isRight⟩
    · exact same
    · rw [isLeft, isRight]
  · intro same
    by_cases isTime : left = .notATime
    · exact Or.inr ⟨isTime, same.symm.trans isTime⟩
    · exact Or.inl ⟨same, isTime⟩

theorem sameKey_of_number {left right : KeyValue} {leftNumber rightNumber : PyNumber}
    (leftIs : left.number = some leftNumber) (rightIs : right.number = some rightNumber) :
    sameKey left right ↔ left.number = right.number := by
  rw [sameKey, pyEq_of_number leftIs rightIs, or_iff_left]
  intro isTime
  rw [isTime.1] at leftIs
  cases leftIs

theorem number_cases {value : KeyValue} {number : PyNumber} (isNumber : value.number = some number) :
    (∃ whole, value = .int whole) ∨ value.tag = .dec := by
  cases value with
  | int whole => exact Or.inl ⟨whole, rfl⟩
  | float value => exact Or.inr rfl
  | decimal value => exact Or.inr rfl
  | _ => cases isNumber

theorem tag_of_not_number {value : KeyValue} (notNumber : value.number = none) :
    value.tag ≠ .int ∧ value.tag ≠ .dec := by
  cases value with
  | int whole => cases notNumber
  | float value => cases value <;> cases notNumber
  | decimal value => cases notNumber
  | _ => simp [KeyValue.tag]

theorem tag_of_number {value : KeyValue} {number : PyNumber} (isNumber : value.number = some number) :
    value.tag = .int ∨ value.tag = .dec := by
  rcases number_cases isNumber with ⟨whole, isInt⟩ | isDec
  · rw [isInt]
    exact Or.inl rfl
  · exact Or.inr isDec

theorem eq_of_body_eq {left right : KeyValue} (leftIs : left.number = none)
    (rightIs : right.number = none) (tags : left.tag = right.tag)
    (bodies : left.body = right.body) : left = right := by
  have objects : ∀ value : List UInt8, "bytes:".toList ++ bytesRepr value ≠ "NaTType:NaT".toList := by
    intro value same
    have heads := congrArg List.head? same
    revert heads
    simp
  cases left with
  | int whole => cases leftIs
  | float value => cases value <;> cases leftIs
  | decimal value => cases leftIs
  | nullFkKey => cases right <;> first | rfl | cases tags
  | str text =>
      cases right with
      | str text' => rw [framed_injective bodies]
      | _ => cases tags
  | date ordinal =>
      cases right with
      | date ordinal' => rw [natText_injective bodies]
      | _ => cases tags
  | timestamp value =>
      cases right with
      | timestamp value' => rw [epochNanoseconds_injective (intText_injective bodies)]
      | _ => cases tags
  | bytes value =>
      cases right with
      | bytes value' => rw [bytesRepr_injective (List.append_cancel_left bodies)]
      | notATime => exact absurd bodies (objects value)
      | _ => cases tags
  | notATime =>
      cases right with
      | notATime => rfl
      | bytes value' => exact absurd bodies.symm (objects value')
      | _ => cases tags

theorem int_ne_decimalForm {whole : Int} {value : KeyValue} (normal : value.Normal)
    (tagged : value.tag = .dec) : (KeyValue.int whole).number ≠ value.number := by
  have fractional : ∀ {negative : Bool} {magnitude : ℚ}, 0 < magnitude →
      (∀ natural : Nat, magnitude ≠ natural) → (whole : ℚ) ≠ signedValue negative magnitude := by
    intro negative magnitude positive notNatural same
    apply notNatural whole.natAbs
    have absolute := congrArg abs same
    rw [Nat.cast_natAbs, Int.cast_abs, absolute]
    cases negative <;> simp [signedValue, abs_of_pos positive]
  intro same
  cases value with
  | float value =>
      cases value with
      | infinity negative => cases same
      | finite negative magnitude =>
          have notNatural := DoubleMagnitude.value_ne_natCast normal
          injection same with same
          injection same with same
          have nonnegative : 0 ≤ magnitude.value :=
            mul_nonneg (Nat.cast_nonneg _) (zpow_nonneg (by norm_num) _)
          have nonzero : 0 ≠ magnitude.value := fun zero => notNatural 0 (by simpa using zero.symm)
          exact fractional (lt_of_le_of_ne nonnegative nonzero) notNatural same
  | decimal value =>
      have notNatural := KeyDecimal.scaled_ne_natCast normal
      injection same with same
      injection same with same
      have nonnegative : 0 ≤ scaled value.coefficient value.exponent :=
        mul_nonneg (Nat.cast_nonneg _) (zpow_nonneg (by norm_num) _)
      have nonzero : 0 ≠ scaled value.coefficient value.exponent :=
        fun zero => notNatural 0 (by simpa using zero.symm)
      exact fractional (lt_of_le_of_ne nonnegative nonzero) notNatural same
  | _ => cases tagged

theorem numbers_token_iff {left right : KeyValue} {leftNumber rightNumber : PyNumber}
    (leftNormal : left.Normal) (rightNormal : right.Normal)
    (leftIs : left.number = some leftNumber) (rightIs : right.number = some rightNumber) :
    (left.tag = right.tag ∧ left.body = right.body) ↔ left.number = right.number := by
  rcases number_cases leftIs with ⟨whole, isInt⟩ | isDec
  · rcases number_cases rightIs with ⟨whole', isInt'⟩ | isDec'
    · rw [isInt, isInt']
      constructor
      · intro same
        have texts : intText whole = intText whole' := same.2
        rw [intText_injective texts]
      · intro same
        injection same with same
        injection same with same
        rw [Int.cast_injective same]
        exact ⟨rfl, rfl⟩
    · rw [isInt]
      constructor
      · intro same
        rw [isDec'] at same
        cases same.1
      · intro same
        exact absurd same (int_ne_decimalForm rightNormal isDec')
  · rcases number_cases rightIs with ⟨whole', isInt'⟩ | isDec'
    · rw [isInt']
      constructor
      · intro same
        rw [isDec] at same
        cases same.1
      · intro same
        exact absurd same.symm (int_ne_decimalForm leftNormal isDec)
    · have bodies :=
        decimalForm_body_eq_iff (decimalForm leftNormal isDec) (decimalForm rightNormal isDec')
      rw [isDec, isDec', ← bodies]
      simp

theorem token_eq_iff {left right : KeyValue} (leftNormal : left.Normal)
    (rightNormal : right.Normal) :
    left.tag.text ++ left.body = right.tag.text ++ right.body ↔ sameKey left right := by
  have split : left.tag.text ++ left.body = right.tag.text ++ right.body ↔
      left.tag = right.tag ∧ left.body = right.body :=
    ⟨tagText_append_inj, fun same => by rw [same.1, same.2]⟩
  rw [split]
  cases leftIs : left.number with
  | none =>
      cases rightIs : right.number with
      | none =>
          rw [pyEq_of_not_number leftIs rightIs]
          exact ⟨fun same => eq_of_body_eq leftIs rightIs same.1 same.2,
            fun same => by rw [same]; exact ⟨rfl, rfl⟩⟩
      | some number =>
          have leftTag := tag_of_not_number leftIs
          have rightTag := tag_of_number rightIs
          constructor
          · intro same
            rw [same.1] at leftTag
            exact absurd rightTag (by simp [leftTag.1, leftTag.2])
          · intro same
            rw [sameKey, pyEq, leftIs, rightIs] at same
            rcases same with impossible | ⟨_, isTime⟩
            · cases impossible
            · rw [isTime] at rightIs
              cases rightIs
  | some number =>
      cases rightIs : right.number with
      | none =>
          have leftTag := tag_of_number leftIs
          have rightTag := tag_of_not_number rightIs
          constructor
          · intro same
            rw [← same.1] at rightTag
            exact absurd leftTag (by simp [rightTag.1, rightTag.2])
          · intro same
            rw [sameKey, pyEq, leftIs, rightIs] at same
            rcases same with impossible | ⟨isTime, _⟩
            · cases impossible
            · rw [isTime] at leftIs
              cases leftIs
      | some number' =>
          rw [numbers_token_iff leftNormal rightNormal leftIs rightIs,
            sameKey_of_number leftIs rightIs]

/-- The components `fk_key_value` sends to the null sentinel. -/
def FkComponent.isNull : FkComponent → Bool
  | .null => true
  | .float .nan => true
  | _ => false

/-- One FK key component read twice: both missing, or present and equal for the parent map. -/
def sameComponent (left right : FkComponent) : Prop :=
  (left.isNull = true ∧ right.isNull = true) ∨
  (left.isNull = false ∧ right.isNull = false ∧ sameKey (fkKeyValue left) (fkKeyValue right))

theorem fkKeyValue_null_iff (component : FkComponent) :
    fkKeyValue component = .nullFkKey ↔ component.isNull = true := by
  cases component with
  | float value =>
      cases value with
      | nan => simp [fkKeyValue, FkComponent.isNull]
      | number value =>
          cases value with
          | infinity negative => simp [fkKeyValue, FkComponent.isNull]
          | finite negative magnitude =>
              simp only [fkKeyValue, FkComponent.isNull]
              split <;> simp
  | decimal value =>
      simp only [fkKeyValue, FkComponent.isNull]
      split <;> simp
  | _ => simp [fkKeyValue, FkComponent.isNull]

theorem sameKey_null_iff (value : KeyValue) : sameKey .nullFkKey value ↔ value = .nullFkKey := by
  have notNumber : KeyValue.nullFkKey.number = none := rfl
  cases isNumber : value.number with
  | none =>
      rw [pyEq_of_not_number notNumber isNumber]
      exact eq_comm
  | some number =>
      rw [sameKey, pyEq, notNumber, isNumber]
      constructor
      · intro same
        rcases same with impossible | ⟨impossible, _⟩ <;> cases impossible
      · intro isNull
        rw [isNull] at isNumber
        cases isNumber

theorem sameKey_symm {left right : KeyValue} (same : sameKey left right) : sameKey right left := by
  rcases same with equal | ⟨isLeft, isRight⟩
  · apply Or.inl
    rw [pyEq] at equal ⊢
    cases leftIs : left.number <;> cases rightIs : right.number <;>
      simp only [leftIs, rightIs, decide_eq_true_eq, Bool.and_eq_true, reduceCtorEq] at equal ⊢
    · exact ⟨equal.1.symm, by rw [← equal.1]; exact equal.2⟩
    · exact equal.symm
  · exact Or.inr ⟨isRight, isLeft⟩

theorem sameKey_fkKeyValue_iff (left right : FkComponent) :
    sameKey (fkKeyValue left) (fkKeyValue right) ↔ sameComponent left right := by
  rw [sameComponent]
  cases leftNull : left.isNull with
  | true =>
      rw [(fkKeyValue_null_iff left).mpr leftNull, sameKey_null_iff, fkKeyValue_null_iff]
      simp
  | false =>
      cases rightNull : right.isNull with
      | true =>
          simp only [Bool.false_eq_true, false_and, and_true, and_false, or_false, iff_false,
            Bool.true_eq_false]
          intro same
          have isNull := (sameKey_null_iff _).mp
            ((fkKeyValue_null_iff right).mpr rightNull ▸ sameKey_symm same)
          rw [(fkKeyValue_null_iff left).mp isNull] at leftNull
          cases leftNull
      | false => simp

theorem joinText_eq_iff (left right : FkComponent) :
    left.joinText = right.joinText ↔ sameComponent left right :=
  (token_eq_iff (fkKeyValue_normal left) (fkKeyValue_normal right)).trans
    (sameKey_fkKeyValue_iff left right)

theorem joinTextTuple_eq_iff (left right : List FkComponent) :
    joinTextTuple left = joinTextTuple right ↔ List.Forall₂ sameComponent left right := by
  have parts : joinTextTuple left = joinTextTuple right ↔
      left.map FkComponent.joinText = right.map FkComponent.joinText :=
    ⟨flatMap_framed_injective, fun same => by rw [joinTextTuple, joinTextTuple, same]⟩
  rw [parts, ← List.forall₂_eq_eq_eq, List.forall₂_map_left_iff, List.forall₂_map_right_iff]
  constructor
  · exact List.Forall₂.imp fun left right => (joinText_eq_iff left right).mp
  · exact List.Forall₂.imp fun left right => (joinText_eq_iff left right).mpr

/-- An int whose text is too long for `str`. -/
def FkComponent.isLongInt : FkComponent → Bool
  | .int value => 10 ^ intMaxStrDigits ≤ value.natAbs
  | _ => false

theorem natAbs_withSign (negative : Bool) (magnitude : Nat) :
    (withSign negative magnitude).natAbs = magnitude := by
  cases negative <;> simp [withSign]

theorem truncated_lt_of_double (magnitude : DoubleMagnitude) :
    magnitude.truncated < 10 ^ intMaxStrDigits := by
  have mantissa : magnitude.mantissa < 2 ^ 53 := magnitude.mantissa_lt
  have places : magnitude.exponent.toNat ≤ 971 := by
    have exponent := magnitude.exponent_le
    omega
  have below : magnitude.truncated ≤ magnitude.mantissa * 2 ^ magnitude.exponent.toNat := by
    rw [DoubleMagnitude.truncated]
    split
    · exact Nat.le_refl _
    · exact (Nat.div_le_self _ _).trans (Nat.le_mul_of_pos_right _ (by positivity))
  calc magnitude.truncated ≤ magnitude.mantissa * 2 ^ magnitude.exponent.toNat := below
    _ < 2 ^ 53 * 2 ^ magnitude.exponent.toNat :=
        Nat.mul_lt_mul_of_pos_right mantissa (by positivity)
    _ ≤ 10 ^ 53 * 10 ^ magnitude.exponent.toNat :=
        Nat.mul_le_mul (Nat.pow_le_pow_left (by decide) _) (Nat.pow_le_pow_left (by decide) _)
    _ = 10 ^ (53 + magnitude.exponent.toNat) := (Nat.pow_add _ _ _).symm
    _ ≤ 10 ^ intMaxStrDigits := Nat.pow_le_pow_right (by decide) (by rw [intMaxStrDigits]; omega)

theorem truncated_lt_of_decimal (value : KeyDecimal) :
    value.truncated < 10 ^ intMaxStrDigits := by
  have coefficient := value.coefficient_lt
  have places : value.exponent.toNat ≤ 76 := by
    have exponent := value.exponent_le
    omega
  have below : value.truncated ≤ value.coefficient * 10 ^ value.exponent.toNat := by
    rw [KeyDecimal.truncated]
    split
    · exact Nat.le_refl _
    · exact (Nat.div_le_self _ _).trans (Nat.le_mul_of_pos_right _ (by positivity))
  calc value.truncated ≤ value.coefficient * 10 ^ value.exponent.toNat := below
    _ < 10 ^ 76 * 10 ^ value.exponent.toNat :=
        Nat.mul_lt_mul_of_pos_right coefficient (by positivity)
    _ = 10 ^ (76 + value.exponent.toNat) := (Nat.pow_add _ _ _).symm
    _ ≤ 10 ^ intMaxStrDigits := Nat.pow_le_pow_right (by decide) (by rw [intMaxStrDigits]; omega)

theorem isPrintable_fkKeyValue (component : FkComponent) :
    (fkKeyValue component).isPrintable = !component.isLongInt := by
  have printable : ∀ {value : Int}, value.natAbs < 10 ^ intMaxStrDigits →
      (KeyValue.int value).isPrintable = true := by
    intro value small
    simp only [KeyValue.isPrintable, small, decide_true]
  cases component with
  | bool value =>
      have small : (if value then 1 else 0 : Int).natAbs ≤ 1 := by cases value <;> decide
      exact printable (small.trans_lt (Nat.one_lt_pow (by decide) (by decide)))
  | int value => simp only [fkKeyValue, KeyValue.isPrintable, FkComponent.isLongInt,
      ← decide_not, Nat.not_le]
  | float value =>
      rcases value with _ | _ | ⟨negative, magnitude⟩
      · rfl
      · rfl
      · simp only [fkKeyValue]
        split
        · apply printable
          rw [natAbs_withSign]
          exact truncated_lt_of_double magnitude
        · rfl
  | decimal value =>
      simp only [fkKeyValue]
      split
      · apply printable
        rw [natAbs_withSign]
        exact truncated_lt_of_decimal value
      · rfl
  | _ => rfl

theorem fkJoinKey_eq (component : FkComponent) :
    fkJoinKey component =
      if component.isLongInt then .error .valueError else .ok component.joinText := by
  simp only [fkJoinKey, isPrintable_fkKeyValue, FkComponent.joinText]
  cases component.isLongInt <;> rfl

theorem fkJoinKeyTuple_eq (values : List FkComponent) :
    fkJoinKeyTuple values =
      if values.any FkComponent.isLongInt then .error .valueError
      else .ok (joinTextTuple values) := by
  have parts : values.mapM fkJoinKey =
      if values.any FkComponent.isLongInt then .error .valueError
      else .ok (values.map FkComponent.joinText) := by
    induction values with
    | nil => rfl
    | cons value values ih =>
        rw [List.mapM_cons, ih, fkJoinKey_eq, List.any_cons]
        cases value.isLongInt with
        | true => rfl
        | false => cases values.any FkComponent.isLongInt <;> rfl
  rw [fkJoinKeyTuple, parts]
  cases values.any FkComponent.isLongInt <;> rfl

/-- Join tokens tell keys apart exactly as the parent map does; a NaT is a key of its own, and
only an int whose text is too long for `str` has no token. -/
theorem join_tokens_identify_keys :
    (∀ component, (fkKeyValue component).number = FkComponent.number component) ∧
    (∀ component, fkJoinKey component = .error .valueError ↔ component.isLongInt = true) ∧
    (∀ left right leftToken rightToken, fkJoinKey left = .ok leftToken →
      fkJoinKey right = .ok rightToken → (leftToken = rightToken ↔ sameComponent left right)) ∧
    (∀ values, fkJoinKeyTuple values = .error .valueError ↔
      ∃ component ∈ values, component.isLongInt = true) ∧
    ∀ left right leftToken rightToken, fkJoinKeyTuple left = .ok leftToken →
      fkJoinKeyTuple right = .ok rightToken →
        (leftToken = rightToken ↔ List.Forall₂ sameComponent left right) := by
  refine ⟨number_fkKeyValue, ?_, ?_, ?_, ?_⟩
  · intro component
    rw [fkJoinKey_eq]
    cases component.isLongInt <;> simp
  · intro left right leftToken rightToken isLeft isRight
    rw [fkJoinKey_eq] at isLeft isRight
    split at isLeft
    · cases isLeft
    · split at isRight
      · cases isRight
      · rw [← Except.ok.inj isLeft, ← Except.ok.inj isRight]
        exact joinText_eq_iff left right
  · intro values
    rw [fkJoinKeyTuple_eq, ← List.any_eq_true]
    cases values.any FkComponent.isLongInt <;> simp
  · intro left right leftToken rightToken isLeft isRight
    rw [fkJoinKeyTuple_eq] at isLeft isRight
    split at isLeft
    · cases isLeft
    · split at isRight
      · cases isRight
      · rw [← Except.ok.inj isLeft, ← Except.ok.inj isRight]
        exact joinTextTuple_eq_iff left right

theorem isLongInt_small {value : Int} (small : value.natAbs < 10 ^ 18) :
    (FkComponent.int value).isLongInt = false := by
  have limit : 10 ^ 18 ≤ 10 ^ intMaxStrDigits := Nat.pow_le_pow_right (by decide) (by decide)
  simp only [FkComponent.isLongInt, Nat.not_le.mpr (small.trans_le limit), decide_false]

theorem join_tokens_of_one :
    fkJoinKey (.bool true) = .ok (FkComponent.joinText (.bool true)) ∧
    fkJoinKey (.int 1) = .ok (FkComponent.joinText (.int 1)) ∧
    fkJoinKeyTuple [.bool true] = .ok (joinTextTuple [.bool true]) ∧
    fkJoinKeyTuple [.int 1] = .ok (joinTextTuple [.int 1]) ∧
    FkComponent.joinText (.bool true) = FkComponent.joinText (.int 1) ∧
    joinTextTuple [.bool true] = joinTextTuple [.int 1] := by
  have short : (FkComponent.int 1).isLongInt = false := isLongInt_small (by decide)
  have isBool : fkJoinKey (.bool true) = .ok (FkComponent.joinText (.bool true)) :=
    fkJoinKey_eq (.bool true)
  have isInt : fkJoinKey (.int 1) = .ok (FkComponent.joinText (.int 1)) := by
    rw [fkJoinKey_eq, short]
    rfl
  have boolTuple : fkJoinKeyTuple [.bool true] = .ok (joinTextTuple [.bool true]) :=
    fkJoinKeyTuple_eq [.bool true]
  have intTuple : fkJoinKeyTuple [.int 1] = .ok (joinTextTuple [.int 1]) := by
    rw [fkJoinKeyTuple_eq, List.any_cons, short]
    rfl
  have one : sameComponent (.bool true) (.int 1) := Or.inr ⟨rfl, rfl, Or.inl (by decide)⟩
  obtain ⟨-, -, single, -, tuple⟩ := join_tokens_identify_keys
  exact ⟨isBool, isInt, boolTuple, intTuple, (single _ _ _ _ isBool isInt).mpr one,
    (tuple _ _ _ _ boolTuple intTuple).mpr (.cons one .nil)⟩

/-- Missing for pandas: `None`, a NaN or a NaT. -/
def FkComponent.isNullLike (component : FkComponent) : Bool :=
  component.isNull || component = .notATime

theorem nat_token_is_not_null :
    ¬ ∀ left right, fkJoinKey left = fkJoinKey right ↔
      (left.isNullLike = true ∧ right.isNullLike = true) ∨
      (left.isNullLike = false ∧ right.isNullLike = false ∧
        pyEq (fkKeyValue left) (fkKeyValue right) = true) := by
  intro claimed
  have same : fkJoinKey .null = fkJoinKey .notATime :=
    (claimed .null .notATime).mpr (Or.inl (by decide))
  rw [fkJoinKey_eq, fkJoinKey_eq] at same
  have differ : FkComponent.joinText .null ≠ FkComponent.joinText .notATime := by decide
  exact differ (Except.ok.inj same)

end DecoyEngine.Execution
