import DecoyEngine.DeclaredCasting.OutputMarks

namespace DecoyEngine.DeclaredCasting.Output

open DecoyEngine.Data hiding scaled
open DecoyEngine.DeclaredCasting.Numeric DecoyEngine.DeclaredCasting.NumberText
open DecoyEngine.DeclaredCasting.Cobol

/-! Formatting ends in a rendering that reads back or in a row failure, but for the values whose
rendering the inverse check cannot read. -/

/-- A format that the contract accepts: no digit pads, the zeros of `integer/zero-pad/v1` apart.
The contract refuses digits outside ASCII as well, which no number or date is written with. -/
structure AcceptedFormat where
  format : OutputFormat
  pad_not_digit : isZeroPad format = false → ∀ slot ∈ format.slot, slot.pad ∉ asciiDigits

def OutputError.registered : OutputError → Bool
  | .cobol .overflowError => false
  | _ => true

/-- The same number with the same sign. -/
def SameNumber (left right : Value) : Prop :=
  ∃ negative leftCoefficient leftExponent rightCoefficient rightExponent,
    left.asTuple = some (negative, leftCoefficient, leftExponent) ∧
      right.asTuple = some (negative, rightCoefficient, rightExponent) ∧
      Data.scaled leftCoefficient leftExponent = Data.scaled rightCoefficient rightExponent

/-- `back` is the value; a decimal may have another exponent. -/
def GivesBack (format : OutputFormat) (value back : OutputValue) : Prop :=
  match format.decimals with
  | none => back = value
  | some _ => SameNumber value.toNumber back.toNumber

/-- The outcome is a rendering or a registered row failure. -/
def Answers (format : OutputFormat) (value : OutputValue) : Prop :=
  (∃ emitted, compileFormatter format value = .ok emitted) ∨
    ∃ failure, compileFormatter format value = .error (.row failure) ∧ failure.registered = true

/-- Formatting answers, and a rendering without its padding is read as the value. -/
structure KeepsRowChannel (format : OutputFormat) (value : OutputValue) : Prop where
  answers : Answers format value
  reads_back : ∀ emitted, compileFormatter format value = .ok emitted →
    ∃ back, inverse format (probe format emitted) = .ok back ∧ GivesBack format value back

section Outcomes

variable {format : OutputFormat} {value : OutputValue} {emitted : Rendering}
  {failure : OutputError}

theorem compileFormatter_error (failed : formatValue format value = .error failure) :
    compileFormatter format value = .error (.row failure) := by
  rw [compileFormatter, failed]

theorem compileFormatter_reads (formatted : formatValue format value = .ok emitted)
    (reads : readsBack format value (probe format emitted) = true) :
    compileFormatter format value = .ok emitted := by
  rw [compileFormatter, formatted]
  exact if_pos reads

theorem compileFormatter_mismatch (formatted : formatValue format value = .ok emitted)
    (reads : readsBack format value (probe format emitted) = false) :
    compileFormatter format value = .error (mismatch format) := by
  rw [compileFormatter, formatted]
  exact if_neg (by rw [reads]; exact Bool.false_ne_true)

theorem compileFormatter_ok (run : compileFormatter format value = .ok emitted) :
    readsBack format value (probe format emitted) = true := by
  rw [compileFormatter] at run
  split at run
  · cases run
  rename_i output formatted
  rw [inverseChecked] at run
  split at run
  · rename_i reads
    rw [← Except.ok.inj run]
    exact reads
  · cases run

theorem not_answers_of_raised (raised : compileFormatter format value = .error notExactInverse) :
    ¬ Answers format value := by
  intro answers
  rcases answers with ⟨emitted, run⟩ | ⟨failure, run, -⟩
  · rw [raised] at run
    cases run
  · rw [raised] at run
    cases run

theorem textResult_error {ε : Type} {wrap : ε → OutputError} {result : Except ε (List Char)}
    (failed : textResult wrap result = .error failure) :
    ∃ error, result = .error error ∧ failure = wrap error := by
  cases result with
  | ok text => cases failed
  | error error => exact ⟨error, rfl, (Except.error.inj failed).symm⟩

theorem bytesResult_error {result : Except Cobol.Failure (List UInt8)}
    (failed : bytesResult result = .error failure) :
    ∃ error, result = .error error ∧ failure = .cobol error := by
  cases result with
  | ok bytes => cases failed
  | error error => exact ⟨error, rfl, (Except.error.inj failed).symm⟩

end Outcomes

section Fields

variable {α : Type} {spec : Picture} {length : Nat} {canonical : List α → List α}
  {parse : List α → Except Failure PyDecimal} {formatField : Value → Except Failure (List α)}
  {value : Value}

theorem field_registered (codec : ExactInverse spec length canonical parse formatField)
    {failure : Failure} (failed : formatField value = .error failure) :
    OutputError.registered (.cobol failure) = true := by
  by_cases holds : value.Bounded ∧ ∃ isNegative number, spec.Holds value isNegative number
  · obtain ⟨bounded, isNegative, number, holds⟩ := holds
    obtain ⟨raw, formatted, -⟩ := codec.parse_format value isNegative number bounded holds
    rw [formatted] at failed
    cases failed
  · obtain ⟨reason, isReason⟩ := codec.refuses value holds
    rw [isReason] at failed
    cases failed
    rfl

theorem field_read (codec : ExactInverse spec length canonical parse formatField) {raw : List α}
    (formatted : formatField value = .ok raw) :
    ∃ number negative, unscale value spec.scale spec.precision = .ok (number, negative) ∧
      parse raw = .ok (scaled number spec.scale negative) := by
  by_cases holds : value.Bounded ∧ ∃ isNegative number, spec.Holds value isNegative number
  · obtain ⟨bounded, negative, number, holds⟩ := holds
    obtain ⟨other, isOther, -, parsed⟩ := codec.parse_format value negative number bounded holds
    rw [formatted] at isOther
    obtain rfl := Except.ok.inj isOther
    exact ⟨number, negative, unscale_eq_ok.mpr ⟨bounded, holds.1, holds.2.1⟩, parsed⟩
  · obtain ⟨reason, isReason⟩ := codec.refuses value holds
    rw [isReason] at formatted
    cases formatted

end Fields

section Registered

variable {format : OutputFormat} {value : OutputValue} {failure : OutputError}

theorem integerText_registered {type : IntegerType}
    (failed : integerText type value = .error failure) : failure.registered = true := by
  unfold integerText at failed
  split at failed
  · split at failed
    · cases failed
    · cases failed
      rfl
  · cases failed
    rfl

theorem unpadded_registered (failed : unpadded format value = .error failure) :
    failure.registered = true := by
  cases format with
  | stringExact slot =>
      cases value <;> cases failed <;> rfl
  | integerAscii slot type | integerZeroPad slot type required zero =>
      obtain ⟨error, isError, rfl⟩ := textResult_error failed
      exact integerText_registered isError
  | decimalPlain slot spec | decimalGrouped slot spec | currency slot spec =>
      obtain ⟨error, -, rfl⟩ := textResult_error failed
      rfl
  | dateIso slot wide | dateStrftime slot dates wide =>
      obtain ⟨error, isError, rfl⟩ := textResult_error failed
      cases value <;> cases isError <;> rfl
  | overpunch spec =>
      obtain ⟨error, isError, rfl⟩ := textResult_error failed
      exact field_registered (cobol_codecs_exact spec).1 isError
  | zoned spec =>
      obtain ⟨error, isError, rfl⟩ := bytesResult_error failed
      exact field_registered (cobol_codecs_exact spec).2.1 isError
  | comp3 spec =>
      obtain ⟨error, isError, rfl⟩ := bytesResult_error failed
      exact field_registered (cobol_codecs_exact spec).2.2 isError

end Registered

section ReadBack

variable {format : OutputFormat} {value back : OutputValue} {probed : Rendering}

theorem readsBack_eq_true (reads : readsBack format value probed = true) :
    ∃ back expected, inverse format probed = .ok back ∧ normalized format value = some expected ∧
      same back expected = true := by
  rw [readsBack] at reads
  split at reads
  · rename_i back expected isBack isExpected
    exact ⟨back, expected, isBack, isExpected, reads⟩
  · cases reads

theorem onText_ok {α ε : Type} {invalid : OutputError} {wrap : ε → OutputError}
    {build : α → OutputValue} {parse : List Char → Except ε α}
    (read : onText invalid wrap build parse probed = .ok back) :
    ∃ raw found, probed = .text raw ∧ parse raw = .ok found ∧ back = build found := by
  cases probed with
  | bytes raw => cases read
  | text raw =>
      rw [onText] at read
      cases parsed : parse raw with
      | error failure =>
          rw [parsed] at read
          cases read
      | ok found =>
          rw [parsed] at read
          exact ⟨raw, found, rfl, parsed, (Except.ok.inj read).symm⟩

theorem eq_of_same {left right : OutputValue} (agree : same left right = true)
    (notDecimal : ∀ number, left ≠ decimalValue number) : left = right := by
  cases left with
  | text left =>
      cases right with
      | text right => rw [beq_iff_eq.mp agree]
      | number right => cases agree
      | date right => cases agree
  | date left =>
      cases right with
      | date right => rw [beq_iff_eq.mp agree]
      | text right => cases agree
      | number right => cases agree
  | number left =>
      cases left with
      | decimal left => exact absurd rfl (notDecimal left)
      | other => cases agree
      | int left =>
          cases right with
          | text right => cases agree
          | date right => cases agree
          | number right =>
              cases right with
              | int right => rw [beq_iff_eq.mp agree]
              | decimal right => cases agree
              | other => cases agree

theorem sameNumber_of_same {number : PyDecimal} {negative : Bool} {coefficient : Nat}
    {exponent : Int} (agree : same back (decimalValue number) = true)
    (isNumber : number = .finite negative coefficient exponent) :
    SameNumber back.toNumber (.decimal number) := by
  subst isNumber
  cases back with
  | text value => cases agree
  | date value => cases agree
  | number value =>
      cases value with
      | int value => cases agree
      | other => cases agree
      | decimal value =>
          change (value.exact == PyDecimal.exact (.finite negative coefficient exponent) &&
            isSigned value == negative) = true at agree
          rw [Bool.and_eq_true, beq_iff_eq, beq_iff_eq] at agree
          obtain ⟨exact, sign⟩ := agree
          cases value with
          | infinity negative => cases exact
          | finite backNegative backCoefficient backExponent =>
              obtain rfl : backNegative = negative := sign
              refine ⟨backNegative, _, _, _, _, rfl, rfl, ?_⟩
              rw [PyDecimal.exact_finite, PyDecimal.exact_finite, Option.some.injEq] at exact
              cases backNegative with
              | false => exact exact
              | true => exact neg_injective exact

theorem givesBack_of_readsBack (reads : readsBack format value probed = true) :
    ∃ back, inverse format probed = .ok back ∧ GivesBack format value back := by
  obtain ⟨back, expected, isBack, isExpected, agree⟩ := readsBack_eq_true reads
  refine ⟨back, isBack, ?_⟩
  rw [GivesBack]
  rw [normalized] at isExpected
  cases decimals : format.decimals with
  | some digits =>
      rw [decimals] at isExpected
      dsimp only at isExpected ⊢
      split at isExpected
      · cases isExpected
      rename_i number negative read
      obtain rfl := Option.some.inj isExpected
      obtain ⟨-, ⟨coefficient, exponent, tuple, numbers⟩, -⟩ := unscale_eq_ok.mp read
      obtain ⟨sign, backCoefficient, backExponent, _, _, isTuple, isNumber, sameNumbers⟩ :=
        sameNumber_of_same agree rfl
      obtain ⟨rfl, rfl, rfl⟩ : sign = negative ∧ _ ∧ _ := by
        simpa [Value.asTuple, scaled, eq_comm] using isNumber
      exact ⟨_, _, _, _, _, tuple, isTuple, numbers.trans sameNumbers.symm⟩
  | none =>
      rw [decimals] at isExpected
      obtain rfl := Option.some.inj isExpected
      refine eq_of_same agree ?_
      cases format with
      | stringExact slot | integerAscii slot type | integerZeroPad slot type required zero
      | dateIso slot wide | dateStrftime slot dates wide =>
          obtain ⟨raw, found, -, -, rfl⟩ := onText_ok isBack
          intro number isDecimal
          cases isDecimal
      | _ => cases decimals

end ReadBack

/-- The contract error is raised for the unreadable values and for no others. -/
def RowLaw (format : OutputFormat) (value : OutputValue) : Prop :=
  (unreadable format value = true → compileFormatter format value = .error notExactInverse) ∧
    (unreadable format value = false → Answers format value)

section Laws

variable {format : OutputFormat} {slot : Padded} {value : OutputValue} {width : Nat}
  {text : List Char}

theorem padText_cases (slot : Padded) (unit : WidthUnit) (text : List Char) :
    (slot.width = none ∧ padText slot unit text = .ok text) ∨
    ∃ width, slot.width = some width ∧
      ((width < measureText unit text ∧ padText slot unit text = .error .widthOverflow) ∨
        (measureText unit text ≤ width ∧ ∃ count,
          padText slot unit text = .ok (slot.align.padded slot.pad count text))) := by
  cases declared : slot.width with
  | none => exact .inl ⟨rfl, by rw [padText, declared]⟩
  | some width =>
      refine .inr ⟨width, rfl, ?_⟩
      rw [padText, declared]
      dsimp only
      by_cases narrow : (width : Int) - measureText unit text < 0
      · rw [if_pos narrow]
        exact .inl ⟨by omega, rfl⟩
      · rw [if_neg narrow]
        refine .inr ⟨by omega, ((width : Int) - measureText unit text).toNat, ?_⟩
        cases slot.align <;> rfl

theorem formatValue_slot (controls : format.slot = some slot)
    (notZeroPad : isZeroPad format = false) (rendered : unpadded format value = .ok (.text text)) :
    formatValue format value = (padText slot format.unit text).map .text := by
  rw [formatValue, kernel_eq_unpadded notZeroPad, rendered]
  dsimp only
  rw [notZeroPad, if_neg Bool.false_ne_true, controls]

theorem formatValue_failed (notZeroPad : isZeroPad format = false) {failure : OutputError}
    (failed : unpadded format value = .error failure) :
    formatValue format value = .error failure := by
  rw [formatValue, kernel_eq_unpadded notZeroPad, failed]

theorem probe_slot (controls : format.slot = some slot) (notZeroPad : isZeroPad format = false) :
    probe format (.text text) =
      if slot.width.isSome then .text (slot.align.strip slot.pad text) else .text text := by
  rw [probe, notZeroPad, if_neg Bool.false_ne_true, controls]

theorem unreadable_eq (isWidth : valueWidth format value = some width) :
    unreadable format value =
      ((format.width.all fun declared => width ≤ declared) &&
        (tooLong format || padStripsMark format value)) := by
  rw [unreadable, fits, isWidth]
  rfl

theorem answers_failed {failure : OutputError} (failed : formatValue format value = .error failure)
    (registered : failure.registered = true) : Answers format value :=
  .inr ⟨failure, compileFormatter_error failed, registered⟩

theorem rowLaw_failed {failure : OutputError} (noWidth : fits format value = false)
    (failed : formatValue format value = .error failure)
    (registered : failure.registered = true) : RowLaw format value := by
  have readable : unreadable format value = false := by
    rw [unreadable, noWidth, Bool.false_and]
  refine ⟨fun broken => ?_, fun _ => answers_failed failed registered⟩
  rw [readable] at broken
  cases broken

theorem rowLaw_checked {emitted : Rendering} (formatted : formatValue format value = .ok emitted)
    (isMismatch : mismatch format = notExactInverse)
    (checked : readsBack format value (probe format emitted) = !unreadable format value) :
    RowLaw format value := by
  constructor
  · intro broken
    rw [broken] at checked
    rw [compileFormatter_mismatch formatted checked, isMismatch]
  · intro readable
    rw [readable] at checked
    exact .inl ⟨emitted, compileFormatter_reads formatted checked⟩

/-- A written text survives its padding when its end is not the pad; the end that is the pad is a
mark, and what is left of the text lacks it. -/
theorem rowLaw_written (controls : format.slot = some slot) (notZeroPad : isZeroPad format = false)
    (isMismatch : mismatch format = notExactInverse) (notDigit : slot.pad ∉ asciiDigits)
    (isWidth : valueWidth format value = some width)
    (written : WrittenText format value width text) : RowLaw format value := by
  have formatted := formatValue_slot controls notZeroPad written.rendered
  have declared : format.width = slot.width := by rw [OutputFormat.width, controls]; rfl
  have whole : readsBack format value (.text text) = !tooLong format := by
    cases long : tooLong format with
    | true => exact written.long long
    | false => exact written.reads long
  have strips : padStripsMark format value =
      (slot.width.isSome && mark format value slot.align == some slot.pad) := by
    rw [padStripsMark, controls]
    rfl
  rcases padText_cases slot format.unit text with ⟨noWidth, padding⟩ | ⟨room, isRoom, padding⟩
  · refine rowLaw_checked (by rw [formatted, padding]; rfl) isMismatch ?_
    rw [probe_slot controls notZeroPad, noWidth, Option.isSome_none, if_neg Bool.false_ne_true,
      unreadable_eq isWidth, declared, strips, noWidth, whole, Option.all_none, Option.isSome_none,
      Bool.false_and, Bool.or_false, Bool.true_and]
  · rcases padding with ⟨narrow, padding⟩ | ⟨wide, count, padding⟩
    · refine rowLaw_failed ?_ (by rw [formatted, padding]; rfl) rfl
      rw [written.measure] at narrow
      rw [fits, isWidth, declared, isRoom]
      exact decide_eq_false (not_le.mpr narrow)
    · have enough : (format.width.all fun declared => width ≤ declared) = true := by
        rw [written.measure] at wide
        rw [declared, isRoom]
        exact decide_eq_true wide
      refine rowLaw_checked (by rw [formatted, padding]; rfl) isMismatch ?_
      rw [probe_slot controls notZeroPad, isRoom, Option.isSome_some, if_pos rfl, strip_padded,
        unreadable_eq isWidth, enough, Bool.true_and, strips, isRoom, Option.isSome_some,
        Bool.true_and]
      by_cases isPad : mark format value slot.align = some slot.pad
      · -- the mark goes with the padding, and no text without it is read as the value
        rw [isPad, beq_self_eq_true, Bool.or_true, Bool.not_true, ← Bool.not_eq_true]
        intro reads
        exact edge_strip_ne slot.align slot.pad text
          (written.marked slot.align slot.pad _ isPad reads)
      · have apart : slot.align.edge text ≠ some slot.pad := fun isEdge =>
          isPad (((written.ends slot.align).eq_pad_iff notDigit).mp isEdge)
        rw [strip_eq_self slot.align slot.pad text apart, beq_eq_false_iff_ne.mpr isPad,
          Bool.or_false, whole]

theorem readable_of_valueWidth (noWidth : valueWidth format value = none) :
    unreadable format value = false := by
  rw [unreadable, fits, noWidth]
  rfl

theorem rowLaw_answers (noWidth : valueWidth format value = none)
    (answers : Answers format value) : RowLaw format value := by
  refine ⟨fun broken => ?_, fun _ => answers⟩
  rw [readable_of_valueWidth noWidth] at broken
  cases broken

theorem string_law (slot : Padded) (value : OutputValue) : RowLaw (.stringExact slot) value := by
  refine rowLaw_answers rfl ?_
  cases formatted : formatValue (.stringExact slot) value with
  | ok emitted =>
      cases reads : readsBack (.stringExact slot) value (probe (.stringExact slot) emitted) with
      | true => exact .inl ⟨emitted, compileFormatter_reads formatted reads⟩
      | false => exact .inr ⟨.widthOverflow, compileFormatter_mismatch formatted reads, rfl⟩
  | error failure =>
      refine answers_failed formatted ?_
      cases value with
      | number value =>
          cases formatted
          rfl
      | date value =>
          cases formatted
          rfl
      | text chars =>
          have controls : (OutputFormat.stringExact slot).slot = some slot := rfl
          rw [formatValue_slot controls rfl rfl] at formatted
          rcases padText_cases slot (OutputFormat.stringExact slot).unit chars with
            ⟨-, padding⟩ | ⟨width, -, ⟨-, padding⟩ | ⟨-, count, padding⟩⟩
          · rw [padding] at formatted
            cases formatted
          · rw [padding] at formatted
            cases formatted
            rfl
          · rw [padding] at formatted
            cases formatted

theorem readsBack_decimal {probed : Rendering} {precision scale number : Nat} {negative : Bool}
    (decimals : format.decimals = some (precision, scale))
    (read : unscale value.toNumber scale precision = .ok (number, negative))
    (isBack : inverse format probed = .ok (decimalValue (scaled number scale negative))) :
    readsBack format value probed = true := by
  rw [readsBack, isBack, normalized, decimals]
  dsimp only
  rw [read]
  refine same_self _ fun isOther => ?_
  cases isOther

theorem formatValue_unslotted (controls : format.slot = none)
    (notZeroPad : isZeroPad format = false) : formatValue format value = unpadded format value := by
  rw [formatValue, kernel_eq_unpadded notZeroPad]
  cases unpadded format value with
  | error failure => rfl
  | ok emitted =>
      cases emitted with
      | bytes bytes => rfl
      | text text =>
          dsimp only
          rw [notZeroPad, if_neg Bool.false_ne_true, controls]

theorem probe_unslotted (controls : format.slot = none) (notZeroPad : isZeroPad format = false)
    (emitted : Rendering) : probe format emitted = emitted := by
  cases emitted with
  | bytes bytes => rfl
  | text text => rw [probe, notZeroPad, if_neg Bool.false_ne_true, controls]

theorem field_law {α : Type} {spec : Picture} {length : Nat} {canonical : List α → List α}
    {parse : List α → Except Failure PyDecimal} {formatField : Value → Except Failure (List α)}
    {embed : List α → Rendering} (codec : ExactInverse spec length canonical parse formatField)
    (controls : format.slot = none) (notZeroPad : isZeroPad format = false)
    (noWidth : valueWidth format value = none)
    (decimals : format.decimals = some (spec.precision, spec.scale))
    (isKernel : ∀ emitted, unpadded format value = .ok emitted →
      ∃ raw, formatField value.toNumber = .ok raw ∧ emitted = embed raw)
    (isInverse : ∀ raw, inverse format (embed raw) =
      ((parse raw).mapError OutputError.cobol).map decimalValue) : RowLaw format value := by
  have isFormat : formatValue format value = unpadded format value :=
    formatValue_unslotted controls notZeroPad
  refine rowLaw_answers noWidth ?_
  cases formatted : unpadded format value with
  | error failure =>
      exact answers_failed (isFormat.trans formatted) (unpadded_registered formatted)
  | ok emitted =>
      refine .inl ⟨emitted, compileFormatter_reads (isFormat.trans formatted) ?_⟩
      rw [probe_unslotted controls notZeroPad]
      obtain ⟨raw, run, rfl⟩ := isKernel emitted formatted
      obtain ⟨number, negative, read, parsed⟩ := field_read codec run
      refine readsBack_decimal decimals read ?_
      rw [isInverse, parsed]
      rfl

theorem cobol_law (spec : Picture) (value : OutputValue) :
    RowLaw (.overpunch spec) value ∧ RowLaw (.zoned spec) value ∧ RowLaw (.comp3 spec) value := by
  obtain ⟨overpunch, zoned, comp3⟩ := cobol_codecs_exact spec
  exact ⟨field_law overpunch rfl rfl rfl rfl (fun _ => textResult_ok) fun _ => rfl,
    field_law zoned rfl rfl rfl rfl (fun _ => bytesResult_ok) fun _ => rfl,
    field_law comp3 rfl rfl rfl rfl (fun _ => bytesResult_ok) fun _ => rfl⟩

theorem signAndDigits_intText (number : Int) :
    signAndDigits (intText number) =
      (if number < 0 then ['-'] else [], natText number.natAbs) := by
  cases number with
  | negSucc number =>
      rw [if_pos (Int.negSucc_lt_zero number)]
      rfl
  | ofNat number =>
      have nonnegative : ¬ Int.ofNat number < 0 := (Int.natCast_nonneg number).not_gt
      rw [if_neg nonnegative]
      have unsigned : (natText number).head? ≠ some '-' := by
        intro isMinus
        have digit := natText_mem_digits number '-' (List.mem_of_head? isMinus)
        revert digit
        decide
      change signAndDigits (natText number) = ([], natText number)
      unfold signAndDigits
      split
      · rename_i digits isText
        rw [isText] at unsigned
        exact absurd rfl unsigned
      · rfl

/-- An integer padded with zeros is its sign, zeros and its digits, in the declared width. -/
theorem zeroPad_intText {width : Nat} {number : Int}
    (wide : (intText number).length ≤ width) :
    ∃ zeros, zeroPad width (intText number) =
        .ok (signed (decide (number < 0)) (List.replicate zeros '0' ++ natText number.natAbs)) ∧
      (signed (decide (number < 0)) (List.replicate zeros '0' ++ natText number.natAbs)).length =
        width := by
  rw [intText_eq] at wide
  rw [zeroPad, signAndDigits_intText]
  by_cases negative : number < 0
  · rw [decide_eq_true negative] at wide ⊢
    rw [if_pos negative]
    have length : (natText number.natAbs).length + 1 ≤ width := wide
    refine ⟨width - 1 - (natText number.natAbs).length, ?_, ?_⟩
    · dsimp only
      rw [if_neg (by rw [List.length_singleton]; omega)]
      rw [show ((width : Int) - (['-'] : List Char).length).toNat = width - 1 by
        rw [List.length_singleton]; omega]
      rfl
    · change (List.replicate _ '0' ++ natText number.natAbs).length + 1 = width
      rw [List.length_append, List.length_replicate]
      omega
  · rw [decide_eq_false negative] at wide ⊢
    rw [if_neg negative]
    have length : (natText number.natAbs).length ≤ width := wide
    refine ⟨width - (natText number.natAbs).length, ?_, ?_⟩
    · dsimp only
      rw [if_neg (by rw [List.length_nil]; omega)]
      rw [show ((width : Int) - ([] : List Char).length).toNat = width by
        rw [List.length_nil]; omega]
      rfl
    · change (List.replicate _ '0' ++ natText number.natAbs).length = width
      rw [List.length_append, List.length_replicate]
      omega

theorem zeroPad_narrow {width : Nat} {number : Int} (narrow : width < (intText number).length) :
    zeroPad width (intText number) = .error .widthOverflow := by
  rw [intText_eq] at narrow
  rw [zeroPad, signAndDigits_intText]
  by_cases negative : number < 0
  · rw [decide_eq_true negative] at narrow
    rw [if_pos negative]
    have length : width < (natText number.natAbs).length + 1 := narrow
    dsimp only
    exact if_pos (by rw [List.length_singleton]; omega)
  · rw [decide_eq_false negative] at narrow
    rw [if_neg negative]
    have length : width < (natText number.natAbs).length := narrow
    dsimp only
    exact if_pos (by rw [List.length_nil]; omega)

theorem integerText_failed {type : IntegerType} (noWidth : integerWidth type value = none) :
    ∃ failure, integerText type value = .error failure := by
  unfold integerText
  split
  · rename_i number
    split
    · rename_i inside
      rw [integerWidth, if_pos inside] at noWidth
      cases noWidth
    · exact ⟨_, rfl⟩
  · exact ⟨_, rfl⟩

/-- An integer with zeros in front is read unless it is too long to be looked at. -/
theorem parse_zeroPadded {type : IntegerType} {number : Int} (zeros : Nat)
    (inside : (intBounds type).1 ≤ number ∧ number ≤ (intBounds type).2) {padded : List Char}
    (isPadded : padded =
      signed (decide (number < 0)) (List.replicate zeros '0' ++ natText number.natAbs)) :
    parseInteger type padded = .ok number ↔ padded.length ≤ maxText := by
  constructor
  · exact fun parsed => (readInt_of_parse parsed).1
  · intro short
    subst isPadded
    refine parseInteger_signed ⟨List.append_ne_nil_of_right_ne_nil _ (natText_ne_nil _), ?_⟩ short
      ?_ inside
    · intro ch member
      rcases List.mem_append.mp member with isZero | isDigit
      · rw [List.eq_of_mem_replicate isZero]
        decide
      · exact natText_mem_digits _ ch isDigit
    · rw [textNat_zeros]
      exact signed_textNat number

/-- Zeros are not stripped; only a width past what `parse_integer` looks at is not read back. -/
theorem zeroPad_law (slot : Padded) (type : IntegerType) (required : slot.width.isSome)
    (zero : slot.pad = '0' ∧ slot.align = .right) (value : OutputValue) :
    RowLaw (.integerZeroPad slot type required zero) value := by
  obtain ⟨width, declared⟩ := Option.isSome_iff_exists.mp required
  cases places : integerWidth type value with
  | none =>
      obtain ⟨failure, failed⟩ := integerText_failed places
      refine rowLaw_failed ?_ ?_ (integerText_registered failed)
      · rw [fits, valueWidth, places]
        rfl
      · rw [formatValue, kernel, failed]
  | some needed =>
      obtain ⟨number, rfl, inside, length⟩ := integerWidth_eq_some places
      have rendered : integerText type (.number (.int number)) = .ok (intText number) :=
        if_pos inside
      have isFits : fits (.integerZeroPad slot type required zero) (.number (.int number)) =
          decide (needed ≤ width) := by
        have declaredWidth : (OutputFormat.integerZeroPad slot type required zero).width =
          some width := declared
        rw [fits, valueWidth, places, declaredWidth]
        rfl
      by_cases wide : needed ≤ width
      · obtain ⟨zeros, run, filled⟩ := zeroPad_intText (length.trans_le wide)
        generalize isPadded :
          signed (decide (number < 0)) (List.replicate zeros '0' ++ natText number.natAbs) = padded
          at run filled
        have formatted : formatValue (.integerZeroPad slot type required zero)
            (.number (.int number)) = .ok (.text padded) := by
          rw [formatValue, kernel, rendered, declared, Option.getD_some]
          dsimp only
          rw [run]
          rfl
        have reads : readsBack (.integerZeroPad slot type required zero) (.number (.int number))
            (.text padded) = true ↔ parseInteger type padded = .ok number :=
          readsBack_integer rfl rfl
        have broken : unreadable (.integerZeroPad slot type required zero) (.number (.int number)) =
            decide (maxText < width) := by
          have unmarked : padStripsMark (.integerZeroPad slot type required zero)
              (.number (.int number)) = false := by
            change (slot.width.isSome && false) = false
            rw [Bool.and_false]
          rw [unreadable, isFits, decide_eq_true wide, unmarked, tooLong, declared,
            Option.getD_some, Bool.or_false, Bool.true_and]
        refine rowLaw_checked formatted rfl ?_
        change readsBack _ _ (.text padded) = _
        rw [broken, Bool.eq_iff_iff, reads, parse_zeroPadded zeros inside isPadded.symm, filled,
          Bool.not_eq_true', decide_eq_false_iff_not, not_lt]
      · have failed : formatValue (.integerZeroPad slot type required zero)
            (.number (.int number)) = .error .widthOverflow := by
          rw [formatValue, kernel, rendered, declared, Option.getD_some]
          dsimp only
          rw [zeroPad_narrow (by omega)]
          rfl
        exact rowLaw_failed (isFits.trans (decide_eq_false wide)) failed rfl

theorem slot_law (controls : format.slot = some slot) (notZeroPad : isZeroPad format = false)
    (isMismatch : mismatch format = notExactInverse) (notDigit : slot.pad ∉ asciiDigits)
    (unwritten : valueWidth format value = none →
      ∃ failure, unpadded format value = .error failure)
    (written : ∀ width, valueWidth format value = some width →
      ∃ text, WrittenText format value width text) : RowLaw format value := by
  cases isWidth : valueWidth format value with
  | none =>
      obtain ⟨failure, failed⟩ := unwritten isWidth
      refine rowLaw_failed ?_ (formatValue_failed notZeroPad failed) (unpadded_registered failed)
      rw [fits, isWidth]
      rfl
  | some width =>
      obtain ⟨text, isWritten⟩ := written width isWidth
      exact rowLaw_written controls notZeroPad isMismatch notDigit isWidth isWritten

theorem decimalWidth_eq_none {spec : NumberFormat} {signPlaces : Nat}
    (noWidth : decimalWidth spec signPlaces value = none) :
    ∃ reason, unscale value.toNumber spec.scale spec.precision = .error reason := by
  rw [decimalWidth] at noWidth
  split at noWidth
  · rename_i reason failed
    exact ⟨reason, failed⟩
  · cases noWidth

theorem dateText_failed {dates : DateFormat} (noWidth : dateValueWidth dates value = none) :
    dateText dates value = .error .dateInvalid := by
  cases value with
  | date date => cases noWidth
  | text text => rfl
  | number number => rfl

end Laws

theorem rowLaw (spec : AcceptedFormat) (value : OutputValue) : RowLaw spec.format value := by
  obtain ⟨format, notDigit⟩ := spec
  cases format with
  | stringExact slot => exact string_law slot value
  | integerAscii slot type =>
      refine slot_law rfl rfl rfl (notDigit rfl slot rfl) (fun noWidth => ?_) fun width =>
        integer_written slot
      obtain ⟨failure, failed⟩ := integerText_failed noWidth
      refine ⟨failure, ?_⟩
      change textResult id (integerText type value) = _
      rw [failed]
      rfl
  | integerZeroPad slot type required zero => exact zeroPad_law slot type required zero value
  | decimalPlain slot spec =>
      refine slot_law rfl rfl rfl (notDigit rfl slot rfl) (fun noWidth => ?_) fun width =>
        signed_written (plain_exact spec) rfl rfl rfl (fun _ => rfl) rfl
      obtain ⟨reason, failed⟩ := decimalWidth_eq_none noWidth
      refine ⟨.numeric reason, ?_⟩
      change textResult .numeric (formatPlain spec.plain value.toNumber) = _
      rw [formatPlain, failed]
      rfl
  | decimalGrouped slot spec =>
      refine slot_law rfl rfl rfl (notDigit rfl slot rfl) (fun noWidth => ?_) fun width =>
        signed_written (grouped_exact spec) rfl rfl rfl (fun _ => rfl) rfl
      obtain ⟨reason, failed⟩ := decimalWidth_eq_none noWidth
      refine ⟨.numeric reason, ?_⟩
      change textResult .numeric (formatPlain spec.toNumberFormat value.toNumber) = _
      rw [formatPlain, failed]
      rfl
  | dateIso slot wide =>
      refine slot_law rfl rfl rfl (notDigit rfl slot rfl) (fun noWidth => ?_) fun width =>
        date_written rfl rfl (fun _ => rfl) (fun _ _ => ?_) (decide_eq_false (by decide)).symm
      · refine ⟨.dateInvalid, ?_⟩
        change textResult id (dateText isoFormat value) = _
        rw [dateText_failed noWidth]
        rfl
      · rename_i align
        cases align <;> rfl
  | dateStrftime slot dates wide =>
      refine slot_law rfl rfl rfl (notDigit rfl slot rfl) (fun noWidth => ?_) fun width =>
        date_written rfl rfl (fun _ => rfl) (fun _ _ => rfl) rfl
      refine ⟨.dateInvalid, ?_⟩
      change textResult id (dateText dates value) = _
      rw [dateText_failed noWidth]
      rfl
  | currency slot spec =>
      refine slot_law rfl rfl rfl (notDigit rfl slot rfl) (fun noWidth => ?_) fun width =>
        currency_written slot
      obtain ⟨reason, failed⟩ := decimalWidth_eq_none (Option.map_eq_none_iff.mp noWidth)
      refine ⟨.numeric reason, ?_⟩
      change textResult .numeric (formatCurrency spec value.toNumber) = _
      rw [formatCurrency, failed]
      rfl
  | overpunch spec => exact (cobol_law spec value).1
  | zoned spec => exact (cobol_law spec value).2.1
  | comp3 spec => exact (cobol_law spec value).2.2

/-- The row channel is left exactly by a value that fits its declared width, where the rendering is
longer than the parser looks at or the pad is the mark at its side. -/
theorem formatter_row_channel_iff (spec : AcceptedFormat) (value : OutputValue) :
    KeepsRowChannel spec.format value ↔ unreadable spec.format value = false := by
  obtain ⟨raises, answers⟩ := rowLaw spec value
  constructor
  · intro keeps
    by_contra broken
    exact not_answers_of_raised (raises (by simpa using broken)) keeps.answers
  · intro readable
    exact ⟨answers readable, fun emitted run => givesBack_of_readsBack (compileFormatter_ok run)⟩

/-- `integer/ascii/v1` in six places, filled with minus signs from the left. -/
def minusFilled : AcceptedFormat where
  format :=
    .integerAscii
      { width := some 6
        widthUnit := some .codePoints
        pad := '-'
        align := .right
        width_range := fun declared isWidth => by
          obtain rfl := Option.some.inj isWidth
          decide
        unit_declared := fun _ => rfl
        pad_bytes := nofun }
      { signed := true, bitWidth := 16, bitWidth_mem := by decide }
  pad_not_digit := fun _ slot isSlot => by
    obtain rfl := Option.some.inj isSlot
    decide

/-- The sign of -42 is stripped with its padding, and 42 is not the value. -/
theorem minus_fill_leaves_row_channel :
    compileFormatter minusFilled.format (.number (.int (-42))) = .error notExactInverse ∧
      ¬ KeepsRowChannel minusFilled.format (.number (.int (-42))) := by
  have raised := (rowLaw minusFilled (.number (.int (-42)))).1 (by decide)
  exact ⟨raised, fun keeps => not_answers_of_raised raised keeps.answers⟩

end DecoyEngine.DeclaredCasting.Output
