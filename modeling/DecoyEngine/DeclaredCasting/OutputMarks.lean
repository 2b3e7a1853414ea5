import DecoyEngine.DeclaredCasting.OutputReadBack

namespace DecoyEngine.DeclaredCasting.Output

open DecoyEngine.Data hiding scaled
open DecoyEngine.DeclaredCasting.Numeric DecoyEngine.DeclaredCasting.NumberText

/-! Written values: how wide they are, and which characters that are no digits stand at their ends.
A pad that is such a mark is stripped together with it. -/

/-- A number has a sign; a negative zero has it too. -/
def isNegative (value : OutputValue) : Bool := value.toNumber.asTuple.any (·.1)

def signMark (negative : Bool) : Align → Option Char
  | .right => if negative then some '-' else none
  | .left => none

/-- The sign of a negative currency. -/
def currencySign (spec : Currency) : Align → Option Char
  | .right =>
      match spec.signStyle with
      | .leadingMinus => some '-'
      | .accountingParentheses => some '('
  | .left =>
      match spec.signStyle with
      | .leadingMinus => none
      | .accountingParentheses => some ')'

def tokenMark (spec : Currency) : Align → Option Char
  | .right =>
      match spec.tokenPosition with
      | .prefixed => spec.token.head?
      | .suffixed => none
  | .left =>
      match spec.tokenPosition with
      | .prefixed => none
      | .suffixed => spec.token.getLast?

/-- The sign, or else the token, where they stand at the end. -/
def currencyMark (spec : Currency) (negative : Bool) (align : Align) : Option Char :=
  (if negative then currencySign spec align else none).or (tokenMark spec align)

/-- The character at an end of the written value, where it is no digit. -/
def mark (format : OutputFormat) (value : OutputValue) (align : Align) : Option Char :=
  match format with
  | .integerAscii _ _ | .decimalPlain _ _ | .decimalGrouped _ _ =>
      signMark (isNegative value) align
  | .dateStrftime _ dates _ => dates.mark align
  | .currency _ spec => currencyMark spec (isNegative value) align
  | _ => none

/-- The pad of a declared width is the mark at its side. -/
def padStripsMark (format : OutputFormat) (value : OutputValue) : Bool :=
  format.slot.any fun slot =>
    slot.width.isSome && mark format value slot.align == some slot.pad

/-- The renderings of the format are longer than its parser looks at. -/
def tooLong : OutputFormat → Bool
  | .integerZeroPad slot _ _ _ => decide (maxText < slot.width.getD 0)
  | .dateStrftime _ dates _ => decide (32 < dateWidth dates)
  | _ => false

/-- Digits, group separators and point of an unscaled number. -/
def numberLength (spec : NumberFormat) (number : Nat) : Nat :=
  let whole := (natText (number / 10 ^ spec.scale)).length
  whole + (if spec.group.isSome then (whole - 1) / 3 else 0) +
    if spec.scale = 0 then 0 else spec.scale + 1

def integerWidth (type : IntegerType) : OutputValue → Option Nat
  | .number (.int value) =>
      if (intBounds type).1 ≤ value ∧ value ≤ (intBounds type).2 then
        some ((natText value.natAbs).length + if value < 0 then 1 else 0)
      else none
  | _ => none

def decimalWidth (spec : NumberFormat) (signWidth : Nat) (value : OutputValue) : Option Nat :=
  match unscale value.toNumber spec.scale spec.precision with
  | .error _ => none
  | .ok (number, negative) =>
      some (numberLength spec number + if negative then signWidth else 0)

def dateValueWidth (dates : DateFormat) : OutputValue → Option Nat
  | .date _ => some (dateWidth dates)
  | _ => none

/-- What the sign of a currency takes. -/
def signWidth (spec : Currency) : Nat :=
  match spec.signStyle with
  | .leadingMinus => 1
  | .accountingParentheses => 2

/-- The places a value takes in its format without padding, for the formats with declared widths;
none where the value is not of the declared range. -/
def valueWidth (format : OutputFormat) (value : OutputValue) : Option Nat :=
  match format with
  | .integerAscii _ type | .integerZeroPad _ type _ _ => integerWidth type value
  | .decimalPlain _ spec => decimalWidth spec.plain 1 value
  | .decimalGrouped _ spec => decimalWidth spec.toNumberFormat 1 value
  | .dateIso _ _ => dateValueWidth isoFormat value
  | .dateStrftime _ dates _ => dateValueWidth dates value
  | .currency _ spec =>
      (decimalWidth spec.toNumberFormat (signWidth spec) value).map
        (· + measureText format.unit spec.token)
  | _ => none

/-- The value has a rendering, and a declared width has room for it. -/
def fits (format : OutputFormat) (value : OutputValue) : Bool :=
  (valueWidth format value).any fun needed => format.width.all fun width => needed ≤ width

/-- The values a formatter cannot read back. -/
def unreadable (format : OutputFormat) (value : OutputValue) : Bool :=
  fits format value && (tooLong format || padStripsMark format value)

/-- A text is what the kernel writes for a value of the given width, and which texts are read as
the value. -/
structure WrittenText (format : OutputFormat) (value : OutputValue) (width : Nat)
    (text : List Char) : Prop where
  rendered : unpadded format value = .ok (.text text)
  measure : measureText format.unit text = width
  ends : ∀ align, EndsWith (mark format value align) (align.edge text)
  reads : tooLong format = false → readsBack format value (.text text) = true
  long : tooLong format = true → readsBack format value (.text text) = false
  marked : ∀ align ch raw, mark format value align = some ch →
    readsBack format value (.text raw) = true → align.edge raw = some ch

theorem same_self (value : OutputValue) (isNumber : value ≠ .number .other) :
    same value value = true := by
  cases value with
  | text value => exact beq_self_eq_true value
  | date value => exact beq_self_eq_true value
  | number value =>
      cases value with
      | int value => exact beq_self_eq_true value
      | decimal value => simp [same]
      | other => exact absurd rfl isNumber

section Integers

variable {type : IntegerType} {value : OutputValue} {width : Nat}

theorem integerWidth_eq_some (isWidth : integerWidth type value = some width) :
    ∃ number : Int, value = .number (.int number) ∧
      ((intBounds type).1 ≤ number ∧ number ≤ (intBounds type).2) ∧
      (intText number).length = width := by
  cases value with
  | text value => cases isWidth
  | date value => cases isWidth
  | number value =>
      cases value with
      | decimal value => cases isWidth
      | other => cases isWidth
      | int number =>
          rw [integerWidth] at isWidth
          split at isWidth
          · rename_i inside
            refine ⟨number, rfl, inside, ?_⟩
            rw [← Option.some.inj isWidth, intText_eq]
            by_cases negative : number < 0
            · rw [decide_eq_true negative, if_pos negative]
              rfl
            · rw [decide_eq_false negative, if_neg negative]
              rfl
          · cases isWidth

theorem readsBack_integer {format : OutputFormat} {raw : List Char} {number : Int}
    (decimals : format.decimals = none)
    (isInverse : inverse format = onText .integerInvalid id integerValue (parseInteger type)) :
    readsBack format (.number (.int number)) (.text raw) = true ↔
      parseInteger type raw = .ok number := by
  rw [readsBack, isInverse, normalized, decimals, onText]
  cases parseInteger type raw with
  | error failure => exact iff_of_false Bool.false_ne_true nofun
  | ok back =>
      change (back == number) = true ↔ _
      rw [beq_iff_eq, Except.ok.injEq]

theorem length_intText_short {number : Int}
    (inside : (intBounds type).1 ≤ number ∧ number ≤ (intBounds type).2) :
    (natText number.natAbs).length ≤ 21 := by
  obtain ⟨largest, -, magnitude, small⟩ := intBounds_magnitude type inside
  by_contra long
  have positive : 0 < number.natAbs := by
    by_contra zero
    rw [Nat.eq_zero_of_not_pos zero] at long
    exact long (by decide)
  have large := pow_le_of_length_natText positive (not_le.mp long)
  have power : (10 : Nat) ^ 20 * 10 = 10 ^ 21 := rfl
  omega

theorem signed_textNat (number : Int) :
    number = if decide (number < 0) = true then -(textNat (natText number.natAbs) : Int)
      else textNat (natText number.natAbs) := by
  rw [textNat_natText]
  by_cases negative : number < 0
  · rw [decide_eq_true negative, if_pos rfl]
    omega
  · rw [decide_eq_false negative, if_neg Bool.false_ne_true]
    omega

theorem integer_ends (number : Int) (align : Align) :
    EndsWith (signMark (decide (number < 0)) align) (align.edge (intText number)) := by
  have digits := natText_isNumeral number.natAbs
  rw [intText_eq]
  cases decide (number < 0) with
  | false => cases align <;> exact edge_numeral _ digits
  | true =>
      cases align with
      | right => rfl
      | left =>
          have behind := edge_left_append ['-'] digits.1
          change EndsWith none (Align.left.edge (['-'] ++ natText number.natAbs))
          rw [behind]
          exact edge_numeral .left digits

theorem integer_written (slot : Padded) (isWidth : integerWidth type value = some width) :
    ∃ text, WrittenText (.integerAscii slot type) value width text := by
  obtain ⟨number, rfl, inside, length⟩ := integerWidth_eq_some isWidth
  have short := length_intText_short inside
  have reads : ∀ raw : List Char,
      readsBack (.integerAscii slot type) (.number (.int number)) (.text raw) = true ↔
        parseInteger type raw = .ok number :=
    fun _ => readsBack_integer rfl rfl
  refine ⟨intText number, ?_, ?_, ?_, ?_, nofun, ?_⟩
  · rw [unpadded, integerText, if_pos inside]
    rfl
  · rw [measureText_ascii _ (utf8Size_intText number), length]
  · exact integer_ends number
  · intro _
    rw [reads, intText_eq]
    refine parseInteger_signed (natText_isNumeral _) ?_ (signed_textNat number) inside
    cases decide (number < 0)
    · exact short.trans (by decide)
    · change (natText number.natAbs).length + 1 ≤ 128
      omega
  · intro align ch raw isMark isRead
    have parsed := (readInt_of_parse ((reads raw).mp isRead)).2
    have negative : align = .right ∧ number < 0 ∧ ch = '-' := by
      change signMark (decide (number < 0)) align = some ch at isMark
      cases align with
      | left => cases isMark
      | right =>
          rw [signMark] at isMark
          split at isMark
          · rename_i negative
            exact ⟨rfl, of_decide_eq_true negative, (Option.some.inj isMark).symm⟩
          · cases isMark
    obtain ⟨rfl, negative, rfl⟩ := negative
    rw [parsed] at negative
    exact minus_of_readInt_neg negative

end Integers

section Dates

variable {format : OutputFormat} {dates : DateFormat} {value : OutputValue} {width : Nat}

theorem readsBack_date {raw : List Char} {date : Date} (decimals : format.decimals = none)
    (isInverse : inverse format = onText .dateInvalid id .date (parseDate dates)) :
    readsBack format (.date date) (.text raw) = true ↔ parseDate dates raw = .ok date := by
  rw [readsBack, isInverse, normalized, decimals, onText]
  cases parseDate dates raw with
  | error failure => exact iff_of_false Bool.false_ne_true nofun
  | ok back =>
      change (back == date) = true ↔ _
      rw [beq_iff_eq, Except.ok.injEq]

theorem date_written (decimals : format.decimals = none)
    (isInverse : inverse format = onText .dateInvalid id .date (parseDate dates))
    (isKernel : ∀ value, unpadded format value = textResult id (dateText dates value))
    (isMark : ∀ value align, mark format value align = dates.mark align)
    (isLong : tooLong format = decide (32 < dateWidth dates))
    (isWidth : dateValueWidth dates value = some width) :
    ∃ text, WrittenText format value width text := by
  cases value with
  | text value => cases isWidth
  | number value => cases isWidth
  | date date =>
      obtain rfl := Option.some.inj isWidth
      have reads : ∀ raw : List Char,
          readsBack format (.date date) (.text raw) = true ↔ parseDate dates raw = .ok date :=
        fun _ => readsBack_date decimals isInverse
      have rendered : dateText dates (.date date) =
          .ok (dates.parts.flatMap (DatePart.text date)) := rfl
      refine ⟨dates.parts.flatMap (DatePart.text date), ?_, ?_, ?_, ?_, ?_, ?_⟩
      · rw [isKernel, rendered]
        rfl
      · exact measure_dateText format.unit rendered
      · intro align
        rw [isMark]
        exact dateText_ends dates date align
      · intro short
        rw [isLong, decide_eq_false_iff_not] at short
        exact (reads _).mpr (parseDate_text date (not_lt.mp short))
      · intro long
        rw [isLong, decide_eq_true_iff] at long
        rw [← Bool.not_eq_true, reads]
        intro parsed
        have short := (parseDate_ok parsed).1
        rw [length_flatMap_text] at short
        omega
      · intro align ch raw isMarked isRead
        rw [isMark] at isMarked
        exact edge_of_parseDate isMarked ((reads raw).mp isRead)

end Dates

section Numbers

variable {spec : NumberFormat}

theorem number_ends {number whole frac : List Char} (parts : NumberParts spec number whole frac)
    (align : Align) : EndsWith none (align.edge number) := by
  cases align with
  | right =>
      obtain ⟨ch, digit, rest, rfl⟩ := parts.head
      exact ⟨ch, digit, rfl⟩
  | left =>
      rw [parts.number_eq, fraction]
      split
      · rename_i zero
        rw [List.append_nil]
        cases spec.group with
        | none => exact edge_numeral .left parts.isNumeral
        | some sep =>
            obtain ⟨head, groups, isWhole, short, threes⟩ := exists_groups whole parts.isNumeral.1
            have digits := parts.isNumeral.2
            rw [isWhole] at digits
            rw [isWhole, groupText_append sep short threes]
            cases List.eq_nil_or_concat' groups with
            | inl none =>
                subst none
                rw [List.flatMap_nil, List.append_nil]
                refine edge_numeral .left ⟨List.ne_nil_of_length_pos short.1, fun ch member => ?_⟩
                exact digits ch (List.mem_append_left _ member)
            | inr last =>
                obtain ⟨front, three, rfl⟩ := last
                have length := threes three (by simp)
                have nonempty : three ≠ [] := List.ne_nil_of_length_pos (by omega)
                have grouped : head ++ (front ++ [three]).flatMap (sep :: ·) =
                    (head ++ front.flatMap (sep :: ·) ++ [sep]) ++ three := by
                  simp
                rw [grouped, edge_left_append _ nonempty]
                refine edge_numeral .left ⟨nonempty, fun ch member => digits ch ?_⟩
                exact List.mem_append_right _ (List.mem_flatten.mpr ⟨three, by simp, member⟩)
      · rename_i positive
        have nonempty : frac ≠ [] := by
          intro none
          have length := parts.frac_length
          rw [none] at length
          exact positive length.symm
        have pointed : groupText whole spec.group ++ spec.radix :: frac =
            (groupText whole spec.group ++ [spec.radix]) ++ frac := by
          simp
        rw [pointed, edge_left_append _ nonempty]
        exact edge_numeral .left ⟨nonempty, parts.frac_digits⟩

theorem length_renderNumber_eq (number : Nat) :
    (renderNumber number spec.scale spec.radix spec.group).length = numberLength spec number := by
  have parts := renderNumber_parts spec number
  have fracLength :
      (fraction spec ((digitList spec.scale (number % 10 ^ spec.scale)).map digitChar)).length =
        if spec.scale = 0 then 0 else spec.scale + 1 := by
    rw [fraction]
    split
    · rfl
    · rw [List.length_cons, parts.frac_length]
  rw [parts.number_eq, List.length_append, length_groupText (natText_ne_nil _), fracLength,
    numberLength]

theorem measure_renderNumber_eq (unit : WidthUnit) (number : Nat) :
    measureText unit (renderNumber number spec.scale spec.radix spec.group) =
      numberLength spec number := by
  rw [measureText_ascii unit (utf8Size_renderNumber spec number), length_renderNumber_eq]

theorem decimalWidth_eq_some {value : OutputValue} {signPlaces width : Nat}
    (isWidth : decimalWidth spec signPlaces value = some width) :
    ∃ number negative, unscale value.toNumber spec.scale spec.precision = .ok (number, negative) ∧
      isNegative value = negative ∧
      width = numberLength spec number + if negative then signPlaces else 0 := by
  rw [decimalWidth] at isWidth
  split at isWidth
  · cases isWidth
  rename_i number negative read
  obtain ⟨-, ⟨coefficient, exponent, tuple, -⟩, -⟩ := unscale_eq_ok.mp read
  exact ⟨number, negative, read, by rw [isNegative, tuple]; rfl, (Option.some.inj isWidth).symm⟩

theorem readsBack_number {format : OutputFormat} {value : OutputValue} {invalid : OutputError}
    {parse : List Char → Except Reason PyDecimal} {number : Nat} {negative : Bool} {raw : List Char}
    (decimals : format.decimals = some (spec.precision, spec.scale))
    (isInverse : inverse format = onText invalid .numeric decimalValue parse)
    (read : unscale value.toNumber spec.scale spec.precision = .ok (number, negative)) :
    readsBack format value (.text raw) = true ↔ ∃ back, parse raw = .ok back ∧
      back.exact = (scaled number spec.scale negative).exact ∧ isSigned back = negative := by
  rw [readsBack, isInverse, normalized, decimals, onText]
  dsimp only
  rw [read]
  cases parse raw with
  | error failure =>
      refine iff_of_false Bool.false_ne_true fun found => ?_
      obtain ⟨back, isOk, -⟩ := found
      cases isOk
  | ok back =>
      change (back.exact == (scaled number spec.scale negative).exact &&
        isSigned back == negative) = true ↔ _
      rw [Bool.and_eq_true, beq_iff_eq, beq_iff_eq]
      constructor
      · exact fun agree => ⟨back, rfl, agree⟩
      · intro found
        obtain ⟨other, isOk, agree⟩ := found
        rw [Except.ok.inj isOk]
        exact agree

/-- A decimal format whose texts are exact: what is written is read back, and what is read as the
value is written like it. -/
theorem number_written {format : OutputFormat} {value : OutputValue} {invalid : OutputError}
    {Writes : Bool → List Char → List Char → Prop} {canonical : List Char → List Char}
    {parse : List Char → Except Reason PyDecimal} {kernelOf : Value → Except Reason (List Char)}
    {number width : Nat} {negative : Bool} {text : List Char}
    (isExact : ExactText spec Writes canonical parse kernelOf)
    (decimals : format.decimals = some (spec.precision, spec.scale))
    (isInverse : inverse format = onText invalid .numeric decimalValue parse)
    (isKernel : unpadded format value = textResult .numeric (kernelOf value.toNumber))
    (read : unscale value.toNumber spec.scale spec.precision = .ok (number, negative))
    (rendered : kernelOf value.toNumber = .ok text)
    (measure : measureText format.unit text = width)
    (ends : ∀ align, EndsWith (mark format value align) (align.edge text))
    (short : tooLong format = false)
    (writes : ∀ align ch digits raw, mark format value align = some ch →
      Writes negative digits raw → align.edge raw = some ch) :
    WrittenText format value width text where
  rendered := by
    rw [isKernel, rendered]
    rfl
  measure := measure
  ends := ends
  reads := by
    intro _
    obtain ⟨bounded, isValue, fitting⟩ := unscale_eq_ok.mp read
    obtain ⟨raw, isRaw, parsed⟩ :=
      isExact.parse_format value.toNumber negative number bounded ⟨isValue, fitting⟩
    rw [rendered] at isRaw
    obtain rfl := Except.ok.inj isRaw
    exact (readsBack_number decimals isInverse read).mpr ⟨_, parsed, rfl, rfl⟩
  long := by
    intro long
    rw [short] at long
    cases long
  marked := by
    intro align ch raw isMark isRead
    obtain ⟨back, parsed, -, sign⟩ := (readsBack_number decimals isInverse read).mp isRead
    obtain ⟨backNegative, digits, coefficient, isWritten, -, rfl, -⟩ := isExact.exact raw back parsed
    obtain rfl : backNegative = negative := sign
    exact writes align ch digits raw isMark isWritten

theorem signMark_eq_some {negative : Bool} {align : Align} {ch : Char}
    (isMark : signMark negative align = some ch) : align = .right ∧ negative = true ∧ ch = '-' := by
  cases align with
  | left => cases isMark
  | right =>
      cases negative with
      | false => cases isMark
      | true => exact ⟨rfl, rfl, (Option.some.inj isMark).symm⟩

theorem signed_ends {number : List Char} (ends : ∀ align, EndsWith none (Align.edge align number))
    (negative : Bool) (align : Align) :
    EndsWith (signMark negative align) (align.edge (signed negative number)) := by
  cases negative with
  | false => cases align <;> exact ends _
  | true =>
      cases align with
      | right => rfl
      | left =>
          have nonempty : number ≠ [] := by
            rintro rfl
            obtain ⟨ch, -, isEdge⟩ := ends .left
            cases isEdge
          change EndsWith none (Align.left.edge (['-'] ++ number))
          rw [edge_left_append _ nonempty]
          exact ends .left

theorem signed_writes {negative : Bool} {align : Align} {ch : Char} {digits raw : List Char}
    (isMark : signMark negative align = some ch) (writes : SignWrites negative digits raw) :
    align.edge raw = some ch := by
  obtain ⟨rfl, rfl, rfl⟩ := signMark_eq_some isMark
  rcases writes with rfl | ⟨isPositive, -⟩
  · rfl
  · cases isPositive

theorem measure_signed (unit : WidthUnit) (negative : Bool) (number : List Char) :
    measureText unit (signed negative number) =
      measureText unit number + if negative then 1 else 0 := by
  cases negative with
  | false => rfl
  | true =>
      have minus : measureText unit ['-'] = 1 := measureText_ascii unit (by decide)
      have whole := measureText_append unit ['-'] number
      rw [minus, Nat.add_comm] at whole
      exact whole

theorem signed_written {format : OutputFormat} {value : OutputValue} {invalid : OutputError}
    {canonical : List Char → List Char} {parse : List Char → Except Reason PyDecimal} {width : Nat}
    (isExact : ExactText spec SignWrites canonical parse (formatPlain spec))
    (decimals : format.decimals = some (spec.precision, spec.scale))
    (isInverse : inverse format = onText invalid .numeric decimalValue parse)
    (isKernel : unpadded format value = textResult .numeric (formatPlain spec value.toNumber))
    (isMark : ∀ align, mark format value align = signMark (isNegative value) align)
    (short : tooLong format = false) (isWidth : decimalWidth spec 1 value = some width) :
    ∃ text, WrittenText format value width text := by
  obtain ⟨number, negative, read, isNegative, rfl⟩ := decimalWidth_eq_some isWidth
  rw [isNegative] at isMark
  refine ⟨signed negative (renderNumber number spec.scale spec.radix spec.group),
    number_written isExact decimals isInverse isKernel read ?_ ?_ ?_ short ?_⟩
  · rw [formatPlain, read]
  · rw [measure_signed, measure_renderNumber_eq]
  · intro align
    rw [isMark]
    exact signed_ends (number_ends (renderNumber_parts spec number)) negative align
  · intro align ch digits raw marked writes
    rw [isMark] at marked
    exact signed_writes marked writes

end Numbers

section CurrencyText

variable {spec : Currency} {negative : Bool} {align : Align} {ch : Char} {number : List Char}

theorem withToken_nonempty (spec : Currency) (number : List Char) : spec.withToken number ≠ [] := by
  have token := spec.token_nonempty
  rw [Currency.withToken]
  cases spec.tokenPosition with
  | prefixed => exact List.append_ne_nil_of_left_ne_nil token number
  | suffixed => exact List.append_ne_nil_of_right_ne_nil number token

theorem edge_withToken_some (isMark : tokenMark spec align = some ch) (number : List Char) :
    align.edge (spec.withToken number) = some ch := by
  rw [← isMark, Currency.withToken]
  cases align with
  | right =>
      cases position : spec.tokenPosition with
      | prefixed =>
          rw [tokenMark, position]
          exact edge_right_append spec.token_nonempty number
      | suffixed =>
          rw [tokenMark, position] at isMark
          cases isMark
  | left =>
      cases position : spec.tokenPosition with
      | prefixed =>
          rw [tokenMark, position] at isMark
          cases isMark
      | suffixed =>
          rw [tokenMark, position]
          exact edge_left_append number spec.token_nonempty

theorem edge_withToken_none (isMark : tokenMark spec align = none) (nonempty : number ≠ []) :
    align.edge (spec.withToken number) = align.edge number := by
  rw [Currency.withToken]
  cases align with
  | right =>
      cases position : spec.tokenPosition with
      | prefixed =>
          rw [tokenMark, position] at isMark
          exact absurd (List.head?_eq_none_iff.mp isMark) spec.token_nonempty
      | suffixed => exact edge_right_append nonempty spec.token
  | left =>
      cases position : spec.tokenPosition with
      | prefixed => exact edge_left_append spec.token nonempty
      | suffixed =>
          rw [tokenMark, position] at isMark
          exact absurd (List.getLast?_eq_none_iff.mp isMark) spec.token_nonempty

theorem edge_withSign (spec : Currency) (negative : Bool) (align : Align) {body : List Char}
    (nonempty : body ≠ []) :
    align.edge (spec.withSign negative body) =
      (if negative then currencySign spec align else none).or (align.edge body) := by
  rw [Currency.withSign]
  cases negative with
  | false => rfl
  | true =>
      rw [if_pos rfl, if_pos rfl]
      cases style : spec.signStyle with
      | leadingMinus =>
          cases align with
          | right =>
              rw [currencySign, style]
              rfl
          | left =>
              rw [currencySign, style]
              exact edge_left_append ['-'] nonempty
      | accountingParentheses =>
          cases align with
          | right =>
              rw [currencySign, style]
              rfl
          | left =>
              rw [currencySign, style]
              change (('(' :: body) ++ [')']).getLast? = some ')'
              exact List.getLast?_concat

theorem currency_writes (isMark : currencyMark spec negative align = some ch) (number : List Char) :
    align.edge (spec.withSign negative (spec.withToken number)) = some ch := by
  rw [edge_withSign spec negative align (withToken_nonempty spec number)]
  rw [currencyMark] at isMark
  cases sign : (if negative then currencySign spec align else none) with
  | some other =>
      rw [sign] at isMark
      exact isMark
  | none =>
      rw [sign] at isMark
      exact edge_withToken_some isMark number

theorem currency_ends (ends : ∀ align, EndsWith none (Align.edge align number)) (align : Align) :
    EndsWith (currencyMark spec negative align)
      (align.edge (spec.withSign negative (spec.withToken number))) := by
  cases isMark : currencyMark spec negative align with
  | some ch => exact currency_writes isMark number
  | none =>
      rw [currencyMark, Option.or_eq_none_iff] at isMark
      have nonempty : number ≠ [] := by
        rintro rfl
        obtain ⟨ch, -, isEdge⟩ := ends .left
        cases isEdge
      rw [edge_withSign spec negative align (withToken_nonempty spec number), isMark.1,
        Option.none_or, edge_withToken_none isMark.2 nonempty]
      exact ends align

theorem measure_currency (unit : WidthUnit) (spec : Currency) (negative : Bool)
    (number : List Char) :
    measureText unit (spec.withSign negative (spec.withToken number)) =
      measureText unit number + (if negative then signWidth spec else 0) +
        measureText unit spec.token := by
  have body : measureText unit (spec.withToken number) =
      measureText unit number + measureText unit spec.token := by
    rw [Currency.withToken]
    cases spec.tokenPosition with
    | prefixed => rw [measureText_append, Nat.add_comm]
    | suffixed => rw [measureText_append]
  rw [Currency.withSign, signWidth]
  generalize spec.withToken number = inner at body
  cases negative with
  | false =>
      rw [if_neg Bool.false_ne_true, if_neg Bool.false_ne_true, body]
      omega
  | true =>
      rw [if_pos rfl, if_pos rfl]
      cases spec.signStyle with
      | leadingMinus =>
          have minus : measureText unit ['-'] = 1 := measureText_ascii unit (by decide)
          have whole := measureText_append unit ['-'] inner
          rw [minus, body] at whole
          refine whole.trans ?_
          dsimp only
          omega
      | accountingParentheses =>
          have opening : measureText unit ['('] = 1 := measureText_ascii unit (by decide)
          have closing : measureText unit [')'] = 1 := measureText_ascii unit (by decide)
          have front := measureText_append unit ['('] inner
          have whole := measureText_append unit (['('] ++ inner) [')']
          rw [front, opening, closing, body] at whole
          refine whole.trans ?_
          dsimp only
          omega

theorem currency_written (slot : Padded) {value : OutputValue} {width : Nat}
    (isWidth : valueWidth (.currency slot spec) value = some width) :
    ∃ text, WrittenText (.currency slot spec) value width text := by
  obtain ⟨places, isPlaces, rfl⟩ := Option.map_eq_some_iff.mp isWidth
  obtain ⟨number, negative, read, isNegative, rfl⟩ := decimalWidth_eq_some isPlaces
  refine ⟨spec.withSign negative (spec.withToken
      (renderNumber number spec.scale spec.radix spec.group)),
    number_written (currency_exact spec) rfl rfl rfl read ?_ ?_ ?_ rfl ?_⟩
  · rw [formatCurrency, read]
  · rw [measure_currency, measure_renderNumber_eq]
  · intro align
    rw [mark, isNegative]
    exact currency_ends (number_ends (renderNumber_parts spec.toNumberFormat number)) align
  · intro align ch digits raw isMark writes
    rw [mark, isNegative] at isMark
    rw [writes]
    exact currency_writes isMark digits

end CurrencyText

end DecoyEngine.DeclaredCasting.Output
