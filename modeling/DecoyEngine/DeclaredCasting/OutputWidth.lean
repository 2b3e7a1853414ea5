import DecoyEngine.DeclaredCasting.CobolPacked
import DecoyEngine.DeclaredCasting.NumberRoundTrip
import DecoyEngine.DeclaredCasting.OutputFormats

namespace DecoyEngine.DeclaredCasting.Output

open DecoyEngine.Data hiding scaled
open DecoyEngine.DeclaredCasting.Numeric DecoyEngine.DeclaredCasting.NumberText
open DecoyEngine.DeclaredCasting.Cobol

/-! Every rendering fits the width its spec declares, and every slot is filled exactly. -/

/-- The rendering stands in the output, with pad characters around it or after its sign. -/
def Filled (pad : Char) : Rendering → Rendering → Prop
  | .text rendered, .text output => ∃ front back before between after,
      rendered = front ++ back ∧
        output = List.replicate before pad ++ front ++ List.replicate between pad ++ back ++
          List.replicate after pad
  | .bytes rendered, .bytes output => output = rendered
  | _, _ => False

/-- What a run may rely on about widths: renderings within the maximum, static widths exact, padding
that only fills, and outputs as wide as the slot of the layout. -/
structure WidthsSound (format : OutputFormat) : Prop where
  bounded : ∀ value rendered limit, unpadded format value = .ok rendered →
    maxRenderedWidth format = some limit → rendered.measure format.unit ≤ limit
  static : ∀ value rendered width, unpadded format value = .ok rendered →
    staticWidth format = some width → rendered.measure format.unit = width
  filled : ∀ value output, formatValue format value = .ok output →
    ∃ rendered pad, unpadded format value = .ok rendered ∧ Filled pad rendered output
  exact : ∀ value output width, formatValue format value = .ok output →
    outputWidth format = some width → output.measure format.unit = width
  slot : ∀ value output layoutWidth, slotAdmitted format layoutWidth = true →
    formatValue format value = .ok output →
      match output with
      | .text chars => chars.length = layoutWidth
      | .bytes bytes => bytes.length = layoutWidth

theorem measureText_append (unit : WidthUnit) (front back : List Char) :
    measureText unit (front ++ back) = measureText unit front + measureText unit back := by
  cases unit with
  | codePoints => exact List.length_append
  | bytes => rw [measureText, List.map_append, List.sum_append]; rfl

theorem measureText_ascii (unit : WidthUnit) {text : List Char}
    (ascii : ∀ ch ∈ text, ch.utf8Size = 1) : measureText unit text = text.length := by
  cases unit with
  | codePoints => rfl
  | bytes =>
      rw [measureText, List.map_congr_left ascii, List.map_const', List.sum_replicate_nat, mul_one]

theorem measureText_replicate {unit : WidthUnit} {pad : Char} (count : Nat)
    (single : unit = .bytes → pad.utf8Size = 1) :
    measureText unit (List.replicate count pad) = count := by
  cases unit with
  | codePoints => exact List.length_replicate
  | bytes =>
      rw [measureText_ascii, List.length_replicate]
      intro ch member
      rw [List.eq_of_mem_replicate member]
      exact single rfl

theorem utf8Size_ascii {ch : Char} (small : ch.toNat < 128) : ch.utf8Size = 1 := by
  rw [Char.utf8Size_eq_one_iff, UInt32.le_iff_toNat_le]
  exact Nat.lt_succ_iff.mp small

theorem utf8Size_digit {ch : Char} (digit : ch ∈ asciiDigits) : ch.utf8Size = 1 := by
  revert ch
  decide

theorem utf8Size_natText (value : Nat) : ∀ ch ∈ natText value, ch.utf8Size = 1 :=
  fun ch member => utf8Size_digit (natText_mem_digits value ch member)

theorem utf8Size_digits {digits : List Nat} (small : ∀ digit ∈ digits, digit < 10) :
    ∀ ch ∈ digits.map digitChar, ch.utf8Size = 1 := by
  intro ch member
  obtain ⟨digit, inDigits, rfl⟩ := List.mem_map.mp member
  have below := small digit inDigits
  interval_cases digit <;> decide

theorem length_groupText {whole : List Char} (nonempty : whole ≠ []) (group : Option Char) :
    (groupText whole group).length =
      whole.length + if group.isSome then (whole.length - 1) / 3 else 0 := by
  cases group with
  | none => rfl
  | some sep =>
      obtain ⟨head, groups, rfl, short, threes⟩ := exists_groups whole nonempty
      have length : (groups.flatMap (sep :: ·)).length = 4 * groups.length := by
        clear short nonempty
        induction groups with
        | nil => rfl
        | cons three groups ih =>
            rw [List.forall_mem_cons] at threes
            rw [List.flatMap_cons, List.length_append, List.length_cons, threes.1, ih threes.2,
              List.length_cons]
            omega
      rw [groupText_append sep short threes, List.length_append, List.length_append, length,
        length_flatten_threes threes, Option.isSome_some, if_pos rfl]
      omega

theorem length_natText_div {value precision scale : Nat} (fits : value < 10 ^ precision)
    (scale_le : scale ≤ precision) :
    (natText (value / 10 ^ scale)).length ≤ max (precision - scale) 1 := by
  by_cases zero : value / 10 ^ scale = 0
  · rw [zero]
    exact le_max_right _ _
  · apply le_max_of_le_left
    by_contra long
    have large := pow_le_of_length_natText (Nat.pos_of_ne_zero zero) (not_le.mp long)
    rw [Nat.le_div_iff_mul_le (by positivity), ← pow_add, Nat.sub_add_cancel scale_le] at large
    omega

theorem length_natText_pos (value : Nat) : 0 < (natText value).length :=
  List.length_pos_of_ne_nil (natText_ne_nil value)

section Rendered

variable {spec : NumberFormat} {value : Nat}

theorem length_renderNumber_le (fits : value < 10 ^ spec.precision) :
    (renderNumber value spec.scale spec.radix spec.group).length ≤
      numberWidth spec.precision spec.scale spec.group.isSome := by
  have parts := renderNumber_parts spec value
  have wholeLength := length_natText_div fits spec.scale_le
  have positive := length_natText_pos (value / 10 ^ spec.scale)
  have fracLength :
      (fraction spec ((digitList spec.scale (value % 10 ^ spec.scale)).map digitChar)).length =
        if spec.scale = 0 then 0 else spec.scale + 1 := by
    rw [fraction]
    split
    · rfl
    · rw [List.length_cons, parts.frac_length]
  rw [parts.number_eq, List.length_append, length_groupText (natText_ne_nil _), fracLength,
    numberWidth]
  cases spec.group.isSome <;> simp only [if_true, Bool.false_eq_true, if_false] <;> omega

theorem utf8Size_separator {ch : Char} (separator : IsSeparator ch) : ch.utf8Size = 1 :=
  utf8Size_ascii (by have := separator.2.1; omega)

theorem utf8Size_renderNumber (spec : NumberFormat) (value : Nat) :
    ∀ ch ∈ renderNumber value spec.scale spec.radix spec.group, ch.utf8Size = 1 := by
  have parts := renderNumber_parts spec value
  intro ch member
  rw [parts.number_eq] at member
  cases List.mem_append.mp member with
  | inl inWhole =>
      cases mem_groupText inWhole with
      | inl digit => exact utf8Size_natText _ ch digit
      | inr isGroup => exact utf8Size_separator (spec.group_separator ch isGroup)
  | inr inFraction =>
      rw [fraction] at inFraction
      split at inFraction
      · cases inFraction
      · cases List.mem_cons.mp inFraction with
        | inl isRadix => exact isRadix ▸ utf8Size_separator spec.radix_separator
        | inr digit =>
            exact utf8Size_digits (digitList_lt _ _) ch digit

theorem measure_renderNumber (unit : WidthUnit) (fits : value < 10 ^ spec.precision) :
    measureText unit (renderNumber value spec.scale spec.radix spec.group) ≤
      numberWidth spec.precision spec.scale spec.group.isSome := by
  rw [measureText_ascii unit (utf8Size_renderNumber spec value)]
  exact length_renderNumber_le fits

end Rendered

theorem measure_formatPlain {spec : NumberFormat} {value : Value} {text : List Char}
    (unit : WidthUnit) (formatted : formatPlain spec value = .ok text) :
    measureText unit text ≤ numberWidth spec.precision spec.scale spec.group.isSome + 1 := by
  rw [formatPlain] at formatted
  split at formatted
  · cases formatted
  · rename_i number negative read
    cases formatted
    have fits := (unscale_eq_ok.mp read).2.2
    have width := measure_renderNumber unit fits
    cases negative with
    | false => exact width.trans (Nat.le_succ _)
    | true =>
        have sign : measureText unit ['-'] = 1 := measureText_ascii unit (by decide)
        have whole := measureText_append unit ['-']
          (renderNumber number spec.scale spec.radix spec.group)
        rw [sign] at whole
        exact whole.trans_le (by omega)

theorem measure_formatCurrency {spec : Currency} {value : Value} {text : List Char}
    (unit : WidthUnit) (formatted : formatCurrency spec value = .ok text) :
    measureText unit text ≤ numberWidth spec.precision spec.scale spec.group.isSome + 2 +
      measureText unit spec.token := by
  rw [formatCurrency] at formatted
  split at formatted
  · cases formatted
  · rename_i number negative read
    cases formatted
    have fits := (unscale_eq_ok.mp read).2.2
    have width := measure_renderNumber unit fits
    have body : measureText unit (spec.withToken
        (renderNumber number spec.scale spec.radix spec.group)) ≤
          numberWidth spec.precision spec.scale spec.group.isSome +
            measureText unit spec.token := by
      rw [Currency.withToken]
      split <;> rw [measureText_append] <;> omega
    have minus : measureText unit ['-'] = 1 := measureText_ascii unit (by decide)
    have openParen : measureText unit ['('] = 1 := measureText_ascii unit (by decide)
    have closeParen : measureText unit [')'] = 1 := measureText_ascii unit (by decide)
    generalize spec.withToken (renderNumber number spec.scale spec.radix spec.group) = inner at body
    rw [Currency.withSign]
    split
    · split
      · have whole := measureText_append unit ['-'] inner
        rw [minus] at whole
        exact whole.trans_le (by omega)
      · have opened := measureText_append unit ['('] inner
        have whole := measureText_append unit (['('] ++ inner) [')']
        rw [opened, openParen, closeParen] at whole
        exact whole.trans_le (by omega)
    · omega

theorem length_natText_mono {small large : Nat} (below : small ≤ large) :
    (natText small).length ≤ (natText large).length := by
  by_cases zero : small = 0
  · rw [zero]
    exact length_natText_pos large
  · by_contra longer
    have positive := Nat.pos_of_ne_zero zero
    have reached := pow_le_of_length_natText positive (not_le.mp longer)
    have bound := lt_pow_length_natText (positive.trans_le below)
    omega

theorem utf8Size_intText (value : Int) : ∀ ch ∈ intText value, ch.utf8Size = 1 := by
  intro ch member
  cases value with
  | ofNat value => exact utf8Size_natText value ch member
  | negSucc value =>
      cases List.mem_cons.mp member with
      | inl minus => rw [minus]; decide
      | inr digit => exact utf8Size_natText _ ch digit

theorem length_intText_le {value lowest highest : Int} (above : lowest ≤ value)
    (below : value ≤ highest) :
    (intText value).length ≤ max (intText lowest).length (intText highest).length := by
  cases value with
  | ofNat value =>
      apply le_max_of_le_right
      cases highest with
      | ofNat highest => exact length_natText_mono (Int.ofNat_le.mp below)
      | negSucc highest =>
          exact absurd ((Int.natCast_nonneg value).trans below) (Int.negSucc_lt_zero highest).not_ge
  | negSucc value =>
      apply le_max_of_le_left
      cases lowest with
      | ofNat lowest =>
          exact absurd ((Int.natCast_nonneg lowest).trans above) (Int.negSucc_lt_zero value).not_ge
      | negSucc lowest =>
          have smaller : value + 1 ≤ lowest + 1 := by omega
          exact Nat.succ_le_succ (length_natText_mono smaller)

theorem measure_integerText {type : IntegerType} {value : OutputValue} {text : List Char}
    (unit : WidthUnit) (formatted : integerText type value = .ok text) :
    measureText unit text ≤
      max (intText (intBounds type).1).length (intText (intBounds type).2).length := by
  cases value with
  | text value => cases formatted
  | date value => cases formatted
  | number value =>
      cases value with
      | decimal value => cases formatted
      | other => cases formatted
      | int number =>
          rw [integerText] at formatted
          split at formatted
          · rename_i inside
            cases formatted
            rw [measureText_ascii unit (utf8Size_intText number)]
            exact length_intText_le inside.1 inside.2
          · cases formatted

theorem zeroPadded_eq {width value : Nat} (fits : value < 10 ^ width) :
    zeroPadded width value = (digitList width value).map digitChar := by
  rw [zeroPadded, if_pos fits]
  rfl

theorem measure_zeroPadded (unit : WidthUnit) {width value : Nat} (fits : value < 10 ^ width) :
    measureText unit (zeroPadded width value) = width := by
  rw [zeroPadded_eq fits, measureText_ascii unit (utf8Size_digits (digitList_lt _ _)),
    List.length_map, length_digitList]

theorem day_lt (date : Date) : date.day < 100 := by
  have bound := date.dayBounds.2
  have month : Gregorian.daysInMonth date.year date.month ≤ 31 := by
    rw [Gregorian.daysInMonth, Gregorian.monthLength]
    split <;> (try split) <;> omega
  omega

theorem dateParts_literals {format : List Char} {parts : List DatePart}
    (parsed : dateParts format = some parts) : ∀ ch, .literal ch ∈ parts → ch ∈ dateLiterals := by
  induction format using dateParts.induct generalizing parts with
  | case1 => cases parsed; nofun
  | case2 rest ih | case3 rest ih | case4 rest ih =>
      obtain ⟨tail, parsedTail, rfl⟩ := Option.map_eq_some_iff.mp parsed
      intro ch member
      exact ih parsedTail ch ((List.mem_cons.mp member).resolve_left nofun)
  | case5 ch rest notYear notMonth notDay isLiteral ih =>
      rw [dateParts.eq_5 _ _ notYear notMonth notDay, if_pos isLiteral] at parsed
      obtain ⟨tail, parsedTail, rfl⟩ := Option.map_eq_some_iff.mp parsed
      intro other member
      cases List.mem_cons.mp member with
      | inl same => cases same; exact isLiteral
      | inr inTail => exact ih parsedTail other inTail
  | case6 ch rest notYear notMonth notDay notLiteral =>
      rw [dateParts.eq_5 _ _ notYear notMonth notDay, if_neg notLiteral] at parsed
      cases parsed

theorem measure_datePart (unit : WidthUnit) (date : Date) {part : DatePart}
    (literal : ∀ ch, part = .literal ch → ch ∈ dateLiterals) :
    measureText unit (part.text date) = part.width := by
  cases part with
  | year =>
      have year := date.yearBounds.2
      rw [Gregorian.maxYear] at year
      exact measure_zeroPadded unit (by omega)
  | month =>
      have month := date.monthBounds.2
      exact measure_zeroPadded unit (by omega)
  | day => exact measure_zeroPadded unit (day_lt date)
  | literal ch =>
      have single : ∀ ch ∈ dateLiterals, ch.utf8Size = 1 := by decide
      apply measureText_ascii unit
      intro other member
      rw [List.mem_singleton.mp member]
      exact single ch (literal ch rfl)

theorem measure_parts (unit : WidthUnit) (date : Date) {parts : List DatePart}
    (literals : ∀ ch, .literal ch ∈ parts → ch ∈ dateLiterals) :
    measureText unit (parts.flatMap (DatePart.text date)) = (parts.map DatePart.width).sum := by
  induction parts with
  | nil => cases unit <;> rfl
  | cons part parts ih =>
      have head : ∀ ch, part = .literal ch → ch ∈ dateLiterals :=
        fun ch same => literals ch (same ▸ List.mem_cons_self)
      rw [List.flatMap_cons, measureText_append, measure_datePart unit date head,
        ih fun ch member => literals ch (List.mem_cons_of_mem _ member), List.map_cons,
        List.sum_cons]

theorem measure_dateText {format : DateFormat} {value : OutputValue} {text : List Char}
    (unit : WidthUnit) (formatted : dateText format value = .ok text) :
    measureText unit text = dateWidth format := by
  cases value with
  | text value => cases formatted
  | number value => cases formatted
  | date value =>
      cases formatted
      apply measure_parts unit
      have pattern := format.pattern
      rw [datePattern] at pattern
      split at pattern
      · cases pattern
      · rename_i parts parsed
        split at pattern
        · rw [← Option.some.inj pattern]
          exact dateParts_literals parsed
        · cases pattern

theorem rjustDigits_snoc {width number : Nat} (fits : number < 10 ^ (width + 1)) :
    ∃ front : List Nat, front.length = width ∧
      rjustDigits number (width + 1) = front.map digitChar ++ [digitChar (number % 10)] := by
  refine ⟨digitList width (number / 10), length_digitList _ _, ?_⟩
  rw [rjustDigits_eq (Nat.succ_pos width) fits, digitList_succ, List.map_append]
  rfl

theorem precision_succ (spec : Picture) : ∃ width, spec.precision = width + 1 :=
  Nat.exists_eq_succ_of_ne_zero (by have := spec.precision_range.1; omega)

theorem length_formatOverpunch {spec : Picture} {value : Value} {text : List Char}
    (formatted : formatOverpunch spec value = .ok text) : text.length = spec.precision := by
  rw [formatOverpunch] at formatted
  split at formatted
  · cases formatted
  · rename_i number isNegative read
    cases formatted
    have fits := (unscaled_eq_ok.mp read).2.2
    obtain ⟨width, isWidth⟩ := precision_succ spec
    rw [isWidth] at fits ⊢
    obtain ⟨front, length, digits⟩ := rjustDigits_snoc fits
    obtain ⟨ch, found, -⟩ := overpunch_table isNegative (Nat.mod_lt number (by decide : 0 < 10))
    rw [digits, List.dropLast_concat, List.getLast?_concat, Option.bind_some,
      digitOf_digitChar (Nat.mod_lt number (by decide)), found, List.length_append,
      List.length_map, length]
    rfl

theorem length_formatZoned {spec : Picture} {value : Value} {bytes : List UInt8}
    (formatted : formatZoned spec value = .ok bytes) : bytes.length = spec.precision := by
  rw [formatZoned] at formatted
  split at formatted
  · cases formatted
  · rename_i number isNegative read
    split at formatted
    · cases formatted
    · cases formatted
      have fits := (unscaled_eq_ok.mp read).2.2
      obtain ⟨width, isWidth⟩ := precision_succ spec
      rw [isWidth] at fits ⊢
      obtain ⟨front, length, digits⟩ := rjustDigits_snoc fits
      rw [digits, List.getLast?_concat, List.length_append, List.length_dropLast, List.length_map,
        List.length_append, List.length_map, length]
      rfl

theorem length_formatComp3 {spec : Picture} {value : Value} {bytes : List UInt8}
    (formatted : formatComp3 spec value = .ok bytes) :
    bytes.length = comp3Length spec.precision := by
  rw [formatComp3] at formatted
  split at formatted
  · cases formatted
  · split at formatted
    · cases formatted
    · dsimp only at formatted
      split at formatted
      · rename_i packed
        cases formatted
        exact length_of_toBytesBig packed
      · cases formatted

theorem textResult_ok {ε : Type} {wrap : ε → OutputError} {result : Except ε (List Char)}
    {rendered : Rendering} (success : textResult wrap result = .ok rendered) :
    ∃ text, result = .ok text ∧ rendered = .text text := by
  cases result with
  | error error => cases success
  | ok text =>
      cases success
      exact ⟨text, rfl, rfl⟩

theorem bytesResult_ok {result : Except Cobol.Failure (List UInt8)} {rendered : Rendering}
    (success : bytesResult result = .ok rendered) :
    ∃ bytes, result = .ok bytes ∧ rendered = .bytes bytes := by
  cases result with
  | error error => cases success
  | ok bytes =>
      cases success
      exact ⟨bytes, rfl, rfl⟩

section Formats

variable {format : OutputFormat} {value : OutputValue} {rendered output : Rendering}

theorem measure_static {width : Nat} (formatted : unpadded format value = .ok rendered)
    (isStatic : staticWidth format = some width) : rendered.measure format.unit = width := by
  cases format with
  | dateIso slot wide =>
      obtain ⟨text, run, rfl⟩ := textResult_ok formatted
      cases isStatic
      exact measure_dateText _ run
  | dateStrftime slot pattern wide =>
      obtain ⟨text, run, rfl⟩ := textResult_ok formatted
      cases isStatic
      exact measure_dateText _ run
  | overpunch spec =>
      obtain ⟨text, run, rfl⟩ := textResult_ok formatted
      cases isStatic
      exact length_formatOverpunch run
  | zoned spec =>
      obtain ⟨bytes, run, rfl⟩ := bytesResult_ok formatted
      cases isStatic
      exact length_formatZoned run
  | comp3 spec =>
      obtain ⟨bytes, run, rfl⟩ := bytesResult_ok formatted
      cases isStatic
      exact length_formatComp3 run
  | _ => cases isStatic

theorem measure_le_max {limit : Nat} (formatted : unpadded format value = .ok rendered)
    (isLimit : maxRenderedWidth format = some limit) : rendered.measure format.unit ≤ limit := by
  cases format with
  | stringExact slot => cases isLimit
  | integerAscii slot type =>
      obtain ⟨text, run, rfl⟩ := textResult_ok formatted
      cases isLimit
      exact measure_integerText _ run
  | integerZeroPad slot type required zero =>
      obtain ⟨text, run, rfl⟩ := textResult_ok formatted
      cases isLimit
      exact measure_integerText _ run
  | decimalPlain slot spec =>
      obtain ⟨text, run, rfl⟩ := textResult_ok formatted
      cases isLimit
      exact measure_formatPlain _ run
  | decimalGrouped slot spec =>
      obtain ⟨text, run, rfl⟩ := textResult_ok formatted
      cases isLimit
      exact measure_formatPlain _ run
  | currency slot spec =>
      obtain ⟨text, run, rfl⟩ := textResult_ok formatted
      cases isLimit
      exact measure_formatCurrency _ run
  | _ =>
      have fixed := measure_static formatted rfl
      cases isLimit
      exact fixed.le

theorem signAndDigits_append (text : List Char) :
    text = (signAndDigits text).1 ++ (signAndDigits text).2 := by
  unfold signAndDigits
  split <;> rfl

theorem zeroPad_spec {width : Nat} {text padded : List Char} (unit : WidthUnit)
    (ascii : ∀ ch ∈ text, ch.utf8Size = 1) (run : zeroPad width text = .ok padded) :
    measureText unit padded = width ∧ Filled '0' (.text text) (.text padded) := by
  have parts := signAndDigits_append text
  rw [zeroPad] at run
  generalize (signAndDigits text).1 = sign at parts run
  generalize (signAndDigits text).2 = digits at parts run
  split at run
  · cases run
  · rename_i room
    cases run
    rw [parts] at ascii
    have signLength :=
      measureText_ascii unit fun ch member => ascii ch (List.mem_append_left _ member)
    have digitsLength :=
      measureText_ascii unit fun ch member => ascii ch (List.mem_append_right _ member)
    refine ⟨?_, sign, digits, 0, ((width : Int) - sign.length).toNat - digits.length, 0, parts, ?_⟩
    · rw [measureText_append, measureText_append, signLength, digitsLength,
        measureText_replicate _ fun _ => by decide]
      omega
    · simp

theorem padText_spec {slot : Padded} {width : Nat} {unit : WidthUnit} {text padded : List Char}
    (declared : slot.width = some width) (single : unit = .bytes → slot.pad.utf8Size = 1)
    (run : padText slot unit text = .ok padded) :
    measureText unit padded = width ∧ Filled slot.pad (.text text) (.text padded) := by
  rw [padText, declared] at run
  dsimp only at run
  split at run
  · cases run
  · rename_i room
    split at run
    · cases run
      refine ⟨?_, text, [], 0, 0, ((width : Int) - measureText unit text).toNat,
        (List.append_nil text).symm, by simp⟩
      rw [measureText_append, measureText_replicate _ single]
      omega
    · cases run
      refine ⟨?_, text, [], ((width : Int) - measureText unit text).toNat, 0, 0,
        (List.append_nil text).symm, by simp⟩
      rw [measureText_append, measureText_replicate _ single]
      omega

theorem unpadded_slot_text {slot : Padded} (controls : format.slot = some slot)
    (formatted : unpadded format value = .ok rendered) : ∃ text, rendered = .text text := by
  cases format with
  | stringExact own =>
      cases value with
      | text value =>
          cases formatted
          exact ⟨value, rfl⟩
      | number value => cases formatted
      | date value => cases formatted
  | overpunch spec => cases controls
  | zoned spec => cases controls
  | comp3 spec => cases controls
  | _ =>
      obtain ⟨text, -, isText⟩ := textResult_ok formatted
      exact ⟨text, isText⟩

theorem kernel_eq_unpadded (notZeroPad : isZeroPad format = false) :
    kernel format value = unpadded format value := by
  cases format with
  | integerZeroPad slot type required zero => cases notZeroPad
  | _ => rfl

/-- What comes of a rendering: itself where no width is declared, else a text filled up to it. -/
def PaddedTo (format : OutputFormat) (rendered output : Rendering) : Prop :=
  (format.width = none ∧ output = rendered) ∨
    ∃ width pad text padded, format.width = some width ∧ rendered = .text text ∧
      output = .text padded ∧ measureText format.unit padded = width ∧
      Filled pad (.text text) (.text padded)

theorem utf8Size_integerText {type : IntegerType} {text : List Char}
    (integer : integerText type value = .ok text) : ∀ ch ∈ text, ch.utf8Size = 1 := by
  cases value with
  | text value => cases integer
  | date value => cases integer
  | number value =>
      cases value with
      | decimal value => cases integer
      | other => cases integer
      | int number =>
          rw [integerText] at integer
          split at integer
          · cases integer
            exact utf8Size_intText number
          · cases integer

theorem formatValue_zeroPad {slot : Padded} {type : IntegerType} {required : slot.width.isSome}
    {zero : slot.pad = '0' ∧ slot.align = .right}
    (run : formatValue (.integerZeroPad slot type required zero) value = .ok output) :
    ∃ rendered, unpadded (.integerZeroPad slot type required zero) value = .ok rendered ∧
      PaddedTo (.integerZeroPad slot type required zero) rendered output := by
  obtain ⟨width, declared⟩ := Option.isSome_iff_exists.mp required
  rw [formatValue, kernel] at run
  cases integer : integerText type value with
  | error error =>
      rw [integer] at run
      cases run
  | ok text =>
      rw [integer, declared] at run
      dsimp only at run
      rw [Option.getD_some] at run
      cases padding : zeroPad width text with
      | error error =>
          rw [padding] at run
          cases run
      | ok padded =>
          rw [padding] at run
          cases run
          obtain ⟨measure, fills⟩ := zeroPad_spec
            (OutputFormat.integerZeroPad slot type required zero).unit
            (utf8Size_integerText integer) padding
          have unpaddedRun : unpadded (.integerZeroPad slot type required zero) value =
              .ok (.text text) := by
            rw [unpadded, integer]
            rfl
          exact ⟨_, unpaddedRun, .inr ⟨width, '0', text, padded, declared, rfl, rfl, measure,
            fills⟩⟩

theorem padText_paddedTo {slot : Padded} {text padded : List Char}
    (controls : format.slot = some slot)
    (padding : padText slot format.unit text = .ok padded) :
    PaddedTo format (.text text) (.text padded) := by
  have isWidth : format.width = slot.width := by rw [OutputFormat.width, controls]; rfl
  have single : format.unit = .bytes → slot.pad.utf8Size = 1 := by
    intro isBytes
    apply slot.pad_bytes
    rw [OutputFormat.unit, controls] at isBytes
    cases unit : slot.widthUnit with
    | none =>
        rw [Option.bind_some, unit] at isBytes
        cases isBytes
    | some unit' =>
        rw [Option.bind_some, unit] at isBytes
        exact congrArg some isBytes
  cases declared : slot.width with
  | none =>
      rw [padText, declared] at padding
      cases padding
      exact .inl ⟨isWidth.trans declared, rfl⟩
  | some width =>
      obtain ⟨measure, fills⟩ := padText_spec declared single padding
      exact .inr ⟨width, slot.pad, text, padded, isWidth.trans declared, rfl, rfl, measure, fills⟩

theorem formatValue_cases (run : formatValue format value = .ok output) :
    ∃ rendered, unpadded format value = .ok rendered ∧ PaddedTo format rendered output := by
  cases zeroPadded : isZeroPad format with
  | true =>
      cases format with
      | integerZeroPad slot type required zero => exact formatValue_zeroPad run
      | _ => cases zeroPadded
  | false =>
      rw [formatValue, kernel_eq_unpadded zeroPadded] at run
      cases formatted : unpadded format value with
      | error error =>
          rw [formatted] at run
          cases run
      | ok rendered =>
          rw [formatted] at run
          refine ⟨rendered, rfl, ?_⟩
          cases controls : format.slot with
          | none =>
              have noWidth : format.width = none := by rw [OutputFormat.width, controls]; rfl
              cases rendered with
              | bytes bytes =>
                  cases run
                  exact .inl ⟨noWidth, rfl⟩
              | text text =>
                  dsimp only at run
                  rw [zeroPadded, if_neg Bool.false_ne_true, controls] at run
                  cases run
                  exact .inl ⟨noWidth, rfl⟩
          | some slot =>
              obtain ⟨text, rfl⟩ := unpadded_slot_text controls formatted
              dsimp only at run
              rw [zeroPadded, if_neg Bool.false_ne_true, controls] at run
              dsimp only at run
              cases padding : padText slot format.unit text with
              | error error =>
                  rw [padding] at run
                  cases run
              | ok padded =>
                  rw [padding] at run
                  cases run
                  exact padText_paddedTo controls padding

theorem filled_self (pad : Char) (rendered : Rendering) : Filled pad rendered rendered := by
  cases rendered with
  | text text => exact ⟨text, [], 0, 0, 0, by simp, by simp⟩
  | bytes bytes => rfl

theorem output_measure {width : Nat} (run : formatValue format value = .ok output)
    (isWidth : outputWidth format = some width) : output.measure format.unit = width := by
  obtain ⟨rendered, formatted, unchanged | padded⟩ := formatValue_cases run
  · obtain ⟨noWidth, rfl⟩ := unchanged
    rw [outputWidth, noWidth] at isWidth
    exact measure_static formatted isWidth
  · obtain ⟨declared, pad, text, padded, isDeclared, -, rfl, measure, -⟩ := padded
    rw [outputWidth, isDeclared] at isWidth
    cases isWidth
    exact measure

end Formats

/-- The widths that are computed before a run bound what the run writes: a static width is the width
of every rendering, a maximal one is never passed, and padding changes nothing but the fill. -/
theorem widths_sound (format : OutputFormat) : WidthsSound format where
  bounded := fun _ _ _ formatted isLimit => measure_le_max formatted isLimit
  static := fun _ _ _ formatted isStatic => measure_static formatted isStatic
  filled := by
    intro value output run
    obtain ⟨rendered, formatted, unchanged | padded⟩ := formatValue_cases run
    · obtain ⟨-, rfl⟩ := unchanged
      exact ⟨output, ' ', formatted, filled_self ' ' output⟩
    · obtain ⟨-, pad, text, padded, -, rfl, rfl, -, fills⟩ := padded
      exact ⟨.text text, pad, formatted, fills⟩
  exact := fun _ _ _ run isWidth => output_measure run isWidth
  slot := by
    intro value output layoutWidth admitted run
    rw [slotAdmitted, Bool.and_eq_true, decide_eq_true_iff] at admitted
    have measure := output_measure run admitted.1
    cases output with
    | bytes bytes => exact measure
    | text chars =>
        cases unit : format.unit with
        | codePoints =>
            rw [unit] at measure
            exact measure
        | bytes =>
            -- a byte width is admitted for binary fields only, which have no text
            have binary : format.binary = true := by
              have second := admitted.2
              rw [unit] at second
              simpa using second
            cases format with
            | zoned spec => cases unit
            | comp3 spec => cases unit
            | _ => cases binary

end DecoyEngine.DeclaredCasting.Output
