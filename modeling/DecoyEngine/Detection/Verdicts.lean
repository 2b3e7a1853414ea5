import DecoyEngine.Detection.Spans

namespace DecoyEngine.Detection

open DecoyEngine.Data

/-! The validators of the catalog on what the patterns match: `int` never meets a character that
`isdigit` takes and it does not, so that none of them raises. -/

section Verdicts

variable {value text part : List Char} {words : WordClass}

theorem mapM_isSome (decimal : ∀ ch ∈ value, isDigit ch = true) :
    (value.mapM decimalValue).isSome = true := by
  induction value with
  | nil => rfl
  | cons ch value ih =>
      obtain ⟨digit, here⟩ := Option.isSome_iff_exists.mp (decimal ch List.mem_cons_self)
      obtain ⟨digits, rest⟩ := Option.isSome_iff_exists.mp
        (ih fun other member => decimal other (.tail _ member))
      rw [List.mapM_cons, here, rest]
      rfl

theorem intOf_isSome (decimal : ∀ ch ∈ value, isDigit ch = true) :
    (intOf value).isSome = true := by
  rw [intOf, Option.isSome_map]
  exact mapM_isSome decimal

theorem luhnValid_isSome (decimal : ∀ ch ∈ dropSeparators value, isDigit ch = true) :
    (luhnValid value).isSome = true := by
  rw [luhnValid]
  split
  · rfl
  · rw [Option.isSome_map]
    exact mapM_isSome decimal

theorem npiValid_isSome (decimal : ∀ ch ∈ dropSeparators value, isDigit ch = true) :
    (npiValid value).isSome = true := by
  have body : ∀ ch ∈ ['8', '0', '8', '4', '0'] ++ (dropSeparators value).take 9,
      isDigit ch = true := by
    intro ch member
    rcases List.mem_append.mp member with front | rest
    · have known : ∀ ch ∈ ['8', '0', '8', '4', '0'], isDigit ch = true := by decide +kernel
      exact known ch front
    · exact decimal ch (List.mem_of_mem_take rest)
  have check : isDigit ((dropSeparators value).getD 9 '0') = true := by
    rw [List.getD_eq_getElem?_getD]
    cases at' : (dropSeparators value)[9]? with
    | none => decide +kernel
    | some ch => exact decimal ch (List.mem_of_getElem? at')
  obtain ⟨digits, read⟩ := Option.isSome_iff_exists.mp (mapM_isSome body)
  obtain ⟨digit, last⟩ := Option.isSome_iff_exists.mp check
  rw [npiValid]
  split
  · rfl
  · rw [read, last]
    rfl

theorem octetsValid_isSome {parts : List (List Char)}
    (decimal : ∀ part ∈ parts, ∀ ch ∈ part, isDigit ch = true) :
    (octetsValid parts).isSome = true := by
  induction parts with
  | nil => rfl
  | cons part parts ih =>
      obtain ⟨number, read⟩ := Option.isSome_iff_exists.mp
        (intOf_isSome (decimal part List.mem_cons_self))
      have rest := ih fun other member => decimal other (.tail _ member)
      simp only [octetsValid, read]
      split
      · rfl
      · split
        · rfl
        · exact rest

theorem splitOn_chars {separator : Char} (member : part ∈ splitOn separator text) :
    ∀ ch ∈ part, ch ∈ text ∧ (ch == separator) = false := by
  induction text generalizing part with
  | nil =>
      rw [splitOn, List.mem_singleton] at member
      rw [member]
      exact fun _ none => (List.not_mem_nil none).elim
  | cons first text ih =>
      have later : ∀ {part}, part ∈ splitOn separator text →
          ∀ ch ∈ part, ch ∈ first :: text ∧ (ch == separator) = false :=
        fun among ch inPart => ⟨.tail _ (ih among ch inPart).1, (ih among ch inPart).2⟩
      rw [splitOn] at member
      split at member
      · rcases List.mem_cons.mp member with rfl | among
        · exact fun _ none => (List.not_mem_nil none).elim
        · exact later among
      · next apart =>
        have start : first ∈ first :: text ∧ (first == separator) = false :=
          ⟨List.mem_cons_self, Bool.eq_false_iff.mpr apart⟩
        split at member
        · next empty =>
            rw [List.mem_singleton] at member
            rw [member]
            exact fun ch inPart => by rwa [List.mem_singleton.mp inPart]
        · next front parts found =>
            rcases List.mem_cons.mp member with rfl | among
            · intro ch inPart
              rcases List.mem_cons.mp inPart with rfl | tail
              · exact start
              · exact later (by rw [found]; exact List.mem_cons_self) ch tail
            · exact later (by rw [found]; exact .tail _ among)

theorem ipv4Valid_isSome (decimal : ∀ ch ∈ value, (ch == '.') = false → isDigit ch = true) :
    (ipv4Valid value).isSome = true := by
  rw [ipv4Valid]
  split
  · rfl
  · refine octetsValid_isSome fun part member ch inPart => ?_
    obtain ⟨inValue, apart⟩ := splitOn_chars member ch inPart
    exact decimal ch inValue apart

theorem icd10Valid_isSome (decimal : ∀ ch ∈ value, isDigitChar ch = true → isDigit ch = true) :
    (icd10Valid words value).isSome = true := by
  have digits : ∀ ch ∈ (words.upperText (strip value)).filter (· != '.'),
      isDigitChar ch = true → isDigit ch = true := by
    intro ch member digit
    obtain ⟨original, stripped, raised⟩ := List.mem_flatMap.mp (List.mem_of_mem_filter member)
    obtain rfl := words.upper_digit original ch raised digit
    refine decimal ch ?_ digit
    rw [strip, List.mem_reverse] at stripped
    have inner := (List.dropWhile_sublist isSpace).subset stripped
    exact (List.dropWhile_sublist isSpace).subset (List.mem_reverse.mp inner)
  rw [icd10Valid]
  generalize (words.upperText (strip value)).filter (· != '.') = code at digits
  rcases code with _ | ⟨chapter, _ | ⟨tens, _ | ⟨units, rest⟩⟩⟩
  · rfl
  · rfl
  · rfl
  · simp only
    split
    · rfl
    · next good =>
        simp only [Bool.not_eq_true, Bool.not_eq_false', Bool.and_eq_true] at good
        split
        · rfl
        · rw [Option.isSome_map]
          refine intOf_isSome fun ch member => ?_
          rcases List.mem_cons.mp member with rfl | last
          · exact digits ch (.tail _ List.mem_cons_self) good.1.2
          · rw [List.mem_singleton.mp last]
            exact digits units (.tail _ (.tail _ List.mem_cons_self)) good.2

theorem only_digits {P : Char → Prop} (decimal : ∀ ch, isDigit ch = true → P ch) (count : Nat) :
    (Regex.times digit count).Only P :=
  Regex.only_times (r := digit) decimal count

theorem panRe_only : panRe.Only fun ch => isDigit ch = true ∨ isSpace ch = true ∨ ch = '-' := by
  have decimal := only_digits (P := fun ch => isDigit ch = true ∨ isSpace ch = true ∨ ch = '-')
    fun _ digit => .inl digit
  have separator : panSeparator.Only fun ch => isDigit ch = true ∨ isSpace ch = true ∨ ch = '-' := by
    intro ch accepted
    simpa using Or.inr accepted
  exact ⟨decimal 4, separator, decimal 4, separator, decimal 4, separator,
    ⟨decimal 1, fun _ digit => .inl digit⟩, trivial⟩

theorem ipv4Re_only : ipv4Re.Only fun ch => (ch == '.') = false → isDigit ch = true := by
  have decimal : ∀ ch, isDigit ch = true → (ch == '.') = false → isDigit ch = true :=
    fun _ digit _ => digit
  have octet : (Regex.between digit 1 3).Only fun ch => (ch == '.') = false → isDigit ch = true :=
    ⟨only_digits decimal 1, decimal⟩
  have dot : (char '.').Only fun ch => (ch == '.') = false → isDigit ch = true :=
    fun ch isDot other => absurd isDot (Bool.eq_false_iff.mp other)
  have block : (Regex.all [.between digit 1 3, char '.']).Only
      fun ch => (ch == '.') = false → isDigit ch = true := ⟨octet, dot, trivial⟩
  exact ⟨Regex.only_times block 3, octet, trivial⟩

theorem not_isDigitChar_letter {ch : Char} (letter : isLetterIgnoreCase ch = true) :
    isDigitChar ch = false := by
  have known : ∀ code < 128, isLetterIgnoreCase (Char.ofNat code) = true →
      isDigitChar (Char.ofNat code) = false := by decide +kernel
  have extra : ∀ code ∈ [0x130, 0x131, 0x17F, 0x212A], isDigitChar (Char.ofNat code) = false := by
    decide +kernel
  rw [← Char.ofNat_toNat ch] at letter ⊢
  by_cases ascii : ch.toNat < 128
  · exact known ch.toNat ascii letter
  · rw [Char.ofNat_toNat] at letter
    rw [isLetterIgnoreCase, Bool.or_eq_true, List.contains_iff_mem] at letter
    rcases letter with alpha | special
    · exact absurd ((toNat_of_isAlpha alpha).2.trans_lt (by decide)) ascii
    · exact extra ch.toNat special

theorem icd10Re_only : icd10Re.Only fun ch => isDigitChar ch = true → isDigit ch = true := by
  have letter : ∀ ch, isLetterIgnoreCase ch = true → isDigitChar ch = true → isDigit ch = true :=
    fun ch isLetter other => absurd other (Bool.eq_false_iff.mp (not_isDigitChar_letter isLetter))
  have either : ∀ ch, isAlphanumIgnoreCase ch = true → isDigitChar ch = true →
      isDigit ch = true := by
    intro ch accepted other
    rcases Bool.or_eq_true_iff.mp accepted with isLetter | asciiDigit
    · exact letter ch isLetter other
    · have known : ∀ code < 128, (Char.ofNat code).isDigit = true →
          isDigit (Char.ofNat code) = true := by decide +kernel
      have small : ch.toNat < 128 := by
        simp only [Char.isDigit, Bool.and_eq_true, decide_eq_true_eq] at asciiDigit
        exact Nat.lt_of_le_of_lt (UInt32.le_iff_toNat_le.mp asciiDigit.2) (by decide)
      rw [← Char.ofNat_toNat ch] at asciiDigit ⊢
      exact known ch.toNat small asciiDigit
  have dot : (char '.').Only fun ch => isDigitChar ch = true → isDigit ch = true := by
    intro ch isDot other
    rw [beq_iff_eq.mp isDot] at other
    exact absurd other (by decide +kernel)
  have digits := only_digits (P := fun ch => isDigitChar ch = true → isDigit ch = true)
    (fun _ digit _ => digit) 2
  exact ⟨letter, digits, ⟨dot, ⟨⟨either, trivial⟩, either⟩, trivial⟩, trivial⟩

/-- The validator of the detector gives a verdict on each match of its pattern. -/
def Detector.Total (detector : Detector) (text : List Char) : Prop :=
  ∀ valid ∈ detector.validator, ∀ span ∈ detector.regex.finditer text,
    (valid (piece text span.1 span.2)).isSome = true

theorem pan_total (text : List Char) :
    Detector.Total { regex := panRe, validator := luhnValid } text := by
  rintro valid ⟨⟩ span found
  refine luhnValid_isSome fun ch inDigits => ?_
  obtain ⟨inPiece, kept⟩ := List.mem_filter.mp inDigits
  rcases panRe_only.piece found ch inPiece with digit | space | dash
  · exact digit
  · simp [space] at kept
  · simp [dash] at kept

theorem npi_total (text : List Char) :
    Detector.Total { regex := npiRe, validator := npiValid } text := by
  rintro valid ⟨⟩ span found
  have only : npiRe.Only fun ch => isDigit ch = true := only_digits (fun _ digit => digit) 10
  exact npiValid_isSome fun ch inDigits => only.piece found ch (List.mem_of_mem_filter inDigits)

/-- No validator of the catalog raises on a match of its own pattern: each candidate of `iter_spans`
gets a verdict, whatever the text. -/
theorem spanDetectors_total (words : WordClass) (text : List Char) :
    ∀ entry ∈ spanDetectors words, entry.2.Total text := by
  have unchecked : ∀ {regex : Regex Char}, Detector.Total { regex := regex } text := nofun
  have iban : Detector.Total
      { regex := ibanRe, validator := fun matched => some (ibanValid words matched) } text := by
    rintro valid ⟨⟩ span found
    rfl
  have ipv4 : Detector.Total { regex := ipv4Re, validator := ipv4Valid } text := by
    rintro valid ⟨⟩ span found
    exact ipv4Valid_isSome (ipv4Re_only.piece found)
  have icd10 : Detector.Total { regex := icd10Re, validator := icd10Valid words } text := by
    rintro valid ⟨⟩ span found
    exact icd10Valid_isSome (icd10Re_only.piece found)
  simp only [spanDetectors, List.forall_mem_cons]
  exact ⟨unchecked, unchecked, unchecked, unchecked, pan_total text, iban, ipv4, icd10,
    npi_total text, unchecked, unchecked, fun _ none => (List.not_mem_nil none).elim⟩

-- An address in Arabic-Indic digits is one.
example : ipv4Valid "١٩٢.١٦٨.٠.١".toList = some true := by decide +kernel

-- Superscripts are digits, but no number.
example : npiValid (List.replicate 10 '²') = none := by decide +kernel

end Verdicts

end DecoyEngine.Detection
