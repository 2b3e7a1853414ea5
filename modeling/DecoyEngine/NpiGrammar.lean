import DecoyEngine.Checksums
import DecoyEngine.Data.Luhn

namespace DecoyEngine.Checksums

open DecoyEngine.Data

/-! The numbers -/

/-- What an NPI is: ten digits, the first 1 or 2, the last one the Luhn check digit of
`80840` and the nine before it. -/
structure NpiDigits (digits : List Nat) : Prop where
  length : digits.length = 10
  small : ∀ digit ∈ digits, digit < 10
  lead : digits.head? = some 1 ∨ digits.head? = some 2
  check : ∃ check, digits.getLast? = some check ∧
    IsCheckDigit ([8, 0, 8, 4, 0] ++ digits.take 9) check

/-- An NPI as text, in ASCII digits and nothing else. -/
def IsNpi (text : List Char) : Prop := ∃ digits, NpiDigits digits ∧ text = digits.map digitChar

/-- Ten characters that read as the digits of an NPI, the first and the last of them ASCII. -/
structure ReadsAs (digits : List Nat) (shown : List Char) : Prop where
  npi : NpiDigits digits
  values : shown.map decimalValue = digits.map some
  lead : shown.head? = digits.head?.map digitChar
  check : shown.getLast? = digits.getLast?.map digitChar

/-- An NPI with a digit of another script between its first and its last one, or with a
newline after it. -/
def IsLookalike (text : List Char) : Prop :=
  ∃ digits shown, ReadsAs digits shown ∧
    (text = shown ++ ['\n'] ∨ text = shown ∧ ∃ ch ∈ shown, ch ∉ asciiDigits)

theorem decimalValue_lt {ch : Char} {value : Nat} (read : decimalValue ch = some value) :
    value < 10 := by
  obtain ⟨base, found, rfl⟩ := Option.map_eq_some_iff.mp read
  have inside := List.find?_some found
  rw [decide_eq_true_eq] at inside
  omega

variable {text : List Char} {values : List Nat}

theorem mapM_of_map_eq (read : text.map decimalValue = values.map some) :
    text.mapM decimalValue = some values := by
  induction text generalizing values with
  | nil =>
      obtain rfl := List.map_eq_nil_iff.mp read.symm
      rfl
  | cons ch text ih =>
      cases values with
      | nil => cases read
      | cons value values =>
          rw [List.map_cons, List.map_cons, List.cons.injEq] at read
          rw [List.mapM_cons, read.1, ih read.2]
          rfl

theorem map_decimalValue_digitChar (small : ∀ value ∈ values, value < 10) :
    (values.map digitChar).map decimalValue = values.map some := by
  rw [List.map_map]
  apply List.map_congr_left
  intro value member
  exact decimalValue_digitChar (small value member)

theorem exists_values (decimal : ∀ ch ∈ text, (decimalValue ch).isSome) :
    ∃ values : List Nat, text.map decimalValue = values.map some := by
  induction text with
  | nil => exact ⟨[], rfl⟩
  | cons ch text ih =>
      obtain ⟨value, read⟩ := Option.isSome_iff_exists.mp (decimal ch List.mem_cons_self)
      obtain ⟨values, rest⟩ := ih fun ch member => decimal ch (List.mem_cons_of_mem _ member)
      exact ⟨value :: values, by rw [List.map_cons, read, rest, List.map_cons]⟩

theorem lt_of_values (read : text.map decimalValue = values.map some) :
    ∀ value ∈ values, value < 10 := by
  intro value member
  have known : some value ∈ text.map decimalValue := by
    rw [read]
    exact List.mem_map_of_mem member
  obtain ⟨ch, -, value'⟩ := List.mem_map.mp known
  exact decimalValue_lt value'

theorem eq_map_digitChar (read : text.map decimalValue = values.map some)
    (ascii : ∀ ch ∈ text, ch ∈ asciiDigits) :
    text = values.map digitChar := by
  induction text generalizing values with
  | nil =>
      obtain rfl := List.map_eq_nil_iff.mp read.symm
      rfl
  | cons ch text ih =>
      cases values with
      | nil => cases read
      | cons value values =>
          rw [List.map_cons, List.map_cons, List.cons.injEq] at read
          obtain ⟨digit, small, rfl⟩ := exists_digitChar (ascii ch List.mem_cons_self)
          rw [decimalValue_digitChar small, Option.some_inj] at read
          rw [List.map_cons, read.1, ← ih read.2 fun ch member =>
            ascii ch (List.mem_cons_of_mem _ member)]

theorem luhnTotal_eq_luhnSum (small : ∀ value ∈ values, value < 10) (i : Nat) :
    luhnTotal i values = luhnSum (i % 2 = 0) values := by
  induction values generalizing i with
  | nil => rfl
  | cons value values ih =>
      have rest := ih (fun value member => small value (List.mem_cons_of_mem _ member)) (i + 1)
      have flipped : decide ((i + 1) % 2 = 0) = !decide (i % 2 = 0) := by
        rcases Nat.mod_two_eq_zero_or_one i with even | odd
        · simp [even, Nat.add_mod]
        · simp [odd, Nat.add_mod]
      rw [luhnTotal, luhnSum, rest, flipped, luhnTerm]
      by_cases even : i % 2 = 0
      · rw [if_pos even, if_pos (decide_eq_true even),
          doubledDigit_eq (small value List.mem_cons_self)]
      · rw [if_neg even, decide_eq_false even, if_neg Bool.false_ne_true]

theorem luhnCd_eq_some {body : List Char} {last : Char}
    (read : body.map decimalValue = values.map some) :
    luhnCd body = some [last] ↔ ∃ check, IsCheckDigit values check ∧ last = digitChar check := by
  have reversed : body.reverse.mapM decimalValue = some values.reverse := by
    apply mapM_of_map_eq
    rw [List.map_reverse, List.map_reverse, read]
  have small : ∀ value ∈ values.reverse, value < 10 := by
    intro value member
    exact lt_of_values read value (List.mem_reverse.mp member)
  have total : luhnTotal 0 values.reverse = luhnSum true values.reverse :=
    luhnTotal_eq_luhnSum small 0
  rw [luhnCd, reversed, Option.map_some, total, Option.some_inj, List.cons.injEq]
  constructor
  · intro computed
    exact ⟨_, isCheckDigit_iff.mpr rfl, computed.1.symm⟩
  · intro known
    obtain ⟨check, valid, rfl⟩ := known
    rw [isCheckDigit_iff.mp valid]
    exact ⟨rfl, rfl⟩

theorem npiPrefix_values : npiPrefix.map decimalValue = [8, 0, 8, 4, 0].map some := by decide

theorem npiCalcCheckDigit_eq_some {body : List Char} {last : Char}
    (read : body.map decimalValue = values.map some) :
    npiCalcCheckDigit body = some [last] ↔
      ∃ check, IsCheckDigit ([8, 0, 8, 4, 0] ++ values) check ∧ last = digitChar check := by
  rw [npiCalcCheckDigit]
  apply luhnCd_eq_some
  rw [List.map_append, npiPrefix_values, read, List.map_append]

example : npiCalcCheckDigit ['1', '2', '3', '4', '5', '6', '7', '8', '9'] = some ['3'] := by decide

theorem exists_ends {α : Type} {items : List α} (length : items.length = 10) :
    ∃ lead middle last, items = lead :: (middle ++ [last]) ∧ middle.length = 8 := by
  cases items with
  | nil => cases length
  | cons lead rest =>
      rcases List.eq_nil_or_concat rest with rfl | ⟨middle, last, rfl⟩
      · cases length
      · rw [List.length_cons, List.length_concat] at length
        exact ⟨lead, middle, last, by rw [List.concat_eq_append], by omega⟩

theorem getLast?_ends {α : Type} (lead last : α) (middle : List α) :
    (lead :: (middle ++ [last])).getLast? = some last := by
  rw [← List.cons_append, List.getLast?_concat]

theorem npiReMatch_iff {value : List Char} :
    npiReMatch value = true ↔ ∃ shown, shown.length = 10 ∧
      (∀ ch ∈ shown, (decimalValue ch).isSome) ∧ (value = shown ∨ value = shown ++ ['\n']) := by
  simp only [npiReMatch, Bool.and_eq_true, Bool.or_eq_true, beq_iff_eq, List.all_eq_true, and_assoc]
  constructor
  · intro accepted
    obtain ⟨length, decimal, ending⟩ := accepted
    refine ⟨value.take 10, length, decimal, ?_⟩
    have whole := List.take_append_drop 10 value
    rcases ending with none | newline
    · rw [none, List.append_nil] at whole
      exact Or.inl whole.symm
    · rw [newline] at whole
      exact Or.inr whole.symm
  · intro accepted
    obtain ⟨shown, length, decimal, rfl | rfl⟩ := accepted
    · rw [List.take_of_length_le length.le, List.drop_of_length_le length.le]
      exact ⟨length, decimal, Or.inl rfl⟩
    · rw [List.take_left' length, List.drop_left' length]
      exact ⟨length, decimal, Or.inr rfl⟩

section Shown

variable {lead last : Char} {middle ending : List Char} {digits : List Nat}

theorem npiValidate_ends (length : middle.length = 8)
    (matching : npiReMatch (lead :: (middle ++ [last]) ++ ending) = true) :
    npiValidate (lead :: (middle ++ [last]) ++ ending) = true ↔
      lead ∈ ['1', '2'] ∧ npiCalcCheckDigit (lead :: middle) = some [last] := by
  have first : (lead :: (middle ++ [last]) ++ ending)[0]! = lead := rfl
  have tenth : (lead :: (middle ++ [last]) ++ ending)[9]! = last := by
    simp [List.getElem!_eq_getElem?_getD, length]
  have body : (lead :: (middle ++ [last]) ++ ending).take 9 = lead :: middle := by
    simp [length]
  rw [npiValidate, matching, first, tenth, body, Bool.not_true, if_neg Bool.false_ne_true]
  by_cases leads : lead ∈ ['1', '2']
  · rw [if_neg (not_not.mpr leads), beq_iff_eq, eq_comm]
    exact (and_iff_right leads).symm
  · rw [if_pos leads]
    exact iff_of_false Bool.false_ne_true fun accepted => leads accepted.1

theorem readsAs_ends (length : middle.length = 8)
    (read : (lead :: (middle ++ [last])).map decimalValue = digits.map some) :
    ReadsAs digits (lead :: (middle ++ [last])) ↔
      lead ∈ ['1', '2'] ∧ npiCalcCheckDigit (lead :: middle) = some [last] := by
  have ten : digits.length = 10 := by
    have lengths := congrArg List.length read
    simpa [length] using lengths.symm
  obtain ⟨first, inner, check, rfl, innerLength⟩ := exists_ends ten
  have nine : (first :: (inner ++ [check])).take 9 = first :: inner := by simp [innerLength]
  simp only [List.map_cons, List.map_append, List.map_nil, List.cons.injEq] at read
  obtain ⟨readLead, readRest⟩ := read
  obtain ⟨readMiddle, readLast⟩ := List.append_inj readRest (by simp [length, innerLength])
  rw [List.cons.injEq] at readLast
  have readBody : (lead :: middle).map decimalValue = (first :: inner).map some := by
    rw [List.map_cons, readLead, readMiddle, List.map_cons]
  rw [npiCalcCheckDigit_eq_some readBody]
  constructor
  · intro reads
    have leads : lead = digitChar first := by simpa using reads.lead
    have lasts : last = digitChar check := by simpa [getLast?_ends] using reads.check
    obtain ⟨known, isLast, valid⟩ := reads.npi.check
    have same : check = known := by simpa [getLast?_ends] using isLast
    rw [nine] at valid
    have oneOrTwo : first = 1 ∨ first = 2 := by simpa using reads.npi.lead
    refine ⟨?_, known, valid, same ▸ lasts⟩
    rw [leads]
    rcases oneOrTwo with rfl | rfl <;> decide
  · intro accepted
    obtain ⟨leads, known, valid, rfl⟩ := accepted
    obtain rfl : known = check := by
      rw [decimalValue_digitChar valid.1] at readLast
      exact Option.some.inj readLast.1
    have ofLead : lead = digitChar first ∧ (first = 1 ∨ first = 2) := by
      rcases List.mem_pair.mp leads with rfl | rfl
      · obtain rfl : 1 = first := Option.some.inj readLead
        exact ⟨rfl, Or.inl rfl⟩
      · obtain rfl : 2 = first := Option.some.inj readLead
        exact ⟨rfl, Or.inr rfl⟩
    have read : (lead :: (middle ++ [digitChar known])).map decimalValue =
        (first :: (inner ++ [known])).map some := by
      simp only [List.map_cons, List.map_append, List.map_nil, readLead, readMiddle, readLast.1]
    constructor
    case npi =>
      constructor
      case length => exact ten
      case small => exact lt_of_values read
      case lead => simpa using ofLead.2
      case check => exact ⟨known, getLast?_ends first known inner, by rwa [nine]⟩
    case values => exact read
    case lead => simpa using ofLead.1
    case check => simp [getLast?_ends]

end Shown

theorem ReadsAs.length {digits : List Nat} {shown : List Char} (reads : ReadsAs digits shown) :
    shown.length = 10 := by
  have lengths := congrArg List.length reads.values
  rw [List.length_map, List.length_map, reads.npi.length] at lengths
  exact lengths

theorem npiValidate_iff :
    npiValidate text = true ↔
      ∃ digits shown, ReadsAs digits shown ∧ (text = shown ∨ text = shown ++ ['\n']) := by
  constructor
  · intro accepted
    have matching : npiReMatch text = true := by
      cases known : npiReMatch text with
      | true => rfl
      | false =>
          rw [npiValidate, known] at accepted
          cases accepted
    obtain ⟨shown, length, decimal, spelled⟩ := npiReMatch_iff.mp matching
    obtain ⟨digits, read⟩ := exists_values decimal
    refine ⟨digits, shown, ?_, spelled⟩
    obtain ⟨lead, middle, last, rfl, eight⟩ := exists_ends length
    rw [readsAs_ends eight read]
    rcases spelled with rfl | rfl
    · rw [← List.append_nil (lead :: (middle ++ [last]))] at accepted matching
      exact (npiValidate_ends eight matching).mp accepted
    · exact (npiValidate_ends eight matching).mp accepted
  · intro known
    obtain ⟨digits, shown, reads, spelled⟩ := known
    have decimal : ∀ ch ∈ shown, (decimalValue ch).isSome := by
      intro ch member
      have listed : decimalValue ch ∈ digits.map some := by
        rw [← reads.values]
        exact List.mem_map_of_mem member
      obtain ⟨value, -, same⟩ := List.mem_map.mp listed
      rw [← same, Option.isSome_some]
    have matching := npiReMatch_iff.mpr ⟨shown, reads.length, decimal, spelled⟩
    obtain ⟨lead, middle, last, rfl, eight⟩ := exists_ends reads.length
    have ends := (readsAs_ends eight reads.values).mp reads
    rcases spelled with rfl | rfl
    · rw [← List.append_nil (lead :: (middle ++ [last]))] at matching ⊢
      exact (npiValidate_ends eight matching).mpr ends
    · exact (npiValidate_ends eight matching).mpr ends

theorem IsNpi.ascii (npi : IsNpi text) : ∀ ch ∈ text, ch ∈ asciiDigits := by
  obtain ⟨digits, valid, rfl⟩ := npi
  intro ch member
  obtain ⟨digit, isDigit, rfl⟩ := List.mem_map.mp member
  exact digitChar_mem (valid.small digit isDigit)

theorem NpiDigits.readsAs {digits : List Nat} (npi : NpiDigits digits) :
    ReadsAs digits (digits.map digitChar) := by
  constructor
  case npi => exact npi
  case values => exact map_decimalValue_digitChar npi.small
  case lead => exact List.head?_map
  case check => exact List.getLast?_map

/-- The validator agrees with the grammar on every text but the lookalikes: an NPI with a newline
behind it, or with digits of another script among its own. -/
theorem npi_grammar_iff (stdnum : Stdnum) (text : List Char) :
    (validate stdnum .npi text = true ↔ IsNpi text) ↔ ¬ IsLookalike text := by
  have accepts : validate stdnum .npi text = true ↔ ∃ digits shown, ReadsAs digits shown ∧
      (text = shown ∨ text = shown ++ ['\n']) := npiValidate_iff
  rw [accepts]
  constructor
  · intro agrees lookalike
    obtain ⟨digits, shown, reads, spelled⟩ := lookalike
    rcases spelled with newline | ⟨same, ch, member, foreign⟩
    · have npi := agrees.mp ⟨digits, shown, reads, Or.inr newline⟩
      have listed : '\n' ∈ text := by
        rw [newline]
        exact List.mem_append_right shown (List.mem_singleton.mpr rfl)
      have notDigit : '\n' ∉ asciiDigits := by decide
      exact notDigit (npi.ascii '\n' listed)
    · have npi := agrees.mp ⟨digits, shown, reads, Or.inl same⟩
      exact foreign (npi.ascii ch (same ▸ member))
  · intro plain
    constructor
    · intro accepted
      obtain ⟨digits, shown, reads, same | newline⟩ := accepted
      · have ascii : ∀ ch ∈ shown, ch ∈ asciiDigits := by
          intro ch member
          by_contra foreign
          exact plain ⟨digits, shown, reads, Or.inr ⟨same, ch, member, foreign⟩⟩
        exact ⟨digits, reads.npi, same.trans (eq_map_digitChar reads.values ascii)⟩
      · exact absurd ⟨digits, shown, reads, Or.inl newline⟩ plain
    · intro npi
      obtain ⟨digits, valid, rfl⟩ := npi
      exact ⟨digits, _, valid.readsAs, Or.inl rfl⟩

/-- A newline after an NPI and a Devanagari digit inside one are both accepted. -/
theorem npi_lookalikes_accepted :
    (∀ stdnum, validate stdnum .npi
      ['1', '2', '3', '4', '5', '6', '7', '8', '9', '3', '\n'] = true) ∧
    ¬ IsNpi ['1', '2', '3', '4', '5', '6', '7', '8', '9', '3', '\n'] ∧
    (∀ stdnum, validate stdnum .npi
      ['1', '२', '3', '4', '5', '6', '7', '8', '9', '3'] = true) ∧
    ¬ IsNpi ['1', '२', '3', '4', '5', '6', '7', '8', '9', '3'] := by
  have newline : '\n' ∉ asciiDigits := by decide
  have devanagari : '२' ∉ asciiDigits := by decide
  refine ⟨?_, ?_, ?_, ?_⟩
  · intro stdnum
    change npiValidate _ = true
    decide
  · intro npi
    exact newline (npi.ascii '\n' (by decide))
  · intro stdnum
    change npiValidate _ = true
    decide
  · intro npi
    exact devanagari (npi.ascii '२' (by decide))

end DecoyEngine.Checksums
