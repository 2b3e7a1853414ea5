import DecoyEngine.Detection.Validators

namespace DecoyEngine.Detection.Ascii

open DecoyEngine.Data

/-! The validators of the span detectors on ASCII text.  There `isdigit`, `int` and `upper` are those
of the bytes and nothing raises: these are the forms that the native kernel is compared with. -/

def allDigits (text : List Char) : Bool := !text.isEmpty && text.all Char.isDigit

def allLetters (text : List Char) : Bool := !text.isEmpty && text.all Char.isAlpha

/-- `int(ch)` of an ASCII digit. -/
def digitOf (ch : Char) : Nat := ch.toNat - 48

/-- `int(text)` of ASCII digits. -/
def intOf (text : List Char) : Nat := text.foldl (fun value ch => 10 * value + digitOf ch) 0

def luhnTotal (parity : Nat) (digits : List Char) : Nat :=
  (digits.reverse.zipIdx.map fun entry => luhnDigit (entry.2 % 2 == parity) (digitOf entry.1)).sum

def luhnValid (value : List Char) : Bool :=
  let digits := dropSeparators value
  if !allDigits digits || digits.length < 13 then false
  else luhnTotal 1 digits % 10 == 0

/-- `str(n)` of a number of two digits. -/
def twoDigits (n : Nat) : List Char := [digitChar (n / 10), digitChar (n % 10)]

def ibanDigits (ch : Char) : Option (List Char) :=
  if ch.isDigit then some [ch]
  else if ch.isAlpha then some (twoDigits (ch.toNat - 55))
  else none

def ibanValid (value : List Char) : Bool :=
  let iban := (upper value).filter (fun ch => !isSpace ch)
  if iban.length < 15 || 34 < iban.length then false
  else if !(allLetters (iban.take 2) && allDigits ((iban.take 4).drop 2)) then false
  else if !(ibanCountries.any fun country => iban.take 2 == [country.1, country.2]) then false
  else
    ((iban.drop 4 ++ iban.take 4).mapM ibanDigits).any fun digits =>
      intOf digits.flatten % 97 == 1

def ipv4Valid (value : List Char) : Bool :=
  let parts := splitOn '.' value
  parts.length == 4 && parts.all fun part =>
    allDigits part && part.length ≤ 3 && intOf part ≤ 255

def npiValid (value : List Char) : Bool :=
  let digits := dropSeparators value
  if !allDigits digits || digits.length != 10 then false
  else
    let total := luhnTotal 0 (['8', '0', '8', '4', '0'] ++ digits.take 9)
    (10 - total % 10) % 10 == digitOf (digits.getD 9 '0')

def icd10Valid (value : List Char) : Bool :=
  let v := (upper (strip value)).filter (· != '.')
  match v with
  | chapter :: tens :: units :: rest =>
      if !(rest.length ≤ 4 && chapter.isAlpha && tens.isDigit && units.isDigit) then false
      else
        match icd10Chapters.lookup chapter with
        | none => false
        | some (low, high) =>
            let category := intOf [tens, units]
            low ≤ category && category ≤ high
  | _ => false

/-- A text of ASCII characters. -/
def IsAscii (text : List Char) : Prop := ∀ ch ∈ text, ch.toNat < 128

section Characters

variable {ch : Char} {text : List Char}

/-- What Python reads of an ASCII character. -/
def Reads (ch : Char) : Prop :=
  isDigitChar ch = ch.isDigit ∧
  decimalValue ch = (if ch.isDigit then some (digitOf ch) else none) ∧
  ch.toUpper.toNat < 128 ∧
  (ch.isLower = false → ch.isDigit = false → ch.isAlpha = true →
    natText (ch.toNat - 55) = twoDigits (ch.toNat - 55) ∧
      (twoDigits (ch.toNat - 55)).all Char.isDigit = true) ∧
  ch.toUpper.isLower = false

instance (ch : Char) : Decidable (Reads ch) := inferInstanceAs (Decidable (_ ∧ _))

theorem reads_codes : ∀ code < 128, Reads (Char.ofNat code) := by decide +kernel

theorem reads (ascii : ch.toNat < 128) : Reads ch := by
  rw [← Char.ofNat_toNat ch]
  exact reads_codes ch.toNat ascii

theorem IsAscii.sublist {part : List Char} (ascii : IsAscii text) (within : part ⊆ text) :
    IsAscii part := fun ch member => ascii ch (within member)

theorem isDigits_eq (ascii : IsAscii text) : isDigits text = allDigits text := by
  rw [isDigits, allDigits]
  congr 1
  rw [Bool.eq_iff_iff, List.all_eq_true, List.all_eq_true]
  exact forall₂_congr fun ch member => by rw [(reads (ascii ch member)).1]

theorem mapM_decimalValue (ascii : IsAscii text) (digits : text.all Char.isDigit = true) :
    text.mapM decimalValue = some (text.map digitOf) := by
  induction text with
  | nil => rfl
  | cons ch text ih =>
      rw [List.all_cons, Bool.and_eq_true] at digits
      have here := (reads (ascii ch List.mem_cons_self)).2.1
      rw [if_pos digits.1] at here
      have rest := ih (ascii.sublist (List.subset_cons_self ch text)) digits.2
      rw [List.mapM_cons, here, rest]
      rfl

theorem intOf_eq (ascii : IsAscii text) (digits : text.all Char.isDigit = true) :
    Data.intOf text = some (intOf text) := by
  rw [Data.intOf, mapM_decimalValue ascii digits, Option.map_some, List.foldl_map]
  rfl

theorem luhnTotal_eq (parity : Nat) (digits : List Char) :
    Detection.luhnTotal parity (digits.map digitOf) = luhnTotal parity digits := by
  rw [Detection.luhnTotal, luhnTotal, ← List.map_reverse, List.zipIdx_map, List.map_map]
  rfl

theorem all_of_allDigits (digits : allDigits text = true) : text.all Char.isDigit = true :=
  (Bool.and_eq_true_iff.mp digits).2

theorem upperText_eq (words : WordClass) (ascii : IsAscii text) :
    words.upperText text = upper text := by
  induction text with
  | nil => rfl
  | cons ch text ih =>
      have here := words.upper_ascii ch (ascii ch List.mem_cons_self)
      have rest := ih (ascii.sublist (List.subset_cons_self ch text))
      rw [WordClass.upperText] at rest
      rw [WordClass.upperText, List.flatMap_cons, here, rest]
      rfl

theorem upper_spec (ascii : IsAscii text) :
    ∀ ch ∈ upper text, ch.toNat < 128 ∧ ch.isLower = false := by
  intro ch member
  obtain ⟨original, inText, rfl⟩ := List.mem_map.mp member
  have known := reads (ascii original inText)
  exact ⟨known.2.2.1, known.2.2.2.2⟩

end Characters

section Agreement

variable {value : List Char} (words : WordClass)

theorem luhnValid_eq (ascii : IsAscii value) :
    Detection.luhnValid value = some (luhnValid value) := by
  have cleaned : IsAscii (dropSeparators value) := ascii.sublist List.filter_sublist.subset
  rw [Detection.luhnValid, luhnValid]
  simp only [isDigits_eq cleaned]
  cases digits : allDigits (dropSeparators value) with
  | false => rfl
  | true =>
      rw [mapM_decimalValue cleaned (all_of_allDigits digits), Option.map_some, luhnTotal_eq]
      split <;> rfl

theorem npiValid_eq (ascii : IsAscii value) :
    Detection.npiValid value = some (npiValid value) := by
  have cleaned : IsAscii (dropSeparators value) := ascii.sublist List.filter_sublist.subset
  rw [Detection.npiValid, npiValid]
  simp only [isDigits_eq cleaned]
  cases digits : allDigits (dropSeparators value) with
  | false => rfl
  | true =>
      by_cases ten : (dropSeparators value).length = 10
      · have all := all_of_allDigits digits
        have nine : 9 < (dropSeparators value).length := by omega
        have body : IsAscii (['8', '0', '8', '4', '0'] ++ (dropSeparators value).take 9) := by
          intro ch member
          rcases List.mem_append.mp member with front | rest
          · have known : ∀ ch ∈ ['8', '0', '8', '4', '0'], ch.toNat < 128 := by decide
            exact known ch front
          · exact cleaned ch (List.mem_of_mem_take rest)
        have bodyDigits :
            (['8', '0', '8', '4', '0'] ++ (dropSeparators value).take 9).all Char.isDigit = true := by
          rw [List.all_append, Bool.and_eq_true]
          refine ⟨by decide, List.all_eq_true.mpr fun ch member => ?_⟩
          exact List.all_eq_true.mp all ch (List.mem_of_mem_take member)
        have last : (dropSeparators value).getD 9 '0' = (dropSeparators value)[9] := by
          simp [List.getD, nine]
        have check := (reads (cleaned _ (List.getElem_mem nine))).2.1
        rw [if_pos (List.all_eq_true.mp all _ (List.getElem_mem nine))] at check
        simp only [ten, last, mapM_decimalValue body bodyDigits, check, luhnTotal_eq]
        simp
      · simp [ten]

theorem octetsValid_eq {parts : List (List Char)} (ascii : ∀ part ∈ parts, IsAscii part) :
    octetsValid parts = some (parts.all fun part =>
      allDigits part && part.length ≤ 3 && intOf part ≤ 255) := by
  induction parts with
  | nil => rfl
  | cons part parts ih =>
      have here := ascii part List.mem_cons_self
      rw [octetsValid, isDigits_eq here, ih fun other member => ascii other (.tail _ member),
        List.all_cons]
      cases digits : allDigits part with
      | false => rfl
      | true =>
          rw [intOf_eq here (all_of_allDigits digits)]
          by_cases long : 3 < part.length
          · simp [long]
          · by_cases large : 255 < intOf part
            · simp [long, large]
            · simp [long, large, Nat.le_of_not_lt long, Nat.le_of_not_lt large]

theorem splitOn_subset {text part : List Char} (member : part ∈ splitOn '.' text) :
    part ⊆ text := by
  induction text generalizing part with
  | nil =>
      rw [splitOn, List.mem_singleton] at member
      simp [member]
  | cons ch text ih =>
      rw [splitOn] at member
      split at member
      · rcases List.mem_cons.mp member with same | later
        · simp [same]
        · exact List.subset_cons_of_subset ch (ih later)
      · split at member
        · next empty =>
            rw [List.mem_singleton] at member
            simp [member]
        · next first parts found =>
            rcases List.mem_cons.mp member with same | later
            · subst same
              exact List.cons_subset_cons ch (ih (by simp [found]))
            · exact List.subset_cons_of_subset ch (ih (by simp [found, later]))

theorem ipv4Valid_eq (ascii : IsAscii value) :
    Detection.ipv4Valid value = some (ipv4Valid value) := by
  have parts := octetsValid_eq fun part member => ascii.sublist (splitOn_subset member)
  rw [Detection.ipv4Valid, ipv4Valid, parts]
  by_cases four : (splitOn '.' value).length = 4 <;> simp [four]

theorem ibanDigits_eq {ch : Char} (ascii : ch.toNat < 128) (raised : ch.isLower = false) :
    Detection.ibanDigits words ch = ibanDigits ch ∧
      ∀ digits ∈ ibanDigits ch, digits.all Char.isDigit = true := by
  obtain ⟨digit, -, -, letters, -⟩ := reads ascii
  rw [Detection.ibanDigits, ibanDigits, digit, words.alpha_ascii ch ascii]
  cases isDigit : ch.isDigit with
  | true =>
      refine ⟨rfl, fun digits member => ?_⟩
      cases member
      simp [isDigit]
  | false =>
      cases isAlpha : ch.isAlpha with
      | false => exact ⟨rfl, nofun⟩
      | true =>
          obtain ⟨same, all⟩ := letters raised isDigit isAlpha
          rw [same]
          refine ⟨rfl, fun digits member => ?_⟩
          cases member
          exact all

theorem mapM_ibanDigits {text : List Char}
    (raised : ∀ ch ∈ text, ch.toNat < 128 ∧ ch.isLower = false) :
    text.mapM (Detection.ibanDigits words) = text.mapM ibanDigits ∧
      ∀ digits ∈ text.mapM ibanDigits, digits.flatten.all Char.isDigit = true := by
  induction text with
  | nil =>
      refine ⟨rfl, fun digits member => ?_⟩
      cases member
      rfl
  | cons ch text ih =>
      obtain ⟨ascii, plain⟩ := raised ch List.mem_cons_self
      obtain ⟨same, digits⟩ := ibanDigits_eq words ascii plain
      obtain ⟨rest, restDigits⟩ := ih fun other member => raised other (.tail _ member)
      rw [List.mapM_cons, List.mapM_cons, same, rest]
      refine ⟨rfl, fun all member => ?_⟩
      cases head : ibanDigits ch with
      | none => simp [head] at member
      | some first =>
          cases tail : text.mapM ibanDigits with
          | none => simp [head, tail] at member
          | some others =>
              rw [head, tail] at member
              cases member
              rw [List.flatten_cons, List.all_append, digits first head, restDigits others tail]
              rfl

theorem isAscii_of_isDigit {text : List Char} (digits : text.all Char.isDigit = true) :
    IsAscii text := by
  intro ch member
  have digit := List.all_eq_true.mp digits ch member
  simp only [Char.isDigit, Bool.and_eq_true, decide_eq_true_eq] at digit
  have top : ch.val.toNat ≤ 57 := UInt32.le_iff_toNat_le.mp digit.2
  exact Nat.lt_of_le_of_lt top (by decide)

theorem ibanValid_eq (ascii : IsAscii value) :
    Detection.ibanValid words value = ibanValid value := by
  rw [Detection.ibanValid, ibanValid, upperText_eq words ascii]
  have raised : ∀ ch ∈ (upper value).filter (fun ch => !isSpace ch),
      ch.toNat < 128 ∧ ch.isLower = false :=
    fun ch member => upper_spec ascii ch (List.mem_of_mem_filter member)
  generalize (upper value).filter (fun ch => !isSpace ch) = iban at raised
  have front : words.isLetters (iban.take 2) = allLetters (iban.take 2) := by
    rw [WordClass.isLetters, allLetters]
    congr 1
    rw [Bool.eq_iff_iff, List.all_eq_true, List.all_eq_true]
    exact forall₂_congr fun ch member => by
      rw [words.alpha_ascii ch (raised ch (List.mem_of_mem_take member)).1]
  have check : isDigits ((iban.take 4).drop 2) = allDigits ((iban.take 4).drop 2) :=
    isDigits_eq fun ch member =>
      (raised ch (List.mem_of_mem_take (List.mem_of_mem_drop member))).1
  have turned : ∀ ch ∈ iban.drop 4 ++ iban.take 4, ch.toNat < 128 ∧ ch.isLower = false := by
    intro ch member
    rcases List.mem_append.mp member with back | start
    · exact raised ch (List.mem_of_mem_drop back)
    · exact raised ch (List.mem_of_mem_take start)
  obtain ⟨same, digits⟩ := mapM_ibanDigits words turned
  simp only [front, check, same]
  cases found : (iban.drop 4 ++ iban.take 4).mapM ibanDigits with
  | none => rfl
  | some parts =>
      have all := digits parts found
      simp only [intOf_eq (isAscii_of_isDigit all) all, Option.any_some]

theorem strip_subset (value : List Char) : strip value ⊆ value := by
  intro ch member
  rw [strip, List.mem_reverse] at member
  have inner := (List.dropWhile_sublist isSpace).subset member
  exact (List.dropWhile_sublist isSpace).subset (List.mem_reverse.mp inner)

theorem icd10Valid_eq (ascii : IsAscii value) :
    Detection.icd10Valid words value = some (icd10Valid value) := by
  have stripped := ascii.sublist (strip_subset value)
  rw [Detection.icd10Valid, icd10Valid, upperText_eq words stripped]
  have raised : ∀ ch ∈ (upper (strip value)).filter (· != '.'), ch.toNat < 128 :=
    fun ch member => (upper_spec stripped ch (List.mem_of_mem_filter member)).1
  generalize (upper (strip value)).filter (· != '.') = code at raised
  rcases code with _ | ⟨chapter, _ | ⟨tens, _ | ⟨units, rest⟩⟩⟩
  · rfl
  · rfl
  · rfl
  · have small : ∀ ch ∈ [chapter, tens, units], ch.toNat < 128 := fun ch member =>
      raised ch (List.subset_append_left [chapter, tens, units] rest member)
    simp only [words.alpha_ascii chapter (small chapter (by simp)),
      (reads (small tens (by simp))).1, (reads (small units (by simp))).1]
    cases first : tens.isDigit with
    | false => simp
    | true =>
        cases second : units.isDigit with
        | false => simp
        | true =>
            have pair : [tens, units].all Char.isDigit = true := by simp [first, second]
            rw [intOf_eq (fun ch member => small ch (.tail _ member)) pair]
            split
            · rfl
            · cases icd10Chapters.lookup chapter <;> rfl

end Agreement

end DecoyEngine.Detection.Ascii
