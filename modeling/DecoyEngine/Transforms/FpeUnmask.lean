import DecoyEngine.Transforms.FpeRoundTrip

namespace DecoyEngine.Transforms

open DecoyEngine.Data DecoyEngine.Checksums

/-! What unmasking promises -/

/-- Unmasking `out` does not raise and gives `val` back, in `validate_luhn` mode exactly
when its digits are Luhn-valid; length and separator positions are unchanged. -/
def RoundTrips (cipher : BlockCipher) (stdnum : Stdnum) (config : FpeConfig)
    (key tweak : List UInt8) (val out : List Char) : Prop :=
  (∃ recovered, fpeDecryptValue cipher stdnum config key tweak out = .ok recovered ∧
    (recovered = val ↔
      (config.luhnMode = true → luhnValid (val.filter (fun ch => decide (ch ∈ asciiDigits))) = true))) ∧
  out.length = val.length ∧
  ∀ (i : Nat) (ch : Char), val[i]? = some ch → ch ∉ config.charset → out[i]? = some ch

section

variable (cipher : BlockCipher) {stdnum : Stdnum} {config : FpeConfig} {key tweak : List UInt8}
  {val out : List Char}

theorem roundTrips_iff_canonical (consistent : stdnum.Consistent) (valid : config.Valid)
    (plain : config.luhnMode = false)
    (masked : fpeEncryptValue cipher stdnum config key tweak val = .ok out) :
    RoundTrips cipher stdnum config key tweak val out ↔
      CheckCharCanonical (config.checksum.bind schemeOfName)
        (val.filter (fun ch => decide (ch ∈ config.charset))) := by
  obtain ⟨⟨recovered, back, exactly⟩, shape⟩ := fpeValue_inverse cipher
    (CheckCharCanonical (config.checksum.bind schemeOfName))
    (fun nonempty inside ran =>
      fpePureValue_bodyInverse cipher consistent valid plain nonempty inside ran) masked
  constructor
  · rintro ⟨⟨other, again, returned⟩, _⟩
    rw [back] at again
    obtain rfl := Except.ok.inj again
    exact exactly.mp (returned.mpr (by simp [plain]))
  · intro canonical
    refine ⟨⟨recovered, back, ?_⟩, shape⟩
    simp [plain, exactly.mpr canonical]

theorem not_roundTrips {recovered : List Char} (plain : config.luhnMode = false)
    (back : fpeDecryptValue cipher stdnum config key tweak out = .ok recovered)
    (different : recovered ≠ val) : ¬ RoundTrips cipher stdnum config key tweak val out := by
  rintro ⟨⟨other, again, same⟩, _⟩
  rw [back] at again
  obtain rfl := Except.ok.inj again
  exact different (same.mpr (by simp [plain]))

theorem roundTrips_luhn (luhn : config.luhnMode = true)
    (complete : ∀ ch ∈ asciiDigits, ch ∈ config.charset)
    (masked : fpeEncryptValue cipher stdnum config key tweak val = .ok out) :
    RoundTrips cipher stdnum config key tweak val out := by
  obtain ⟨⟨recovered, back, exactly⟩, shape⟩ := fpeValue_inverse cipher
    (fun s => luhnValid s = true)
    (fun nonempty inside ran => luhn_bodyInverse cipher luhn complete nonempty inside ran) masked
  have digits : val.filter (fun ch => decide (ch ∈ asciiDigits)) =
      val.filter (fun ch => decide (ch ∈ config.charset)) := by
    refine List.filter_congr fun ch _ => ?_
    exact decide_eq_decide.mpr ⟨complete ch, (luhnMode_iff.mp luhn).2.2 ch⟩
  refine ⟨⟨recovered, back, ?_⟩, shape⟩
  simpa [luhn, digits] using exactly

end

/-- Where unmasking inverts masking: without `validate_luhn`, on exactly the values whose
check character is the canonical one; with it, for exactly the alphabets that hold all ten
digits. -/
theorem fpe_unmask_inverts_mask (cipher : BlockCipher) (stdnum : Stdnum)
    (consistent : stdnum.Consistent) (config : FpeConfig) (valid : config.Valid)
    (key tweak : List UInt8) :
    (config.luhnMode = false → ∀ val out,
      fpeEncryptValue cipher stdnum config key tweak val = .ok out →
      (RoundTrips cipher stdnum config key tweak val out ↔
        CheckCharCanonical (config.checksum.bind schemeOfName)
          (val.filter (fun ch => decide (ch ∈ config.charset))))) ∧
    (config.luhnMode = true → key.length = ff1KeyBytes → tweak.length ≤ ff1MaxTweakLen →
      ((∀ val out, fpeEncryptValue cipher stdnum config key tweak val = .ok out →
          RoundTrips cipher stdnum config key tweak val out) ↔
        ∀ ch ∈ asciiDigits, ch ∈ config.charset)) := by
  refine ⟨fun plain val out masked => roundTrips_iff_canonical cipher consistent valid plain masked,
    fun luhn keySize tweakUpper => ⟨fun always ch digit => ?_, fun complete val out masked =>
      roundTrips_luhn cipher luhn complete masked⟩⟩
  by_contra absent
  obtain ⟨val, out, masked, raises⟩ :=
    luhn_incomplete_breaks cipher stdnum valid luhn keySize tweakUpper digit absent
  obtain ⟨⟨recovered, back, _⟩, _⟩ := always val out masked
  exact raises recovered back

namespace ReferenceStdnum

def compact (text : List Char) : List Char := text.filter (fun ch => ch != ' ' && ch != '-')

def allDigits (text : List Char) : Bool := text.all (fun ch => ch ∈ asciiDigits)

def weightedTotal (i : Nat) : List Nat → Nat
  | [] => 0
  | digit :: rest => (if i % 2 = 0 then 3 * digit else digit) + weightedTotal (i + 1) rest

def eanCalcCheckDigit (body : List Char) : Option (List Char) :=
  if allDigits body then
    (body.reverse.mapM decimalValue).map
      (fun values => [digitChar ((10 - weightedTotal 0 values % 10) % 10)])
  else none

def eanIsValid (text : List Char) : Bool :=
  let number := compact text
  allDigits number && [14, 13, 12, 8].contains number.length &&
    eanCalcCheckDigit number.dropLast == number.getLast?.map (fun ch => [ch])

def isbn10Check (body : List Nat) : Char :=
  let total := ((body.zipIdx.map (fun entry => (entry.2 + 1) * entry.1)).sum) % 11
  if total = 10 then 'X' else digitChar total

def isbnIsValid (text : List Char) : Bool :=
  let cleaned := upper (compact text)
  let number := if cleaned.length = 9 then '0' :: cleaned else cleaned
  if number.length = 10 then
    match number.dropLast.mapM decimalValue with
    | some body => allDigits number.dropLast && number.getLast? == some (isbn10Check body)
    | none => false
  else if number.length = 13 then
    eanIsValid number && ["978".toList, "979".toList].contains (number.take 3)
  else false

/-- Every entry point the six supported schemes reach; the IBAN ones are not modelled. -/
def stdnum : Stdnum where
  luhnIsValid text := text ≠ [] && allDigits text && luhnValid text
  luhnCalcCheckDigit body := if allDigits body then luhnCd body else none
  ibanIsValid _ := false
  ibanCalcCheckDigits _ := none
  isbnIsValid := isbnIsValid
  eanIsValid := eanIsValid
  eanCalcCheckDigit := eanCalcCheckDigit

theorem allDigits_iff {text : List Char} :
    allDigits text = true ↔ ∀ ch ∈ text, ch ∈ asciiDigits := by
  simp [allDigits]

theorem eanCalc_total {body : List Char} (digits : ∀ ch ∈ body, ch ∈ asciiDigits) :
    ∃ check ∈ asciiDigits, eanCalcCheckDigit body = some [check] := by
  obtain ⟨values, read, bounded, _⟩ := exists_digitValues
    (fun ch member => digits ch (List.mem_reverse.mp member))
  refine ⟨digitChar ((10 - weightedTotal 0 values % 10) % 10),
    digitChar_mem (Nat.mod_lt _ (by decide)), ?_⟩
  rw [eanCalcCheckDigit, if_pos (allDigits_iff.mpr digits), read]
  rfl

theorem eanIsValid_split {text : List Char} (valid : eanIsValid text = true) :
    ∃ body check, compact text = body ++ [check] ∧
      (∀ ch ∈ body ++ [check], ch ∈ asciiDigits) ∧ eanCalcCheckDigit body = some [check] := by
  simp only [eanIsValid, Bool.and_eq_true, beq_iff_eq] at valid
  obtain ⟨⟨digits, length⟩, computed⟩ := valid
  have nonempty : compact text ≠ [] := by
    intro empty
    rw [empty] at length
    exact absurd length (by decide)
  obtain ⟨last, split, lastIs⟩ := dropLast_split nonempty
  refine ⟨(compact text).dropLast, last, split, ?_, ?_⟩
  · rw [← split]
    exact allDigits_iff.mp digits
  · rw [computed, lastIs]
    rfl

theorem compact_printable {text : List Char} (printable : ∀ ch ∈ text, isPrintableAscii ch = true) :
    compact text = text.filter (fun ch => ch != '-') := by
  refine List.filter_congr fun ch member => ?_
  have space : ch ≠ ' ' := by
    rintro rfl
    exact absurd (printable ' ' member) (by decide)
  simp [space]

theorem luhn_valid_check {body : List Char} {check : Char}
    (valid : stdnum.luhnIsValid (body ++ [check]) = true) :
    (∀ ch ∈ body ++ [check], ch ∈ asciiDigits) ∧
      stdnum.luhnCalcCheckDigit body = some [check] := by
  simp only [stdnum, Bool.and_eq_true] at valid
  obtain ⟨⟨_, digits⟩, valid⟩ := valid
  have allDigit := allDigits_iff.mp digits
  have bodyDigits : ∀ ch ∈ body, ch ∈ asciiDigits :=
    fun ch member => allDigit ch (List.mem_append_left _ member)
  obtain ⟨values, _, bounded, rfl⟩ := exists_digitValues bodyDigits
  obtain ⟨digit, small, rfl⟩ := exists_digitChar (allDigit check (by simp))
  refine ⟨allDigit, ?_⟩
  simp only [stdnum, if_pos (allDigits_iff.mpr bodyDigits)]
  exact (luhnValid_append bounded small).mp valid

theorem toUpper_number {ch : Char} (printable : isPrintableAscii ch = true)
    (upper : ch.toUpper ∈ ' ' :: '-' :: asciiDigits) : ch.toUpper = ch := by
  have table : ∀ code < 127, (Char.ofNat code).toUpper ∈ ' ' :: '-' :: asciiDigits →
      (Char.ofNat code).toUpper = Char.ofNat code := by decide
  have small : ch.toNat < 127 := by
    simp only [isPrintableAscii, Bool.and_eq_true, decide_eq_true_eq] at printable
    omega
  have entry := table ch.toNat small
  rw [Char.ofNat_toNat] at entry
  exact entry upper

theorem compact_append {body : List Char} (digits : ∀ ch ∈ body, ch ∈ asciiDigits) {ch : Char}
    (kept : (ch != ' ' && ch != '-') = true) : compact (body ++ [ch]) = body ++ [ch] := by
  have plain : ∀ ch ∈ asciiDigits, (ch != ' ' && ch != '-') = true := by decide
  refine List.filter_eq_self.mpr fun other member => ?_
  rcases List.mem_append.mp member with member | member
  · exact plain other (digits other member)
  · exact List.mem_singleton.mp member ▸ kept

theorem isbn_valid_check {body : List Char} {check : Char} (length : body.length = 12)
    (digits : ∀ ch ∈ body, ch ∈ asciiDigits) (printable : isPrintableAscii check = true)
    (valid : isbnIsValid (body ++ [check]) = true) :
    eanCalcCheckDigit body = some [check] := by
  have plain : ∀ ch ∈ asciiDigits, (ch != ' ' && ch != '-') = true ∧ ch.toUpper = ch := by decide
  have keepBody : compact body = body :=
    List.filter_eq_self.mpr fun ch member => (plain ch (digits ch member)).1
  have upperBody : upper body = body :=
    (List.map_congr_left fun ch member => (plain ch (digits ch member)).2).trans (List.map_id body)
  have space : ∀ {ch : Char}, isPrintableAscii ch = true → ch ≠ ' ' := by
    rintro ch visible rfl
    exact absurd visible (by decide)
  by_cases separator : check = '-'
  · subst separator
    have cleaned : upper (compact (body ++ ['-'])) = body := by
      rw [compact, List.filter_append, ← compact, keepBody]
      simp [upperBody]
    simp [isbnIsValid, cleaned, length] at valid
  · have cleaned : upper (compact (body ++ [check])) = body ++ [check.toUpper] := by
      rw [compact_append digits (by simp [separator, space printable]), upper, List.map_append,
        ← upper, upperBody]
      rfl
    have eanValid : eanIsValid (body ++ [check.toUpper]) = true := by
      simp only [isbnIsValid, cleaned, List.length_append, length, List.length_singleton,
        show ¬ (12 + 1 = 9) by decide, if_false, show ¬ (12 + 1 = 10) by decide, if_true,
        Bool.and_eq_true] at valid
      exact valid.1
    obtain ⟨front, last, split, allDigit, computed⟩ := eanIsValid_split eanValid
    have raised : check.toUpper ≠ '-' := by
      intro same
      have fixed := toUpper_number printable (by rw [same]; decide)
      exact separator (fixed.symm.trans same)
    have visible : check.toUpper ≠ ' ' := by
      intro same
      have fixed := toUpper_number printable (by rw [same]; decide)
      exact space printable (fixed.symm.trans same)
    rw [compact_append digits (by simp [raised, visible])] at split
    obtain ⟨rfl, same⟩ := List.append_inj' split rfl
    obtain rfl := List.singleton_inj.mp same
    have fixed := toUpper_number printable
      (List.mem_cons_of_mem _ (List.mem_cons_of_mem _ (allDigit check.toUpper (by simp))))
    rw [computed, fixed]

theorem stdnum_consistent : stdnum.Consistent where
  luhn_calc := by
    intro body digits
    simp only [stdnum, if_pos (allDigits_iff.mpr digits)]
    exact luhnCd_total digits
  luhn_valid := fun _ _ valid => luhn_valid_check valid
  ean_calc := fun _ digits => eanCalc_total digits
  ean_calc_digits := by
    intro body check _ computed
    simp only [stdnum, eanCalcCheckDigit] at computed
    split at computed
    · rename_i digits
      exact allDigits_iff.mp digits
    · cases computed
  ean_valid := by
    intro text printable valid
    rw [← compact_printable printable]
    exact eanIsValid_split valid
  isbn_valid := fun _ _ length digits printable valid =>
    isbn_valid_check length digits printable valid

end ReferenceStdnum

def vinColumn : FpeConfig where
  charset := resolveFpeCharset "ALPHANUM"
  preserveSeparators := true
  validateLuhn := false
  checksum := some "vin"

/-- The tweak of a column named `vin`: version, scope, length, identity. -/
def vinTweak : List UInt8 := [1, 1, 0, 3, 0x76, 0x69, 0x6E]

theorem vinColumn_valid : vinColumn.Valid where
  unique := by decide +kernel
  printable := by decide +kernel
  nondegenerate := by decide +kernel
  scheme := by
    intro name configured
    obtain rfl := Option.some.inj configured
    exact ⟨.vin, vinCharset, by decide +kernel, rfl, by decide +kernel⟩

theorem vinColumn_masks :
    fpeEncryptValue aes ReferenceStdnum.stdnum vinColumn (List.replicate 32 0) vinTweak
      "1M8GDM9AXKP042788".toList = .ok "XARWYXBS7BRVEG8WH".toList := by
  decide +kernel

/-- The VIN as printed on the vehicle survives masking and unmasking. -/
theorem fpe_unmask_inverts_mask_vin :
    RoundTrips aes ReferenceStdnum.stdnum vinColumn (List.replicate 32 0) vinTweak
      "1M8GDM9AXKP042788".toList "XARWYXBS7BRVEG8WH".toList := by
  have canonical := (fpe_unmask_inverts_mask aes ReferenceStdnum.stdnum
    ReferenceStdnum.stdnum_consistent vinColumn vinColumn_valid (List.replicate 32 0) vinTweak).1 rfl
    _ _ vinColumn_masks
  have scheme : vinColumn.checksum.bind schemeOfName = some .vin := by decide +kernel
  rw [canonical, scheme, CheckCharCanonical]
  decide +kernel

/-- The validator accepts the same VIN with a lower-case check character, and the masked
value is the same, so the lower-case spelling cannot come back. -/
theorem fpe_unmask_upper_cases_vin_check :
    vinColumn.Valid ∧ ReferenceStdnum.stdnum.Consistent ∧
      fpeEncryptValue aes ReferenceStdnum.stdnum vinColumn (List.replicate 32 0) vinTweak
        "1M8GDM9AxKP042788".toList = .ok "XARWYXBS7BRVEG8WH".toList ∧
      fpeDecryptValue aes ReferenceStdnum.stdnum vinColumn (List.replicate 32 0) vinTweak
        "XARWYXBS7BRVEG8WH".toList = .ok "1M8GDM9AXKP042788".toList ∧
      ¬ RoundTrips aes ReferenceStdnum.stdnum vinColumn (List.replicate 32 0) vinTweak
        "1M8GDM9AxKP042788".toList "XARWYXBS7BRVEG8WH".toList := by
  have back : fpeDecryptValue aes ReferenceStdnum.stdnum vinColumn (List.replicate 32 0) vinTweak
      "XARWYXBS7BRVEG8WH".toList = .ok "1M8GDM9AXKP042788".toList := by decide +kernel
  exact ⟨vinColumn_valid, ReferenceStdnum.stdnum_consistent, by decide +kernel, back,
    not_roundTrips aes rfl back (by decide +kernel)⟩

end DecoyEngine.Transforms
