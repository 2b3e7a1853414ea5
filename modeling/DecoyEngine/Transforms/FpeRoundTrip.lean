import DecoyEngine.Transforms.FpeChecksum

namespace DecoyEngine.Transforms

open DecoyEngine.Data DecoyEngine.Checksums

section Schemes

variable (cipher : BlockCipher) {stdnum : Stdnum} {key tweak : List UInt8} {charset s : List Char}

/-- The check character is the one the scheme's check-digit function writes: the VIN
validator also accepts a lower-case `x`, the EAN validator a trailing separator. -/
def CheckCharCanonical (scheme : Option Scheme) (s : List Char) : Prop :=
  match scheme with
  | some .vin => s[8]? ≠ some 'x'
  | some .ean13 | some .gtin => s.getLast? ≠ some '-'
  | _ => True

theorem validateSchemeLength_ok_iff {scheme : Scheme} :
    validateSchemeLength scheme s = .ok () ↔
      (∀ exact, exactLengths scheme = some exact → s.length ∈ exact) ∧
        ∀ minimum, minLengths scheme = some minimum → minimum ≤ s.length := by
  cases scheme <;> simp [validateSchemeLength, exactLengths, minLengths, bind, Except.bind, pure,
    Except.pure, throw, throwThe, MonadExceptOf.throw]
  all_goals omega

theorem validateSchemeLength_of_length {scheme : Scheme} {out : List Char}
    (accepted : validateSchemeLength scheme s = .ok ()) (length : out.length = s.length) :
    validateSchemeLength scheme out = .ok () := by
  rw [validateSchemeLength_ok_iff] at accepted ⊢
  rw [length]
  exact accepted

/-- What unmasking returns for a masked body, against the source body `s`. -/
structure BodyInverse (alphabet : List Char) (run : Bool → List Char → Except FpeRaise (List Char))
    (canonical : Prop) (s out : List Char) : Prop where
  length : out.length = s.length
  inside : ∀ ch ∈ out, ch ∈ alphabet
  back : ∃ recovered, run false out = .ok recovered ∧ recovered.length = s.length ∧
    (∀ ch ∈ recovered, ch ∈ alphabet) ∧ (recovered = s ↔ canonical)

theorem pinnedBody_bodyInverse {alphabet : List Char} {pinned inner : Nat}
    {checkOf : List Char → Option (List Char)} {out : List Char} {canonical : Prop}
    (digital : ∀ ch ∈ alphabet, ch ∈ asciiDigits) (length : s.length = pinned + inner + 1)
    (positive : 0 < inner) (leading : ∀ ch ∈ s.take pinned, ch ∈ asciiDigits)
    (total : ∀ body, (∀ ch ∈ body, ch ∈ asciiDigits) →
      ∃ check ∈ asciiDigits, checkOf body = some [check])
    (matching : ∀ check ∈ asciiDigits, (∀ ch ∈ s.take (pinned + inner), ch ∈ asciiDigits) →
      checkOf (s.take (pinned + inner)) = some [check] → (s.getLast? = some check ↔ canonical))
    (ran : pinnedBody cipher alphabet pinned inner checkOf s key tweak true = .ok out) :
    BodyInverse asciiDigits
      (fun forward text => pinnedBody cipher alphabet pinned inner checkOf text key tweak forward)
      canonical s out := by
  obtain ⟨outLength, inside, digits, check, member, computed, back⟩ :=
    pinnedBody_inverse cipher digital length positive leading total ran
  refine ⟨outLength, inside, _, back, ?_, ?_, ?_⟩
  · rw [List.length_append, List.length_take, List.length_singleton, length]
    omega
  · intro ch found
    rcases List.mem_append.mp found with found | found
    · exact digits ch found
    · exact List.mem_singleton.mp found ▸ member
  · rw [eq_take_append_last length]
    exact matching check member digits computed

theorem dropLast_split (nonempty : s ≠ []) : ∃ last, s = s.dropLast ++ [last] ∧
    s.getLast? = some last :=
  ⟨s.getLast nonempty, (List.dropLast_append_getLast nonempty).symm,
    List.getLast?_eq_getLast_of_ne_nil nonempty⟩

/-- The trailing check digit that the EAN validator accepts is the computed one, unless
the last character is a separator it dropped. -/
theorem ean_matching (consistent : stdnum.Consistent) {check : Char} (nonempty : s ≠ [])
    (printable : ∀ ch ∈ s, isPrintableAscii ch = true) (valid : stdnum.eanIsValid s = true)
    (member : check ∈ asciiDigits) (digits : ∀ ch ∈ s.dropLast, ch ∈ asciiDigits)
    (computed : stdnum.eanCalcCheckDigit s.dropLast = some [check]) :
    s.getLast? = some check ↔ s.getLast? ≠ some '-' := by
  obtain ⟨last, split, lastIs⟩ := dropLast_split nonempty
  have plain : ∀ ch ∈ asciiDigits, ch ≠ '-' := by decide
  rw [lastIs, Ne, Option.some_inj, Option.some_inj]
  constructor
  · rintro rfl
    exact plain _ member
  · intro separator
    obtain ⟨body, accepted, compact, _, acceptedCheck⟩ := consistent.ean_valid s printable valid
    have whole : s.filter (fun ch => ch != '-') = s.dropLast ++ [last] := by
      rw [split, List.filter_append]
      congr 1
      · rw [← split]
        exact List.filter_eq_self.mpr fun ch found => by simpa using plain ch (digits ch found)
      · simp [separator]
    rw [whole] at compact
    obtain ⟨rfl, same⟩ := List.append_inj' compact rfl
    rw [computed] at acceptedCheck
    rw [List.singleton_inj.mp same, List.singleton_inj.mp (Option.some.inj acceptedCheck)]

theorem checksumBody_suffix {scheme : Scheme}
    (suffix : scheme = .luhn ∨ scheme = .ean13 ∨ scheme = .gtin) (text : List Char)
    (forward : Bool) :
    checksumBody cipher stdnum text key charset tweak forward scheme =
      pinnedBody cipher asciiDigits 0 (text.length - 1) (calcCheckDigit stdnum scheme) text key tweak forward := by
  have initial : text.dropLast = (text.take (0 + (text.length - 1))).drop 0 := by
    simp [List.dropLast_eq_take]
  rcases suffix with rfl | rfl | rfl <;>
    simp only [checksumBody, pinnedBody, initial, List.take_zero, List.nil_append]

theorem suffix_bodyInverse (consistent : stdnum.Consistent) {scheme : Scheme} {out : List Char}
    (suffix : scheme = .luhn ∨ scheme = .ean13 ∨ scheme = .gtin) (length : 2 ≤ s.length)
    (printable : ∀ ch ∈ s, isPrintableAscii ch = true) (valid : validate stdnum scheme s = true)
    (ran : checksumBody cipher stdnum s key charset tweak true scheme = .ok out) :
    BodyInverse asciiDigits
      (fun forward text => checksumBody cipher stdnum text key charset tweak forward scheme)
      (CheckCharCanonical (some scheme) s) s out := by
  have nonempty : s ≠ [] := by
    rintro rfl
    simp at length
  have initial : s.take (0 + (s.length - 1)) = s.dropLast := by simp [List.dropLast_eq_take]
  have total : ∀ body, (∀ ch ∈ body, ch ∈ asciiDigits) →
      ∃ check ∈ asciiDigits, calcCheckDigit stdnum scheme body = some [check] := by
    rcases suffix with rfl | rfl | rfl
    · exact consistent.luhn_calc
    · exact consistent.ean_calc
    · exact consistent.ean_calc
  have matching : ∀ check ∈ asciiDigits, (∀ ch ∈ s.take (0 + (s.length - 1)), ch ∈ asciiDigits) →
      calcCheckDigit stdnum scheme (s.take (0 + (s.length - 1))) = some [check] →
      (s.getLast? = some check ↔ CheckCharCanonical (some scheme) s) := by
    rw [initial]
    intro check member digits computed
    rcases suffix with rfl | rfl | rfl
    · obtain ⟨last, split, lastIs⟩ := dropLast_split nonempty
      have accepted := consistent.luhn_valid s.dropLast last (by rw [← split]; exact valid)
      have same := computed.symm.trans accepted.2
      simpa [CheckCharCanonical, lastIs] using (List.singleton_inj.mp (Option.some.inj same)).symm
    · exact ean_matching consistent nonempty printable valid member digits computed
    · exact ean_matching consistent nonempty printable valid member digits computed
  rw [checksumBody_suffix cipher suffix] at ran
  have inverse := pinnedBody_bodyInverse cipher (fun _ member => member) (by omega) (by omega) (by simp) total matching ran
  obtain ⟨recovered, back, rest⟩ := inverse.back
  refine ⟨inverse.length, inverse.inside, recovered, ?_, rest⟩
  rw [checksumBody_suffix cipher suffix, inverse.length]
  exact back

theorem npi_bodyInverse {out : List Char} (length : s.length = 10)
    (valid : npiValidate s = true)
    (ran : checksumBody cipher stdnum s key charset tweak true .npi = .ok out) :
    BodyInverse asciiDigits
      (fun forward text => checksumBody cipher stdnum text key charset tweak forward .npi)
      (CheckCharCanonical (some .npi) s) s out := by
  unfold npiValidate at valid
  split at valid
  · cases valid
  split at valid
  · cases valid
  rename_i leads
  have first : s.take 1 = [s[0]!] := by
    cases s with
    | nil => simp at length
    | cons head rest => rfl
  have leading : ∀ ch ∈ s.take 1, ch ∈ asciiDigits := by
    rw [first]
    intro ch member
    rw [List.mem_singleton.mp member]
    rw [not_not] at leads
    revert leads
    generalize s[0]! = head
    intro leads
    have digits : ∀ ch ∈ ['1', '2'], ch ∈ asciiDigits := by decide
    exact digits head leads
  have matching : ∀ check ∈ asciiDigits, (∀ ch ∈ s.take (1 + 8), ch ∈ asciiDigits) →
      npiCalcCheckDigit (s.take (1 + 8)) = some [check] →
      (s.getLast? = some check ↔ CheckCharCanonical (some .npi) s) := by
    intro check _ _ computed
    have accepted := eq_of_beq valid
    rw [computed] at accepted
    have last : s.getLast? = some s[9]! := by
      rw [List.getLast?_eq_getElem?, length, List.getElem!_eq_getElem?_getD,
        List.getElem?_eq_getElem (by omega)]
      simp
    simp [CheckCharCanonical, last, List.singleton_inj.mp (Option.some.inj accepted)]
  exact pinnedBody_bodyInverse cipher (fun _ member => member) length (by omega) leading
    (fun _ digits => npiCalcCheckDigit_total digits) matching ran

theorem isbn_bodyInverse (consistent : stdnum.Consistent) {out : List Char} (length : s.length = 13)
    (printable : ∀ ch ∈ s, isPrintableAscii ch = true) (valid : stdnum.isbnIsValid s = true)
    (ran : checksumBody cipher stdnum s key charset tweak true .isbn13 = .ok out) :
    BodyInverse asciiDigits
      (fun forward text => checksumBody cipher stdnum text key charset tweak forward .isbn13)
      (CheckCharCanonical (some .isbn13) s) s out := by
  have shape : pinnedBody cipher asciiDigits 3 9 (calcCheckDigit stdnum .isbn13) s key tweak true = .ok out := ran
  have visible : ∀ ch ∈ asciiDigits, isPrintableAscii ch = true := by decide
  have leading : ∀ ch ∈ s.take 3, ch ∈ asciiDigits := by
    -- a separator among the pinned characters makes the check-digit function raise
    obtain ⟨middle, check, permuted, computed, _⟩ := pinnedBody_ok cipher shape
    have width : ((s.take (3 + 9)).drop 3).length = 9 := by simp [length]
    have nonempty : (s.take (3 + 9)).drop 3 ≠ [] := by
      intro empty
      rw [empty] at width
      simp at width
    obtain ⟨_, _, inside, _⟩ := permute_undo cipher nonempty permuted
    have digits := consistent.ean_calc_digits (s.take 3 ++ middle) check (by
      intro ch member
      rcases List.mem_append.mp member with member | member
      · exact printable ch (List.mem_of_mem_take member)
      · exact visible ch (inside ch member)) computed
    exact fun ch member => digits ch (List.mem_append_left _ member)
  have matching : ∀ check ∈ asciiDigits, (∀ ch ∈ s.take (3 + 9), ch ∈ asciiDigits) →
      calcCheckDigit stdnum .isbn13 (s.take (3 + 9)) = some [check] →
      (s.getLast? = some check ↔ CheckCharCanonical (some .isbn13) s) := by
    intro check _ digits computed
    have nonempty : s ≠ [] := by
      rintro rfl
      simp at length
    obtain ⟨last, split, lastIs⟩ := dropLast_split nonempty
    have initial : s.take (3 + 9) = s.dropLast := by rw [List.dropLast_eq_take, length]
    rw [initial] at digits computed
    have accepted := consistent.isbn_valid s.dropLast last (by simp [length]) digits
      (printable last (List.mem_of_getLast? lastIs)) (by rw [← split]; exact valid)
    have same := (show stdnum.eanCalcCheckDigit s.dropLast = _ from computed).symm.trans accepted
    simp [CheckCharCanonical, lastIs, List.singleton_inj.mp (Option.some.inj same)]
  exact pinnedBody_bodyInverse cipher (fun _ member => member) length (by omega) leading consistent.ean_calc matching shape

theorem vin_bodyInverse {out : List Char} (length : s.length = 17)
    (printable : ∀ ch ∈ s, isPrintableAscii ch = true) (valid : vinValidate s = true)
    (ran : checksumBody cipher stdnum s key charset tweak true .vin = .ok out) :
    BodyInverse vinCharset
      (fun forward text => checksumBody cipher stdnum text key charset tweak forward .vin)
      (CheckCharCanonical (some .vin) s) s out := by
  obtain ⟨outLength, inside, legal, check, checkLegal, computed, back⟩ :=
    vinBody_inverse cipher stdnum length ran
  refine ⟨outLength.trans length.symm, inside, _, back, ?_, ?_, ?_⟩
  · simp [length]
  · intro ch member
    rw [List.append_assoc, List.singleton_append] at member
    rcases List.mem_append.mp member with member | member
    · exact legal ch (List.mem_append_left _ member)
    · rcases List.mem_cons.mp member with rfl | member
      · exact checkLegal
      · exact legal ch (List.mem_append_right _ member)
  · exact vinValidate_check length printable legal valid computed

theorem BodyInverse.mono {alphabet larger : List Char}
    {run other : Bool → List Char → Except FpeRaise (List Char)} {canonical : Prop}
    {out : List Char} (inverse : BodyInverse alphabet run canonical s out)
    (sub : ∀ ch ∈ alphabet, ch ∈ larger) (same : other false out = run false out) :
    BodyInverse larger other canonical s out := by
  obtain ⟨recovered, back, length, inside, exactly⟩ := inverse.back
  exact ⟨inverse.length, fun ch member => sub ch (inverse.inside ch member), recovered,
    same.trans back, length, fun ch member => sub ch (inside ch member), exactly⟩

theorem checksum_bodyInverse (consistent : stdnum.Consistent) {scheme : Scheme}
    {required out : List Char} (supported : schemeRequiredCharset scheme = some required)
    (accepted : validateSchemeLength scheme s = .ok ())
    (printable : ∀ ch ∈ s, isPrintableAscii ch = true) (valid : validate stdnum scheme s = true)
    (ran : checksumBody cipher stdnum s key charset tweak true scheme = .ok out) :
    BodyInverse required
      (fun forward text => checksumBody cipher stdnum text key charset tweak forward scheme)
      (CheckCharCanonical (some scheme) s) s out := by
  obtain ⟨exact, minimum⟩ := validateSchemeLength_ok_iff.mp accepted
  cases scheme with
  | iban => simp [schemeRequiredCharset] at supported
  | luhn =>
      obtain rfl := Option.some.inj supported
      exact suffix_bodyInverse cipher consistent (.inl rfl) (minimum 2 rfl) printable valid ran
  | ean13 =>
      obtain rfl := Option.some.inj supported
      have length : s.length = 13 := List.mem_singleton.mp (exact _ rfl)
      exact suffix_bodyInverse cipher consistent (.inr (.inl rfl)) (by omega) printable valid ran
  | gtin =>
      obtain rfl := Option.some.inj supported
      have length := exact _ rfl
      simp only [List.mem_cons, List.not_mem_nil, or_false] at length
      exact suffix_bodyInverse cipher consistent (.inr (.inr rfl)) (by omega) printable valid ran
  | npi =>
      obtain rfl := Option.some.inj supported
      exact npi_bodyInverse cipher (List.mem_singleton.mp (exact _ rfl)) valid ran
  | isbn13 =>
      obtain rfl := Option.some.inj supported
      exact isbn_bodyInverse cipher consistent (List.mem_singleton.mp (exact _ rfl)) printable valid
        ran
  | vin =>
      obtain rfl := Option.some.inj supported
      exact vin_bodyInverse cipher (List.mem_singleton.mp (exact _ rfl)) printable valid ran

theorem fpeChecksumPermute_eq {name : String} {scheme : Scheme} {required : List Char}
    (known : schemeOfName name = some scheme)
    (supported : schemeRequiredCharset scheme = some required) (forward : Bool) :
    fpeChecksumPermute cipher stdnum s key charset tweak name forward =
      (validateSchemeLength scheme s).bind (fun _ =>
        if forward ∧ ¬ validate stdnum scheme s then .error (.fpeError (.invalidSource scheme))
        else checksumBody cipher stdnum s key charset tweak forward scheme) := by
  rw [fpeChecksumPermute, known]
  cases scheme <;> first | rfl | simp [schemeRequiredCharset] at supported

theorem fpeChecksumPermute_bodyInverse (consistent : stdnum.Consistent) {name : String}
    {scheme : Scheme} {required out : List Char} (known : schemeOfName name = some scheme)
    (supported : schemeRequiredCharset scheme = some required)
    (printable : ∀ ch ∈ s, isPrintableAscii ch = true)
    (ran : fpeChecksumPermute cipher stdnum s key charset tweak name true = .ok out) :
    BodyInverse required
      (fun forward text => fpeChecksumPermute cipher stdnum text key charset tweak name forward)
      (CheckCharCanonical (some scheme) s) s out := by
  rw [fpeChecksumPermute_eq cipher known supported] at ran
  cases accepted : validateSchemeLength scheme s with
  | error raised => simp [accepted, Except.bind] at ran
  | ok _ =>
      cases valid : validate stdnum scheme s with
      | false => simp [accepted, valid, Except.bind] at ran
      | true =>
          simp only [accepted, valid, Except.bind, not_true_eq_false, and_false, if_false] at ran
          have inverse := checksum_bodyInverse cipher consistent supported accepted printable valid
            ran
          refine inverse.mono (fun _ member => member) ?_
          have lengthOk := validateSchemeLength_of_length accepted inverse.length
          simp [fpeChecksumPermute_eq cipher known supported, lengthOk, Except.bind]

theorem permute_bodyInverse {out : List Char} (nonempty : s ≠ [])
    (ran : permute cipher s key charset tweak true = .ok out) :
    BodyInverse charset (fun forward text => permute cipher text key charset tweak forward) True
      s out := by
  obtain ⟨members, length, inside, back⟩ := permute_undo cipher nonempty ran
  exact ⟨length, inside, s, back, rfl, members, by simp⟩

theorem fpePureValue_bodyInverse (consistent : stdnum.Consistent) {config : FpeConfig}
    (valid : config.Valid) (plain : config.luhnMode = false) {out : List Char}
    (nonempty : s ≠ []) (inside : ∀ ch ∈ s, ch ∈ config.charset)
    (ran : fpePureValue cipher stdnum s key config.charset tweak config.luhnMode config.checksum
      true = .ok out) :
    BodyInverse config.charset
      (fun forward text => fpePureValue cipher stdnum text key config.charset tweak
        config.luhnMode config.checksum forward)
      (CheckCharCanonical (config.checksum.bind schemeOfName) s) s out := by
  have outNonempty : ∀ {text : List Char}, text.length = s.length → text ≠ [] := by
    rintro text length rfl
    exact nonempty (List.length_eq_zero_iff.mp length.symm)
  unfold fpePureValue at ran
  rw [if_neg nonempty] at ran
  cases configured : config.checksum with
  | none =>
      rw [configured, plain] at ran
      have inverse := permute_bodyInverse cipher nonempty ran
      refine inverse.mono (fun _ member => member) ?_
      simp [fpePureValue, outNonempty inverse.length, plain]
  | some name =>
      obtain ⟨scheme, required, known, supported, contained⟩ := valid.scheme name configured
      rw [configured] at ran
      have inverse := fpeChecksumPermute_bodyInverse cipher consistent known supported
        (fun ch member => valid.printable ch (inside ch member)) ran
      simp only [Option.bind_some, known]
      refine inverse.mono contained ?_
      simp [fpePureValue, outNonempty inverse.length]

end Schemes

/-! Luhn mode -/

section Luhn

variable (cipher : BlockCipher) {stdnum : Stdnum} {key tweak : List UInt8} {charset s : List Char}

theorem luhnTotal_add_two (values : List Nat) (i : Nat) :
    luhnTotal (i + 2) values = luhnTotal i values := by
  induction values generalizing i with
  | nil => rfl
  | cons value values ih =>
      have parity : (i + 2) % 2 = i % 2 := by omega
      rw [luhnTotal, luhnTotal, luhnTerm, luhnTerm, parity, show i + 2 + 1 = i + 1 + 2 by omega, ih]

theorem luhnValid_append {values : List Nat} {digit : Nat}
    (bounded : ∀ value ∈ values, value < 10) (small : digit < 10) :
    luhnValid (values.map digitChar ++ [digitChar digit]) = true ↔
      luhnCd (values.map digitChar) = some [digitChar digit] := by
  have whole : values.map digitChar ++ [digitChar digit] = (values ++ [digit]).map digitChar := by
    simp
  have allSmall : ∀ value ∈ (values ++ [digit]).reverse, value < 10 := by
    intro value member
    simp only [List.reverse_append, List.reverse_cons, List.reverse_nil, List.nil_append,
      List.mem_append, List.mem_singleton, List.mem_reverse] at member
    rcases member with rfl | member
    · exact small
    · exact bounded value member
  rw [luhnCd_digits bounded, luhnValid, whole, ← List.map_reverse, mapM_decimalValue allSmall]
  simp only [List.reverse_append, List.reverse_cons, List.reverse_nil, List.nil_append,
    List.singleton_append, luhnTotal, beq_iff_eq, Option.some_inj, List.cons.injEq, and_true]
  have shift : luhnTotal (1 + 1) values.reverse = luhnTotal 0 values.reverse :=
    luhnTotal_add_two _ 0
  have last : luhnTerm 1 digit = digit := rfl
  rw [shift, last]
  constructor
  · intro valid
    congr 1
    omega
  · intro same
    have equal := digitChar_injective (by omega) small same
    omega

theorem luhnMode_iff {config : FpeConfig} : config.luhnMode = true ↔
    config.checksum = none ∧ config.validateLuhn = true ∧
      ∀ ch ∈ config.charset, ch ∈ asciiDigits := by
  simp [FpeConfig.luhnMode, and_assoc]

theorem fpePureValue_luhn {config : FpeConfig} (luhn : config.luhnMode = true) {text : List Char}
    (long : 2 ≤ text.length) (forward : Bool) :
    fpePureValue cipher stdnum text key config.charset tweak config.luhnMode config.checksum forward =
      pinnedBody cipher config.charset 0 (text.length - 1) luhnCd text key tweak forward := by
  have nonempty : text ≠ [] := by
    rintro rfl
    simp at long
  have initial : text.dropLast = (text.take (0 + (text.length - 1))).drop 0 := by
    simp [List.dropLast_eq_take]
  unfold fpePureValue
  rw [if_neg nonempty, (luhnMode_iff.mp luhn).1, luhn]
  simp only [long, and_self, if_true, pinnedBody, initial, luhnCheckDigit, List.take_zero,
    List.nil_append]

theorem fpePureValue_luhn_long {config : FpeConfig} (luhn : config.luhnMode = true)
    {out : List Char} (nonempty : s ≠ [])
    (ran : fpePureValue cipher stdnum s key config.charset tweak config.luhnMode config.checksum
      true = .ok out) : 2 ≤ s.length := by
  by_contra short
  unfold fpePureValue at ran
  rw [if_neg nonempty, (luhnMode_iff.mp luhn).1] at ran
  simp only [short, and_false, if_false] at ran
  obtain ⟨profile, _⟩ := permute_ok_inv cipher nonempty ran
  have wide := two_le_minDomainLength profile.radixUpper
  have domain := profile.domain
  omega

theorem luhn_bodyInverse {config : FpeConfig} (luhn : config.luhnMode = true)
    (complete : ∀ ch ∈ asciiDigits, ch ∈ config.charset) {out : List Char} (nonempty : s ≠ [])
    (inside : ∀ ch ∈ s, ch ∈ config.charset)
    (ran : fpePureValue cipher stdnum s key config.charset tweak config.luhnMode config.checksum
      true = .ok out) :
    BodyInverse config.charset
      (fun forward text => fpePureValue cipher stdnum text key config.charset tweak
        config.luhnMode config.checksum forward)
      (luhnValid s = true) s out := by
  have long := fpePureValue_luhn_long cipher luhn nonempty ran
  have digital := (luhnMode_iff.mp luhn).2.2
  have initial : s.take (0 + (s.length - 1)) = s.dropLast := by simp [List.dropLast_eq_take]
  have matching : ∀ check ∈ asciiDigits, (∀ ch ∈ s.take (0 + (s.length - 1)), ch ∈ asciiDigits) →
      luhnCd (s.take (0 + (s.length - 1))) = some [check] →
      (s.getLast? = some check ↔ luhnValid s = true) := by
    rw [initial]
    intro check member digits computed
    obtain ⟨last, split, lastIs⟩ := dropLast_split nonempty
    obtain ⟨values, _, bounded, body⟩ := exists_digitValues digits
    obtain ⟨digit, small, rfl⟩ :=
      exists_digitChar (digital last (inside last (List.mem_of_getLast? lastIs)))
    rw [lastIs, split, body, luhnValid_append bounded small, ← body, computed, Option.some_inj,
      Option.some_inj, List.singleton_inj, eq_comm]
  rw [fpePureValue_luhn cipher luhn long] at ran
  have inverse := pinnedBody_bodyInverse cipher digital (by omega) (by omega) (by simp)
    (fun _ digits => luhnCd_total digits) matching ran
  refine inverse.mono complete ?_
  rw [fpePureValue_luhn cipher luhn (by rw [inverse.length]; exact long), inverse.length]

end Luhn

section Values

variable (cipher : BlockCipher) {stdnum : Stdnum} {key tweak : List UInt8} {val out : List Char}

theorem fpeValue_preserving {charset : List Char} {luhn : Bool} {checksum : Option String}
    (nonempty : val ≠ []) (some_in : val.filter (fun ch => decide (ch ∈ charset)) ≠ [])
    (forward : Bool) :
    fpeValue cipher stdnum val key charset tweak true luhn checksum forward =
      (fpePureValue cipher stdnum (val.filter (fun ch => decide (ch ∈ charset))) key charset tweak
        luhn checksum forward).bind (fun body =>
          if body.length ≠ (val.filter (fun ch => decide (ch ∈ charset))).length then
            .error (.fpeError (.lengthInvariant body.length
              (val.filter (fun ch => decide (ch ∈ charset))).length val.length))
          else .ok (splice (fun ch => decide (ch ∈ charset)) val body)) := by
  have extracted := extract_positions (fun ch => decide (ch ∈ charset)) val
  have count : (selectedPositions (fun ch => decide (ch ∈ charset)) val).length =
      (val.filter (fun ch => decide (ch ∈ charset))).length := by
    rw [← extracted, List.length_map]
  have positions : selectedPositions (fun ch => decide (ch ∈ charset)) val ≠ [] := by
    intro empty
    rw [empty] at count
    exact some_in (List.length_eq_zero_iff.mp count.symm)
  rw [fpeValue, if_neg nonempty, if_pos rfl]
  simp only [if_neg positions, extracted, count, bind]
  congr 1
  funext body
  split
  · rfl
  · rename_i same
    rw [writeAt_positions _ _ _ (not_not.mp same)]

theorem fpeValue_ok {charset : List Char} {preserve luhn : Bool} {checksum : Option String}
    {forward : Bool}
    (ran : fpeValue cipher stdnum val key charset tweak preserve luhn checksum forward = .ok out) :
    val ≠ [] ∧ (preserve = true → val.filter (fun ch => decide (ch ∈ charset)) ≠ []) ∧
      (preserve = false → ∀ ch ∈ val, ch ∈ charset) := by
  have nonempty : val ≠ [] := by
    rintro rfl
    simp [fpeValue] at ran
  refine ⟨nonempty, ?_, ?_⟩
  · rintro rfl empty
    have extracted := extract_positions (fun ch => decide (ch ∈ charset)) val
    rw [empty, List.map_eq_nil_iff] at extracted
    simp [fpeValue, nonempty, extracted] at ran
  · rintro rfl
    by_contra outside
    have foreign : ¬ (val.all (fun ch => decide (ch ∈ charset))) = true := by simpa using outside
    rw [fpeValue, if_neg nonempty, if_neg (by decide), if_pos foreign] at ran
    cases ran

theorem fpeValue_inverse {config : FpeConfig} (canonical : List Char → Prop)
    (pure : ∀ {s out : List Char}, s ≠ [] → (∀ ch ∈ s, ch ∈ config.charset) →
      fpePureValue cipher stdnum s key config.charset tweak config.luhnMode config.checksum true =
        .ok out →
      BodyInverse config.charset
        (fun forward text => fpePureValue cipher stdnum text key config.charset tweak
          config.luhnMode config.checksum forward) (canonical s) s out)
    (ran : fpeEncryptValue cipher stdnum config key tweak val = .ok out) :
    (∃ recovered, fpeDecryptValue cipher stdnum config key tweak out = .ok recovered ∧
      (recovered = val ↔ canonical (val.filter (fun ch => decide (ch ∈ config.charset))))) ∧
    out.length = val.length ∧
    ∀ (i : Nat) (ch : Char), val[i]? = some ch → ch ∉ config.charset → out[i]? = some ch := by
  unfold fpeEncryptValue at ran
  obtain ⟨nonempty, covered, contained⟩ := fpeValue_ok cipher ran
  cases preserve : config.preserveSeparators with
  | false =>
      have inside := contained preserve
      have all : val.all (fun ch => decide (ch ∈ config.charset)) = true := by simpa using inside
      rw [fpeValue, if_neg nonempty, preserve, if_neg (by decide), if_neg (by simpa using inside)]
        at ran
      have inverse := pure nonempty inside ran
      obtain ⟨recovered, back, _, _, exactly⟩ := inverse.back
      have outNonempty : out ≠ [] := by
        rintro rfl
        exact nonempty (List.length_eq_zero_iff.mp inverse.length.symm)
      refine ⟨⟨recovered, ?_, ?_⟩, inverse.length, ?_⟩
      · rw [fpeDecryptValue, fpeValue, if_neg outNonempty, preserve, if_neg (by decide),
          if_neg (by simpa using inverse.inside)]
        exact back
      · rwa [List.filter_eq_self.mpr (by simpa using inside)]
      · intro i ch found foreign
        exact absurd (inside ch (List.mem_of_getElem? found)) foreign
  | true =>
      have someIn := covered preserve
      rw [preserve, fpeValue_preserving cipher nonempty someIn] at ran
      cases masked : fpePureValue cipher stdnum
          (val.filter (fun ch => decide (ch ∈ config.charset))) key config.charset tweak
          config.luhnMode config.checksum true with
      | error raised => simp [masked, Except.bind] at ran
      | ok body =>
          have inverse := pure someIn (fun ch member => by simpa using (List.mem_filter.mp member).2)
            masked
          have chosen : ∀ ch ∈ body, decide (ch ∈ config.charset) = true :=
            fun ch member => decide_eq_true (inverse.inside ch member)
          simp only [masked, Except.bind, inverse.length, ne_eq, not_true_eq_false, if_false] at ran
          obtain rfl := Except.ok.inj ran
          obtain ⟨recovered, back, recoveredLength, recoveredInside, exactly⟩ := inverse.back
          have recoveredChosen : ∀ ch ∈ recovered, decide (ch ∈ config.charset) = true :=
            fun ch member => decide_eq_true (recoveredInside ch member)
          have extracted := filter_splice _ chosen inverse.length
          have outNonempty : splice (fun ch => decide (ch ∈ config.charset)) val body ≠ [] := by
            intro empty
            have length := length_splice (fun ch => decide (ch ∈ config.charset)) val body
            rw [empty] at length
            exact nonempty (List.length_eq_zero_iff.mp length.symm)
          have bodyNonempty : body ≠ [] := by
            rintro rfl
            exact someIn (List.length_eq_zero_iff.mp inverse.length.symm)
          let restored := splice (fun ch => decide (ch ∈ config.charset))
            (splice (fun ch => decide (ch ∈ config.charset)) val body) recovered
          refine ⟨⟨restored, ?_, ?_⟩, length_splice _ _ _, ?_⟩
          · rw [fpeDecryptValue, preserve, fpeValue_preserving cipher outNonempty
              (by rwa [extracted]), extracted, back]
            simp only [Except.bind, recoveredLength, inverse.length, ne_eq, not_true_eq_false,
              if_false]
            rfl
          · simp only [restored]
            rw [splice_splice _ chosen inverse.length recoveredLength,
              splice_eq_self_iff _ recoveredChosen recoveredLength]
            exact exactly
          · intro i ch found foreign
            exact splice_unselected _ body found (decide_eq_false foreign)

end Values

section IncompleteAlphabet

/-- The Luhn check digit of `width - 2` copies of `a` followed by `b` and `c`. -/
def repeatedCheckDigit (width a b c : Nat) : Nat :=
  (10 - luhnTotal 0 (c :: b :: List.replicate (width - 2) a) % 10) % 10

def maskDigits (mask : Nat) : List Nat :=
  (List.range 10).filter (fun digit => mask.testBit digit)

/-- Exhaustive over the 1013 proper subsets of two or more digits: a body of the
shortest admitted length has its check digit outside the subset. -/
theorem exists_foreign_check : ∀ mask < 1023, 2 ≤ (maskDigits mask).length →
    ∃ a ∈ maskDigits mask, ∃ b ∈ maskDigits mask, ∃ c ∈ maskDigits mask,
      repeatedCheckDigit (minDomainLength (maskDigits mask).length) a b c ∉ maskDigits mask := by
  decide +kernel

variable {charset : List Char}

/-- The subset of the ten digits a charset holds, as bits. -/
def charsetMask (charset : List Char) : Nat :=
  Nat.ofBits (fun digit : Fin 10 => decide (digitChar digit ∈ charset))

theorem mem_maskDigits {digit : Nat} :
    digit ∈ maskDigits (charsetMask charset) ↔ digit < 10 ∧ digitChar digit ∈ charset := by
  rw [maskDigits, List.mem_filter, List.mem_range]
  refine and_congr_right fun small => ?_
  rw [charsetMask, Nat.testBit_ofBits_lt _ _ small, decide_eq_true_eq]

theorem maskDigits_perm (unique : charset.Nodup) (digital : ∀ ch ∈ charset, ch ∈ asciiDigits) :
    ((maskDigits (charsetMask charset)).map digitChar).Perm charset := by
  have distinct : ((maskDigits (charsetMask charset)).map digitChar).Nodup := by
    refine List.Nodup.map_on (fun left leftIn right rightIn same => ?_)
      (List.nodup_range.filter _)
    exact digitChar_injective (mem_maskDigits.mp leftIn).1 (mem_maskDigits.mp rightIn).1 same
  rw [List.perm_ext_iff_of_nodup distinct unique]
  intro ch
  constructor
  · intro member
    obtain ⟨digit, found, rfl⟩ := List.mem_map.mp member
    exact (mem_maskDigits.mp found).2
  · intro member
    obtain ⟨digit, small, rfl⟩ := exists_digitChar (digital ch member)
    exact List.mem_map.mpr ⟨digit, mem_maskDigits.mpr ⟨small, member⟩, rfl⟩

theorem charsetMask_lt {missing : Char} (digit : missing ∈ asciiDigits)
    (absent : missing ∉ charset) : charsetMask charset < 1023 := by
  obtain ⟨value, small, rfl⟩ := exists_digitChar digit
  have bounded : charsetMask charset < 2 ^ 10 := Nat.ofBits_lt_two_pow _
  have different : charsetMask charset ≠ 1023 := by
    intro full
    have all : ∀ value < 10, value ∈ maskDigits 1023 := by decide
    have present := all value small
    rw [← full, mem_maskDigits] at present
    exact absent present.2
  omega

theorem exists_foreign_check_body (unique : charset.Nodup)
    (digital : ∀ ch ∈ charset, ch ∈ asciiDigits) (nondegenerate : 2 ≤ charset.length)
    {missing : Char} (digit : missing ∈ asciiDigits) (absent : missing ∉ charset) :
    ∃ body, body.length = minDomainLength charset.length ∧ (∀ ch ∈ body, ch ∈ charset) ∧
      ∃ check ∉ charset, luhnCd body = some [check] := by
  have length : (maskDigits (charsetMask charset)).length = charset.length := by
    rw [← (maskDigits_perm unique digital).length_eq, List.length_map]
  obtain ⟨a, aIn, b, bIn, c, cIn, outside⟩ := exists_foreign_check (charsetMask charset)
    (charsetMask_lt digit absent) (by omega)
  rw [length] at outside
  let values := List.replicate (minDomainLength charset.length - 2) a ++ [b, c]
  have members : ∀ value ∈ values, value ∈ maskDigits (charsetMask charset) := by
    intro value member
    simp only [values, List.mem_append, List.mem_cons, List.not_mem_nil, or_false] at member
    rcases member with member | rfl | rfl
    · exact List.eq_of_mem_replicate member ▸ aIn
    · exact bIn
    · exact cIn
  have bounded : ∀ value ∈ values, value < 10 :=
    fun value member => (mem_maskDigits.mp (members value member)).1
  have reversed : values.reverse =
      c :: b :: List.replicate (minDomainLength charset.length - 2) a := by
    simp [values, List.reverse_append]
  have small : charset.length ≤ ff1MaxRadix := by
    have := (List.Nodup.subperm unique digital).length_le
    unfold ff1MaxRadix
    simp only [asciiDigits, List.length_cons, List.length_nil] at this
    omega
  refine ⟨values.map digitChar, ?_, ?_, _, ?_, luhnCd_digits bounded⟩
  · have wide := two_le_minDomainLength small
    simp only [values, List.length_map, List.length_append, List.length_replicate, List.length_cons,
      List.length_nil]
    omega
  · intro ch member
    obtain ⟨value, found, rfl⟩ := List.mem_map.mp member
    exact (mem_maskDigits.mp (members value found)).2
  · intro inside
    rw [reversed] at inside
    exact outside (mem_maskDigits.mpr ⟨Nat.mod_lt _ (by decide), inside⟩)

variable (cipher : BlockCipher) {stdnum : Stdnum} {config : FpeConfig} {key tweak : List UInt8}

theorem digit_profile (valid : config.Valid) (luhn : config.luhnMode = true)
    (keySize : key.length = ff1KeyBytes) (tweakUpper : tweak.length ≤ ff1MaxTweakLen) :
    PermuteProfile key config.charset tweak (minDomainLength config.charset.length) := by
  have atMost := (List.Nodup.subperm valid.unique (luhnMode_iff.mp luhn).2.2).length_le
  simp only [asciiDigits, List.length_cons, List.length_nil] at atMost
  have atLeast := valid.nondegenerate
  have short : ∀ radix < 11, minDomainLength radix ≤ ff1MaxLen := by decide
  exact ⟨keySize, atLeast, by unfold ff1MaxRadix; omega, valid.unique, valid.printable,
    Nat.le_refl _, short _ (by omega), tweakUpper⟩

/-- A value whose values all lie in the alphabet is masked by the same call either way. -/
theorem fpeValue_covered {val body : List Char} (nonempty : val ≠ [])
    (inside : ∀ ch ∈ val, ch ∈ config.charset) (length : body.length = val.length)
    (ran : fpePureValue cipher stdnum val key config.charset tweak config.luhnMode config.checksum
      true = .ok body) :
    fpeEncryptValue cipher stdnum config key tweak val = .ok body := by
  unfold fpeEncryptValue
  cases preserve : config.preserveSeparators with
  | false =>
      rw [fpeValue, if_neg nonempty, if_neg (by decide), if_neg (by simpa using inside)]
      exact ran
  | true =>
      have whole : val.filter (fun ch => decide (ch ∈ config.charset)) = val :=
        List.filter_eq_self.mpr (by simpa using inside)
      rw [fpeValue_preserving cipher nonempty (by rwa [whole]), whole, ran]
      simp only [Except.bind, length, ne_eq, not_true_eq_false, if_false]
      rw [splice_all _ (by simpa using inside) length]

theorem luhn_incomplete_breaks (stdnum : Stdnum) (valid : config.Valid) (luhn : config.luhnMode = true)
    (keySize : key.length = ff1KeyBytes) (tweakUpper : tweak.length ≤ ff1MaxTweakLen)
    {missing : Char} (digit : missing ∈ asciiDigits) (absent : missing ∉ config.charset) :
    ∃ val out, fpeEncryptValue cipher stdnum config key tweak val = .ok out ∧
      ∀ recovered, fpeDecryptValue cipher stdnum config key tweak out ≠ .ok recovered := by
  have digital := (luhnMode_iff.mp luhn).2.2
  have profile := digit_profile valid luhn keySize tweakUpper
  have wide := two_le_minDomainLength profile.radixUpper
  obtain ⟨body, bodyLength, bodyInside, check, foreign, computed⟩ :=
    exists_foreign_check_body valid.unique digital valid.nondegenerate digit absent
  rw [← bodyLength] at profile
  -- the plaintext of that body under this key and tweak
  obtain ⟨plain, _, plainLength, plainInside, masked⟩ :=
    permute_inverse cipher false profile bodyInside
  obtain ⟨last, lastInside⟩ := List.exists_mem_of_length_pos (l := config.charset)
    (by have := valid.nondegenerate; omega)
  have width : plain.length = minDomainLength config.charset.length := plainLength.trans bodyLength
  have inside : ∀ ch ∈ plain ++ [last], ch ∈ config.charset := by
    intro ch member
    rcases List.mem_append.mp member with member | member
    · exact plainInside ch member
    · exact List.mem_singleton.mp member ▸ lastInside
  have ran : fpePureValue cipher stdnum (plain ++ [last]) key config.charset tweak config.luhnMode
      config.checksum true = .ok (body ++ [check]) := by
    rw [fpePureValue_luhn cipher luhn (by simp; omega)]
    have permuted : permute cipher plain key config.charset tweak true = .ok body := masked
    simp [pinnedBody, permuted, computed, checkDigit, bind, Except.bind]
  refine ⟨plain ++ [last], body ++ [check],
    fpeValue_covered cipher (by simp) inside (by simp [width, bodyLength]) ran, ?_⟩
  intro recovered back
  unfold fpeDecryptValue at back
  obtain ⟨nonempty, covered, contained⟩ := fpeValue_ok cipher back
  cases preserve : config.preserveSeparators with
  | false => exact foreign (contained preserve check (by simp))
  | true =>
      -- the check digit reads as a separator, so the remaining body is one digit short
      have extracted : (body ++ [check]).filter (fun ch => decide (ch ∈ config.charset)) = body := by
        rw [List.filter_append, List.filter_eq_self.mpr (by simpa using bodyInside)]
        simp [foreign]
      rw [preserve, fpeValue_preserving cipher nonempty (covered preserve), extracted] at back
      have long : 2 ≤ body.length := by omega
      rw [fpePureValue_luhn cipher luhn long] at back
      cases shorter : pinnedBody cipher config.charset 0 (body.length - 1) luhnCd body key tweak
          false with
      | error raised => simp [shorter, Except.bind] at back
      | ok result =>
          obtain ⟨middle, _, permuted, _, _⟩ := pinnedBody_ok cipher shorter
          have lengthIs : ((body.take (0 + (body.length - 1))).drop 0).length = body.length - 1 := by
            simp
          have bodyNonempty : (body.take (0 + (body.length - 1))).drop 0 ≠ [] := by
            intro empty
            rw [empty, List.length_nil] at lengthIs
            omega
          obtain ⟨short, _⟩ := permute_ok_inv cipher bodyNonempty permuted
          have domain := short.domain
          omega

end IncompleteAlphabet

end DecoyEngine.Transforms
