import DecoyEngine.Transforms.FpeUnmask

namespace DecoyEngine.Transforms

open DecoyEngine.Data DecoyEngine.Checksums

/-! What checksum mode writes is an identifier of its scheme, whatever permutation FF1 is. -/

/-- `_permute` over some FF1: of its text and alphabet it keeps the length and the range. -/
structure LeafPermutation where
  run : List Char → List Char → Except FpeRaise (List Char)
  keeps : ∀ {s charset out : List Char}, s ≠ [] → run s charset = .ok out →
    (∀ ch ∈ s, ch ∈ charset) ∧ out.length = s.length ∧ ∀ ch ∈ out, ch ∈ charset

/-- The leaf the code runs, FF1 over a block cipher. -/
def ff1Leaf (cipher : BlockCipher) (key tweak : List UInt8) (forward : Bool) : LeafPermutation where
  run s charset := permute cipher s key charset tweak forward
  keeps nonempty ran :=
    have undone := permute_undo cipher nonempty ran
    ⟨undone.1, undone.2.1, undone.2.2.1⟩

section Branches

variable (leaf : LeafPermutation) (stdnum : Stdnum)

def checksumBodyOver (s charset : List Char) : Scheme → Except FpeRaise (List Char)
  | .npi => do
      let middleBody ← leaf.run ((s.take 9).drop 1) asciiDigits
      let body9 := s.take 1 ++ middleBody
      let check ← checkDigit (calcCheckDigit stdnum .npi body9)
      .ok (body9 ++ check)
  | .isbn13 => do
      let inner ← leaf.run ((s.take 12).drop 3) asciiDigits
      let body12 := s.take 3 ++ inner
      let check ← checkDigit (calcCheckDigit stdnum .isbn13 body12)
      .ok (body12 ++ check)
  | .vin => do
      let rawBody := s.take 8 ++ s.drop 9
      let enc ← leaf.run rawBody (vinPermutationCharset charset)
      let check ← checkDigit (calcCheckDigit stdnum .vin enc)
      .ok (enc.take 8 ++ check ++ enc.drop 8)
  | scheme => do
      let body ← leaf.run s.dropLast asciiDigits
      let check ← checkDigit (calcCheckDigit stdnum scheme body)
      .ok (body ++ check)

def encryptChecksumOver (s charset : List Char) (schemeName : String) :
    Except FpeRaise (List Char) :=
  match schemeOfName schemeName with
  | none => .error (.fpeError (.unknownScheme schemeName))
  | some .iban => .error (.fpeError .ibanUnsupported)
  | some scheme => do
      validateSchemeLength scheme s
      if ¬ validate stdnum scheme s then .error (.fpeError (.invalidSource scheme))
      else checksumBodyOver leaf stdnum s charset scheme

/-- `fpe_value` in checksum mode, encrypting. -/
def encryptValueOver (val charset : List Char) (preserveSeparators : Bool) (schemeName : String) :
    Except FpeRaise (List Char) :=
  let inCharset := fun ch => decide (ch ∈ charset)
  if val = [] then .error (.fpeError .emptyValue)
  else if preserveSeparators then
    let positions := selectedPositions inCharset val
    if positions = [] then .error (.fpeError (.nothingInCharset val.length))
    else do
      let body ←
        encryptChecksumOver leaf stdnum (positions.map (fun i => val[i]!)) charset schemeName
      if body.length ≠ positions.length then
        .error (.fpeError (.lengthInvariant body.length positions.length val.length))
      else .ok (writeAt val positions body)
  else if ¬ val.all inCharset then
    .error (.fpeError (.outOfCharset val.length
      (val.filter (fun ch => !inCharset ch)).dedup.length))
  else encryptChecksumOver leaf stdnum val charset schemeName

end Branches

section Deployed

variable (cipher : BlockCipher) (stdnum : Stdnum) (key tweak : List UInt8)

theorem checksumBody_over (s charset : List Char) (forward : Bool) (scheme : Scheme) :
    checksumBody cipher stdnum s key charset tweak forward scheme =
      checksumBodyOver (ff1Leaf cipher key tweak forward) stdnum s charset scheme := by
  cases scheme <;> rfl

theorem fpeChecksumPermute_over (s charset : List Char) (schemeName : String) :
    fpeChecksumPermute cipher stdnum s key charset tweak schemeName true =
      encryptChecksumOver (ff1Leaf cipher key tweak true) stdnum s charset schemeName := by
  unfold fpeChecksumPermute encryptChecksumOver
  cases schemeOfName schemeName with
  | none => rfl
  | some scheme => cases scheme <;> simp only [checksumBody_over, true_and]

theorem fpeEncryptValue_over {config : FpeConfig} {schemeName : String}
    (mode : config.checksum = some schemeName) (val : List Char) :
    fpeEncryptValue cipher stdnum config key tweak val =
      encryptValueOver (ff1Leaf cipher key tweak true) stdnum val config.charset
        config.preserveSeparators schemeName := by
  have pure : ∀ s : List Char, s ≠ [] →
      fpePureValue cipher stdnum s key config.charset tweak config.luhnMode (some schemeName) true =
        encryptChecksumOver (ff1Leaf cipher key tweak true) stdnum s config.charset schemeName := by
    intro s nonempty
    rw [fpePureValue, if_neg nonempty]
    exact fpeChecksumPermute_over cipher stdnum key tweak s config.charset schemeName
  unfold fpeEncryptValue fpeValue encryptValueOver
  rw [mode]
  by_cases empty : val = []
  · rw [if_pos empty, if_pos empty]
  · rw [if_neg empty, if_neg empty]
    dsimp only
    cases config.preserveSeparators with
    | false =>
        rw [if_neg Bool.false_ne_true, if_neg Bool.false_ne_true, pure val empty]
    | true =>
        rw [if_pos rfl, if_pos rfl]
        by_cases nothing : selectedPositions (fun ch => decide (ch ∈ config.charset)) val = []
        · rw [if_pos nothing, if_pos nothing]
        · rw [if_neg nothing, if_neg nothing, pure]
          intro none
          exact nothing (List.map_eq_nil_iff.mp none)

end Deployed

/-- What python-stdnum accepts: the Luhn and EAN validators every digit string whose last digit is
the computed one, of a legal length; the ISBN validator, among 13 digits with the right check
digit, by the Bookland prefix alone. -/
structure Accepting (stdnum : Stdnum) : Prop where
  luhn : ∀ body check, body ≠ [] → (∀ ch ∈ body, ch ∈ asciiDigits) →
    stdnum.luhnCalcCheckDigit body = some [check] → stdnum.luhnIsValid (body ++ [check]) = true
  ean : ∀ body check, (∀ ch ∈ body, ch ∈ asciiDigits) → body.length + 1 ∈ [8, 12, 13, 14] →
    stdnum.eanCalcCheckDigit body = some [check] → stdnum.eanIsValid (body ++ [check]) = true
  isbn : ∀ body other check otherCheck, body.length = 12 → other.length = 12 →
    (∀ ch ∈ body, ch ∈ asciiDigits) → (∀ ch ∈ other, ch ∈ asciiDigits) →
    body.take 3 = other.take 3 → stdnum.eanCalcCheckDigit body = some [check] →
    stdnum.eanCalcCheckDigit other = some [otherCheck] →
    stdnum.isbnIsValid (body ++ [check]) = stdnum.isbnIsValid (other ++ [otherCheck])

/-- The constraints of a scheme beyond its check digit, of a source and what is written for it. -/
def KeepsStructure (scheme : Scheme) (s out : List Char) : Prop :=
  match scheme with
  | .npi => out.take 1 = s.take 1 ∧ (out.take 1 = ['1'] ∨ out.take 1 = ['2'])
  | .isbn13 => out.take 3 = s.take 3
  | .vin => ∃ check, vinCalcCheckDigit (out.take 8 ++ out.drop 9) = some [check] ∧
      out[8]? = some check
  | _ => True

/-- An identifier written for a source. -/
structure WrittenFor (stdnum : Stdnum) (scheme : Scheme) (required s out : List Char) : Prop where
  valid : validate stdnum scheme out = true
  length : out.length = s.length
  alphabet : ∀ ch ∈ out, ch ∈ required
  keeps : KeepsStructure scheme s out

section Written

variable {leaf : LeafPermutation} {stdnum : Stdnum} {s charset out : List Char}

theorem permuted_checked {permuted : Except FpeRaise (List Char)}
    {checkOf : List Char → Option (List Char)} {write : List Char → List Char → List Char}
    (ran : (do
      let body ← permuted
      let check ← checkDigit (checkOf body)
      .ok (write body check)) = .ok out) :
    ∃ body check, permuted = .ok body ∧ checkOf body = some check ∧ out = write body check := by
  cases permuted with
  | error raised => cases ran
  | ok body =>
      cases computed : checkOf body with
      | none =>
          simp only [bind, Except.bind, computed, checkDigit] at ran
          cases ran
      | some check =>
          simp only [bind, Except.bind, computed, checkDigit] at ran
          exact ⟨body, check, rfl, computed, (Except.ok.inj ran).symm⟩

theorem suffix_written (consistent : stdnum.Consistent) (accepting : Accepting stdnum)
    {scheme : Scheme} (suffix : scheme = .luhn ∨ scheme = .ean13 ∨ scheme = .gtin)
    (length : 2 ≤ s.length) (legal : scheme ≠ .luhn → s.length ∈ [8, 12, 13, 14])
    (ran : checksumBodyOver leaf stdnum s charset scheme = .ok out) :
    WrittenFor stdnum scheme asciiDigits s out := by
  have opened : ∃ body check, leaf.run s.dropLast asciiDigits = .ok body ∧
      calcCheckDigit stdnum scheme body = some check ∧ out = body ++ check := by
    rcases suffix with rfl | rfl | rfl
    · exact permuted_checked ran
    · exact permuted_checked ran
    · exact permuted_checked ran
  obtain ⟨body, check, permuted, computed, rfl⟩ := opened
  have nonempty : s.dropLast ≠ [] := by
    intro empty
    have zero := congrArg List.length empty
    rw [List.length_dropLast, List.length_nil] at zero
    omega
  obtain ⟨-, bodyLength, digits⟩ := leaf.keeps nonempty permuted
  rw [List.length_dropLast] at bodyLength
  have total : ∃ digit ∈ asciiDigits, calcCheckDigit stdnum scheme body = some [digit] := by
    rcases suffix with rfl | rfl | rfl
    · exact consistent.luhn_calc body digits
    · exact consistent.ean_calc body digits
    · exact consistent.ean_calc body digits
  obtain ⟨digit, isDigit, known⟩ := total
  obtain rfl := Option.some.inj (computed.symm.trans known)
  have bodyNonempty : body ≠ [] := by
    rintro rfl
    rw [List.length_nil] at bodyLength
    omega
  refine ⟨?_, ?_, ?_, ?_⟩
  · rcases suffix with rfl | rfl | rfl
    · exact accepting.luhn body digit bodyNonempty digits computed
    · refine accepting.ean body digit digits ?_ computed
      rw [bodyLength, Nat.sub_add_cancel (by omega)]
      exact legal (by decide)
    · refine accepting.ean body digit digits ?_ computed
      rw [bodyLength, Nat.sub_add_cancel (by omega)]
      exact legal (by decide)
  · rw [List.length_append, bodyLength, List.length_singleton]
    omega
  · intro ch member
    rcases List.mem_append.mp member with member | member
    · exact digits ch member
    · exact List.mem_singleton.mp member ▸ isDigit
  · rcases suffix with rfl | rfl | rfl <;> exact trivial

theorem npiReMatch_digits {text : List Char} (length : text.length = 10)
    (digits : ∀ ch ∈ text, ch ∈ asciiDigits) : npiReMatch text = true := by
  have whole : text.take 10 = text := List.take_of_length_le length.le
  have rest : text.drop 10 = [] := List.drop_of_length_le length.le
  have known : text.all (fun ch => (decimalValue ch).isSome) = true := by
    refine List.all_eq_true.mpr fun ch member => ?_
    obtain ⟨value, small, rfl⟩ := exists_digitChar (digits ch member)
    rw [decimalValue_digitChar small, Option.isSome_some]
  rw [npiReMatch, whole, rest, known, length]
  rfl

theorem npi_written (length : s.length = 10) (valid : npiValidate s = true)
    (ran : checksumBodyOver leaf stdnum s charset .npi = .ok out) :
    WrittenFor stdnum .npi asciiDigits s out := by
  obtain ⟨middle, check, permuted, computed, rfl⟩ := permuted_checked ran
  have nonempty : (s.take 9).drop 1 ≠ [] := by
    intro empty
    have zero := congrArg List.length empty
    rw [List.length_drop, List.length_take, List.length_nil] at zero
    omega
  obtain ⟨-, middleLength, digits⟩ := leaf.keeps nonempty permuted
  rw [List.length_drop, List.length_take, length] at middleLength
  cases s with
  | nil => cases length
  | cons lead rest =>
      have leads : lead ∈ ['1', '2'] := by
        unfold npiValidate at valid
        split at valid
        · cases valid
        split at valid
        · cases valid
        rename_i leads
        exact not_not.mp leads
      have leadDigit : lead ∈ asciiDigits := by
        have legal : ∀ ch ∈ ['1', '2'], ch ∈ asciiDigits := by decide
        exact legal lead leads
      have bodyDigits : ∀ ch ∈ lead :: middle, ch ∈ asciiDigits := by
        intro ch member
        rcases List.mem_cons.mp member with rfl | member
        · exact leadDigit
        · exact digits ch member
      have shape : (lead :: rest).take 1 ++ middle = lead :: middle := rfl
      rw [shape] at computed ⊢
      obtain ⟨digit, isDigit, known⟩ := npiCalcCheckDigit_total bodyDigits
      obtain rfl := Option.some.inj (computed.symm.trans known)
      have bodyLength : (lead :: middle).length = 9 := by
        rw [List.length_cons, middleLength]
        rfl
      have outLength : (lead :: middle ++ [digit]).length = 10 := by
        rw [List.length_append, bodyLength, List.length_singleton]
      have outDigits : ∀ ch ∈ lead :: middle ++ [digit], ch ∈ asciiDigits := by
        intro ch member
        rcases List.mem_append.mp member with member | member
        · exact bodyDigits ch member
        · exact List.mem_singleton.mp member ▸ isDigit
      refine ⟨?_, outLength.trans length.symm, outDigits, rfl, ?_⟩
      · have body : (lead :: middle ++ [digit]).take 9 = lead :: middle := by
          rw [← bodyLength, List.take_left]
        have last : (lead :: middle ++ [digit])[9]! = digit := by
          rw [List.getElem!_eq_getElem?_getD, ← bodyLength, List.getElem?_concat_length,
            Option.getD_some]
        have head : (lead :: middle ++ [digit])[0]! = lead := rfl
        have accepted : npiValidate (lead :: middle ++ [digit]) = true := by
          unfold npiValidate
          rw [npiReMatch_digits outLength outDigits, head, last, body, known,
            Bool.not_true, if_neg Bool.false_ne_true, if_neg (not_not.mpr leads), beq_self_eq_true]
        exact accepted
      · simpa using leads

theorem isbn_written (consistent : stdnum.Consistent) (accepting : Accepting stdnum)
    (length : s.length = 13) (printable : ∀ ch ∈ s, isPrintableAscii ch = true)
    (valid : stdnum.isbnIsValid s = true)
    (ran : checksumBodyOver leaf stdnum s charset .isbn13 = .ok out) :
    WrittenFor stdnum .isbn13 asciiDigits s out := by
  obtain ⟨inner, check, permuted, computed, rfl⟩ := permuted_checked ran
  have innerWidth : ((s.take 12).drop 3).length = 9 := by
    rw [List.length_drop, List.length_take, length]
    rfl
  have nonempty : (s.take 12).drop 3 ≠ [] := by
    intro empty
    rw [empty] at innerWidth
    cases innerWidth
  obtain ⟨sourceDigits, innerLength, digits⟩ := leaf.keeps nonempty permuted
  rw [innerWidth] at innerLength
  have visible : ∀ ch ∈ asciiDigits, isPrintableAscii ch = true := by decide
  have bodyDigits : ∀ ch ∈ s.take 3 ++ inner, ch ∈ asciiDigits := by
    -- a separator among the pinned characters makes the check-digit function raise
    refine consistent.ean_calc_digits (s.take 3 ++ inner) check ?_ computed
    intro ch member
    rcases List.mem_append.mp member with member | member
    · exact printable ch (List.mem_of_mem_take member)
    · exact visible ch (digits ch member)
  obtain ⟨digit, isDigit, known⟩ := consistent.ean_calc _ bodyDigits
  obtain rfl := Option.some.inj (computed.symm.trans known)
  have prefixWidth : (s.take 3).length = 3 := by
    rw [List.length_take, length]
    rfl
  have bodyLength : (s.take 3 ++ inner).length = 12 := by
    rw [List.length_append, prefixWidth, innerLength]
  have split : s.take 3 ++ (s.take 12).drop 3 = s.dropLast := by
    have short : (s.take 12).take 3 = s.take 3 := by rw [List.take_take]; rfl
    rw [← short, List.take_append_drop, List.dropLast_eq_take, length]
  have sourceBody : ∀ ch ∈ s.dropLast, ch ∈ asciiDigits := by
    intro ch member
    rw [← split] at member
    rcases List.mem_append.mp member with member | member
    · exact bodyDigits ch (List.mem_append_left _ member)
    · exact sourceDigits ch member
  have sourceLength : s.dropLast.length = 12 := by rw [List.length_dropLast, length]
  have sourceNonempty : s ≠ [] := by
    rintro rfl
    cases length
  obtain ⟨last, sourceSplit, lastIs⟩ := dropLast_split sourceNonempty
  have sourceCheck := consistent.isbn_valid s.dropLast last sourceLength sourceBody
    (printable last (List.mem_of_getLast? lastIs)) (sourceSplit ▸ valid)
  have samePrefix : (s.take 3 ++ inner).take 3 = s.dropLast.take 3 := by
    rw [← split, List.take_append_of_le_length prefixWidth.ge,
      List.take_append_of_le_length prefixWidth.ge]
  refine ⟨?_, ?_, ?_, ?_⟩
  · have same := accepting.isbn _ _ digit last bodyLength sourceLength bodyDigits sourceBody
      samePrefix known sourceCheck
    exact same.trans (sourceSplit ▸ valid)
  · rw [List.length_append, bodyLength, length, List.length_singleton]
  · intro ch member
    rcases List.mem_append.mp member with member | member
    · exact bodyDigits ch member
    · exact List.mem_singleton.mp member ▸ isDigit
  · show (s.take 3 ++ inner ++ [digit]).take 3 = s.take 3
    rw [List.append_assoc, List.take_append_of_le_length prefixWidth.ge,
      List.take_of_length_le prefixWidth.le]

theorem vin_written (length : s.length = 17)
    (ran : checksumBodyOver leaf stdnum s charset .vin = .ok out) :
    WrittenFor stdnum .vin vinCharset s out := by
  obtain ⟨enc, check, permuted, computed, rfl⟩ := permuted_checked ran
  have width : (s.take 8 ++ s.drop 9).length = 16 := by simp [length]
  have nonempty : s.take 8 ++ s.drop 9 ≠ [] := by
    intro empty
    rw [empty] at width
    cases width
  obtain ⟨-, encLength, inside⟩ := leaf.keeps nonempty permuted
  rw [width] at encLength
  have legal : ∀ ch ∈ enc, ch ∈ vinCharset :=
    fun ch member => vinPermutationCharset_legal (inside ch member)
  obtain ⟨digit, digitLegal, known⟩ := vinCalcCheckDigit_total encLength legal
  obtain rfl := Option.some.inj (computed.symm.trans known)
  have front : (enc.take 8).length = 8 := by
    rw [List.length_take, encLength]
    rfl
  have outLength : (enc.take 8 ++ [digit] ++ enc.drop 8).length = 17 := by simp [encLength]
  have outLegal : ∀ ch ∈ enc.take 8 ++ [digit] ++ enc.drop 8, ch ∈ vinCharset := by
    intro ch member
    rw [List.append_assoc, List.singleton_append] at member
    rcases List.mem_append.mp member with member | member
    · exact legal ch (List.mem_of_mem_take member)
    · rcases List.mem_cons.mp member with rfl | member
      · exact digitLegal
      · exact legal ch (List.mem_of_mem_drop member)
  have position : (enc.take 8 ++ [digit] ++ enc.drop 8)[8]? = some digit := by
    rw [List.append_assoc, List.getElem?_append_right front.le, front]
    rfl
  have body : (enc.take 8 ++ [digit] ++ enc.drop 8).take 8 ++
      (enc.take 8 ++ [digit] ++ enc.drop 8).drop 9 = enc := by
    rw [List.append_assoc, List.take_append_of_le_length front.ge, List.take_of_length_le front.le,
      List.drop_append, List.drop_of_length_le (by omega), front]
    exact List.take_append_drop 8 enc
  have trans : ∀ ch ∈ vinCharset, (vinTrans ch).isSome = true := by decide
  refine ⟨?_, outLength.trans length.symm, outLegal, ⟨digit, ?_, position⟩⟩
  · have visible : ∀ ch ∈ vinCharset, isPrintableAscii ch = true := by decide
    have same : upper (strip (enc.take 8 ++ [digit] ++ enc.drop 8)) =
        enc.take 8 ++ [digit] ++ enc.drop 8 := by
      rw [strip_printable fun ch member => visible ch (outLegal ch member),
        toUpper_vinCharset outLegal]
    have all : (enc.take 8 ++ [digit] ++ enc.drop 8).all (fun ch => (vinTrans ch).isSome) = true :=
      List.all_eq_true.mpr fun ch member => trans ch (outLegal ch member)
    have checked : vinCheckFromFull (enc.take 8 ++ [digit] ++ enc.drop 8) = some [digit] := by
      rw [vinCheckFromFull_check_position front digit '0' (trans digit digitLegal) (by decide)]
      exact known
    have accepted : vinValidate (enc.take 8 ++ [digit] ++ enc.drop 8) = true := by
      unfold vinValidate
      rw [same]
      dsimp only
      rw [if_neg (not_not.mpr outLength), all, Bool.not_true, if_neg Bool.false_ne_true, checked,
        List.getElem!_eq_getElem?_getD, position, Option.getD_some, beq_self_eq_true]
    exact accepted
  · rw [body]
    exact known

theorem checksumBody_written (consistent : stdnum.Consistent) (accepting : Accepting stdnum)
    {scheme : Scheme} {required : List Char}
    (supported : schemeRequiredCharset scheme = some required)
    (accepted : validateSchemeLength scheme s = .ok ())
    (printable : ∀ ch ∈ s, isPrintableAscii ch = true) (valid : validate stdnum scheme s = true)
    (ran : checksumBodyOver leaf stdnum s charset scheme = .ok out) :
    WrittenFor stdnum scheme required s out := by
  obtain ⟨exact, minimum⟩ := validateSchemeLength_ok_iff.mp accepted
  cases scheme with
  | iban => cases supported
  | luhn =>
      obtain rfl := Option.some.inj supported
      exact suffix_written consistent accepting (.inl rfl) (minimum 2 rfl)
        (fun other => absurd rfl other) ran
  | ean13 =>
      obtain rfl := Option.some.inj supported
      have length : s.length = 13 := List.mem_singleton.mp (exact _ rfl)
      exact suffix_written consistent accepting (.inr (.inl rfl)) (by omega)
        (fun _ => by rw [length]; decide) ran
  | gtin =>
      obtain rfl := Option.some.inj supported
      have legal : s.length ∈ [8, 12, 13, 14] := exact _ rfl
      have long : ∀ width ∈ [8, 12, 13, 14], 2 ≤ width := by decide
      exact suffix_written consistent accepting (.inr (.inr rfl)) (long _ legal) (fun _ => legal)
        ran
  | npi =>
      obtain rfl := Option.some.inj supported
      exact npi_written (List.mem_singleton.mp (exact _ rfl)) valid ran
  | isbn13 =>
      obtain rfl := Option.some.inj supported
      exact isbn_written consistent accepting (List.mem_singleton.mp (exact _ rfl)) printable valid
        ran
  | vin =>
      obtain rfl := Option.some.inj supported
      exact vin_written (List.mem_singleton.mp (exact _ rfl)) ran

theorem encryptChecksum_written (consistent : stdnum.Consistent) (accepting : Accepting stdnum)
    {schemeName : String} {scheme : Scheme} {required : List Char}
    (known : schemeOfName schemeName = some scheme)
    (supported : schemeRequiredCharset scheme = some required)
    (printable : ∀ ch ∈ s, isPrintableAscii ch = true)
    (ran : encryptChecksumOver leaf stdnum s charset schemeName = .ok out) :
    WrittenFor stdnum scheme required s out := by
  have shape : encryptChecksumOver leaf stdnum s charset schemeName =
      (validateSchemeLength scheme s).bind fun _ =>
        if ¬ validate stdnum scheme s then .error (.fpeError (.invalidSource scheme))
        else checksumBodyOver leaf stdnum s charset scheme := by
    rw [encryptChecksumOver, known]
    cases scheme <;> first | rfl | cases supported
  rw [shape] at ran
  cases accepted : validateSchemeLength scheme s with
  | error raised =>
      rw [accepted] at ran
      cases ran
  | ok _ =>
      rw [accepted, Except.bind] at ran
      split at ran
      · cases ran
      · rename_i valid
        exact checksumBody_written consistent accepting supported accepted printable
          (not_not.mp valid) ran

/-- The identifier of a value: its characters in the configured alphabet. -/
def separatorsRemoved (charset val : List Char) : List Char :=
  val.filter (fun ch => decide (ch ∈ charset))

/-- What becomes of a whole value: its identifier is written anew, the separators stay, and every
character of the alphabet stays in the alphabet. -/
structure ValueWritten (stdnum : Stdnum) (charset : List Char) (scheme : Scheme)
    (val out : List Char) : Prop where
  identifier : WrittenFor stdnum scheme ((schemeRequiredCharset scheme).getD [])
    (separatorsRemoved charset val) (separatorsRemoved charset out)
  length : out.length = val.length
  separators : ∀ (i : Nat) (ch : Char), val[i]? = some ch → ch ∉ charset → out[i]? = some ch
  alphabet : ∀ (i : Nat) (ch : Char), val[i]? = some ch → ch ∈ charset →
    ∃ written, out[i]? = some written ∧ written ∈ charset

/-- Whatever permutation FF1 is, a value that checksum mode encrypts becomes an identifier that
its scheme accepts, of the same shape. -/
theorem checksum_mode_writes_identifiers (leaf : LeafPermutation) (stdnum : Stdnum)
    (consistent : stdnum.Consistent) (accepting : Accepting stdnum) (config : FpeConfig)
    (valid : config.Valid) (schemeName : String) (mode : config.checksum = some schemeName)
    (scheme : Scheme) (known : schemeOfName schemeName = some scheme) (val out : List Char)
    (ran : encryptValueOver leaf stdnum val config.charset config.preserveSeparators schemeName =
      .ok out) :
    ValueWritten stdnum config.charset scheme val out := by
  obtain ⟨sameScheme, required, knownToo, supported, contained⟩ := valid.scheme schemeName mode
  obtain rfl := Option.some.inj (known.symm.trans knownToo)
  have written : ∀ {s body : List Char}, (∀ ch ∈ s, ch ∈ config.charset) →
      encryptChecksumOver leaf stdnum s config.charset schemeName = .ok body →
      WrittenFor stdnum scheme required s body := fun inside encrypted =>
    encryptChecksum_written consistent accepting known supported
      (fun ch member => valid.printable ch (inside ch member)) encrypted
  have alphabet : (schemeRequiredCharset scheme).getD [] = required := by
    rw [supported, Option.getD_some]
  unfold encryptValueOver at ran
  split at ran
  · cases ran
  dsimp only at ran
  split at ran
  · split at ran
    · cases ran
    rw [extract_positions] at ran
    cases encrypted : encryptChecksumOver leaf stdnum
        (val.filter fun ch => decide (ch ∈ config.charset)) config.charset schemeName with
    | error raised =>
        rw [encrypted] at ran
        cases ran
    | ok body =>
        have identifier := written (fun ch member => by simpa using (List.mem_filter.mp member).2)
          encrypted
        simp only [encrypted, bind, Except.bind] at ran
        split at ran
        · cases ran
        obtain rfl := Except.ok.inj ran
        have inside : ∀ ch ∈ body, decide (ch ∈ config.charset) = true :=
          fun ch member => decide_eq_true (contained ch (identifier.alphabet ch member))
        rw [writeAt_positions _ _ _ identifier.length]
        refine ⟨?_, length_splice _ _ _, ?_, ?_⟩
        · rw [alphabet, separatorsRemoved, separatorsRemoved,
            filter_splice _ inside identifier.length]
          exact identifier
        · intro i ch found foreign
          exact splice_unselected _ body found (decide_eq_false foreign)
        · intro i ch found member
          obtain ⟨new, here, chosen⟩ := splice_selected _ inside found (decide_eq_true member)
          exact ⟨new, here, of_decide_eq_true chosen⟩
  · split at ran
    · cases ran
    rename_i covered
    have inside : ∀ ch ∈ val, ch ∈ config.charset := by simpa using covered
    have identifier := written inside ran
    have outInside : ∀ ch ∈ out, ch ∈ config.charset :=
      fun ch member => contained ch (identifier.alphabet ch member)
    refine ⟨?_, identifier.length, ?_, ?_⟩
    · rw [alphabet, separatorsRemoved, separatorsRemoved,
        List.filter_eq_self.mpr fun ch member => decide_eq_true (inside ch member),
        List.filter_eq_self.mpr fun ch member => decide_eq_true (outInside ch member)]
      exact identifier
    · intro i ch found foreign
      exact absurd (inside ch (List.mem_of_getElem? found)) foreign
    · intro i ch found member
      have within : i < out.length := by
        rw [identifier.length]
        exact (List.getElem?_eq_some_iff.mp found).1
      exact ⟨_, List.getElem?_eq_getElem within, outInside _ (List.getElem_mem within)⟩

end Written

namespace ReferenceStdnum

theorem compact_digits {text : List Char} (digits : ∀ ch ∈ text, ch ∈ asciiDigits) :
    compact text = text := by
  have plain : ∀ ch ∈ asciiDigits, (ch != ' ' && ch != '-') = true := by decide
  exact List.filter_eq_self.mpr fun ch member => plain ch (digits ch member)

theorem eanIsValid_append {body : List Char} {check : Char}
    (digits : ∀ ch ∈ body, ch ∈ asciiDigits) (legal : body.length + 1 ∈ [8, 12, 13, 14])
    (computed : eanCalcCheckDigit body = some [check]) : eanIsValid (body ++ [check]) = true := by
  obtain ⟨digit, isDigit, known⟩ := eanCalc_total digits
  obtain rfl := List.singleton_inj.mp (Option.some.inj (computed.symm.trans known))
  have allDigit : ∀ ch ∈ body ++ [check], ch ∈ asciiDigits := by
    intro ch member
    rcases List.mem_append.mp member with member | member
    · exact digits ch member
    · exact List.mem_singleton.mp member ▸ isDigit
  have width : [14, 13, 12, 8].contains (body ++ [check]).length = true := by
    rw [List.length_append, List.length_singleton, List.contains_iff_mem]
    simp only [List.mem_cons, List.not_mem_nil, or_false] at legal ⊢
    omega
  simp only [eanIsValid, compact_digits allDigit, allDigits_iff.mpr allDigit, width,
    List.dropLast_concat, List.getLast?_concat, computed, Option.map_some, beq_self_eq_true,
    Bool.and_self]

theorem isbnIsValid_append {body : List Char} {check : Char} (length : body.length = 12)
    (digits : ∀ ch ∈ body, ch ∈ asciiDigits) (computed : eanCalcCheckDigit body = some [check]) :
    isbnIsValid (body ++ [check]) = ["978".toList, "979".toList].contains (body.take 3) := by
  obtain ⟨digit, isDigit, known⟩ := eanCalc_total digits
  obtain rfl := List.singleton_inj.mp (Option.some.inj (computed.symm.trans known))
  have allDigit : ∀ ch ∈ body ++ [check], ch ∈ asciiDigits := by
    intro ch member
    rcases List.mem_append.mp member with member | member
    · exact digits ch member
    · exact List.mem_singleton.mp member ▸ isDigit
  have plain : ∀ ch ∈ asciiDigits, ch.toUpper = ch := by decide
  have upperSame : upper (body ++ [check]) = body ++ [check] :=
    (List.map_congr_left fun ch member => plain ch (allDigit ch member)).trans (List.map_id _)
  have width : (body ++ [check]).length = 13 := by rw [List.length_append, length]; rfl
  have front : (body ++ [check]).take 3 = body.take 3 :=
    List.take_append_of_le_length (by omega)
  have valid : eanIsValid (body ++ [check]) = true :=
    eanIsValid_append digits (by rw [length]; decide) computed
  unfold isbnIsValid
  dsimp only
  have notNine : ¬ (body ++ [check]).length = 9 := by omega
  have notTen : ¬ (body ++ [check]).length = 10 := by omega
  rw [compact_digits allDigit, upperSame, if_neg notNine, if_neg notTen, if_pos width, valid, front,
    Bool.true_and]

theorem stdnum_accepting : Accepting stdnum where
  luhn body check nonempty digits computed := by
    have known : luhnCd body = some [check] := by
      simpa only [stdnum, if_pos (allDigits_iff.mpr digits)] using computed
    obtain ⟨digit, isDigit, total⟩ := luhnCd_total digits
    obtain rfl := List.singleton_inj.mp (Option.some.inj (known.symm.trans total))
    have allDigit : ∀ ch ∈ body ++ [check], ch ∈ asciiDigits := by
      intro ch member
      rcases List.mem_append.mp member with member | member
      · exact digits ch member
      · exact List.mem_singleton.mp member ▸ isDigit
    obtain ⟨values, -, bounded, rfl⟩ := exists_digitValues digits
    obtain ⟨value, small, rfl⟩ := exists_digitChar isDigit
    simp only [stdnum, allDigits_iff.mpr allDigit, (luhnValid_append bounded small).mpr known,
      ne_eq, List.append_eq_nil_iff, List.cons_ne_self, and_false, not_false_eq_true,
      decide_true, Bool.and_self]
  ean _ _ digits legal computed := eanIsValid_append digits legal computed
  isbn body other _ _ length otherLength digits otherDigits samePrefix computed otherComputed :=
    ((isbnIsValid_append length digits computed).trans (by rw [samePrefix])).trans
      (isbnIsValid_append otherLength otherDigits otherComputed).symm

end ReferenceStdnum

theorem checksum_mode_writes_identifiers_vin :
    ValueWritten ReferenceStdnum.stdnum vinColumn.charset .vin "1M8GDM9AXKP042788".toList
      "XARWYXBS7BRVEG8WH".toList :=
  checksum_mode_writes_identifiers (ff1Leaf aes (List.replicate 32 0) vinTweak true)
    ReferenceStdnum.stdnum ReferenceStdnum.stdnum_consistent ReferenceStdnum.stdnum_accepting
    vinColumn vinColumn_valid "vin" rfl .vin (by decide +kernel) _ _
    ((fpeEncryptValue_over aes ReferenceStdnum.stdnum (List.replicate 32 0) vinTweak rfl
      "1M8GDM9AXKP042788".toList).symm.trans vinColumn_masks)

end DecoyEngine.Transforms
