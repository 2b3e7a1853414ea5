import DecoyEngine.Transforms.Ff1Permutation
import DecoyEngine.Transforms.Fpe

namespace DecoyEngine.Transforms

open DecoyEngine.Data DecoyEngine.Checksums

/-! The leaf permutation -/

section Permute

variable (cipher : BlockCipher) {key tweak : List UInt8} {charset s : List Char} {forward : Bool}

/-- What `_permute` has checked of its configuration and length before it calls FF1. -/
structure PermuteProfile (key : List UInt8) (charset : List Char) (tweak : List UInt8)
    (length : Nat) : Prop where
  keySize : key.length = ff1KeyBytes
  radixLower : ff1MinRadix ≤ charset.length
  radixUpper : charset.length ≤ ff1MaxRadix
  unique : charset.Nodup
  printable : ∀ ch ∈ charset, isPrintableAscii ch = true
  domain : minDomainLength charset.length ≤ length
  lengthUpper : length ≤ ff1MaxLen
  tweakUpper : tweak.length ≤ ff1MaxTweakLen

theorem charsetOffenders_eq_nil :
    charsetOffenders charset = [] ↔ ∀ ch ∈ charset, isPrintableAscii ch = true := by
  rw [charsetOffenders, ← List.length_eq_zero_iff, List.length_insertionSort, List.length_eq_zero_iff,
    List.dedup_eq_nil, List.map_eq_nil_iff, List.filter_eq_nil_iff]
  simp

theorem dedup_length_eq : charset.dedup.length = charset.length ↔ charset.Nodup := by
  constructor
  · intro same
    rw [← (List.dedup_sublist charset).eq_of_length same]
    exact charset.nodup_dedup
  · intro unique
    rw [List.dedup_eq_self.mpr unique]

theorem minDomainLengthFrom_ge (radix fuel length value : Nat) :
    length ≤ minDomainLengthFrom radix fuel length value := by
  induction fuel generalizing length value with
  | zero => exact Nat.le_refl _
  | succ fuel ih =>
      rw [minDomainLengthFrom]
      split
      · exact Nat.le_trans (Nat.le_succ length) (ih _ _)
      · exact Nat.le_refl _

theorem two_le_minDomainLength {radix : Nat} (small : radix ≤ ff1MaxRadix) :
    2 ≤ minDomainLength radix := by
  have below : radix < ff1MinDomain := by
    unfold ff1MaxRadix at small
    unfold ff1MinDomain
    omega
  rw [minDomainLength, minDomainLengthFrom, if_pos below]
  exact minDomainLengthFrom_ge _ _ _ _

theorem permute_ok_inv {out : List Char} (nonempty : s ≠ [])
    (ran : permute cipher s key charset tweak forward = .ok out) :
    PermuteProfile key charset tweak s.length ∧ ∀ ch ∈ s, ch ∈ charset := by
  have positive : s.length ≠ 0 := fun zero => nonempty (List.length_eq_zero_iff.mp zero)
  unfold permute at ran
  simp only [if_neg positive] at ran
  split at ran
  · cases ran
  rename_i keySize
  split at ran
  · cases ran
  rename_i radix
  split at ran
  · cases ran
  rename_i unique
  split at ran
  · cases ran
  rename_i printable
  split at ran
  · cases ran
  rename_i domain
  split at ran
  · cases ran
  rename_i lengthUpper
  split at ran
  · cases ran
  rename_i tweakUpper
  split at ran
  · cases ran
  rename_i members
  rw [not_not] at keySize radix unique printable
  refine ⟨⟨keySize, radix.1, radix.2, dedup_length_eq.mp unique,
    charsetOffenders_eq_nil.mp printable, by omega, by omega, by omega⟩, ?_⟩
  simpa using members

theorem permute_of_profile (profile : PermuteProfile key charset tweak s.length)
    (members : ∀ ch ∈ s, ch ∈ charset) :
    permute cipher s key charset tweak forward =
      decodeResult charset (ff1Run cipher forward key tweak charset.length
        (s.map (fun ch => charset.idxOf ch))) := by
  have positive : s.length ≠ 0 := by
    have := two_le_minDomainLength profile.radixUpper
    have := profile.domain
    omega
  have inside : ¬ (s.any (fun ch => decide (ch ∉ charset))) = true := by simpa using members
  have domain := profile.domain
  have lengthUpper := profile.lengthUpper
  have tweakUpper := profile.tweakUpper
  unfold permute
  simp only [if_neg positive]
  rw [if_neg (not_not.mpr profile.keySize),
    if_neg (not_not.mpr ⟨profile.radixLower, profile.radixUpper⟩),
    if_neg (not_not.mpr (dedup_length_eq.mpr profile.unique)),
    if_neg (not_not.mpr (charsetOffenders_eq_nil.mpr profile.printable)),
    if_neg (by omega), if_neg (by omega), if_neg (by omega), if_neg inside]

theorem ff1Run_of_admissible (forward : Bool) {radix : Nat} {numerals : List Nat}
    (admissible : Admissible key tweak radix numerals) :
    ∃ result, ff1Run cipher forward key tweak radix numerals = .ok result ∧
      result.length = numerals.length ∧ (∀ digit ∈ result, digit < radix) ∧
      ff1Run cipher (!forward) key tweak radix result = .ok numerals := by
  cases forward with
  | true => exact encrypt_of_admissible cipher admissible
  | false => exact decrypt_of_admissible cipher admissible

theorem map_getElem!_idxOf (members : ∀ ch ∈ s, ch ∈ charset) :
    (s.map (fun ch => charset.idxOf ch)).map (fun i => charset[i]!) = s := by
  rw [List.map_map]
  refine (List.map_congr_left fun ch member => ?_).trans (List.map_id s)
  have found := List.idxOf_lt_length_iff.mpr (members ch member)
  simp only [Function.comp_apply, id_eq]
  rw [getElem!_pos charset (charset.idxOf ch) found, List.getElem_idxOf found]

theorem map_idxOf_getElem! {numerals : List Nat} (unique : charset.Nodup)
    (bounded : ∀ digit ∈ numerals, digit < charset.length) :
    (numerals.map (fun i => charset[i]!)).map (fun ch => charset.idxOf ch) = numerals := by
  rw [List.map_map]
  refine (List.map_congr_left fun digit member => ?_).trans (List.map_id numerals)
  have small := bounded digit member
  simp only [Function.comp_apply, id_eq]
  rw [getElem!_pos charset digit small, unique.idxOf_getElem digit small]

theorem permute_inverse (forward : Bool)
    (profile : PermuteProfile key charset tweak s.length)
    (members : ∀ ch ∈ s, ch ∈ charset) :
    ∃ out, permute cipher s key charset tweak forward = .ok out ∧ out.length = s.length ∧
      (∀ ch ∈ out, ch ∈ charset) ∧ permute cipher out key charset tweak (!forward) = .ok s := by
  have small := two_le_minDomainLength profile.radixUpper
  have domain := profile.domain
  have lengthUpper := profile.lengthUpper
  have tweakUpper := profile.tweakUpper
  have radixUpper := profile.radixUpper
  have keySize := profile.keySize
  unfold ff1MaxLen at lengthUpper
  unfold ff1MaxTweakLen at tweakUpper
  unfold ff1MaxRadix at radixUpper
  unfold ff1KeyBytes at keySize
  have admissible : Admissible key tweak charset.length (s.map (fun ch => charset.idxOf ch)) := by
    refine ⟨by simp [keySize], profile.radixLower, by omega, ?_, ?_, ?_, by omega⟩
    · rw [List.length_map]
      omega
    · rw [List.length_map]
      omega
    · intro digit member
      obtain ⟨ch, inside, rfl⟩ := List.mem_map.mp member
      exact List.idxOf_lt_length_iff.mpr (members ch inside)
  obtain ⟨result, ran, length, bounded, back⟩ := ff1Run_of_admissible cipher forward admissible
  rw [List.length_map] at length
  have inside : ∀ ch ∈ result.map (fun i => charset[i]!), ch ∈ charset := by
    intro ch member
    obtain ⟨i, found, rfl⟩ := List.mem_map.mp member
    rw [getElem!_pos charset i (bounded i found)]
    exact List.getElem_mem _
  refine ⟨_, by rw [permute_of_profile cipher profile members, ran, decodeResult],
    by simp [length], inside, ?_⟩
  rw [permute_of_profile cipher (by simpa [length] using profile) inside,
    map_idxOf_getElem! profile.unique bounded, back]
  simp only [decodeResult, map_getElem!_idxOf members]

theorem permute_undo {out : List Char} (nonempty : s ≠ [])
    (ran : permute cipher s key charset tweak forward = .ok out) :
    (∀ ch ∈ s, ch ∈ charset) ∧ out.length = s.length ∧ (∀ ch ∈ out, ch ∈ charset) ∧
      permute cipher out key charset tweak (!forward) = .ok s := by
  obtain ⟨profile, members⟩ := permute_ok_inv cipher nonempty ran
  obtain ⟨other, again, length, inside, back⟩ :=
    permute_inverse cipher forward profile members
  rw [ran] at again
  obtain rfl := Except.ok.inj again
  exact ⟨members, length, inside, back⟩

end Permute

section CheckDigits

variable (cipher : BlockCipher) {key tweak : List UInt8} {s : List Char} {forward : Bool}

/-- The shape `luhn`, `ean13`, `gtin`, `npi`, `isbn13` and `validate_luhn` share: `pinned`
leading characters stay, the next `inner` are permuted, a check digit follows. -/
def pinnedBody (alphabet : List Char) (pinned inner : Nat) (checkOf : List Char → Option (List Char)) (s : List Char)
    (key tweak : List UInt8) (forward : Bool) : Except FpeRaise (List Char) := do
  let middle ← permute cipher ((s.take (pinned + inner)).drop pinned) key alphabet tweak forward
  let check ← checkDigit (checkOf (s.take pinned ++ middle))
  .ok (s.take pinned ++ middle ++ check)

theorem pinnedBody_ok {alphabet : List Char} {pinned inner : Nat} {checkOf : List Char → Option (List Char)}
    {out : List Char} (ran : pinnedBody cipher alphabet pinned inner checkOf s key tweak forward = .ok out) :
    ∃ middle check,
      permute cipher ((s.take (pinned + inner)).drop pinned) key alphabet tweak forward =
        .ok middle ∧
      checkOf (s.take pinned ++ middle) = some check ∧ out = s.take pinned ++ middle ++ check := by
  unfold pinnedBody at ran
  cases permuted : permute cipher ((s.take (pinned + inner)).drop pinned) key alphabet tweak
      forward with
  | error raised => simp [permuted, bind, Except.bind] at ran
  | ok middle =>
      cases computed : checkOf (s.take pinned ++ middle) with
      | none => simp [permuted, computed, checkDigit, bind, Except.bind] at ran
      | some check =>
          simp only [permuted, computed, checkDigit, bind, Except.bind] at ran
          exact ⟨middle, check, rfl, computed, (Except.ok.inj ran).symm⟩

theorem pinnedBody_inverse {alphabet : List Char} {pinned inner : Nat}
    {checkOf : List Char → Option (List Char)} {out : List Char}
    (digital : ∀ ch ∈ alphabet, ch ∈ asciiDigits) (length : s.length = pinned + inner + 1) (positive : 0 < inner)
    (leading : ∀ ch ∈ s.take pinned, ch ∈ asciiDigits)
    (total : ∀ body, (∀ ch ∈ body, ch ∈ asciiDigits) →
      ∃ check ∈ asciiDigits, checkOf body = some [check])
    (ran : pinnedBody cipher alphabet pinned inner checkOf s key tweak forward = .ok out) :
    out.length = s.length ∧ (∀ ch ∈ out, ch ∈ asciiDigits) ∧
      (∀ ch ∈ s.take (pinned + inner), ch ∈ asciiDigits) ∧
      ∃ check ∈ asciiDigits, checkOf (s.take (pinned + inner)) = some [check] ∧
        pinnedBody cipher alphabet pinned inner checkOf out key tweak (!forward) =
          .ok (s.take (pinned + inner) ++ [check]) := by
  obtain ⟨middle, check, permuted, computed, rfl⟩ := pinnedBody_ok cipher ran
  have split : s.take pinned ++ (s.take (pinned + inner)).drop pinned = s.take (pinned + inner) := by
    have short : (s.take (pinned + inner)).take pinned = s.take pinned := by
      rw [List.take_take, Nat.min_eq_left (by omega)]
    rw [← short, List.take_append_drop]
  have width : ((s.take (pinned + inner)).drop pinned).length = inner := by
    rw [List.length_drop, List.length_take]
    omega
  have pinnedWidth : (s.take pinned).length = pinned := by
    rw [List.length_take]
    omega
  have nonempty : (s.take (pinned + inner)).drop pinned ≠ [] := by
    intro empty
    rw [empty, List.length_nil] at width
    omega
  obtain ⟨members, permutedLength, inside, back⟩ := permute_undo cipher nonempty permuted
  rw [width] at permutedLength
  have bodyDigits : ∀ ch ∈ s.take pinned ++ middle, ch ∈ asciiDigits := by
    intro ch member
    rcases List.mem_append.mp member with member | member
    · exact leading ch member
    · exact digital ch (inside ch member)
  have sourceDigits : ∀ ch ∈ s.take (pinned + inner), ch ∈ asciiDigits := by
    rw [← split]
    intro ch member
    rcases List.mem_append.mp member with member | member
    · exact leading ch member
    · exact digital ch (members ch member)
  obtain ⟨digit, digitMember, known⟩ := total _ bodyDigits
  rw [computed] at known
  obtain rfl := Option.some.inj known
  obtain ⟨sourceCheck, sourceMember, sourceKnown⟩ := total _ sourceDigits
  have bodyWidth : (s.take pinned ++ middle).length = pinned + inner := by
    rw [List.length_append, pinnedWidth, permutedLength]
  have keptBody : (s.take pinned ++ middle ++ [digit]).take (pinned + inner) =
      s.take pinned ++ middle := by
    rw [List.take_append_of_le_length (by omega), ← bodyWidth, List.take_length]
  have keptLead : (s.take pinned ++ middle ++ [digit]).take pinned = s.take pinned := by
    rw [List.append_assoc, List.take_append_of_le_length (by omega)]
    exact List.take_of_length_le (by omega)
  have keptMiddle : (s.take pinned ++ middle).drop pinned = middle := by
    rw [List.drop_append_of_le_length (by omega), List.drop_of_length_le (by omega),
      List.nil_append]
  refine ⟨?_, ?_, sourceDigits, sourceCheck, sourceMember, sourceKnown, ?_⟩
  · rw [List.length_append, bodyWidth, length, List.length_singleton]
  · intro ch member
    rcases List.mem_append.mp member with member | member
    · exact bodyDigits ch member
    · exact List.mem_singleton.mp member ▸ digitMember
  · simp only [pinnedBody, keptBody, keptLead, keptMiddle, back, split, sourceKnown, checkDigit,
      bind, Except.bind]

theorem eq_take_append_last {width : Nat} {check : Char} (length : s.length = width + 1) :
    s.take width ++ [check] = s ↔ s.getLast? = some check := by
  have nonempty : s ≠ [] := by
    rintro rfl
    simp at length
  have split : s.take width ++ [s.getLast nonempty] = s := by
    have initial : s.take width = s.dropLast := by
      rw [List.dropLast_eq_take, length, Nat.add_sub_cancel]
    rw [initial, List.dropLast_append_getLast]
  rw [List.getLast?_eq_getLast_of_ne_nil nonempty]
  constructor
  · intro same
    have last := List.append_cancel_left (same.trans split.symm)
    simpa using last.symm
  · intro last
    obtain rfl := Option.some.inj last
    exact split

end CheckDigits

theorem exists_digitValues {body : List Char} (digits : ∀ ch ∈ body, ch ∈ asciiDigits) :
    ∃ values, body.mapM decimalValue = some values ∧ (∀ value ∈ values, value < 10) ∧
      body = values.map digitChar := by
  induction body with
  | nil => exact ⟨[], rfl, by simp, rfl⟩
  | cons ch body ih =>
      obtain ⟨value, small, rfl⟩ := exists_digitChar (digits ch (by simp))
      obtain ⟨values, read, bounded, rfl⟩ := ih (fun ch member => digits ch (by simp [member]))
      refine ⟨value :: values, ?_, ?_, rfl⟩
      · rw [List.mapM_cons, decimalValue_digitChar small, read]
        rfl
      · simpa using ⟨small, bounded⟩

theorem mapM_decimalValue {values : List Nat} (bounded : ∀ value ∈ values, value < 10) :
    (values.map digitChar).mapM decimalValue = some values := by
  induction values with
  | nil => rfl
  | cons value values ih =>
      rw [List.map_cons, List.mapM_cons, decimalValue_digitChar (bounded value (by simp)),
        ih (fun value member => bounded value (by simp [member]))]
      rfl

theorem luhnCd_digits {values : List Nat} (bounded : ∀ value ∈ values, value < 10) :
    luhnCd (values.map digitChar) =
      some [digitChar ((10 - luhnTotal 0 values.reverse % 10) % 10)] := by
  rw [luhnCd, ← List.map_reverse, mapM_decimalValue (by simpa using bounded)]
  rfl

theorem luhnCd_total {body : List Char} (digits : ∀ ch ∈ body, ch ∈ asciiDigits) :
    ∃ check ∈ asciiDigits, luhnCd body = some [check] := by
  obtain ⟨values, _, bounded, rfl⟩ := exists_digitValues digits
  exact ⟨_, digitChar_mem (Nat.mod_lt _ (by decide)), luhnCd_digits bounded⟩

theorem npiCalcCheckDigit_total {body : List Char} (digits : ∀ ch ∈ body, ch ∈ asciiDigits) :
    ∃ check ∈ asciiDigits, npiCalcCheckDigit body = some [check] := by
  have leading : ∀ ch ∈ npiPrefix, ch ∈ asciiDigits := by decide
  refine luhnCd_total fun ch member => ?_
  rcases List.mem_append.mp member with member | member
  · exact leading ch member
  · exact digits ch member

theorem vinSum_append (front back : List Char) {frontWeights backWeights : List Nat}
    (aligned : front.length = frontWeights.length) :
    vinSum (front ++ back) (frontWeights ++ backWeights) =
      (vinSum front frontWeights).bind
        (fun total => (vinSum back backWeights).map (fun rest => total + rest)) := by
  induction front generalizing frontWeights with
  | nil =>
      cases frontWeights with
      | nil => simp [vinSum]
      | cons weight weights => simp at aligned
  | cons ch front ih =>
      cases frontWeights with
      | nil => simp at aligned
      | cons weight weights =>
          have shorter : front.length = weights.length := by simpa using aligned
          have rest := ih shorter
          simp only [List.cons_append, vinSum, rest]
          cases vinTrans ch <;> cases vinSum front weights <;> cases vinSum back backWeights <;>
            simp [Nat.add_assoc]

/-- The weight at the check position is 0, so any VIN character there gives one sum. -/
theorem vinCheckFromFull_check_position {front back : List Char} (width : front.length = 8)
    (left right : Char) (leftLegal : (vinTrans left).isSome = true)
    (rightLegal : (vinTrans right).isSome = true) :
    vinCheckFromFull (front ++ [left] ++ back) = vinCheckFromFull (front ++ [right] ++ back) := by
  have weights : vinWeights = [8, 7, 6, 5, 4, 3, 2, 10] ++ ([0] ++ [9, 8, 7, 6, 5, 4, 3, 2]) := rfl
  have single : ∀ ch, (vinTrans ch).isSome = true → vinSum [ch] [0] = some 0 := by
    intro ch legal
    obtain ⟨value, known⟩ := Option.isSome_iff_exists.mp legal
    simp [vinSum, known]
  have aligned : front.length = [8, 7, 6, 5, 4, 3, 2, 10].length := by simp [width]
  rw [vinCheckFromFull, vinCheckFromFull, List.append_assoc, List.append_assoc, weights,
    vinSum_append front ([left] ++ back) aligned, vinSum_append front ([right] ++ back) aligned,
    vinSum_append [left] back (by simp), vinSum_append [right] back (by simp),
    single left leftLegal, single right rightLegal]

theorem vinSum_total {body : List Char} {weights : List Nat} (length : body.length ≤ weights.length)
    (legal : ∀ ch ∈ body, ch ∈ vinCharset) : ∃ total, vinSum body weights = some total := by
  have known : ∀ ch ∈ vinCharset, (vinTrans ch).isSome = true := by decide
  induction body generalizing weights with
  | nil => exact ⟨0, by cases weights <;> rfl⟩
  | cons ch body ih =>
      cases weights with
      | nil => simp at length
      | cons weight weights =>
          obtain ⟨value, valueKnown⟩ := Option.isSome_iff_exists.mp (known ch (legal ch (by simp)))
          have shorter : body.length ≤ weights.length := by simpa using length
          obtain ⟨total, rest⟩ := ih shorter
            (fun ch member => legal ch (by simp [member]))
          exact ⟨value * weight + total, by simp [vinSum, valueKnown, rest]⟩

theorem vinCheckChar_mem (total : Nat) : vinCheckChar total ∈ vinCharset := by
  have digits : ∀ ch ∈ asciiDigits, ch ∈ vinCharset := by decide
  rw [vinCheckChar]
  split
  · decide
  · exact digits _ (digitChar_mem (by omega))

theorem vinCalcCheckDigit_total {body : List Char} (length : body.length = 16)
    (legal : ∀ ch ∈ body, ch ∈ vinCharset) :
    ∃ check ∈ vinCharset, vinCalcCheckDigit body = some [check] := by
  have inside : ∀ ch ∈ body.take 8 ++ ['0'] ++ body.drop 8, ch ∈ vinCharset := by
    intro ch member
    simp only [List.mem_append, List.mem_singleton] at member
    rcases member with (member | rfl) | member
    · exact legal ch (List.mem_of_mem_take member)
    · decide
    · exact legal ch (List.mem_of_mem_drop member)
  have fits : (body.take 8 ++ ['0'] ++ body.drop 8).length ≤ vinWeights.length := by
    simp [vinWeights, length]
  obtain ⟨total, summed⟩ := vinSum_total fits inside
  exact ⟨_, vinCheckChar_mem total, by rw [vinCalcCheckDigit, vinCheckFromFull, summed]; rfl⟩

section Vin

variable (cipher : BlockCipher) (stdnum : Stdnum) {key tweak : List UInt8} {charset s : List Char}
  {forward : Bool}

theorem vinPermutationCharset_legal {ch : Char} (member : ch ∈ vinPermutationCharset charset) :
    ch ∈ vinCharset := by
  have digits : ∀ ch ∈ asciiDigits, ch ∈ vinCharset := by decide
  unfold vinPermutationCharset at member
  dsimp only at member
  split at member
  · exact digits ch member
  · simpa using (List.mem_filter.mp member).2

theorem vinBody_ok {out : List Char}
    (ran : checksumBody cipher stdnum s key charset tweak forward .vin = .ok out) :
    ∃ enc check,
      permute cipher (s.take 8 ++ s.drop 9) key (vinPermutationCharset charset) tweak forward =
        .ok enc ∧
      vinCalcCheckDigit enc = some check ∧ out = enc.take 8 ++ check ++ enc.drop 8 := by
  unfold checksumBody at ran
  dsimp only at ran
  cases permuted : permute cipher (s.take 8 ++ s.drop 9) key (vinPermutationCharset charset) tweak
      forward with
  | error raised => simp [permuted, bind, Except.bind] at ran
  | ok enc =>
      cases computed : vinCalcCheckDigit enc with
      | none => simp [permuted, computed, calcCheckDigit, checkDigit, bind, Except.bind] at ran
      | some check =>
          simp only [permuted, computed, calcCheckDigit, checkDigit, bind, Except.bind] at ran
          exact ⟨enc, check, rfl, computed, (Except.ok.inj ran).symm⟩

theorem vinBody_inverse {out : List Char} (length : s.length = 17)
    (ran : checksumBody cipher stdnum s key charset tweak forward .vin = .ok out) :
    out.length = 17 ∧ (∀ ch ∈ out, ch ∈ vinCharset) ∧
      (∀ ch ∈ s.take 8 ++ s.drop 9, ch ∈ vinCharset) ∧
      ∃ check ∈ vinCharset, vinCalcCheckDigit (s.take 8 ++ s.drop 9) = some [check] ∧
        checksumBody cipher stdnum out key charset tweak (!forward) .vin =
          .ok (s.take 8 ++ [check] ++ s.drop 9) := by
  obtain ⟨enc, check, permuted, computed, rfl⟩ := vinBody_ok cipher stdnum ran
  have frontWidth : (s.take 8).length = 8 := by simp [length]
  have backWidth : (s.drop 9).length = 8 := by simp [length]
  have width : (s.take 8 ++ s.drop 9).length = 16 := by simp [length]
  have nonempty : s.take 8 ++ s.drop 9 ≠ [] := by
    intro empty
    rw [empty] at width
    simp at width
  obtain ⟨members, encLength, inside, back⟩ := permute_undo cipher nonempty permuted
  rw [width] at encLength
  have sourceLegal : ∀ ch ∈ s.take 8 ++ s.drop 9, ch ∈ vinCharset :=
    fun ch member => vinPermutationCharset_legal (members ch member)
  have encLegal : ∀ ch ∈ enc, ch ∈ vinCharset :=
    fun ch member => vinPermutationCharset_legal (inside ch member)
  obtain ⟨digit, digitLegal, known⟩ := vinCalcCheckDigit_total encLength encLegal
  rw [computed] at known
  obtain rfl := Option.some.inj known
  obtain ⟨sourceCheck, checkLegal, sourceKnown⟩ := vinCalcCheckDigit_total width sourceLegal
  have encFront : (enc.take 8).length = 8 := by simp [encLength]
  have rawBody : (enc.take 8 ++ [digit] ++ enc.drop 8).take 8 ++
      (enc.take 8 ++ [digit] ++ enc.drop 8).drop 9 = enc := by
    rw [List.append_assoc, List.take_append_of_le_length (by omega),
      List.take_of_length_le (by omega), List.drop_append, List.drop_of_length_le (by omega),
      encFront]
    simp
  have sourceFront : (s.take 8 ++ s.drop 9).take 8 = s.take 8 := by
    rw [List.take_append_of_le_length (by omega), List.take_of_length_le (by omega)]
  have sourceBack : (s.take 8 ++ s.drop 9).drop 8 = s.drop 9 := by
    rw [List.drop_append_of_le_length (by omega), List.drop_of_length_le (by omega),
      List.nil_append]
  refine ⟨by simp [encLength], ?_, sourceLegal, sourceCheck, checkLegal, sourceKnown, ?_⟩
  · intro ch member
    simp only [List.mem_append, List.mem_singleton] at member
    rcases member with (member | rfl) | member
    · exact encLegal ch (List.mem_of_mem_take member)
    · exact digitLegal
    · exact encLegal ch (List.mem_of_mem_drop member)
  · unfold checksumBody
    simp only [rawBody, back, sourceKnown, calcCheckDigit, checkDigit, bind, Except.bind,
      sourceFront, sourceBack]

theorem toUpper_vinCharset {text : List Char} (legal : ∀ ch ∈ text, ch ∈ vinCharset) :
    upper text = text := by
  have fixed : ∀ ch ∈ vinCharset, ch.toUpper = ch := by decide
  exact (List.map_congr_left fun ch member => fixed ch (legal ch member)).trans (List.map_id text)

theorem toUpper_checkChar {ch : Char} (printable : isPrintableAscii ch = true)
    (check : ch.toUpper ∈ 'X' :: asciiDigits) : ch.toUpper = ch ↔ ch ≠ 'x' := by
  have table : ∀ code < 127, (Char.ofNat code).toUpper ∈ 'X' :: asciiDigits →
      ((Char.ofNat code).toUpper = Char.ofNat code ↔ Char.ofNat code ≠ 'x') := by decide
  have small : ch.toNat < 127 := by
    simp only [isPrintableAscii, Bool.and_eq_true, decide_eq_true_eq] at printable
    omega
  have entry := table ch.toNat small
  rw [Char.ofNat_toNat] at entry
  exact entry check

theorem vinCheckChar_check (total : Nat) : vinCheckChar total ∈ 'X' :: asciiDigits := by
  rw [vinCheckChar]
  split
  · exact List.mem_cons_self
  · exact List.mem_cons_of_mem _ (digitChar_mem (by omega))

theorem vinValidate_check {check : Char} (length : s.length = 17)
    (printable : ∀ ch ∈ s, isPrintableAscii ch = true)
    (legal : ∀ ch ∈ s.take 8 ++ s.drop 9, ch ∈ vinCharset) (valid : vinValidate s = true)
    (computed : vinCalcCheckDigit (s.take 8 ++ s.drop 9) = some [check]) :
    s.take 8 ++ [check] ++ s.drop 9 = s ↔ s[8]? ≠ some 'x' := by
  have bound : 8 < s.length := by omega
  have split : s.take 8 ++ [s[8]] ++ s.drop 9 = s := by
    rw [List.take_append_getElem, List.take_append_drop]
  have frontWidth : (s.take 8).length = 8 := by simp [length]
  have upperSplit : upper s = s.take 8 ++ [s[8].toUpper] ++ s.drop 9 := by
    have front := toUpper_vinCharset (fun ch member => legal ch (List.mem_append_left _ member))
    have back := toUpper_vinCharset (fun ch member => legal ch (List.mem_append_right _ member))
    have whole := congrArg upper split
    simp only [upper, List.map_append, List.map_cons, List.map_nil] at whole front back
    rw [front, back] at whole
    exact whole.symm
  have position : (s.take 8 ++ [s[8].toUpper] ++ s.drop 9)[8]! = s[8].toUpper := by
    simp [frontWidth]
  unfold vinValidate at valid
  simp only [strip_printable printable, upperSplit, position] at valid
  split at valid
  · cases valid
  split at valid
  · cases valid
  rename_i allLegal
  have checkLegal : (vinTrans s[8].toUpper).isSome = true := by
    simp only [Bool.not_eq_true', Bool.not_eq_false, List.all_eq_true] at allLegal
    exact allLegal _ (by simp)
  have recomputed : vinCalcCheckDigit (s.take 8 ++ s.drop 9) = some [s[8].toUpper] := by
    have sourceFront : (s.take 8 ++ s.drop 9).take 8 = s.take 8 := by
      rw [List.take_append_of_le_length (by omega), List.take_of_length_le (by omega)]
    have sourceBack : (s.take 8 ++ s.drop 9).drop 8 = s.drop 9 := by
      rw [List.drop_append_of_le_length (by omega), List.drop_of_length_le (by omega),
        List.nil_append]
    rw [vinCalcCheckDigit, sourceFront, sourceBack,
      vinCheckFromFull_check_position frontWidth '0' s[8].toUpper (by decide) checkLegal]
    simpa using valid
  have isCheck : s[8].toUpper ∈ 'X' :: asciiDigits := by
    rw [vinCalcCheckDigit, vinCheckFromFull] at recomputed
    obtain ⟨total, _, same⟩ := Option.map_eq_some_iff.mp recomputed
    rw [← List.singleton_inj.mp same]
    exact vinCheckChar_check total
  rw [computed] at recomputed
  obtain rfl := List.singleton_inj.mp (Option.some.inj recomputed)
  have canonical := toUpper_checkChar (printable s[8] (List.getElem_mem bound)) isCheck
  rw [List.getElem?_eq_getElem bound, Ne, Option.some_inj, ← Ne, ← canonical]
  constructor
  · intro same
    have middle := same.trans split.symm
    rw [List.append_assoc, List.append_assoc] at middle
    exact (List.cons.inj (List.append_cancel_left middle)).1
  · intro same
    rw [same, split]

end Vin

end DecoyEngine.Transforms
