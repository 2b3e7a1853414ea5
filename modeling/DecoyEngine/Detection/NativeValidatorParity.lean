import DecoyEngine.Detection.AsciiValidators
import DecoyEngine.Detection.NativeScanParity

namespace DecoyEngine.Detection.Native

open DecoyEngine.Data

/-! The native validators against the Python ones, on eligible values. -/

variable {value text : List Char} {test : UInt8 → Bool} {accepts : Char → Bool}

section Ascii

/-- What an uppercased ASCII value can hold. -/
def Raised (ch : Char) : Prop := ch.toNat < 128 ∧ ch.isLower = false

instance (ch : Char) : Decidable (Raised ch) := inferInstanceAs (Decidable (_ ∧ _))

/-- A byte of any value, as both sides read it. -/
def ByteAscii (ch : Char) : Prop :=
  (isAsciiDigit (byte ch) = ch.isDigit ∧ isAsciiAlphabetic (byte ch) = ch.isAlpha) ∧
  (toAsciiUppercase (byte ch) = byte ch.toUpper ∧ Raised ch.toUpper) ∧
  ((!isSpace ch.toUpper) = (!isSpace ch) ∧ (ch.toUpper != '.') = (ch != '.')) ∧
  (ch.isDigit = true → ∀ double,
    (luhnDigit double (byte ch - byte '0').toUInt32).toNat =
        Detection.luhnDigit double (Ascii.digitOf ch) ∧
      Detection.luhnDigit double (Ascii.digitOf ch) ≤ 9)

/-- A byte of an uppercased value, as both sides read it. -/
def RaisedAscii (ch : Char) : Prop :=
  isAsciiUppercase (byte ch) = ch.isAlpha ∧
  (icd10ChapterRange (byte ch) = (icd10Chapters.lookup ch).map fun range =>
    (UInt32.ofNat range.1, UInt32.ofNat range.2)) ∧
  ((icd10Chapters.lookup ch).all fun range => range.1 < 100 && range.2 < 100) = true ∧
  (ch.isAlpha = true →
    (((byte ch - byte 'A').toUInt32 + 10) / 10).toNat =
        Ascii.digitOf (digitChar ((ch.toNat - 55) / 10)) ∧
      (((byte ch - byte 'A').toUInt32 + 10) % 10).toNat =
        Ascii.digitOf (digitChar ((ch.toNat - 55) % 10)) ∧
      Ascii.digitOf (digitChar ((ch.toNat - 55) / 10)) < 10 ∧
      Ascii.digitOf (digitChar ((ch.toNat - 55) % 10)) < 10)

instance (ch : Char) : Decidable (ByteAscii ch) := inferInstanceAs (Decidable (_ ∧ _))

instance (ch : Char) : Decidable (RaisedAscii ch) := inferInstanceAs (Decidable (_ ∧ _))

theorem ascii_codes : ∀ code < 128, ByteAscii (Char.ofNat code) ∧
    (Raised (Char.ofNat code) → RaisedAscii (Char.ofNat code)) := by decide +kernel

theorem byteAscii {ch : Char} (ascii : ch.toNat < 128) : ByteAscii ch := by
  obtain ⟨code, small, rfl⟩ := exists_code ascii
  exact (ascii_codes code small).1

theorem raisedAscii {ch : Char} (raised : Raised ch) : RaisedAscii ch := by
  obtain ⟨code, small, rfl⟩ := exists_code raised.1
  exact (ascii_codes code small).2 raised

end Ascii

section Filtering

theorem Agree.filters (agree : Agree text test accepts) :
    (text.map byte).filter test = (text.filter accepts).map byte := by
  rw [List.filter_map]
  exact congrArg (List.map byte) (List.filter_congr agree)

theorem Agree.not (agree : Agree text test accepts) :
    Agree text (fun b => !test b) (fun ch => !accepts ch) :=
  fun ch member => congrArg Bool.not (agree ch member)

theorem Agree.alls (agree : Agree text test accepts) :
    (text.map byte).all test = text.all accepts := by
  induction text with
  | nil => rfl
  | cons ch text ih =>
      rw [List.map_cons, List.all_cons, List.all_cons, agree ch (by simp),
        ih fun other member => agree other (by simp [member])]

theorem isEligible_sublist {part : List Char} (eligible : isEligible text = true)
    (within : part ⊆ text) : isEligible part = true :=
  isEligible_iff.mpr fun ch member => isEligible_iff.mp eligible ch (within member)

theorem agree_isDigit (eligible : isEligible text = true) :
    Agree text isAsciiDigit Char.isDigit :=
  fun ch member => (byteAscii (ascii_of_eligible eligible ch member)).1.1

theorem filter_separators (eligible : isEligible value = true) :
    (asBytes value).filter (fun b => !(isStripWs b || b == byte '-')) =
      (dropSeparators value).map byte := by
  rw [asBytes_eligible eligible]
  exact ((agree_space eligible).or (agree_char eligible (by decide))).not.filters

theorem isEligible_separators (eligible : isEligible value = true) :
    isEligible (dropSeparators value) = true :=
  isEligible_sublist eligible List.filter_sublist.subset

end Filtering

section Luhn

theorem luhnDigit_byte {ch : Char} (digit : ch.isDigit = true) (double : Bool) :
    (luhnDigit double (byte ch - byte '0').toUInt32).toNat =
        Detection.luhnDigit double (Ascii.digitOf ch) ∧
      Detection.luhnDigit double (Ascii.digitOf ch) ≤ 9 := by
  have ascii : ch.toNat < 128 := by
    simp only [Char.isDigit, Bool.and_eq_true, decide_eq_true_eq] at digit
    have top : ch.val.toNat ≤ 57 := UInt32.le_iff_toNat_le.mp digit.2
    exact Nat.lt_of_le_of_lt top (by decide)
  exact (byteAscii ascii).2.2.2 digit double

theorem luhnTotal_byte (parity : Nat) {digits : List Char}
    (all : digits.all Char.isDigit = true) :
    (luhnTotal parity (digits.map byte)).toNat =
      Ascii.luhnTotal parity digits % 2 ^ 32 := by
  rw [luhnTotal, Ascii.luhnTotal, ← List.map_reverse, List.zipIdx_map]
  have each : ∀ entry ∈ digits.reverse.zipIdx, entry.1.isDigit = true := by
    intro entry member
    exact List.all_eq_true.mp all _ (List.mem_reverse.mp (List.fst_mem_of_mem_zipIdx member))
  generalize digits.reverse.zipIdx = entries at each
  have run : ∀ total : UInt32,
      ((entries.map (Prod.map byte id)).foldl (fun total entry =>
          total + luhnDigit (entry.2 % 2 == parity) (entry.1 - byte '0').toUInt32) total).toNat =
        (total.toNat + (entries.map fun entry =>
          Detection.luhnDigit (entry.2 % 2 == parity) (Ascii.digitOf entry.1)).sum) % 2 ^ 32 := by
    induction entries with
    | nil =>
        intro total
        exact (Nat.mod_eq_of_lt total.toNat_lt).symm
    | cons entry entries ih =>
        intro total
        have here := (luhnDigit_byte (each entry (by simp)) (entry.2 % 2 == parity)).1
        rw [List.map_cons, List.foldl_cons, ih fun other member => each other (by simp [member]),
          List.map_cons, List.sum_cons, UInt32.toNat_add]
        simp only [Prod.map_fst, Prod.map_snd, id_eq, here]
        omega
  simpa using run 0

theorem luhnTotal_le (parity : Nat) {digits : List Char} (all : digits.all Char.isDigit = true) :
    Ascii.luhnTotal parity digits ≤ 9 * digits.length := by
  have size : digits.reverse.zipIdx.length = digits.length := by simp
  have each : ∀ entry ∈ digits.reverse.zipIdx, entry.1.isDigit = true := by
    intro entry member
    exact List.all_eq_true.mp all _ (List.mem_reverse.mp (List.fst_mem_of_mem_zipIdx member))
  rw [Ascii.luhnTotal, ← size]
  generalize digits.reverse.zipIdx = entries at each
  induction entries with
  | nil => simp
  | cons entry entries ih =>
      have here := (luhnDigit_byte (each entry (by simp)) (entry.2 % 2 == parity)).2
      have rest := ih fun other member => each other (by simp [member])
      simp only [List.map_cons, List.sum_cons, List.length_cons]
      omega

theorem luhnValid_wrapped (eligible : isEligible value = true) :
    luhnValid value =
      (!(!Ascii.allDigits (dropSeparators value) || decide ((dropSeparators value).length < 13)) &&
        Ascii.luhnTotal 1 (dropSeparators value) % 2 ^ 32 % 10 == 0) := by
  have cleaned := isEligible_separators eligible
  rw [luhnValid, filter_separators eligible, List.length_map, (agree_isDigit cleaned).alls]
  by_cases long : (dropSeparators value).length < 13
  · simp [long]
  · cases all : (dropSeparators value).all Char.isDigit with
    | false => simp [all, Ascii.allDigits]
    | true =>
        have some : (dropSeparators value).isEmpty = false := by
          cases empty : dropSeparators value with
          | nil => simp [empty] at long
          | cons ch rest => rfl
        have sum := luhnTotal_byte 1 all
        have last : (luhnTotal 1 ((dropSeparators value).map byte) % 10 == 0) =
            (Ascii.luhnTotal 1 (dropSeparators value) % 2 ^ 32 % 10 == 0) := by
          rw [← sum, Bool.eq_iff_iff, beq_iff_eq, beq_iff_eq, ← UInt32.toNat_inj,
            UInt32.toNat_mod]
          rfl
        simp only [long, last, Ascii.allDigits, all, some]
        simp

theorem luhnValid_eq (eligible : isEligible value = true)
    (short : 9 * value.length < 2 ^ 32) : luhnValid value = Ascii.luhnValid value := by
  rw [luhnValid_wrapped eligible, Ascii.luhnValid]
  cases all : Ascii.allDigits (dropSeparators value) with
  | false => simp
  | true =>
      have digits : (dropSeparators value).all Char.isDigit = true := by
        simp only [Ascii.allDigits, Bool.and_eq_true] at all
        exact all.2
      have bound := luhnTotal_le 1 digits
      have fewer : (dropSeparators value).length ≤ value.length := List.length_filter_le _ value
      have whole : Ascii.luhnTotal 1 (dropSeparators value) % 2 ^ 32 =
          Ascii.luhnTotal 1 (dropSeparators value) := Nat.mod_eq_of_lt (by omega)
      rw [whole]
      by_cases long : (dropSeparators value).length < 13 <;> simp [long]

end Luhn

section Npi

theorem digitOf_lt {ch : Char} (digit : ch.isDigit = true) : Ascii.digitOf ch < 10 :=
  Nat.lt_of_le_of_lt (luhnDigit_byte digit false).2 (by decide)

theorem digitValue_byte {ch : Char} (digit : ch.isDigit = true) :
    (byte ch - byte '0').toUInt32 = UInt32.ofNat (Ascii.digitOf ch) := by
  have value : ((byte ch - byte '0').toUInt32).toNat = Ascii.digitOf ch :=
    (luhnDigit_byte digit false).1
  rw [← value, UInt32.ofNat_toNat]

theorem toNat_small {n : Nat} (small : n < 100) : (UInt32.ofNat n).toNat = n :=
  UInt32.toNat_ofNat_of_lt' (Nat.lt_trans small (by decide))

theorem ofNat_beq {left right : Nat} (leftSmall : left < 10) (rightSmall : right < 10) :
    (UInt32.ofNat left == UInt32.ofNat right) = (left == right) := by
  rw [Bool.eq_iff_iff, beq_iff_eq, beq_iff_eq, ← UInt32.toNat_inj, toNat_small (by omega),
    toNat_small (by omega)]

theorem checkDigit_byte {total : UInt32} {sum : Nat} (same : total.toNat = sum % 2 ^ 32)
    (small : sum < 127) : (10 - total % 10) % 10 = UInt32.ofNat ((10 - sum % 10) % 10) := by
  rw [Nat.mod_eq_of_lt (by omega)] at same
  have value : total = UInt32.ofNat sum := by rw [← same, UInt32.ofNat_toNat]
  subst value
  clear same
  revert sum
  decide +kernel

theorem npiValid_eq (eligible : isEligible value = true) :
    npiValid value = Ascii.npiValid value := by
  have cleaned := isEligible_separators eligible
  rw [npiValid, filter_separators eligible, List.length_map, (agree_isDigit cleaned).alls,
    Ascii.npiValid]
  generalize dropSeparators value = digits
  cases all : digits.all Char.isDigit with
  | false => simp [all, Ascii.allDigits]
  | true =>
      by_cases ten : digits.length = 10
      · have some : digits.isEmpty = false := by
          cases digits with
          | nil => simp at ten
          | cons ch rest => rfl
        have body : (['8', '0', '8', '4', '0'] ++ digits.take 9).all Char.isDigit = true := by
          rw [List.all_append, Bool.and_eq_true]
          refine ⟨by decide, List.all_eq_true.mpr fun ch member => ?_⟩
          exact List.all_eq_true.mp all ch (List.mem_of_mem_take member)
        have total := luhnTotal_byte 0 body
        have bound := luhnTotal_le 0 body
        have width : (['8', '0', '8', '4', '0'] ++ digits.take 9).length = 14 := by simp [ten]
        have nine : 9 < digits.length := by omega
        have check : digits.getD 9 '0' = digits[9] := by simp [List.getD, nine]
        have nativeCheck : (digits.map byte).getD 9 0 = byte digits[9] := by
          simp [List.getD, nine]
        have last := List.all_eq_true.mp all _ (List.getElem_mem nine)
        have joined : bytes "80840" ++ (digits.map byte).take 9 =
            (['8', '0', '8', '4', '0'] ++ digits.take 9).map byte := by
          rw [List.map_append, List.map_take]
          rfl
        simp only [joined, check, nativeCheck]
        simp only [ten, all, some, Ascii.allDigits]
        rw [digitValue_byte last, checkDigit_byte total (by omega), ofNat_beq (by omega)
          (digitOf_lt last)]
        rfl
      · simp [ten, Ascii.allDigits]

end Npi

section Ipv4

theorem splitOn_byte (eligible : isEligible text = true) :
    splitOn (byte '.') (text.map byte) = (Detection.splitOn '.' text).map (List.map byte) := by
  have dot := agree_char eligible (by decide : '.'.toNat < 128)
  induction text with
  | nil => rfl
  | cons ch text ih =>
      have tail := ih (isEligible_sublist eligible (List.subset_cons_self ch text))
        fun other member => dot other (by simp [member])
      have head : (byte ch == byte '.') = (ch == '.') := dot ch (by simp)
      rw [List.map_cons, splitOn, Detection.splitOn, head, tail]
      cases ch == '.' with
      | true => rfl
      | false => cases Detection.splitOn '.' text <;> rfl

theorem parseOctet_toNat {part : List Char} (digits : part.all Char.isDigit = true)
    {start : UInt32} (fits : (start.toNat + 1) * 10 ^ part.length ≤ 2 ^ 32) :
    ((part.map byte).foldl (fun value b => value * 10 + (b - byte '0').toUInt32) start).toNat =
      part.foldl (fun value ch => 10 * value + Ascii.digitOf ch) start.toNat := by
  induction part generalizing start with
  | nil => rfl
  | cons ch part ih =>
      rw [List.all_cons, Bool.and_eq_true] at digits
      have small := digitOf_lt digits.1
      have wide : (start.toNat + 1) * 10 * 10 ^ part.length ≤ 2 ^ 32 := by
        rw [List.length_cons, Nat.pow_succ'] at fits
        rwa [Nat.mul_assoc]
      have room : (start.toNat + 1) * 10 ≤ 2 ^ 32 :=
        Nat.le_trans (Nat.le_mul_of_pos_right _ (Nat.pos_of_ne_zero (by positivity))) wide
      have next : (start * 10 + (byte ch - byte '0').toUInt32).toNat =
          10 * start.toNat + Ascii.digitOf ch := by
        rw [digitValue_byte digits.1, UInt32.toNat_add, UInt32.toNat_mul, UInt32.toNat_ofNat',
          show (10 : UInt32).toNat = 10 from rfl]
        omega
      have later : ((start * 10 + (byte ch - byte '0').toUInt32).toNat + 1) * 10 ^ part.length ≤
          2 ^ 32 := by
        rw [next]
        exact Nat.le_trans (Nat.mul_le_mul_right _ (by omega)) wide
      rw [List.map_cons, List.foldl_cons, List.foldl_cons, ih digits.2 later, next]

theorem octet_eq {part : List Char} (eligible : isEligible part = true) :
    (if (part.map byte).isEmpty || 3 < (part.map byte).length || !(part.map byte).all isAsciiDigit
      then false else !(parseOctet (part.map byte) > 255)) =
        (Ascii.allDigits part && decide (part.length ≤ 3) && decide (Ascii.intOf part ≤ 255)) := by
  rw [(agree_isDigit eligible).alls, List.length_map, List.isEmpty_map, Ascii.allDigits]
  cases digits : part.all Char.isDigit with
  | false => simp
  | true =>
      by_cases short : part.length ≤ 3
      · have fits : ((0 : UInt32).toNat + 1) * 10 ^ part.length ≤ 2 ^ 32 :=
          Nat.le_trans (Nat.mul_le_mul_left 1 (Nat.pow_le_pow_right (by decide) short)) (by decide)
        have value : (parseOctet (part.map byte)).toNat = Ascii.intOf part :=
          parseOctet_toNat digits fits
        have above : parseOctet (part.map byte) > 255 ↔ ¬ Ascii.intOf part ≤ 255 := by
          rw [← value, gt_iff_lt, UInt32.lt_iff_toNat_lt, Nat.not_le]
          rfl
        have brief : ¬ 3 < part.length := by omega
        cases part.isEmpty <;> by_cases low : Ascii.intOf part ≤ 255 <;> simp [above, low, short, brief]
      · have brief : 3 < part.length := by omega
        simp [short, brief]

theorem ipv4Valid_eq (eligible : isEligible value = true) :
    ipv4Valid value = Ascii.ipv4Valid value := by
  rw [ipv4Valid, asBytes_eligible eligible, splitOn_byte eligible, Ascii.ipv4Valid]
  have parts : ∀ part ∈ Detection.splitOn '.' value, isEligible part = true :=
    fun part member => isEligible_sublist eligible (Ascii.splitOn_subset member)
  simp only [List.length_map]
  have each : ((Detection.splitOn '.' value).map (List.map byte)).all (fun pb =>
      if pb.isEmpty || 3 < pb.length || !pb.all isAsciiDigit then false
      else !(parseOctet pb > 255)) =
        (Detection.splitOn '.' value).all fun part =>
          Ascii.allDigits part && part.length ≤ 3 && Ascii.intOf part ≤ 255 := by
    generalize Detection.splitOn '.' value = split at parts
    induction split with
    | nil => rfl
    | cons part split ih =>
        rw [List.map_cons, List.all_cons, List.all_cons, octet_eq (parts part (by simp)),
          ih fun other member => parts other (by simp [member])]
  rw [each]
  cases four : (Detection.splitOn '.' value).length == 4 <;> simp [bne, four]

end Ipv4

section Iban

theorem raise_filter (eligible : isEligible text = true) {keep : Char → Bool}
    (same : ∀ ch ∈ text, keep ch.toUpper = keep ch) :
    ((text.filter keep).map byte).map toAsciiUppercase = ((upper text).filter keep).map byte := by
  have raised : ∀ ch ∈ text, toAsciiUppercase (byte ch) = byte ch.toUpper :=
    fun ch member => (byteAscii (ascii_of_eligible eligible ch member)).2.1.1
  have kept : text.filter (keep ∘ Char.toUpper) = text.filter keep := List.filter_congr same
  rw [upper, List.filter_map, kept, List.map_map, List.map_map]
  exact List.map_congr_left fun ch member => raised ch (List.mem_of_mem_filter member)

theorem cleaned_eq (eligible : isEligible value = true) :
    ((asBytes value).filter fun b => !isStripWs b).map toAsciiUppercase =
      ((upper value).filter fun ch => !isSpace ch).map byte := by
  have spaces : (asBytes value).filter (fun b => !isStripWs b) =
      (value.filter fun ch => !isSpace ch).map byte := by
    rw [asBytes_eligible eligible]
    exact (agree_space eligible).not.filters
  rw [spaces]
  apply raise_filter eligible
  exact fun ch member => (byteAscii (ascii_of_eligible eligible ch member)).2.2.1.1

theorem raised_upper (eligible : isEligible value = true) : ∀ ch ∈ upper value, Raised ch := by
  intro ch member
  obtain ⟨original, inValue, same⟩ := List.mem_map.mp member
  subst same
  exact (byteAscii (ascii_of_eligible eligible original inValue)).2.1.2

theorem remainder_step {rem d : UInt32} {value : Nat} (same : rem.toNat = value % 97)
    (small : d.toNat < 10) : ((rem * 10 + d) % 97).toNat = (10 * value + d.toNat) % 97 := by
  have product : value % 97 * 10 % 2 ^ 32 = value % 97 * 10 := Nat.mod_eq_of_lt (by omega)
  have total : (value % 97 * 10 + d.toNat) % 2 ^ 32 = value % 97 * 10 + d.toNat :=
    Nat.mod_eq_of_lt (by omega)
  rw [UInt32.toNat_mod, UInt32.toNat_add, UInt32.toNat_mul, same,
    show (10 : UInt32).toNat = 10 from rfl, show (97 : UInt32).toNat = 97 from rfl, product, total]
  omega

theorem raised_uppercase {ch : Char} (raised : Raised ch) :
    isAsciiUppercase (byte ch) = ch.isAlpha := (raisedAscii raised).1

theorem letterDigits_byte {ch : Char} (raised : Raised ch) (letter : ch.isAlpha = true) :
    (((byte ch - byte 'A').toUInt32 + 10) / 10).toNat =
        Ascii.digitOf (digitChar ((ch.toNat - 55) / 10)) ∧
      (((byte ch - byte 'A').toUInt32 + 10) % 10).toNat =
        Ascii.digitOf (digitChar ((ch.toNat - 55) % 10)) ∧
      Ascii.digitOf (digitChar ((ch.toNat - 55) / 10)) < 10 ∧
      Ascii.digitOf (digitChar ((ch.toNat - 55) % 10)) < 10 := (raisedAscii raised).2.2.2 letter

def readDigits (value : Nat) (digits : List Char) : Nat :=
  digits.foldl (fun value ch => 10 * value + Ascii.digitOf ch) value

theorem ibanStep_eq {ch : Char} (raised : Raised ch) {rem : UInt32} {value : Nat}
    (same : rem.toNat = value % 97) :
    (ibanStep rem (byte ch)).map UInt32.toNat =
      (Ascii.ibanDigits ch).map fun digits => readDigits value digits % 97 := by
  have digitCase : isAsciiDigit (byte ch) = ch.isDigit := (byteAscii raised.1).1.1
  rw [ibanStep, Ascii.ibanDigits, digitCase]
  cases digit : ch.isDigit with
  | true =>
      have known := digitValue_byte digit
      have small : ((byte ch - byte '0').toUInt32).toNat = Ascii.digitOf ch :=
        (luhnDigit_byte digit false).1
      have step := remainder_step same (d := (byte ch - byte '0').toUInt32)
        (by rw [small]; exact digitOf_lt digit)
      simp only [if_true, Option.map_some, step, small]
      rfl
  | false =>
      rw [raised_uppercase raised]
      cases letter : ch.isAlpha with
      | false => rfl
      | true =>
          obtain ⟨tens, units, tensSmall, unitsSmall⟩ := letterDigits_byte raised letter
          have first := remainder_step same (d := ((byte ch - byte 'A').toUInt32 + 10) / 10)
            (by rw [tens]; exact tensSmall)
          have second := remainder_step first (d := ((byte ch - byte 'A').toUInt32 + 10) % 10)
            (by rw [units]; exact unitsSmall)
          simp only [Bool.false_eq_true, if_false, if_true, Option.map_some, second, tens, units]
          rfl

theorem foldlM_ibanStep {chars : List Char} (raised : ∀ ch ∈ chars, Raised ch) {rem : UInt32}
    {value : Nat} (same : rem.toNat = value % 97) :
    ((chars.map byte).foldlM ibanStep rem).map UInt32.toNat =
      (chars.mapM Ascii.ibanDigits).map fun digits => readDigits value digits.flatten % 97 := by
  induction chars generalizing rem value with
  | nil => simp [readDigits, same]
  | cons ch chars ih =>
      have here := ibanStep_eq (raised ch (by simp)) same
      rw [List.map_cons, List.foldlM_cons, List.mapM_cons]
      cases found : Ascii.ibanDigits ch with
      | none =>
          rw [found, Option.map_none, Option.map_eq_none_iff] at here
          rw [here]
          rfl
      | some digits =>
          rw [found, Option.map_some, Option.map_eq_some_iff] at here
          obtain ⟨next, step, remains⟩ := here
          have rest := ih (fun other member => raised other (by simp [member])) remains
          rw [step]
          simp only [Option.bind_eq_bind, Option.bind_some, rest]
          cases chars.mapM Ascii.ibanDigits with
          | none => rfl
          | some others =>
              simp [readDigits, List.foldl_append]

theorem countries_ascii : countries.map bytes =
    ibanCountries.map (fun country => [byte country.1, byte country.2]) ∧
      ∀ country ∈ ibanCountries, country.1.toNat < 128 ∧ country.2.toNat < 128 := by decide +kernel

theorem ibanCountry_eq {c0 c1 : Char} (first : c0.toNat < 128) (second : c1.toNat < 128) :
    ibanCountry (byte c0) (byte c1) =
      ibanCountries.any fun country => [c0, c1] == [country.1, country.2] := by
  have spelled : ibanCountry (byte c0) (byte c1) =
      (countries.map bytes).any fun cc => cc == [byte c0, byte c1] := by
    rw [List.any_map]
    rfl
  obtain ⟨countriesEq, ascii⟩ := countries_ascii
  rw [spelled, countriesEq, List.any_map]
  generalize ibanCountries = known at ascii
  induction known with
  | nil => rfl
  | cons country others ih =>
      have small := ascii country (by simp)
      rw [List.any_cons, List.any_cons, ih fun other member => ascii other (by simp [member])]
      congr 1
      have left := byte_beq first small.1
      have right := byte_beq second small.2
      rw [Bool.eq_iff_iff, beq_iff_eq, beq_iff_eq] at left right
      rw [Bool.eq_iff_iff]
      simp only [Function.comp_apply, beq_iff_eq, List.cons.injEq, and_true]
      rw [eq_comm (a := byte country.1), eq_comm (a := byte country.2), left, right]

theorem ibanRemainder_eq {chars : List Char} (raised : ∀ ch ∈ chars, Raised ch) :
    ((chars.map byte).foldlM ibanStep 0).any (· == 1) =
      (chars.mapM Ascii.ibanDigits).any fun digits => Ascii.intOf digits.flatten % 97 == 1 := by
  have start : (0 : UInt32).toNat = 0 % 97 := rfl
  have run := foldlM_ibanStep raised start
  cases native : (chars.map byte).foldlM ibanStep 0 with
  | none =>
      cases python : chars.mapM Ascii.ibanDigits with
      | none => rfl
      | some digits => simp [native, python] at run
  | some rem =>
      cases python : chars.mapM Ascii.ibanDigits with
      | none => simp [native, python] at run
      | some digits =>
          have value : rem.toNat = Ascii.intOf digits.flatten % 97 := by
            simpa [native, python, readDigits, Ascii.intOf] using run
          simp only [Option.any_some, ← value]
          rw [Bool.eq_iff_iff, beq_iff_eq, beq_iff_eq, ← UInt32.toNat_inj]
          rfl

theorem ibanValid_eq (eligible : isEligible value = true) :
    ibanValid value = Ascii.ibanValid value := by
  rw [ibanValid, cleaned_eq eligible, Ascii.ibanValid]
  have raised : ∀ ch ∈ (upper value).filter (fun ch => !isSpace ch), Raised ch :=
    fun ch member => raised_upper eligible ch (List.mem_of_mem_filter member)
  generalize (upper value).filter (fun ch => !isSpace ch) = iban at raised
  rw [List.length_map]
  by_cases sized : 15 ≤ iban.length ∧ iban.length ≤ 34
  · have outside : ¬ iban.length < 15 := Nat.not_lt.mpr sized.1
    have above : ¬ 34 < iban.length := Nat.not_lt.mpr sized.2
    simp only [sized, outside, above, decide_true, decide_false, Bool.and_true, Bool.or_false,
      Bool.not_true, Bool.false_eq_true, if_false]
    rcases iban with _ | ⟨c0, _ | ⟨c1, _ | ⟨c2, _ | ⟨c3, rest⟩⟩⟩⟩
    · simp at sized
    · simp at sized
    · simp at sized
    · simp at sized
    · have small : ∀ ch ∈ [c0, c1, c2, c3], ch.toNat < 128 :=
        fun ch member => (raised ch (List.subset_append_left [c0, c1, c2, c3] rest member)).1
      have letters : ∀ ch ∈ [c0, c1, c2, c3], isAsciiAlphabetic (byte ch) = ch.isAlpha ∧
          isAsciiDigit (byte ch) = ch.isDigit :=
        fun ch member => ⟨(byteAscii (small ch member)).1.2, (byteAscii (small ch member)).1.1⟩
      have turned : ∀ ch ∈ rest ++ [c0, c1, c2, c3], Raised ch := by
        intro ch member
        exact raised ch ((List.perm_append_comm.mem_iff).mp member)
      have remainder := ibanRemainder_eq turned
      rw [List.map_append] at remainder
      simp only [List.map_cons, List.map_nil] at remainder
      simp only [List.map_cons, (letters c0 (by simp)).1, (letters c1 (by simp)).1,
        (letters c2 (by simp)).2, (letters c3 (by simp)).2,
        ibanCountry_eq (small c0 (by simp)) (small c1 (by simp)), remainder, Ascii.allLetters,
        Ascii.allDigits, List.take_succ_cons, List.take_zero, List.drop_succ_cons, List.drop_zero,
        List.isEmpty_cons, List.all_cons, List.all_nil, Bool.not_false, Bool.true_and,
        Bool.and_true, Bool.and_assoc]
  · have refused : (iban.length < 15 || 34 < iban.length) = true := by
      rw [Bool.or_eq_true, decide_eq_true_eq, decide_eq_true_eq]
      omega
    have native : (!(decide (15 ≤ iban.length) && decide (iban.length ≤ 34))) = true := by
      rw [Bool.not_eq_true', Bool.and_eq_false_iff, decide_eq_false_iff_not,
        decide_eq_false_iff_not]
      omega
    rw [if_pos refused, if_pos native]

end Iban

section Icd10

theorem dropWhile_byte (agree : Agree text test accepts) :
    (text.map byte).dropWhile test = (text.dropWhile accepts).map byte := by
  induction text with
  | nil => rfl
  | cons ch text ih =>
      have head := agree ch (by simp)
      rw [List.map_cons, List.dropWhile_cons, List.dropWhile_cons, head]
      cases accepts ch with
      | true => exact ih fun other member => agree other (by simp [member])
      | false => rfl

theorem trim_byte (eligible : isEligible value = true) :
    trim (value.map byte) = (strip value).map byte := by
  have agree := agree_space eligible
  have later : Agree (value.dropWhile isSpace).reverse isAsciiSpace isSpace :=
    fun ch member => agree ch ((List.dropWhile_sublist isSpace).subset (List.mem_reverse.mp member))
  have first : (value.map byte).dropWhile isStripWs = (value.dropWhile isSpace).map byte :=
    dropWhile_byte agree
  have second : ((value.dropWhile isSpace).reverse.map byte).dropWhile isStripWs =
      ((value.dropWhile isSpace).reverse.dropWhile isSpace).map byte := dropWhile_byte later
  rw [trim, strip, first, ← List.map_reverse, second, List.map_reverse]

theorem icd10ChapterRange_eq {ch : Char} (raised : Raised ch) :
    icd10ChapterRange (byte ch) = (icd10Chapters.lookup ch).map fun range =>
      (UInt32.ofNat range.1, UInt32.ofNat range.2) := (raisedAscii raised).2.1

theorem icd10Chapters_small {ch : Char} (raised : Raised ch) :
    (icd10Chapters.lookup ch).all (fun range => range.1 < 100 && range.2 < 100) = true :=
  (raisedAscii raised).2.2.1

theorem category_eq {tens units : Char} (first : tens.isDigit = true)
    (second : units.isDigit = true) :
    (byte tens - byte '0').toUInt32 * 10 + (byte units - byte '0').toUInt32 =
        UInt32.ofNat (Ascii.intOf [tens, units]) ∧ Ascii.intOf [tens, units] < 100 := by
  have high := digitOf_lt first
  have low := digitOf_lt second
  have total : Ascii.intOf [tens, units] = Ascii.digitOf tens * 10 + Ascii.digitOf units := by
    simp only [Ascii.intOf, List.foldl_cons, List.foldl_nil]
    omega
  rw [digitValue_byte first, digitValue_byte second, total]
  refine ⟨?_, by omega⟩
  rw [UInt32.ofNat_add, UInt32.ofNat_mul]
  rfl

theorem code_eq (eligible : isEligible value = true) :
    ((trim (asBytes value)).filter (· != byte '.')).map toAsciiUppercase =
      ((upper (strip value)).filter (· != '.')).map byte := by
  have stripped := isEligible_sublist eligible (Ascii.strip_subset value)
  have dots : ((strip value).map byte).filter (· != byte '.') =
      ((strip value).filter (· != '.')).map byte :=
    (agree_char stripped (by decide : '.'.toNat < 128)).not.filters
  rw [asBytes_eligible eligible, trim_byte eligible, dots]
  apply raise_filter stripped
  exact fun ch member => (byteAscii (ascii_of_eligible stripped ch member)).2.2.1.2

theorem icd10Valid_eq (eligible : isEligible value = true) :
    icd10Valid value = Ascii.icd10Valid value := by
  have stripped := isEligible_sublist eligible (Ascii.strip_subset value)
  rw [icd10Valid, code_eq eligible, Ascii.icd10Valid]
  have raised : ∀ ch ∈ (upper (strip value)).filter (· != '.'), Raised ch :=
    fun ch member => raised_upper stripped ch (List.mem_of_mem_filter member)
  generalize (upper (strip value)).filter (· != '.') = code at raised
  rcases code with _ | ⟨chapter, _ | ⟨tens, _ | ⟨units, rest⟩⟩⟩
  · rfl
  · rfl
  · rfl
  · have letters : ∀ ch ∈ [chapter, tens, units], isAsciiAlphabetic (byte ch) = ch.isAlpha ∧
        isAsciiDigit (byte ch) = ch.isDigit := by
      intro ch member
      have small := (raised ch (List.subset_append_left [chapter, tens, units] rest member)).1
      exact ⟨(byteAscii small).1.2, (byteAscii small).1.1⟩
    simp only [List.map_cons, List.length_map, (letters chapter (by simp)).1,
      (letters tens (by simp)).2, (letters units (by simp)).2,
      icd10ChapterRange_eq (raised chapter (by simp))]
    have small := icd10Chapters_small (raised chapter (by simp))
    cases short : decide (rest.length ≤ 4) <;> cases chapter.isAlpha <;>
      cases first : tens.isDigit <;> cases second : units.isDigit <;> try rfl
    obtain ⟨value, bound⟩ := category_eq first second
    cases known : icd10Chapters.lookup chapter with
    | none => rfl
    | some range =>
        rw [known, Option.all_some, Bool.and_eq_true, decide_eq_true_eq, decide_eq_true_eq]
          at small
        simp only [value, ge_iff_le, UInt32.le_iff_toNat_le, Option.map_some, toNat_small bound,
          toNat_small small.1, toNat_small small.2]
        rfl

end Icd10

end DecoyEngine.Detection.Native
