import DecoyEngine.Data.Aes
import DecoyEngine.Data.Feistel
import DecoyEngine.Transforms.Ff1
import Mathlib.Data.Int.ModEq

namespace DecoyEngine.Transforms

open DecoyEngine.Data

/-! Numeral strings -/

theorem numRadix_eq_ofDigits (numerals : List Nat) (radix : Nat) :
    numRadix numerals radix = Nat.ofDigits radix numerals.reverse :=
  foldl_digits radix numerals

theorem numRadix_lt {numerals : List Nat} {radix : Nat} (positive : 0 < radix)
    (bounded : ∀ digit ∈ numerals, digit < radix) :
    numRadix numerals radix < radix ^ numerals.length := by
  have reversed : ∀ digit ∈ numerals.reverse, digit < radix := by simpa using bounded
  rw [numRadix_eq_ofDigits]
  simpa using ofDigits_lt_pow positive reversed

theorem strMRadixLoop_eq (radix m x : Nat) (digits : List Nat) :
    strMRadixLoop radix m x digits =
      (x / radix ^ m, (fixedDigits radix m x).reverse ++ digits) := by
  induction m generalizing x digits with
  | zero => simp [strMRadixLoop, fixedDigits]
  | succ m ih =>
      rw [strMRadixLoop, ih, Nat.div_div_eq_div_mul, ← Nat.pow_succ']
      simp [fixedDigits]

/-- The rendering `_str_m_radix` produces when its value fits. -/
def strNumerals (x m radix : Nat) : List Nat :=
  (fixedDigits radix m x).reverse

theorem strMRadix_of_lt {x m radix : Nat} (fits : x < radix ^ m) :
    strMRadix x m radix = .ok (strNumerals x m radix) := by
  simp [strMRadix, strMRadixLoop_eq, strNumerals, Nat.div_eq_of_lt fits]

theorem numRadix_strNumerals {x m radix : Nat} (fits : x < radix ^ m) :
    numRadix (strNumerals x m radix) radix = x := by
  rw [numRadix_eq_ofDigits, strNumerals, List.reverse_reverse, ofDigits_fixedDigits_of_lt fits]

theorem strNumerals_numRadix {numerals : List Nat} {radix : Nat}
    (bounded : ∀ digit ∈ numerals, digit < radix) :
    strNumerals (numRadix numerals radix) numerals.length radix = numerals := by
  have reversed : ∀ digit ∈ numerals.reverse, digit < radix := by simpa using bounded
  have recovered := fixedDigits_ofDigits reversed
  rw [List.length_reverse] at recovered
  rw [numRadix_eq_ofDigits, strNumerals, recovered, List.reverse_reverse]

theorem unmix_residue {a y modulus : Nat} (small : a < modulus) :
    ((((a + y) % modulus : Nat) : Int) - y) % (modulus : Nat) = a := by
  rw [Int.natCast_emod, Int.emod_sub_emod]
  have cancelled : ((a + y : Nat) : Int) - y = a := by omega
  rw [cancelled]
  exact Int.emod_eq_of_lt (by omega) (by omega)

theorem mix_residue {b y modulus : Nat} (small : b < modulus) :
    ((((b : Int) - y) % (modulus : Nat)).toNat + y) % modulus = b := by
  have nonnegative := Int.emod_nonneg ((b : Int) - y) (b := (modulus : Nat)) (by omega)
  have lifted : ((((((b : Int) - y) % (modulus : Nat)).toNat + y) % modulus : Nat) : Int) = b := by
    rw [Int.natCast_emod, Int.natCast_add, Int.toNat_of_nonneg nonnegative, Int.emod_add_emod]
    have cancelled : (b : Int) - y + y = b := by omega
    rw [cancelled]
    exact Int.emod_eq_of_lt (by omega) (by omega)
  exact_mod_cast lifted

theorem unmix_residue_lt {b y modulus : Nat} (positive : 0 < modulus) :
    (((b : Int) - y) % (modulus : Nat)).toNat < modulus := by
  have nonnegative := Int.emod_nonneg ((b : Int) - y) (b := (modulus : Nat)) (by omega)
  have bounded := Int.emod_lt_of_pos ((b : Int) - y) (b := (modulus : Nat)) (by omega)
  omega

/-- FF1's alternating modular addition on numeral halves of widths `u` and `v`. -/
def ff1Network (radix u v : Nat) (positive : 0 < radix) : Feistel (List Nat) Nat where
  Half round half :=
    half.length = (if round % 2 = 0 then u else v) ∧ ∀ digit ∈ half, digit < radix
  mix round half y :=
    let m := if round % 2 = 0 then u else v
    strNumerals ((numRadix half radix + y) % radix ^ m) m radix
  unmix round half y :=
    let m := if round % 2 = 0 then u else v
    strNumerals (((numRadix half radix : Int) - y) % (radix ^ m : Nat)).toNat m radix
  alternates := by
    intro round half
    have parity : (round + 2) % 2 = round % 2 := by omega
    rw [parity]
  mix_half := by
    intro round half y valid
    refine ⟨by simp [strNumerals], fun digit member => ?_⟩
    exact fixedDigits_lt positive _ _ digit (List.mem_reverse.mp member)
  unmix_half := by
    intro round half y valid
    refine ⟨by simp [strNumerals], fun digit member => ?_⟩
    exact fixedDigits_lt positive _ _ digit (List.mem_reverse.mp member)
  unmix_mix := by
    intro round half y valid
    obtain ⟨width, bounded⟩ := valid
    have value := numRadix_lt positive bounded
    simp only [← width]
    rw [numRadix_strNumerals (Nat.mod_lt _ (Nat.pow_pos positive)), unmix_residue value,
      Int.toNat_natCast, strNumerals_numRadix bounded]
  mix_unmix := by
    intro round half y valid
    obtain ⟨width, bounded⟩ := valid
    have value := numRadix_lt positive bounded
    simp only [← width]
    rw [numRadix_strNumerals (unmix_residue_lt (Nat.pow_pos positive)), mix_residue value,
      strNumerals_numRadix bounded]

theorem intToBytes_of_lt {value length : Nat} (fits : value < 256 ^ length) :
    ∃ bytes, intToBytes value length = .ok bytes ∧ bytes.length = length := by
  obtain ⟨bytes, converted, width⟩ := toBytesBig_of_lt fits
  exact ⟨bytes, by simp only [intToBytes, converted], width⟩

theorem cbcEncrypt_length (cipher : BlockCipher) (key : List UInt8) {blocks : Nat}
    {chain data : List UInt8} (chained : chain.length = 16) (width : data.length = blocks * 16) :
    (cbcEncrypt cipher key blocks chain data).length = blocks * 16 := by
  induction blocks generalizing chain data with
  | zero => rfl
  | succ blocks ih =>
      have masked : (xorBytes chain (data.take 16)).length = 16 := by
        simp only [xorBytes, List.length_zipWith, List.length_take, chained, width]
        omega
      have block := cipher.length_encryptBlock key _ masked
      have remaining : (data.drop 16).length = blocks * 16 := by
        rw [List.length_drop, width]
        omega
      have rest := ih block remaining
      simp only [cbcEncrypt, List.length_append, block, rest]
      omega

theorem prf_of_aligned (cipher : BlockCipher) (key : List UInt8) {data : List UInt8}
    (aligned : data.length % 16 = 0) (nonempty : 0 < data.length) :
    ∃ r, prf cipher key data = .ok r ∧ r.length = 16 := by
  have width : data.length = data.length / 16 * 16 := by omega
  have zeroIv : (List.replicate 16 (0 : UInt8)).length = 16 := by simp
  have total := cbcEncrypt_length cipher key zeroIv width
  refine ⟨_, if_neg (by simpa using aligned), ?_⟩
  rw [List.length_drop, total]
  omega

theorem xor_lt_block {r : List UInt8} (width : r.length = 16) {j : Nat} (small : j < 2 ^ 128) :
    fromBytesBig r ^^^ j < 256 ^ 16 := by
  have left : fromBytesBig r < 2 ^ 128 := by
    simpa [width] using fromBytesBig_lt r
  simpa using Nat.xor_lt_two_pow left small

theorem sBlockLoop_ok (cipher : BlockCipher) (key : List UInt8) {r : List UInt8}
    (width : r.length = 16) {d fuel j : Nat} {s : List UInt8} (counter : j + fuel < 2 ^ 128)
    (enough : d ≤ s.length + fuel) :
    ∃ filled, sBlockLoop cipher key r d fuel s j = .ok filled ∧ d ≤ filled.length := by
  induction fuel generalizing s j with
  | zero => exact ⟨s, rfl, by simpa using enough⟩
  | succ fuel ih =>
      by_cases short : s.length < d
      · obtain ⟨block, converted, blockWidth⟩ :=
          intToBytes_of_lt (xor_lt_block width (j := j) (by omega))
        have appended := cipher.length_encryptBlock key block blockWidth
        obtain ⟨filled, run, reached⟩ := ih (s := s ++ ciph cipher key block) (j := j + 1)
          (by omega) (by simp only [ciph, List.length_append, appended]; omega)
        exact ⟨filled, by simp only [sBlockLoop, short, if_true, converted, run], reached⟩
      · exact ⟨s, by simp only [sBlockLoop, short, if_false], by omega⟩

theorem sBlock_ok (cipher : BlockCipher) (key : List UInt8) {r : List UInt8}
    (width : r.length = 16) {d : Nat} (small : d + 1 < 2 ^ 128) :
    ∃ s, sBlock cipher key r d = .ok s := by
  have counter : 1 + d < 2 ^ 128 := by omega
  have enough : d ≤ r.length + d := by omega
  obtain ⟨filled, run, _⟩ := sBlockLoop_ok cipher key width counter enough
  exact ⟨filled.take d, by simp only [sBlock, run]⟩

theorem lt_pow_bitLength (value : Nat) : value < 2 ^ bitLength value := by
  unfold bitLength
  split
  · simp [*]
  · exact Nat.lt_log2_self

theorem pow_le_byteLen (radix length : Nat) (positive : 0 < radix) :
    radix ^ length ≤ 256 ^ byteLenForRadixPower radix length := by
  have power : 0 < radix ^ length := Nat.pow_pos positive
  have bits : radix ^ length - 1 < 2 ^ bitLength (radix ^ length - 1) := lt_pow_bitLength _
  have exact : (if 0 < radix ^ length - 1 then bitLength (radix ^ length - 1) else 0) =
      bitLength (radix ^ length - 1) := by
    split
    · rfl
    · have zero : radix ^ length - 1 = 0 := by omega
      simp [zero, bitLength]
  have bytes : 256 ^ byteLenForRadixPower radix length =
      2 ^ (8 * byteLenForRadixPower radix length) := by
    rw [show (256 : Nat) = 2 ^ 8 from rfl, ← Nat.pow_mul]
  have covers : bitLength (radix ^ length - 1) ≤ 8 * byteLenForRadixPower radix length := by
    simp only [byteLenForRadixPower, exact]
    omega
  have widened := Nat.pow_le_pow_right (n := 2) (by decide) covers
  omega

theorem bitLength_le {value bits : Nat} (fits : value < 2 ^ bits) : bitLength value ≤ bits := by
  unfold bitLength
  split
  · omega
  · rename_i nonzero
    exact (Nat.log2_lt nonzero).mpr fits

theorem byteLen_le {radix length : Nat} (upper : radix ≤ 2 ^ 16) :
    byteLenForRadixPower radix length ≤ 2 * length := by
  have power : radix ^ length ≤ 2 ^ (16 * length) := by
    rw [Nat.pow_mul]
    exact Nat.pow_le_pow_left upper length
  have positive : 0 < 2 ^ (16 * length) := Nat.two_pow_pos _
  have bits := bitLength_le (show radix ^ length - 1 < 2 ^ (16 * length) by omega)
  simp only [byteLenForRadixPower]
  split <;> omega

/-- What the checks and the once-per-call values guarantee to every round. -/
structure RoundContext.WellFormed (context : RoundContext) : Prop where
  positive : 0 < context.radix
  halves : context.u ≤ context.v
  holds : context.radix ^ context.v ≤ 256 ^ context.byteLen
  counter : context.d + 1 < 2 ^ 128
  aligned : (context.p.length + (context.tweak.length + context.zeroPad.length + 1 +
    context.byteLen)) % 16 = 0

theorem buildP_ok {radix u n tweakLen : Nat} (radixUpper : radix ≤ 2 ^ 16)
    (lengthUpper : n < 2 ^ 32) (tweakUpper : tweakLen < 2 ^ 32) :
    ∃ p, buildP radix u n tweakLen = .ok p ∧ p.length = 16 := by
  obtain ⟨radixBytes, radixOk, radixWidth⟩ := intToBytes_of_lt (show radix < 256 ^ 3 by omega)
  obtain ⟨nBytes, nOk, nWidth⟩ := intToBytes_of_lt (show n < 256 ^ 4 by omega)
  obtain ⟨tweakBytes, tweakOk, tweakWidth⟩ := intToBytes_of_lt (show tweakLen < 256 ^ 4 by omega)
  refine ⟨_, (by simp only [buildP, radixOk, nOk, tweakOk, bind, Except.bind]; rfl), ?_⟩
  simp [radixWidth, nWidth, tweakWidth]

/-- An FF1 input that `_validate_common` accepts and whose length fits the P block. -/
structure Admissible (key tweak : List UInt8) (radix : Nat) (numerals : List Nat) : Prop where
  keySize : key.length ∈ [16, 24, 32]
  radixLower : 2 ≤ radix
  radixUpper : radix ≤ 2 ^ 16
  lengthLower : 2 ≤ numerals.length
  lengthUpper : numerals.length < 2 ^ 32
  digits : ∀ digit ∈ numerals, digit < radix
  tweakUpper : tweak.length < 2 ^ 32

theorem validateCommon_ok {key tweak : List UInt8} {radix : Nat} {numerals : List Nat}
    (admissible : Admissible key tweak radix numerals) :
    validateCommon key tweak radix numerals = .ok (numerals.length, tweak.length) := by
  have inRange : ¬ numerals.any (fun digit => !decide (digit < radix)) = true := by
    simpa using admissible.digits
  have keySize : ¬ key.length ∉ [16, 24, 32] := not_not.mpr admissible.keySize
  have radixLower := admissible.radixLower
  have radixUpper := admissible.radixUpper
  have lengthLower := admissible.lengthLower
  have tweakUpper := admissible.tweakUpper
  rw [validateCommon, if_neg keySize, if_neg (by omega), if_neg (by unfold ff1StandardMaxRadix; omega),
    if_neg (by omega), if_neg inRange, if_neg (by omega)]

theorem roundContext_ok {key tweak : List UInt8} {radix : Nat} {numerals : List Nat}
    (admissible : Admissible key tweak radix numerals) :
    ∃ context, roundContext key tweak radix numerals = .ok context ∧ context.WellFormed ∧
      context.radix = radix ∧ context.u = numerals.length / 2 ∧
      context.v = numerals.length - numerals.length / 2 := by
  have positive : 0 < radix := by have := admissible.radixLower; omega
  have lengthUpper := admissible.lengthUpper
  obtain ⟨p, built, width⟩ := buildP_ok admissible.radixUpper (u := numerals.length / 2)
    lengthUpper admissible.tweakUpper
  have small : byteLenForRadixPower radix (numerals.length - numerals.length / 2) ≤
      2 * (numerals.length - numerals.length / 2) := byteLen_le admissible.radixUpper
  have run := roundContext.eq_def key tweak radix numerals
  simp only [validateCommon_ok admissible, built, bind, Except.bind] at run
  refine ⟨_, run, ?_, rfl, rfl, rfl⟩
  constructor
  case positive => exact positive
  case halves => dsimp only; omega
  case holds => exact pow_le_byteLen _ _ positive
  case counter => dsimp only; omega
  case aligned =>
    simp only [width, List.length_replicate]
    omega

section Rounds

variable (cipher : BlockCipher) {context : RoundContext} (wellFormed : context.WellFormed)

/-- The network whose rounds `encrypt` and `decrypt` run. -/
abbrev RoundContext.WellFormed.network : Feistel (List Nat) Nat :=
  ff1Network context.radix context.u context.v wellFormed.positive

/-- The value of a round, with an irrelevant default where the source raises. -/
def RoundContext.pad (context : RoundContext) (i : Nat) (kept : List Nat) : Nat :=
  match context.roundValue cipher i kept with
  | .ok y => y
  | .error _ => 0

include wellFormed in
theorem roundValue_ok (i : Nat) {kept : List Nat} {round : Nat}
    (valid : wellFormed.network.Half round kept) :
    context.roundValue cipher i kept = .ok (context.pad cipher i kept) := by
  obtain ⟨width, bounded⟩ := valid
  have value : numRadix kept context.radix < 256 ^ context.byteLen := by
    have short : kept.length ≤ context.v := by
      have halves := wellFormed.halves
      rw [width]
      split <;> omega
    calc numRadix kept context.radix
        < context.radix ^ kept.length := numRadix_lt wellFormed.positive bounded
      _ ≤ context.radix ^ context.v := Nat.pow_le_pow_right wellFormed.positive short
      _ ≤ 256 ^ context.byteLen := wellFormed.holds
  obtain ⟨keptBytes, converted, keptWidth⟩ := intToBytes_of_lt value
  have total : (context.p ++ (context.tweak ++ context.zeroPad ++ [UInt8.ofNat i] ++
      keptBytes)).length = context.p.length + (context.tweak.length + context.zeroPad.length + 1 +
        context.byteLen) := by
    simp only [List.length_append, List.length_singleton, keptWidth]
  obtain ⟨r, mac, macWidth⟩ := prf_of_aligned cipher context.key
    (total.symm ▸ wellFormed.aligned) (by rw [total]; omega)
  obtain ⟨s, expanded⟩ := sBlock_ok cipher context.key macWidth wellFormed.counter
  have run : context.roundValue cipher i kept = .ok (fromBytesBig s) := by
    simp only [RoundContext.roundValue, converted, mac, expanded, bind, Except.bind]
  rw [RoundContext.pad, run]

theorem encryptRound_ok {i : Nat} {halves : List Nat × List Nat}
    (ready : wellFormed.network.Ready i halves) :
    context.encryptRound cipher i halves =
      .ok (wellFormed.network.forward (context.pad cipher) i halves) := by
  obtain ⟨a, b⟩ := halves
  have value := roundValue_ok cipher wellFormed i ready.2
  have fits : (numRadix a context.radix + context.pad cipher i b) %
      context.radix ^ context.halfWidth i < context.radix ^ context.halfWidth i :=
    Nat.mod_lt _ (Nat.pow_pos wellFormed.positive)
  simp only at value
  simp only [RoundContext.encryptRound, value, bind, Except.bind, strMRadix_of_lt fits]
  rfl

theorem decryptRound_ok {i : Nat} {halves : List Nat × List Nat}
    (ready : wellFormed.network.Ready (i + 1) halves) :
    context.decryptRound cipher i halves =
      .ok (wellFormed.network.backward (context.pad cipher) i halves) := by
  obtain ⟨a, b⟩ := halves
  have value := roundValue_ok cipher wellFormed i ready.1
  have fits : (((numRadix b context.radix : Int) - context.pad cipher i a) %
      (context.radix ^ context.halfWidth i : Nat)).toNat < context.radix ^ context.halfWidth i :=
    unmix_residue_lt (Nat.pow_pos wellFormed.positive)
  simp only at value
  simp only [RoundContext.decryptRound, value, bind, Except.bind, strMRadix_of_lt fits]
  rfl

theorem encryptRounds_ok {halves : List Nat × List Nat}
    (ready : wellFormed.network.Ready 0 halves) :
    (List.range ff1Rounds).foldlM (fun halves i => context.encryptRound cipher i halves) halves =
      .ok (wellFormed.network.forwardRounds (context.pad cipher) ff1Rounds halves) :=
  have total : ∀ round halves, wellFormed.network.Ready round halves →
      context.encryptRound cipher round halves =
          .ok (wellFormed.network.forward (context.pad cipher) round halves) ∧
        wellFormed.network.Ready (round + 1)
          (wellFormed.network.forward (context.pad cipher) round halves) :=
    fun _ _ ready => ⟨encryptRound_ok cipher wellFormed ready,
      Feistel.forward_ready (context.pad cipher) ready⟩
  (foldlM_range_ok (wellFormed.network.forwardRounds (context.pad cipher)) (fun _ => rfl) (fun _ _ => rfl) total ff1Rounds ready).1

theorem decryptRounds_ok {halves : List Nat × List Nat}
    (ready : wellFormed.network.Ready ff1Rounds halves) :
    (List.range ff1Rounds).reverse.foldlM
        (fun halves i => context.decryptRound cipher i halves) halves =
      .ok (wellFormed.network.backwardRounds (context.pad cipher) ff1Rounds halves) :=
  have total : ∀ round halves, wellFormed.network.Ready (round + 1) halves →
      context.decryptRound cipher round halves =
          .ok (wellFormed.network.backward (context.pad cipher) round halves) ∧
        wellFormed.network.Ready round
          (wellFormed.network.backward (context.pad cipher) round halves) :=
    fun _ _ ready => ⟨decryptRound_ok cipher wellFormed ready,
      Feistel.backward_ready (context.pad cipher) ready⟩
  (foldlM_range_reverse_ok (wellFormed.network.backwardRounds (context.pad cipher)) (fun _ => rfl) (fun _ _ => rfl) total ff1Rounds ready).1

end Rounds

section Permutation

variable {key tweak : List UInt8} {radix : Nat} {numerals : List Nat}

/-- The split of an accepted numeral string is a valid state before round 0, and,
since the round count is even, after the last round as well. -/
theorem split_ready {context : RoundContext} (wellFormed : context.WellFormed)
    (u : context.u = numerals.length / 2) (v : context.v = numerals.length - numerals.length / 2)
    (digits : ∀ digit ∈ numerals, digit < context.radix) {round : Nat} (even : round % 2 = 0) :
    wellFormed.network.Ready round (numerals.take context.u, numerals.drop context.u) := by
  have odd : (round + 1) % 2 ≠ 0 := by omega
  refine ⟨⟨?_, fun digit member => digits digit (List.mem_of_mem_take member)⟩,
    ⟨?_, fun digit member => digits digit (List.mem_of_mem_drop member)⟩⟩
  · rw [if_pos even, List.length_take, u]
    omega
  · rw [if_neg odd, List.length_drop, u, v]

theorem joined_halves {context : RoundContext} (wellFormed : context.WellFormed)
    (u : context.u = numerals.length / 2) (v : context.v = numerals.length - numerals.length / 2)
    {halves : List Nat × List Nat} {round : Nat} (even : round % 2 = 0)
    (ready : wellFormed.network.Ready round halves) :
    (halves.1 ++ halves.2).length = numerals.length ∧
      (∀ digit ∈ halves.1 ++ halves.2, digit < context.radix) ∧
      ((halves.1 ++ halves.2).take context.u, (halves.1 ++ halves.2).drop context.u) = halves := by
  have odd : (round + 1) % 2 ≠ 0 := by omega
  obtain ⟨⟨leftWidth, leftDigits⟩, ⟨rightWidth, rightDigits⟩⟩ := ready
  rw [if_pos even] at leftWidth
  rw [if_neg odd] at rightWidth
  refine ⟨?_, fun digit member => ?_, ?_⟩
  · rw [List.length_append, leftWidth, rightWidth, u, v]
    omega
  · rcases List.mem_append.mp member with member | member
    · exact leftDigits digit member
    · exact rightDigits digit member
  · rw [← leftWidth, List.take_left, List.drop_left]

theorem Admissible.of_same_length {other : List Nat} (admissible : Admissible key tweak radix numerals)
    (length : other.length = numerals.length) (digits : ∀ digit ∈ other, digit < radix) :
    Admissible key tweak radix other :=
  { admissible with
    lengthLower := length ▸ admissible.lengthLower
    lengthUpper := length ▸ admissible.lengthUpper
    digits }

theorem roundContext_of_same_length {other : List Nat}
    (admissible : Admissible key tweak radix numerals) (length : other.length = numerals.length)
    (digits : ∀ digit ∈ other, digit < radix) :
    roundContext key tweak radix other = roundContext key tweak radix numerals := by
  simp only [roundContext, validateCommon_ok admissible,
    validateCommon_ok (admissible.of_same_length length digits), length, bind, Except.bind]

theorem encrypt_eq (cipher : BlockCipher) {context : RoundContext} (wellFormed : context.WellFormed)
    (built : roundContext key tweak radix numerals = .ok context)
    (ready : wellFormed.network.Ready 0 (numerals.take context.u, numerals.drop context.u)) :
    encrypt cipher key tweak radix numerals =
      let halves := wellFormed.network.forwardRounds (context.pad cipher) ff1Rounds
        (numerals.take context.u, numerals.drop context.u)
      .ok (halves.1 ++ halves.2) := by
  simp only [encrypt, built, bind, Except.bind]
  rw [encryptRounds_ok cipher wellFormed ready]

theorem decrypt_eq (cipher : BlockCipher) {context : RoundContext} (wellFormed : context.WellFormed)
    (built : roundContext key tweak radix numerals = .ok context)
    (ready : wellFormed.network.Ready ff1Rounds
      (numerals.take context.u, numerals.drop context.u)) :
    decrypt cipher key tweak radix numerals =
      let halves := wellFormed.network.backwardRounds (context.pad cipher) ff1Rounds
        (numerals.take context.u, numerals.drop context.u)
      .ok (halves.1 ++ halves.2) := by
  simp only [decrypt, built, bind, Except.bind]
  rw [decryptRounds_ok cipher wellFormed ready]

theorem encrypt_of_admissible (cipher : BlockCipher)
    (admissible : Admissible key tweak radix numerals) :
    ∃ ciphertext, encrypt cipher key tweak radix numerals = .ok ciphertext ∧
      ciphertext.length = numerals.length ∧ (∀ digit ∈ ciphertext, digit < radix) ∧
      decrypt cipher key tweak radix ciphertext = .ok numerals := by
  obtain ⟨context, built, wellFormed, rfl, u, v⟩ := roundContext_ok admissible
  have first : wellFormed.network.Ready 0 (numerals.take context.u, numerals.drop context.u) :=
    split_ready wellFormed u v admissible.digits rfl
  have reached := Feistel.forwardRounds_ready (context.pad cipher) ff1Rounds first
  obtain ⟨length, range, split⟩ := joined_halves wellFormed u v rfl reached
  refine ⟨_, encrypt_eq cipher wellFormed built first, length, range, ?_⟩
  have rebuilt := (roundContext_of_same_length admissible length range).trans built
  rw [decrypt_eq cipher wellFormed rebuilt (by rwa [split]), split,
    Feistel.backwardRounds_forwardRounds (context.pad cipher) ff1Rounds first]
  simp only [List.take_append_drop]

theorem decrypt_of_admissible (cipher : BlockCipher)
    (admissible : Admissible key tweak radix numerals) :
    ∃ plaintext, decrypt cipher key tweak radix numerals = .ok plaintext ∧
      plaintext.length = numerals.length ∧ (∀ digit ∈ plaintext, digit < radix) ∧
      encrypt cipher key tweak radix plaintext = .ok numerals := by
  obtain ⟨context, built, wellFormed, rfl, u, v⟩ := roundContext_ok admissible
  have last : wellFormed.network.Ready ff1Rounds
      (numerals.take context.u, numerals.drop context.u) :=
    split_ready wellFormed u v admissible.digits rfl
  have reached := Feistel.backwardRounds_ready (context.pad cipher) ff1Rounds last
  obtain ⟨length, range, split⟩ := joined_halves wellFormed u v rfl reached
  refine ⟨_, decrypt_eq cipher wellFormed built last, length, range, ?_⟩
  have rebuilt := (roundContext_of_same_length admissible length range).trans built
  rw [encrypt_eq cipher wellFormed rebuilt (by rwa [split]), split,
    Feistel.forwardRounds_backwardRounds (context.pad cipher) ff1Rounds last]
  simp only [List.take_append_drop]

/-- FF1 is a total keyed permutation of the numeral strings of one length: neither
direction raises, both keep length and digit range, and each inverts the other. -/
theorem encrypt_decrypt_permutation (cipher : BlockCipher) (key tweak : List UInt8) (radix : Nat)
    (numerals : List Nat) (keySize : key.length ∈ [16, 24, 32])
    (radixLower : 2 ≤ radix) (radixUpper : radix ≤ 2 ^ 16)
    (lengthLower : 2 ≤ numerals.length) (lengthUpper : numerals.length < 2 ^ 32)
    (digits : ∀ digit ∈ numerals, digit < radix) (tweakUpper : tweak.length < 2 ^ 32) :
    (∃ ciphertext, encrypt cipher key tweak radix numerals = .ok ciphertext ∧
      ciphertext.length = numerals.length ∧ (∀ digit ∈ ciphertext, digit < radix) ∧
      decrypt cipher key tweak radix ciphertext = .ok numerals) ∧
    (∃ plaintext, decrypt cipher key tweak radix numerals = .ok plaintext ∧
      plaintext.length = numerals.length ∧ (∀ digit ∈ plaintext, digit < radix) ∧
      encrypt cipher key tweak radix plaintext = .ok numerals) := by
  have admissible : Admissible key tweak radix numerals :=
    ⟨keySize, radixLower, radixUpper, lengthLower, lengthUpper, digits, tweakUpper⟩
  exact ⟨encrypt_of_admissible cipher admissible, decrypt_of_admissible cipher admissible⟩

/-- AES as the block function of the primitive. -/
def aes : BlockCipher where
  encryptBlock := Aes.encryptBlock
  length_encryptBlock := fun key block _ => Aes.length_encryptBlock key block

theorem encrypt_decrypt_permutation_two_digits :
    ∃ ciphertext, encrypt aes (List.replicate 32 0) [7] 10 [4, 2] = .ok ciphertext ∧
      decrypt aes (List.replicate 32 0) [7] 10 ciphertext = .ok [4, 2] := by
  obtain ⟨⟨ciphertext, run, _, _, inverse⟩, _⟩ := encrypt_decrypt_permutation aes
    (List.replicate 32 0) [7] 10 [4, 2] (by decide) (by decide) (by decide) (by decide) (by decide)
    (by decide) (by decide)
  exact ⟨ciphertext, run, inverse⟩

/-- The standard's AES-256 sample with an empty tweak. -/
example : encrypt aes
    [0x2B, 0x7E, 0x15, 0x16, 0x28, 0xAE, 0xD2, 0xA6, 0xAB, 0xF7, 0x15, 0x88, 0x09, 0xCF, 0x4F, 0x3C,
     0xEF, 0x43, 0x59, 0xD8, 0xD5, 0x80, 0xAA, 0x4F, 0x7F, 0x03, 0x6D, 0x6F, 0x04, 0xFC, 0x6A, 0x94]
    [] 10 [0, 1, 2, 3, 4, 5, 6, 7, 8, 9] = .ok [6, 6, 5, 7, 6, 6, 7, 0, 0, 9] := by
  decide +kernel

end Permutation

end DecoyEngine.Transforms
