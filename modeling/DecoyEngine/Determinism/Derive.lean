import DecoyEngine.Data.ByteFrames

namespace DecoyEngine.Determinism

open DecoyEngine.Data

/-! The keyed derivation envelope: the Python paths (`determinism/_derive.py`, `_hkdf.py`) and the
native ones (`decoy-engine-native/src/derive.rs`). -/

abbrev Bytes := List UInt8

def utf8 (text : String) : Bytes := text.toByteArray.data.toList

def seedProtocolVersion : UInt8 := 7

def salt : Bytes := utf8 "decoy-engine/determinism/v1"

/-- The 8-byte `job_seed` and the 32-byte `mask_key`. -/
def seedLengths : List Nat := [8, 32]

/-- A keyed HMAC object: its key and the bytes absorbed so far. -/
structure HmacState where
  key : Bytes
  absorbed : Bytes
deriving DecidableEq

def HmacState.new (key message : Bytes) : HmacState := ⟨key, message⟩

def HmacState.update (state : HmacState) (bytes : Bytes) : HmacState :=
  { state with absorbed := state.absorbed ++ bytes }

def HmacState.digest (mac : Bytes → Bytes → Bytes) (state : HmacState) : Bytes :=
  mac state.key state.absorbed

inductive PythonError where
  | seedWrongLength (length : Nat)
  | namespaceEmpty
  -- `int.to_bytes` of a length that needs more than four bytes
  | overflowError
  | emptySalt
  | hkdfLength (length : Nat)
deriving Repr, DecidableEq

def PythonError.code : PythonError → String
  | .seedWrongLength _ => "seed_wrong_length"
  | .namespaceEmpty => "namespace_empty"
  | .overflowError => "OverflowError"
  | .emptySalt => "ValueError"
  | .hkdfLength _ => "ValueError"

def PythonError.message : PythonError → String
  | .seedWrongLength length =>
      s!"seed must be 8 (job_seed) or 32 (mask_key) bytes; got {length}"
  | .namespaceEmpty => "namespace must be non-empty"
  | .overflowError => "int too big to convert"
  | .emptySalt =>
      "hkdf_extract: salt must be non-empty. Pass an application-" ++
      "specific context string. If you genuinely want the RFC 5869 " ++
      "§2.2 all-zero default, pass b'\\x00' * 32 explicitly."
  | .hkdfLength length => s!"HKDF length {length} exceeds RFC 5869 maximum {255 * 32}"

section Python

variable (mac : Bytes → Bytes → Bytes)

def hkdfExtract (salt ikm : Bytes) : Except PythonError Bytes :=
  if salt = [] then .error .emptySalt else .ok (mac salt ikm)

/-- `T(i) | T(i + 1) | ...`, `count` blocks of them. -/
def hkdfBlocks (prk info : Bytes) : (count : Nat) → (i : Nat) → (t : Bytes) → Bytes
  | 0, _, _ => []
  | count + 1, i, t =>
      let next := mac prk (t ++ info ++ [UInt8.ofNat i])
      next ++ hkdfBlocks prk info count (i + 1) next

def hkdfExpand (prk info : Bytes) (length : Nat) : Except PythonError Bytes :=
  if 255 * 32 < length then .error (.hkdfLength length)
  else .ok ((hkdfBlocks mac prk info ((length + 32 - 1) / 32) 1 []).take length)

def hkdfSha256 (ikm salt info : Bytes) (length : Nat) : Except PythonError Bytes := do
  hkdfExpand mac (← hkdfExtract mac salt ikm) info length

def framed (block : Bytes) : Except PythonError Bytes :=
  match frame block with
  | some bytes => .ok bytes
  | none => .error .overflowError

/-- Version byte, framed namespace. -/
def envelopePrefix (namespaceBytes : Bytes) : Except PythonError Bytes := do
  .ok (seedProtocolVersion :: (← framed namespaceBytes))

/-- Version byte, framed namespace, framed source. -/
def hmacInput (namespaceBytes source : Bytes) : Except PythonError Bytes := do
  .ok ((← envelopePrefix namespaceBytes) ++ (← framed source))

/-- `derive`, up to the digest. -/
def deriveMac (seed : Bytes) (namespaceName : String) (source : Bytes) :
    Except PythonError HmacState := do
  if seed.length ∉ seedLengths then throw (.seedWrongLength seed.length)
  if namespaceName.isEmpty then throw .namespaceEmpty
  let input ← hmacInput (utf8 namespaceName) source
  let key ← hkdfSha256 mac seed salt (utf8 namespaceName) 32
  return .new key input

def derive (seed : Bytes) (namespaceName : String) (source : Bytes) : Except PythonError Bytes :=
  (deriveMac mac seed namespaceName source).map (HmacState.digest mac)

structure DeriveContext where
  hmacKey : Bytes

def DeriveContext.forColumn (seed : Bytes) (namespaceName : String) :
    Except PythonError DeriveContext := do
  if seed.length ∉ seedLengths then throw (.seedWrongLength seed.length)
  if namespaceName.isEmpty then throw .namespaceEmpty
  return ⟨← hkdfSha256 mac seed salt (utf8 namespaceName) 32⟩

def DeriveContext.deriveSource (context : DeriveContext) (namespaceName : String)
    (source : Bytes) : Except PythonError HmacState := do
  return .new context.hmacKey (← hmacInput (utf8 namespaceName) source)

/-- A generator's run: what it yields, and what it raises afterwards. -/
abbrev Yielded := List HmacState × Option PythonError

/-- The row loop of `derive_sources`, over copies of the base state. -/
def yieldSources (base : HmacState) : List Bytes → Yielded
  | [] => ([], none)
  | source :: sources =>
      match framed source with
      | .error error => ([], some error)
      | .ok bytes =>
          let (rest, raised) := yieldSources base sources
          (base.update bytes :: rest, raised)

def DeriveContext.deriveSources (context : DeriveContext) (namespaceName : String)
    (sources : List Bytes) : Yielded :=
  match envelopePrefix (utf8 namespaceName) with
  | .error error => ([], some error)
  | .ok bytes => yieldSources (.new context.hmacKey bytes) sources

/-- A column derived through one context. -/
def deriveColumn (seed : Bytes) (namespaceName : String) (sources : List Bytes) : Yielded :=
  match DeriveContext.forColumn mac seed namespaceName with
  | .error error => ([], some error)
  | .ok context => context.deriveSources namespaceName sources

end Python

namespace Native

/-- `DeriveError`, by its code. -/
inductive DeriveError where
  | seedWrongLength (length : Nat)
  | namespaceEmpty
  | namespaceLengthOverflow
  | sourceLengthOverflow
deriving Repr, DecidableEq

def DeriveError.code : DeriveError → String
  | .seedWrongLength _ => "seed_wrong_length"
  | .namespaceEmpty => "namespace_empty"
  | .namespaceLengthOverflow => "namespace_length_overflow"
  | .sourceLengthOverflow => "source_length_overflow"

def DeriveError.detail : DeriveError → String
  | .seedWrongLength length =>
      s!"mask_key must be 8 (job_seed) or 32 (mask_key) bytes; got {length}"
  | .namespaceEmpty => "namespace must be non-empty"
  | .namespaceLengthOverflow => "namespace exceeds u32 bytes"
  | .sourceLengthOverflow => "canonical source exceeds u32 bytes"

/-- The Python exception for the same input; `int.to_bytes` does not say which length it was. -/
def DeriveError.asPython : DeriveError → PythonError
  | .seedWrongLength length => .seedWrongLength length
  | .namespaceEmpty => .namespaceEmpty
  | .namespaceLengthOverflow => .overflowError
  | .sourceLengthOverflow => .overflowError

/-- The `hkdf` crate over a MAC: RFC 5869, as `_hkdf.py` implements it. -/
structure HkdfCrate (mac : Bytes → Bytes → Bytes) where
  expand : (salt ikm info : Bytes) → (length : Nat) → Bytes
  rfc5869 : ∀ salt ikm info length, salt ≠ [] → length ≤ 255 * 32 →
    hkdfSha256 mac ikm salt info length = .ok (expand salt ikm info length)

def toBeBytes (value : UInt32) : Bytes :=
  [(value >>> 24).toUInt8, (value >>> 16).toUInt8, (value >>> 8).toUInt8, value.toUInt8]

/-- `u32::try_from(len)`. -/
def checkedFrameLength (length : Nat) (error : DeriveError) : Except DeriveError UInt32 :=
  if length < 2 ^ 32 then .ok (UInt32.ofNat length) else .error error

def buildFrame (namespaceName : String) (canonicalSource : Bytes) : Except DeriveError Bytes := do
  let namespaceBytes := utf8 namespaceName
  let nsLen ← checkedFrameLength namespaceBytes.length .namespaceLengthOverflow
  let srcLen ← checkedFrameLength canonicalSource.length .sourceLengthOverflow
  return [seedProtocolVersion] ++ toBeBytes nsLen ++ namespaceBytes ++ toBeBytes srcLen ++
    canonicalSource

section

variable {mac : Bytes → Bytes → Bytes} (hkdf : HkdfCrate mac)

def hkdfKey (maskKey : Bytes) (namespaceName : String) : Bytes :=
  hkdf.expand salt maskKey (utf8 namespaceName) 32

/-- `derive`, up to `finalize`. -/
def deriveMac (maskKey : Bytes) (namespaceName : String) (canonicalSource : Bytes) :
    Except DeriveError HmacState := do
  if maskKey.length ∉ seedLengths then throw (.seedWrongLength maskKey.length)
  if namespaceName.isEmpty then throw .namespaceEmpty
  let key := hkdfKey hkdf maskKey namespaceName
  let frame ← buildFrame namespaceName canonicalSource
  return (HmacState.new key []).update frame

structure DeriveContext where
  keyedMac : HmacState
  framePrefix : Bytes

def DeriveContext.new (maskKey : Bytes) (namespaceName : String) :
    Except DeriveError DeriveContext := do
  if maskKey.length ∉ seedLengths then throw (.seedWrongLength maskKey.length)
  if namespaceName.isEmpty then throw .namespaceEmpty
  let namespaceBytes := utf8 namespaceName
  let nsLen ← checkedFrameLength namespaceBytes.length .namespaceLengthOverflow
  let key := hkdfKey hkdf maskKey namespaceName
  return ⟨.new key [], [seedProtocolVersion] ++ toBeBytes nsLen ++ namespaceBytes⟩

def DeriveContext.deriveRow (context : DeriveContext) (canonicalSource : Bytes) :
    Except DeriveError HmacState := do
  let srcLen ← checkedFrameLength canonicalSource.length .sourceLengthOverflow
  return ((context.keyedMac.update context.framePrefix).update (toBeBytes srcLen)).update
    canonicalSource

end

end Native

/-- A byte string whose length fits the four-byte prefix. -/
abbrev Framable := { bytes : Bytes // bytes.length < 2 ^ 32 }

theorem toBytesBig_toBeBytes {length : Nat} (fits : length < 2 ^ 32) :
    toBytesBig length 4 = some (Native.toBeBytes (UInt32.ofNat length)) := by
  rw [toBytesBig, if_pos (by omega), Option.some.injEq]
  have whole : (UInt32.ofNat length).toNat = length := UInt32.toNat_ofNat_of_lt' fits
  simp only [fixedDigits, List.reverse_cons, List.reverse_nil, List.nil_append, List.cons_append,
    List.map_cons, List.map_nil, Native.toBeBytes, List.cons.injEq, and_true]
  refine ⟨?_, ?_, ?_, ?_⟩ <;>
  · apply UInt8.toNat_inj.mp
    simp [whole, Nat.shiftRight_eq_div_pow, Nat.div_div_eq_div_mul]

theorem framed_of_lt {block : Bytes} (fits : block.length < 2 ^ 32) :
    framed block = .ok (Native.toBeBytes (UInt32.ofNat block.length) ++ block) := by
  rw [framed, frame, toBytesBig_toBeBytes fits]
  rfl

theorem framed_of_ge {block : Bytes} (long : 2 ^ 32 ≤ block.length) :
    framed block = .error .overflowError := by
  rw [framed, frame_eq_none.mpr long]

theorem hmacInput_of_lt {namespaceBytes source : Bytes} (nameFits : namespaceBytes.length < 2 ^ 32)
    (sourceFits : source.length < 2 ^ 32) :
    ∃ nameFrame sourceFrame, frame namespaceBytes = some nameFrame ∧
      frame source = some sourceFrame ∧
      hmacInput namespaceBytes source = .ok (seedProtocolVersion :: nameFrame ++ sourceFrame) := by
  have name : frame namespaceBytes ≠ none := by
    rw [Ne, frame_eq_none]
    omega
  have other : frame source ≠ none := by
    rw [Ne, frame_eq_none]
    omega
  obtain ⟨nameFrame, nameFramed⟩ := Option.ne_none_iff_exists'.mp name
  obtain ⟨sourceFrame, sourceFramed⟩ := Option.ne_none_iff_exists'.mp other
  refine ⟨nameFrame, sourceFrame, nameFramed, sourceFramed, ?_⟩
  simp only [hmacInput, envelopePrefix, framed, nameFramed, sourceFramed]
  rfl

theorem hmacInput_injective :
    Function.Injective fun pair : Framable × Framable => hmacInput pair.1.val pair.2.val := by
  intro left right same
  obtain ⟨leftName, leftSource, leftNamed, leftSourced, leftInput⟩ :=
    hmacInput_of_lt left.1.property left.2.property
  obtain ⟨rightName, rightSource, rightNamed, rightSourced, rightInput⟩ :=
    hmacInput_of_lt right.1.property right.2.property
  simp only [leftInput, rightInput, Except.ok.injEq, List.cons_append, List.cons.injEq,
    true_and] at same
  obtain ⟨names, rests⟩ := frame_append_inj leftNamed rightNamed same
  have ends : leftSource ++ [] = rightSource ++ [] := by rw [rests]
  obtain ⟨sources, _⟩ := frame_append_inj leftSourced rightSourced ends
  exact Prod.ext (Subtype.ext names) (Subtype.ext sources)

section Paths

variable {mac : Bytes → Bytes → Bytes} (seed : Bytes) (namespaceName : String) (source : Bytes)

theorem salt_ne_nil : salt ≠ [] := by decide

theorem hkdfSha256_salt (info : Bytes) : ∃ key, hkdfSha256 mac seed salt info 32 = .ok key := by
  rw [hkdfSha256, hkdfExtract, if_neg salt_ne_nil]
  exact ⟨_, rfl⟩

/-- The one outcome of every path: the two checks, then the envelope under the namespace key. -/
def outcome (key : Bytes) : Except PythonError HmacState :=
  if seed.length ∉ seedLengths then .error (.seedWrongLength seed.length)
  else if namespaceName.isEmpty then .error .namespaceEmpty
  else (hmacInput (utf8 namespaceName) source).map (HmacState.new key)

variable {key : Bytes} (derived : hkdfSha256 mac seed salt (utf8 namespaceName) 32 = .ok key)

include derived in
theorem deriveMac_eq :
    deriveMac mac seed namespaceName source = outcome seed namespaceName source key := by
  rw [deriveMac, outcome]
  split
  · rfl
  · split
    · rfl
    · rw [derived]
      cases hmacInput (utf8 namespaceName) source <;> rfl

include derived in
theorem forColumn_eq :
    DeriveContext.forColumn mac seed namespaceName =
      if seed.length ∉ seedLengths then .error (.seedWrongLength seed.length)
      else if namespaceName.isEmpty then .error .namespaceEmpty
      else .ok ⟨key⟩ := by
  rw [DeriveContext.forColumn]
  split
  · rfl
  · split
    · rfl
    · rw [derived]
      rfl

include derived in
theorem deriveSource_eq :
    (DeriveContext.forColumn mac seed namespaceName >>= fun context =>
      context.deriveSource namespaceName source) = outcome seed namespaceName source key := by
  rw [forColumn_eq seed namespaceName derived, outcome]
  split
  · rfl
  · split
    · rfl
    · cases input : hmacInput (utf8 namespaceName) source with
      | error error =>
          simp only [bind, Except.bind, DeriveContext.deriveSource, input]
          rfl
      | ok bytes =>
          simp only [bind, Except.bind, DeriveContext.deriveSource, input]
          rfl

/-- The results up to the first failure, as a generator that computes them one by one yields
them. -/
def untilFailure : List (Except PythonError HmacState) → Yielded
  | [] => ([], none)
  | .error error :: _ => ([], some error)
  | .ok state :: rest => (state :: (untilFailure rest).1, (untilFailure rest).2)

theorem yieldSources_eq {bytes : Bytes} (head : envelopePrefix (utf8 namespaceName) = .ok bytes)
    (sources : List Bytes) :
    yieldSources (.new key bytes) sources =
      untilFailure (sources.map fun source =>
        (hmacInput (utf8 namespaceName) source).map (HmacState.new key)) := by
  induction sources with
  | nil => rfl
  | cons source sources ih =>
      have input : hmacInput (utf8 namespaceName) source =
          (framed source).map (bytes ++ ·) := by
        rw [hmacInput, head]
        cases framed source <;> rfl
      rw [yieldSources, List.map_cons, input]
      cases framed source with
      | error error => rfl
      | ok sourceBytes =>
          simp only [Except.map, untilFailure, ih]
          rfl

include derived in
theorem deriveColumn_eq (sources : List Bytes) :
    deriveColumn mac seed namespaceName (source :: sources) =
      untilFailure ((source :: sources).map fun source =>
        outcome seed namespaceName source key) := by
  rw [deriveColumn, forColumn_eq seed namespaceName derived]
  unfold outcome
  by_cases badSeed : seed.length ∉ seedLengths
  · simp only [if_pos badSeed, List.map_cons, untilFailure]
  · by_cases empty : namespaceName.isEmpty
    · simp only [if_neg badSeed, if_pos empty, List.map_cons, untilFailure]
    · simp only [if_neg badSeed, if_neg empty, DeriveContext.deriveSources]
      cases head : envelopePrefix (utf8 namespaceName) with
      | error error =>
          have input : hmacInput (utf8 namespaceName) source = .error error := by
            rw [hmacInput, head]
            rfl
          simp only [List.map_cons, input, Except.map, untilFailure]
      | ok bytes => exact yieldSources_eq namespaceName head (source :: sources)

theorem buildFrame_asPython :
    (Native.buildFrame namespaceName source).mapError Native.DeriveError.asPython =
      hmacInput (utf8 namespaceName) source := by
  rw [Native.buildFrame, hmacInput, envelopePrefix]
  by_cases nameFits : (utf8 namespaceName).length < 2 ^ 32
  · rw [framed_of_lt nameFits]
    by_cases sourceFits : source.length < 2 ^ 32
    · rw [framed_of_lt sourceFits]
      simp only [Native.checkedFrameLength, if_pos nameFits, if_pos sourceFits, bind, Except.bind,
        pure, Except.pure, Except.mapError, List.cons_append, List.nil_append, List.append_assoc]
    · rw [framed_of_ge (by omega)]
      simp only [Native.checkedFrameLength, if_pos nameFits, if_neg sourceFits]
      rfl
  · rw [framed_of_ge (by omega)]
    simp only [Native.checkedFrameLength, if_neg nameFits]
    rfl

variable (hkdf : Native.HkdfCrate mac)

include derived in
theorem hkdfKey_eq : Native.hkdfKey hkdf seed namespaceName = key := by
  have crate := hkdf.rfc5869 salt seed (utf8 namespaceName) 32 salt_ne_nil (by decide)
  rw [derived] at crate
  exact (Except.ok.inj crate).symm

include derived in
theorem native_deriveMac_eq :
    (Native.deriveMac hkdf seed namespaceName source).mapError Native.DeriveError.asPython =
      outcome seed namespaceName source key := by
  rw [Native.deriveMac, outcome]
  split
  · rfl
  · split
    · rfl
    · rw [← buildFrame_asPython, hkdfKey_eq seed namespaceName derived]
      cases Native.buildFrame namespaceName source <;> rfl

theorem deriveRow_eq :
    (Native.DeriveContext.new hkdf seed namespaceName >>= fun context =>
      context.deriveRow source) = Native.deriveMac hkdf seed namespaceName source := by
  rw [Native.DeriveContext.new, Native.deriveMac, Native.buildFrame]
  split
  · rfl
  · split
    · rfl
    · cases named : Native.checkedFrameLength (utf8 namespaceName).length
          .namespaceLengthOverflow with
      | error error => simp only [bind, Except.bind, named]
      | ok nsLen =>
          cases sized : Native.checkedFrameLength source.length .sourceLengthOverflow with
          | error error =>
              simp only [bind, Except.bind, pure, Except.pure, Native.DeriveContext.deriveRow,
                named, sized]
          | ok srcLen =>
              simp only [bind, Except.bind, pure, Except.pure, Native.DeriveContext.deriveRow,
                named, sized, HmacState.update, HmacState.new, List.append_assoc]

include derived in
theorem absorbed_eq {state : HmacState}
    (run : deriveMac mac seed namespaceName source = .ok state) :
    hmacInput (utf8 namespaceName) source = .ok state.absorbed := by
  rw [deriveMac_eq seed namespaceName source derived, outcome] at run
  split at run
  · cases run
  · split at run
    · cases run
    · cases input : hmacInput (utf8 namespaceName) source with
      | error error =>
          rw [input] at run
          cases run
      | ok bytes =>
          rw [input] at run
          cases run
          rfl

end Paths

/-- Every path feeds the MAC the same envelope, which determines namespace and source, and rejects
the same inputs after the same checks. -/
theorem derive_paths_feed_one_envelope (mac : Bytes → Bytes → Bytes)
    (hkdf : Native.HkdfCrate mac) :
    (Function.Injective fun pair : Framable × Framable => hmacInput pair.1.val pair.2.val) ∧
    ∀ (seed : Bytes) (namespaceName : String) (source : Bytes),
      (∀ state, deriveMac mac seed namespaceName source = .ok state →
        hmacInput (utf8 namespaceName) source = .ok state.absorbed) ∧
      (DeriveContext.forColumn mac seed namespaceName >>= fun context =>
          context.deriveSource namespaceName source) =
        deriveMac mac seed namespaceName source ∧
      (∀ sources, deriveColumn mac seed namespaceName (source :: sources) =
        untilFailure ((source :: sources).map (deriveMac mac seed namespaceName))) ∧
      (Native.deriveMac hkdf seed namespaceName source).mapError Native.DeriveError.asPython =
        deriveMac mac seed namespaceName source ∧
      (Native.DeriveContext.new hkdf seed namespaceName >>= fun context =>
          context.deriveRow source) = Native.deriveMac hkdf seed namespaceName source := by
  refine ⟨hmacInput_injective, ?_⟩
  intro seed namespaceName source
  obtain ⟨key, derived⟩ : ∃ key, hkdfSha256 mac seed salt (utf8 namespaceName) 32 = .ok key :=
    hkdfSha256_salt seed (utf8 namespaceName)
  refine ⟨?_, ?_, ?_, ?_, ?_⟩
  · intro state
    exact absorbed_eq seed namespaceName source derived
  · rw [deriveMac_eq seed namespaceName source derived,
      deriveSource_eq seed namespaceName source derived]
  · intro sources
    rw [deriveColumn_eq seed namespaceName source derived]
    congr 1
    apply List.map_congr_left
    intro other _
    exact (deriveMac_eq seed namespaceName other derived).symm
  · rw [deriveMac_eq seed namespaceName source derived,
      native_deriveMac_eq seed namespaceName source derived]
  · exact deriveRow_eq seed namespaceName source hkdf

namespace Native

/-- The crate read off the primitive itself. -/
def primitiveHkdf (mac : Bytes → Bytes → Bytes) : HkdfCrate mac where
  expand salt ikm info length := (hkdfSha256 mac ikm salt info length).toOption.getD []
  rfc5869 salt ikm info length someSalt short := by
    rw [hkdfSha256, hkdfExtract, if_neg someSalt]
    simp only [bind, Except.bind, hkdfExpand, if_neg (Nat.not_lt.mpr short)]
    rfl

def zeroKey : Bytes := List.replicate 32 0

/-- HMAC-SHA256 where the derivation of `a` under the zero key and the namespace `n` asks for it. -/
def sampleMac (key message : Bytes) : Bytes :=
  if key = salt ∧ message = zeroKey then
    [81, 103, 216, 169, 86, 129, 251, 36, 214, 181, 12, 173, 52, 28, 86, 176, 84, 69, 170, 96, 200,
      163, 17, 234, 159, 197, 247, 143, 37, 99, 143, 89]
  else if message = utf8 "n" ++ [1] then
    [78, 174, 231, 13, 128, 250, 223, 247, 70, 99, 138, 72, 1, 29, 245, 7, 35, 229, 148, 109, 187,
      51, 23, 12, 111, 50, 224, 50, 170, 239, 236, 60]
  else if message = [7, 0, 0, 0, 1, 110, 0, 0, 0, 1, 97] then
    [111, 214, 24, 1, 86, 54, 203, 52, 110, 206, 165, 240, 112, 7, 18, 177, 9, 3, 5, 53, 230, 122,
      189, 238, 127, 114, 24, 219, 116, 131, 120, 218]
  else List.replicate 32 0

theorem length_sampleMac (key message : Bytes) : (sampleMac key message).length = 32 := by
  rw [sampleMac]
  split
  · rfl
  · split
    · rfl
    · split
      · rfl
      · exact List.length_replicate

end Native

theorem derive_paths_feed_one_envelope_sample :
    (Native.deriveMac (Native.primitiveHkdf Native.sampleMac) Native.zeroKey "n"
      (utf8 "a")).mapError Native.DeriveError.asPython =
      deriveMac Native.sampleMac Native.zeroKey "n" (utf8 "a") ∧
    (DeriveContext.forColumn Native.sampleMac Native.zeroKey "n" >>= fun context =>
      context.deriveSource "n" (utf8 "a")) =
      deriveMac Native.sampleMac Native.zeroKey "n" (utf8 "a") := by
  have paths := (derive_paths_feed_one_envelope Native.sampleMac
    (Native.primitiveHkdf Native.sampleMac)).2 Native.zeroKey "n" (utf8 "a")
  exact ⟨paths.2.2.2.1, paths.2.1⟩

end DecoyEngine.Determinism
