import DecoyEngine.Data.TextLines
import DecoyEngine.Io.CsvBlocks

namespace DecoyEngine.Io

open DecoyEngine.Data

/-! The fields of a framed record (`split_record_fields` of `io/csv_framer.py`). -/

/-- From behind an opening quote: the parts up to the closing one, and what follows it. -/
def quotedPart : List Char → Option (List Char × List Char)
  | [] => none
  | '"' :: '"' :: rest => (quotedPart rest).map fun (part, after) => ('"' :: part, after)
  | '"' :: rest => some ([], rest)
  | ch :: rest => (quotedPart rest).map fun (part, after) => (ch :: part, after)

/-- One field, and the text from its comma on. -/
def splitField (text : List Char) : Option (List Char × List Char) :=
  match text with
  | '"' :: rest =>
      (quotedPart rest).map fun (part, after) =>
        (part ++ after.takeWhile (· ≠ ','), after.dropWhile (· ≠ ','))
  | text => some (text.takeWhile (· ≠ ','), text.dropWhile (· ≠ ','))

theorem length_quotedPart {text part after : List Char}
    (found : quotedPart text = some (part, after)) : after.length < text.length := by
  induction text using quotedPart.induct generalizing part with
  | case1 => cases found
  | case2 rest ih =>
      obtain ⟨⟨inner, next⟩, run, same⟩ := Option.map_eq_some_iff.mp found
      cases same
      have shorter := ih run
      simp only [List.length_cons]
      omega
  | case3 rest notDoubled =>
      rw [quotedPart.eq_3 _ notDoubled] at found
      cases found
      exact Nat.lt_succ_self _
  | case4 ch rest notQuote notDoubled ih =>
      rw [quotedPart.eq_4 _ _ notQuote notDoubled] at found
      obtain ⟨⟨inner, next⟩, run, same⟩ := Option.map_eq_some_iff.mp found
      cases same
      exact (ih run).trans (Nat.lt_succ_self _)

theorem length_splitField {text field after : List Char}
    (found : splitField text = some (field, after)) : after.length ≤ text.length := by
  unfold splitField at found
  split at found
  · rename_i rest
    obtain ⟨⟨part, next⟩, run, same⟩ := Option.map_eq_some_iff.mp found
    cases same
    have shorter := length_quotedPart run
    have dropped := (List.dropWhile_sublist (l := next) (· ≠ ',')).length_le
    rw [List.length_cons]
    omega
  · cases found
    exact (List.dropWhile_sublist _).length_le

/-- The loop over the fields. -/
def splitText (text : List Char) : Option (List (List Char)) :=
  match _found : splitField text with
  | none => none
  | some (field, []) => some [field]
  | some (field, [_]) => some [field, []]
  | some (field, _ :: rest) => (splitText rest).map (field :: ·)
termination_by text.length
decreasing_by
  have shorter := length_splitField _found
  rw [List.length_cons] at shorter
  omega

/-- `text.removesuffix(ch)`. -/
def removeSuffix (ch : Char) (text : List Char) : List Char :=
  if text.getLast? = some ch then text.dropLast else text

/-- `record.decode("utf-8-sig")`. -/
def decodeSig (record : Bytes) : Option (List Char) :=
  utf8Decode (if bom <+: record then record.drop bom.length else record)

def splitRecordFields (record : Bytes) : Option (List (List Char)) :=
  match decodeSig record with
  | none => none
  | some text => splitText (removeSuffix '\r' (removeSuffix '\n' text))

def quoteField (field : List Char) : List Char :=
  '"' :: (field.flatMap fun ch => if ch = '"' then ['"', '"'] else [ch]) ++ ['"']

/-- Every field quoted, every quote doubled. -/
def quotedRecord (fields : List (List Char)) : List Char :=
  [','].intercalate (fields.map quoteField)

def lineEnds : List (List Char) := [[], ['\n'], ['\r', '\n'], ['\r']]

/-- Where a quote leads outside quotes. -/
def onQuote : Phase → Phase
  | .unquoted => .unquoted
  | _ => .quoted

/-- A character of a record; none where the record would end. -/
def charStep : Phase → Char → Option Phase
  | .pendingCr, _ => none
  | .quoted, ch => some (if ch = '"' then .afterQuote else .quoted)
  | phase, ch =>
      if ch = '\r' ∨ ch = '\n' then none
      else if ch = '"' then some (onQuote phase)
      else if ch = ',' then some .fieldStart
      else some .unquoted

/-- A byte of a record. -/
def byteStep : Phase → UInt8 → Option Phase
  | .pendingCr, _ => none
  | .quoted, byte => some (if byte = quoteByte then .afterQuote else .quoted)
  | phase, byte =>
      if byte = crByte ∨ byte = lfByte then none
      else if byte = quoteByte then some (onQuote phase)
      else if byte = commaByte then some .fieldStart
      else some .unquoted

def charRun (phase : Phase) (text : List Char) : Option Phase := text.foldlM charStep phase

def byteRun (phase : Phase) (bytes : Bytes) : Option Phase := bytes.foldlM byteStep phase

theorem charRun_cons (phase : Phase) (ch : Char) (rest : List Char) :
    charRun phase (ch :: rest) = (charStep phase ch).bind fun next => charRun next rest := rfl

theorem charRun_append (phase : Phase) (front back : List Char) :
    charRun phase (front ++ back) = (charRun phase front).bind fun next => charRun next back :=
  List.foldlM_append

theorem byteRun_append (phase : Phase) (front back : Bytes) :
    byteRun phase (front ++ back) = (byteRun phase front).bind fun next => byteRun next back :=
  List.foldlM_append

theorem byteRun_high {phase : Phase} {bytes : Bytes} (outside : phase ≠ .quoted)
    (settled : phase ≠ .pendingCr) (some' : bytes ≠ [])
    (high : ∀ byte ∈ bytes, 128 ≤ byte.toNat) : byteRun phase bytes = some .unquoted := by
  have step : ∀ (phase : Phase) (byte : UInt8), phase ≠ .quoted → phase ≠ .pendingCr →
      128 ≤ byte.toNat → byteStep phase byte = some .unquoted := by
    intro phase byte outside settled above
    have other : ∀ low : UInt8, low.toNat < 128 → byte ≠ low := by
      intro low below same
      rw [same] at above
      omega
    have cr := other crByte (by decide)
    have lf := other lfByte (by decide)
    have quote := other quoteByte (by decide)
    have comma := other commaByte (by decide)
    cases phase <;> simp_all [byteStep]
  induction bytes generalizing phase with
  | nil => exact absurd rfl some'
  | cons byte rest ih =>
      rw [List.forall_mem_cons] at high
      have first := step phase byte outside settled high.1
      cases rest with
      | nil =>
          rw [byteRun, List.foldlM_cons, first]
          rfl
      | cons second rest =>
          have tail : byteRun .unquoted (second :: rest) = some .unquoted :=
            ih (by decide) (by decide) (List.cons_ne_nil _ _) high.2
          rw [byteRun, List.foldlM_cons, first]
          exact tail

theorem byteRun_high_quoted {bytes : Bytes} (high : ∀ byte ∈ bytes, 128 ≤ byte.toNat) :
    byteRun .quoted bytes = some .quoted := by
  induction bytes with
  | nil => rfl
  | cons byte rest ih =>
      rw [List.forall_mem_cons] at high
      have notQuote : byte ≠ quoteByte := by
        intro same
        have above := high.1
        rw [same] at above
        exact absurd above (by decide)
      have first : byteStep .quoted byte = some .quoted := by
        rw [byteStep, if_neg notQuote]
      rw [byteRun, List.foldlM_cons, first]
      exact ih high.2

theorem byteRun_char (phase : Phase) (ch : Char) :
    byteRun phase (String.utf8EncodeChar ch) = charStep phase ch := by
  cases utf8EncodeChar_cases ch with
  | inl ascii =>
      obtain ⟨small, encoded⟩ := ascii
      have same : ∀ (other : Char), other.toNat < 128 →
          (UInt8.ofNat ch.toNat = UInt8.ofNat other.toNat ↔ ch = other) := by
        intro other below
        constructor
        · intro equal
          have codes := congrArg UInt8.toNat equal
          rw [UInt8.toNat_ofNat', UInt8.toNat_ofNat', Nat.mod_eq_of_lt (by omega),
            Nat.mod_eq_of_lt (by omega)] at codes
          exact Char.ext (UInt32.toNat_inj.mp codes)
        · intro equal
          rw [equal]
      have cr : (UInt8.ofNat ch.toNat = crByte) = (ch = '\r') := propext (same '\r' (by decide))
      have lf : (UInt8.ofNat ch.toNat = lfByte) = (ch = '\n') := propext (same '\n' (by decide))
      have quote : (UInt8.ofNat ch.toNat = quoteByte) = (ch = '"') :=
        propext (same '"' (by decide))
      have comma : (UInt8.ofNat ch.toNat = commaByte) = (ch = ',') :=
        propext (same ',' (by decide))
      have single :
          byteRun phase [UInt8.ofNat ch.toNat] = byteStep phase (UInt8.ofNat ch.toNat) := by
        simp [byteRun]
      rw [encoded, single]
      cases phase <;> simp only [byteStep, charStep, cr, lf, quote, comma]
  | inr wide =>
      obtain ⟨large, nonempty, high⟩ := wide
      have other : ∀ low : Char, low.toNat < 128 → ch ≠ low := by
        intro low below same
        rw [same] at large
        omega
      have cr := other '\r' (by decide)
      have lf := other '\n' (by decide)
      have quote := other '"' (by decide)
      have comma := other ',' (by decide)
      cases phase with
      | pendingCr =>
          cases bytes : String.utf8EncodeChar ch with
          | nil => exact absurd bytes nonempty
          | cons byte rest => rfl
      | quoted =>
          rw [byteRun_high_quoted high, charStep, if_neg quote]
      | _ =>
          rw [byteRun_high (by decide) (by decide) nonempty high]
          simp [charStep, cr, lf, quote, comma]

theorem byteRun_utf8Encode (phase : Phase) (text : List Char) :
    byteRun phase (utf8Encode text) = charRun phase text := by
  induction text generalizing phase with
  | nil => rfl
  | cons ch rest ih =>
      rw [utf8Encode, List.flatMap_cons, byteRun_append, byteRun_char, charRun_cons]
      congr 1
      funext next
      exact ih next

/-- A body that leaves no quote open. -/
def Closed (body : Bytes) : Prop := ∃ phase, byteRun .fieldStart body = some phase ∧ phase ≠ .quoted

def recordEnds : List Bytes := [[], [lfByte], [crByte, lfByte], [crByte]]

theorem step_push {machine : Machine} {byte : UInt8} {next : Phase}
    (moved : byteStep machine.phase byte = some next) :
    machine.step byte = machine.push byte next := by
  obtain ⟨records, body, phase⟩ := machine
  cases phase <;> simp only [byteStep, onQuote] at moved <;>
    simp only [Machine.step, Machine.stepOutside]
  case pendingCr => cases moved
  case quoted => rw [Option.some.inj moved]
  all_goals
    split at moved
    · cases moved
    · rename_i inside
      rw [not_or] at inside
      rw [if_neg inside.1, if_neg inside.2]
      split at moved
      · rename_i quote
        rw [if_pos quote, Option.some.inj moved]
      · rename_i notQuote
        rw [if_neg notQuote]
        split at moved
        · rename_i comma
          rw [if_pos comma, Option.some.inj moved]
        · rename_i notComma
          rw [if_neg notComma, Option.some.inj moved]

theorem feed_byteRun {machine : Machine} {bytes : Bytes} {next : Phase}
    (run : byteRun machine.phase bytes = some next) :
    machine.feed bytes = ⟨machine.records, machine.body ++ bytes, next⟩ := by
  induction bytes generalizing machine with
  | nil =>
      rw [← Option.some.inj run, List.append_nil]
      rfl
  | cons byte rest ih =>
      obtain ⟨middle, moved, tail⟩ := Option.bind_eq_some_iff.mp run
      have pushed : (machine.push byte middle).phase = middle := rfl
      rw [Machine.feed_cons, step_push moved, ih (pushed ▸ tail)]
      simp [Machine.push]

theorem byteStep_eq_none {phase : Phase} {byte : UInt8} (settled : phase ≠ .pendingCr)
    (ended : byteStep phase byte = none) : phase ≠ .quoted ∧ (byte = crByte ∨ byte = lfByte) := by
  cases phase with
  | pendingCr => exact absurd rfl settled
  | quoted => cases ended
  | _ =>
      refine ⟨by decide, ?_⟩
      by_contra inside
      simp only [byteStep, if_neg inside] at ended
      split at ended
      · cases ended
      · split at ended <;> cases ended

/-- What the finished records and the one in progress are to the automaton. -/
structure Traced (machine : Machine) : Prop where
  records : ∀ record ∈ machine.records, Closed record.1 ∧ record.2 ∈ recordEnds
  waiting : machine.phase = .pendingCr → Closed machine.body
  body : machine.phase ≠ .pendingCr → byteRun .fieldStart machine.body = some machine.phase

theorem traced_close {machine : Machine} {terminator : Bytes} (traced : Traced machine)
    (closed : Closed machine.body) (known : terminator ∈ recordEnds) :
    Traced (machine.close terminator) where
  records := by
    intro record member
    cases List.mem_append.mp member with
    | inl earlier => exact traced.records record earlier
    | inr last => exact List.mem_singleton.mp last ▸ ⟨closed, known⟩
  waiting := nofun
  body := fun _ => rfl

theorem traced_step_settled {machine : Machine} {byte : UInt8} (traced : Traced machine)
    (settled : machine.phase ≠ .pendingCr) : Traced (machine.step byte) := by
  have current := traced.body settled
  cases moved : byteStep machine.phase byte with
  | some next =>
      rw [step_push moved]
      have notWaiting : next ≠ .pendingCr := by
        intro same
        rw [same] at moved
        cases phase : machine.phase with
        | pendingCr => exact settled phase
        | quoted =>
            rw [phase] at moved
            simp only [byteStep] at moved
            split at moved <;> cases moved
        | _ =>
            rw [phase] at moved
            simp only [byteStep, onQuote] at moved
            split at moved
            · cases moved
            · split at moved
              · cases moved
              · split at moved <;> cases moved
      refine ⟨traced.records, fun waiting => absurd waiting notWaiting, fun _ => ?_⟩
      have single : byteRun machine.phase [byte] = some next := by simp [byteRun, moved]
      rw [Machine.push, byteRun_append, current, Option.bind_some, single]
  | none =>
      obtain ⟨outside, ends⟩ := byteStep_eq_none settled moved
      have closed : Closed machine.body := ⟨machine.phase, current, outside⟩
      have quoting : machine.step byte = machine.stepOutside (onQuote machine.phase) byte := by
        obtain ⟨records, body, phase⟩ := machine
        cases phase <;> first | rfl | exact absurd rfl settled | exact absurd rfl outside
      rw [quoting, Machine.stepOutside]
      by_cases cr : byte = crByte
      · rw [if_pos cr]
        exact ⟨traced.records, fun _ => closed, fun notWaiting => absurd rfl notWaiting⟩
      · rw [if_neg cr, if_pos (ends.resolve_left cr)]
        exact traced_close traced closed (by decide)

theorem traced_step {machine : Machine} (byte : UInt8) (traced : Traced machine) :
    Traced (machine.step byte) := by
  by_cases waiting : machine.phase = .pendingCr
  · have closed := traced.waiting waiting
    rw [Machine.step, waiting]
    dsimp only
    split
    · exact traced_close traced closed (by decide)
    · -- a lone CR has ended the record, and the byte begins the next one
      have next := (traced_close traced closed (by decide) : Traced (machine.close [crByte]))
      apply traced_step_settled next
      intro still
      cases still
  · exact traced_step_settled traced waiting

theorem traced_feed {machine : Machine} (bytes : Bytes) (traced : Traced machine) :
    Traced (machine.feed bytes) := by
  induction bytes generalizing machine with
  | nil => exact traced
  | cons byte rest ih => exact ih (traced_step byte traced)

theorem traced_start : Traced Machine.start := ⟨nofun, nofun, fun _ => rfl⟩

/-- The machine with `lead` before everything it has taken in. -/
def addLead (lead : Bytes) (machine : Machine) : Machine :=
  match machine.records with
  | [] => { machine with body := lead ++ machine.body }
  | (body, terminator) :: rest => { machine with records := (lead ++ body, terminator) :: rest }

theorem addLead_close (lead : Bytes) (machine : Machine) (terminator : Bytes) :
    (addLead lead machine).close terminator = addLead lead (machine.close terminator) := by
  obtain ⟨records, body, phase⟩ := machine
  cases records <;> rfl

theorem addLead_push (lead : Bytes) (machine : Machine) (byte : UInt8) (phase : Phase) :
    (addLead lead machine).push byte phase = addLead lead (machine.push byte phase) := by
  obtain ⟨records, body, before⟩ := machine
  cases records with
  | nil => simp [addLead, Machine.push]
  | cons record rest => rfl

theorem addLead_phase (lead : Bytes) (machine : Machine) :
    (addLead lead machine).phase = machine.phase := by
  obtain ⟨records, body, phase⟩ := machine
  cases records <;> rfl

theorem addLead_waiting (lead : Bytes) (machine : Machine) :
    { addLead lead machine with phase := Phase.pendingCr } =
      addLead lead { machine with phase := .pendingCr } := by
  obtain ⟨records, body, phase⟩ := machine
  cases records <;> rfl

theorem addLead_stepOutside (lead : Bytes) (machine : Machine) (quoting : Phase) (byte : UInt8) :
    (addLead lead machine).stepOutside quoting byte =
      addLead lead (machine.stepOutside quoting byte) := by
  rw [Machine.stepOutside, Machine.stepOutside, addLead_waiting, addLead_close, addLead_push,
    addLead_push, addLead_push]
  split_ifs <;> rfl

theorem addLead_step (lead : Bytes) (machine : Machine) (byte : UInt8) :
    (addLead lead machine).step byte = addLead lead (machine.step byte) := by
  rw [Machine.step, Machine.step, addLead_phase]
  cases machine.phase with
  | quoted => exact addLead_push lead machine byte _
  | pendingCr =>
      dsimp only
      rw [addLead_close, addLead_close, addLead_stepOutside]
      split_ifs <;> rfl
  | _ => exact addLead_stepOutside lead machine _ byte

theorem addLead_feed (lead : Bytes) (machine : Machine) (bytes : Bytes) :
    (addLead lead machine).feed bytes = addLead lead (machine.feed bytes) := by
  induction bytes generalizing machine with
  | nil => rfl
  | cons byte rest ih => rw [Machine.feed_cons, addLead_step, ih, Machine.feed_cons]

theorem addLead_nil (machine : Machine) : addLead [] machine = machine := by
  obtain ⟨records, body, phase⟩ := machine
  cases records <;> rfl

/-- The mark of a stream: a BOM at its start, or nothing. -/
def leadOf (stream : Bytes) : Bytes := if bom <+: stream then bom else []

theorem machineRun_eq (stream : Bytes) :
    machineRun stream =
      addLead (leadOf stream) (Machine.start.feed (stream.drop (leadOf stream).length)) := by
  rw [machineRun, leadOf, ← addLead_feed]
  split
  · rfl
  · rw [addLead_nil]
    rfl

/-- A record as the framer emits it at an index. -/
structure RecordAt (lead : Bytes) (index : Nat) (record : Bytes × Bytes) : Prop where
  body : ∃ body, record.1 = (if index = 0 then lead else []) ++ body ∧ Closed body
  terminator : record.2 ∈ recordEnds

section Emitted

variable {lead : Bytes} {machine : Machine} {index : Nat} {record : Bytes × Bytes}

theorem recordAt_records (traced : Traced machine)
    (found : (addLead lead machine).records[index]? = some record) :
    RecordAt lead index record := by
  obtain ⟨records, body, phase⟩ := machine
  cases records with
  | nil => cases found
  | cons first rest =>
      cases index with
      | zero =>
          cases found
          obtain ⟨closed, known⟩ := traced.records first List.mem_cons_self
          exact ⟨⟨first.1, rfl, closed⟩, known⟩
      | succ index =>
          have inRest : record ∈ rest := List.mem_of_getElem? found
          obtain ⟨closed, known⟩ := traced.records record (List.mem_cons_of_mem _ inRest)
          exact ⟨⟨record.1, rfl, closed⟩, known⟩

theorem recordAt_tail (traced : Traced machine) (outside : machine.phase ≠ .quoted)
    (found : record ∈ (addLead lead machine).tail) :
    RecordAt lead (addLead lead machine).records.length record := by
  have body : (addLead lead machine).body =
      (if (addLead lead machine).records.length = 0 then lead else []) ++ machine.body := by
    obtain ⟨records, body, phase⟩ := machine
    cases records <;> rfl
  rw [Machine.tail, addLead_phase] at found
  by_cases waiting : machine.phase = .pendingCr
  · rw [if_pos waiting] at found
    rw [List.mem_singleton.mp found]
    have known : [crByte] ∈ recordEnds := by decide
    exact ⟨⟨machine.body, body, traced.waiting waiting⟩, known⟩
  · rw [if_neg waiting] at found
    split at found
    · cases found
    · rw [List.mem_singleton.mp found]
      have known : [] ∈ recordEnds := by decide
      exact ⟨⟨machine.body, body, machine.phase, traced.body waiting, outside⟩, known⟩

theorem recordAt_allRecords (traced : Traced machine) (outside : machine.phase ≠ .quoted)
    (found : (addLead lead machine).allRecords[index]? = some record) :
    RecordAt lead index record := by
  rw [Machine.allRecords] at found
  by_cases finished : index < (addLead lead machine).records.length
  · rw [List.getElem?_append_left finished] at found
    exact recordAt_records traced found
  · rw [List.getElem?_append_right (by omega)] at found
    have inTail := List.mem_of_getElem? found
    have last : index = (addLead lead machine).records.length := by
      obtain ⟨below, -⟩ := List.getElem?_eq_some_iff.mp found
      cases (addLead lead machine).tail_cases with
      | inl empty =>
          rw [empty] at below
          exact absurd below (Nat.not_lt_zero _)
      | inr single =>
          obtain ⟨terminator, isTail⟩ := single
          rw [isTail, List.length_singleton] at below
          omega
    rw [last]
    exact recordAt_tail traced outside inTail

end Emitted

theorem length_tail_le (machine : Machine) : machine.tail.length ≤ 1 := by
  cases machine.tail_cases with
  | inl empty => rw [empty]; decide
  | inr single =>
      obtain ⟨terminator, isTail⟩ := single
      rw [isTail]
      exact le_rfl

theorem recordAt_of_framed {cap : Int} {blockSize : Nat} {stream : Bytes} {framed : Framed}
    {index : Nat} {emitted : Bytes} (run : iterCsvRecords cap blockSize stream = some framed)
    (found : framed.1[index]? = some emitted) :
    ∃ record, emitted = joinRecord record ∧ (streamRecords stream)[index]? = some record ∧
      RecordAt (leadOf stream) index record := by
  have accepted : 4 ≤ blockSize := by
    by_contra small
    rw [iterCsvRecords, if_pos (by omega)] at run
    cases run
  rw [iterCsvRecords_eq accepted] at run
  cases run
  have traced : Traced (Machine.start.feed (stream.drop (leadOf stream).length)) :=
    traced_feed _ traced_start
  have shape := machineRun_eq stream
  have whole : streamRecords stream =
      (machineRun stream).records ++ (machineRun stream).tail := rfl
  have fromRecords : ∀ record, (machineRun stream).records[index]? = some record →
      (streamRecords stream)[index]? = some record ∧ RecordAt (leadOf stream) index record := by
    intro record inRecords
    have below := (List.getElem?_eq_some_iff.mp inRecords).1
    rw [whole, List.getElem?_append_left below]
    rw [shape] at inRecords
    exact ⟨shape ▸ inRecords, recordAt_records traced inRecords⟩
  cases referenceFraming_cases cap stream with
  | inl overlong =>
      obtain ⟨before, ⟨-, large, rest, split, -⟩, outcome⟩ := overlong
      rw [outcome, List.getElem?_map, Option.map_eq_some_iff] at found
      obtain ⟨record, inBefore, rfl⟩ := found
      have below := (List.getElem?_eq_some_iff.mp inBefore).1
      have lengths := congrArg List.length split
      have short := length_tail_le (machineRun stream)
      have inRecords : (machineRun stream).records[index]? = some record := by
        rw [Machine.allRecords, List.length_append, List.length_append, List.length_cons] at lengths
        have first := congrArg (fun records => records[index]?) split
        rw [Machine.allRecords, List.getElem?_append_left (by omega),
          List.getElem?_append_left below, inBefore] at first
        exact first
      exact ⟨record, rfl, fromRecords record inRecords⟩
  | inr within =>
      obtain ⟨-, outcome⟩ := within
      by_cases quoted : endsInQuotes stream = true
      · rw [outcome, if_pos quoted, List.getElem?_map, Option.map_eq_some_iff] at found
        obtain ⟨record, inRecords, rfl⟩ := found
        exact ⟨record, rfl, fromRecords record inRecords⟩
      · rw [outcome, if_neg quoted, List.getElem?_map, Option.map_eq_some_iff] at found
        obtain ⟨record, inAll, rfl⟩ := found
        refine ⟨record, rfl, inAll, ?_⟩
        have outside :
            (Machine.start.feed (stream.drop (leadOf stream).length)).phase ≠ .quoted := by
          rw [endsInQuotes, shape, addLead_phase] at quoted
          exact fun same => quoted (decide_eq_true same)
        rw [streamRecords, shape] at inAll
        exact recordAt_allRecords traced outside inAll

end DecoyEngine.Io
