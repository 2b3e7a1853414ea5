import Mathlib.Data.List.Basic

namespace DecoyEngine.Io

/-! The record grammar of CSV, one byte at a time.

The machine holds the finished records (body and terminator), the body of the record in
progress, and where in the record it stands.  A CR outside quotes waits for the byte after
it, which decides between CR and CRLF. -/

abbrev Bytes := List UInt8

def quoteByte : UInt8 := 0x22
def commaByte : UInt8 := 0x2C
def crByte : UInt8 := 0x0D
def lfByte : UInt8 := 0x0A

inductive Phase where
  | fieldStart | unquoted | quoted | afterQuote | pendingCr
deriving Repr, DecidableEq

structure Machine where
  records : List (Bytes × Bytes)
  body : Bytes
  phase : Phase
deriving Repr, DecidableEq

namespace Machine

def close (machine : Machine) (terminator : Bytes) : Machine :=
  ⟨machine.records ++ [(machine.body, terminator)], [], .fieldStart⟩

def push (machine : Machine) (byte : UInt8) (phase : Phase) : Machine :=
  { machine with body := machine.body ++ [byte], phase := phase }

/-- A byte outside quotes; `onQuote` is where a quote leads. -/
def stepOutside (machine : Machine) (onQuote : Phase) (byte : UInt8) : Machine :=
  if byte = crByte then { machine with phase := .pendingCr }
  else if byte = lfByte then machine.close [lfByte]
  else if byte = quoteByte then machine.push byte onQuote
  else if byte = commaByte then machine.push byte .fieldStart
  else machine.push byte .unquoted

def step (machine : Machine) (byte : UInt8) : Machine :=
  match machine.phase with
  | .fieldStart => machine.stepOutside .quoted byte
  | .unquoted => machine.stepOutside .unquoted byte
  | .afterQuote => machine.stepOutside .quoted byte
  | .quoted => machine.push byte (if byte = quoteByte then .afterQuote else .quoted)
  | .pendingCr =>
      if byte = lfByte then machine.close [crByte, lfByte]
      else (machine.close [crByte]).stepOutside .quoted byte

def feed (machine : Machine) (bytes : Bytes) : Machine := bytes.foldl step machine

def start : Machine := ⟨[], [], .fieldStart⟩

theorem feed_append (machine : Machine) (before after : Bytes) :
    machine.feed (before ++ after) = (machine.feed before).feed after :=
  List.foldl_append

theorem feed_cons (machine : Machine) (byte : UInt8) (rest : Bytes) :
    machine.feed (byte :: rest) = (machine.step byte).feed rest := rfl

/-- The bytes the machine has taken in. -/
def content (machine : Machine) : Bytes :=
  (machine.records.map (fun record => record.1 ++ record.2)).flatten ++ machine.body ++
    if machine.phase = .pendingCr then [crByte] else []

theorem stepOutside_cases (machine : Machine) {onQuote : Phase} (quoting : onQuote ≠ .pendingCr)
    (byte : UInt8) :
    (byte = crByte ∧ machine.stepOutside onQuote byte = { machine with phase := .pendingCr }) ∨
    (byte = lfByte ∧ machine.stepOutside onQuote byte = machine.close [lfByte]) ∨
    ∃ phase ≠ .pendingCr, machine.stepOutside onQuote byte = machine.push byte phase := by
  rw [stepOutside]
  by_cases cr : byte = crByte
  · exact Or.inl ⟨cr, if_pos cr⟩
  · rw [if_neg cr]
    by_cases lf : byte = lfByte
    · exact Or.inr (Or.inl ⟨lf, if_pos lf⟩)
    · rw [if_neg lf]
      refine Or.inr (Or.inr ?_)
      by_cases quote : byte = quoteByte
      · exact ⟨onQuote, quoting, if_pos quote⟩
      · rw [if_neg quote]
        by_cases comma : byte = commaByte
        · exact ⟨.fieldStart, by decide, if_pos comma⟩
        · exact ⟨.unquoted, by decide, if_neg comma⟩

/-- A waiting CR taken as a terminator of its own. -/
def settle (machine : Machine) : Machine :=
  if machine.phase = .pendingCr then machine.close [crByte] else machine

theorem settle_of_ne {machine : Machine} (settled : machine.phase ≠ .pendingCr) :
    machine.settle = machine := if_neg settled

theorem settle_settled (machine : Machine) : machine.settle.phase ≠ .pendingCr := by
  rw [settle]
  by_cases waiting : machine.phase = .pendingCr
  · rw [if_pos waiting]
    exact Phase.noConfusion
  · rw [if_neg waiting]
    exact waiting

theorem step_cases (machine : Machine) (byte : UInt8) :
    (machine.phase = .pendingCr ∧ byte = lfByte ∧
      machine.step byte = machine.close [crByte, lfByte]) ∨
    (machine.step byte = { machine.settle with phase := .pendingCr } ∧ byte = crByte) ∨
    (machine.step byte = machine.settle.close [lfByte] ∧ byte = lfByte) ∨
    ∃ phase ≠ .pendingCr, machine.step byte = machine.settle.push byte phase := by
  have outside : ∀ onQuote : Phase, onQuote ≠ .pendingCr →
      machine.step byte = machine.settle.stepOutside onQuote byte →
      (machine.step byte = { machine.settle with phase := .pendingCr } ∧ byte = crByte) ∨
      (machine.step byte = machine.settle.close [lfByte] ∧ byte = lfByte) ∨
      ∃ phase ≠ .pendingCr, machine.step byte = machine.settle.push byte phase := by
    intro onQuote quoting same
    rw [same]
    rcases machine.settle.stepOutside_cases quoting byte with ⟨cr, moved⟩ | ⟨lf, closed⟩ | pushed
    · exact Or.inl ⟨moved, cr⟩
    · exact Or.inr (Or.inl ⟨closed, lf⟩)
    · exact Or.inr (Or.inr pushed)
  cases phase : machine.phase with
  | fieldStart =>
      refine Or.inr (outside .quoted (by decide) ?_)
      simp [step, settle, phase]
  | unquoted =>
      refine Or.inr (outside .unquoted (by decide) ?_)
      simp [step, settle, phase]
  | afterQuote =>
      refine Or.inr (outside .quoted (by decide) ?_)
      simp [step, settle, phase]
  | quoted =>
      refine Or.inr (Or.inr (Or.inr ⟨_, ?_, by simp only [step, settle, phase]; rfl⟩))
      split <;> decide
  | pendingCr =>
      by_cases lf : byte = lfByte
      · exact Or.inl ⟨rfl, lf, by simp [step, phase, lf]⟩
      · refine Or.inr (outside .quoted (by decide) ?_)
        simp [step, settle, phase, lf]

theorem content_settle (machine : Machine) : machine.settle.content = machine.content := by
  rw [settle]
  by_cases waiting : machine.phase = .pendingCr
  · rw [if_pos waiting]
    simp [content, close, waiting]
  · rw [if_neg waiting]

theorem content_step (machine : Machine) (byte : UInt8) :
    (machine.step byte).content = machine.content ++ [byte] := by
  have settled := machine.settle_settled
  rcases machine.step_cases byte with ⟨waiting, lf, closed⟩ | ⟨moved, cr⟩ | ⟨closed, lf⟩ |
    ⟨phase, outside, pushed⟩
  · rw [closed, lf]
    simp [content, close, waiting]
  · rw [moved, cr, ← content_settle machine]
    simp [content, settled]
  · rw [closed, lf, ← content_settle machine]
    simp [content, close, settled]
  · rw [pushed, ← content_settle machine]
    simp [content, push, settled, outside]

theorem content_feed (machine : Machine) (bytes : Bytes) :
    (machine.feed bytes).content = machine.content ++ bytes := by
  induction bytes generalizing machine with
  | nil => simp [feed]
  | cons byte bytes ih =>
      rw [feed_cons, ih, content_step, List.append_assoc, List.singleton_append]

/-! Records, the one in progress included. -/

def tail (machine : Machine) : List (Bytes × Bytes) :=
  if machine.phase = .pendingCr then [(machine.body, [crByte])]
  else if machine.body = [] then [] else [(machine.body, [])]

def allRecords (machine : Machine) : List (Bytes × Bytes) := machine.records ++ machine.tail

def fits (cap : Int) (record : Bytes × Bytes) : Bool := record.1.length ≤ cap

theorem step_allRecords (machine : Machine) (byte : UInt8) :
    ∃ last more, (machine.step byte).allRecords = machine.records ++ last :: more ∧
      machine.body <+: last.1 := by
  by_cases waiting : machine.phase = .pendingCr
  · have settled : machine.settle = machine.close [crByte] := if_pos waiting
    rcases machine.step_cases byte with ⟨_, _, closed⟩ | ⟨moved, _⟩ | ⟨closed, _⟩ |
      ⟨phase, outside, pushed⟩
    · refine ⟨(machine.body, [crByte, lfByte]), [], ?_, List.prefix_rfl⟩
      simp [closed, allRecords, tail, close]
    · refine ⟨(machine.body, [crByte]), [([], [crByte])], ?_, List.prefix_rfl⟩
      simp [moved, settled, allRecords, tail, close]
    · refine ⟨(machine.body, [crByte]), [([], [lfByte])], ?_, List.prefix_rfl⟩
      simp [closed, settled, allRecords, tail, close]
    · refine ⟨(machine.body, [crByte]), [([byte], [])], ?_, List.prefix_rfl⟩
      simp [pushed, settled, allRecords, tail, close, push, outside]
  · have settled : machine.settle = machine := settle_of_ne waiting
    rcases machine.step_cases byte with ⟨pending, _, _⟩ | ⟨moved, _⟩ | ⟨closed, _⟩ |
      ⟨phase, outside, pushed⟩
    · exact absurd pending waiting
    · refine ⟨(machine.body, [crByte]), [], ?_, List.prefix_rfl⟩
      simp [moved, settled, allRecords, tail]
    · refine ⟨(machine.body, [lfByte]), [], ?_, List.prefix_rfl⟩
      simp [closed, settled, allRecords, tail, close]
    · refine ⟨(machine.body ++ [byte], []), [], ?_, List.prefix_append _ _⟩
      simp [pushed, settled, allRecords, tail, push, outside]

theorem tail_cases (machine : Machine) :
    machine.tail = [] ∨ ∃ terminator, machine.tail = [(machine.body, terminator)] := by
  rw [tail]
  by_cases waiting : machine.phase = .pendingCr
  · exact Or.inr ⟨[crByte], if_pos waiting⟩
  · rw [if_neg waiting]
    by_cases empty : machine.body = []
    · exact Or.inl (if_pos empty)
    · exact Or.inr ⟨[], if_neg empty⟩

/-- After the records `before`, all within the cap, comes one that is not. -/
def Overlong (cap : Int) (machine : Machine) (before : List (Bytes × Bytes)) : Prop :=
  (∀ record ∈ before, fits cap record = true) ∧
    ∃ record rest, machine.allRecords = before ++ record :: rest ∧ cap < record.1.length

theorem overlong_of_body {cap : Int} {machine : Machine}
    (within : ∀ record ∈ machine.records, fits cap record = true)
    (beyond : cap < machine.body.length) (byte : UInt8) :
    (machine.step byte).Overlong cap machine.records := by
  obtain ⟨last, more, extended, grown⟩ := machine.step_allRecords byte
  have length := grown.length_le
  exact ⟨within, last, more, extended, by omega⟩

theorem overlong_step {cap : Int} {machine : Machine} {before : List (Bytes × Bytes)}
    (overlong : machine.Overlong cap before) (byte : UInt8) :
    (machine.step byte).Overlong cap before := by
  obtain ⟨within, record, rest, split, beyond⟩ := overlong
  obtain ⟨last, more, extended, grown⟩ := machine.step_allRecords byte
  have inside : ∀ rest', machine.records = before ++ record :: rest' →
      (machine.step byte).Overlong cap before := by
    intro rest' finished
    refine ⟨within, record, rest' ++ last :: more, ?_, beyond⟩
    rw [extended, finished, List.append_assoc, List.cons_append]
  rcases machine.tail_cases with none | ⟨terminator, one⟩
  · rw [allRecords, none, List.append_nil] at split
    exact inside rest split
  · rw [allRecords, one] at split
    rcases List.eq_nil_or_concat rest with empty | ⟨rest', final, shape⟩
    · subst empty
      obtain ⟨finished, same⟩ := List.append_inj' split rfl
      cases same
      rw [← finished]
      exact overlong_of_body (finished ▸ within) beyond byte
    · subst shape
      have grouped : before ++ record :: (rest' ++ [final]) =
          (before ++ record :: rest') ++ [final] := by
        simp
      rw [List.concat_eq_append, grouped] at split
      exact inside rest' (List.append_inj' split rfl).1

theorem overlong_feed {cap : Int} {machine : Machine} {before : List (Bytes × Bytes)}
    (overlong : machine.Overlong cap before) (bytes : Bytes) :
    (machine.feed bytes).Overlong cap before := by
  induction bytes generalizing machine with
  | nil => exact overlong
  | cons byte bytes ih =>
      rw [feed_cons]
      exact ih (overlong_step overlong byte)

theorem takeWhile_of_overlong {cap : Int} {machine : Machine} {before : List (Bytes × Bytes)}
    (overlong : machine.Overlong cap before) :
    machine.allRecords.takeWhile (fits cap) = before ∧
      before.length < machine.allRecords.length := by
  obtain ⟨within, record, rest, split, beyond⟩ := overlong
  have refused : fits cap record = false := decide_eq_false (by omega)
  constructor
  · rw [split, List.takeWhile_append_of_pos within, List.takeWhile_cons_of_neg (by simp [refused]),
      List.append_nil]
  · rw [split, List.length_append, List.length_cons]
    omega

end Machine

/-! The outcome of framing a stream under a cap, by the machine. -/

inductive CsvEnding where
  | finished
  | recordTooLarge (index : Nat)
  | unterminatedQuote (index : Nat)
deriving Repr, DecidableEq

/-- What a generator of records shows: what it yields and how it ends. -/
abbrev Framed := List Bytes × CsvEnding

def bom : Bytes := [0xEF, 0xBB, 0xBF]

def joinRecord (record : Bytes × Bytes) : Bytes := record.1 ++ record.2

/-- A BOM at the start is kept in the first record and does not leave field start. -/
def machineRun (stream : Bytes) : Machine :=
  if bom <+: stream then Machine.feed ⟨[], bom, .fieldStart⟩ (stream.drop bom.length)
  else Machine.start.feed stream

/-- The records of a stream: body and terminator. -/
def streamRecords (stream : Bytes) : List (Bytes × Bytes) := (machineRun stream).allRecords

def endsInQuotes (stream : Bytes) : Bool := (machineRun stream).phase = .quoted

def referenceFraming (cap : Int) (stream : Bytes) : Framed :=
  let kept := (streamRecords stream).takeWhile (Machine.fits cap)
  if kept.length < (streamRecords stream).length then
    (kept.map joinRecord, .recordTooLarge kept.length)
  else if endsInQuotes stream then
    ((machineRun stream).records.map joinRecord,
      .unterminatedQuote (machineRun stream).records.length)
  else ((streamRecords stream).map joinRecord, .finished)

theorem content_machineRun (stream : Bytes) : (machineRun stream).content = stream := by
  rw [machineRun]
  split
  · rename_i marked
    rw [Machine.content_feed]
    exact List.prefix_iff_eq_append.mp marked
  · rw [Machine.content_feed]
    rfl

theorem flatten_streamRecords (stream : Bytes) :
    ((streamRecords stream).map joinRecord).flatten = stream := by
  have records : ∀ machine : Machine,
      (machine.allRecords.map joinRecord).flatten = machine.content := by
    intro machine
    have joined : machine.records.map (fun record => record.1 ++ record.2) =
        machine.records.map joinRecord := rfl
    rw [Machine.allRecords, Machine.tail, Machine.content, joined]
    by_cases waiting : machine.phase = .pendingCr
    · simp [waiting, joinRecord]
    · by_cases empty : machine.body = []
      · simp [waiting, empty]
      · simp [waiting, empty, joinRecord]
  rw [streamRecords, records, content_machineRun]

end DecoyEngine.Io
