import DecoyEngine.DeclaredCasting.Evidence
import DecoyEngine.DeclaredCasting.WholeRun

namespace DecoyEngine.DeclaredCasting

open DecoyEngine.Data

/-! `cast_stream`, a masker and `format_stream` run as coroutines over one table
(`declared_casting/_stream.py`).  The masker works row by row and yields one chunk for each chunk
it reads, but it may read any number of chunks ahead: a run is any interleaving of pulls from
`cast_stream` and chunks handed to `format_stream`. -/

variable {V : Type u} {ρ : Type u}

/-- Where a stream stands: the chunks that are not read yet, the pairing of the cast batches, what
the masker has read and `format_stream` has not, and what was published. -/
structure StreamState (V : Type u) (ρ : Type u) where
  run : CastRun V ρ
  /-- Chunks `cast_stream` has not read. -/
  chunks : List (List (Row V))
  offset : Nat
  held : Bool
  castEmitted : Bool
  castDone : Bool
  /-- `CastPairing`, oldest first. -/
  pairing : List (CastBatch V)
  /-- Chunks the masker has read, masked, that `format_stream` has not taken. -/
  masked : List (List (Row V))
  schemaSeen : Bool
  formatEmitted : Bool
  formatDone : Bool
  published : List (List (Row V))

namespace StreamState

def start (store : QuarantineStore V ρ) (chunks : List (List (Row V))) : StreamState V ρ :=
  ⟨CastRun.start store, chunks, 0, false, false, false, [], [], false, false, false, []⟩

/-- `pairing.push(batch)`, then `yield` to the masker. -/
def handOver (state : StreamState V ρ) (mask : Row V → Row V) (batch : CastBatch V) :
    StreamState V ρ :=
  { state with
    pairing := state.pairing ++ [batch]
    masked := state.masked ++ [batch.rows.map mask] }

end StreamState

inductive StreamAction where
  | pull | emit | finish
deriving Repr, DecidableEq

section Machine

variable (approveRef approveName : String → Option String) (plan : CastPlan V ρ) (table : String)
  (mask : Row V → Row V)

/-- One round of the loop of `cast_stream`. -/
def pullChunk (state : StreamState V ρ) (chunk : List (Row V)) (rest : List (List (Row V))) :
    Except (CastRaise ρ) (StreamState V ρ) := do
  let (run, batch) ← castBatch approveRef approveName plan state.run table chunk state.offset true
  let state :=
    { state with run := run, chunks := rest, offset := state.offset + chunk.length }
  if batch.rows = [] then .ok { state with held := true }
  else .ok ({ state with castEmitted := true }.handOver mask batch)

/-- What `cast_stream` does once its chunks are used up. -/
def endCast (state : StreamState V ρ) : StreamState V ρ :=
  let state := { state with castDone := true }
  if ¬ state.castEmitted ∧ state.held then state.handOver mask ⟨[], [], state.offset, none⟩
  else state

/-- One round of the loop of `format_stream`. -/
def emitChunk (state : StreamState V ρ) (out : List (Row V)) (outs : List (List (Row V)))
    (batch : CastBatch V) (batches : List (CastBatch V)) :
    Except (CastRaise ρ) (StreamState V ρ) := do
  let formatted ← formatBatch approveRef approveName plan state.run table out batch
  let state :=
    { state with run := formatted.run, masked := outs, pairing := batches, schemaSeen := true }
  if formatted.rows = [] then .ok state
  else .ok { state with formatEmitted := true, published := state.published ++ [formatted.rows] }

/-- What `format_stream` does once the masker is used up: one empty table of the rendered
schema when nothing was published. -/
def endFormat (state : StreamState V ρ) : StreamState V ρ :=
  let state := { state with formatDone := true }
  if ¬ state.formatEmitted ∧ state.schemaSeen then
    { state with published := state.published ++ [[]] }
  else state

/-- `none` is an action that is not possible in the state. -/
def streamStep (state : StreamState V ρ) :
    StreamAction → Option (Except (CastRaise ρ) (StreamState V ρ))
  | .pull =>
      match state.chunks with
      | chunk :: rest => some (pullChunk approveRef approveName plan table mask state chunk rest)
      | [] => if state.castDone then none else some (.ok (endCast mask state))
  | .emit =>
      match state.masked, state.pairing with
      | out :: outs, batch :: batches =>
          some (emitChunk approveRef approveName plan table state out outs batch batches)
      | _, _ => none
  | .finish =>
      if state.castDone ∧ state.masked = [] ∧ ¬ state.formatDone then
        some (.ok (endFormat state))
      else none

/-- The complete runs of the stream, over every order of its steps. -/
inductive StreamRun : StreamState V ρ → Except (CastRaise ρ) (StreamState V ρ) → Prop where
  | done {state : StreamState V ρ} (finished : state.formatDone = true) :
      StreamRun state (.ok state)
  | raised {state : StreamState V ρ} {raise : CastRaise ρ} (action : StreamAction)
      (step : streamStep approveRef approveName plan table mask state action =
        some (.error raise)) :
      StreamRun state (.error raise)
  | next {state after : StreamState V ρ} {outcome : Except (CastRaise ρ) (StreamState V ρ)}
      (action : StreamAction)
      (step : streamStep approveRef approveName plan table mask state action = some (.ok after))
      (rest : StreamRun after outcome) :
      StreamRun state outcome

/-- The same table as one batch. -/
def wholeTable (store : QuarantineStore V ρ) (rows : List (Row V)) :
    Except (CastRaise ρ) (Formatted V ρ) := do
  let (run, batch) ← castBatch approveRef approveName plan (CastRun.start store) table rows 0 true
  formatBatch approveRef approveName plan run table (batch.rows.map mask) batch

end Machine

/-! Both ways leave the books in the same state: every row formatted. -/

section Agreement

variable (approveRef : String → Option String) (plan : CastPlan V ρ) (mask : Row V → Row V)
  (rows : List (Row V))

/-- The rows of the one table, under any table name. -/
def tableRow : String → Nat → Row V := fun _ => rowAt rows

def maskRow (table : String) (position : Nat) : Row V :=
  mask (typedRow plan (tableRow rows) table position)

/-- The stages of a table whose rows before `offset` are cast, `pending` not yet rendered. -/
def streamStages (table : String) (offset : Nat) (pending : List Nat) (other : String)
    (position : Nat) : RowStage :=
  if other = table ∧ position < offset then
    if position ∈ pending then .cast else .formatted
  else .unread

/-- The envelopes of the rows that the cast or the rendering rejects. -/
def rejectedRows (table : String) : List (QuarantineEnvelope V ρ) :=
  (List.range rows.length).filterMap fun position =>
    let reasons := recordsAt approveRef plan (tableRow rows) (maskRow plan mask rows) .formatted
      table position
    if reasons = [] then none else some ⟨table, position, reasons, tableRow rows table position⟩

/-- Every formatter is the inverse of its parser where it is used, and the store takes all rejected
rows: only a cell of a `fail` column can raise. -/
structure Untroubled (table : String) (store : QuarantineStore V ρ) : Prop where
  formats : ∀ position < rows.length,
    accepts approveRef plan (tableRow rows) (maskRow plan mask rows) .cast table position = true →
      ∀ col ∈ plan.formatColumns table, ∀ fmt ∈ col.fmt,
        ∀ value ∈ maskRow plan mask rows table position col.name, fmt value ≠ .error .notInverse
  takes : store.Holds (rejectedRows approveRef plan mask rows table)

/-- What stops a run over the table, whole or in chunks. -/
abbrev Stops (table : String) (store : QuarantineStore V ρ) (raise : CastRaise ρ) : Prop :=
  Cause approveRef plan (tableRow rows) (maskRow plan mask rows) store
    (streamStages table rows.length []) raise

/-- The rows both ways publish. -/
def publishedFrom (table : String) (positions : List Nat) : List (Row V) :=
  (positions.filter (accepts approveRef plan (tableRow rows) (maskRow plan mask rows) .formatted
    table)).map (renderedRow plan (maskRow plan mask rows) table)

variable {approveRef plan mask rows} {table : String}

variable {sources masked : String → Nat → Row V}

/-- Runs with the same books have the same sink, up to order, and the same evidence. -/
theorem Accounts.agree {stage : String → Nat → RowStage} {left right : CastRun V ρ}
    (first : Accounts approveRef plan sources masked stage left)
    (second : Accounts approveRef plan sources masked stage right)
    (approveName : String → Option String) :
    left.sink.Perm right.sink ∧
      left.ledger.evidence approveName true = right.ledger.evidence approveName true := by
  constructor
  · rw [List.perm_ext_iff_of_nodup first.single.of_map second.single.of_map]
    intro envelope
    rw [first.sink, second.sink]
  · obtain ⟨history, records, filtered⟩ := first.history
    obtain ⟨history', records', filtered'⟩ := second.history
    refine evidence_eq_of_agree records records' (fun table position => ?_) approveName true
    rw [filtered, filtered']

/-- A stage of a row on its way through the run. -/
def RowStage.Before (early late : RowStage) : Prop :=
  early = .unread ∨ late = .formatted ∨ early = late

theorem RowStage.Before.events {early late : RowStage} (before : RowStage.Before early late)
    {position : Nat} {event : CastEvent ρ}
    (member : event ∈ eventsAt approveRef plan sources masked early table position) :
    event ∈ eventsAt approveRef plan sources masked late table position := by
  rcases before with rfl | rfl | rfl
  · cases member
  · cases early with
    | unread => cases member
    | cast => exact List.mem_append_left _ member
    | formatted => exact member
  · exact member

theorem RowStage.Before.records {early late : RowStage} (before : RowStage.Before early late)
    {position : Nat}
    (rejected : recordsAt approveRef plan sources masked early table position ≠ []) :
    recordsAt approveRef plan sources masked late table position =
      recordsAt approveRef plan sources masked early table position := by
  rcases before with rfl | rfl | rfl
  · exact absurd rfl rejected
  · cases early with
    | unread => exact absurd rfl rejected
    | cast => rw [recordsAt, eventsAt_rejected rejected, recordsAt]
    | formatted => rfl
  · rfl

variable {store : QuarantineStore V ρ}

theorem Cause.later {stage further : String → Nat → RowStage} {raise : CastRaise ρ}
    (cause : Cause approveRef plan sources masked store stage raise)
    (before : ∀ table position, RowStage.Before (stage table position) (further table position)) :
    Cause approveRef plan sources masked store further raise := by
  cases cause with
  | cell member raises counts => exact .cell ((before _ _).events member) raises counts
  | store overdrawn failure =>
      obtain ⟨envelopes, distinct, called, refused⟩ := overdrawn
      refine .store ⟨envelopes, distinct, fun envelope member => ?_, refused⟩ failure
      obtain ⟨other, position, rejected, rfl⟩ := called envelope member
      have same := (before other position).records rejected
      exact ⟨other, position, by rwa [same], by rw [same]⟩

variable (rows) in
theorem finished_stage (table other : String) (position : Nat) :
    streamStages table rows.length [] other position = .unread ∨
      (other = table ∧ position < rows.length ∧
        streamStages table rows.length [] other position = .formatted) := by
  by_cases here : other = table ∧ position < rows.length
  · exact Or.inr ⟨here.1, here.2, by simp [streamStages, here]⟩
  · exact Or.inl (by simp only [streamStages, if_neg here])

theorem parseEvent_ne_defect {col : CastColumn V ρ} {position row : Nat} {value : Option V}
    {other column : String} :
    col.parseEvent table position value ≠ some (.defect other column row) := by
  intro same
  cases value with
  | none => cases same
  | some raw =>
      rw [CastColumn.parseEvent] at same
      split at same
      · cases same
      · split at same <;> cases same

theorem Untroubled.not_defect (untroubled : Untroubled approveRef plan mask rows table store)
    {position row : Nat} (inside : position < rows.length) {other column : String} :
    .defect other column row ∉
      eventsAt approveRef plan (tableRow rows) (maskRow plan mask rows) .formatted table
        position := by
  intro member
  rw [eventsAt, List.mem_append] at member
  rcases member with parse | format
  · obtain ⟨col, _, found⟩ := List.mem_filterMap.mp parse
    exact parseEvent_ne_defect found
  · split at format
    · rename_i accepted
      obtain ⟨col, colIn, found⟩ := List.mem_filterMap.mp format
      dsimp only at found
      rw [CastColumn.formatEvent.eq_def] at found
      split at found
      · rename_i fmt value isFmt isValue
        split at found
        · cases found
        · rename_i defect
          exact untroubled.formats position inside (decide_eq_true accepted) col colIn fmt isFmt
            value isValue defect
        · cases found
      · cases found
    · cases format

theorem isValueError_of_stops (untroubled : Untroubled approveRef plan mask rows table store)
    {raise : CastRaise ρ} (stops : Stops approveRef plan mask rows table store raise) :
    raise.isValueError = true := by
  cases stops with
  | cell member raises counts =>
      rename_i other position event raise
      cases event with
      | sentinel _ _ _ => cases raises
      | issue entry =>
          rw [CastEvent.raises] at raises
          split at raises <;> cases raises
          rfl
      | defect _ _ _ =>
          rcases finished_stage rows table other position with unread | ⟨here, inside, formatted⟩
          · rw [unread] at member
            cases member
          · rw [formatted, here] at member
            exact absurd member (untroubled.not_defect inside)
  | store overdrawn failure =>
      obtain ⟨envelopes, distinct, called, refused⟩ := overdrawn
      refine absurd (untroubled.takes.of_subperm (distinct.subperm fun envelope member => ?_))
        refused
      obtain ⟨other, position, rejected, rfl⟩ := called envelope member
      rcases finished_stage rows table other position with unread | ⟨rfl, inside, formatted⟩
      · rw [unread] at rejected
        exact absurd rfl rejected
      · rw [formatted] at rejected ⊢
        exact List.mem_filterMap.mpr ⟨position, List.mem_range.mpr inside, by simp [rejected]⟩

variable (approveRef plan mask rows table) in
/-- A batch in the pairing: accepted rows from before `offset`, with their raw rows at
hand when the table can quarantine. -/
structure Queued (offset : Nat) (batch : CastBatch V) : Prop where
  ready : ∀ position ∈ batch.positions, position < offset ∧
    accepts approveRef plan (tableRow rows) (maskRow plan mask rows) .cast table position = true
  framed : ∀ position ∈ batch.positions,
    (plan.columns table).any (fun col => col.policy = .quarantine) = true →
      batch.raw.bind (fun rows => rows[position - batch.offset]?) = some (rowAt rows position)

variable {offset : Nat}

theorem Queued.later {later : Nat} {batch : CastBatch V}
    (queued : Queued approveRef plan mask rows table offset batch) (after : offset ≤ later) :
    Queued approveRef plan mask rows table later batch where
  ready := fun position member =>
    ⟨Nat.lt_of_lt_of_le (queued.ready position member).1 after, (queued.ready position member).2⟩
  framed := queued.framed

theorem castOutcome_queued (offset count : Nat) :
    Queued approveRef plan mask rows table (offset + count)
      (castOutcome approveRef plan (tableRow rows) (maskRow plan mask rows) table offset count) where
  ready := by
    intro position member
    obtain ⟨inside, accepted⟩ := List.mem_filter.mp member
    exact ⟨(List.mem_range'_1.mp inside).2, accepted⟩
  framed := by
    intro position member quarantines
    have inside := List.mem_range'_1.mp (List.mem_filter.mp member).1
    have raw : (castOutcome approveRef plan (tableRow rows) (maskRow plan mask rows) table offset
        count).raw = some ((List.range' offset count).map (rowAt rows)) :=
      if_pos quarantines
    have start : (castOutcome approveRef plan (tableRow rows) (maskRow plan mask rows) table offset
        count).offset = offset := rfl
    have here : (List.range' offset count)[position - offset]? = some position := by
      rw [List.getElem?_range' (by omega)]
      congr 1
      omega
    rw [raw, start, Option.bind_some, List.getElem?_map, here]
    rfl

theorem castOutcome_distinct (offset count : Nat) :
    (castOutcome approveRef plan (tableRow rows) (maskRow plan mask rows) table offset
      count).positions.Nodup :=
  List.Nodup.filter _ List.nodup_range'

theorem publishedFrom_cast (positions : List Nat) :
    publishedFrom approveRef plan mask rows table (positions.filter (accepts approveRef plan
        (tableRow rows) (maskRow plan mask rows) .cast table)) =
      publishedFrom approveRef plan mask rows table positions := by
  rw [publishedFrom, List.filter_filter, publishedFrom]
  congr 1
  refine List.filter_congr fun position _ => ?_
  cases later : accepts approveRef plan (tableRow rows) (maskRow plan mask rows) .formatted table
      position with
  | false => rfl
  | true =>
      rw [Bool.true_and]
      by_contra rejected
      have parse : ¬ quarantineRecords approveRef
          (parseEvents plan (tableRow rows) table position) = [] := fun clean =>
        rejected (decide_eq_true clean)
      have same : eventsAt approveRef plan (tableRow rows) (maskRow plan mask rows) .formatted
          table position = parseEvents plan (tableRow rows) table position :=
        eventsAt_rejected parse
      rw [accepts, recordsAt, same, decide_eq_true_eq] at later
      exact parse later

variable {pending : List Nat}

theorem relabel_cast {count : Nat} (before : ∀ position ∈ pending, position < offset)
    (other : String) (position : Nat) :
    eventsAt approveRef plan (tableRow rows) (maskRow plan mask rows)
        (advance (streamStages table offset pending) table (List.range' offset count) .cast other
          position) other position =
      eventsAt approveRef plan (tableRow rows) (maskRow plan mask rows)
        (streamStages table (offset + count) (pending ++ (castOutcome approveRef plan
          (tableRow rows) (maskRow plan mask rows) table offset count).positions) other position)
        other position := by
  by_cases here : other = table
  · subst here
    by_cases inside : position ∈ List.range' offset count
    · have range := List.mem_range'_1.mp inside
      have old : position ∉ pending := fun member => by
        have below := before position member
        omega
      rw [advance_at _ _ inside]
      by_cases accepted : accepts approveRef plan (tableRow rows) (maskRow plan mask rows) .cast
          other position = true
      · have waits : position ∈ (castOutcome approveRef plan (tableRow rows)
            (maskRow plan mask rows) other offset count).positions :=
          List.mem_filter.mpr ⟨inside, accepted⟩
        simp [streamStages, range.2, waits]
      · have through : position ∉ (castOutcome approveRef plan (tableRow rows)
            (maskRow plan mask rows) other offset count).positions := fun member =>
          accepted (List.mem_filter.mp member).2
        have rejected : ¬ quarantineRecords approveRef
            (parseEvents plan (tableRow rows) other position) = [] := fun clean =>
          accepted (decide_eq_true clean)
        simp [streamStages, range.2, old, through, eventsAt_rejected rejected]
    · have outside : position ∉ (castOutcome approveRef plan (tableRow rows)
          (maskRow plan mask rows) other offset count).positions := fun member =>
        inside (List.mem_filter.mp member).1
      have apart : (position < offset) ↔ (position < offset + count) := by
        have range : ¬ (offset ≤ position ∧ position < offset + count) := fun both =>
          inside (List.mem_range'_1.mpr both)
        omega
      rw [advance_elsewhere _ _ fun both => inside both.2]
      simp [streamStages, outside, apart]
  · rw [advance_elsewhere _ _ fun both => here both.1]
    simp [streamStages, here]

theorem relabel_formatted {first : List Nat} (distinct : (first ++ pending).Nodup)
    (before : ∀ position ∈ first, position < offset) (other : String) (position : Nat) :
    advance (streamStages table offset (first ++ pending)) table first .formatted other position =
      streamStages table offset pending other position := by
  by_cases here : other = table
  · subst here
    by_cases inside : position ∈ first
    · have below := before position inside
      have gone : position ∉ pending := fun member =>
        (List.nodup_append.mp distinct).2.2 position inside position member rfl
      rw [advance_at _ _ inside]
      simp [streamStages, below, gone]
    · rw [advance_elsewhere _ _ fun both => inside both.2]
      simp [streamStages, inside]
  · rw [advance_elsewhere _ _ fun both => here both.1]
    simp [streamStages, here]

theorem advance_before {positions : List Nat} {next : RowStage}
    (within : ∀ position ∈ positions, position < rows.length) (bound : offset ≤ rows.length)
    (other : String) (position : Nat) :
    RowStage.Before (advance (streamStages table offset pending) table positions next other position)
      (streamStages table rows.length [] other position) := by
  by_cases here : other = table ∧ position < rows.length
  · exact Or.inr (Or.inl (by simp [streamStages, here]))
  · refine Or.inl ?_
    have outside : ¬ (other = table ∧ position ∈ positions) := fun both =>
      here ⟨both.1, within position both.2⟩
    have early : ¬ (other = table ∧ position < offset) := fun both =>
      here ⟨both.1, both.2.trans_le bound⟩
    rw [advance_elsewhere _ _ outside, streamStages, if_neg early]

theorem cast_step (approveName : String → Option String) {run : CastRun V ρ} {count : Nat}
    (accounts : Accounts approveRef plan (tableRow rows) (maskRow plan mask rows)
      (streamStages table offset pending) run) (before : ∀ position ∈ pending, position < offset)
    (within : offset + count ≤ rows.length) :
    (∃ raise, castBatch approveRef approveName plan run table
        ((List.range' offset count).map (tableRow rows table)) offset true = .error raise ∧
      Stops approveRef plan mask rows table run.store raise) ∨
    ∃ next, castBatch approveRef approveName plan run table
        ((List.range' offset count).map (tableRow rows table)) offset true =
          .ok (next, castOutcome approveRef plan (tableRow rows) (maskRow plan mask rows) table
            offset count) ∧
      next.store = run.store ∧
      Accounts approveRef plan (tableRow rows) (maskRow plan mask rows)
        (streamStages table (offset + count) (pending ++ (castOutcome approveRef plan
          (tableRow rows) (maskRow plan mask rows) table offset count).positions)) next := by
  have unread : ∀ position ∈ List.range' offset count,
      streamStages table offset pending table position = .unread := by
    intro position member
    have range := List.mem_range'_1.mp member
    have later : ¬ position < offset := by omega
    simp [streamStages, later]
  have inside : ∀ position ∈ List.range' offset count, position < rows.length := by
    intro position member
    have range := List.mem_range'_1.mp member
    omega
  rcases castBatch_cases approveName accounts unread with ⟨raise, raised, cause⟩ |
    ⟨next, cast, _, store, accounts'⟩
  · exact Or.inl ⟨raise, raised, cause.later (advance_before inside (by omega))⟩
  · exact Or.inr ⟨next, cast, store, accounts'.relabel (relabel_cast before)⟩

theorem format_step (approveName : String → Option String) {run : CastRun V ρ} {batch : CastBatch V}
    (accounts : Accounts approveRef plan (tableRow rows) (maskRow plan mask rows)
      (streamStages table offset (batch.positions ++ pending)) run)
    (distinct : (batch.positions ++ pending).Nodup) (within : offset ≤ rows.length)
    (queued : Queued approveRef plan mask rows table offset batch) :
    (∃ raise, formatBatch approveRef approveName plan run table
        (batch.positions.map (maskRow plan mask rows table)) batch = .error raise ∧
      Stops approveRef plan mask rows table run.store raise) ∨
    ∃ formatted, formatBatch approveRef approveName plan run table
        (batch.positions.map (maskRow plan mask rows table)) batch = .ok formatted ∧
      formatted.rows = publishedFrom approveRef plan mask rows table batch.positions ∧
      formatted.run.store = run.store ∧
      Accounts approveRef plan (tableRow rows) (maskRow plan mask rows)
        (streamStages table offset pending) formatted.run := by
  have waiting : Waiting approveRef plan (tableRow rows) (maskRow plan mask rows)
      (streamStages table offset (batch.positions ++ pending)) table batch := by
    refine ⟨(List.nodup_append.mp distinct).1, fun position member => ?_, queued.framed⟩
    obtain ⟨below, accepted⟩ := queued.ready position member
    refine ⟨?_, accepted⟩
    simp [streamStages, below, member]
  have inside : ∀ position ∈ batch.positions, position < rows.length := fun position member =>
    (queued.ready position member).1.trans_le within
  rcases formatBatch_cases approveName accounts waiting with ⟨raise, raised, cause⟩ |
    ⟨formatted, rendered, published, _, _, _, store, accounts'⟩
  · exact Or.inl ⟨raise, raised, cause.later (advance_before inside within)⟩
  · refine Or.inr ⟨formatted, rendered, published, store,
      accounts'.relabel fun other position => ?_⟩
    rw [relabel_formatted distinct fun position member => (queued.ready position member).1]

theorem castOutcome_masked (table : String) (offset count : Nat) :
    (castOutcome approveRef plan (tableRow rows) (maskRow plan mask rows) table offset
      count).rows.map mask =
      (castOutcome approveRef plan (tableRow rows) (maskRow plan mask rows) table offset
        count).positions.map (maskRow plan mask rows table) := by
  simp only [castOutcome, List.map_map]
  rfl

theorem start_accounts (table : String) (store : QuarantineStore V ρ) :
    Accounts approveRef plan (tableRow rows) (maskRow plan mask rows) (streamStages table 0 [])
      (CastRun.start store) :=
  (Accounts.start store).relabel fun other position => by simp [streamStages]

variable (approveRef plan mask rows table) in
theorem wholeTable_cases (approveName : String → Option String) (store : QuarantineStore V ρ) :
    (∃ raise, wholeTable approveRef approveName plan table mask store rows = .error raise ∧
      Stops approveRef plan mask rows table store raise) ∨
    ∃ formatted, wholeTable approveRef approveName plan table mask store rows = .ok formatted ∧
      formatted.rows = publishedFrom approveRef plan mask rows table (List.range' 0 rows.length) ∧
      formatted.run.store = store ∧
      Accounts approveRef plan (tableRow rows) (maskRow plan mask rows)
        (streamStages table rows.length []) formatted.run := by
  have source : rows = (List.range' 0 rows.length).map (tableRow rows table) :=
    (map_rowAt rows).symm
  have start : Accounts approveRef plan (tableRow rows) (maskRow plan mask rows)
      (streamStages table 0 []) (CastRun.start store) := start_accounts table store
  have within : 0 + rows.length ≤ rows.length := by omega
  rcases cast_step approveName start (by simp) within with ⟨raise, raised, stops⟩ |
    ⟨next, cast, kept, accounts⟩
  · rw [← source] at raised
    refine Or.inl ⟨raise, ?_, stops⟩
    rw [wholeTable, raised]
    rfl
  · rw [← source] at cast
    have whole : wholeTable approveRef approveName plan table mask store rows =
        formatBatch approveRef approveName plan next table
          ((castOutcome approveRef plan (tableRow rows) (maskRow plan mask rows) table 0
            rows.length).positions.map (maskRow plan mask rows table))
          (castOutcome approveRef plan (tableRow rows) (maskRow plan mask rows) table 0
            rows.length) := by
      rw [← castOutcome_masked, wholeTable, cast]
      rfl
    rw [Nat.zero_add, List.nil_append, ← List.append_nil (castOutcome approveRef plan
      (tableRow rows) (maskRow plan mask rows) table 0 rows.length).positions] at accounts
    have distinct : ((castOutcome approveRef plan (tableRow rows) (maskRow plan mask rows) table 0
        rows.length).positions ++ []).Nodup := by
      rw [List.append_nil]
      exact castOutcome_distinct 0 rows.length
    have queued : Queued approveRef plan mask rows table rows.length (castOutcome approveRef plan
        (tableRow rows) (maskRow plan mask rows) table 0 rows.length) :=
      (castOutcome_queued 0 rows.length).later (by omega)
    have store' : next.store = store := kept
    rw [whole]
    rcases format_step approveName accounts distinct (Nat.le_refl _) queued with
      ⟨raise, raised, stops⟩ | ⟨formatted, rendered, published, kept', accounts'⟩
    · rw [store'] at stops
      exact Or.inl ⟨raise, raised, stops⟩
    · exact Or.inr ⟨formatted, rendered, published.trans (publishedFrom_cast _),
        kept'.trans store', accounts'⟩

end Agreement

end DecoyEngine.DeclaredCasting
