import DecoyEngine.Data.Checked
import DecoyEngine.DeclaredCasting.Rows
import Mathlib.Algebra.Order.BigOperators.Group.List
import Mathlib.Data.List.Perm.Subperm

namespace DecoyEngine.DeclaredCasting

open DecoyEngine.Data

/-! Every source row is unread, cast or formatted.  `Accounts` says what a run holds when each
row has got as far as `stage` says: the ledger has recorded exactly the events of the
stages the row went through, and the sink holds one envelope for each row with a
quarantined event.  Both stages are one `advance`. -/

inductive RowStage where
  | unread | cast | formatted
deriving Repr, DecidableEq

namespace QuarantineStore

variable {V : Type u} {ρ : Type u} {store : QuarantineStore V ρ}

variable (store) in
/-- The store takes these rows: it opens, each of them can be encoded and is written, and together
they stay within the budget.  The order they come in does not matter. -/
structure Holds (envelopes : List (QuarantineEnvelope V ρ)) : Prop where
  opens : envelopes ≠ [] → store.opens = true
  encodes : ∀ envelope ∈ envelopes, store.lineLength envelope ≠ none
  serves : ∀ number < envelopes.length, store.serves number = true
  rows : envelopes.length ≤ store.maxRows
  bytes : store.plainBytes envelopes ≤ store.maxBytes

theorem holds_nil : store.Holds [] where
  opens := fun filled => absurd rfl filled
  encodes := nofun
  serves := nofun
  rows := Nat.zero_le _
  bytes := Nat.zero_le _

theorem Holds.of_subperm {part whole : List (QuarantineEnvelope V ρ)} (holds : store.Holds whole)
    (inside : part.Subperm whole) : store.Holds part where
  opens := fun filled => holds.opens fun empty => by
    rw [empty, List.subperm_nil] at inside
    exact filled inside
  encodes := fun envelope member => holds.encodes envelope (inside.subset member)
  serves := fun number less => holds.serves number (less.trans_le inside.length_le)
  rows := inside.length_le.trans holds.rows
  bytes := by
    obtain ⟨list, perm, sublist⟩ := inside
    refine le_trans ?_ holds.bytes
    rw [plainBytes, ← (perm.map _).sum_eq]
    exact (sublist.map _).sum_le_sum fun _ _ => Nat.zero_le _

theorem plainBytes_concat (written : List (QuarantineEnvelope V ρ))
    (envelope : QuarantineEnvelope V ρ) :
    store.plainBytes (written ++ [envelope]) =
      store.plainBytes written + (store.lineLength envelope).getD 0 := by
  simp [plainBytes]

/-- A row is refused exactly when the store does not take it with those before it. -/
theorem refusal_eq_none {written : List (QuarantineEnvelope V ρ)} (held : store.Holds written)
    (opens : store.opens = true) (envelope : QuarantineEnvelope V ρ) :
    store.refusal written envelope = none ↔ store.Holds (written ++ [envelope]) := by
  rw [refusal.eq_def]
  cases encoded : store.lineLength envelope with
  | none =>
      refine iff_of_false nofun fun holds => ?_
      exact holds.encodes envelope (by simp) encoded
  | some length =>
      dsimp only
      constructor
      · intro accepted
        split at accepted
        · cases accepted
        · rename_i within
          split at accepted
          · rename_i served
            refine ⟨fun _ => opens, ?_, ?_, ?_, ?_⟩
            · intro other member
              rcases List.mem_append.mp member with earlier | here
              · exact held.encodes other earlier
              · rw [List.mem_singleton.mp here, encoded]
                exact Option.some_ne_none _
            · intro number less
              rw [List.length_append, List.length_singleton] at less
              by_cases earlier : number < written.length
              · exact held.serves number earlier
              · rwa [show number = written.length by omega]
            · rw [List.length_append, List.length_singleton]
              omega
            · rw [plainBytes_concat, encoded, Option.getD_some]
              omega
          · cases accepted
      · intro holds
        have rows := holds.rows
        have bytes := holds.bytes
        rw [List.length_append, List.length_singleton] at rows
        rw [plainBytes_concat, encoded, Option.getD_some] at bytes
        have served := holds.serves written.length (by simp)
        rw [if_neg (by omega), if_pos served]

end QuarantineStore

section Events

variable {V : Type u} {ρ : Type u}

/-- What a cell of a stage can leave in the ledger. -/
structure StageCells (table : String) (stage : Stage)
    (cell : CastColumn V ρ → Nat → Option (CastEvent ρ)) : Prop where
  entry : ∀ {col position event}, cell col position = some event →
    event = .sentinel table col.name position ∨
      (∃ reason, event = .issue ⟨table, col.name, position, stage, reason, col.policy⟩) ∨
      event = .defect table col.name position

variable {table : String} {stage : Stage} {cell : CastColumn V ρ → Nat → Option (CastEvent ρ)}

theorem StageCells.place (cells : StageCells table stage cell) {col : CastColumn V ρ}
    {position : Nat} {event : CastEvent ρ} (found : cell col position = some event) :
    event.place = (table, position) := by
  rcases cells.entry found with sentinel | ⟨reason, issue⟩ | defect
  · rw [sentinel]
    rfl
  · rw [issue]
    rfl
  · rw [defect]
    rfl

theorem StageCells.key (cells : StageCells table stage cell) {col : CastColumn V ρ}
    {position : Nat} {event : CastEvent ρ} (found : cell col position = some event)
    {key : IssueKey} (keyed : event.issueKey = some key) :
    key = (table, col.name, position, stage) := by
  rcases cells.entry found with sentinel | ⟨reason, issue⟩ | defect
  · rw [sentinel] at keyed
    cases keyed
  · rw [issue] at keyed
    exact (Option.some.inj keyed).symm
  · rw [defect] at keyed
    cases keyed

theorem StageCells.policy (cells : StageCells table stage cell) {col : CastColumn V ρ}
    {position : Nat} {event : CastEvent ρ} (found : cell col position = some event)
    {approveRef : String → Option String} {record : ReasonRecord ρ}
    (quarantined : event.quarantineRecord approveRef = some record) :
    col.policy = .quarantine := by
  rcases cells.entry found with sentinel | ⟨reason, issue⟩ | defect
  · rw [sentinel] at quarantined
    cases quarantined
  · rw [issue] at quarantined
    by_contra other
    simp [CastEvent.quarantineRecord, other] at quarantined
  · rw [defect] at quarantined
    cases quarantined

theorem StageCells.keys_nodup (cells : StageCells table stage cell) {cols : List (CastColumn V ρ)}
    (names : (cols.map CastColumn.name).Nodup) {positions : List Nat}
    (distinct : positions.Nodup) :
    ((gridEntries cell cols positions).filterMap CastEvent.issueKey).Nodup := by
  have keyed : ∀ {col : CastColumn V ρ} {key : IssueKey},
      key ∈ (positions.filterMap (cell col)).filterMap CastEvent.issueKey →
        ∃ position, key = (table, col.name, position, stage) := by
    intro col key member
    obtain ⟨event, eventIn, found⟩ := List.mem_filterMap.mp member
    obtain ⟨position, _, left⟩ := List.mem_filterMap.mp eventIn
    exact ⟨position, cells.key left found⟩
  rw [gridEntries, List.filterMap_flatMap, List.nodup_flatMap]
  constructor
  · intro col _
    rw [List.filterMap_filterMap]
    refine distinct.filterMap fun first second key firstKey secondKey => ?_
    obtain ⟨event, found, key₁⟩ := Option.bind_eq_some_iff.mp firstKey
    obtain ⟨event', found', key₂⟩ := Option.bind_eq_some_iff.mp secondKey
    have same := (cells.key found key₁).symm.trans (cells.key found' key₂)
    simpa using same
  · refine (List.pairwise_map.mp names).imp fun {first second} different => ?_
    intro key firstIn secondIn
    obtain ⟨position, same⟩ := keyed firstIn
    obtain ⟨position', same'⟩ := keyed secondIn
    rw [same] at same'
    simp only [Prod.mk.injEq] at same'
    exact different same'.2.1

theorem parse_cells (table : String) (rows : Nat → Row V) :
    StageCells table .parse (fun (col : CastColumn V ρ) position =>
      col.parseEvent table position (rows position col.name)) where
  entry := by
    intro col position event found
    cases raw : rows position col.name with
    | none => simp [raw, CastColumn.parseEvent] at found
    | some lexeme =>
        simp only [raw, CastColumn.parseEvent] at found
        by_cases sentinel : col.isSentinel lexeme = true
        · rw [if_pos sentinel] at found
          exact Or.inl (Option.some.inj found).symm
        · rw [if_neg sentinel] at found
          cases parsed : col.parse lexeme with
          | ok value => simp [parsed] at found
          | error reason =>
              rw [parsed] at found
              exact Or.inr (Or.inl ⟨reason, (Option.some.inj found).symm⟩)

theorem format_cells (table : String) (rows : Nat → Row V) :
    StageCells table .format (fun (col : CastColumn V ρ) position =>
      col.formatEvent table position (rows position col.name)) where
  entry := by
    intro col position event found
    simp only [CastColumn.formatEvent] at found
    cases fmt : col.fmt with
    | none => simp [fmt] at found
    | some render =>
        cases value : rows position col.name with
        | none => simp [fmt, value] at found
        | some value' =>
            simp only [fmt, value] at found
            cases rendered : render value' with
            | ok text => simp [rendered] at found
            | error failure =>
                rw [rendered] at found
                cases failure with
                | notInverse => exact Or.inr (Or.inr (Option.some.inj found).symm)
                | reason reason => exact Or.inr (Or.inl ⟨reason, (Option.some.inj found).symm⟩)

end Events

section Books

variable {V : Type u} {ρ : Type u} (approveRef : String → Option String) (plan : CastPlan V ρ)
  (sources masked : String → Nat → Row V)

def quarantineRecords (events : List (CastEvent ρ)) : List (ReasonRecord ρ) :=
  events.filterMap (CastEvent.quarantineRecord approveRef)

/-- The events of a row's cast, in column order. -/
def parseEvents (table : String) (position : Nat) : List (CastEvent ρ) :=
  rowEntries (fun col position => col.parseEvent table position (sources table position col.name))
    (plan.columns table) position

/-- The events of rendering a masked row, in column order. -/
def formatEvents (table : String) (position : Nat) : List (CastEvent ρ) :=
  rowEntries (fun col position => col.formatEvent table position (masked table position col.name))
    (plan.formatColumns table) position

/-- Everything the row has left in the ledger; a row its cast rejected is not rendered. -/
def eventsAt (stage : RowStage) (table : String) (position : Nat) : List (CastEvent ρ) :=
  match stage with
  | .unread => []
  | .cast => parseEvents plan sources table position
  | .formatted =>
      parseEvents plan sources table position ++
        if quarantineRecords approveRef (parseEvents plan sources table position) = [] then
          formatEvents plan masked table position
        else []

def recordsAt (stage : RowStage) (table : String) (position : Nat) : List (ReasonRecord ρ) :=
  quarantineRecords approveRef (eventsAt approveRef plan sources masked stage table position)

def QuarantineEnvelope.place {V : Type u} {ρ : Type u} (envelope : QuarantineEnvelope V ρ) :
    String × Nat :=
  (envelope.table, envelope.position)

/-- The envelope of a row that some stage up to its own rejected. -/
def Called (stage : String → Nat → RowStage) (envelope : QuarantineEnvelope V ρ) : Prop :=
  ∃ table position,
    recordsAt approveRef plan sources masked (stage table position) table position ≠ [] ∧
      envelope = ⟨table, position,
        recordsAt approveRef plan sources masked (stage table position) table position,
        sources table position⟩

/-- The ledger has recorded exactly the events of the stages the rows went through. -/
def Booked (stage : String → Nat → RowStage) (ledger : CastIssueLedger ρ) : Prop :=
  ∃ history, ledger.Records approveRef history ∧ ∀ table position,
    history.filter (CastEvent.isAt table position) =
      eventsAt approveRef plan sources masked (stage table position) table position

/-- What the books of a run are worth: its ledger has recorded the events of the stages so far, no
row that went through has failed, and the sink holds an envelope for exactly the rows that were
called out, each once. -/
structure Accounts (stage : String → Nat → RowStage) (run : CastRun V ρ) : Prop where
  history : Booked approveRef plan sources masked stage run.ledger
  passing : ∀ table position,
    (eventsAt approveRef plan sources masked (stage table position) table position).any
      CastEvent.isFail = false
  sink : ∀ envelope, envelope ∈ run.sink ↔ Called approveRef plan sources masked stage envelope
  single : (run.sink.map QuarantineEnvelope.place).Nodup
  written : ∀ place, place ∈ run.written ↔ place ∈ run.sink.map QuarantineEnvelope.place
  opened : run.opened = true → run.store.opens = true
  holds : run.store.Holds run.sink

/-- The store cannot take the rows that have to be quarantined. -/
def Overdrawn (store : QuarantineStore V ρ) (stage : String → Nat → RowStage) : Prop :=
  ∃ envelopes : List (QuarantineEnvelope V ρ), envelopes.Nodup ∧
    (∀ envelope ∈ envelopes, Called approveRef plan sources masked stage envelope) ∧
    ¬ store.Holds envelopes

/-- What can make a run raise while its rows get as far as `stage` says: a cell, or the store. -/
inductive Cause (store : QuarantineStore V ρ) (stage : String → Nat → RowStage) :
    CastRaise ρ → Prop where
  | cell {table : String} {position : Nat} {event : CastEvent ρ}
      {raise : CastCounts → CastRaise ρ}
      (member : event ∈
        eventsAt approveRef plan sources masked (stage table position) table position)
      (raises : event.raises = some raise) (counts : CastCounts) : Cause store stage (raise counts)
  | store (overdrawn : Overdrawn approveRef plan sources masked store stage)
      (failure : StoreFailure) : Cause store stage (.quarantineError failure)

/-- The rows at `positions` of one table move on to `next`. -/
def advance (stage : String → Nat → RowStage) (table : String) (positions : List Nat)
    (next : RowStage) : String → Nat → RowStage :=
  fun other position =>
    if other = table ∧ position ∈ positions then next else stage other position

theorem advance_at (stage : String → Nat → RowStage) {table : String} {positions : List Nat}
    (next : RowStage) {position : Nat} (member : position ∈ positions) :
    advance stage table positions next table position = next :=
  if_pos ⟨rfl, member⟩

theorem advance_elsewhere (stage : String → Nat → RowStage) {table other : String}
    {positions : List Nat} (next : RowStage) {position : Nat}
    (outside : ¬ (other = table ∧ position ∈ positions)) :
    advance stage table positions next other position = stage other position :=
  if_neg outside

/-- The envelope a run writes for a rejected row. -/
def rejectedEnvelope (ledger : CastIssueLedger ρ) (table : String) (raw : Option (List (Row V)))
    (offset position : Nat) : QuarantineEnvelope V ρ :=
  ⟨table, position, ledger.rowReasons table position,
    (raw.bind (fun rows => rows[position - offset]?)).getD (fun _ => none)⟩

/-- The run after it wrote these envelopes. -/
structure Wrote (run : CastRun V ρ) (envelopes : List (QuarantineEnvelope V ρ))
    (next : CastRun V ρ) : Prop where
  ledger : next.ledger = run.ledger
  whole : next.whole = run.whole
  store : next.store = run.store
  sink : next.sink = run.sink ++ envelopes
  written : ∀ place, place ∈ next.written ↔
    place ∈ run.written ∨ place ∈ envelopes.map QuarantineEnvelope.place
  opened : next.opened = true → next.store.opens = true

section Write

variable (run : CastRun V ρ) {table : String} {positions : List Nat} {raw : Option (List (Row V))}
  {offset : Nat}

/-- Fresh positions are written one envelope each, in order, unless the store does not take them
all. -/
theorem foldlM_writeRow (distinct : positions.Nodup)
    (fresh : ∀ position ∈ positions, (table, position) ∉ run.written)
    (held : run.store.Holds run.sink) (opens : run.store.opens = true) :
    (¬ run.store.Holds (run.sink ++ positions.map (rejectedEnvelope run.ledger table raw offset)) ∧
      ∃ failure, positions.foldlM (writeRow table raw offset) run =
        .error (.quarantineError failure)) ∨
    (run.store.Holds (run.sink ++ positions.map (rejectedEnvelope run.ledger table raw offset)) ∧
      ∃ next, positions.foldlM (writeRow table raw offset) run = .ok next ∧
        Wrote run (positions.map (rejectedEnvelope run.ledger table raw offset)) next) := by
  induction positions generalizing run with
  | nil =>
      refine Or.inr ⟨by simpa using held, run, rfl, rfl, rfl, rfl, by simp, by simp, fun _ => opens⟩
  | cons position positions ih =>
      obtain ⟨new, distinct⟩ := List.nodup_cons.mp distinct
      have first : (table, position) ∉ run.written := fresh position List.mem_cons_self
      have accepted := QuarantineStore.refusal_eq_none held opens
        (rejectedEnvelope run.ledger table raw offset position)
      rw [List.foldlM_cons, List.map_cons]
      cases refused : run.store.refusal run.sink
          (rejectedEnvelope run.ledger table raw offset position) with
      | some failure =>
          have step : writeRow table raw offset run position =
              .error (.quarantineError failure) := by
            simp only [writeRow, if_neg first]
            rw [← rejectedEnvelope, refused]
          refine Or.inl ⟨fun holds => ?_, failure, by rw [step]; rfl⟩
          have part : (run.sink ++ [rejectedEnvelope run.ledger table raw offset position]).Subperm
              (run.sink ++ rejectedEnvelope run.ledger table raw offset position ::
                positions.map (rejectedEnvelope run.ledger table raw offset)) :=
            (List.Sublist.append_left (by simp) _).subperm
          rw [accepted.mpr (holds.of_subperm part)] at refused
          cases refused
      | none =>
          have step : writeRow table raw offset run position =
              .ok { run with
                written := (table, position) :: run.written
                sink := run.sink ++ [rejectedEnvelope run.ledger table raw offset position] } := by
            simp only [writeRow, if_neg first]
            rw [← rejectedEnvelope, refused]
          have later : ∀ other ∈ positions, (table, other) ∉ (table, position) :: run.written := by
            intro other member
            rw [List.mem_cons, Prod.mk.injEq, not_or]
            exact ⟨fun same => new (same.2 ▸ member), fresh other (List.mem_cons_of_mem _ member)⟩
          have rest := ih { run with
            written := (table, position) :: run.written
            sink := run.sink ++ [rejectedEnvelope run.ledger table raw offset position] }
            distinct later (accepted.mp refused) opens
          rw [step]
          simp only [List.append_assoc, List.singleton_append] at rest
          refine rest.imp_right ?_
          rintro ⟨holds, next, ran, wrote⟩
          refine ⟨holds, next, ran, wrote.ledger, wrote.whole, wrote.store, ?_, ?_, wrote.opened⟩
          · rw [wrote.sink, List.append_assoc, List.singleton_append]
          · intro place
            rw [wrote.written, List.map_cons, List.mem_cons, List.mem_cons]
            simp only [QuarantineEnvelope.place, rejectedEnvelope]
            tauto

theorem writeRejected_cases (distinct : positions.Nodup)
    (fresh : ∀ position ∈ positions, (table, position) ∉ run.written)
    (held : run.store.Holds run.sink) (opened : run.opened = true → run.store.opens = true) :
    (¬ run.store.Holds (run.sink ++ positions.map (rejectedEnvelope run.ledger table raw offset)) ∧
      ∃ failure, writeRejected run table positions raw offset =
        .error (.quarantineError failure)) ∨
    (run.store.Holds (run.sink ++ positions.map (rejectedEnvelope run.ledger table raw offset)) ∧
      ∃ next, writeRejected run table positions raw offset = .ok next ∧
        Wrote run (positions.map (rejectedEnvelope run.ledger table raw offset)) next) := by
  rw [writeRejected]
  split
  · rename_i none
    rw [none]
    exact Or.inr ⟨by simpa using held, run, rfl, rfl, rfl, rfl, by simp, by simp, opened⟩
  · rename_i some
    rw [writeRows, openSession]
    split
    · rename_i isOpen
      exact foldlM_writeRow run distinct fresh held (opened isOpen)
    · split
      · rename_i opens
        refine (foldlM_writeRow { run with opened := true } distinct fresh held opens).imp_right ?_
        rintro ⟨holds, next, ran, wrote⟩
        exact ⟨holds, next, ran, wrote.ledger, wrote.whole, wrote.store, wrote.sink, wrote.written,
          wrote.opened⟩
      · rename_i closed
        refine Or.inl ⟨fun holds => closed (holds.opens ?_), .opening, rfl⟩
        simp [some]

end Write

variable {approveRef plan sources masked}

theorem rowRecords_of_filter {history events : List (CastEvent ρ)} {table : String}
    {position : Nat} (filtered : history.filter (CastEvent.isAt table position) = events) :
    rowRecords approveRef history table position = quarantineRecords approveRef events := by
  rw [rowRecords, filtered, quarantineRecords]

theorem Accounts.start (store : QuarantineStore V ρ) :
    Accounts approveRef plan sources masked (fun _ _ => .unread) (CastRun.start store) where
  history := ⟨[], CastIssueLedger.records_empty, fun _ _ => rfl⟩
  passing := fun _ _ => rfl
  sink := by simp [CastRun.start, Called, recordsAt, eventsAt, quarantineRecords]
  single := by simp [CastRun.start]
  written := by simp [CastRun.start]
  opened := nofun
  holds := QuarantineStore.holds_nil

theorem Accounts.relabel {stage other : String → Nat → RowStage} {run : CastRun V ρ}
    (accounts : Accounts approveRef plan sources masked stage run)
    (same : ∀ table position,
      eventsAt approveRef plan sources masked (stage table position) table position =
        eventsAt approveRef plan sources masked (other table position) table position) :
    Accounts approveRef plan sources masked other run := by
  have records : ∀ table position,
      recordsAt approveRef plan sources masked (stage table position) table position =
        recordsAt approveRef plan sources masked (other table position) table position := by
    intro table position
    rw [recordsAt, same, recordsAt]
  obtain ⟨history, described, filtered⟩ := accounts.history
  refine ⟨⟨history, described, ?_⟩, ?_, ?_, accounts.single, accounts.written, accounts.opened,
    accounts.holds⟩
  · intro table position
    rw [filtered, same]
  · intro table position
    rw [← same]
    exact accounts.passing table position
  · intro envelope
    simp only [Called, ← records]
    exact accounts.sink envelope

theorem Accounts.setWhole {stage : String → Nat → RowStage} {run : CastRun V ρ}
    (accounts : Accounts approveRef plan sources masked stage run)
    (whole : Dict String (CastBatch V)) :
    Accounts approveRef plan sources masked stage { run with whole := whole } :=
  ⟨accounts.history, accounts.passing, accounts.sink, accounts.single, accounts.written,
    accounts.opened, accounts.holds⟩

theorem Booked.isQuarantined {stage : String → Nat → RowStage} {ledger : CastIssueLedger ρ}
    (booked : Booked approveRef plan sources masked stage ledger) (table : String)
    (position : Nat) :
    ledger.isQuarantined table position = true ↔
      recordsAt approveRef plan sources masked (stage table position) table position ≠ [] := by
  obtain ⟨history, records, filtered⟩ := booked
  rw [records.isQuarantined, rowRecords_of_filter (filtered table position)]
  rfl

theorem Booked.rowReasons {stage : String → Nat → RowStage} {ledger : CastIssueLedger ρ}
    (booked : Booked approveRef plan sources masked stage ledger) (table : String)
    (position : Nat) :
    ledger.rowReasons table position =
      recordsAt approveRef plan sources masked (stage table position) table position := by
  obtain ⟨history, records, filtered⟩ := booked
  rw [records.rowReasons, rowRecords_of_filter (filtered table position)]
  rfl

theorem Accounts.isQuarantined {stage : String → Nat → RowStage} {run : CastRun V ρ}
    (accounts : Accounts approveRef plan sources masked stage run) (table : String)
    (position : Nat) :
    run.ledger.isQuarantined table position = true ↔
      recordsAt approveRef plan sources masked (stage table position) table position ≠ [] :=
  accounts.history.isQuarantined table position

theorem Accounts.not_cause {stage : String → Nat → RowStage} {run : CastRun V ρ}
    (accounts : Accounts approveRef plan sources masked stage run) {raise : CastRaise ρ} :
    ¬ Cause approveRef plan sources masked run.store stage raise := by
  intro cause
  cases cause with
  | cell member raises counts =>
      rename_i table position event raise
      have failing : (eventsAt approveRef plan sources masked (stage table position) table
          position).any CastEvent.isFail = true :=
        List.any_eq_true.mpr ⟨event, member, by rw [CastEvent.isFail, raises]; rfl⟩
      rw [accounts.passing] at failing
      cases failing
  | store overdrawn failure =>
      obtain ⟨envelopes, distinct, called, refused⟩ := overdrawn
      refine refused (accounts.holds.of_subperm (distinct.subperm fun envelope member => ?_))
      exact (accounts.sink envelope).mpr (called envelope member)

theorem Accounts.not_written {stage : String → Nat → RowStage} {run : CastRun V ρ}
    (accounts : Accounts approveRef plan sources masked stage run) {table : String}
    {position : Nat}
    (clean : recordsAt approveRef plan sources masked (stage table position) table position = []) :
    (table, position) ∉ run.sink.map QuarantineEnvelope.place := by
  intro member
  obtain ⟨envelope, envelopeIn, placed⟩ := List.mem_map.mp member
  obtain ⟨table', position', quarantined, rfl⟩ := (accounts.sink envelope).mp envelopeIn
  cases placed
  exact quarantined clean

/-- The rows at `positions`, none of them with a quarantined event so far, go through one
more stage: the kernel's scan and the write of the rows it rejected. -/
structure Advance (approveRef : String → Option String) (plan : CastPlan V ρ)
    (sources masked : String → Nat → Row V) (stage : String → Nat → RowStage) (table : String)
    (positions : List Nat) (next : RowStage) (kind : Stage) (cols : List (CastColumn V ρ))
    (cell : CastColumn V ρ → Nat → Option (CastEvent ρ)) : Prop where
  cells : StageCells table kind cell
  names : (cols.map CastColumn.name).Nodup
  distinct : positions.Nodup
  clean : ∀ position ∈ positions,
    recordsAt approveRef plan sources masked (stage table position) table position = []
  fresh : ∀ position ∈ positions, ∀ event ∈
    eventsAt approveRef plan sources masked (stage table position) table position,
    ∀ column, event.issueKey ≠ some (table, column, position, kind)
  grows : ∀ position ∈ positions,
    eventsAt approveRef plan sources masked next table position =
      eventsAt approveRef plan sources masked (stage table position) table position ++
        rowEntries cell cols position

section Step

variable {stage : String → Nat → RowStage} {table : String} {positions : List Nat}
  {next : RowStage} {kind : Stage} {cols : List (CastColumn V ρ)}
  {cell : CastColumn V ρ → Nat → Option (CastEvent ρ)} {run : CastRun V ρ}

theorem Advance.history (step : Advance approveRef plan sources masked stage table positions next
    kind cols cell) {history : List (CastEvent ρ)}
    (filtered : ∀ table position, history.filter (CastEvent.isAt table position) =
      eventsAt approveRef plan sources masked (stage table position) table position)
    (other : String) (position : Nat) :
    (history ++ gridEntries cell cols positions).filter (CastEvent.isAt other position) =
      eventsAt approveRef plan sources masked (advance stage table positions next other position)
        other position := by
  have keyed : ∀ col position event, cell col position = some event →
      event.place = (table, position) := fun _ _ _ found => step.cells.place found
  rw [List.filter_append, filtered]
  by_cases here : other = table ∧ position ∈ positions
  · obtain ⟨rfl, member⟩ := here
    have distinct : (positions.map (fun position => (other, position))).Nodup :=
      step.distinct.map fun _ _ same => (Prod.mk.inj same).2
    rw [advance_at stage next member, step.grows position member]
    congr 1
    exact filter_gridEntries_present keyed distinct member cols
  · have absent : (other, position) ∉ positions.map (fun position => (table, position)) := by
      intro member
      obtain ⟨_, inside, same⟩ := List.mem_map.mp member
      cases same
      exact here ⟨rfl, inside⟩
    rw [advance_elsewhere stage next here]
    have none : (gridEntries cell cols positions).filter (CastEvent.isAt other position) = [] :=
      filter_gridEntries_absent keyed absent cols
    rw [none, List.append_nil]

theorem Advance.keys_fresh (step : Advance approveRef plan sources masked stage table positions
    next kind cols cell) {history : List (CastEvent ρ)}
    (filtered : ∀ table position, history.filter (CastEvent.isAt table position) =
      eventsAt approveRef plan sources masked (stage table position) table position) :
    ∀ key ∈ (gridEntries cell cols positions).filterMap CastEvent.issueKey,
      key ∉ history.filterMap CastEvent.issueKey := by
  intro key later earlier
  obtain ⟨event, eventIn, keyed⟩ := List.mem_filterMap.mp later
  obtain ⟨position, member, entryIn⟩ := mem_gridEntries.mp eventIn
  obtain ⟨col, _, found⟩ := List.mem_filterMap.mp entryIn
  have shape := step.cells.key found keyed
  obtain ⟨before, beforeIn, beforeKey⟩ := List.mem_filterMap.mp earlier
  rw [shape] at beforeKey
  have here : before ∈ history.filter (CastEvent.isAt table position) :=
    List.mem_filter.mpr ⟨beforeIn, decide_eq_true (CastEvent.place_of_issueKey beforeKey)⟩
  rw [filtered] at here
  exact step.fresh position member before here col.name beforeKey

theorem Advance.records_at (step : Advance approveRef plan sources masked stage table positions
    next kind cols cell) {position : Nat} (member : position ∈ positions) :
    recordsAt approveRef plan sources masked next table position =
      quarantineRecords approveRef (rowEntries cell cols position) := by
  have clean := step.clean position member
  rw [recordsAt, step.grows position member, quarantineRecords, List.filterMap_append]
  rw [recordsAt, quarantineRecords] at clean
  rw [clean, List.nil_append, quarantineRecords]

theorem Advance.failing (step : Advance approveRef plan sources masked stage table positions
    next kind cols cell) (passing : ∀ position,
      (eventsAt approveRef plan sources masked (stage table position) table position).any
        CastEvent.isFail = false) :
    (gridEntries cell cols positions).any CastEvent.isFail = true ↔ ∃ position ∈ positions,
      (eventsAt approveRef plan sources masked next table position).any CastEvent.isFail = true := by
  have atRow : ∀ position ∈ positions,
      (eventsAt approveRef plan sources masked next table position).any CastEvent.isFail =
        (rowEntries cell cols position).any CastEvent.isFail := by
    intro position member
    rw [step.grows position member, List.any_append, passing, Bool.false_or]
  simp only [List.any_eq_true, mem_gridEntries]
  constructor
  · rintro ⟨event, ⟨position, member, eventIn⟩, failing⟩
    refine ⟨position, member, List.any_eq_true.mp ?_⟩
    rw [atRow position member]
    exact List.any_eq_true.mpr ⟨event, eventIn, failing⟩
  · rintro ⟨position, member, found⟩
    have failing := List.any_eq_true.mpr found
    rw [atRow position member] at failing
    obtain ⟨event, eventIn, failing⟩ := List.any_eq_true.mp failing
    exact ⟨event, ⟨position, member, eventIn⟩, failing⟩

theorem Advance.mem_eventsAt (step : Advance approveRef plan sources masked stage table positions
    next kind cols cell) {event : CastEvent ρ} (member : event ∈ gridEntries cell cols positions) :
    ∃ position ∈ positions, event ∈ eventsAt approveRef plan sources masked
      (advance stage table positions next table position) table position := by
  obtain ⟨position, inside, eventIn⟩ := mem_gridEntries.mp member
  refine ⟨position, inside, ?_⟩
  rw [advance_at stage next inside, step.grows position inside]
  exact List.mem_append_right _ eventIn

theorem Advance.raises (approveName : String → Option String)
    (step : Advance approveRef plan sources masked stage table positions next kind cols cell)
    (accounts : Accounts approveRef plan sources masked stage run)
    (failing : ∃ position ∈ positions,
      (eventsAt approveRef plan sources masked next table position).any CastEvent.isFail = true) :
    ∃ raise, recordEvents approveRef approveName run.ledger (gridEntries cell cols positions) =
        .error raise ∧
      Cause approveRef plan sources masked run.store (advance stage table positions next)
        raise := by
  obtain ⟨history, records, filtered⟩ := accounts.history
  have raises := (recordEvents_records approveName records
    (step.cells.keys_nodup step.names step.distinct) (step.keys_fresh filtered)).1
  obtain ⟨event, member, raise, counts, isRaise, raised⟩ :=
    raises ((step.failing (accounts.passing table)).mpr failing)
  obtain ⟨position, _, eventIn⟩ := step.mem_eventsAt member
  exact ⟨raise counts, raised, .cell eventIn isRaise counts⟩

theorem Advance.books (approveName : String → Option String)
    (step : Advance approveRef plan sources masked stage table positions next kind cols cell)
    (accounts : Accounts approveRef plan sources masked stage run)
    (passing : ∀ position ∈ positions,
      (eventsAt approveRef plan sources masked next table position).any
        CastEvent.isFail = false) :
    ∃ ledger, recordEvents approveRef approveName run.ledger (gridEntries cell cols positions) =
        .ok ledger ∧
      Booked approveRef plan sources masked (advance stage table positions next) ledger := by
  obtain ⟨history, records, filtered⟩ := accounts.history
  have noFail : (gridEntries cell cols positions).any CastEvent.isFail = false := by
    rw [Bool.eq_false_iff]
    intro failing
    obtain ⟨position, member, found⟩ := (step.failing (accounts.passing table)).mp failing
    rw [passing position member] at found
    exact Bool.false_ne_true found
  obtain ⟨ledger, recorded, described⟩ := (recordEvents_records approveName records
    (step.cells.keys_nodup step.names step.distinct) (step.keys_fresh filtered)).2 noFail
  exact ⟨ledger, recorded, _, described, step.history filtered⟩

theorem Advance.called_iff (step : Advance approveRef plan sources masked stage table positions
    next kind cols cell) (envelope : QuarantineEnvelope V ρ) :
    Called approveRef plan sources masked (advance stage table positions next) envelope ↔
      Called approveRef plan sources masked stage envelope ∨ ∃ position ∈ positions,
        recordsAt approveRef plan sources masked next table position ≠ [] ∧
          envelope = ⟨table, position,
            recordsAt approveRef plan sources masked next table position,
            sources table position⟩ := by
  constructor
  · rintro ⟨other, position, quarantined, rfl⟩
    by_cases here : other = table ∧ position ∈ positions
    · obtain ⟨rfl, member⟩ := here
      rw [advance_at stage next member] at quarantined ⊢
      exact Or.inr ⟨position, member, quarantined, rfl⟩
    · rw [advance_elsewhere stage next here] at quarantined ⊢
      exact Or.inl ⟨other, position, quarantined, rfl⟩
  · rintro (⟨other, position, quarantined, rfl⟩ | ⟨position, member, quarantined, rfl⟩)
    · have outside : ¬ (other = table ∧ position ∈ positions) := by
        rintro ⟨rfl, member⟩
        exact quarantined (step.clean position member)
      refine ⟨other, position, ?_⟩
      rw [advance_elsewhere stage next outside]
      exact ⟨quarantined, rfl⟩
    · refine ⟨table, position, ?_⟩
      rw [advance_at stage next member]
      exact ⟨quarantined, rfl⟩

/-- What the step appends to the sink are the envelopes of the rows it has newly called out, and no
row is in the sink twice. -/
theorem Advance.rejected
    (step : Advance approveRef plan sources masked stage table positions next kind cols cell)
    (accounts : Accounts approveRef plan sources masked stage run) {ledger : CastIssueLedger ρ}
    (booked : Booked approveRef plan sources masked (advance stage table positions next) ledger)
    {raw : Option (List (Row V))} {offset : Nat}
    (framed : ∀ position ∈ positions,
      recordsAt approveRef plan sources masked next table position ≠ [] →
        (raw.bind (fun rows => rows[position - offset]?)).getD (fun _ => none) =
          sources table position) :
    (∀ envelope, envelope ∈ run.sink ++ (positions.filter (ledger.isQuarantined table)).map
        (rejectedEnvelope ledger table raw offset) ↔
      Called approveRef plan sources masked (advance stage table positions next) envelope) ∧
    ((run.sink ++ (positions.filter (ledger.isQuarantined table)).map
      (rejectedEnvelope ledger table raw offset)).map QuarantineEnvelope.place).Nodup := by
  have rejects : ∀ position ∈ positions, ledger.isQuarantined table position = true ↔
      recordsAt approveRef plan sources masked next table position ≠ [] := by
    intro position member
    rw [booked.isQuarantined, advance_at stage next member]
  have appended : (positions.filter (ledger.isQuarantined table)).map
      (rejectedEnvelope ledger table raw offset) =
      (positions.filter (ledger.isQuarantined table)).map (fun position =>
        ⟨table, position, recordsAt approveRef plan sources masked next table position,
          sources table position⟩) := by
    refine List.map_congr_left fun position member => ?_
    obtain ⟨inside, quarantined⟩ := List.mem_filter.mp member
    rw [rejectedEnvelope, booked.rowReasons, advance_at stage next inside,
      framed position inside ((rejects position inside).mp quarantined)]
  constructor
  · intro envelope
    rw [step.called_iff, List.mem_append, accounts.sink, appended, List.mem_map]
    refine or_congr_right (exists_congr fun position => ?_)
    constructor
    · rintro ⟨member, rfl⟩
      obtain ⟨inside, quarantined⟩ := List.mem_filter.mp member
      exact ⟨inside, (rejects position inside).mp quarantined, rfl⟩
    · rintro ⟨inside, quarantined, rfl⟩
      exact ⟨List.mem_filter.mpr ⟨inside, (rejects position inside).mpr quarantined⟩, rfl⟩
  · have places : ((positions.filter (ledger.isQuarantined table)).map
        (rejectedEnvelope ledger table raw offset)).map QuarantineEnvelope.place =
        (positions.filter (ledger.isQuarantined table)).map
          (fun position => (table, position)) := by
      rw [List.map_map]
      rfl
    rw [List.map_append, places, List.nodup_append]
    refine ⟨accounts.single, ?_, ?_⟩
    · exact (step.distinct.filter _).map fun _ _ same => (Prod.mk.inj same).2
    · rintro place earlier other later rfl
      obtain ⟨position, member, rfl⟩ := List.mem_map.mp later
      exact accounts.not_written (step.clean position (List.mem_filter.mp member).1) earlier

/-- Every row moves on, and the rejected ones are written to the store, unless it does not take
them. -/
theorem Advance.writes
    (step : Advance approveRef plan sources masked stage table positions next kind cols cell)
    (accounts : Accounts approveRef plan sources masked stage run)
    (passing : ∀ position ∈ positions,
      (eventsAt approveRef plan sources masked next table position).any CastEvent.isFail = false)
    {ledger : CastIssueLedger ρ}
    (booked : Booked approveRef plan sources masked (advance stage table positions next) ledger)
    {raw : Option (List (Row V))} {offset : Nat}
    (framed : ∀ position ∈ positions,
      recordsAt approveRef plan sources masked next table position ≠ [] →
        (raw.bind (fun rows => rows[position - offset]?)).getD (fun _ => none) =
          sources table position) :
    (∃ raise, writeRejected { run with ledger := ledger } table
        (positions.filter (ledger.isQuarantined table)) raw offset = .error raise ∧
      Cause approveRef plan sources masked run.store (advance stage table positions next) raise) ∨
    ∃ after, writeRejected { run with ledger := ledger } table
        (positions.filter (ledger.isQuarantined table)) raw offset = .ok after ∧
      after.whole = run.whole ∧ after.store = run.store ∧
      Accounts approveRef plan sources masked (advance stage table positions next) after := by
  have fresh : ∀ position ∈ positions.filter (ledger.isQuarantined table),
      (table, position) ∉ run.written := by
    intro position member written
    exact accounts.not_written (step.clean position (List.mem_filter.mp member).1)
      ((accounts.written _).mp written)
  obtain ⟨called, single⟩ := step.rejected accounts booked framed
  rcases writeRejected_cases { run with ledger := ledger } (step.distinct.filter _) fresh
      accounts.holds accounts.opened with ⟨refused, failure, raised⟩ | ⟨held, after, ran, wrote⟩
  · refine Or.inl ⟨_, raised, .store ⟨_, single.of_map, ?_, refused⟩ failure⟩
    exact fun envelope member => (called envelope).mp member
  · refine Or.inr ⟨after, ran, wrote.whole, wrote.store, ?_⟩
    refine ⟨by rw [wrote.ledger]; exact booked, ?_, ?_, ?_, ?_, wrote.opened, ?_⟩
    · intro other position
      by_cases here : other = table ∧ position ∈ positions
      · obtain ⟨rfl, member⟩ := here
        rw [advance_at stage next member]
        exact passing position member
      · rw [advance_elsewhere stage next here]
        exact accounts.passing other position
    · rw [wrote.sink]
      exact called
    · rw [wrote.sink]
      exact single
    · intro place
      rw [wrote.written, wrote.sink, List.map_append, List.mem_append, accounts.written]
    · rw [wrote.store, wrote.sink]
      exact held

end Step

section Batches

variable (approveRef plan sources masked)

/-- No event of the row up to the stage is quarantined. -/
def accepts (stage : RowStage) (table : String) (position : Nat) : Bool :=
  recordsAt approveRef plan sources masked stage table position = []

def typedRow (table : String) (position : Nat) : Row V :=
  rowAfter CastColumn.parsed (plan.columns table) (sources table position)

def renderedRow (table : String) (position : Nat) : Row V :=
  rowAfter CastColumn.rendered (plan.formatColumns table) (masked table position)

/-- The batch `cast_batch` returns for the rows from `offset` on. -/
def castOutcome (table : String) (offset count : Nat) : CastBatch V :=
  let kept := (List.range' offset count).filter
    (accepts approveRef plan sources masked .cast table)
  ⟨kept.map (typedRow plan sources table), kept, offset,
    rawRows plan table ((List.range' offset count).map (sources table))⟩

variable {approveRef plan sources masked}

theorem rawRows_of_records {kind : Stage} {table : String}
    {cell : CastColumn V ρ → Nat → Option (CastEvent ρ)} (cells : StageCells table kind cell)
    {cols : List (CastColumn V ρ)} (within : ∀ col ∈ cols, col ∈ plan.columns table)
    {position : Nat} (rejected : quarantineRecords approveRef (rowEntries cell cols position) ≠ [])
    (src : List (Row V)) : rawRows plan table src = some src := by
  obtain ⟨record, member⟩ := List.exists_mem_of_ne_nil _ rejected
  obtain ⟨event, eventIn, quarantined⟩ := List.mem_filterMap.mp member
  obtain ⟨col, colIn, found⟩ := List.mem_filterMap.mp eventIn
  refine if_pos (List.any_eq_true.mpr ⟨col, within col colIn, ?_⟩)
  exact decide_eq_true (cells.policy found quarantined)

theorem cast_advance {stage : String → Nat → RowStage} {table : String} {offset count : Nat}
    (unread : ∀ position ∈ List.range' offset count, stage table position = .unread) :
    Advance approveRef plan sources masked stage table (List.range' offset count) .cast .parse
      (plan.columns table)
      (fun col position => col.parseEvent table position (sources table position col.name)) where
  cells := parse_cells table (sources table)
  names := plan.columns_distinct table
  distinct := List.nodup_range'
  clean := by
    intro position member
    rw [unread position member]
    rfl
  fresh := by
    intro position member event eventIn
    rw [unread position member] at eventIn
    simp [eventsAt] at eventIn
  grows := by
    intro position member
    rw [unread position member]
    rfl

theorem format_advance {stage : String → Nat → RowStage} {table : String} {positions : List Nat}
    (distinct : positions.Nodup)
    (ready : ∀ position ∈ positions, stage table position = .cast ∧
      accepts approveRef plan sources masked .cast table position = true) :
    Advance approveRef plan sources masked stage table positions .formatted .format
      (plan.formatColumns table)
      (fun col position => col.formatEvent table position (masked table position col.name)) where
  cells := format_cells table (masked table)
  names := plan.formatColumns_distinct table
  distinct := distinct
  clean := by
    intro position member
    rw [(ready position member).1]
    exact of_decide_eq_true (ready position member).2
  fresh := by
    intro position member event eventIn column keyed
    rw [(ready position member).1] at eventIn
    obtain ⟨col, _, found⟩ := List.mem_filterMap.mp eventIn
    have shape := (parse_cells table (sources table)).key found keyed
    simp at shape
  grows := by
    intro position member
    rw [(ready position member).1]
    have clean : quarantineRecords approveRef (parseEvents plan sources table position) = [] :=
      of_decide_eq_true (ready position member).2
    simp only [eventsAt, clean, if_true]
    rfl

theorem filter_quarantined {ledger : CastIssueLedger ρ} {table : String} {positions : List Nat}
    {next : RowStage} (rejects : ∀ position ∈ positions,
      ledger.isQuarantined table position = true ↔
        recordsAt approveRef plan sources masked next table position ≠ []) :
    positions.filter (fun position => !ledger.isQuarantined table position) =
      positions.filter (accepts approveRef plan sources masked next table) := by
  refine List.filter_congr fun position member => ?_
  have same := rejects position member
  by_cases clean : recordsAt approveRef plan sources masked next table position = []
  · have kept : ledger.isQuarantined table position = false := by
      rw [Bool.eq_false_iff]
      exact fun quarantined => same.mp quarantined clean
    simp [accepts, clean, kept]
  · simp [accepts, clean, same.mpr clean]

section Cast

variable (approveName : String → Option String) {stage : String → Nat → RowStage}
  {run : CastRun V ρ} {table : String} {offset count : Nat}

theorem cast_framed (position : Nat) (member : position ∈ List.range' offset count)
    (rejected : recordsAt approveRef plan sources masked .cast table position ≠ []) :
    ((rawRows plan table ((List.range' offset count).map (sources table))).bind
        (fun rows => rows[position - offset]?)).getD (fun _ => none) =
      sources table position := by
  have raw := rawRows_of_records (parse_cells table (sources table)) (fun _ within => within)
    rejected ((List.range' offset count).map (sources table))
  rw [List.mem_range'_1] at member
  have here : (List.range' offset count)[position - offset]? = some position := by
    rw [List.getElem?_range' (by omega)]
    congr 1
    omega
  rw [raw, Option.bind_some, List.getElem?_map, here]
  rfl

/-- A batch of unread rows raises for one of its cells or the store, or its rows are cast. -/
theorem castBatch_cases (accounts : Accounts approveRef plan sources masked stage run)
    (unread : ∀ position ∈ List.range' offset count, stage table position = .unread) :
    (∃ raise, castBatch approveRef approveName plan run table
        ((List.range' offset count).map (sources table)) offset true = .error raise ∧
      Cause approveRef plan sources masked run.store
        (advance stage table (List.range' offset count) .cast) raise) ∨
    ∃ next, castBatch approveRef approveName plan run table
        ((List.range' offset count).map (sources table)) offset true =
          .ok (next, castOutcome approveRef plan sources masked table offset count) ∧
      next.whole = run.whole ∧ next.store = run.store ∧
      Accounts approveRef plan sources masked
        (advance stage table (List.range' offset count) .cast) next := by
  have step : Advance approveRef plan sources masked stage table (List.range' offset count) .cast
      .parse (plan.columns table) (fun col position =>
        col.parseEvent table position (sources table position col.name)) := cast_advance unread
  rw [castBatch_eq, if_pos rfl]
  by_cases failing : ∃ position ∈ List.range' offset count,
      (parseEvents plan sources table position).any CastEvent.isFail = true
  · obtain ⟨raise, raised, cause⟩ := step.raises approveName accounts failing
    exact Or.inl ⟨raise, by rw [raised]; rfl, cause⟩
  · have passing : ∀ position ∈ List.range' offset count,
        (eventsAt approveRef plan sources masked .cast table position).any
          CastEvent.isFail = false :=
      fun position member => Bool.eq_false_iff.mpr fun fails => failing ⟨position, member, fails⟩
    obtain ⟨ledger, recorded, booked⟩ := step.books approveName accounts passing
    have kept : (List.range' offset count).filter
          (fun position => !ledger.isQuarantined table position) =
        (List.range' offset count).filter (accepts approveRef plan sources masked .cast table) :=
      filter_quarantined fun position member => by
        rw [booked.isQuarantined, advance_at stage .cast member]
    simp only [recorded, ok_bind, if_true, kept]
    rcases step.writes accounts passing booked cast_framed with ⟨raise, raised, cause⟩ |
      ⟨after, wrote, whole, store, accounts'⟩
    · exact Or.inl ⟨raise, by rw [raised]; rfl, cause⟩
    · exact Or.inr ⟨after, by rw [wrote]; rfl, whole, store, accounts'⟩

theorem castBatch_unrecorded (passing : ∀ position ∈ List.range' offset count,
    (parseEvents plan sources table position).any CastEvent.isFail = false) :
    castBatch approveRef approveName plan run table
        ((List.range' offset count).map (sources table)) offset false =
      .ok (run, castOutcome approveRef plan sources masked table offset count) := by
  have step : Advance approveRef plan sources masked (fun _ _ => .unread) table
      (List.range' offset count) .cast .parse (plan.columns table) (fun col position =>
        col.parseEvent table position (sources table position col.name)) :=
    cast_advance fun _ _ => rfl
  obtain ⟨ledger, recorded, booked⟩ :=
    step.books approveName (Accounts.start run.store) passing
  have recordedEmpty : recordEvents approveRef approveName CastIssueLedger.empty
      (gridEntries (fun col position =>
        col.parseEvent table position (sources table position col.name)) (plan.columns table)
        (List.range' offset count)) = .ok ledger := recorded
  have kept : (List.range' offset count).filter
        (fun position => !ledger.isQuarantined table position) =
      (List.range' offset count).filter (accepts approveRef plan sources masked .cast table) :=
    filter_quarantined fun position member => by
      rw [booked.isQuarantined, advance_at _ .cast member]
  rw [castBatch_eq, if_neg Bool.false_ne_true, recordedEmpty]
  simp only [ok_bind, kept]
  rfl

end Cast

section Format

variable (approveName : String → Option String) {stage : String → Nat → RowStage}
  {run : CastRun V ρ} {table : String} {batch : CastBatch V}

/-- The rows a caller keeps after `format_batch`: all of them unless it says which. -/
def keepRows {α : Type w} (keep : Option (List Nat)) (rows : List α) : List α :=
  match keep with
  | none => rows
  | some keep => takeRows rows keep

/-- A batch waiting to be rendered: its rows are cast, none was rejected, and the raw rows
are at hand when the table can quarantine. -/
structure Waiting (approveRef : String → Option String) (plan : CastPlan V ρ)
    (sources masked : String → Nat → Row V) (stage : String → Nat → RowStage) (table : String)
    (batch : CastBatch V) : Prop where
  distinct : batch.positions.Nodup
  ready : ∀ position ∈ batch.positions, stage table position = .cast ∧
    accepts approveRef plan sources masked .cast table position = true
  framed : ∀ position ∈ batch.positions,
    (plan.columns table).any (fun col => col.policy = .quarantine) = true →
      batch.raw.bind (fun rows => rows[position - batch.offset]?) = some (sources table position)

theorem Waiting.framed_of_records
    (waiting : Waiting approveRef plan sources masked stage table batch) (position : Nat)
    (member : position ∈ batch.positions)
    (rejected : recordsAt approveRef plan sources masked .formatted table position ≠ []) :
    (batch.raw.bind (fun rows => rows[position - batch.offset]?)).getD (fun _ => none) =
      sources table position := by
  have step := format_advance waiting.distinct waiting.ready
  rw [step.records_at member] at rejected
  obtain ⟨record, recordIn⟩ := List.exists_mem_of_ne_nil _ rejected
  obtain ⟨event, eventIn, quarantined⟩ := List.mem_filterMap.mp recordIn
  obtain ⟨col, colIn, found⟩ := List.mem_filterMap.mp eventIn
  have policy : (plan.columns table).any (fun col => col.policy = .quarantine) = true :=
    List.any_eq_true.mpr ⟨col, (List.mem_filter.mp colIn).1,
      decide_eq_true (step.cells.policy found quarantined)⟩
  rw [waiting.framed position member policy]
  rfl

theorem Waiting.clean (waiting : Waiting approveRef plan sources masked stage table batch)
    (accounts : Accounts approveRef plan sources masked stage run) :
    batch.positions.filter (run.ledger.isQuarantined table) = [] := by
  rw [List.filter_eq_nil_iff]
  intro position member quarantined
  have rejected := (accounts.isQuarantined table position).mp quarantined
  rw [(waiting.ready position member).1] at rejected
  exact rejected (of_decide_eq_true (waiting.ready position member).2)

/-- A waiting batch raises for one of its cells or the store, or its rows are rendered. -/
theorem formatBatch_cases (accounts : Accounts approveRef plan sources masked stage run)
    (waiting : Waiting approveRef plan sources masked stage table batch) :
    (∃ raise, formatBatch approveRef approveName plan run table
        (batch.positions.map (masked table)) batch = .error raise ∧
      Cause approveRef plan sources masked run.store
        (advance stage table batch.positions .formatted) raise) ∨
    ∃ formatted, formatBatch approveRef approveName plan run table
        (batch.positions.map (masked table)) batch = .ok formatted ∧
      formatted.rows = (batch.positions.filter
        (accepts approveRef plan sources masked .formatted table)).map
          (renderedRow plan masked table) ∧
      (∀ f : Nat → Row V, keepRows formatted.keep (batch.positions.map f) =
        (batch.positions.filter (accepts approveRef plan sources masked .formatted table)).map f) ∧
      formatted.batch = { batch with
        positions := batch.positions.filter
          (accepts approveRef plan sources masked .formatted table) } ∧
      formatted.run.whole = run.whole ∧ formatted.run.store = run.store ∧
      Accounts approveRef plan sources masked
        (advance stage table batch.positions .formatted) formatted.run := by
  have step := format_advance waiting.distinct waiting.ready
  rw [formatBatch_eq plan run table (masked table) batch (waiting.clean accounts)]
  by_cases failing : ∃ position ∈ batch.positions,
      (eventsAt approveRef plan sources masked .formatted table position).any
        CastEvent.isFail = true
  · obtain ⟨raise, raised, cause⟩ := step.raises approveName accounts failing
    exact Or.inl ⟨raise, by rw [raised]; rfl, cause⟩
  · have passing : ∀ position ∈ batch.positions,
        (eventsAt approveRef plan sources masked .formatted table position).any
          CastEvent.isFail = false :=
      fun position member => Bool.eq_false_iff.mpr fun fails => failing ⟨position, member, fails⟩
    obtain ⟨ledger, recorded, booked⟩ := step.books approveName accounts passing
    have kept : batch.positions.filter
          (fun position => !ledger.isQuarantined table position) =
        batch.positions.filter (accepts approveRef plan sources masked .formatted table) :=
      filter_quarantined fun position member => by
        rw [booked.isQuarantined, advance_at stage .formatted member]
    simp only [recorded, ok_bind]
    rcases step.writes accounts passing booked waiting.framed_of_records with
      ⟨raise, raised, cause⟩ | ⟨after, wrote, whole, store, accounts'⟩
    · exact Or.inl ⟨raise, by rw [raised]; rfl, cause⟩
    · rw [wrote]
      refine Or.inr ⟨_, rfl, ?_, ?_, ?_, whole, store, accounts'⟩
      · simp only [kept]
        rfl
      · intro f
        rw [← kept]
        by_cases none : droppedRows ledger table batch.positions = []
        · simp only [none, if_true, keepRows]
          rw [filter_not_of_filter_nil (droppedRows_eq_nil.mp none)]
        · simp only [none, if_false, keepRows]
          exact takeRows_kept ledger table batch.positions f
      · simp only [kept]

end Format

end Batches

end Books

end DecoyEngine.DeclaredCasting
