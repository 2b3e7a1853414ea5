import DecoyEngine.DeclaredCasting.Stream

namespace DecoyEngine.DeclaredCasting

open DecoyEngine.Data

/-! The invariant of a stream: rows before `offset` are cast, those of the pairing wait, and
what is published, waiting and unread together is what the whole table publishes. -/

section Invariant

variable {V : Type u} {ρ : Type u} (approveRef : String → Option String) (plan : CastPlan V ρ)
  (mask : Row V → Row V) (rows : List (Row V)) (table : String)

def StreamState.pending (state : StreamState V ρ) : List Nat :=
  state.pairing.flatMap CastBatch.positions

/-- The invariant of a chunk stream: what was published, what is pending and what is still unread
are together what the whole table publishes, and the accounts stand at the same row. -/
structure Streaming (state : StreamState V ρ) : Prop where
  accounts : Accounts approveRef plan (tableRow rows) (maskRow plan mask rows)
    (streamStages table state.offset state.pending) state.run
  within : state.offset ≤ rows.length
  unread : rows.drop state.offset = state.chunks.flatten
  queued : ∀ batch ∈ state.pairing, Queued approveRef plan mask rows table state.offset batch
  distinct : state.pending.Nodup
  masked : state.masked =
    state.pairing.map (fun batch => batch.positions.map (maskRow plan mask rows table))
  published : state.published.flatten ++
      publishedFrom approveRef plan mask rows table state.pending ++
      publishedFrom approveRef plan mask rows table
        (List.range' state.offset (rows.length - state.offset)) =
    publishedFrom approveRef plan mask rows table (List.range' 0 rows.length)
  ended : state.castDone = true → state.chunks = []
  finished : state.formatDone = true → state.castDone = true ∧ state.masked = []

variable {approveRef plan mask rows table}

theorem publishedFrom_append (left right : List Nat) :
    publishedFrom approveRef plan mask rows table (left ++ right) =
      publishedFrom approveRef plan mask rows table left ++
        publishedFrom approveRef plan mask rows table right := by
  rw [publishedFrom, List.filter_append, List.map_append]
  rfl

theorem Streaming.start (store : QuarantineStore V ρ) {chunks : List (List (Row V))}
    (partition : chunks.flatten = rows) :
    Streaming approveRef plan mask rows table (StreamState.start store chunks) where
  accounts := start_accounts table store
  within := Nat.zero_le _
  unread := partition.symm
  queued := by simp [StreamState.start]
  distinct := by simp [StreamState.start, StreamState.pending]
  masked := rfl
  published := by simp [StreamState.start, StreamState.pending, publishedFrom]
  ended := by simp [StreamState.start]
  finished := by simp [StreamState.start]

theorem Streaming.before {state : StreamState V ρ}
    (streaming : Streaming approveRef plan mask rows table state) :
    ∀ position ∈ state.pending, position < state.offset := by
  intro position member
  obtain ⟨batch, batchIn, inside⟩ := List.mem_flatMap.mp member
  exact ((streaming.queued batch batchIn).ready position inside).1

theorem Streaming.chunk {state : StreamState V ρ}
    (streaming : Streaming approveRef plan mask rows table state) {chunk : List (Row V)}
    {rest : List (List (Row V))} (chunks : state.chunks = chunk :: rest) :
    state.offset + chunk.length ≤ rows.length ∧
      chunk = (List.range' state.offset chunk.length).map (tableRow rows table) ∧
      rows.drop (state.offset + chunk.length) = rest.flatten := by
  have unread := streaming.unread
  rw [chunks, List.flatten_cons] at unread
  have lengths := congrArg List.length unread
  rw [List.length_drop, List.length_append] at lengths
  have fits : state.offset + chunk.length ≤ rows.length := by
    have within := streaming.within
    omega
  refine ⟨fits, ?_, ?_⟩
  · refine List.ext_getElem (by simp) fun index bound _ => ?_
    have here : (rows.drop state.offset)[index]? = chunk[index]? := by
      rw [unread, List.getElem?_append_left bound]
    rw [List.getElem?_drop, List.getElem?_eq_getElem bound] at here
    rw [List.getElem_map, List.getElem_range', Nat.one_mul]
    simp [tableRow, rowAt, here]
  · rw [← List.drop_drop, unread, List.drop_left]

/-- What is left to do; every step lowers it. -/
def StreamState.work (state : StreamState V ρ) : Nat :=
  3 * state.chunks.length + (if state.castDone then 0 else 2) + state.masked.length +
    (if state.formatDone then 0 else 1)

variable (approveRef plan mask rows table) in
/-- A step raises for something that stops the whole table too, or keeps the invariant. -/
def Proceeds (state : StreamState V ρ) (result : Except (CastRaise ρ) (StreamState V ρ)) : Prop :=
  (∃ raise, result = .error raise ∧
    Stops approveRef plan mask rows table state.run.store raise) ∨
  ∃ after, result = .ok after ∧ after.run.store = state.run.store ∧
    Streaming approveRef plan mask rows table after ∧ after.work < state.work

variable {state : StreamState V ρ}

theorem Streaming.unfinished (streaming : Streaming approveRef plan mask rows table state)
    (reading : state.castDone = false) : state.formatDone = false := by
  rw [Bool.eq_false_iff]
  intro finished
  rw [(streaming.finished finished).1] at reading
  cases reading

theorem StreamState.handOver_pending (batch : CastBatch V) :
    (state.handOver mask batch).pending = state.pending ++ batch.positions := by
  simp [StreamState.handOver, StreamState.pending]

theorem publishedFrom_unread {offset count : Nat} (fits : offset + count ≤ rows.length) :
    publishedFrom approveRef plan mask rows table
        (List.range' offset (rows.length - offset)) =
      publishedFrom approveRef plan mask rows table (castOutcome approveRef plan (tableRow rows)
          (maskRow plan mask rows) table offset count).positions ++
        publishedFrom approveRef plan mask rows table
          (List.range' (offset + count) (rows.length - (offset + count))) := by
  have split : rows.length - offset = count + (rows.length - (offset + count)) := by omega
  have positions : (castOutcome approveRef plan (tableRow rows) (maskRow plan mask rows) table
      offset count).positions = (List.range' offset count).filter (accepts approveRef plan
        (tableRow rows) (maskRow plan mask rows) .cast table) := rfl
  rw [positions, publishedFrom_cast, split, ← List.range'_append_1, publishedFrom_append]

theorem pullChunk_proceeds (approveName : String → Option String)
    (streaming : Streaming approveRef plan mask rows table state) {chunk : List (Row V)}
    {rest : List (List (Row V))} (chunks : state.chunks = chunk :: rest) :
    Proceeds approveRef plan mask rows table state
      (pullChunk approveRef approveName plan table mask state chunk rest) := by
  obtain ⟨fits, source, unread⟩ := streaming.chunk chunks
  have reading : state.castDone = false := by
    rw [Bool.eq_false_iff]
    intro ended
    have none := streaming.ended ended
    rw [chunks] at none
    cases none
  have unfinished := streaming.unfinished reading
  have step := cast_step approveName streaming.accounts streaming.before fits
  rw [← source] at step
  rcases step with ⟨raise, raised, stops⟩ | ⟨next, cast, kept, accounts⟩
  · refine Or.inl ⟨raise, ?_, stops⟩
    rw [pullChunk, raised]
    rfl
  · refine Or.inr ?_
    simp only [pullChunk, cast, bind, Except.bind]
    have fresh : Queued approveRef plan mask rows table (state.offset + chunk.length)
        (castOutcome approveRef plan (tableRow rows) (maskRow plan mask rows) table state.offset
          chunk.length) := castOutcome_queued state.offset chunk.length
    have older : ∀ batch ∈ state.pairing, Queued approveRef plan mask rows table
        (state.offset + chunk.length) batch := fun batch member =>
      (streaming.queued batch member).later (Nat.le_add_right _ _)
    have apart : (state.pending ++ (castOutcome approveRef plan (tableRow rows)
        (maskRow plan mask rows) table state.offset chunk.length).positions).Nodup := by
      rw [List.nodup_append]
      refine ⟨streaming.distinct, castOutcome_distinct _ _, ?_⟩
      rintro position old _ new rfl
      have below := streaming.before position old
      have range := List.mem_range'_1.mp (List.mem_filter.mp new).1
      omega
    have published := streaming.published
    rw [publishedFrom_unread fits] at published
    by_cases empty : (castOutcome approveRef plan (tableRow rows) (maskRow plan mask rows) table
        state.offset chunk.length).rows = []
    · have none : (castOutcome approveRef plan (tableRow rows) (maskRow plan mask rows) table
          state.offset chunk.length).positions = [] := List.map_eq_nil_iff.mp empty
      rw [if_pos empty]
      rw [none, List.append_nil] at accounts
      rw [none] at published
      refine ⟨_, rfl, kept, ⟨accounts, fits, unread, older, streaming.distinct, streaming.masked, ?_, ?_,
        streaming.finished⟩, ?_⟩
      · rw [List.append_assoc] at published ⊢
        exact published
      · intro ended
        rw [reading] at ended
        cases ended
      · simp only [StreamState.work, chunks, List.length_cons]
        omega
    · rw [if_neg empty]
      refine ⟨_, rfl, kept, ⟨?_, fits, unread, ?_, ?_, ?_, ?_, ?_, ?_⟩, ?_⟩
      · rw [StreamState.handOver_pending]
        exact accounts
      · intro batch member
        rcases List.mem_append.mp member with old | new
        · exact older batch old
        · rw [List.mem_singleton.mp new]
          exact fresh
      · rw [StreamState.handOver_pending]
        exact apart
      · simp only [StreamState.handOver, List.map_append, streaming.masked, castOutcome_masked]
        rfl
      · rw [StreamState.handOver_pending, publishedFrom_append, List.append_assoc,
          List.append_assoc]
        rw [List.append_assoc] at published
        exact published
      · intro ended
        simp only [StreamState.handOver, reading] at ended
        cases ended
      · intro finished
        simp only [StreamState.handOver, unfinished] at finished
        cases finished
      · simp only [StreamState.work, StreamState.handOver, chunks, List.length_cons,
          List.length_append, List.length_nil, reading, unfinished]
        omega

theorem endCast_proceeds (streaming : Streaming approveRef plan mask rows table state)
    (chunks : state.chunks = []) (reading : state.castDone = false) :
    Proceeds approveRef plan mask rows table state (.ok (endCast mask state)) := by
  have unfinished := streaming.unfinished reading
  have kept : (endCast mask state).run.store = state.run.store := by
    rw [endCast]
    dsimp only
    split <;> rfl
  refine Or.inr ⟨_, rfl, kept, ?_⟩
  simp only [endCast]
  split
  · -- The held empty chunk goes through, with no positions of its own.
    have pairs : ({ state with castDone := true }.handOver mask
        ⟨[], [], state.offset, none⟩).pending = state.pending := by
      rw [StreamState.handOver_pending]
      exact List.append_nil _
    refine ⟨⟨?_, streaming.within, streaming.unread, ?_, ?_, ?_, ?_, fun _ => chunks, ?_⟩, ?_⟩
    · rw [pairs]
      exact streaming.accounts
    · intro batch member
      rcases List.mem_append.mp member with old | new
      · exact streaming.queued batch old
      · rw [List.mem_singleton.mp new]
        exact ⟨by simp, by simp⟩
    · rw [pairs]
      exact streaming.distinct
    · simp only [StreamState.handOver, List.map_append, streaming.masked]
      rfl
    · rw [pairs]
      exact streaming.published
    · intro finished
      simp only [StreamState.handOver, unfinished] at finished
      cases finished
    · simp only [StreamState.work, StreamState.handOver, chunks, reading, unfinished,
        List.length_append, List.length_cons, List.length_nil, if_true, if_false,
        Bool.false_eq_true]
      omega
  · refine ⟨⟨streaming.accounts, streaming.within, streaming.unread, streaming.queued,
      streaming.distinct, streaming.masked, streaming.published, fun _ => chunks, ?_⟩, ?_⟩
    · intro finished
      rw [unfinished] at finished
      cases finished
    · simp only [StreamState.work, chunks, reading, unfinished]
      simp

theorem emitChunk_proceeds (approveName : String → Option String)
    (streaming : Streaming approveRef plan mask rows table state) {out : List (Row V)}
    {outs : List (List (Row V))} {batch : CastBatch V} {batches : List (CastBatch V)}
    (outputs : state.masked = out :: outs) (pairs : state.pairing = batch :: batches) :
    Proceeds approveRef plan mask rows table state
      (emitChunk approveRef approveName plan table state out outs batch batches) := by
  have unfinished : state.formatDone = false := by
    rw [Bool.eq_false_iff]
    intro finished
    have none := (streaming.finished finished).2
    rw [outputs] at none
    cases none
  have aligned := streaming.masked
  rw [outputs, pairs, List.map_cons, List.cons.injEq] at aligned
  obtain ⟨here, later⟩ := aligned
  have pending : state.pending = batch.positions ++ batches.flatMap CastBatch.positions := by
    rw [StreamState.pending, pairs, List.flatMap_cons]
  have accounts := streaming.accounts
  have distinct := streaming.distinct
  have published := streaming.published
  rw [pending] at accounts distinct published
  have queued := streaming.queued batch (by rw [pairs]; exact List.mem_cons_self)
  have rest : ∀ other ∈ batches, Queued approveRef plan mask rows table state.offset other :=
    fun other member => streaming.queued other (by rw [pairs]; exact List.mem_cons_of_mem _ member)
  rw [publishedFrom_append] at published
  rcases format_step approveName accounts distinct streaming.within queued with
    ⟨raise, raised, stops⟩ | ⟨formatted, rendered, produced, kept, accounts'⟩
  · refine Or.inl ⟨raise, ?_, stops⟩
    rw [emitChunk, here, raised]
    rfl
  · refine Or.inr ?_
    simp only [emitChunk, here, rendered, bind, Except.bind]
    by_cases empty : formatted.rows = []
    · rw [if_pos empty]
      rw [← produced, empty, List.nil_append] at published
      refine ⟨_, rfl, kept, ⟨accounts', streaming.within, streaming.unread, rest,
        (List.nodup_append.mp distinct).2.1, later, published, streaming.ended, ?_⟩, ?_⟩
      · intro finished
        simp only [unfinished] at finished
        cases finished
      · simp only [StreamState.work, outputs, List.length_cons]
        omega
    · rw [if_neg empty]
      refine ⟨_, rfl, kept, ⟨accounts', streaming.within, streaming.unread, rest,
        (List.nodup_append.mp distinct).2.1, later, ?_, streaming.ended, ?_⟩, ?_⟩
      · rw [← produced, ← List.append_assoc] at published
        simp only [List.flatten_append, List.flatten_cons, List.flatten_nil, List.append_nil]
        exact published
      · intro finished
        simp only [unfinished] at finished
        cases finished
      · simp only [StreamState.work, outputs, List.length_cons]
        omega

theorem endFormat_proceeds (streaming : Streaming approveRef plan mask rows table state)
    (ended : state.castDone = true) (outputs : state.masked = [])
    (unfinished : state.formatDone = false) :
    Proceeds approveRef plan mask rows table state (.ok (endFormat state)) := by
  have kept : (endFormat state).run.store = state.run.store := by
    rw [endFormat]
    dsimp only
    split <;> rfl
  refine Or.inr ⟨_, rfl, kept, ?_⟩
  simp only [endFormat]
  split
  · refine ⟨⟨streaming.accounts, streaming.within, streaming.unread, streaming.queued,
      streaming.distinct, streaming.masked, ?_, streaming.ended, fun _ => ⟨ended, outputs⟩⟩, ?_⟩
    · simp only [List.flatten_append, List.flatten_cons, List.flatten_nil, List.append_nil]
      exact streaming.published
    · simp [StreamState.work, unfinished]
  · refine ⟨⟨streaming.accounts, streaming.within, streaming.unread, streaming.queued,
      streaming.distinct, streaming.masked, streaming.published, streaming.ended,
      fun _ => ⟨ended, outputs⟩⟩, ?_⟩
    simp [StreamState.work, unfinished]

theorem streamStep_proceeds {approveName : String → Option String}
    (streaming : Streaming approveRef plan mask rows table state) {action : StreamAction}
    {result : Except (CastRaise ρ) (StreamState V ρ)}
    (step : streamStep approveRef approveName plan table mask state action = some result) :
    Proceeds approveRef plan mask rows table state result := by
  cases action with
  | pull =>
      cases chunks : state.chunks with
      | nil =>
          simp only [streamStep, chunks] at step
          split at step
          · cases step
          · rename_i reading
            cases step
            exact endCast_proceeds streaming chunks (Bool.eq_false_iff.mpr reading)
      | cons chunk rest =>
          simp only [streamStep, chunks] at step
          cases step
          exact pullChunk_proceeds approveName streaming chunks
  | emit =>
      cases outputs : state.masked with
      | nil => simp [streamStep, outputs] at step
      | cons out outs =>
          cases pairs : state.pairing with
          | nil => simp [streamStep, outputs, pairs] at step
          | cons batch batches =>
              simp only [streamStep, outputs, pairs] at step
              cases step
              exact emitChunk_proceeds approveName streaming outputs pairs
  | finish =>
      simp only [streamStep] at step
      split at step
      · rename_i ready
        cases step
        exact endFormat_proceeds streaming ready.1 ready.2.1 (Bool.eq_false_iff.mpr ready.2.2)
      · cases step

theorem streamStep_enabled (approveName : String → Option String)
    (streaming : Streaming approveRef plan mask rows table state)
    (unfinished : state.formatDone = false) :
    ∃ action result,
      streamStep approveRef approveName plan table mask state action = some result := by
  by_cases ended : state.castDone = true
  · cases outputs : state.masked with
    | nil =>
        refine ⟨.finish, .ok (endFormat state), ?_⟩
        rw [streamStep, if_pos ⟨ended, outputs, by simp [unfinished]⟩]
    | cons out outs =>
        have aligned := streaming.masked
        cases pairs : state.pairing with
        | nil =>
            rw [outputs, pairs] at aligned
            cases aligned
        | cons batch batches =>
            refine ⟨.emit, emitChunk approveRef approveName plan table state out outs batch batches,
              ?_⟩
            simp only [streamStep, outputs, pairs]
  · cases chunks : state.chunks with
    | nil =>
        refine ⟨.pull, .ok (endCast mask state), ?_⟩
        simp only [streamStep, chunks]
        rw [if_neg ended]
    | cons chunk rest =>
        refine ⟨.pull, pullChunk approveRef approveName plan table mask state chunk rest, ?_⟩
        simp only [streamStep, chunks]

theorem streamRun_exists (approveName : String → Option String)
    (streaming : Streaming approveRef plan mask rows table state) :
    ∃ outcome, StreamRun approveRef approveName plan table mask state outcome := by
  generalize size : state.work = fuel
  induction fuel using Nat.strong_induction_on generalizing state with
  | _ fuel ih =>
      cases finished : state.formatDone with
      | true => exact ⟨.ok state, .done finished⟩
      | false =>
          obtain ⟨action, result, step⟩ := streamStep_enabled approveName streaming finished
          rcases streamStep_proceeds streaming step with ⟨raise, raised, _⟩ |
            ⟨after, continued, _, streaming', less⟩
          · rw [raised] at step
            exact ⟨_, .raised action step⟩
          · rw [continued] at step
            obtain ⟨outcome, rest⟩ := ih after.work (size ▸ less) streaming' rfl
            exact ⟨outcome, .next action step rest⟩

/-- A complete run raises for something that stops the whole table too, or ends with the
invariant. -/
theorem streamRun_outcome {approveName : String → Option String}
    {outcome : Except (CastRaise ρ) (StreamState V ρ)}
    (streaming : Streaming approveRef plan mask rows table state)
    (ran : StreamRun approveRef approveName plan table mask state outcome) :
    (∃ raise, outcome = .error raise ∧
      Stops approveRef plan mask rows table state.run.store raise) ∨
    ∃ final, outcome = .ok final ∧ final.formatDone = true ∧
      final.run.store = state.run.store ∧ Streaming approveRef plan mask rows table final := by
  induction ran with
  | done finished => exact Or.inr ⟨_, rfl, finished, rfl, streaming⟩
  | raised action step =>
      rcases streamStep_proceeds streaming step with ⟨raise, raised, stops⟩ |
        ⟨after, continued, _⟩
      · exact Or.inl ⟨raise, raised, stops⟩
      · cases continued
  | next action step rest ih =>
      rcases streamStep_proceeds streaming step with ⟨raise, raised, _⟩ |
        ⟨after, continued, kept, streaming', _⟩
      · cases raised
      · cases continued
        rw [← kept]
        exact ih streaming'

theorem Streaming.final (streaming : Streaming approveRef plan mask rows table state)
    (finished : state.formatDone = true) :
    Accounts approveRef plan (tableRow rows) (maskRow plan mask rows)
        (streamStages table rows.length []) state.run ∧
      state.published.flatten =
        publishedFrom approveRef plan mask rows table (List.range' 0 rows.length) := by
  obtain ⟨ended, outputs⟩ := streaming.finished finished
  have unread := streaming.unread
  rw [streaming.ended ended, List.flatten_nil, List.drop_eq_nil_iff] at unread
  have offset : state.offset = rows.length := Nat.le_antisymm streaming.within unread
  have aligned := streaming.masked
  rw [outputs] at aligned
  have pending : state.pending = [] := by
    rw [StreamState.pending, List.map_eq_nil_iff.mp aligned.symm, List.flatMap_nil]
  have accounts := streaming.accounts
  have published := streaming.published
  rw [offset, pending] at accounts published
  refine ⟨accounts, ?_⟩
  simpa [publishedFrom] using published

end Invariant

section Refinement

variable {V : Type u} {ρ : Type u}

def chunkOf (cells : List (Nat × Nat)) : List (Row Nat) := ((sampleTables cells) "t").getD []

-- The masker reads two chunks ahead; the first chunk is held back, the second renders one of its
-- two rows.
example : ∃ final, StreamRun some some samplePlan "t" id (StreamState.start (sampleStore 5)
      ([[(0, 1)], [], [(7, 0), (3, 9)], [(4, 5)]].map chunkOf)) (.ok final) ∧
    final.published.length = 2 :=
  ⟨_, .next .pull rfl (.next .pull rfl (.next .pull rfl (.next .pull rfl (.next .emit rfl
    (.next .pull rfl (.next .emit rfl (.next .finish rfl (.done rfl)))))))), rfl⟩

/-- A column that quarantines what it cannot parse, and one that fails on it. -/
def failingPlan : CastPlan Nat String where
  tables := Dict.empty.set "t" [sampleColumn "a" .quarantine, sampleColumn "b" .fail]
  distinct := by decide

end Refinement

end DecoyEngine.DeclaredCasting
