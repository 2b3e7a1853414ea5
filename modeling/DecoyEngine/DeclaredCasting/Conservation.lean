import DecoyEngine.DeclaredCasting.Evidence
import DecoyEngine.DeclaredCasting.WholeRun

namespace DecoyEngine.DeclaredCasting

open DecoyEngine.Data

/-! Conservation of rows over a completed run: every source row is published once or has one
envelope in the quarantine. -/

section Stages

variable {V : Type u} {ρ : Type u} {approveRef : String → Option String} {plan : CastPlan V ρ}
  {sources masked : String → Nat → Row V}

theorem eventsAt_place {stage : RowStage} {table : String} {position : Nat} {event : CastEvent ρ}
    (member : event ∈ eventsAt approveRef plan sources masked stage table position) :
    event.place = (table, position) := by
  have parsed : ∀ {event : CastEvent ρ}, event ∈ parseEvents plan sources table position →
      event.place = (table, position) := by
    intro event eventIn
    obtain ⟨col, _, found⟩ := List.mem_filterMap.mp eventIn
    exact (parse_cells table (sources table)).place found
  cases stage with
  | unread => simp [eventsAt] at member
  | cast => exact parsed member
  | formatted =>
      rw [eventsAt, List.mem_append] at member
      rcases member with parse | format
      · exact parsed parse
      · split at format
        · obtain ⟨col, _, found⟩ := List.mem_filterMap.mp format
          exact (format_cells table (masked table)).place found
        · simp at format

/-- The reasons of the stage that rejected a row: its cast, or else its rendering. -/
def rejectionReasons (approveRef : String → Option String) (plan : CastPlan V ρ)
    (sources masked : String → Nat → Row V) (table : String) (position : Nat) :
    List (ReasonRecord ρ) :=
  if quarantineRecords approveRef (parseEvents plan sources table position) = [] then
    quarantineRecords approveRef (formatEvents plan masked table position)
  else quarantineRecords approveRef (parseEvents plan sources table position)

theorem recordsAt_formatted (table : String) (position : Nat) :
    recordsAt approveRef plan sources masked .formatted table position =
      rejectionReasons approveRef plan sources masked table position := by
  by_cases accepted : quarantineRecords approveRef (parseEvents plan sources table position) = []
  · simp only [recordsAt, eventsAt, rejectionReasons, accepted, if_true]
    rw [quarantineRecords, List.filterMap_append]
    rw [quarantineRecords] at accepted
    rw [accepted]
    rfl
  · simp only [recordsAt, eventsAt, rejectionReasons, accepted, if_false, List.append_nil]

theorem Accounts.quarantinedRows {stage : String → Nat → RowStage} {run : CastRun V ρ}
    (accounts : Accounts approveRef plan sources masked stage run)
    (approveName : String → Option String) (complete : Bool) :
    (run.ledger.evidence approveName complete).quarantinedRows = run.sink.length := by
  have places : run.ledger.rows.keys.Perm (run.sink.map QuarantineEnvelope.place) := by
    have distinct : run.ledger.rows.keys.Nodup := run.ledger.rows.distinct
    rw [List.perm_ext_iff_of_nodup distinct accounts.single]
    intro (table, position)
    have known := accounts.isQuarantined table position
    have found : (table, position) ∈ run.ledger.rows.keys ↔
        run.ledger.isQuarantined table position = true := by
      rw [CastIssueLedger.isQuarantined, Option.isSome_iff_ne_none, ne_eq, Dict.find_eq_none,
        not_not]
    rw [found, known]
    constructor
    · intro rejected
      exact List.mem_map.mpr ⟨_, (accounts.sink _).mpr ⟨table, position, rejected, rfl⟩, rfl⟩
    · intro member
      by_contra clean
      exact accounts.not_written clean member
  have lengths := places.length_eq
  rw [Dict.keys, List.length_map, List.length_map] at lengths
  exact lengths

end Stages

section Completed

variable {V : Type u} {ρ : Type u} {approveRef approveName : String → Option String}
  {plan : CastPlan V ρ} {sources outputs : Tables V}

/-- Every row of every declared table. -/
def sourcePlaces (plan : CastPlan V ρ) (sources : Tables V) : List (String × Nat) :=
  plan.tables.keys.flatMap (fun table =>
    (List.range (rowCount sources table)).map (fun position => (table, position)))

theorem mem_sourcePlaces {table : String} {position : Nat} :
    (table, position) ∈ sourcePlaces plan sources ↔
      table ∈ plan.tables.keys ∧ position < rowCount sources table := by
  simp only [sourcePlaces, List.mem_flatMap, List.mem_map, List.mem_range, Prod.mk.injEq]
  constructor
  · rintro ⟨other, declared, position', inside, rfl, rfl⟩
    exact ⟨declared, inside⟩
  · rintro ⟨declared, inside⟩
    exact ⟨table, declared, position, inside, rfl, rfl⟩

theorem sourcePlaces_nodup : (sourcePlaces plan sources).Nodup := by
  rw [sourcePlaces, List.nodup_flatMap]
  constructor
  · intro table _
    exact List.nodup_range.map fun _ _ same => (Prod.mk.inj same).2
  · refine List.Pairwise.imp (fun {first second} different => ?_) plan.tables.distinct
    intro place firstIn secondIn
    obtain ⟨_, _, rfl⟩ := List.mem_map.mp firstIn
    obtain ⟨_, _, same⟩ := List.mem_map.mp secondIn
    exact different (Prod.mk.inj same).1.symm

variable (approveRef plan sources outputs) in
/-- The events of all rows, row by row. -/
def runEvents : List (CastEvent ρ) :=
  (sourcePlaces plan sources).flatMap (fun place =>
    eventsAt approveRef plan (sourceRow sources) (maskedRow approveRef plan sources outputs)
      .formatted place.1 place.2)

theorem history_perm_runEvents {history : List (CastEvent ρ)}
    (filtered : ∀ table position, history.filter (CastEvent.isAt table position) =
      eventsAt approveRef plan (sourceRow sources) (maskedRow approveRef plan sources outputs)
        (tableStages sources plan.tables.keys.reverse plan.tables.keys.reverse table position)
        table position) :
    history.Perm (runEvents approveRef plan sources outputs) := by
  refine perm_of_filter_eq CastEvent.place fun (table, position) => ?_
  have distinct : (sourcePlaces plan sources).Nodup := sourcePlaces_nodup
  have keyed : ∀ place : String × Nat, ∀ event ∈ eventsAt approveRef plan (sourceRow sources)
      (maskedRow approveRef plan sources outputs) .formatted place.1 place.2,
      event.place = place := fun _ _ member => eventsAt_place member
  have here : history.filter (fun event => decide (event.place = (table, position))) =
      eventsAt approveRef plan (sourceRow sources) (maskedRow approveRef plan sources outputs)
        (tableStages sources plan.tables.keys.reverse plan.tables.keys.reverse table position)
        table position := filtered table position
  rw [here, runEvents, filter_flatMap_keyed CastEvent.place distinct keyed]
  simp only [mem_sourcePlaces, tableStages, List.mem_reverse]
  by_cases inside : position < rowCount sources table
  · by_cases declared : table ∈ plan.tables.keys
    · simp [inside, declared]
    · simp [declared, eventsAt]
  · simp [inside, eventsAt]

section Sink

variable {run : CastRun V ρ}
  (accounts : Accounts approveRef plan (sourceRow sources) (maskedRow approveRef plan sources outputs)
    (tableStages sources plan.tables.keys.reverse plan.tables.keys.reverse) run)
  {table : String}

include accounts

theorem mem_sinkPositions (declared : table ∈ plan.tables.keys) {position : Nat} :
    position ∈ (run.sink.filter (fun envelope => envelope.table = table)).map
        QuarantineEnvelope.position ↔
      position < rowCount sources table ∧
        accepts approveRef plan (sourceRow sources) (maskedRow approveRef plan sources outputs)
          .formatted table position = false := by
  have stage : tableStages sources plan.tables.keys.reverse plan.tables.keys.reverse table
      position = if position < rowCount sources table then .formatted else .unread := by
    simp [tableStages, declared]
  simp only [List.mem_map, List.mem_filter, decide_eq_true_eq]
  constructor
  · rintro ⟨envelope, ⟨member, rfl⟩, rfl⟩
    obtain ⟨other, place, reasons, rfl⟩ := (accounts.sink envelope).mp member
    rw [stage] at reasons
    by_cases inside : place < rowCount sources other
    · rw [if_pos inside] at reasons
      exact ⟨inside, by simpa [accepts] using reasons⟩
    · rw [if_neg inside] at reasons
      exact absurd rfl reasons
  · rintro ⟨inside, reasons⟩
    refine ⟨_, ⟨(accounts.sink _).mpr ⟨table, position, ?_, rfl⟩, rfl⟩, rfl⟩
    rw [stage, if_pos inside]
    simpa [accepts] using reasons

theorem nodup_sinkPositions :
    ((run.sink.filter (fun envelope => envelope.table = table)).map
      QuarantineEnvelope.position).Nodup := by
  have places : (run.sink.filter (fun envelope => envelope.table = table)).map
      QuarantineEnvelope.place =
      ((run.sink.filter (fun envelope => envelope.table = table)).map
        QuarantineEnvelope.position).map (fun position => (table, position)) := by
    rw [List.map_map]
    refine List.map_congr_left fun envelope member => ?_
    have here : envelope.table = table := of_decide_eq_true (List.mem_filter.mp member).2
    rw [QuarantineEnvelope.place, here]
    rfl
  have single := accounts.single.sublist
    ((List.filter_sublist (p := fun envelope => envelope.table = table)).map
      QuarantineEnvelope.place)
  rw [places] at single
  exact single.of_map

omit accounts in
theorem mem_publishedPositions {position : Nat} :
    position ∈ publishedPositions approveRef plan sources outputs table ↔
      position < rowCount sources table ∧
        accepts approveRef plan (sourceRow sources) (maskedRow approveRef plan sources outputs)
          .formatted table position = true := by
  simp only [publishedPositions, castPositions, List.mem_filter, List.mem_range'_1,
    decide_eq_true_eq]
  constructor
  · rintro ⟨⟨inside, _⟩, accepted⟩
    exact ⟨by omega, accepted⟩
  · rintro ⟨inside, accepted⟩
    refine ⟨⟨by omega, ?_⟩, accepted⟩
    by_contra parse
    have same : eventsAt approveRef plan (sourceRow sources)
        (maskedRow approveRef plan sources outputs) .formatted table position =
        parseEvents plan (sourceRow sources) table position := eventsAt_rejected parse
    rw [accepts, recordsAt, same, decide_eq_true_eq] at accepted
    exact parse accepted

/-- The published rows of a completed run and the rows in its sink are the source rows. -/
theorem published_and_sink (declared : table ∈ plan.tables.keys) :
    (publishedPositions approveRef plan sources outputs table ++
        (run.sink.filter (fun envelope => envelope.table = table)).map
          QuarantineEnvelope.position).Perm (List.range (rowCount sources table)) := by
  have apart : (publishedPositions approveRef plan sources outputs table ++
      (run.sink.filter (fun envelope => envelope.table = table)).map
        QuarantineEnvelope.position).Nodup := by
    rw [List.nodup_append]
    refine ⟨(castPositions_nodup table).filter _, nodup_sinkPositions accounts, ?_⟩
    rintro position accepted _ written rfl
    have yes := (mem_publishedPositions.mp accepted).2
    rw [((mem_sinkPositions accounts declared).mp written).2] at yes
    cases yes
  rw [List.perm_ext_iff_of_nodup apart List.nodup_range]
  intro position
  rw [List.mem_append, mem_publishedPositions, mem_sinkPositions accounts declared, List.mem_range,
    ← and_or_left]
  constructor
  · exact fun both => both.1
  · intro inside
    refine ⟨inside, ?_⟩
    cases accepts approveRef plan (sourceRow sources) (maskedRow approveRef plan sources outputs)
      .formatted table position <;> simp

end Sink

theorem alignTable_eq {run : CastRun V ρ}
    (accounts : Accounts approveRef plan (sourceRow sources)
      (maskedRow approveRef plan sources outputs)
      (tableStages sources plan.tables.keys.reverse plan.tables.keys.reverse) run)
    {table : String} (declared : table ∈ plan.tables.keys) {src : List (Row V)}
    (given : sources table = some src) :
    alignTable approveRef approveName plan run table src =
      .ok ((publishedPositions approveRef plan sources outputs table).map
        (typedRow plan (sourceRow sources) table)) := by
  have stage : ∀ position, position < rowCount sources table →
      tableStages sources plan.tables.keys.reverse plan.tables.keys.reverse table position =
        .formatted := by
    intro position inside
    simp [tableStages, declared, inside]
  have rows : src = (List.range' 0 (rowCount sources table)).map (sourceRow sources table) := by
    simp only [rowCount, given, Option.getD_some]
    rw [sourceRow, given, Option.getD_some, map_rowAt]
  have passing : ∀ position ∈ List.range' 0 (rowCount sources table),
      (parseEvents plan (sourceRow sources) table position).any CastEvent.isFail = false := by
    intro position member
    have inside : position < rowCount sources table := by
      have range := List.mem_range'_1.mp member
      omega
    have whole := accounts.passing table position
    rw [stage position inside, eventsAt, List.any_append, Bool.or_eq_false_iff] at whole
    exact whole.1
  have cast : castBatch approveRef approveName plan run table src 0 false =
      .ok (run, wholeBatch approveRef plan sources outputs table) := by
    rw [rows]
    exact castBatch_unrecorded approveName passing
  have keep : (wholeBatch approveRef plan sources outputs table).positions.zipIdx.filterMap
      (fun entry => if run.ledger.isQuarantined table entry.1 then none else some entry.2) =
      ((castPositions approveRef plan sources table).zipIdx.filter
        (fun entry => !run.ledger.isQuarantined table entry.1)).map Prod.snd := by
    rw [← List.filterMap_eq_map', List.filterMap_filter]
    refine List.filterMap_congr fun entry _ => ?_
    cases run.ledger.isQuarantined table entry.1 <;> rfl
  have accepted : (castPositions approveRef plan sources table).filter
      (fun position => !run.ledger.isQuarantined table position) =
      publishedPositions approveRef plan sources outputs table := by
    refine filter_quarantined fun position member => ?_
    have range := List.mem_range'_1.mp (List.mem_filter.mp member).1
    rw [accounts.isQuarantined, stage position (by omega)]
  simp only [alignTable, cast, bind, Except.bind, keep]
  have taken := takeRows_indices (castPositions approveRef plan sources table)
    (typedRow plan (sourceRow sources) table)
    (fun position => !run.ledger.isQuarantined table position)
  rw [accepted] at taken
  exact congrArg Except.ok taken

theorem alignRound_eq {run : CastRun V ρ} {rows : String → List (Row V)} {table : String}
    (out : Tables V)
    (aligned : ∀ src, sources table = some src →
      alignTable approveRef approveName plan run table src = .ok (rows table)) :
    alignRound approveRef approveName plan run sources outputs out table =
      .ok (fun other =>
        if other = table ∧ (sources other).isSome ∧ (outputs other).isSome then some (rows other)
        else out other) := by
  have untouched : ¬ ((sources table).isSome ∧ (outputs table).isSome) →
      out = fun other =>
        if other = table ∧ (sources other).isSome ∧ (outputs other).isSome then some (rows other)
        else out other := by
    intro skipped
    funext other
    by_cases same : other = table
    · subst same
      rw [if_neg fun both => skipped both.2]
    · rw [if_neg fun both => same both.1]
  rw [alignRound]
  cases given : sources table with
  | none => exact congrArg Except.ok (untouched (by simp [given]))
  | some src =>
      cases produced : outputs table with
      | none => exact congrArg Except.ok (untouched (by simp [produced]))
      | some _ =>
          simp only [bind, Except.bind, aligned src given]
          congr 1
          funext other
          by_cases same : other = table
          · simp [same, given, produced]
          · simp [same]

theorem alignSources_fold {run : CastRun V ρ} {rows : String → List (Row V)}
    {keys : List String} (out : Tables V)
    (aligned : ∀ table ∈ keys, ∀ src, sources table = some src →
      alignTable approveRef approveName plan run table src = .ok (rows table)) :
    keys.foldlM (alignRound approveRef approveName plan run sources outputs) out =
      .ok (fun table =>
        if table ∈ keys ∧ (sources table).isSome ∧ (outputs table).isSome then some (rows table)
        else out table) := by
  induction keys generalizing out with
  | nil => simp [pure, Except.pure]
  | cons table keys ih =>
      rw [List.foldlM_cons, alignRound_eq out (aligned table List.mem_cons_self)]
      simp only [bind, Except.bind]
      rw [ih _ fun other member => aligned other (List.mem_cons_of_mem _ member)]
      congr 1
      funext other
      by_cases same : other = table
      · subst same
        by_cases skipped : (sources other).isSome = true ∧ (outputs other).isSome = true
        · simp [skipped.1, skipped.2]
        · simp [skipped]
      · simp [same]

theorem publishedPositions_ascending (table : String) :
    (publishedPositions approveRef plan sources outputs table).Pairwise (· < ·) :=
  List.Pairwise.filter _ (List.Pairwise.filter _ List.pairwise_lt_range')

/-- A completed run accounts for every source row, once.  The published rows, known by the
positions their batch is left with, and the rows in the sink are together the rows of the
table; an envelope holds its source row and the quarantined failures of the stage that
rejected it; aligned sources are the typed published rows; the totals count the issues. -/
theorem completed_run_conserves_rows (approveRef approveName : String → Option String)
    (plan : CastPlan V ρ) (store : QuarantineStore V ρ) (sources outputs : Tables V)
    {run : CastRun V ρ} {typed : Tables V} {post : PostMask V ρ}
    (cast : preMask approveRef approveName plan (CastRun.start store) sources = .ok (run, typed))
    (fits : ∀ table ∈ plan.tables.keys, ∀ rows, (sources table).isSome →
      typed table = some rows → ∃ out, outputs table = some out ∧ out.length = rows.length)
    (formatted : postMask approveRef approveName plan run outputs typed = .ok post) :
    (∃ aligned, alignSources approveRef approveName plan post.run sources post.outputs =
        .ok aligned ∧
      ∀ table ∈ plan.tables.keys, ∀ src, sources table = some src → ∃ published : List Nat,
        (post.run.whole.find table).map CastBatch.positions = some published ∧
        published.Pairwise (· < ·) ∧
        post.outputs table = some (published.map
          (renderedRow plan (maskedRow approveRef plan sources outputs) table)) ∧
        aligned table = some (published.map (typedRow plan (sourceRow sources) table)) ∧
        (published ++ (post.run.sink.filter (fun envelope => envelope.table = table)).map
          QuarantineEnvelope.position).Perm (List.range src.length) ∧
        ∀ envelope ∈ post.run.sink, envelope.table = table →
          envelope.row = rowAt src envelope.position ∧
          envelope.reasons = rejectionReasons approveRef plan (sourceRow sources)
            (maskedRow approveRef plan sources outputs) table envelope.position ∧
          envelope.reasons ≠ []) ∧
    (∀ envelope ∈ post.run.sink, envelope.table ∈ plan.tables.keys) ∧
    (post.run.ledger.evidence approveName true).totalFailures =
      (runEvents approveRef plan sources outputs).countP CastEvent.isIssue ∧
    (post.run.ledger.evidence approveName true).totalSubstitutions =
      (runEvents approveRef plan sources outputs).countP CastEvent.isSubstitution ∧
    (post.run.ledger.evidence approveName true).quarantinedRows = post.run.sink.length ∧
    ∀ key kind, post.run.ledger.cell key kind =
      (runEvents approveRef plan sources outputs).countP (CastEvent.counts key kind) := by
  have preMasked := preMask_ok outputs cast
  have typedRows : ∀ table ∈ plan.tables.keys, (sources table).isSome →
      typed table = some (wholeBatch approveRef plan sources outputs table).rows :=
    fun table declared given => preMasked.typed table (List.mem_reverse.mpr declared) given
  have fits' : ∀ table ∈ plan.tables.keys, (sources table).isSome → ∃ out,
      outputs table = some out ∧
        out.length = (castPositions approveRef plan sources table).length := by
    intro table declared given
    obtain ⟨out, produced, length⟩ :=
      fits table declared _ given (typedRows table declared given)
    refine ⟨out, produced, ?_⟩
    rw [length]
    exact List.length_map _
  have distinct : (plan.tables.keys.reverse ++ []).Nodup := by
    rw [List.append_nil, List.nodup_reverse]
    exact plan.tables.distinct
  have done := postMask_fold distinct (fun _ declared => declared) fits' typedRows
    preMasked.postMasked formatted
  rw [List.append_nil] at done
  obtain ⟨history, records, filtered⟩ := done.accounts.history
  have events := history_perm_runEvents filtered
  refine ⟨?_, ?_, ?_, ?_, ?_, ?_⟩
  · refine ⟨_, alignSources_fold sources fun table declared src given =>
      alignTable_eq done.accounts declared given, ?_⟩
    intro table declared src given
    have present : (sources table).isSome := by simp [given]
    obtain ⟨positions, published, _⟩ := done.done table (List.mem_reverse.mpr declared) present
    have count : rowCount sources table = src.length := by simp [rowCount, given]
    refine ⟨publishedPositions approveRef plan sources outputs table, positions,
      publishedPositions_ascending table, published, ?_, ?_, ?_⟩
    · simp [declared, present, published]
    · rw [← count]
      exact published_and_sink done.accounts declared
    · intro envelope member here
      obtain ⟨other, position, reasons, rfl⟩ := (done.accounts.sink envelope).mp member
      cases here
      by_cases inside : position < rowCount sources other
      · simp only [tableStages, inside, List.mem_reverse, declared, if_true] at reasons ⊢
        refine ⟨?_, recordsAt_formatted other position, reasons⟩
        rw [sourceRow, given, Option.getD_some]
      · simp only [tableStages, inside, if_false] at reasons
        exact absurd rfl reasons
  · intro envelope member
    obtain ⟨other, position, reasons, rfl⟩ := (done.accounts.sink envelope).mp member
    by_contra undeclared
    simp only [tableStages, List.mem_reverse, undeclared, if_false, ite_self] at reasons
    exact reasons rfl
  · rw [totalFailures_eq records, events.countP_eq]
  · rw [totalSubstitutions_eq records, events.countP_eq]
  · exact done.accounts.quarantinedRows approveName true
  · intro key kind
    rw [records.cell, events.countP_eq]

end Completed

section Sample

theorem completed_run_conserves_four_rows :
    ∃ run typed post,
      preMask some some samplePlan (CastRun.start (sampleStore 5))
        (sampleTables [(0, 1), (7, 0), (3, 9), (4, 5)]) = .ok (run, typed) ∧
      postMask some some samplePlan run (sampleTables [(7, 1), (3, 2), (4, 5)]) typed = .ok post ∧
      (∀ envelope ∈ post.run.sink, envelope.table ∈ samplePlan.tables.keys) ∧
      (post.run.ledger.evidence some true).quarantinedRows = post.run.sink.length ∧
      post.run.sink.map QuarantineEnvelope.position = [0, 1] := by
  refine ⟨_, _, _, rfl, rfl, ?_⟩
  have conserved := completed_run_conserves_rows some some samplePlan (sampleStore 5)
    (sampleTables [(0, 1), (7, 0), (3, 9), (4, 5)]) (sampleTables [(7, 1), (3, 2), (4, 5)]) rfl ?_
    rfl
  · exact ⟨conserved.2.1, conserved.2.2.2.2.1, rfl⟩
  · intro table declared rows _ given
    have here : table = "t" := by
      simpa [samplePlan, Dict.set, Dict.keys, Dict.empty, Dict.append] using declared
    subst here
    cases given
    exact ⟨_, rfl, rfl⟩

/-- All failures among a stage's events, whatever the policy of their column. -/
def stageFailures (approveRef : String → Option String) {ρ : Type u} (events : List (CastEvent ρ)) :
    List (ReasonRecord ρ) :=
  events.filterMap (fun event =>
    match event with
    | .issue entry => some (CastIssueLedger.issueRecord approveRef entry)
    | _ => none)

/-- Both cells of the row fail to parse, but its envelope names the quarantining column
only: the failure of the other one is a null in the counts. -/
theorem envelope_without_null_policy_failure :
    ∃ run typed post,
      preMask some some samplePlan (CastRun.start (sampleStore 5)) (sampleTables [(0, 0)]) =
        .ok (run, typed) ∧
      postMask some some samplePlan run (sampleTables []) typed = .ok post ∧
      ∃ envelope ∈ post.run.sink, envelope.table = "t" ∧ envelope.position = 0 ∧
        envelope.reasons = [⟨"NUMERIC_INVALID", .mask, some "t.a"⟩] ∧
        stageFailures some (parseEvents samplePlan (sourceRow (sampleTables [(0, 0)])) "t" 0) =
          [⟨"NUMERIC_INVALID", .mask, some "t.a"⟩, ⟨"NUMERIC_INVALID", .mask, some "t.b"⟩] := by
  refine ⟨_, _, _, rfl, rfl, _, List.mem_singleton.mpr rfl, rfl, rfl, rfl, rfl⟩

end Sample

end DecoyEngine.DeclaredCasting
