import DecoyEngine.DeclaredCasting.Accounts

namespace DecoyEngine.DeclaredCasting

open DecoyEngine.Data

/-! `pre_mask` casts each declared table as one batch and `post_mask` renders it; between the
two stands the masker, of which only the number of rows is known. -/

variable {V : Type u} {ρ : Type u}

def rowAt (rows : List (Row V)) (position : Nat) : Row V := (rows[position]?).getD (fun _ => none)

theorem map_rowAt (rows : List (Row V)) :
    (List.range' 0 rows.length).map (rowAt rows) = rows := by
  refine List.ext_getElem (by simp) fun index _ bound => ?_
  simp [rowAt, bound]

def sourceRow (sources : Tables V) (table : String) : Nat → Row V :=
  rowAt ((sources table).getD [])

def rowCount (sources : Tables V) (table : String) : Nat := ((sources table).getD []).length

section Whole

variable (approveRef approveName : String → Option String) (plan : CastPlan V ρ)
  (sources outputs : Tables V)

/-- The rows of a table that come out of its cast. -/
def castPositions (table : String) : List Nat :=
  (List.range' 0 (rowCount sources table)).filter (fun position =>
    quarantineRecords approveRef (parseEvents plan (sourceRow sources) table position) = [])

/-- The masker's output row for a source row. -/
def maskedRow (table : String) (position : Nat) : Row V :=
  rowAt ((outputs table).getD []) ((castPositions approveRef plan sources table).idxOf position)

/-- The rows of a table that are published. -/
def publishedPositions (table : String) : List Nat :=
  (castPositions approveRef plan sources table).filter
    (accepts approveRef plan (sourceRow sources) (maskedRow approveRef plan sources outputs)
      .formatted table)

variable {approveRef approveName plan sources outputs}

theorem castPositions_nodup (table : String) : (castPositions approveRef plan sources table).Nodup :=
  List.Nodup.filter _ List.nodup_range'

variable {table : String}

theorem map_maskedRow {out : List (Row V)} (given : outputs table = some out)
    (aligned : out.length = (castPositions approveRef plan sources table).length) :
    (castPositions approveRef plan sources table).map
      (maskedRow approveRef plan sources outputs table) = out := by
  refine List.ext_getElem (by rw [List.length_map, aligned]) fun index _ bound => ?_
  rw [List.getElem_map, maskedRow, given, Option.getD_some,
    (castPositions_nodup table).idxOf_getElem]
  simp [rowAt, bound]

/-- The stages after the tables in `cast` went through `pre_mask` and those in
`formatted` through `post_mask`. -/
def tableStages (sources : Tables V) (cast formatted : List String) (table : String)
    (position : Nat) : RowStage :=
  if position < rowCount sources table then
    if table ∈ formatted then .formatted else if table ∈ cast then .cast else .unread
  else .unread

variable (approveRef plan sources outputs) in
/-- A table's batch as `pre_mask` keeps it. -/
def wholeBatch (table : String) : CastBatch V :=
  castOutcome approveRef plan (sourceRow sources) (maskedRow approveRef plan sources outputs) table 0
    (rowCount sources table)

theorem wholeBatch_positions (table : String) :
    (wholeBatch approveRef plan sources outputs table).positions =
      castPositions approveRef plan sources table := rfl

variable (approveRef plan sources outputs) in
/-- What holds between two tables of the `pre_mask` loop: the accounts of the tables so far, and the
typed batches that masking and rendering will start from. -/
structure PreMasked (processed : List String) (state : CastRun V ρ × Tables V) : Prop where
  accounts : Accounts approveRef plan (sourceRow sources) (maskedRow approveRef plan sources outputs)
    (tableStages sources processed []) state.1
  whole : ∀ table, state.1.whole.find table =
    if table ∈ processed ∧ (sources table).isSome then
      some (wholeBatch approveRef plan sources outputs table)
    else none
  typed : ∀ table ∈ processed, (sources table).isSome →
    state.2 table = some (wholeBatch approveRef plan sources outputs table).rows

theorem PreMasked.start (store : QuarantineStore V ρ) :
    PreMasked approveRef plan sources outputs [] (CastRun.start store, sources) where
  accounts := (Accounts.start store).relabel fun table position => by simp [tableStages]
  whole := by simp [CastRun.start]
  typed := by simp

variable {processed : List String}

theorem preMaskTable_step {state next : CastRun V ρ × Tables V}
    (masked : PreMasked approveRef plan sources outputs processed state) (new : table ∉ processed)
    (returned : preMaskTable approveRef approveName plan sources state table = .ok next) :
    PreMasked approveRef plan sources outputs (table :: processed) next := by
  cases given : sources table with
  | none =>
      have unchanged : state = next := by
        simpa [preMaskTable, given] using returned
      subst unchanged
      have empty : rowCount sources table = 0 := by simp [rowCount, given]
      refine ⟨masked.accounts.relabel fun other position => ?_, fun other => ?_, ?_⟩
      · by_cases same : other = table
        · simp [tableStages, same, empty]
        · simp [tableStages, same]
      · rw [masked.whole]
        by_cases same : other = table
        · simp [same, given]
        · simp [same]
      · intro other member some
        rcases List.mem_cons.mp member with same | earlier
        · simp [same, given] at some
        · exact masked.typed other earlier some
  | some src =>
      have rows : src = (List.range' 0 (rowCount sources table)).map (sourceRow sources table) := by
        simp only [rowCount, given, Option.getD_some]
        rw [sourceRow, given, Option.getD_some, map_rowAt]
      have unread : ∀ position ∈ List.range' 0 (rowCount sources table),
          tableStages sources processed [] table position = .unread := by
        intro position _
        simp [tableStages, new]
      simp only [preMaskTable, given] at returned
      rw [rows] at returned
      cases result : castBatch approveRef approveName plan state.1 table
          ((List.range' 0 (rowCount sources table)).map (sourceRow sources table)) 0 true with
      | error raise =>
          rw [result] at returned
          cases returned
      | ok outcome =>
          obtain ⟨run, cast, kept, _, accounts⟩ : ∃ run, _ :=
            (castBatch_cases approveName masked.accounts unread).resolve_left
              fun ⟨raise, raised, _⟩ => by
                rw [raised] at result
                cases result
          rw [cast] at returned
          cases returned
          refine ⟨(accounts.setWhole _).relabel fun other position => ?_, fun other => ?_, ?_⟩
          · simp only [advance, tableStages, List.mem_range'_1, List.mem_cons]
            by_cases same : other = table
            · subst same
              by_cases inside : position < rowCount sources other <;> simp [inside]
            · simp [same]
          · simp only [Dict.find_set, kept, masked.whole]
            by_cases same : other = table
            · subst same
              simp only [if_true, List.mem_cons, true_or, given, Option.isSome_some, and_self]
              rfl
            · simp [same]
          · intro other member some
            by_cases same : other = table
            · subst same
              simp only [Function.update_self]
              rfl
            · rcases List.mem_cons.mp member with equal | earlier
              · exact absurd equal same
              · simp only [Function.update_of_ne same]
                exact masked.typed other earlier some

theorem preMask_fold {keys : List String} {state final : CastRun V ρ × Tables V}
    (distinct : (keys.reverse ++ processed).Nodup)
    (masked : PreMasked approveRef plan sources outputs processed state)
    (returned : keys.foldlM (preMaskTable approveRef approveName plan sources) state = .ok final) :
    PreMasked approveRef plan sources outputs (keys.reverse ++ processed) final := by
  induction keys generalizing processed state with
  | nil =>
      cases returned
      exact masked
  | cons table keys ih =>
      rw [List.reverse_cons, List.append_assoc, List.singleton_append] at distinct ⊢
      have new : table ∉ processed :=
        (List.nodup_cons.mp (List.nodup_append.mp distinct).2.1).1
      rw [List.foldlM_cons] at returned
      cases step : preMaskTable approveRef approveName plan sources state table with
      | error raise =>
          rw [step] at returned
          cases returned
      | ok next =>
          rw [step] at returned
          exact ih distinct (preMaskTable_step masked new step) returned

variable (outputs) in
theorem preMask_ok {store : QuarantineStore V ρ} {run : CastRun V ρ} {typed : Tables V}
    (returned : preMask approveRef approveName plan (CastRun.start store) sources =
      .ok (run, typed)) :
    PreMasked approveRef plan sources outputs plan.tables.keys.reverse (run, typed) := by
  have distinct : (plan.tables.keys.reverse ++ []).Nodup := by
    rw [List.append_nil, List.nodup_reverse]
    exact plan.tables.distinct
  have done : PreMasked approveRef plan sources outputs (plan.tables.keys.reverse ++ [])
      (run, typed) := preMask_fold distinct (PreMasked.start store) returned
  rwa [List.append_nil] at done

theorem wholeBatch_framed {position : Nat}
    (member : position ∈ castPositions approveRef plan sources table)
    (quarantines : (plan.columns table).any (fun col => col.policy = .quarantine) = true) :
    (wholeBatch approveRef plan sources outputs table).raw.bind
        (fun rows => rows[position - (wholeBatch approveRef plan sources outputs table).offset]?) =
      some (sourceRow sources table position) := by
  have raw : (wholeBatch approveRef plan sources outputs table).raw =
      some ((List.range' 0 (rowCount sources table)).map (sourceRow sources table)) :=
    if_pos quarantines
  have offset : (wholeBatch approveRef plan sources outputs table).offset = 0 := rfl
  have inside := List.mem_range'_1.mp (List.mem_filter.mp member).1
  rw [raw, offset, Option.bind_some, Nat.sub_zero, List.getElem?_map,
    List.getElem?_range' (by omega)]
  simp

variable (approveRef plan sources outputs) in
/-- What holds between two tables of the `post_mask` loop: the accounts of all rows so far, the
tables to come as `pre_mask` has left them, and the processed ones published and rendered, with
their sources beside them. -/
structure PostMasked (processed : List String) (state : PostMask V ρ) : Prop where
  accounts : Accounts approveRef plan (sourceRow sources) (maskedRow approveRef plan sources outputs)
    (tableStages sources plan.tables.keys.reverse processed) state.run
  waiting : ∀ table ∉ processed, state.run.whole.find table =
    if table ∈ plan.tables.keys ∧ (sources table).isSome then
      some (wholeBatch approveRef plan sources outputs table)
    else none
  companion : ∀ table ∉ processed, table ∈ plan.tables.keys → (sources table).isSome →
    state.sources table = some (wholeBatch approveRef plan sources outputs table).rows
  done : ∀ table ∈ processed, (sources table).isSome →
    (state.run.whole.find table).map CastBatch.positions =
      some (publishedPositions approveRef plan sources outputs table) ∧
    state.outputs table = some ((publishedPositions approveRef plan sources outputs table).map
      (renderedRow plan (maskedRow approveRef plan sources outputs) table)) ∧
    state.sources table = some ((publishedPositions approveRef plan sources outputs table).map
      (typedRow plan (sourceRow sources) table))

theorem PreMasked.postMasked {run : CastRun V ρ} {typed : Tables V}
    (masked : PreMasked approveRef plan sources outputs plan.tables.keys.reverse (run, typed)) :
    PostMasked approveRef plan sources outputs [] ⟨run, outputs, typed, fun _ => none⟩ where
  accounts := masked.accounts
  waiting := by
    intro table _
    have known := masked.whole table
    simp only [List.mem_reverse] at known
    exact known
  companion := fun table _ member some =>
    masked.typed table (List.mem_reverse.mpr member) some
  done := by simp

theorem PostMasked.batch (declared : table ∈ plan.tables.keys) (new : table ∉ processed) :
    Waiting approveRef plan (sourceRow sources) (maskedRow approveRef plan sources outputs)
      (tableStages sources plan.tables.keys.reverse processed) table
      (wholeBatch approveRef plan sources outputs table) where
  distinct := castPositions_nodup table
  ready := by
    intro position member
    obtain ⟨inside, accepted⟩ := List.mem_filter.mp member
    have bound : position < rowCount sources table := by
      have range := List.mem_range'_1.mp inside
      omega
    refine ⟨?_, accepted⟩
    simp [tableStages, bound, new, declared]
  framed := fun _ member quarantines => wholeBatch_framed member quarantines

theorem eventsAt_rejected {masked : String → Nat → Row V} {rows : String → Nat → Row V}
    {position : Nat}
    (rejected : ¬ quarantineRecords approveRef (parseEvents plan rows table position) = []) :
    eventsAt approveRef plan rows masked .formatted table position =
      eventsAt approveRef plan rows masked .cast table position := by
  simp only [eventsAt, rejected, if_false, List.append_nil]

variable (approveName) in
theorem formatWhole_ok {run : CastRun V ρ} (accounts : Accounts approveRef plan (sourceRow sources)
      (maskedRow approveRef plan sources outputs)
      (tableStages sources plan.tables.keys.reverse processed) run)
    (declared : table ∈ plan.tables.keys) (new : table ∉ processed) {formatted : Formatted V ρ}
    (returned : formatBatch approveRef approveName plan run table
      ((castPositions approveRef plan sources table).map
      (maskedRow approveRef plan sources outputs table))
      (wholeBatch approveRef plan sources outputs table) = .ok formatted) :
    formatted.rows = (publishedPositions approveRef plan sources outputs table).map
      (renderedRow plan (maskedRow approveRef plan sources outputs) table) ∧
    keepRows formatted.keep (wholeBatch approveRef plan sources outputs table).rows =
      (publishedPositions approveRef plan sources outputs table).map
        (typedRow plan (sourceRow sources) table) ∧
    formatted.batch.positions = publishedPositions approveRef plan sources outputs table ∧
    formatted.run.whole = run.whole ∧
    Accounts approveRef plan (sourceRow sources) (maskedRow approveRef plan sources outputs)
      (tableStages sources plan.tables.keys.reverse (table :: processed)) formatted.run := by
  have waiting : Waiting approveRef plan (sourceRow sources)
      (maskedRow approveRef plan sources outputs)
      (tableStages sources plan.tables.keys.reverse processed) table
      (wholeBatch approveRef plan sources outputs table) := PostMasked.batch declared new
  obtain ⟨result, rendered, rows, keep, batch, whole, _, accounts'⟩ : ∃ result, _ :=
    (formatBatch_cases approveName accounts waiting).resolve_left fun ⟨raise, raised, _⟩ => by
      have same := raised.symm.trans returned
      cases same
  have same : Except.ok formatted = Except.ok result := returned.symm.trans rendered
  cases same
  refine ⟨rows, keep _, ?_, whole, accounts'.relabel fun other position => ?_⟩
  · rw [batch]
    rfl
  · by_cases here : other = table
    · subst here
      by_cases inside : position < rowCount sources other
      · by_cases accepted : quarantineRecords approveRef
            (parseEvents plan (sourceRow sources) other position) = []
        · have member : position ∈ castPositions approveRef plan sources other :=
            List.mem_filter.mpr ⟨List.mem_range'_1.mpr (by omega), decide_eq_true accepted⟩
          rw [wholeBatch_positions, advance_at _ _ member]
          simp [tableStages, inside]
        · have outside : position ∉ castPositions approveRef plan sources other := fun member =>
            accepted (of_decide_eq_true (List.mem_filter.mp member).2)
          rw [wholeBatch_positions, advance_elsewhere _ _ fun both => outside both.2]
          simp [tableStages, inside, new, declared, eventsAt_rejected accepted]
      · have outside : position ∉ castPositions approveRef plan sources other := by
          intro member
          have range := List.mem_range'_1.mp (List.mem_filter.mp member).1
          omega
        rw [wholeBatch_positions, advance_elsewhere _ _ fun both => outside both.2]
        simp [tableStages, inside]
    · rw [advance_elsewhere _ _ fun both => here both.1]
      simp [tableStages, here]

/-- A declared table that the job does not have leaves the state alone. -/
theorem PostMasked.absent {state : PostMask V ρ}
    (masked : PostMasked approveRef plan sources outputs processed state)
    (missing : sources table = none) :
    PostMasked approveRef plan sources outputs (table :: processed) state := by
  have empty : rowCount sources table = 0 := by simp [rowCount, missing]
  refine ⟨masked.accounts.relabel fun other position => ?_, ?_, ?_, ?_⟩
  · by_cases same : other = table
    · simp [tableStages, same, empty]
    · simp [tableStages, same]
  · exact fun other outside => masked.waiting other (fun inside =>
      outside (List.mem_cons_of_mem _ inside))
  · exact fun other outside => masked.companion other (fun inside =>
      outside (List.mem_cons_of_mem _ inside))
  · intro other member some
    rcases List.mem_cons.mp member with same | earlier
    · simp [same, missing] at some
    · exact masked.done other earlier some

theorem postMaskTable_step {typed : Tables V} {state next : PostMask V ρ}
    (masked : PostMasked approveRef plan sources outputs processed state)
    (declared : table ∈ plan.tables.keys) (new : table ∉ processed)
    (fits : (sources table).isSome → ∃ out, outputs table = some out ∧
      out.length = (castPositions approveRef plan sources table).length)
    (companion : (sources table).isSome →
      typed table = some (wholeBatch approveRef plan sources outputs table).rows)
    (returned : postMaskTable approveRef approveName plan outputs typed state table = .ok next) :
    PostMasked approveRef plan sources outputs (table :: processed) next := by
  cases given : sources table with
  | none =>
      have missing : state.run.whole.find table = none := by
        rw [masked.waiting table new]
        simp [given]
      have unchanged : state = next := by
        rw [postMaskTable, missing] at returned
        cases outputs table <;> simpa using returned
      subst unchanged
      exact masked.absent given
  | some src =>
      have present : (sources table).isSome := by simp [given]
      obtain ⟨out, produced, length⟩ := fits present
      have batch : state.run.whole.find table =
          some (wholeBatch approveRef plan sources outputs table) := by
        rw [masked.waiting table new]
        simp [given, declared]
      have rows : out = (wholeBatch approveRef plan sources outputs table).positions.map
          (maskedRow approveRef plan sources outputs table) :=
        (map_maskedRow produced length).symm
      simp only [postMaskTable, produced, batch] at returned
      rw [rows] at returned
      cases result : formatBatch approveRef approveName plan state.run table
          ((wholeBatch approveRef plan sources outputs table).positions.map
            (maskedRow approveRef plan sources outputs table))
          (wholeBatch approveRef plan sources outputs table) with
      | error raise =>
          rw [result] at returned
          cases returned
      | ok formatted =>
          obtain ⟨rendered, kept, positions, whole, accounts⟩ :=
            formatWhole_ok approveName masked.accounts declared new result
          rw [result] at returned
          have elsewhere : ∀ other ∉ table :: processed, other ≠ table ∧ other ∉ processed :=
            fun other outside => by simpa using outside
          have reached : next.run =
                { formatted.run with whole := formatted.run.whole.set table formatted.batch } ∧
              next.outputs = Function.update state.outputs table (some formatted.rows) ∧
              (∀ other ≠ table, next.sources other = state.sources other) ∧
              next.sources table =
                some (keepRows formatted.keep
                  (wholeBatch approveRef plan sources outputs table).rows) := by
            cases keep : formatted.keep with
            | none =>
                simp only [bind, Except.bind, keep] at returned
                cases returned
                exact ⟨rfl, rfl, fun _ _ => rfl, masked.companion table new declared present⟩
            | some indices =>
                simp only [bind, Except.bind, keep] at returned
                cases returned
                refine ⟨rfl, rfl, fun other different => Function.update_of_ne different _ _, ?_⟩
                simp only [Function.update_self, companion present]
                rfl
          obtain ⟨run, published, others, here⟩ := reached
          refine ⟨?_, ?_, ?_, ?_⟩
          · rw [run]
            exact accounts.setWhole _
          · intro other outside
            obtain ⟨different, earlier⟩ := elsewhere other outside
            rw [run]
            simp only [Dict.find_set, different, if_false, whole]
            exact masked.waiting other earlier
          · intro other outside
            obtain ⟨different, earlier⟩ := elsewhere other outside
            rw [others other different]
            exact masked.companion other earlier
          · intro other member some
            by_cases same : other = table
            · subst same
              rw [run, published, here, kept, Function.update_self, rendered]
              refine ⟨?_, rfl, rfl⟩
              simp only [Dict.find_set, if_true, Option.map_some, positions]
            · have earlier : other ∈ processed := by simpa [same] using member
              rw [run, published, others other same, Function.update_of_ne same]
              simp only [Dict.find_set, same, if_false, whole]
              exact masked.done other earlier some

theorem postMask_fold {typed : Tables V} {keys : List String} {state final : PostMask V ρ}
    (distinct : (keys.reverse ++ processed).Nodup)
    (declared : ∀ table ∈ keys, table ∈ plan.tables.keys)
    (fits : ∀ table ∈ keys, (sources table).isSome → ∃ out, outputs table = some out ∧
      out.length = (castPositions approveRef plan sources table).length)
    (companion : ∀ table ∈ keys, (sources table).isSome →
      typed table = some (wholeBatch approveRef plan sources outputs table).rows)
    (masked : PostMasked approveRef plan sources outputs processed state)
    (returned : keys.foldlM (postMaskTable approveRef approveName plan outputs typed) state =
      .ok final) :
    PostMasked approveRef plan sources outputs (keys.reverse ++ processed) final := by
  induction keys generalizing processed state with
  | nil =>
      cases returned
      exact masked
  | cons table keys ih =>
      rw [List.reverse_cons, List.append_assoc, List.singleton_append] at distinct ⊢
      have new : table ∉ processed :=
        (List.nodup_cons.mp (List.nodup_append.mp distinct).2.1).1
      have first : table ∈ table :: keys := List.mem_cons_self
      rw [List.foldlM_cons] at returned
      cases step : postMaskTable approveRef approveName plan outputs typed state table with
      | error raise =>
          rw [step] at returned
          cases returned
      | ok next =>
          rw [step] at returned
          exact ih distinct (fun other member => declared other (List.mem_cons_of_mem _ member))
            (fun other member => fits other (List.mem_cons_of_mem _ member))
            (fun other member => companion other (List.mem_cons_of_mem _ member))
            (postMaskTable_step masked (declared table first) new (fits table first)
              (companion table first) step) returned

end Whole

/-! A table with a quarantining column, whose format refuses `7`, and a column that nulls
what it cannot parse; neither parses `0`. -/

section Sample

def sampleColumn (name : String) (policy : Disposition) : CastColumn Nat String where
  name := name
  parse := fun raw => if raw = 0 then .error "NUMERIC_INVALID" else .ok raw
  fmt := some (fun value => if value = 7 then .error (.reason "FORMAT_WIDTH") else .ok value)
  isSentinel := fun raw => raw = 9
  policy := policy

def samplePlan : CastPlan Nat String where
  tables := Dict.empty.set "t" [sampleColumn "a" .quarantine, sampleColumn "b" .null]
  distinct := by decide

/-- One row for each pair of cells. -/
def sampleTables (cells : List (Nat × Nat)) : Tables Nat :=
  fun table =>
    if table = "t" then
      some (cells.map (fun row name =>
        if name = "a" then some row.1 else if name = "b" then some row.2 else none))
    else none

/-- A store that takes up to `maxRows` rows. -/
def sampleStore (maxRows : Nat) : QuarantineStore Nat String where
  maxRows := maxRows
  maxBytes := 1000
  lineLength _ := some 10
  opens := true
  serves _ := true

end Sample

end DecoyEngine.DeclaredCasting
