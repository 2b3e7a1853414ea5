import DecoyEngine.Execution.CarryLaw

namespace DecoyEngine.Execution.Carry

open DecoyEngine.Data DecoyEngine.Relationships

/-! Where carrying interferes: a read under an alias feeds nulls to the node. -/

section Resolve

variable {run : TableRun} {index : FrameIndex} {keys : List String} {predicate : WhenExpr}
  {referent : TableRun.Referent} {name : String}

theorem column_of_resolve {identifier : String}
    (stands : run.resolve index keys identifier = .column name) : name ∈ keys := by
  have never : ∀ resolver ∈ TableRun.indexResolvers index, resolver.2 ≠ .column name := by
    have level : ∀ level : IndexLevel, TableRun.IndexLevel.referent level ≠ .column name := by
      intro level
      rw [TableRun.IndexLevel.referent]
      split <;> nofun
    intro resolver member
    rcases List.mem_append.mp member with here | here
    · obtain ⟨number, bound, rfl⟩ := List.mem_mapIdx.mp here
      exact level _
    · simp only [List.mem_cons, List.not_mem_nil, or_false] at here
      rcases here with rfl | rfl | rfl
      · dsimp only
        split
        · exact level _
        · nofun
      · nofun
      · nofun
  rw [TableRun.resolve] at stands
  split at stands
  · rename_i column found
    cases stands
    exact List.mem_reverse.mp (List.mem_of_find?_eq_some found)
  · split at stands
    · rename_i resolver found
      exact absurd stands (never resolver (List.mem_reverse.mp (List.mem_of_find?_eq_some found)))
    · cases stands

theorem level_of_resolve {identifier : String}
    (stands : run.resolve index keys identifier = .level name) : name ∈ index.columns := by
  have level : ∀ level ∈ index.levels, TableRun.IndexLevel.referent level = .level name →
      name ∈ index.columns := by
    intro level member same
    refine List.mem_filterMap.mpr ⟨level, member, ?_⟩
    rw [TableRun.IndexLevel.referent] at same
    split at same
    · rename_i column labels
      cases same
      simp only [labels]
    · cases same
  rw [TableRun.resolve] at stands
  split at stands
  · cases stands
  · split at stands
    · rename_i resolver found
      rcases List.mem_append.mp (List.mem_reverse.mp (List.mem_of_find?_eq_some found))
        with here | here
      · obtain ⟨number, bound, rfl⟩ := List.mem_mapIdx.mp here
        exact level _ (List.getElem_mem bound) stands
      · simp only [List.mem_cons, List.not_mem_nil, or_false] at here
        rcases here with rfl | rfl | rfl
        · dsimp only at stands
          split at stands
          · rename_i only levels
            exact level only (levels ▸ List.mem_singleton_self only) stands
          · cases stands
        · cases stands
        · cases stands
    · cases stands

theorem shown_within (resolves : referent ∈ run.resolved index keys predicate)
    (showing : referent.shows = some name) :
    referent = .column name ∧ name ∈ keys ∨ referent = .level name ∧ name ∈ index.columns := by
  obtain ⟨identifier, _, rfl⟩ := List.mem_map.mp resolves
  generalize stands : run.resolve index keys (run.nfkc identifier) = referent at showing
  cases referent with
  | column column =>
      cases showing
      exact .inl ⟨rfl, column_of_resolve stands⟩
  | level column =>
      cases showing
      exact .inr ⟨rfl, level_of_resolve stands⟩
  | range start step => cases showing
  | tuples => cases showing
  | columnNames => cases showing
  | nothing => cases showing

end Resolve

section Probe

def nullRead : Failure := ⟨"null_read", ""⟩

def seesNull (column : Option (Column Unit)) : Bool := (column.getD []).any Option.isNone

def Operand.seesNull : Operand Unit → Bool
  | .cells column => column.any Option.isNone
  | _ => false

/-- Columns convert as they are; a predicate and a handler fail on a null they are shown. -/
def probe : Engine Unit Unit where
  label _ column := .ok column
  ingest _ column := .ok column
  emit _ column := .ok column
  blankLabels _ _ := ⟨_, rfl⟩
  placeholders _ _ := ⟨_, _, rfl, rfl⟩
  evaluate _ operands rows :=
    if operands.any Operand.seesNull then .error nullRead else .ok (List.replicate rows false)
  preflight _ context := .ok context
  handler _ input context :=
    if seesNull input.sibling then .error nullRead else .ok ⟨[some ()], [], context⟩
  widen _ own _ _ := .ok own
  projection _ := .ok ()

/-- One row without a null. -/
def probeChunk (schema : Schema) (distinct : schema.names.Nodup) : Chunk Unit where
  rows := 1
  columns := ⟨schema.names.map fun name => (name, [some ()]),
    by simpa [Function.comp_def] using distinct⟩
  index := schema.index
  even := by
    intro name column found
    obtain ⟨_, _, same⟩ := List.mem_map.mp (Dict.mem_entries.mpr found)
    cases same
    rfl

def Whole (column : Option (Column Unit)) : Prop := seesNull column = false

/-- Among the snapshots and the labels, those of the carried columns hold a null, the others
none. -/
structure BlankedSetup (carried : List String) (setup : Setup Unit) : Prop where
  snapshots : ∀ name, name ∉ carried → Whole (setup.snapshots name)
  inside : ∀ name ∈ carried, name ∈ setup.index.columns → seesNull (setup.labels name) = true
  outside : ∀ name, name ∉ carried → Whole (setup.labels name)

variable {run : TableRun} {setup : Setup Unit} {state : State Unit Unit} {entry : Entry}

theorem seesNull_cells (column : Option (Column Unit)) :
    ((column.map Operand.cells).getD .nothing).seesNull = seesNull column := by
  cases column <;> rfl

theorem operand_whole {frame : Frame Unit} {referent : TableRun.Referent}
    (cells : ∀ name, referent = .column name → Whole (frame.find name))
    (labels : ∀ name, referent = .level name → Whole (setup.labels name)) :
    (operand setup frame referent).seesNull = false := by
  cases referent with
  | column name => exact (seesNull_cells _).trans (cells name rfl)
  | level name => exact (seesNull_cells _).trans (labels name rfl)
  | range start step => rfl
  | tuples => rfl
  | columnNames => rfl
  | nothing => rfl

theorem whole_set {frame : Frame Unit} (whole : ∀ name, Whole (frame.find name)) (name : String) :
    ∀ other, Whole ((frame.set name [some ()]).find other) := by
  intro other
  rw [Dict.find_set]
  split
  · rfl
  · exact whole other

theorem any_false_replicate (rows : Nat) : (List.replicate rows false).any id = false := by
  rw [List.any_eq_false]
  intro value member
  rw [List.eq_of_mem_replicate member]
  decide

theorem gated_step {predicate : WhenExpr} (gate : entry.when = some predicate)
    (whole : ∀ referent ∈ run.resolved setup.index state.frame.keys predicate,
      (operand setup state.frame referent).seesNull = false) :
    runWithWhenGate probe run setup state entry = .ok state := by
  have unseen : ((run.resolved setup.index state.frame.keys predicate).map
      (operand setup state.frame)).any Operand.seesNull = false := by
    rw [List.any_map, List.any_eq_false]
    intro referent member
    rw [Function.comp_apply, whole referent member]
    decide
  rw [runWithWhenGate, gate]
  change (probe.evaluate predicate _ setup.rows).bind _ = _
  have evaluated : probe.evaluate predicate ((run.resolved setup.index state.frame.keys
      predicate).map (operand setup state.frame)) setup.rows =
        .ok (List.replicate setup.rows false) :=
    if_neg (by rw [unseen]; decide)
  rw [evaluated]
  exact if_neg (by rw [any_false_replicate]; decide)

theorem handler_step (gate : entry.when = none) (masks : entry.strategy ≠ .passthrough)
    (present : ¬ ((state.frame.find entry.name).isNone && !TableRun.creates entry))
    (whole : Whole (sibling setup state.frame entry)) :
    runWithWhenGate probe run setup state entry =
      .ok ⟨state.frame.set entry.name [some ()], (), state.rowErrors ++ []⟩ := by
  have called : ∀ input : HandlerInput Unit, input.sibling = sibling setup state.frame entry →
      probe.handler entry input state.context = .ok ⟨[some ()], [], state.context⟩ := by
    intro input same
    exact if_neg (by rw [same, whole]; decide)
  rw [runWithWhenGate, gate]
  change runHandler probe setup state entry = _
  rw [runHandler, if_neg masks, if_neg present, called _ rfl]
  rfl

theorem passthrough_step (gate : entry.when = none) (passes : entry.strategy = .passthrough) :
    runWithWhenGate probe run setup state entry = .ok state := by
  rw [runWithWhenGate, gate]
  exact if_pos passes

theorem missing_step (gate : entry.when = none) (masks : entry.strategy ≠ .passthrough)
    (missing : (state.frame.find entry.name).isNone && !TableRun.creates entry) :
    runWithWhenGate probe run setup state entry = .error (keyError entry.name) := by
  rw [runWithWhenGate, gate]
  exact (if_neg masks).trans (if_pos missing)

theorem whole_step (started : BlankedSetup [] setup)
    (whole : ∀ name, Whole (state.frame.find name)) :
    (∃ done, runWithWhenGate probe run setup state entry = .ok done ∧
      ∀ name, Whole (done.frame.find name)) ∨
    runWithWhenGate probe run setup state entry = .error (keyError entry.name) := by
  cases gate : entry.when with
  | some predicate =>
      refine .inl ⟨state, gated_step gate fun referent _ => ?_, whole⟩
      exact operand_whole (fun name _ => whole name)
        fun name _ => started.outside name List.not_mem_nil
  | none =>
      have sees : Whole (sibling setup state.frame entry) := by
        rw [sibling]
        cases TableRun.siblingRead entry with
        | nothing => rfl
        | snapshot column => exact started.snapshots column List.not_mem_nil
        | live column => exact whole column
      by_cases passes : entry.strategy = .passthrough
      · exact .inl ⟨state, passthrough_step gate passes, whole⟩
      · by_cases missing : (state.frame.find entry.name).isNone && !TableRun.creates entry
        · exact .inr (missing_step gate passes missing)
        · exact .inl ⟨_, handler_step gate passes missing sees, whole_set whole entry.name⟩

theorem whole_run (started : BlankedSetup [] setup) {nodes : List Entry}
    (whole : ∀ name, Whole (state.frame.find name)) :
    runNodes probe run setup nodes state ≠ .error nullRead := by
  induction nodes generalizing state with
  | nil => exact nofun
  | cons entry entries ih =>
      rw [runNodes]
      have step : (∃ done, runWithWhenGate probe run setup state entry = .ok done ∧ _) ∨ _ :=
        whole_step started whole
      obtain ⟨done, ok, after⟩ | failed := step
      · rw [ok]
        exact ih after
      · rw [failed]
        intro same
        have codes : "KeyError" = "null_read" :=
          congrArg Failure.code (Except.error.inj same)
        exact absurd codes (by decide)

/-- The carried columns hold a null, the others none. -/
structure Blanked (carried keys : List String) (frame : Frame Unit) : Prop where
  columns : frame.keys = keys
  inside : ∀ name ∈ carried, name ∈ keys → seesNull (frame.find name) = true
  outside : ∀ name, name ∉ carried → Whole (frame.find name)

variable {carried keys : List String}

/-- A sibling that is not carried shows no blank. -/
theorem sibling_whole (started : BlankedSetup carried setup)
    (blanked : Blanked carried keys state.frame)
    (unread : ∀ column ∈ readsOf run setup.index keys entry, column ∉ carried) :
    Whole (sibling setup state.frame entry) := by
  rw [sibling]
  cases read : TableRun.siblingRead entry with
  | nothing => rfl
  | snapshot column =>
      exact started.snapshots column (unread column (mem_readsOf.mpr (.inr (.inl read))))
  | live column =>
      by_cases present : column ∈ keys
      · exact blanked.outside column
          (unread column (mem_readsOf.mpr (.inr (.inr ⟨read, present⟩))))
      · have missing : state.frame.find column = none :=
          Dict.find_eq_none.mpr (blanked.columns.symm ▸ present)
        change Whole (state.frame.find column)
        rw [missing]
        rfl

theorem blanked_step (started : BlankedSetup carried setup)
    (blanked : Blanked carried keys state.frame)
    (own : entry.strategy ≠ .passthrough → entry.name ∉ carried)
    (ungated : TableRun.creates entry → entry.when = none)
    (unread : ∀ column ∈ readsOf run setup.index keys entry, column ∉ carried)
    (continues : Continues keys entry) :
    ∃ done, runWithWhenGate probe run setup state entry = .ok done ∧
      Blanked carried (keysAfter keys entry) done.frame := by
  obtain ⟨done, ok, inside, outside⟩ :
      ∃ done, runWithWhenGate probe run setup state entry = .ok done ∧
        (∀ name ∈ carried, done.frame.find name = state.frame.find name) ∧
        ∀ name, name ∉ carried → Whole (done.frame.find name) := by
    cases gate : entry.when with
    | some predicate =>
        refine ⟨state, gated_step gate fun referent resolves => ?_, fun _ _ => rfl,
          blanked.outside⟩
        rw [blanked.columns] at resolves
        have outside : ∀ name, referent.shows = some name → name ∉ carried := fun name showing =>
          unread name (mem_readsOf.mpr (.inl ⟨predicate, gate, referent, resolves, showing⟩))
        exact operand_whole
          (fun name same => blanked.outside name (outside name (by rw [same]; rfl)))
          (fun name same => started.outside name (outside name (by rw [same]; rfl)))
    | none =>
        by_cases passes : entry.strategy = .passthrough
        · exact ⟨state, passthrough_step gate passes, fun _ _ => rfl, blanked.outside⟩
        · have present :
              ¬ ((state.frame.find entry.name).isNone && !TableRun.creates entry) = true := by
            intro missing
            rw [Bool.and_eq_true, Option.isNone_iff_eq_none, Dict.find_eq_none, blanked.columns,
              Bool.not_eq_true'] at missing
            rcases continues with gated | passes' | creates | known
            · rw [gate] at gated
              cases gated
            · exact passes passes'
            · rw [creates] at missing
              cases missing.2
            · exact missing.1 known
          have sees := sibling_whole started blanked unread
          refine ⟨_, handler_step gate passes present sees, ?_, ?_⟩
          · intro name inside
            have different : name ≠ entry.name := fun same => own passes (same ▸ inside)
            exact (Dict.find_set _ _ _ _).trans (if_neg different)
          · intro name outside
            change Whole ((state.frame.set entry.name [some ()]).find name)
            rw [Dict.find_set]
            split
            · rfl
            · exact blanked.outside name outside
  have after := (keys_runWithWhenGate ungated ok).1
  rw [blanked.columns] at after
  refine ⟨done, ok, after, ?_, outside⟩
  intro name member known
  rw [inside name member]
  refine blanked.inside name member ?_
  rw [keysAfter] at known
  split at known
  · rename_i creates
    refine (List.mem_append.mp known).resolve_right fun last => ?_
    rw [List.mem_singleton] at last
    refine own ?_ (last ▸ member)
    intro passes
    have never := creates.2.1
    rw [TableRun.creates, passes] at never
    cases never
  · exact known

theorem alias_step (started : BlankedSetup carried setup)
    (blanked : Blanked carried keys state.frame)
    (ungated : TableRun.creates entry → entry.when = none)
    (aliased : ReadsUnderAlias run setup.index carried keys entry) :
    runWithWhenGate probe run setup state entry = .error nullRead := by
  rcases aliased with ⟨predicate, gate, name, member, referent, resolves, showing⟩ |
    ⟨strategy, setting, known, truthy, _, member, present⟩
  · rw [runWithWhenGate, gate]
    change (probe.evaluate predicate _ setup.rows).bind _ = _
    have sees : (operand setup state.frame referent).seesNull = true := by
      rcases shown_within resolves showing with ⟨rfl, known⟩ | ⟨rfl, known⟩
      · exact (seesNull_cells _).trans (blanked.inside name member known)
      · exact (seesNull_cells _).trans (started.inside name member known)
    have evaluated : probe.evaluate predicate ((run.resolved setup.index state.frame.keys
        predicate).map (operand setup state.frame)) setup.rows = .error nullRead := by
      refine if_pos ?_
      rw [List.any_map, List.any_eq_true]
      exact ⟨referent, blanked.columns.symm ▸ resolves, sees⟩
    rw [evaluated]
    rfl
  · have creates : TableRun.creates entry = true := by
      rw [TableRun.creates, strategy]
      decide
    have read : sibling setup state.frame entry = state.frame.find setting.printed := by
      have live : TableRun.siblingRead entry = .live setting.printed := by
        rw [TableRun.siblingRead, strategy]
        change TableRun.reference entry "anchor" = _
        rw [TableRun.reference, known]
        exact if_pos truthy
      rw [sibling, live]
    have called : ∀ input : HandlerInput Unit, input.sibling = sibling setup state.frame entry →
        probe.handler entry input state.context = .error nullRead := by
      intro input same
      refine if_pos ?_
      rw [same, read]
      exact blanked.inside _ member present
    rw [runWithWhenGate, ungated creates]
    change runHandler probe setup state entry = _
    rw [runHandler, if_neg (by rw [strategy]; decide), if_neg (by rw [creates]; simp),
      called _ rfl]
    rfl

theorem blanked_run (started : BlankedSetup carried setup)
    {nodes : List Entry} (blanked : Blanked carried keys state.frame)
    (own : ∀ entry ∈ nodes, entry.strategy ≠ .passthrough → entry.name ∉ carried)
    (ungated : ∀ entry ∈ nodes, TableRun.creates entry → entry.when = none)
    (reads : ∀ entry ∈ nodes, ∀ keys,
      (∃ column ∈ readsOf run setup.index keys entry, column ∈ carried) →
        ReadsUnderAlias run setup.index carried keys entry)
    (hidden : HiddenRead run setup.index carried keys nodes) :
    runNodes probe run setup nodes state = .error nullRead := by
  induction nodes generalizing state keys with
  | nil => exact hidden.elim
  | cons entry entries ih =>
      rw [runNodes]
      by_cases aliased : ReadsUnderAlias run setup.index carried keys entry
      · rw [alias_step started blanked (ungated entry List.mem_cons_self) aliased]
        rfl
      · obtain ⟨continues, later⟩ := hidden.resolve_left aliased
        have unread : ∀ column ∈ readsOf run setup.index keys entry, column ∉ carried :=
          fun column read inside =>
            aliased (reads entry List.mem_cons_self keys ⟨column, read, inside⟩)
        obtain ⟨done, ok, next⟩ := blanked_step started blanked (own entry List.mem_cons_self)
          (ungated entry List.mem_cons_self) unread continues
        rw [ok]
        exact ih next (fun entry member => own entry (List.mem_cons_of_mem _ member))
          (fun entry member => ungated entry (List.mem_cons_of_mem _ member))
          (fun entry member => reads entry (List.mem_cons_of_mem _ member)) later

theorem convert_id {V : Type} (change : String → Column V → Except Failure (Column V))
    (same : ∀ name column, change name column = .ok column)
    (columns : String → Option (Column V)) (names : List String) (start : Frame V) :
    ∃ done, convert change columns names start = .ok done ∧ ∀ name, done.find name =
      if name ∈ names then (columns name).or (start.find name) else start.find name := by
  induction names generalizing start with
  | nil => exact ⟨start, rfl, fun name => by simp⟩
  | cons first rest ih =>
      cases known : columns first with
      | none =>
          obtain ⟨done, ok, find⟩ := ih start
          refine ⟨done, (convert_cons_none rest start known).trans ok, fun name => ?_⟩
          rw [find]
          by_cases later : name ∈ rest
          · simp [later]
          · by_cases here : name = first <;> simp [later, here, known]
      | some column =>
          obtain ⟨done, ok, find⟩ := ih (start.set first column)
          refine ⟨done, (convert_cons_ok rest start known (same first column)).trans ok, ?_⟩
          intro name
          rw [find, Dict.find_set]
          by_cases later : name ∈ rest
          · by_cases here : name = first <;> simp [later, here, known]
          · by_cases here : name = first <;> simp [later, here, known]

variable (run) in
theorem probe_frames (chunk : Chunk Unit) :
    ∃ labels frame,
      convert probe.label chunk.columns.find chunk.index.columns Dict.empty = .ok labels ∧
      convert probe.ingest chunk.columns.find
        (run.frameColumns chunk.columns.keys chunk.index) Dict.empty = .ok frame ∧
      (∀ name, labels.find name =
        if name ∈ chunk.index.columns then chunk.columns.find name else none) ∧
      frame.keys = run.frameColumns chunk.columns.keys chunk.index ∧
      ∀ name, frame.find name =
        if name ∈ frame.keys then chunk.columns.find name else none := by
  obtain ⟨once, within⟩ :=
    frameColumns_within run chunk.index chunk.columns.distinct
  obtain ⟨labels, labelled, labelsFind⟩ := convert_id probe.label (fun _ _ => rfl)
    chunk.columns.find chunk.index.columns Dict.empty
  obtain ⟨frame, ingested, find⟩ := convert_id probe.ingest (fun _ _ => rfl)
    chunk.columns.find (run.frameColumns chunk.columns.keys chunk.index) Dict.empty
  have keys : frame.keys = run.frameColumns chunk.columns.keys chunk.index :=
    keys_convert
      (show ((Dict.empty : Frame Unit).keys ++ run.frameColumns _ chunk.index).Nodup from once)
      (fun name member => mem_keys.mp (within name member)) ingested
  refine ⟨labels, frame, labelled, ingested, fun name => ?_, keys, fun name => ?_⟩
  · rw [labelsFind, Dict.find_empty, Option.or_none]
  · rw [keys, find, Dict.find_empty, Option.or_none]

variable {schema : Schema}

theorem probeChunk_find (distinct : schema.names.Nodup) (name : String) :
    (probeChunk schema distinct).columns.find name =
      if name ∈ schema.names then some [some ()] else none := by
  have keys : (probeChunk schema distinct).columns.keys = schema.names := by
    simp [probeChunk, Dict.keys, Function.comp_def]
  split
  · rename_i member
    obtain ⟨column, found⟩ := Option.isSome_iff_exists.mp (mem_keys.mp (keys.symm ▸ member))
    obtain ⟨_, _, same⟩ := List.mem_map.mp (Dict.mem_entries.mpr found)
    cases same
    exact found
  · rename_i absent
    exact Dict.find_eq_none.mpr (keys.symm ▸ absent)

theorem probeChunk_keys (distinct : schema.names.Nodup) :
    (probeChunk schema distinct).columns.keys = schema.names := by
  simp [probeChunk, Dict.keys, Function.comp_def]

theorem probeChunk_whole (distinct : schema.names.Nodup) (name : String) :
    Whole ((probeChunk schema distinct).columns.find name) := by
  rw [probeChunk_find]
  split <;> rfl

theorem maskCarried_probe (admitted : Admitted run) (distinct : schema.names.Nodup)
    (hidden : HasHiddenRead run schema) :
    maskCarried probe run (run.plan schema.names) () (probeChunk schema distinct) =
      .error nullRead := by
  obtain ⟨nodes, ordered, hidden⟩ := hidden
  have ungated : ∀ entry ∈ nodes, TableRun.creates entry → entry.when = none :=
    fun entry member creates =>
      admitted.creates_ungated (mem_entries_of_mem_nodes ordered member) creates
  obtain ⟨_, index, keys, find⟩ :=
    (run.plan schema.names).adapterInput_spec (probeChunk schema distinct)
  rw [probeChunk_keys] at keys
  generalize input : (run.plan schema.names).adapterInput (probeChunk schema distinct) = chunk
    at index keys find
  replace index : chunk.index = schema.index := index
  obtain ⟨labels, frame, labelled, ingested, labelsFind, columns, frameFind⟩ :=
    probe_frames run chunk
  have blank : ∀ name ∈ (run.plan schema.names).carried,
      seesNull (chunk.columns.find name) = true := by
    intro name inside
    rw [find, if_pos inside, probeChunk_find, if_pos (mem_names_of_carried inside)]
    rfl
  have outside : ∀ name, name ∉ (run.plan schema.names).carried →
      Whole (chunk.columns.find name) := by
    intro name absent
    rw [find, if_neg absent]
    exact probeChunk_whole distinct name
  have framed : ∀ name, name ∉ (run.plan schema.names).carried → Whole (frame.find name) := by
    intro name absent
    rw [frameFind]
    split
    · exact outside name absent
    · rfl
  have blanked : Blanked (run.plan schema.names).carried
      (run.frameColumns schema.names schema.index) frame := by
    rw [keys, index] at columns
    refine ⟨columns, fun name inside member => ?_, framed⟩
    rw [frameFind, if_pos (columns.symm ▸ member)]
    exact blank name inside
  have started : BlankedSetup (run.plan schema.names).carried (setupOf run chunk labels frame) := by
    refine ⟨fun name absent => ?_, fun name inside member => ?_, fun name absent => ?_⟩
    · change Whole (if name ∈ run.dateShiftGroupColumns then frame.find name else none)
      split
      · exact framed name absent
      · rfl
    · exact (congrArg seesNull ((labelsFind name).trans (if_pos member))).trans
        (blank name inside)
    · change Whole (labels.find name)
      rw [labelsFind]
      split
      · exact outside name absent
      · rfl
  have ran : runNodes probe run (setupOf run chunk labels frame) nodes ⟨frame, (), []⟩ =
      .error nullRead :=
    blanked_run started blanked (none_overwritten run schema.names nodes ordered) ungated
      (fun entry member keys => (reads_carried_iff admitted ordered member _ keys).mp)
      (index.symm ▸ hidden)
  rw [maskCarried, input, maskChunk, labelled]
  change Except.map _ (Except.bind (convert probe.ingest _ _ _) _) = _
  rw [ingested, ordered]
  change Except.map _ (Except.bind (runNodes probe run _ nodes _) _) = _
  rw [ran]
  rfl

theorem maskChunk_probe {nodes : List Entry} (ordered : run.nodes = .ok nodes)
    (distinct : schema.names.Nodup) :
    maskChunk probe run () (probeChunk schema distinct) ≠ .error nullRead := by
  generalize input : probeChunk schema distinct = chunk
  have whole : ∀ name, Whole (chunk.columns.find name) := input ▸ probeChunk_whole distinct
  obtain ⟨labels, frame, labelled, ingested, labelsFind, _, frameFind⟩ :=
    probe_frames run chunk
  have framed : ∀ name, Whole (frame.find name) := by
    intro name
    rw [frameFind]
    split
    · exact whole name
    · rfl
  have started : BlankedSetup [] (setupOf run chunk labels frame) := by
    refine ⟨fun name _ => ?_, nofun, fun name _ => ?_⟩
    · change Whole (if name ∈ run.dateShiftGroupColumns then frame.find name else none)
      split
      · exact framed name
      · rfl
    · change Whole (labels.find name)
      rw [labelsFind]
      split
      · exact whole name
      · rfl
  have kept : runNodes probe run (setupOf run chunk labels frame) nodes ⟨frame, (), []⟩ ≠
      .error nullRead := whole_run started framed
  rw [maskChunk, labelled]
  change Except.bind (convert probe.ingest _ _ _) _ ≠ _
  rw [ingested, ordered]
  change Except.bind (runNodes probe run _ nodes _) _ ≠ _
  cases done : runNodes probe run (setupOf run chunk labels frame) nodes ⟨frame, (), []⟩ with
  | error failure =>
      rw [done] at kept
      intro same
      cases same
      exact kept rfl
  | ok state =>
      obtain ⟨outputs, emitted, _⟩ := convert_id probe.emit (fun _ _ => rfl)
        state.frame.find state.frame.keys Dict.empty
      change Except.map _ (convert probe.emit state.frame.find state.frame.keys _) ≠ _
      rw [emitted]
      intro same
      cases same

theorem nodup_of_hidden (hidden : HasHiddenRead run schema) : schema.names.Nodup := by
  by_contra repeated
  obtain ⟨nodes, _, hidden⟩ := hidden
  have none : (run.plan schema.names).carried = [] := by
    rw [List.eq_nil_iff_forall_not_mem]
    exact fun name carried => repeated (mem_carried carried).1
  rw [none] at hidden
  have never : ∀ (nodes : List Entry) (keys : List String),
      ¬ HiddenRead run schema.index [] keys nodes := by
    intro nodes
    induction nodes with
    | nil => exact fun _ => id
    | cons entry entries ih =>
        rintro keys (aliased | ⟨_, later⟩)
        · rcases aliased with ⟨_, _, name, member, _⟩ | ⟨_, _, _, _, _, member, _⟩ <;>
            cases member
        · exact ih _ later
  exact never nodes _ hidden

theorem not_carryIsSafe_of_hidden (admitted : Admitted run)
    (hidden : HasHiddenRead run schema) : ¬ CarryIsSafe run schema := by
  intro safe
  have distinct := nodup_of_hidden hidden
  obtain ⟨nodes, ordered, _⟩ := id hidden
  have keys := probeChunk_keys distinct
  have undisturbed := safe.1 Unit Unit probe () (probeChunk schema distinct)
    (probeChunk schema distinct) ⟨keys, keys, rfl, rfl, rfl, fun _ _ => rfl⟩
  have failed := maskCarried_probe admitted distinct hidden
  cases full : maskChunk probe run () (probeChunk schema distinct) with
  | ok masked =>
      obtain ⟨produced, ok, _⟩ := undisturbed.masked masked full
      rw [failed] at ok
      cases ok
  | error failure =>
      have takes : Takes probe run (run.plan schema.names).carried (probeChunk schema distinct) :=
        ⟨fun _ _ _ column _ => ⟨column, rfl⟩, fun _ _ _ column _ => ⟨column, column, rfl, rfl⟩⟩
      have same := undisturbed.failed failure full takes
      rw [failed] at same
      cases same
      exact maskChunk_probe ordered distinct full

end Probe

/-! A redaction gated by the column `a b`, under the identifier pandas gives it. -/

/-- `clean_column_name` on letters, digits, underscores and spaces. -/
def cleanName (name : String) : String :=
  if name.toList.all fun char => char.isAlphanum || char = '_' then name
  else "BACKTICK_QUOTED_STRING_" ++
    String.ofList (name.toList.map fun char => if char = ' ' then '_' else char)

def gatedNote : Entry where
  name := "note"
  strategy := .redact
  provider := none
  coherentWith := []
  providerConfig := []
  when := some (.compare "BACKTICK_QUOTED_STRING_a_b" .eq (.text "vip") false)

def ordersRun : TableRun where
  table := "orders"
  entries := [gatedNote]
  exactIntegers := []
  columnRefs := fun _ => none
  providerIsComposite := fun _ => false
  nfkc := id
  cleanColumnName := cleanName

def ordersSchema : Schema := ⟨["a b", "note"], FrameIndex.default⟩

/-- Text cells, redaction, and a predicate that compares its one column with one text. -/
def textEngine : Engine String Unit where
  label _ column := .ok column
  ingest _ column := .ok column
  emit _ column := .ok column
  blankLabels _ _ := ⟨_, rfl⟩
  placeholders _ _ := ⟨_, _, rfl, rfl⟩
  evaluate predicate operands _ :=
    match predicate, operands with
    | .compare _ .eq (.text value) _, [.cells column] =>
        .ok (column.map fun cell => cell = some value)
    | _, _ => .error ⟨"when_expression_error", "note"⟩
  preflight _ context := .ok context
  handler _ input context :=
    .ok ⟨List.replicate input.rows (some "REDACTED"), [], context⟩
  widen _ own _ _ := .ok own
  projection _ := .ok ()

def ordersChunk : Chunk String where
  rows := 2
  columns := ⟨[("a b", [some "vip", some "retail"]), ("note", [some "call at 5", none])],
    by decide⟩
  index := FrameIndex.default
  even := by
    intro name column found
    have member := Dict.mem_entries.mpr found
    simp only [List.mem_cons, Prod.mk.injEq, List.not_mem_nil, or_false] at member
    rcases member with ⟨_, rfl⟩ | ⟨_, rfl⟩ <;> rfl

theorem admitted_of_redact {run : TableRun} {entry : Entry} (only : run.entries = [entry])
    (scalar : run.providerIsComposite entry.provider = false)
    (strategy : entry.strategy = .redact) : Admitted run where
  composites := by
    rw [compositeProviderOffenders, only, List.filter_cons_of_neg (by rw [scalar]; decide)]
    rfl
  strategies := by
    rw [only]
    intro other member
    rw [List.mem_singleton.mp member, strategy]
    decide
  ungated := by
    rw [only]
    intro other member refused
    rw [List.mem_singleton.mp member, strategy] at refused
    exact absurd refused (by decide)
  dateShift := by
    rw [only]
    intro other member shifts
    rw [List.mem_singleton.mp member, strategy] at shifts
    cases shifts
  groupKey := by
    intro nodes ordered other member groups
    have listed := mem_entries_of_mem_nodes ordered member
    rw [only] at listed
    rw [List.mem_singleton.mp listed, strategy] at groups
    cases groups

/-- The whole chunk is redacted where `a b` says so; with `a b` carried the note is left as it
is. -/
theorem renamed_gate_is_not_seen :
    Admitted ordersRun ∧
      (maskChunk textEngine ordersRun () ordersChunk).map (fun full => full.outputs.find "note") =
        .ok (some [some "REDACTED", none]) ∧
      (maskCarried textEngine ordersRun (ordersRun.plan ordersSchema.names) () ordersChunk).map
          (fun masked => masked.outputs.find "note") = .ok (some [some "call at 5", none]) ∧
      ¬ CarryIsSafe ordersRun ordersSchema := by
  have full : (maskChunk textEngine ordersRun () ordersChunk).map
      (fun full => full.outputs.find "note") = .ok (some [some "REDACTED", none]) := by
    decide +kernel
  have masked : (maskCarried textEngine ordersRun (ordersRun.plan ordersSchema.names) ()
      ordersChunk).map (fun masked => masked.outputs.find "note") =
        .ok (some [some "call at 5", none]) := by
    decide +kernel
  have carried : "note" ∉ (ordersRun.plan ordersSchema.names).carried := by decide +kernel
  refine ⟨admitted_of_redact rfl rfl rfl, full, masked, fun safe => ?_⟩
  have undisturbed := safe.1 String Unit textEngine () ordersChunk ordersChunk
    ⟨rfl, rfl, rfl, rfl, rfl, fun _ _ => rfl⟩
  obtain ⟨whole, ok, note⟩ := exceptMap_eq_ok full
  obtain ⟨other, otherOk, same⟩ := undisturbed.masked whole ok
  have notes := same.outside "note" carried
  obtain ⟨produced, producedOk, left⟩ := exceptMap_eq_ok masked
  rw [otherOk] at producedOk
  cases producedOk
  rw [note, left] at notes
  exact absurd notes (by decide)

/-- Carried columns interfere with masking exactly where a node reads one under an alias: an
identifier of a predicate for a column that pandas renames or makes a level of the index, or an
anchor that is not a text. -/
theorem carry_is_safe_iff (run : TableRun) (schema : Schema) (admitted : Admitted run) :
    CarryIsSafe run schema ↔ ¬ HasHiddenRead run schema :=
  ⟨fun safe hidden => not_carryIsSafe_of_hidden admitted hidden safe,
    carryIsSafe_of_unhidden admitted⟩

/-- The same table gated by a column that pandas calls by its own name. -/
def plainRun : TableRun :=
  { ordersRun with
    entries := [{ gatedNote with when := some (.compare "status" .eq (.text "vip") false) }] }

/-- Row labels that pandas wrote to the table as a column of its own. -/
def labelledSchema : Schema :=
  ⟨["note", "status", "__index_level_0__"], ⟨[⟨none, .column "__index_level_0__"⟩], none⟩⟩

example : plainRun.resolve labelledSchema.index ["note", "status"] "ilevel_0" =
    .level "__index_level_0__" := by decide +kernel

/-- The labels are carried, and only `status` is read. -/
theorem carry_is_safe_iff_plain : CarryIsSafe plainRun labelledSchema := by
  refine (carry_is_safe_iff plainRun _ (admitted_of_redact rfl rfl rfl)).mpr ?_
  rintro ⟨nodes, ordered, hidden⟩
  cases ordered
  rcases hidden with aliased | ⟨_, never⟩
  · rcases aliased with ⟨predicate, gate, name, carried, referent, resolves, showing⟩ |
      ⟨strategy, _⟩
    · cases gate
      have only : plainRun.resolved labelledSchema.index
          (plainRun.frameColumns labelledSchema.names labelledSchema.index)
          (.compare "status" .eq (.text "vip") false) = [.column "status"] := by decide +kernel
      rw [only, List.mem_singleton] at resolves
      subst resolves
      cases showing
      exact absurd carried (by decide +kernel)
    · cases strategy
  · exact never

end DecoyEngine.Execution.Carry
