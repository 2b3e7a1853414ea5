import DecoyEngine.Execution.ChunkedMasking

namespace DecoyEngine.Execution.Carry

open DecoyEngine.Data DecoyEngine.Relationships

/-! What the nodes of an admitted table read, and what the plan knows of it. -/

/-- `_CHUNK_ADMITTED_STRATEGIES` and `CHUNK_CONDITIONAL_STRATEGIES`. -/
def chunkStrategies : List StrategyName :=
  [.hash, .fpe, .redact, .truncate, .textRedact, .dateShift, .bucketize, .topCode, .passthrough,
    .textMask, .windowedDate, .groupKey, .faker, .categorical, .codeSet, .bucketPerturb]

/-- The strategies that are refused under a predicate. -/
def ungatedStrategies : List StrategyName := [.windowedDate, .groupKey, .textMask, .codeSet]

/-- What `check_chunked_compatibility`, the compile checks and the `group_by` guard ask of the
columns, as far as it bears on what they read. -/
structure Admitted (run : TableRun) : Prop where
  composites : compositeProviderOffenders run.providerIsComposite run.entries = []
  strategies : ∀ entry ∈ run.entries, entry.strategy ∈ chunkStrategies
  ungated : ∀ entry ∈ run.entries, entry.strategy ∈ ungatedStrategies → entry.when = none
  dateShift : ∀ entry ∈ run.entries, entry.strategy = .dateShift →
    ∀ setting, entry.providerConfig.get "group_by" = some setting → setting.truthy →
      setting.name?.isSome ∧ entry.when = none
  groupKey : ∀ nodes, run.nodes = .ok nodes → ∀ entry ∈ nodes, entry.strategy = .groupKey →
    ((entry.providerConfig.get "group_by").bind Setting.name?).isSome

theorem Setting.printed_of_name {setting : Setting} {name : String}
    (named : setting.name? = some name) : setting.printed = name := by
  cases setting with
  | text value =>
      rw [Setting.name?] at named
      split at named
      · cases named
      · cases named
        rfl
  | list printed items => cases named
  | mapping printed entries => cases named
  | other printed truthy => cases named

section Nodes

variable {run : TableRun} {names : List String}

theorem find_configured (entries : List Entry) (name : String) :
    (configured entries).find name = entries.reverse.find? fun entry => entry.name = name := by
  rw [configured, Dict.find_sets, Dict.find_empty, Option.or_none, ← List.map_reverse,
    List.find?_map, Option.map_map]
  exact Option.map_id'

variable {name : String} {entry : Entry}

theorem name_of_configured {entries : List Entry}
    (found : (configured entries).find name = some entry) :
    entry.name = name ∧ entry ∈ entries := by
  rw [find_configured] at found
  have same := List.find?_some found
  exact ⟨of_decide_eq_true same, List.mem_reverse.mp (List.mem_of_find?_eq_some found)⟩

variable {nodes : List Entry}

theorem configured_of_mem_nodes (ordered : run.nodes = .ok nodes) (member : entry ∈ nodes) :
    (configured run.seeds).find entry.name = some entry := by
  rw [TableRun.nodes] at ordered
  cases sorted : orderWork run.columnRefs run.work ⟨[], []⟩ none with
  | error failure =>
      rw [sorted] at ordered
      cases ordered
  | ok keys =>
      rw [sorted] at ordered
      cases ordered
      obtain ⟨node, _, found⟩ := List.mem_filterMap.mp member
      rwa [(name_of_configured found).1]

theorem mem_entries_of_mem_nodes (ordered : run.nodes = .ok nodes) (member : entry ∈ nodes) :
    entry ∈ run.entries :=
  (List.mem_filter.mp (name_of_configured (configured_of_mem_nodes ordered member)).2).1

theorem find?_filter_of_pos {α : Type} {keep wanted : α → Bool} {values : List α} {value : α}
    (found : values.find? wanted = some value) (kept : keep value) :
    (values.filter keep).find? wanted = some value := by
  induction values with
  | nil => cases found
  | cons first rest ih =>
      rw [List.find?_cons] at found
      cases here : wanted first
      · rw [here] at found
        rw [List.filter_cons]
        split
        · rw [List.find?_cons, here]
          exact ih found
        · exact ih found
      · rw [here] at found
        cases found
        rw [List.filter_cons, if_pos kept, List.find?_cons, here]

theorem mem_carried (carried : name ∈ (run.plan names).carried) :
    names.Nodup ∧
      name ∈ passthroughColumns run.columnRefs run.providerIsComposite run.nfkc run.entries names ∧
      name ∉ readSet run.columnRefs run.providerIsComposite run.nfkc run.entries
        (passthroughColumns run.columnRefs run.providerIsComposite run.nfkc run.entries names) := by
  rw [TableRun.plan, planCarry] at carried
  split at carried
  · cases carried
  · rename_i distinct
    obtain ⟨passes, unread⟩ := List.mem_filter.mp carried
    refine ⟨?_, passes, of_decide_eq_true unread⟩
    have same : names.dedup.length = names.length := by simpa using distinct
    rw [← List.dedup_eq_self]
    exact (List.dedup_sublist names).eq_of_length same

theorem mem_names_of_carried (carried : name ∈ (run.plan names).carried) :
    name ∈ names := by
  obtain ⟨_, passes, _⟩ := mem_carried carried
  rw [passthroughColumns] at passes
  split at passes
  · cases passes
  · exact (List.mem_filter.mp passes).1

theorem configured_of_carried (carried : name ∈ (run.plan names).carried)
    (known : (configured run.entries).find name = some entry) :
    entry.strategy = .passthrough ∧ entry.when = none := by
  obtain ⟨_, passes, _⟩ := mem_carried carried
  rw [passthroughColumns] at passes
  split at passes
  · cases passes
  · have passes := (List.mem_filter.mp passes).2
    rw [known, Bool.and_eq_true, Bool.and_eq_true, Option.isNone_iff_eq_none] at passes
    exact ⟨of_decide_eq_true passes.2.1, passes.2.2⟩

/-- No node of another strategy, and no gated node, has a carried column for its own. -/
theorem passthrough_of_carried (ordered : run.nodes = .ok nodes) (member : entry ∈ nodes)
    (carried : entry.name ∈ (run.plan names).carried) :
    entry.strategy = .passthrough ∧ entry.when = none := by
  have found := configured_of_mem_nodes ordered member
  have seeded := (List.mem_filter.mp (name_of_configured found).2).2
  obtain ⟨last, known⟩ : ∃ last, (configured run.entries).find entry.name = some last := by
    rw [← Option.isSome_iff_exists, find_configured, List.find?_isSome]
    exact ⟨entry, List.mem_reverse.mpr (mem_entries_of_mem_nodes ordered member), by simp⟩
  obtain ⟨passes, ungated⟩ := configured_of_carried carried known
  have named : entry.name ≠ "" := by
    intro empty
    rw [TableRun.seeded, empty] at seeded
    cases seeded
  have lastSeeded : TableRun.seeded last = true := by
    rw [TableRun.seeded, (name_of_configured known).1, passes]
    simp [named]
  rw [find_configured] at known found
  have same : run.seeds.reverse.find? (fun other => other.name = entry.name) = some last := by
    rw [TableRun.seeds, ← List.filter_reverse]
    exact find?_filter_of_pos known lastSeeded
  rw [found] at same
  cases same
  exact ⟨passes, ungated⟩

variable {column : String}

theorem declared_not_carried (member : entry ∈ run.entries) (reads : column ∈
      (columnAccess run.columnRefs run.providerIsComposite run.nfkc entry).reads)
    (other : column ≠ entry.name) (same : column = name ∨ column = run.nfkc name) :
    name ∉ (run.plan names).carried := by
  intro carried
  obtain ⟨_, passes, unread⟩ := mem_carried carried
  apply unread
  rw [readSet]
  cases touched : touchedColumns run.columnRefs run.providerIsComposite run.nfkc run.entries with
  | none => exact passes
  | some columns =>
      have known : column ∈ columns := by
        rw [touchedColumns] at touched
        split at touched
        · cases touched
        · cases touched
          refine List.mem_flatMap.mpr ⟨entry, member, ?_⟩
          rw [touchedBy]
          refine List.mem_filter.mpr ⟨List.mem_append_left _ reads, ?_⟩
          simp [other]
      refine List.mem_filter.mpr ⟨passes, ?_⟩
      rcases same with rfl | rfl <;> simp [known]

/-- The columns besides its own that a node reads from a frame with the columns `keys` and from
its index. -/
def readsOf (run : TableRun) (index : FrameIndex) (keys : List String) (entry : Entry) :
    List String :=
  (match entry.when with
    | none => []
    | some predicate => (run.resolved index keys predicate).filterMap TableRun.Referent.shows) ++
  match TableRun.siblingRead entry with
  | .nothing => []
  | .snapshot column => [column]
  | .live column => if column ∈ keys then [column] else []

/-- Some identifier of the predicate stands for a carried column or for the index level made of
one, or the anchor is a setting that is not a text and prints as the name of one. -/
def ReadsUnderAlias (run : TableRun) (index : FrameIndex) (carried keys : List String)
    (entry : Entry) : Prop :=
  (∃ predicate, entry.when = some predicate ∧ ∃ name ∈ carried,
    ∃ referent ∈ run.resolved index keys predicate, referent.shows = some name) ∨
  (entry.strategy = .windowedDate ∧ ∃ setting, entry.providerConfig.get "anchor" = some setting ∧
    setting.truthy ∧ setting.name? = none ∧ setting.printed ∈ carried ∧ setting.printed ∈ keys)

theorem columnAccess_reads (admitted : Admitted run) (member : entry ∈ run.entries)
    (reads : column ∈ siblings entry.coherentWith entry.providerConfig ∨
      ∃ predicate, entry.when = some predicate ∧ column ∈ predicateNames run.nfkc predicate) :
    column ∈ (columnAccess run.columnRefs run.providerIsComposite run.nfkc entry).reads := by
  have scalar : run.providerIsComposite entry.provider = false := by
    have none := admitted.composites
    rw [compositeProviderOffenders, List.map_eq_nil_iff, List.filter_eq_nil_iff] at none
    simpa using none entry member
  have generic : ∃ access,
      scalarAccess run.columnRefs entry.strategy entry.coherentWith entry.providerConfig =
        some access ∧ access.reads = siblings entry.coherentWith entry.providerConfig := by
    have strategy := admitted.strategies entry member
    generalize entry.strategy = name at strategy
    simp only [chunkStrategies, List.mem_cons, List.not_mem_nil, or_false] at strategy
    rcases strategy with rfl | rfl | rfl | rfl | rfl | rfl | rfl | rfl | rfl | rfl | rfl | rfl |
      rfl | rfl | rfl | rfl <;> exact ⟨_, by unfold scalarAccess; rfl, rfl⟩
  obtain ⟨access, known, same⟩ := generic
  rw [columnAccess, scalar, known]
  cases gate : entry.when with
  | none =>
      rw [gate] at reads
      refine reads.elim (fun sibling => same ▸ sibling) ?_
      rintro ⟨predicate, absurd, _⟩
      cases absurd
  | some predicate =>
      rw [gate] at reads
      refine List.mem_append.mpr (reads.imp (fun sibling => same ▸ sibling) ?_)
      rintro ⟨other, equal, member⟩
      cases equal
      exact member

theorem mem_siblings_of_reference {coherentWith : List String} {config : Config} {key : String}
    (member : key ∈ siblingReferenceKeys) (named :
    (config.get key).bind Setting.name? = some name) :
    name ∈ siblings coherentWith config :=
  List.mem_append_right _ (List.mem_filterMap.mpr ⟨key, member, named⟩)

theorem sibling_not_carried (admitted : Admitted run) (member : entry ∈ run.entries)
    (outside : entry.name ∉ (run.plan names).carried) {key : String}
    (known : key ∈ siblingReferenceKeys)
    (named : (entry.providerConfig.get key).bind Setting.name? = some column) :
    column ∉ (run.plan names).carried := by
  by_cases own : column = entry.name
  · rwa [own]
  · exact declared_not_carried member (columnAccess_reads admitted member
      (.inl (mem_siblings_of_reference known named))) own (.inl rfl)

theorem mem_readsOf {index : FrameIndex} {keys : List String} :
    column ∈ readsOf run index keys entry ↔
      (∃ predicate, entry.when = some predicate ∧
        ∃ referent ∈ run.resolved index keys predicate, referent.shows = some column) ∨
      TableRun.siblingRead entry = .snapshot column ∨
      TableRun.siblingRead entry = .live column ∧ column ∈ keys := by
  rw [readsOf, List.mem_append]
  refine or_congr ?_ ?_
  · cases entry.when with
    | none => simp
    | some predicate => simp
  · cases TableRun.siblingRead entry with
    | nothing => simp
    | snapshot named => simp [eq_comm]
    | live named =>
        by_cases present : named ∈ keys
        · simp only [present, if_true, List.mem_singleton, reduceCtorEq, false_or,
            TableRun.SiblingRead.live.injEq]
          exact ⟨fun same => ⟨same.symm, same ▸ present⟩, fun same => same.1.symm⟩
        · simp only [present, if_false, List.not_mem_nil, reduceCtorEq, false_or, false_iff,
            TableRun.SiblingRead.live.injEq]
          exact fun same => present (same.1 ▸ same.2)

theorem reference_live {key : String} (read : TableRun.reference entry key = .live column) :
    ∃ setting, entry.providerConfig.get key = some setting ∧ setting.truthy ∧
      setting.printed = column := by
  rw [TableRun.reference] at read
  split at read
  · cases read
  · rename_i setting known
    split at read
    · rename_i truthy
      cases read
      exact ⟨setting, known, truthy, rfl⟩
    · cases read

theorem siblingRead_snapshot (read : TableRun.siblingRead entry = .snapshot column) :
    entry.strategy = .dateShift ∧
      (entry.providerConfig.get "group_by").bind Setting.name? = some column := by
  have never : ∀ key, TableRun.reference entry key ≠ .snapshot column := by
    intro key same
    rw [TableRun.reference] at same
    split at same
    · cases same
    · split at same <;> cases same
  rw [TableRun.siblingRead] at read
  split at read
  · rename_i strategy
    split at read
    · cases read
    · rename_i named
      cases read
      exact ⟨strategy, named⟩
  · exact absurd read (never _)
  · exact absurd read (never _)
  · cases read

theorem siblingRead_live (read : TableRun.siblingRead entry = .live column) :
    (entry.strategy = .groupKey ∧ TableRun.reference entry "group_by" = .live column) ∨
      (entry.strategy = .windowedDate ∧ TableRun.reference entry "anchor" = .live column) := by
  rw [TableRun.siblingRead] at read
  split at read
  · split at read <;> cases read
  · rename_i strategy
    exact .inl ⟨strategy, read⟩
  · rename_i strategy
    exact .inr ⟨strategy, read⟩
  · cases read

theorem reads_carried_iff (admitted : Admitted run) (ordered : run.nodes = .ok nodes)
    (member : entry ∈ nodes) (index : FrameIndex) (keys : List String) :
    (∃ column ∈ readsOf run index keys entry, column ∈ (run.plan names).carried) ↔
      ReadsUnderAlias run index (run.plan names).carried keys entry := by
  have listed := mem_entries_of_mem_nodes ordered member
  have own : entry.strategy ≠ .passthrough → entry.name ∉ (run.plan names).carried :=
    fun masks carried => masks (passthrough_of_carried ordered member carried).1
  have text : entry.strategy ≠ .passthrough → ∀ key ∈ siblingReferenceKeys, ∀ column,
      (entry.providerConfig.get key).bind Setting.name? = some column →
        column ∉ (run.plan names).carried :=
    fun masks key known column named => sibling_not_carried admitted listed (own masks) known named
  constructor
  · rintro ⟨column, read, carried⟩
    rcases mem_readsOf.mp read with ⟨predicate, gate, resolves⟩ | snapshot | ⟨live, present⟩
    · exact .inl ⟨predicate, gate, column, carried, resolves⟩
    · obtain ⟨strategy, named⟩ := siblingRead_snapshot snapshot
      exact absurd carried (text (by rw [strategy]; decide) "group_by" (by decide) column named)
    · rcases siblingRead_live live with ⟨strategy, read⟩ | ⟨strategy, read⟩
      · obtain ⟨name, named⟩ :=
          Option.isSome_iff_exists.mp (admitted.groupKey nodes ordered entry member strategy)
        obtain ⟨setting, known, _, printed⟩ := reference_live read
        rw [known] at named
        rw [Setting.printed_of_name named] at printed
        subst printed
        exact absurd carried (text (by rw [strategy]; decide) "group_by" (by decide) name
          (by rw [known]; exact named))
      · obtain ⟨setting, known, truthy, printed⟩ := reference_live read
        cases named : setting.name? with
        | none =>
            exact .inr ⟨strategy, setting, known, truthy, named, printed ▸ carried,
              printed ▸ present⟩
        | some name =>
            rw [Setting.printed_of_name named] at printed
            subst printed
            exact absurd carried (text (by rw [strategy]; decide) "anchor" (by decide) name
              (by rw [known]; exact named))
  · rintro (⟨predicate, gate, name, carried, resolves⟩ | ⟨strategy, setting, known, truthy, _,
      carried, present⟩)
    · exact ⟨name, mem_readsOf.mpr (.inl ⟨predicate, gate, resolves⟩), carried⟩
    · refine ⟨setting.printed, mem_readsOf.mpr (.inr (.inr ⟨?_, present⟩)), carried⟩
      have live : TableRun.reference entry "anchor" = .live setting.printed := by
        rw [TableRun.reference, known]
        exact if_pos truthy
      rw [TableRun.siblingRead, strategy]
      exact live

end Nodes

end DecoyEngine.Execution.Carry
