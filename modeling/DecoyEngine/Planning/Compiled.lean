import DecoyEngine.Planning.RoundTrip
import DecoyEngine.Planning.SeedEnvelope

namespace DecoyEngine.Planning

open DecoyEngine.Data DecoyEngine.Relationships

/-! What the compiler puts into a plan, and what of it a stored plan keeps. -/

section Settings

variable {getCapabilities : String → Option Capabilities}
  {installedModelVersion : String → Option String}

theorem sortedConfig_of_columnSeed {table : String} {entry : ColumnConfig}
    {seed : String × ColumnSeed} {warnings : List String}
    (run : columnSeed getCapabilities installedModelVersion table entry =
      .ok (some seed, warnings)) :
    sortedConfig seed.2.strategy entry = .ok seed.2.providerConfig := by
  rw [columnSeed] at run
  split at run
  · cases run
  · simp only [bind_eq_ok_iff] at run
    obtain ⟨_, _, config, sorted, _, _, _, _, _, _, same⟩ := run
    cases same
    exact sorted

theorem ascending_of_sortedConfig {strategy : String} {entry : ColumnConfig} {config : Members}
    (run : sortedConfig strategy entry = .ok config)
    (free : entry.providerConfig.find declaredIntegerOutput.1 = none) :
    config.Pairwise fun left right => left.1 < right.1 := by
  rw [sortedConfig] at run
  split at run
  · rw [free] at run
    cases run
    have permuted := (List.perm_insertionSort keyLE entry.providerConfig.entries).map Prod.fst
    apply ascending_insertionSort
    rw [List.map_append, List.nodup_append]
    refine ⟨permuted.nodup_iff.mpr entry.providerConfig.distinct, List.nodup_singleton _, ?_⟩
    intro key present other here same
    rw [List.mem_singleton.mp here] at same
    rw [same] at present
    exact Dict.find_eq_none.mp free (permuted.mem_iff.mp present)
  · cases run
    exact ascending_insertionSort entry.providerConfig.distinct

theorem exists_entry_of_columnSeeds {relationships : List Relationship} {table : String}
    {config : Option TableConfig} {seeds : List (String × ColumnSeed)} {warnings : List String}
    (run : columnSeeds getCapabilities installedModelVersion relationships table config =
      .ok (seeds, warnings)) :
    ∀ seed ∈ seeds, ∃ config' ∈ config, ∃ entry ∈ config'.columns, ∃ said,
      columnSeed getCapabilities installedModelVersion table entry = .ok (some seed, said) := by
  intro seed member
  simp only [columnSeeds, bind_eq_ok_iff, pure, Except.pure, Except.ok.injEq,
    Prod.mk.injEq] at run
  obtain ⟨results, ran, rfl, -⟩ := run
  obtain ⟨result, inResults, isSeed⟩ := List.mem_filterMap.mp member
  obtain ⟨entry, inEntries, stamped⟩ := exists_source_of_mapM ran inResults
  have inColumns := (List.mem_filter.mp inEntries).1
  cases config with
  | none => cases inColumns
  | some config =>
      refine ⟨config, rfl, entry, inColumns, result.2, ?_⟩
      rw [stamped, ← isSeed]

theorem exists_entry_of_tableSeed {configTables : Dict String TableConfig}
    {relationships : List Relationship} {name : String} {table : String × TableSeed}
    {warnings : List String}
    (run : tableSeed getCapabilities installedModelVersion configTables relationships name =
      .ok (some table, warnings)) :
    ∀ seed ∈ table.2.perColumn, ∃ config ∈ configTables.find name, ∃ entry ∈ config.columns,
      ∃ said, columnSeed getCapabilities installedModelVersion name entry =
        .ok (some seed, said) := by
  simp only [tableSeed, bind_eq_ok_iff] at run
  obtain ⟨seeds, ran, same⟩ := run
  split at same
  · cases same
  · cases same
    exact exists_entry_of_columnSeeds ran

theorem mem_of_tablesByName {configTables : List TableConfig} {name : String}
    {config : TableConfig} (found : (tablesByName configTables).find name = some config) :
    config ∈ configTables := by
  rw [tablesByName, Dict.find_sets, Dict.find_empty, Option.or_none,
    Option.map_eq_some_iff] at found
  obtain ⟨entry, first, isConfig⟩ := found
  have member := List.mem_reverse.mp (List.mem_of_find?_eq_some first)
  obtain ⟨known, inConfigs, named⟩ := List.mem_filterMap.mp member
  obtain ⟨_, -, isEntry⟩ := Option.map_eq_some_iff.mp named
  rw [← isConfig, ← isEntry]
  exact inConfigs

/-- The settings of every compiled column are in the order of their keys, where no column sets the
key that the compiler sets itself. -/
theorem ascending_of_buildSeedEnvelope {jobSeed : List UInt8} {configTables : List TableConfig}
    {profileTables : List String} {relationships : List Relationship} {env : SeedEnvelope}
    {warnings : List String}
    (built : buildSeedEnvelope getCapabilities installedModelVersion jobSeed configTables
      profileTables relationships = .ok (env, warnings))
    (free : ∀ config ∈ configTables, ∀ entry ∈ config.columns,
      entry.providerConfig.find declaredIntegerOutput.1 = none) :
    ∀ table ∈ env.perTable, ∀ column ∈ table.2.perColumn,
      column.2.providerConfig.Pairwise fun left right => left.1 < right.1 := by
  intro table inEnv column inTable
  simp only [buildSeedEnvelope, bind_eq_ok_iff, pure, Except.pure, Except.ok.injEq,
    Prod.mk.injEq] at built
  obtain ⟨tables, run, rfl, -⟩ := built
  obtain ⟨result, inTables, isTable⟩ := List.mem_filterMap.mp inEnv
  obtain ⟨name, -, ran⟩ := exists_source_of_mapM run inTables
  have pair : result = (result.1, result.2) := rfl
  rw [pair, isTable] at ran
  obtain ⟨config, found, entry, inConfig, said, seed⟩ :=
    exists_entry_of_tableSeed ran column inTable
  exact ascending_of_sortedConfig (sortedConfig_of_columnSeed seed)
    (free config (mem_of_tablesByName found) entry inConfig)

end Settings

variable (namespaces : Dict String (Option (List (Option String))))

theorem nodup_buildNamespaces :
    ((buildNamespaces namespaces).map NamespaceBinding.namespaceName).Nodup := by
  have distinct := namespaces.distinct
  have sorted := (List.perm_insertionSort (fun left right => left.1 ≤ right.1)
    namespaces.entries).map Prod.fst
  rw [← sorted.nodup_iff, List.Nodup, List.pairwise_map] at distinct
  rw [List.Nodup, List.pairwise_map, buildNamespaces]
  refine distinct.filterMap _ fun left right differ binding isLeft other isRight => ?_
  obtain ⟨_, -, rfl⟩ := Option.map_eq_some_iff.mp isLeft
  obtain ⟨_, -, rfl⟩ := Option.map_eq_some_iff.mp isRight
  exact differ

theorem readable_of_declaredColumn {text : String} {entry : String × List String}
    (read : declaredColumn text = some entry) :
    ReadableDeclaration entry ↔ ∀ column ∈ entry.2, ¬ columnSeparator <:+: column.toList := by
  obtain ⟨parts, found, rfl⟩ := Option.map_eq_some_iff.mp read
  obtain ⟨-, absent⟩ := (partitionText_eq_some (List.cons_ne_nil _ _)).mp found
  rw [List.singleton_infix_iff] at absent
  have plain : '.' ∉ parts.1 := by simpa using absent
  simp [ReadableDeclaration, Separated, plain]

/-- A compiled binding names one column, and is kept where no separator is in that name. -/
theorem keepsNamespaces_buildNamespaces_iff :
    KeepsNamespaces (buildNamespaces namespaces) ↔
      ∀ ns ∈ buildNamespaces namespaces, ∀ entry ∈ ns.declaredBy, ∀ column ∈ entry.2,
        ¬ columnSeparator <:+: column.toList := by
  have readable : ∀ ns ∈ buildNamespaces namespaces, ∀ entry ∈ ns.declaredBy,
      (ReadableDeclaration entry ↔ ∀ column ∈ entry.2, ¬ columnSeparator <:+: column.toList) := by
    intro ns built entry declared
    obtain ⟨body, -, isNs⟩ := List.mem_filterMap.mp built
    obtain ⟨texts, -, rfl⟩ := Option.map_eq_some_iff.mp isNs
    obtain ⟨text, -, read⟩ := List.mem_filterMap.mp declared
    obtain ⟨_, -, read⟩ := Option.bind_eq_some_iff.mp read
    exact readable_of_declaredColumn read
  constructor
  · intro keeps ns built entry declared
    exact (readable ns built entry declared).mp (keeps.declarations ns built entry declared)
  · intro apart
    exact ⟨nodup_buildNamespaces namespaces, fun ns built entry declared =>
      (readable ns built entry declared).mpr (apart ns built entry declared)⟩

/-- A column of free text that is redacted with entity recognition. -/
def noteColumn : ColumnConfig where
  name := some "note"
  strategy := some "text_redact"
  provider := none
  namespaceName := none
  cardinalityMode := none
  deterministic := false
  allowCollisions := false
  providerConfig := Dict.empty.set "ner" (.bool true)
  coherentWith := []
  backendType := none
  backendVersion := none
  logicalType := none
  poolSize := none
  scale := none
  when := none
  vault := false

def noteEnvelope : SeedEnvelope where
  jobSeed := [0, 0, 0, 0, 0, 0, 0, 42]
  perTable := [("notes", ⟨[("note", {
    namespaceName := none
    strategy := "text_redact"
    provider := none
    backendType := .faker
    backendVersion := "stub-0"
    cardinalityMode := .reuse
    deterministic := false
    providerConfig := [("ner", .bool true)]
    coherentWith := []
    techniqueClass := some "anonymisation"
    when := none
    distributionBehavior := some "collapses"
    nerModelVersion := some "3.8.0"
    poolSize := none
    scale := none
    vault := false })], []⟩)]

/-- A plan of one column under one namespace, compiled without a language model. -/
def hashedPlan : Plan where
  planVersion := 1
  seedProtocolVersion := 2
  engineVersion := "1.4.0"
  pipelineConfigHash := "9f2c"
  profileHash := "07ab"
  seedEnvelope := ⟨[0, 0, 0, 0, 0, 0, 0, 42], [("orders", ⟨[("buyer_id", {
    namespaceName := some "buyers"
    strategy := "hash"
    provider := none
    backendType := .faker
    backendVersion := "stub-0"
    cardinalityMode := .reuse
    deterministic := true
    providerConfig := [("length", .int 16), ("prefix", .text "b")]
    coherentWith := []
    techniqueClass := some "pseudonymisation"
    when := some "status == 'open'"
    distributionBehavior := none
    nerModelVersion := none
    poolSize := none
    scale := none
    vault := false })], []⟩)]⟩
  relationships := []
  namespaces := [⟨"buyers", [("orders", ["buyer_id"])]⟩]
  ordering := [⟨"orders", ["buyer_id"]⟩]
  planCompile := ⟨[], [], [], []⟩
  declaredCasting := none

/-- The column of `hashedPlan` as it is declared. -/
def buyerColumn : ColumnConfig where
  name := some "buyer_id"
  strategy := some "hash"
  provider := none
  namespaceName := some "buyers"
  cardinalityMode := none
  deterministic := true
  allowCollisions := false
  providerConfig := (Dict.empty.set "prefix" (.text "b")).set "length" (.int 16)
  coherentWith := []
  backendType := none
  backendVersion := none
  logicalType := none
  poolSize := none
  scale := none
  when := some "status == 'open'"
  vault := false

def buyerNamespaces : Dict String (Option (List (Option String))) :=
  Dict.empty.set "buyers" (some [some "orders.buyer_id"])

/-- `hashedPlan` as the compiler makes it. -/
def buyerPlan : Plan :=
  { hashedPlan with
    seedEnvelope := ⟨[0, 0, 0, 0, 0, 0, 0, 42], [("orders", ⟨[("buyer_id", {
      namespaceName := some "buyers"
      strategy := "hash"
      provider := none
      backendType := .faker
      backendVersion := "stub-0"
      cardinalityMode := .reuse
      deterministic := true
      providerConfig := [("length", .int 16), ("prefix", .text "b")]
      coherentWith := []
      techniqueClass := some "pseudonymisation"
      when := some "status == 'open'"
      distributionBehavior := some "preserves_cardinality_only"
      nerModelVersion := none
      poolSize := none
      scale := none
      vault := false })], []⟩)]⟩ }

end DecoyEngine.Planning
