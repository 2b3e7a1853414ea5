import DecoyEngine.Data.Dict
import DecoyEngine.Data.PyRepr
import DecoyEngine.Data.Text
import DecoyEngine.Planning.Serialize

namespace DecoyEngine.Planning

open DecoyEngine.Data DecoyEngine.Relationships

/-! The seed envelope and the namespaces of a compiled plan (`plan/_seed_envelope.py`,
`plan/_graph.py`).

The fields of a configured column have the types of their schema, and `none` is a field that is
not set.  The provider registry and the installed packages are parameters. -/

/-- A column as the configuration declares it: the strategy and what the planner reads beside it, an
absent entry as `none`. -/
structure ColumnConfig where
  name : Option String
  strategy : Option String
  provider : Option String
  namespaceName : Option String
  cardinalityMode : Option String
  deterministic : Bool
  allowCollisions : Bool
  providerConfig : Dict String Json
  coherentWith : List String
  backendType : Option String
  backendVersion : Option String
  logicalType : Option String
  poolSize : Option Int
  scale : Option Double
  when : Option String
  vault : Bool

structure TableConfig where
  name : Option String
  columns : List ColumnConfig

structure Capabilities where
  backendType : BackendType
  backendVersion : String

inductive SeedEnvelopeError where
  | deterministicMapRenamed (table column : String)
  | allowCollisionsModeConflict (table column mode : String)
  | poolSizeLocationConflict (table column : String) (top provider : Int)
  | whenWithCoherentWithUnsupported (table column : String)
  /-- A setting that is not of the type its reader converts. -/
  | mistyped
deriving DecidableEq

namespace SeedEnvelopeError

def code : SeedEnvelopeError → Option String
  | deterministicMapRenamed _ _ => some "plan_schema_deterministic_map_renamed"
  | allowCollisionsModeConflict _ _ _ => some "allow_collisions_mode_conflict"
  | poolSizeLocationConflict _ _ _ _ => some "pool_size_location_conflict"
  | whenWithCoherentWithUnsupported _ _ => some "when_with_coherent_with_unsupported"
  | mistyped => none

def path : SeedEnvelopeError → Option String
  | deterministicMapRenamed table column =>
      some s!"tables.{table}.columns.{column}.cardinality_mode"
  | allowCollisionsModeConflict table column _ =>
      some s!"tables.{table}.columns.{column}.allow_collisions"
  | poolSizeLocationConflict table column _ _ => some s!"tables.{table}.columns.{column}.pool_size"
  | whenWithCoherentWithUnsupported table column => some s!"tables.{table}.columns.{column}.when"
  | mistyped => none

def message : SeedEnvelopeError → Option String
  | deterministicMapRenamed table column =>
      some (s!"Column {table}.{column}: " ++
        "`cardinality_mode: deterministic_map` is no longer " ++
        "a valid value after the R6 reshape (S5). The " ++
        "deterministic-vs-random axis is now a separate " ++
        "first-class field. Migrate to:\n" ++
        "    deterministic: true\n" ++
        "    cardinality_mode: reuse   # or another mode\n" ++
        "See S5 spec §6 + cross-sprint contracts R6.")
  | allowCollisionsModeConflict table column mode =>
      some (s!"Column {table}.{column}: " ++
        "`allow_collisions: true` forces `cardinality_mode: " ++
        "reuse`, which conflicts with the declared " ++
        s!"`cardinality_mode: {mode}`. Drop one: " ++
        "use allow_collisions for intentional collisions, " ++
        "or the explicit mode for distinct output.")
  | poolSizeLocationConflict table column top provider =>
      some (s!"Column {table}.{column}: top-level " ++
        s!"pool_size={top} conflicts with " ++
        s!"provider_config.pool_size={provider}. Both " ++
        "locations are legal individually, but declaring two " ++
        "different values for the same column is ambiguous. " ++
        "Set one location only, or make both values equal.")
  | whenWithCoherentWithUnsupported table column =>
      some (s!"Column {table}.{column}: `when:` is " ++
        "not supported on columns participating in " ++
        "`coherent_with`; the composite generator writes the " ++
        "bundle, not the column. Drop `when:` here or move " ++
        "the column off the coherent set.")
  | mistyped => none

end SeedEnvelopeError

def techniqueClassByStrategy : List (String × String) :=
  [("passthrough", "passthrough"), ("redact", "anonymisation"), ("truncate", "anonymisation"),
    ("bucketize", "anonymisation"), ("shuffle", "anonymisation"), ("hash", "pseudonymisation"),
    ("fpe", "pseudonymisation"), ("date_shift", "pseudonymisation"),
    ("formula", "pseudonymisation"), ("faker", "synthetic"), ("categorical", "synthetic"),
    ("text_redact", "anonymisation"), ("text_mask", "pseudonymisation"),
    ("joint_mask", "anonymisation"), ("geo_generalize", "anonymisation"),
    ("code_set", "anonymisation"), ("derived", "pseudonymisation"),
    ("derived_aggregate", "pseudonymisation"), ("bucket_perturb", "anonymisation"),
    ("grouped_series", "synthetic"), ("windowed_date", "pseudonymisation"),
    ("group_key", "pseudonymisation"), ("top_code", "anonymisation"),
    ("tokenize", "pseudonymisation")]

/-- An empty strategy is in no table. -/
def techniqueClassFor (strategy : String) : Option String :=
  techniqueClassByStrategy.lookup strategy

def staticBehavior : List (String × String) :=
  [("passthrough", "preserves_all"), ("shuffle", "preserves_all"),
    ("hash", "preserves_cardinality_only"), ("fpe", "preserves_cardinality_only"),
    ("tokenize", "preserves_cardinality_only"), ("faker", "destroys_frequency"),
    ("categorical", "destroys_frequency"), ("bucketize", "coarsens"), ("truncate", "coarsens"),
    ("redact", "collapses"), ("text_redact", "collapses"), ("text_mask", "mixed"),
    ("date_shift", "varies_shape"), ("formula", "mixed"), ("nested", "inherits"),
    ("joint_mask", "coarsens"), ("geo_generalize", "coarsens"), ("code_set", "coarsens"),
    ("derived", "mixed"), ("derived_aggregate", "coarsens"), ("bucket_perturb", "coarsens"),
    ("grouped_series", "destroys_frequency"), ("windowed_date", "varies_shape"),
    ("group_key", "preserves_cardinality_only"), ("top_code", "coarsens")]

/-- `value is True or value == 1` -/
def isOne : Json → Bool
  | .bool value => value
  | .int value => value = 1
  | .float (.number (.finite false magnitude)) => magnitude.isInteger && magnitude.truncated = 1
  | _ => false

def isFilledList : Json → Bool
  | .array items => !items.isEmpty
  | _ => false

def distributionBehaviorFor (strategy : String) (providerConfig : Members) : Option String :=
  if strategy = "categorical" then
    let cfg := dictOf providerConfig
    if isOne (get cfg "from_profile") then some "preserves_all"
    else if isFilledList (get cfg "weights") then some "preserves_all"
    else some "destroys_frequency"
  else staticBehavior.lookup strategy

/-- Whether `(key, value)` is not behind `(key, True)`; `none` is the `TypeError` of `<`. -/
def notAboveTrue : Json → Option Bool
  | .bool _ => some true
  | .int value => some (value ≤ 1)
  | .float .nan => some true
  | .float (.number (.infinity negative)) => some negative
  | .float (.number (.finite negative magnitude)) =>
      some (negative || magnitude.truncated < 1 ||
        (magnitude.truncated = 1 && magnitude.isInteger))
  | _ => none

def declaredIntegerOutput : String × Json := ("declared_integer_output", .bool true)

/-- The settings in the order of their keys; a declared integer column keeps `bucketize` typed. -/
def sortedConfig (strategy : String) (entry : ColumnConfig) : Except SeedEnvelopeError Members :=
  let items := entry.providerConfig.entries.insertionSort keyLE
  if strategy = "bucketize" ∧ entry.logicalType = some "integer" then
    match entry.providerConfig.find declaredIntegerOutput.1 with
    | none => .ok ((items ++ [declaredIntegerOutput]).insertionSort keyLE)
    | some value =>
        match notAboveTrue value with
        | some true => .ok ((items ++ [declaredIntegerOutput]).insertionSort keyLE)
        | some false => .ok ((declaredIntegerOutput :: items).insertionSort keyLE)
        | none => .error .mistyped
  else .ok items

def providerPoolSize (entry : ColumnConfig) : Except SeedEnvelopeError (Option Int) :=
  match entry.providerConfig.find "pool_size" with
  | none | some .null => .ok none
  | some (.int value) => .ok (some value)
  | some _ => .error .mistyped

def resolvePoolSize (entry : ColumnConfig) (table column : String) :
    Except SeedEnvelopeError (Option Int) := do
  match entry.poolSize, ← providerPoolSize entry with
  | some top, some provider =>
      if top ≠ provider then .error (.poolSizeLocationConflict table column top provider)
      else return some top
  | some top, none => return some top
  | none, provider => return provider

def defaultNerModel : String := "en_core_web_sm"

/-- The model of a column that turns entity recognition on. -/
def nerModel (strategy : String) (entry : ColumnConfig) :
    Except SeedEnvelopeError (Option String) :=
  if strategy = "text_redact" ∨ strategy = "text_mask" then
    let ner := (entry.providerConfig.find "ner").getD .null
    if ner.truthy then
      match ner with
      | .object members =>
          let model := get members "model"
          if model.truthy then
            match model with
            | .text name => .ok (some name)
            | _ => .error .mistyped
          else .ok (some defaultNerModel)
      | _ => .ok (some defaultNerModel)
    else .ok none
  else .ok none

/-- A blank gate is none, and a coherent column has none. -/
def gateOf (table column : String) (entry : ColumnConfig) :
    Except SeedEnvelopeError (Option String) :=
  let gate := entry.when.filter fun text => strip text.toList ≠ []
  if gate ≠ none ∧ entry.coherentWith ≠ [] then
    .error (.whenWithCoherentWithUnsupported table column)
  else .ok gate

/-- `allow_collisions` stands for `reuse`. -/
def cardinalityModeOf (table column : String) (entry : ColumnConfig) :
    Except SeedEnvelopeError CardinalityMode :=
  if entry.cardinalityMode = some "deterministic_map" then
    .error (.deterministicMapRenamed table column)
  else if entry.allowCollisions then
    match entry.cardinalityMode with
    | some mode =>
        if mode ≠ "reuse" then .error (.allowCollisionsModeConflict table column mode)
        else .ok .reuse
    | none => .ok .reuse
  else .ok ((entry.cardinalityMode.bind Vocabulary.ofWord).getD .reuse)

/-- The warning of a model without package metadata. -/
def modelWarnings (table column strategy : String) (model version : Option String) : List String :=
  match model, version with
  | some model, none =>
      [s!"ner_model_version_unavailable: column {table}.{column} uses ner model " ++
        s!"{pyRepr model} which has no installed package metadata; {strategy} output is " ++
        "byte-stable only within this environment."]
  | _, _ => []

section Compile

variable (getCapabilities : String → Option Capabilities)
  (installedModelVersion : String → Option String)

/-- The stamp of the backend, and what it says of a stamp the user declares. -/
def backendStamp (table column : String) (entry : ColumnConfig) :
    BackendType × String × List String :=
  match entry.provider.filter (· ≠ "") |>.bind fun provider =>
      (getCapabilities provider).map fun caps => (provider, caps) with
  | some (provider, caps) =>
      let bound := Vocabulary.word caps.backendType
      let overridden (field : String) (user : Option String) (bound : String) : List String :=
        match user with
        | some declared =>
            if declared ≠ bound then
              [s!"backend_stamp_user_override_ignored: column {table}.{column} declared " ++
                s!"{field}={pyRepr declared}; registry binds {pyRepr provider} to " ++
                s!"{pyRepr bound} " ++
                "(registry wins per S4 §9)."]
            else []
        | none => []
      (caps.backendType, caps.backendVersion,
        overridden "backend_type" entry.backendType bound ++
        overridden "backend_version" entry.backendVersion caps.backendVersion)
  | none =>
      ((entry.backendType.bind Vocabulary.ofWord).getD .faker,
        entry.backendVersion.getD "stub-0", [])

/-- The seed of one configured column and the warnings it gives, after the checks that can refuse
it; `none` is a column that is not masked. -/
def columnSeed (table : String) (entry : ColumnConfig) :
    Except SeedEnvelopeError (Option (String × ColumnSeed) × List String) :=
  let column := entry.name.getD ""
  let strategy := entry.strategy.getD ""
  if column = "" ∨ strategy = "" ∨ (strategy = "faker" ∧ entry.provider.getD "" = "") then
    .ok (none, [])
  else do
    let (backendType, backendVersion, overridden) := backendStamp getCapabilities table column entry
    let cardinalityMode ← cardinalityModeOf table column entry
    let providerConfig ← sortedConfig strategy entry
    let poolSize ← resolvePoolSize entry table column
    let model ← nerModel strategy entry
    let nerModelVersion := model.bind installedModelVersion
    let gate ← gateOf table column entry
    return (some (column, {
      namespaceName := entry.namespaceName
      strategy
      provider := entry.provider
      backendType
      backendVersion
      cardinalityMode
      deterministic := entry.deterministic || entry.allowCollisions
      providerConfig
      coherentWith := entry.coherentWith
      techniqueClass := techniqueClassFor strategy
      when := gate
      distributionBehavior := distributionBehaviorFor strategy providerConfig
      nerModelVersion
      poolSize
      scale := entry.scale
      vault := entry.vault }),
      overridden ++ modelWarnings table column strategy model nerModelVersion)

/-- Relationships with a composite key. -/
def compositeFkRelationships (relationships : List Relationship) : List Relationship :=
  relationships.filter fun rel => 1 < rel.parentColumns.length

/-- The columns of the table that a composite key covers. -/
def compositeMembers (relationships : List Relationship) (table : String) : List String :=
  ((compositeFkRelationships relationships).filter fun rel => rel.childTable = table).flatMap
    Relationship.childColumns

/-- A table without an entry of its own has no column to mask. -/
def columnSeeds (relationships : List Relationship) (table : String)
    (config : Option TableConfig) :
    Except SeedEnvelopeError (List (String × ColumnSeed) × List String) := do
  let columns := (config.map TableConfig.columns).getD []
  let entries := columns.filter fun entry =>
    entry.name.all fun name => name ∉ compositeMembers relationships table
  let seeds ← entries.mapM (columnSeed getCapabilities installedModelVersion table)
  return (seeds.filterMap Prod.fst, seeds.flatMap Prod.snd)

/-- `"__".join(sorted(columns))` -/
def canonicalKey (columns : List String) : String :=
  String.ofList (columnSeparator.intercalate
    ((columns.insertionSort (· ≤ ·)).map String.toList))

def groupSeeds (relationships : List Relationship) (table : String) : List (String × GroupSeed) :=
  ((compositeFkRelationships relationships).filter fun rel => rel.childTable = table).map fun rel =>
    (canonicalKey rel.childColumns, ⟨rel.namespaceName.getD "", rel.childColumns⟩)

def tableSeed (configTables : Dict String TableConfig) (relationships : List Relationship)
    (table : String) : Except SeedEnvelopeError (Option (String × TableSeed) × List String) := do
  let (perColumn, warnings) ←
    columnSeeds getCapabilities installedModelVersion relationships table (configTables.find table)
  let perGroup := groupSeeds relationships table
  if perColumn = [] ∧ perGroup = [] then return (none, warnings)
  return (some (table, ⟨perColumn, perGroup⟩), warnings)

/-- The last entry of a name stands for it. -/
def tablesByName (configTables : List TableConfig) : Dict String TableConfig :=
  Dict.empty.sets (configTables.filterMap fun config =>
    config.name.map fun name => (name, config))

/-- `jobSeed` is the normalized seed of the configuration; the tables and the relationships are
those of the profile. -/
def buildSeedEnvelope (jobSeed : List UInt8) (configTables : List TableConfig)
    (profileTables : List String) (relationships : List Relationship) :
    Except SeedEnvelopeError (SeedEnvelope × List String) := do
  let tables ← profileTables.mapM
    (tableSeed getCapabilities installedModelVersion (tablesByName configTables) relationships)
  return (⟨jobSeed, tables.filterMap Prod.fst⟩, tables.flatMap Prod.snd)

end Compile

/-- `entry.split(".", 1)`; an entry without a dot declares nothing. -/
def declaredColumn (entry : String) : Option (String × List String) :=
  (partitionText ['.'] entry.toList).map fun parts =>
    (String.ofList parts.1, [String.ofList parts.2])

/-- A body or an entry of another type is `none`. -/
def buildNamespaces (namespaces : Dict String (Option (List (Option String)))) :
    List NamespaceBinding :=
  (namespaces.entries.insertionSort fun left right => left.1 ≤ right.1).filterMap fun entry =>
    entry.2.map fun declared =>
      ⟨entry.1, declared.filterMap fun text => text.bind declaredColumn⟩

end DecoyEngine.Planning
