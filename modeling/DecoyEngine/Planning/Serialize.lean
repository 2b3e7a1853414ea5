import DecoyEngine.Data.BytesText
import DecoyEngine.Data.Dict
import DecoyEngine.Data.TextSplit
import DecoyEngine.Planning.Types

namespace DecoyEngine.Planning

open DecoyEngine.Data DecoyEngine.Relationships

/-! Plans on the wire (`plan/_serialize.py`, `plan/_serialize_declared.py`).

`yaml` is the YAML library and hands a document back as it was.  The closed `when` grammar and the
catalog of declared contracts are parameters. -/

structure Yaml (τ : Type) where
  safeDump : Json → τ
  safeLoad : τ → Json
  loads : ∀ document, safeLoad (safeDump document) = document

/-- The documents themselves, for texts. -/
def Yaml.plain : Yaml Json := ⟨id, id, fun _ => rfl⟩

/-- `DeclaredCastContractError` -/
structure ContractError where
  code : String
  message : String
deriving DecidableEq

inductive LoadError where
  /-- `KeyError` -/
  | missing (key : String)
  /-- A stored value of another type than its field is annotated with. -/
  | mistyped
  | valueError (message : String)
  | whenOutsideGrammar (table column : String)
  | catalogVersion
  | contract (table column : String) (error : ContractError)
  /-- A stored generation block, which is outside this model. -/
  | generation
deriving DecidableEq

namespace LoadError

def code : LoadError → Option String
  | whenOutsideGrammar _ _ => some "when_outside_closed_grammar"
  | catalogVersion => some "declared_cast_format_unknown"
  | contract _ _ error => some error.code
  | _ => none

def path : LoadError → Option String
  | whenOutsideGrammar table column => some s!"tables.{table}.columns.{column}.when"
  | catalogVersion => some "<declared_casting.catalog_version>"
  | contract table column _ => some s!"<declared_casting {table}.{column}>"
  | _ => none

def message : LoadError → Option String
  | valueError message => some message
  | whenOutsideGrammar table column =>
      some (s!"the when predicate of table '{table}' column '{column}' is outside the " ++
        "closed grammar")
  | catalogVersion =>
      some "The stored declared-casting catalog version is not supported by this engine."
  | contract _ _ error => some error.message
  | _ => none

end LoadError

abbrev Load := Except LoadError

abbrev Members := List (String × Json)

/-- `{key: value for (key, value) in entries}` -/
def dictOf (entries : Members) : Members := ((Dict.empty : Dict String Json).sets entries).entries

/-- `if value is not None: out[key] = value` -/
def unlessNone (key : String) : Option Json → Members
  | some value => [(key, value)]
  | none => []

def textOrNull : Option String → Json
  | some text => .text text
  | none => .null

def textArray (texts : List String) : Json := .array (texts.map .text)

/-- The document of one column seed. The version of the entity model is not among its entries, so
that it does not come back. -/
def columnSeedToDict (cs : ColumnSeed) : Json := .object <|
  [("namespace", textOrNull cs.namespaceName),
    ("strategy", .text cs.strategy),
    ("provider", textOrNull cs.provider),
    ("backend_type", .text (Vocabulary.word cs.backendType)),
    ("backend_version", .text cs.backendVersion),
    ("cardinality_mode", .text (Vocabulary.word cs.cardinalityMode)),
    ("deterministic", .bool cs.deterministic)] ++
  unlessNone "provider_config"
    (if cs.providerConfig = [] then none else some (.object (dictOf cs.providerConfig))) ++
  unlessNone "coherent_with"
    (if cs.coherentWith = [] then none else some (textArray cs.coherentWith)) ++
  unlessNone "technique_class" (cs.techniqueClass.map .text) ++
  unlessNone "when" (cs.when.map .text) ++
  unlessNone "distribution_behavior" (cs.distributionBehavior.map .text) ++
  unlessNone "pool_size" (cs.poolSize.map .int) ++
  unlessNone "scale" (cs.scale.map .float) ++
  unlessNone "vault" (if cs.vault then some (.bool true) else none)

def groupSeedToDict (gs : GroupSeed) : Json :=
  .object [("namespace", .text gs.namespaceName),
    ("coherent_columns", textArray gs.coherentColumns)]

def tableSeedToDict (ts : TableSeed) : Json :=
  let perColumn := ts.perColumn.map fun entry => (entry.1, columnSeedToDict entry.2)
  let perGroup := ts.perGroup.map fun entry => (entry.1, groupSeedToDict entry.2)
  .object <|
    unlessNone "per_column" (if perColumn = [] then none else some (.object (dictOf perColumn))) ++
    unlessNone "per_group" (if perGroup = [] then none else some (.object (dictOf perGroup)))

def seedEnvelopeToDict (env : SeedEnvelope) : Json :=
  .object [("job_seed", .text (String.ofList (hexText env.jobSeed))),
    ("per_table",
      .object (dictOf (env.perTable.map fun entry => (entry.1, tableSeedToDict entry.2))))]

def endToDict (relEnd : PlanRelationshipEnd) : Json :=
  .object [("table", .text relEnd.table), ("columns", textArray relEnd.columns)]

def relationshipToDict (rel : PlanRelationship) : Json := .object <|
  [("parent", endToDict rel.parent),
    ("children", .array (rel.children.map endToDict)),
    ("orphan_policy", .text (Vocabulary.word rel.orphanPolicy))] ++
  unlessNone "namespace" (rel.namespaceName.map .text)

/-- `"__"` -/
def columnSeparator : List Char := ['_', '_']

/-- `f"{table}.{'__'.join(columns)}"` -/
def declarationText (entry : String × List String) : String :=
  String.ofList (entry.1.toList ++ '.' :: columnSeparator.intercalate (entry.2.map String.toList))

def namespaceToDict (ns : NamespaceBinding) : Json :=
  .object [("declared_by", textArray (ns.declaredBy.map declarationText))]

def orderingToDict (node : OrderingNode) : Json :=
  .object [("table", .text node.table), ("columns", textArray node.columns)]

def planCompileToDict (pc : PlanCompileResult) : Json :=
  .object [("warnings", textArray pc.warnings),
    ("errors", textArray pc.errors),
    ("checks_passed", textArray pc.checksPassed),
    ("checks_skipped", textArray pc.checksSkipped)]

def declaredColumnToDict (column : PlanDeclaredColumn) : Json :=
  .object [("table", .text column.table),
    ("column", .text column.column),
    ("strategy", .text column.strategy),
    ("contract", column.contract)]

/-- A frozen `None` is the document `null`. -/
def noneOfNull : Json → Option Json
  | .null => none
  | document => some document

def declaredCastingToDict (block : DeclaredCastingPlan) : Json := .object <|
  [("catalog_version", .int block.catalogVersion),
    ("columns", .array (block.columns.map declaredColumnToDict))] ++
  unlessNone "quarantine" (noneOfNull block.quarantine)

/-- `plan_to_dict`: the document that is written to YAML; the block of declared casting is left out
where the plan has none. -/
def planToDict (plan : Plan) : Members :=
  [("plan_version", .int plan.planVersion),
    ("seed_protocol_version", .int plan.seedProtocolVersion),
    ("engine_version", .text plan.engineVersion),
    ("pipeline_config_hash", .text plan.pipelineConfigHash),
    ("profile_hash", .text plan.profileHash),
    ("seed_envelope", seedEnvelopeToDict plan.seedEnvelope),
    ("relationships", .array (plan.relationships.map relationshipToDict)),
    ("namespaces",
      .object (dictOf (plan.namespaces.map fun ns => (ns.namespaceName, namespaceToDict ns)))),
    ("ordering", .array (plan.ordering.map orderingToDict)),
    ("plan_compile", planCompileToDict plan.planCompile)] ++
  unlessNone "declared_casting" (plan.declaredCasting.map declaredCastingToDict)

def planToYaml {τ : Type} (yaml : Yaml τ) (plan : Plan) : τ :=
  yaml.safeDump (.object (planToDict plan))

/-- `data[key]` -/
def item (data : Members) (key : String) : Load Json :=
  match data.lookup key with
  | some value => .ok value
  | none => .error (.missing key)

/-- `data.get(key)` -/
def get (data : Members) (key : String) : Json := (data.lookup key).getD .null

def mapping : Json → Load Members
  | .object members => .ok members
  | _ => .error .mistyped

def text : Json → Load String
  | .text value => .ok value
  | _ => .error .mistyped

def integer : Json → Load Int
  | .int value => .ok value
  | _ => .error .mistyped

def number : Json → Load Double
  | .float value => .ok value
  | _ => .error .mistyped

def word {α : Type} [Vocabulary α] : Json → Load α
  | .text value =>
      match Vocabulary.ofWord value with
      | some member => .ok member
      | none => .error .mistyped
  | _ => .error .mistyped

def unlessNull {α : Type} (read : Json → Load α) : Json → Load (Option α)
  | .null => .ok none
  | document => (read document).map some

/-- `tuple(read(x) for x in document)` -/
def each {α : Type} (read : Json → Load α) (document : Json) : Load (List α) :=
  match document.elements with
  | some items => items.mapM read
  | none => .error .mistyped

/-- `tuple(read(x) for x in document or [])` -/
def eachOrNone {α : Type} (read : Json → Load α) (document : Json) : Load (List α) :=
  if document.truthy then each read document else .ok []

/-- `(document or {}).items()` -/
def itemsOrNone (document : Json) : Load Members :=
  if document.truthy then mapping document else .ok []

/-- One entry of `tuple((name, read(body)) for (name, body) in items)`. -/
def named {α : Type} (read : Json → Load α) (entry : String × Json) : Load (String × α) :=
  (read entry.2).map fun value => (entry.1, value)

/-- The order of the items of a dictionary, whose keys differ. -/
def keyLE (left right : String × Json) : Prop := left.1 ≤ right.1

instance : DecidableRel keyLE := fun left right => inferInstanceAs (Decidable (left.1 ≤ right.1))

instance : Std.Total keyLE := ⟨fun left right => le_total left.1 right.1⟩

instance : IsTrans (String × Json) keyLE := ⟨fun _ _ _ => le_trans⟩

/-- One column seed from its document, absent entries by their defaults; nothing here reads a
version of the entity model. -/
def columnSeedFromDict (document : Json) : Load ColumnSeed := do
  let data ← mapping document
  return {
    namespaceName := ← unlessNull text (get data "namespace")
    strategy := ← text (← item data "strategy")
    provider := ← unlessNull text (← item data "provider")
    backendType := ← word (← item data "backend_type")
    backendVersion := ← text (← item data "backend_version")
    cardinalityMode := ← word (← item data "cardinality_mode")
    deterministic := (get data "deterministic").truthy
    providerConfig := (← itemsOrNone (get data "provider_config")).insertionSort keyLE
    coherentWith := ← eachOrNone text (get data "coherent_with")
    techniqueClass := ← unlessNull text (get data "technique_class")
    when := ← unlessNull text (get data "when")
    distributionBehavior := ← unlessNull text (get data "distribution_behavior")
    nerModelVersion := none
    poolSize := ← unlessNull integer (get data "pool_size")
    scale := ← unlessNull number (get data "scale")
    vault := (get data "vault").truthy }

def groupSeedFromDict (document : Json) : Load GroupSeed := do
  let data ← mapping document
  return ⟨← text (← item data "namespace"), ← eachOrNone text (get data "coherent_columns")⟩

def tableSeedFromDict (document : Json) : Load TableSeed := do
  let data ← mapping document
  let perColumnRaw ← itemsOrNone (get data "per_column")
  let perGroupRaw ← itemsOrNone (get data "per_group")
  return {
    perColumn := ← perColumnRaw.mapM (named columnSeedFromDict)
    perGroup := ← perGroupRaw.mapM (named groupSeedFromDict) }

def seedEnvelopeFromDict (document : Json) : Load SeedEnvelope := do
  let data ← mapping document
  let perTableRaw ← itemsOrNone (get data "per_table")
  let perTable ← perTableRaw.mapM (named tableSeedFromDict)
  match fromHex (← text (← item data "job_seed")).toList with
  | some jobSeed => return ⟨jobSeed, perTable⟩
  | none => .error (.valueError "non-hexadecimal number found in fromhex()")

def endFromDict (document : Json) : Load PlanRelationshipEnd := do
  let data ← mapping document
  return ⟨← text (← item data "table"), ← each text (← item data "columns")⟩

/-- The constructor with its `__post_init__`. -/
def PlanRelationship.make (parent : PlanRelationshipEnd) (children : List PlanRelationshipEnd)
    (orphanPolicy : OrphanPolicy) (namespaceName : Option String) : Load PlanRelationship :=
  if nonempty : children = [] then
    .error (.valueError (s!"PlanRelationship {parent.table}.{tupleText parent.columns}: " ++
      "children must be non-empty."))
  else if columns : parent.columns.length = 0 then
    .error (.valueError s!"PlanRelationship: parent {parent.table} has empty columns.")
  else
    match other : children.find? fun child => child.columns.length ≠ parent.columns.length with
    | some child =>
        .error (.valueError (s!"PlanRelationship {parent.table}.{tupleText parent.columns} -> " ++
          s!"{child.table}.{tupleText child.columns}: parent columns length " ++
          s!"{parent.columns.length} != child columns length {child.columns.length}. " ++
          "Composite FK relationships require matching column tuples on " ++
          "both sides (S1 check composite_columns_length_match)."))
    | none =>
        .ok ⟨parent, children, orphanPolicy, namespaceName, nonempty, columns,
          by simpa using List.find?_eq_none.mp other⟩

def relationshipFromDict (document : Json) : Load PlanRelationship := do
  let data ← mapping document
  let parent ← endFromDict (← item data "parent")
  let children ← each endFromDict ((data.lookup "children").getD (.array []))
  PlanRelationship.make parent children (← word (← item data "orphan_policy"))
    (← unlessNull text (get data "namespace"))

/-- What a stored declaration names; one without a dot is skipped. -/
def declarationOf (text : String) : Option (String × List String) :=
  (partitionText ['.'] text.toList).map fun parts =>
    (String.ofList parts.1, (splitText columnSeparator parts.2).map String.ofList)

/-- `raw or []`, of which only texts are read. -/
def declarations (document : Json) : Load (List (String × List String)) :=
  if document.truthy then
    match document.elements with
    | some entries => .ok (entries.filterMap fun entry => entry.asText.bind declarationOf)
    | none => .error .mistyped
  else .ok []

def namespaceFromDict (name : String) (document : Json) : Load NamespaceBinding := do
  let body ← mapping document
  return ⟨name, ← declarations (get body "declared_by")⟩

def orderingFromDict (document : Json) : Load OrderingNode := do
  let data ← mapping document
  return ⟨← text (← item data "table"), ← each text (← item data "columns")⟩

def planCompileFromDict (document : Json) : Load PlanCompileResult := do
  let data ← mapping document
  return {
    checksPassed := ← eachOrNone text (get data "checks_passed")
    checksSkipped := ← eachOrNone text (get data "checks_skipped")
    warnings := ← eachOrNone text (get data "warnings")
    errors := ← eachOrNone text (get data "errors") }

section Checked

variable (inGrammar : String → Bool) (contractPayload : Json → Except ContractError Json)

/-- `validate_envelope_when`: the first gate outside the grammar is reported. -/
def validateEnvelopeWhen (envelope : SeedEnvelope) : Load Unit :=
  envelope.perTable.forM fun table =>
    table.2.perColumn.forM fun column =>
      match column.2.when with
      | none => .ok ()
      | some gate =>
          if inGrammar gate then .ok () else .error (.whenOutsideGrammar table.1 column.1)

def catalogVersion : Int := 1

/-- `f"{raw.get(key)!s}"` of a name that is there or not. -/
def shown : Json → Load String
  | .text value => .ok value
  | .null => .ok "None"
  | _ => .error .mistyped

/-- `contractPayload` is `build_contract(dict(contract)).to_payload()`. -/
def declaredColumnFromDict (document : Json) : Load PlanDeclaredColumn := do
  let raw ← mapping document
  let table ← shown (get raw "table")
  let column ← shown (get raw "column")
  match contractPayload (← item raw "contract") with
  | .error error => .error (.contract table column error)
  | .ok contract =>
      return ⟨← text (← item raw "table"), ← text (← item raw "column"),
        ← text (← item raw "strategy"), contract⟩

def declaredCastingFromDict (document : Json) : Load DeclaredCastingPlan := do
  let data ← mapping document
  match get data "catalog_version" with
  | .int version =>
      if version ≠ catalogVersion then .error .catalogVersion
      else
        return ⟨version, ← eachOrNone (declaredColumnFromDict contractPayload) (get data "columns"),
          get data "quarantine"⟩
  | .bool _ | .float _ => .error .mistyped
  | _ => .error .catalogVersion

/-- `plan_from_dict`: a plan from its document. The gates of the seed envelope are checked against
the closed grammar before anything else is read. -/
def planFromDict (data : Members) : Load Plan := do
  let seedEnvelope ← seedEnvelopeFromDict (← item data "seed_envelope")
  validateEnvelopeWhen inGrammar seedEnvelope
  let planVersion ← integer (← item data "plan_version")
  let seedProtocolVersion ← integer (← item data "seed_protocol_version")
  let engineVersion ← text (← item data "engine_version")
  let pipelineConfigHash ← text (← item data "pipeline_config_hash")
  let profileHash ← text (← item data "profile_hash")
  let relationships ← each relationshipFromDict ((data.lookup "relationships").getD (.array []))
  let namespacesRaw ← itemsOrNone (get data "namespaces")
  let namespaces ← namespacesRaw.mapM fun entry => namespaceFromDict entry.1 entry.2
  let ordering ← each orderingFromDict ((data.lookup "ordering").getD (.array []))
  let planCompile ← planCompileFromDict ((data.lookup "plan_compile").getD (.object []))
  match get data "generation" with
  | .null =>
      let declaredCasting ←
        unlessNull (declaredCastingFromDict contractPayload) (get data "declared_casting")
      return {
        planVersion, seedProtocolVersion, engineVersion, pipelineConfigHash, profileHash
        seedEnvelope, relationships, namespaces, ordering, planCompile, declaredCasting }
  | _ => .error .generation

def planFromYaml {τ : Type} (yaml : Yaml τ) (stored : τ) : Load Plan :=
  match yaml.safeLoad stored with
  | .object data => planFromDict inGrammar contractPayload data
  | document =>
      .error (.valueError ("plan_from_yaml: top-level YAML must be a mapping, got " ++
        document.typeName))

end Checked

end DecoyEngine.Planning
