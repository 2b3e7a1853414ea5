import DecoyEngine.Execution.WorkOrder

namespace DecoyEngine.Execution.Carry

open DecoyEngine.Data DecoyEngine.Relationships

/-! Which columns a config entry reads or writes besides its own (`_column_access.py`).

A set of columns is a list read up to order and repetition. -/

/-- A value of `provider_config`, with what `str` and the truth test make of it. -/
inductive Setting where
  | text (value : String)
  | list (printed : String) (items : List Setting)
  | mapping (printed : String) (entries : List (String × Setting))
  | other (printed : String) (truthy : Bool)

abbrev Config := List (String × Setting)

/-- `str(value)` -/
def Setting.printed : Setting → String
  | .text value => value
  | .list printed _ => printed
  | .mapping printed _ => printed
  | .other printed _ => printed

def Setting.truthy : Setting → Bool
  | .text value => value != ""
  | .list _ items => !items.isEmpty
  | .mapping _ entries => !entries.isEmpty
  | .other _ truthy => truthy

/-- A non-empty text (`isinstance(value, str) and value`). -/
def Setting.name? : Setting → Option String
  | .text value => if value = "" then none else some value
  | _ => none

/-- `_strings` -/
def Setting.strings : Setting → List String
  | .list _ items => items.filterMap fun item =>
      match item with
      | .text value => some value
      | _ => none
  | _ => []

/-- `SCALAR_HANDLERS`, and any other name. -/
inductive StrategyName where
  | passthrough | redact | truncate | faker | hash | bucketize | topCode | shuffle | categorical
  | dateShift | formula | fpe | textRedact | textMask | nested | jointMask | geoGeneralize
  | codeSet | derived | bucketPerturb | derivedAggregate | groupedSeries | windowedDate | groupKey
  | tokenize
  | other (name : String)
deriving Repr, DecidableEq

def StrategyName.text : StrategyName → String
  | .passthrough => "passthrough"
  | .redact => "redact"
  | .truncate => "truncate"
  | .faker => "faker"
  | .hash => "hash"
  | .bucketize => "bucketize"
  | .topCode => "top_code"
  | .shuffle => "shuffle"
  | .categorical => "categorical"
  | .dateShift => "date_shift"
  | .formula => "formula"
  | .fpe => "fpe"
  | .textRedact => "text_redact"
  | .textMask => "text_mask"
  | .nested => "nested"
  | .jointMask => "joint_mask"
  | .geoGeneralize => "geo_generalize"
  | .codeSet => "code_set"
  | .derived => "derived"
  | .bucketPerturb => "bucket_perturb"
  | .derivedAggregate => "derived_aggregate"
  | .groupedSeries => "grouped_series"
  | .windowedDate => "windowed_date"
  | .groupKey => "group_key"
  | .tokenize => "tokenize"
  | .other name => name

/-- `_SCALAR_STRATEGIES` -/
def scalarStrategies : List StrategyName :=
  [.passthrough, .redact, .truncate, .faker, .hash, .bucketize, .topCode, .shuffle, .categorical,
    .dateShift, .formula, .fpe, .textRedact, .textMask, .nested, .jointMask, .geoGeneralize,
    .codeSet, .derived, .bucketPerturb, .derivedAggregate, .groupedSeries, .windowedDate,
    .groupKey, .tokenize]

def StrategyName.ofText (text : String) : StrategyName :=
  (scalarStrategies.find? fun strategy => strategy.text = text).getD (.other text)

inductive Literal where
  | int (value : Int)
  | float (digits : String)
  | text (value : String)
  | flag (value : Bool)
deriving Repr, DecidableEq

inductive CompareOp where
  | eq | ne | lt | le | gt | ge
deriving Repr, DecidableEq

inductive BoolOp where
  | and | or
deriving Repr, DecidableEq

/-- `WhenExpr` -/
inductive WhenExpr where
  | compare (ref : String) (op : CompareOp) (value : Literal) (literalFirst : Bool)
  | inList (ref : String) (values : List Literal) (negated : Bool)
  | not (operand : WhenExpr)
  | boolOp (op : BoolOp) (operands : List WhenExpr)

mutual

/-- The references of a predicate, in reading order. -/
def WhenExpr.refs : WhenExpr → List String
  | .compare ref _ _ _ => [ref]
  | .inList ref _ _ => [ref]
  | .not operand => operand.refs
  | .boolOp _ operands => WhenExpr.refsAll operands

def WhenExpr.refsAll : List WhenExpr → List String
  | [] => []
  | operand :: operands => operand.refs ++ WhenExpr.refsAll operands

end

/-- `when_column_refs` -/
def whenColumnRefs (predicate : WhenExpr) : List String := sortedNames predicate.refs

/-- The name tokens of a literal. -/
def Literal.names : Literal → List String
  | .flag true => ["True"]
  | .flag false => ["False"]
  | _ => []

def BoolOp.word : BoolOp → String
  | .and => "and"
  | .or => "or"

mutual

/-- The name tokens of a predicate's text: its references and its keywords. -/
def WhenExpr.names : WhenExpr → List String
  | .compare ref _ value _ => ref :: value.names
  | .inList ref values negated =>
      ref :: (if negated then ["not", "in"] else ["in"]) ++ values.flatMap Literal.names
  | .not operand => "not" :: operand.names
  | .boolOp op operands => op.word :: WhenExpr.namesAll operands

def WhenExpr.namesAll : List WhenExpr → List String
  | [] => []
  | operand :: operands => operand.names ++ WhenExpr.namesAll operands

end

/-- A column's entry in the config, its predicate parsed; a blank one is absent. -/
structure Entry where
  name : String
  strategy : StrategyName
  provider : Option String
  coherentWith : List String
  providerConfig : Config
  when : Option WhenExpr

/-- `provider_config.get(key)` -/
def Config.get (config : Config) (key : String) : Option Setting := config.lookup key

structure ColumnAccess where
  reads : List String
  writes : List String
  readsUnknown : Bool
  writesUnknown : Bool
deriving Repr, DecidableEq

def ColumnAccess.ofReads (reads : List String) : ColumnAccess := ⟨reads, [], false, false⟩

/-- `_READS_UNKNOWN` -/
def ColumnAccess.unknownReads : ColumnAccess := ⟨[], [], true, false⟩

/-- `_WRITES_UNKNOWN` -/
def ColumnAccess.unknownWrites : ColumnAccess := ⟨[], [], false, true⟩

/-- `_union` -/
def ColumnAccess.union (left right : ColumnAccess) : ColumnAccess :=
  ⟨left.reads ++ right.reads, left.writes ++ right.writes,
    left.readsUnknown || right.readsUnknown, left.writesUnknown || right.writesUnknown⟩

/-- `SIBLING_REFERENCE_KEYS` -/
def siblingReferenceKeys : List String := ["group_by", "order_by", "anchor", "reference_column"]

/-- `_siblings` -/
def siblings (coherentWith : List String) (config : Config) : List String :=
  coherentWith ++ siblingReferenceKeys.filterMap fun key => (config.get key).bind Setting.name?

section Declarations

variable (columnRefs : String → Option (List String))

/-- `_derived`; `columnRefs` is the column references of an expression, `none` when it does not
compile. -/
def derivedAccess (coherentWith : List String) (config : Config) : ColumnAccess :=
  let refs := (config.get "expression").bind fun expression =>
    if expression.truthy then columnRefs expression.printed else none
  match refs with
  | none => (ColumnAccess.ofReads (siblings coherentWith config)).union .unknownReads
  | some refs => .ofReads (siblings coherentWith config ++ refs)

/-- The column named under `key`, as a list. -/
def namedColumn (config : Config) (key : String) : List String :=
  ((config.get key).bind Setting.name?).toList

/-- `_joint_mask` -/
def jointMaskAccess (coherentWith : List String) (config : Config) : ColumnAccess :=
  ⟨siblings coherentWith config ++ namedColumn config "key_by",
    ((config.get "columns").map Setting.strings).getD [], false, false⟩

/-- `provider_config.get("strategy_config") or {}`, where a mapping is expected. -/
def Config.child (config : Config) (key : String) : Config :=
  match config.get key with
  | some (.mapping _ entries) => entries
  | _ => []

theorem sizeOf_lookup {config : Config} {key : String} {value : Setting}
    (found : config.lookup key = some value) : sizeOf value < sizeOf config := by
  induction config with
  | nil => cases found
  | cons entry rest ih =>
      obtain ⟨name, setting⟩ := entry
      rw [List.lookup_cons] at found
      cases same : key == name
      · rw [same] at found
        have smaller := ih found
        simp only [List.cons.sizeOf_spec]
        omega
      · rw [same] at found
        cases found
        simp only [List.cons.sizeOf_spec, Prod.mk.sizeOf_spec]
        omega

theorem sizeOf_child {config : Config} (present : config ≠ []) (key : String) :
    sizeOf (config.child key) < sizeOf config := by
  rw [Config.child]
  split
  · rename_i printed entries found
    have smaller := sizeOf_lookup found
    simp only [Setting.mapping.sizeOf_spec] at smaller
    omega
  · obtain ⟨entry, rest, rfl⟩ := List.exists_cons_of_ne_nil present
    simp only [List.nil.sizeOf_spec, List.cons.sizeOf_spec]
    have positive : 0 < sizeOf entry := by
      obtain ⟨name, setting⟩ := entry
      simp only [Prod.mk.sizeOf_spec]
      omega
    omega

/-- The strategy of a `nested` entry's child. -/
def childStrategy (config : Config) : StrategyName :=
  .ofText (((config.get "strategy").map Setting.printed).getD "None")

/-- `SURFACE_DECLARATIONS["scalar:…"]`, `none` for an undeclared strategy. -/
def scalarAccess (strategy : StrategyName) (coherentWith : List String) (config : Config) :
    Option ColumnAccess :=
  match strategy with
  | .other _ => none
  | .derived => some (derivedAccess columnRefs coherentWith config)
  | .derivedAggregate =>
      some (.ofReads (siblings coherentWith config ++ namedColumn config "column"))
  | .jointMask => some (jointMaskAccess coherentWith config)
  | .nested =>
      -- without settings the child has no strategy either
      let inner :=
        if _empty : config = [] then none
        else scalarAccess (childStrategy config) [] (config.child "strategy_config")
      some ((ColumnAccess.ofReads (siblings coherentWith config)).union
        (inner.getD .unknownWrites))
  | _ => some (.ofReads (siblings coherentWith config))
termination_by sizeOf config
decreasing_by exact sizeOf_child ‹_› _

/-- `_COMPOSITE_OUTPUT_COLUMNS` -/
def compositeOutputColumns : List (String × List String) :=
  [("composite_name_email", ["email", "first_name", "last_name"]),
    ("composite_city_state_zip", ["city", "state", "zip"]),
    ("composite_person", ["dob", "email", "first_name", "last_name"]),
    ("composite_address", ["city", "state", "street_address", "zip"]),
    ("composite_provider", ["npi", "practice_address", "provider_name"])]

/-- The column of a bundle item, when it has a non-blank one; a column's name is not stripped. -/
def bundleColumn : Setting → Option String
  | .mapping _ entries =>
      match Config.get entries "column" with
      | some (.text value) => if value.toList.all Char.isWhitespace then none else some value
      | _ => none
  | _ => none

/-- `_custom_outputs` -/
def customOutputs (config : Config) : Option (List String) :=
  match config.get "bundle" with
  | none => some []
  | some bundle =>
      if bundle.truthy then
        match bundle with
        | .list _ items => items.mapM bundleColumn
        | _ => none
      else some []

/-- The first sorted column of the entry's group, whose values key the composite. -/
def compositeKey (entry : Entry) : List String :=
  (sortedNames (entry.name :: entry.coherentWith)).take 1

/-- `_composite` -/
def compositeDeclaration (outputs : Option (List String)) (entry : Entry) : ColumnAccess :=
  match outputs with
  | none => ⟨compositeKey entry, [], false, true⟩
  | some written => ⟨compositeKey entry, written ++ entry.coherentWith, false, false⟩

/-- `SURFACE_DECLARATIONS["composite:…"]`, `none` for an undeclared provider. -/
def compositeAccess (entry : Entry) : Option ColumnAccess :=
  let provider := entry.provider.getD "None"
  if provider = "composite_custom" then
    some (compositeDeclaration (customOutputs entry.providerConfig) entry)
  else
    (compositeOutputColumns.lookup provider).map fun columns =>
      compositeDeclaration (some columns) entry

variable (providerIsComposite : Option String → Bool) (nfkc : String → String)

/-- `predicate_names`; a predicate of the closed grammar is always read. -/
def predicateNames (predicate : WhenExpr) : List String := predicate.names.map nfkc

/-- `column_access` -/
def columnAccess (entry : Entry) : ColumnAccess :=
  let access :=
    if providerIsComposite entry.provider then (compositeAccess entry).getD .unknownWrites
    else (scalarAccess columnRefs entry.strategy entry.coherentWith entry.providerConfig).getD
      .unknownWrites
  match entry.when with
  | none => access
  | some predicate => access.union (.ofReads (predicateNames nfkc predicate))

/-- What one entry adds to the touched columns. -/
def touchedBy (entry : Entry) : List String :=
  let access := columnAccess columnRefs providerIsComposite nfkc entry
  let beyondOwn := access.writes.any fun column => column != entry.name
  (access.reads ++ access.writes).filter fun column => beyondOwn || column != entry.name

/-- `touched_columns` -/
def touchedColumns (entries : List Entry) : Option (List String) :=
  if entries.any fun entry =>
      (columnAccess columnRefs providerIsComposite nfkc entry).readsUnknown then none
  else some (entries.flatMap (touchedBy columnRefs providerIsComposite nfkc))

/-- `handler_written_columns` -/
def handlerWrittenColumns (entries : List Entry) : Option (List String) :=
  if entries.any fun entry =>
      (columnAccess columnRefs providerIsComposite nfkc entry).writesUnknown then none
  else some (entries.flatMap fun entry =>
    (columnAccess columnRefs providerIsComposite nfkc entry).writes)

/-- `composite_provider_offenders`, by name. -/
def compositeProviderOffenders (entries : List Entry) : List String :=
  (entries.filter fun entry => providerIsComposite entry.provider).map Entry.name

end Declarations

end DecoyEngine.Execution.Carry
