import DecoyEngine.Data.Json
import DecoyEngine.Data.Vocabulary
import DecoyEngine.Relationships.Graph

namespace DecoyEngine.Planning

open DecoyEngine.Data DecoyEngine.Relationships

/-! The plan (`plan/_types.py`), of a pipeline that generates no table.

A document (`Any`, or a frozen value) is its JSON content: freezing changes the containers
that hold it and not what they hold. -/

/-- `plan/_errors.py`; every failure that names a path in the configuration. -/
structure PlanCompileError where
  code : String
  path : String
  message : String
deriving Repr, DecidableEq

inductive BackendType where
  | faker | mimesis | pool | decoyNative
deriving Repr, DecidableEq

instance : Vocabulary BackendType where
  members := [.faker, .mimesis, .pool, .decoyNative]
  word
    | .faker => "faker"
    | .mimesis => "mimesis"
    | .pool => "pool"
    | .decoyNative => "decoy_native"

inductive CardinalityMode where
  | reuse | unique | matchSourceCardinality | scaleSourceCardinality
deriving Repr, DecidableEq

instance : Vocabulary CardinalityMode where
  members := [.reuse, .unique, .matchSourceCardinality, .scaleSourceCardinality]
  word
    | .reuse => "reuse"
    | .unique => "unique"
    | .matchSourceCardinality => "match_source_cardinality"
    | .scaleSourceCardinality => "scale_source_cardinality"

instance : Vocabulary OrphanPolicy where
  members := [.preserve, .remap, .warn, .fail]
  word := OrphanPolicy.value

/-- What the plan keeps of a masked column: everything that its strategy is run with, frozen when
the plan is compiled. -/
structure ColumnSeed where
  namespaceName : Option String
  strategy : String
  provider : Option String
  backendType : BackendType
  backendVersion : String
  cardinalityMode : CardinalityMode
  deterministic : Bool
  providerConfig : List (String × Json)
  coherentWith : List String
  techniqueClass : Option String
  when : Option String
  distributionBehavior : Option String
  nerModelVersion : Option String
  poolSize : Option Int
  scale : Option Double
  vault : Bool

structure GroupSeed where
  namespaceName : String
  coherentColumns : List String
deriving DecidableEq

structure TableSeed where
  perColumn : List (String × ColumnSeed)
  perGroup : List (String × GroupSeed)

structure SeedEnvelope where
  jobSeed : List UInt8
  perTable : List (String × TableSeed)

structure PlanRelationshipEnd where
  table : String
  columns : List String
deriving DecidableEq

/-- What `__post_init__` refuses is no relationship. -/
structure PlanRelationship where
  parent : PlanRelationshipEnd
  children : List PlanRelationshipEnd
  orphanPolicy : OrphanPolicy
  namespaceName : Option String
  nonempty : children ≠ []
  columns : parent.columns.length ≠ 0
  aligned : ∀ child ∈ children, child.columns.length = parent.columns.length

structure NamespaceBinding where
  namespaceName : String
  declaredBy : List (String × List String)
deriving DecidableEq

structure OrderingNode where
  table : String
  columns : List String
deriving DecidableEq

structure PlanCompileResult where
  checksPassed : List String
  checksSkipped : List String
  warnings : List String
  errors : List String
deriving DecidableEq

structure PlanDeclaredColumn where
  table : String
  column : String
  strategy : String
  contract : Json

structure DeclaredCastingPlan where
  catalogVersion : Int
  columns : List PlanDeclaredColumn
  quarantine : Json

structure Plan where
  planVersion : Int
  seedProtocolVersion : Int
  engineVersion : String
  pipelineConfigHash : String
  profileHash : String
  seedEnvelope : SeedEnvelope
  relationships : List PlanRelationship
  namespaces : List NamespaceBinding
  ordering : List OrderingNode
  planCompile : PlanCompileResult
  declaredCasting : Option DeclaredCastingPlan

end DecoyEngine.Planning
