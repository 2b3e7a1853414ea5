import DecoyEngine.Relationships.Graph
import DecoyEngine.Relationships.Namespace

namespace DecoyEngine.Execution

open DecoyEngine.Data DecoyEngine.Relationships

/-! The work list and its order (`execution/_runner.py`).

A set of keys is a list read up to order and repetition; `_kahn_sorted` drops
the repetitions where it counts. -/

inductive Strategy where
  | jointMask | derived | groupKey
  | other (name : String)
deriving Repr, DecidableEq

/-- The fields of a column's seed that ordering reads; an absent or empty entry of
`provider_config` is the empty value. -/
structure ColumnSeed where
  strategy : Strategy
  provider : Option String
  coherentWith : List String
  columns : List String
  expression : String
  groupBy : String
deriving Repr, DecidableEq

structure GroupSeed where
  coherentColumns : List String
deriving Repr, DecidableEq

structure TableSeed where
  perColumn : List (String × ColumnSeed)
  perGroup : List (String × GroupSeed)

inductive NodeKind where
  | scalar | composite | compositeFkGroup
deriving Repr, DecidableEq

inductive PlanSlice where
  | column (seed : ColumnSeed)
  | group (seed : GroupSeed)
deriving Repr, DecidableEq

structure WorkNode where
  table : String
  columns : List String
  kind : NodeKind
  strategy : Strategy
  provider : Option String
  planSlice : PlanSlice
deriving Repr, DecidableEq

def workOrderKey (table : String) (columns : List String) : NodeKey := toLex (table, columns)

def WorkNode.key (node : WorkNode) : NodeKey := workOrderKey node.table node.columns

inductive WorkOrderError where
  | cyclicWorkOrdering (unplaced : List NodeKey)
deriving DecidableEq

def WorkOrderError.code : WorkOrderError → String
  | .cyclicWorkOrdering _ => "cyclic_work_ordering"

def WorkOrderError.message : WorkOrderError → String
  | .cyclicWorkOrdering unplaced =>
      "cycle in work-node dependencies; unresolved: " ++
      listText (unplaced.map PlanCompileError.nodeText)

section WorkList

variable (providerIsComposite : Option String → Bool)

def scalarNode (table name : String) (seed : ColumnSeed) : WorkNode :=
  { table, columns := [name], kind := .scalar, strategy := seed.strategy
    provider := seed.provider, planSlice := .column seed }

def compositeNode (table : String) (columns : List String) (head : ColumnSeed) : WorkNode :=
  { table, columns, kind := .composite, strategy := .other "<composite>"
    provider := head.provider, planSlice := .column head }

def groupNode (table : String) (seed : GroupSeed) : WorkNode :=
  { table, columns := seed.coherentColumns, kind := .compositeFkGroup
    strategy := .other "<group>", provider := some "<group>", planSlice := .group seed }

/-- The head seed of each composite bundle of a table, in order of first appearance. -/
def compositeGroups (perColumn : List (String × ColumnSeed)) : Dict (List String) ColumnSeed :=
  Dict.empty.setdefaults ((perColumn.filter fun column => providerIsComposite column.2.provider).map
    fun column => (sortedNames (column.1 :: column.2.coherentWith), column.2))

def buildWorkList (perTable : List (String × TableSeed)) : List WorkNode :=
  perTable.flatMap fun entry =>
    let scalars := entry.2.perColumn.filter fun column =>
      !providerIsComposite column.2.provider
    scalars.map (fun column => scalarNode entry.1 column.1 column.2) ++
      (compositeGroups providerIsComposite entry.2.perColumn).entries.map
        (fun group => compositeNode entry.1 group.1 group.2) ++
      entry.2.perGroup.map (fun group => groupNode entry.1 group.2)

end WorkList

/-- Every column the node writes. -/
def writerOutputColumns (node : WorkNode) : List String :=
  match node.strategy, node.planSlice with
  | .jointMask, .column seed => if seed.columns ≠ [] then seed.columns else node.columns
  | _, _ => node.columns

def writerNodeMap (work : List WorkNode) (table column : String) : List NodeKey :=
  (work.filter fun node => node.table = table ∧ column ∈ writerOutputColumns node).map WorkNode.key

section Order

variable (columnRefs : String → Option (List String))

/-- The sibling columns read for their masked value; `columnRefs` is the column references
of an expression, `none` when it does not compile. -/
def maskedDriverColumns (node : WorkNode) : List String :=
  match node.planSlice with
  | .group _ => []
  | .column seed =>
      match node.strategy with
      | .derived =>
          if seed.expression = "" then [] else (columnRefs seed.expression).getD []
      | .groupKey => if seed.groupBy = "" then [] else [seed.groupBy]
      | _ => []

/-- What waits and what it waits on. -/
structure Dependency where
  dependent : NodeKey
  driver : NodeKey
deriving DecidableEq

def columnDependencyEdges (work : List WorkNode) : List Dependency :=
  work.flatMap fun node => (maskedDriverColumns columnRefs node).flatMap fun column =>
    ((writerNodeMap work node.table column).filter fun writer => writer ≠ node.key).map
      fun writer => ⟨node.key, writer⟩

def byKey (work : List WorkNode) : Dict NodeKey WorkNode :=
  Dict.empty.sets (work.map fun node => (node.key, node))

/-- The edges of one foreign key whose child is a node. -/
def fkDependencies (keys : List NodeKey) (edge : RelationshipEdge) : List Dependency :=
  if edge.child ∉ keys then []
  else if edge.parent ∈ keys then [⟨edge.child, edge.parent⟩]
  else
    ((edge.parentColumns.map fun column => workOrderKey edge.parentTable [column]).filter
      fun key => key ∈ keys).map fun key => ⟨edge.child, key⟩

/-- A composite bundle whose columns cover the parent columns. -/
def bundleDependencies (keys : List NodeKey) (graph : RelationshipGraph) (node : WorkNode) :
    List Dependency :=
  if node.kind ≠ .composite then []
  else
    (graph.edges.filter fun edge => edge.parentTable = node.table ∧
      edge.parentColumns ⊆ node.columns ∧ edge.child ∈ keys).map
      fun edge => ⟨edge.child, node.key⟩

def workDependencies (work : List WorkNode) (graph : RelationshipGraph)
    (columnDeps : Option (List Dependency)) : List Dependency :=
  let keys := (byKey work).keys
  graph.edges.flatMap (fkDependencies keys) ++ work.flatMap (bundleDependencies keys graph) ++
    (columnDeps.getD (columnDependencyEdges columnRefs work)).filter fun dependency =>
      dependency.dependent ∈ keys ∧ dependency.driver ∈ keys

/-- `_kahn_sorted`: the nodes of the work in an order that respects the dependencies among them, the
least ready node first, or the nodes that are left over on a cycle. -/
def kahnSorted (byKey : Dict NodeKey WorkNode) (deps : List Dependency) :
    Except WorkOrderError (List WorkNode) :=
  let keys := byKey.keys
  if keys = [] then .ok []
  else
    let deps := (deps.filter fun dependency =>
      dependency.dependent ∈ keys ∧ dependency.driver ∈ keys).dedup
    let rev := fun parent =>
      (deps.filter fun dependency => dependency.driver = parent).map Dependency.dependent
    let indegree := fun child => deps.countP fun dependency => dependency.dependent = child
    let final := kahnLoop rev keys.length
      { queue := keys.filter (fun key => indegree key = 0), indegree, ordered := [] }
    if final.ordered.length < keys.length then
      .error (.cyclicWorkOrdering
        ((keys.filter fun key => 0 < final.indegree key).insertionSort (· ≤ ·)))
    else .ok (final.ordered.filterMap byKey.find)

def orderWork (work : List WorkNode) (graph : RelationshipGraph)
    (columnDeps : Option (List Dependency)) : Except WorkOrderError (List WorkNode) :=
  kahnSorted (byKey work) (workDependencies columnRefs work graph columnDeps)

end Order

end DecoyEngine.Execution
