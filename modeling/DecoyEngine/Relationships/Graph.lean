import DecoyEngine.Data.PyRepr
import Mathlib.Data.List.Lex
import Mathlib.Data.List.Sort
import Mathlib.Data.Prod.Lex
import Mathlib.Data.String.Basic

namespace DecoyEngine.Relationships

open DecoyEngine.Data

/-! The relationship graph (`relationships/_graph.py`).

Names compare by code point, column tuples and sort keys lexicographically, as
Python compares `str` and `tuple`; `sorted` is a stable sort. -/

inductive OrphanPolicy where
  | preserve | remap | warn | fail
deriving Repr, DecidableEq

def OrphanPolicy.value : OrphanPolicy → String
  | .preserve => "preserve"
  | .remap => "remap"
  | .warn => "warn"
  | .fail => "fail"

/-- A table and a column tuple: one node, composite keys included. -/
abbrev NodeKey := String ×ₗ List String

instance : LawfulBEq NodeKey := inferInstance

/-- A declared foreign key; both column tuples are non-empty and of one length. -/
structure Relationship where
  parentTable : String
  parentColumns : List String
  childTable : String
  childColumns : List String
  namespaceName : Option String
  nonempty : parentColumns ≠ []
  aligned : parentColumns.length = childColumns.length
deriving DecidableEq

def Relationship.parent (rel : Relationship) : NodeKey := toLex (rel.parentTable, rel.parentColumns)

def Relationship.child (rel : Relationship) : NodeKey := toLex (rel.childTable, rel.childColumns)

structure RelationshipEdge where
  parentTable : String
  parentColumns : List String
  childTable : String
  childColumns : List String
  namespaceName : String
  orphanPolicy : OrphanPolicy
deriving Repr, DecidableEq

namespace RelationshipEdge

variable (edge : RelationshipEdge)

def parent : NodeKey := toLex (edge.parentTable, edge.parentColumns)

def child : NodeKey := toLex (edge.childTable, edge.childColumns)

/-- `(parent_table, parent_columns, child_table, child_columns)`, the sort key. -/
def key : NodeKey ×ₗ NodeKey := toLex (edge.parent, edge.child)

end RelationshipEdge

structure RelationshipGraph where
  edges : List RelationshipEdge
  ordering : List NodeKey
deriving DecidableEq

def RelationshipGraph.parentsOf (graph : RelationshipGraph) (childTable : String)
    (childColumns : List String) : List RelationshipEdge :=
  graph.edges.filter (fun e => e.childTable = childTable ∧ e.childColumns = childColumns)

/-- `repr` of a tuple of names. -/
def tupleText (names : List String) : String :=
  match names with
  | [name] => "(" ++ pyRepr name ++ ",)"
  | _ => "(" ++ ", ".intercalate (names.map pyRepr) ++ ")"

inductive PlanCompileError where
  | namespaceMissing (rel : Relationship)
  | orphanPolicyConflict (childTable : String) (childColumns : List String)
      (policies : List String)
  | orphanFkPolicyMissing (rel : Relationship)
  | fkCycle (cycleNodes : List NodeKey)
deriving DecidableEq

namespace PlanCompileError

def code : PlanCompileError → String
  | namespaceMissing _ => "namespace_missing"
  | orphanPolicyConflict _ _ _ => "orphan_policy_conflict"
  | orphanFkPolicyMissing _ => "orphan_fk_policy_missing"
  | fkCycle _ => "fk_cycle"

def path : PlanCompileError → String
  | orphanPolicyConflict childTable childColumns _ =>
      s!"relationships[{childTable}.{tupleText childColumns}]"
  | namespaceMissing rel | orphanFkPolicyMissing rel =>
      s!"relationships[{rel.parentTable}.{tupleText rel.parentColumns}->" ++
      s!"{rel.childTable}.{tupleText rel.childColumns}]"
  | fkCycle _ => "relationships"

/-- `repr` of a `(table, columns)` node. -/
def nodeText (node : NodeKey) : String :=
  "(" ++ pyRepr (ofLex node).1 ++ ", " ++ tupleText (ofLex node).2 ++ ")"

def message : PlanCompileError → String
  | namespaceMissing rel =>
      s!"Relationship {rel.parentTable}.{tupleText rel.parentColumns} -> " ++
      s!"{rel.childTable}.{tupleText rel.childColumns} has no resolvable " ++
      "namespace. Declare a namespace on the relationship, on the parent column, " ++
      "or on the child column."
  | orphanPolicyConflict childTable childColumns policies =>
      s!"Column {childTable}.{tupleText childColumns} declares FK relationships " ++
      "to multiple parents with CONFLICTING orphan policies: " ++
      namesText policies ++
      ". A multi-parent child resolves through " ++
      "every parent map before a row counts as an orphan, so the " ++
      "edges must share one policy; align the orphan_policy values."
  | orphanFkPolicyMissing rel =>
      s!"Relationship {rel.parentTable}.{tupleText rel.parentColumns} -> " ++
      s!"{rel.childTable}.{tupleText rel.childColumns} has no orphan_policy " ++
      "in the lookup; check_orphan_fk_policy_completeness must run " ++
      "before build_relationship_graph."
  | fkCycle cycleNodes =>
      s!"FK relationships form a cycle. {cycleNodes.length} nodes are part " ++
      "of one or more cycles: " ++ listText (cycleNodes.map nodeText) ++
      ". Plan cannot determine a deterministic mask order."

end PlanCompileError

section Build

variable (namespaceFor : Relationship → Except PlanCompileError String)
  (orphanPolicyLookup : NodeKey ×ₗ NodeKey → Option OrphanPolicy)

def Relationship.key (rel : Relationship) : NodeKey ×ₗ NodeKey := toLex (rel.parent, rel.child)

/-- The distinct policy values declared for one child, ascending. -/
def childPolicies (relationships : List Relationship) (child : NodeKey) : List String :=
  (((relationships.filter (fun rel => rel.child = child)).filterMap
    (fun rel => (orphanPolicyLookup rel.key).map OrphanPolicy.value)).dedup).insertionSort (· ≤ ·)

/-- The conflict check, child by child in declaration order. -/
def checkPolicies (relationships : List Relationship) : List NodeKey → Except PlanCompileError Unit
  | [] => .ok ()
  | child :: rest =>
      let policies := childPolicies orphanPolicyLookup relationships child
      if 1 < policies.length then
        .error (.orphanPolicyConflict (ofLex child).1 (ofLex child).2 policies)
      else checkPolicies relationships rest

def resolveEdge (rel : Relationship) : Except PlanCompileError RelationshipEdge := do
  let resolved ← namespaceFor rel
  match orphanPolicyLookup rel.key with
  | none => .error (.orphanFkPolicyMissing rel)
  | some policy =>
      .ok { parentTable := rel.parentTable, parentColumns := rel.parentColumns
            childTable := rel.childTable, childColumns := rel.childColumns
            namespaceName := resolved, orphanPolicy := policy }

def edgesSorted (edges : List RelationshipEdge) : List RelationshipEdge :=
  edges.eraseDups.insertionSort (fun left right => left.key ≤ right.key)

/-! Kahn's algorithm.  The heap is the list of ready nodes; popping takes the least. -/

structure KahnState where
  queue : List NodeKey
  indegree : NodeKey → Nat
  ordered : List NodeKey

def heapPop : List NodeKey → Option (NodeKey × List NodeKey)
  | [] => none
  | node :: rest =>
      let least := rest.foldl min node
      some (least, (node :: rest).erase least)

def releaseChild (state : KahnState) (next : NodeKey) : KahnState :=
  let indegree := fun node => if node = next then state.indegree node - 1 else state.indegree node
  { state with
    indegree
    queue := if indegree next = 0 then next :: state.queue else state.queue }

/-- One pass of the `while queue` loop per unit of fuel; a pass orders one node. -/
def kahnLoop (outEdges : NodeKey → List NodeKey) : Nat → KahnState → KahnState
  | 0, state => state
  | fuel + 1, state =>
      match heapPop state.queue with
      | none => state
      | some (node, queue) =>
          let popped := { state with queue, ordered := state.ordered ++ [node] }
          kahnLoop outEdges fuel
            (((outEdges node).insertionSort (· ≤ ·)).foldl releaseChild popped)

def graphNodes (edges : List RelationshipEdge) : List NodeKey :=
  (edges.flatMap (fun e => [e.parent, e.child])).eraseDups

def graphOrdering (edges : List RelationshipEdge) : Except PlanCompileError (List NodeKey) :=
  let nodes := graphNodes edges
  let indegree := fun node => edges.countP (fun e => e.child = node)
  let outEdges := fun node => (edges.filter (fun e => e.parent = node)).map RelationshipEdge.child
  let final := kahnLoop outEdges nodes.length
    { queue := nodes.filter (fun node => indegree node = 0), indegree, ordered := [] }
  if final.ordered.length ≠ nodes.length then
    .error (.fkCycle ((nodes.filter (fun node => 0 < final.indegree node)).insertionSort (· ≤ ·)))
  else .ok final.ordered

def buildRelationshipGraph (relationships : List Relationship) :
    Except PlanCompileError RelationshipGraph := do
  checkPolicies orphanPolicyLookup relationships (relationships.map Relationship.child).eraseDups
  let edges ← relationships.mapM (resolveEdge namespaceFor orphanPolicyLookup)
  let sorted := edgesSorted edges
  let ordering ← graphOrdering sorted
  .ok { edges := sorted, ordering }

end Build

end DecoyEngine.Relationships
