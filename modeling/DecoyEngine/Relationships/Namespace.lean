import DecoyEngine.Data.Checked
import DecoyEngine.Data.Dict
import DecoyEngine.Relationships.Graph

namespace DecoyEngine.Relationships

open DecoyEngine.Data

/-! The namespace registry (`relationships/_namespace.py`).  In the configuration it reads, what is
not of the expected type is `none`; the walk skips it. -/

structure ColumnEntry where
  name : Option String
  coherentWith : List (Option String)
  namespaceName : Option String
  deterministic : Bool

structure TableEntry where
  name : Option String
  columns : List (Option ColumnEntry)

structure Config where
  namespaces : Dict String (Option (List (Option String)))
  tables : List (Option TableEntry)

def ColumnEntry.nameText (entry : ColumnEntry) : String := entry.name.getD "?"

def TableEntry.nameText (entry : TableEntry) : String := entry.name.getD "?"

/-- An empty name declares nothing. -/
def ColumnEntry.explicitNs (entry : ColumnEntry) : Option String :=
  entry.namespaceName.filter fun name => !name.isEmpty

def ColumnEntry.coherent (entry : ColumnEntry) : List String := entry.coherentWith.filterMap id

abbrev ColumnKey := String × List String

inductive NamespaceConfigError where
  | ambiguity (key : ColumnKey) (conflicting : List String)
  | missingColumn (table column : String)
  | missingRelationship (rel : Relationship)
deriving DecidableEq

namespace NamespaceConfigError

def code : NamespaceConfigError → String
  | ambiguity _ _ => "namespace_ambiguity"
  | missingColumn _ _ => "namespace_missing"
  | missingRelationship _ => "namespace_missing"

def path : NamespaceConfigError → String
  | ambiguity _ conflicting => "namespaces.\x7b" ++ ",".intercalate conflicting ++ "\x7d.declared_by"
  | missingColumn table column => s!"tables.{table}.columns.{column}"
  | missingRelationship rel =>
      s!"relationships[{rel.parentTable}.{tupleText rel.parentColumns}->" ++
      s!"{rel.childTable}.{tupleText rel.childColumns}]"

def message : NamespaceConfigError → String
  | ambiguity key conflicting =>
      s!"Column {key.1}.{tupleText key.2} is declared in multiple namespaces: " ++
      namesText conflicting ++
      ". Each column may belong to exactly one namespace. " ++
      "If this column inherits a namespace from a FK relationship, drop " ++
      "the explicit override; same-FK columns must share a namespace."
  | missingColumn table column =>
      s!"Column {table}.{column} declares " ++
      "`deterministic: true` but does not declare a namespace. " ++
      "Deterministic columns require an explicit namespace to " ++
      "guarantee cross-column consistency."
  | missingRelationship rel =>
      s!"Relationship {rel.parentTable}.{tupleText rel.parentColumns} -> " ++
      s!"{rel.childTable}.{tupleText rel.childColumns} has no resolvable " ++
      "namespace. Declare a namespace on the relationship, on the parent column, " ++
      "or on the child column."

end NamespaceConfigError

structure NamespaceBinding where
  namespaceName : String
  declaredBy : List ColumnKey
deriving Repr, DecidableEq

structure NamespaceRegistry where
  bindings : List NamespaceBinding

namespace NamespaceRegistry

/-- The reverse index that `__post_init__` builds. -/
def index (registry : NamespaceRegistry) : Dict ColumnKey String :=
  Dict.empty.sets (registry.bindings.flatMap fun binding =>
    binding.declaredBy.map fun bound => (bound, binding.namespaceName))

def forColumn (registry : NamespaceRegistry) (key : ColumnKey) : Option String :=
  registry.index.find key

def forRelationship (registry : NamespaceRegistry) (rel : Relationship) :
    Except NamespaceConfigError String :=
  match rel.namespaceName with
  | some name => .ok name
  | none =>
      match registry.forColumn (rel.parentTable, rel.parentColumns) with
      | some parentNs => .ok parentNs
      | none =>
          match registry.forColumn (rel.childTable, rel.childColumns) with
          | some childNs => .ok childNs
          | none => .error (.missingRelationship rel)

def members (registry : NamespaceRegistry) (namespaceName : String) : List ColumnKey :=
  match registry.bindings.find? fun binding => binding.namespaceName = namespaceName with
  | some binding => binding.declaredBy
  | none => []

def declared (registry : NamespaceRegistry) : List String :=
  registry.bindings.map NamespaceBinding.namespaceName

end NamespaceRegistry

structure Bindings where
  columnOwner : Dict ColumnKey String
  namespaceToColumns : Dict String (List ColumnKey)

def Bindings.empty : Bindings := ⟨Dict.empty, Dict.empty⟩

/-- `sorted` of a set of names. -/
def sortedNames (names : List String) : List String := sorted names.dedup

def raiseAmbiguity {α : Type} (key : ColumnKey) (existing namespaceName : String) :
    Except NamespaceConfigError α :=
  .error (.ambiguity key (sortedNames [existing, namespaceName]))

namespace Bindings

/-- `if key not in namespace_to_columns[ns]: namespace_to_columns[ns].append(key)`. -/
def append (bindings : Bindings) (key : ColumnKey) (ns : String) : Bindings :=
  let columns := (bindings.namespaceToColumns.find ns).getD []
  { bindings with
    namespaceToColumns := bindings.namespaceToColumns.set ns
      (if key ∈ columns then columns else columns ++ [key]) }

/-- A declaration of the column itself: the owner is written even when it stands already. -/
def declare (bindings : Bindings) (key : ColumnKey) (ns : String) :
    Except NamespaceConfigError Bindings :=
  let written : Bindings := { bindings with columnOwner := bindings.columnOwner.set key ns }
  match bindings.columnOwner.find key with
  | some existing =>
      if existing ≠ ns then raiseAmbiguity key existing ns else .ok (written.append key ns)
  | none => .ok (written.append key ns)

/-- A binding the column comes to have: nothing is written when it has it already. -/
def bind (bindings : Bindings) (key : ColumnKey) (ns : String) :
    Except NamespaceConfigError Bindings :=
  match bindings.columnOwner.find key with
  | some existing => if existing ≠ ns then raiseAmbiguity key existing ns else .ok bindings
  | none =>
      .ok ({ bindings with columnOwner := bindings.columnOwner.set key ns }.append key ns)

end Bindings

/-- `col_part.split("__")`. -/
def splitComposite : List Char → List (List Char)
  | [] => [[]]
  | '_' :: '_' :: rest => [] :: splitComposite rest
  | char :: rest =>
      match splitComposite rest with
      | part :: parts => (char :: part) :: parts
      | [] => [[char]]

/-- `"table.col"` or `"table.col1__col2"`. -/
def parseEntry (entry : String) : Option ColumnKey :=
  let chars := entry.toList
  if '.' ∈ chars then
    some (String.ofList (chars.takeWhile (· ≠ '.')),
      (splitComposite ((chars.dropWhile (· ≠ '.')).tail)).map String.ofList)
  else none

/-- Step 1: the `namespaces` block, by name. -/
def declareNamespaces (config : Config) (bindings : Bindings) :
    Except NamespaceConfigError Bindings :=
  (config.namespaces.entries.insertionSort fun left right => left.1 ≤ right.1).foldlM
    (fun bindings entry =>
      match entry.2 with
      | none => .ok bindings
      | some declaredBy => (declaredBy.filterMap fun entry => entry.bind parseEntry).foldlM
          (fun bindings key => bindings.declare key entry.1) bindings) bindings

/-- Step 2: both ends of a relationship that names a namespace. -/
def bindRelationship (bindings : Bindings) (rel : Relationship) :
    Except NamespaceConfigError Bindings :=
  match rel.namespaceName with
  | none => .ok bindings
  | some ns => do
      let bindings ← bindings.bind (rel.parentTable, rel.parentColumns) ns
      bindings.bind (rel.childTable, rel.childColumns) ns

/-- The columns of the configuration with the name of their table. -/
def configColumns (config : Config) : List (String × ColumnEntry) :=
  (config.tables.filterMap id).flatMap fun table =>
    (table.columns.filterMap id).map fun column => (table.nameText, column)

structure Composites where
  columns : List (String × String)
  groupNs : Dict ColumnKey (Option String)

/-- Step 2.5, one column: a `coherent_with` list makes a group of the whole tuple. -/
def collectComposite (composites : Composites) (entry : String × ColumnEntry) :
    Except NamespaceConfigError Composites :=
  let coherent := entry.2.coherent
  if coherent = [] then .ok composites
  else
    let group := sortedNames (entry.2.nameText :: coherent)
    let key := (entry.1, group)
    let columns := composites.columns ++
      (entry.2.nameText :: coherent).map fun column => (entry.1, column)
    match entry.2.explicitNs with
    | some ns =>
        match (composites.groupNs.find key).join with
        | some prev =>
            if prev ≠ ns then raiseAmbiguity key prev ns
            else .ok ⟨columns, composites.groupNs.set key (some ns)⟩
        | none => .ok ⟨columns, composites.groupNs.set key (some ns)⟩
    | none => .ok ⟨columns, composites.groupNs.setdefault key none⟩

def compositeNamespace (group : ColumnKey × Option String) : String :=
  match group.2 with
  | some explicit => explicit
  | none => s!"composite/{group.1.1}/" ++ "__".intercalate group.1.2

/-- Step 3, one column: a deterministic column outside a composite needs a namespace. -/
def checkDeterministic (composites : List (String × String)) (bindings : Bindings)
    (entry : String × ColumnEntry) : Except NamespaceConfigError Bindings :=
  if !entry.2.deterministic then .ok bindings
  else if (entry.1, entry.2.nameText) ∈ composites then .ok bindings
  else
    let key := (entry.1, [entry.2.nameText])
    match entry.2.explicitNs with
    | some ns => bindings.bind key ns
    | none =>
        if key ∈ bindings.columnOwner.keys then .ok bindings
        else .error (.missingColumn entry.1 entry.2.nameText)

def Bindings.registry (bindings : Bindings) : NamespaceRegistry :=
  ⟨(bindings.namespaceToColumns.entries.insertionSort fun left right => left.1 ≤ right.1).map
    fun entry => ⟨entry.1, entry.2⟩⟩

def buildNamespaceRegistry (config : Config) (relationships : List Relationship) :
    Except NamespaceConfigError NamespaceRegistry := do
  let declared ← declareNamespaces config Bindings.empty
  let bound ← relationships.foldlM bindRelationship declared
  let composites ← (configColumns config).foldlM collectComposite ⟨[], Dict.empty⟩
  let grouped ← composites.groupNs.entries.foldlM
    (fun bindings group => bindings.declare group.1 (compositeNamespace group)) bound
  let checked ← (configColumns config).foldlM (checkDeterministic composites.columns) grouped
  .ok checked.registry

/-- The columns listed under a namespace are those it owns. -/
def Bindings.Consistent (bindings : Bindings) : Prop :=
  ∀ key ns, key ∈ (bindings.namespaceToColumns.find ns).getD [] ↔
    bindings.columnOwner.find key = some ns

/-- No owner is lost. -/
def Bindings.Extends (before after : Bindings) : Prop :=
  ∀ key ns, before.columnOwner.find key = some ns → after.columnOwner.find key = some ns

namespace Bindings

theorem Extends.refl (bindings : Bindings) : bindings.Extends bindings := fun _ _ owned => owned

theorem Extends.trans {first second third : Bindings} (left : first.Extends second)
    (right : second.Extends third) : first.Extends third :=
  fun key ns owned => right key ns (left key ns owned)

theorem consistent_write {bindings : Bindings} (consistent : bindings.Consistent) {key : ColumnKey}
    {ns : String} (unowned : ∀ existing, bindings.columnOwner.find key = some existing →
      existing = ns) :
    ({ bindings with columnOwner := bindings.columnOwner.set key ns }.append key ns).Consistent := by
  intro other name
  have listed := consistent other name
  simp only [append, Dict.find_set]
  by_cases isNs : name = ns
  · simp only [isNs, if_true, Option.getD_some]
    rw [isNs] at listed
    by_cases isKey : other = key
    · simp only [isKey, if_true, iff_true]
      split
      · assumption
      · exact List.mem_append_right _ (List.mem_singleton_self key)
    · simp only [isKey, if_false]
      rw [← listed]
      split
      · rfl
      · simp [isKey]
  · simp only [isNs, if_false]
    by_cases isKey : other = key
    · have notOwned : ¬ bindings.columnOwner.find key = some name := fun owned =>
        isNs (unowned name owned)
      rw [isKey] at listed
      have different : ¬ ns = name := fun same => isNs same.symm
      simp [isKey, listed, notOwned, different]
    · simp only [isKey, if_false]
      exact listed

theorem extends_write (bindings : Bindings) {key : ColumnKey} {ns : String}
    (unowned : ∀ existing, bindings.columnOwner.find key = some existing → existing = ns) :
    bindings.Extends
      ({ bindings with columnOwner := bindings.columnOwner.set key ns }.append key ns) := by
  intro other name owned
  simp only [append, Dict.find_set]
  by_cases isKey : other = key
  · rw [isKey] at owned
    rw [if_pos isKey, unowned name owned]
  · rw [if_neg isKey]
    exact owned

/-- What a pass may do: the two views stay consistent and no owner is lost. -/
def Grown (before after : Bindings) : Prop :=
  (before.Consistent → after.Consistent) ∧ before.Extends after

theorem Grown.refl (bindings : Bindings) : bindings.Grown bindings :=
  ⟨id, Extends.refl bindings⟩

theorem Grown.trans {first second third : Bindings} (left : first.Grown second)
    (right : second.Grown third) : first.Grown third :=
  ⟨fun consistent => right.1 (left.1 consistent), left.2.trans right.2⟩

theorem Grown.foldlM {α : Type} {f : Bindings → α → Except NamespaceConfigError Bindings}
    (step : ∀ {bindings x after}, f bindings x = .ok after → bindings.Grown after) {xs : List α}
    {start final : Bindings} (run : xs.foldlM f start = .ok final) : start.Grown final :=
  foldlM_preserves (P := start.Grown) (fun grown next => grown.trans (step next))
    (Grown.refl start) run

theorem write_grown {bindings : Bindings} {key : ColumnKey} {ns : String}
    (unowned : ∀ existing, bindings.columnOwner.find key = some existing → existing = ns) :
    bindings.Grown
        ({ bindings with columnOwner := bindings.columnOwner.set key ns }.append key ns) ∧
      ({ bindings with columnOwner := bindings.columnOwner.set key ns }.append key
        ns).columnOwner.find key = some ns := by
  refine ⟨⟨fun consistent => consistent_write consistent unowned,
    extends_write bindings unowned⟩, ?_⟩
  simp only [append, Dict.find_set, if_true]

theorem declare_grown {bindings after : Bindings} {key : ColumnKey} {ns : String}
    (run : bindings.declare key ns = .ok after) : bindings.Grown after := by
  rw [declare] at run
  cases owned : bindings.columnOwner.find key with
  | none =>
      rw [owned] at run
      cases run
      apply (write_grown _).1
      rw [owned]
      nofun
  | some existing =>
      rw [owned] at run
      dsimp only at run
      split at run
      · cases run
      · rename_i same
        cases run
        apply (write_grown _).1
        intro other isOther
        rw [owned] at isOther
        rw [← Option.some.inj isOther]
        exact not_not.mp same

theorem bind_grown {bindings after : Bindings} {key : ColumnKey} {ns : String}
    (run : bindings.bind key ns = .ok after) :
    bindings.Grown after ∧ after.columnOwner.find key = some ns := by
  rw [bind] at run
  cases owned : bindings.columnOwner.find key with
  | none =>
      rw [owned] at run
      cases run
      apply write_grown
      rw [owned]
      nofun
  | some existing =>
      rw [owned] at run
      dsimp only at run
      split at run
      · cases run
      · rename_i same
        cases run
        rw [not_not.mp same] at owned
        exact ⟨Grown.refl bindings, owned⟩

end Bindings

theorem declareNamespaces_grown {config : Config} {before after : Bindings}
    (run : declareNamespaces config before = .ok after) : before.Grown after := by
  apply Bindings.Grown.foldlM _ run
  intro bindings entry next step
  split at step
  · cases step
    exact Bindings.Grown.refl bindings
  · exact Bindings.Grown.foldlM Bindings.declare_grown step

/-- The namespace a relationship names owns both of its ends. -/
def OwnsEnds (rel : Relationship) (bindings : Bindings) : Prop :=
  ∀ ns, rel.namespaceName = some ns →
    bindings.columnOwner.find (rel.parentTable, rel.parentColumns) = some ns ∧
      bindings.columnOwner.find (rel.childTable, rel.childColumns) = some ns

theorem OwnsEnds.extends {rel : Relationship} {before after : Bindings}
    (owns : OwnsEnds rel before) (grown : before.Extends after) : OwnsEnds rel after := by
  intro ns named
  obtain ⟨parent, child⟩ := owns ns named
  exact ⟨grown _ ns parent, grown _ ns child⟩

theorem bindRelationship_grown {bindings after : Bindings} {rel : Relationship}
    (run : bindRelationship bindings rel = .ok after) :
    bindings.Grown after ∧ OwnsEnds rel after := by
  rw [bindRelationship] at run
  cases named : rel.namespaceName with
  | none =>
      rw [named] at run
      cases run
      refine ⟨Bindings.Grown.refl bindings, ?_⟩
      intro ns isNs
      rw [named] at isNs
      cases isNs
  | some ns =>
      rw [named] at run
      cases parentRun : bindings.bind (rel.parentTable, rel.parentColumns) ns with
      | error error =>
          simp only [parentRun, bind, Except.bind] at run
          cases run
      | ok middle =>
          simp only [parentRun, bind, Except.bind] at run
          obtain ⟨parentGrown, parentOwned⟩ := Bindings.bind_grown parentRun
          obtain ⟨childGrown, childOwned⟩ := Bindings.bind_grown run
          refine ⟨parentGrown.trans childGrown, ?_⟩
          intro name isName
          rw [named] at isName
          rw [← Option.some.inj isName]
          exact ⟨childGrown.2 _ ns parentOwned, childOwned⟩

theorem checkDeterministic_grown {composites : List (String × String)} {bindings after : Bindings}
    {entry : String × ColumnEntry} (run : checkDeterministic composites bindings entry = .ok after) :
    bindings.Grown after := by
  rw [checkDeterministic] at run
  split at run
  · cases run
    exact Bindings.Grown.refl bindings
  · split at run
    · cases run
      exact Bindings.Grown.refl bindings
    · dsimp only at run
      split at run
      · exact (Bindings.bind_grown run).1
      · split at run
        · cases run
          exact Bindings.Grown.refl bindings
        · cases run

theorem Bindings.empty_consistent : Bindings.empty.Consistent := by
  intro key ns
  simp [Bindings.empty]

/-- The final bindings are consistent, and every relationship that names a namespace has both
ends in it. -/
theorem buildNamespaceRegistry_ok {config : Config} {relationships : List Relationship}
    {registry : NamespaceRegistry}
    (built : buildNamespaceRegistry config relationships = .ok registry) :
    ∃ bindings : Bindings, bindings.Consistent ∧ registry = bindings.registry ∧
      ∀ rel ∈ relationships, OwnsEnds rel bindings := by
  obtain ⟨first, declared, built⟩ := bind_eq_ok built
  obtain ⟨second, related, built⟩ := bind_eq_ok built
  obtain ⟨composites, _, built⟩ := bind_eq_ok built
  obtain ⟨third, grouped, built⟩ := bind_eq_ok built
  obtain ⟨fourth, checked, built⟩ := bind_eq_ok built
  cases built
  have firstGrown := declareNamespaces_grown declared
  have secondGrown := Bindings.Grown.foldlM (fun step => (bindRelationship_grown step).1) related
  have thirdGrown := Bindings.Grown.foldlM Bindings.declare_grown grouped
  have fourthGrown := Bindings.Grown.foldlM checkDeterministic_grown checked
  have later := thirdGrown.trans fourthGrown
  have owned : ∀ rel ∈ relationships, OwnsEnds rel second :=
    foldlM_establishes (fun step => (bindRelationship_grown step).2)
      (fun step owns => owns.extends (bindRelationship_grown step).1.2) related
  refine ⟨fourth, ?_, rfl, ?_⟩
  · exact ((firstGrown.trans secondGrown).trans later).1 Bindings.empty_consistent
  · intro rel member
    exact (owned rel member).extends later.2

theorem mem_registry {bindings : Bindings} (consistent : bindings.Consistent) {key : ColumnKey}
    {ns : String} :
    (∃ binding ∈ bindings.registry.bindings, binding.namespaceName = ns ∧
      key ∈ binding.declaredBy) ↔ bindings.columnOwner.find key = some ns := by
  rw [← consistent key ns]
  simp only [Bindings.registry, List.mem_map, List.mem_insertionSort]
  constructor
  · intro bindingOf
    obtain ⟨binding, ⟨entry, member, isBinding⟩, isNs, bound⟩ := bindingOf
    have found : bindings.namespaceToColumns.find entry.1 = some entry.2 :=
      Dict.mem_entries.mp member
    rw [← isBinding] at isNs bound
    rw [← isNs, found]
    exact bound
  · intro bound
    cases found : bindings.namespaceToColumns.find ns with
    | none =>
        rw [found] at bound
        cases bound
    | some columns =>
        rw [found] at bound
        exact ⟨⟨ns, columns⟩, ⟨(ns, columns), Dict.mem_entries.mpr found, rfl⟩, rfl, bound⟩

theorem forColumn_registry {bindings : Bindings} (consistent : bindings.Consistent)
    (key : ColumnKey) :
    bindings.registry.forColumn key = bindings.columnOwner.find key := by
  have listed : ∀ name, (key, name) ∈ (bindings.registry.bindings.flatMap fun binding =>
      binding.declaredBy.map fun bound => (bound, binding.namespaceName)) ↔
      bindings.columnOwner.find key = some name := by
    intro name
    rw [← mem_registry consistent]
    simp only [List.mem_flatMap, List.mem_map, Prod.mk.injEq]
    constructor
    · intro ⟨binding, member, bound, inBinding, isKey, isName⟩
      exact ⟨binding, member, isName, isKey ▸ inBinding⟩
    · intro ⟨binding, member, isName, inBinding⟩
      exact ⟨binding, member, key, inBinding, rfl, isName⟩
  rw [NamespaceRegistry.forColumn, NamespaceRegistry.index, Dict.find_sets, Dict.find_empty,
    Option.or_none]
  cases found : (bindings.registry.bindings.flatMap fun binding =>
      binding.declaredBy.map fun bound => (bound, binding.namespaceName)).reverse.find?
        fun entry => entry.1 = key with
  | some entry =>
      have matching := List.find?_some found
      have isKey : entry.1 = key := of_decide_eq_true matching
      have member := List.mem_reverse.mp (List.mem_of_find?_eq_some found)
      rw [← isKey] at listed ⊢
      exact ((listed entry.2).mp member).symm
  | none =>
      cases owned : bindings.columnOwner.find key with
      | none => rfl
      | some name =>
          have member := List.mem_reverse.mpr ((listed name).mpr owned)
          have missed := List.find?_eq_none.mp found _ member
          simp at missed

/-- When the registry can be built, a column key is bound to one namespace at most, the one the
registry answers; a relationship that names a namespace has both of its ends in it, and one that
names none falls back to what its parent, else its child, is bound to. -/
theorem registry_binds_declared_relationships {config : Config}
    {relationships : List Relationship} {registry : NamespaceRegistry}
    (built : buildNamespaceRegistry config relationships = .ok registry) :
    (∀ key ns, registry.forColumn key = some ns ↔
      ∃ binding ∈ registry.bindings, binding.namespaceName = ns ∧ key ∈ binding.declaredBy) ∧
    ∀ rel ∈ relationships,
      match rel.namespaceName with
      | some ns =>
          registry.forColumn (rel.parentTable, rel.parentColumns) = some ns ∧
            registry.forColumn (rel.childTable, rel.childColumns) = some ns ∧
            registry.forRelationship rel = .ok ns
      | none =>
          registry.forRelationship rel =
            match (registry.forColumn (rel.parentTable, rel.parentColumns)).or
                (registry.forColumn (rel.childTable, rel.childColumns)) with
            | some ns => .ok ns
            | none => .error (.missingRelationship rel) := by
  obtain ⟨bindings, consistent, rfl, owned⟩ := buildNamespaceRegistry_ok built
  refine ⟨?_, ?_⟩
  · intro key ns
    rw [forColumn_registry consistent, mem_registry consistent]
  · intro rel member
    have owns := owned rel member
    cases named : rel.namespaceName with
    | some ns =>
        obtain ⟨parent, child⟩ := owns ns named
        dsimp only
        rw [forColumn_registry consistent, forColumn_registry consistent]
        refine ⟨parent, child, ?_⟩
        rw [NamespaceRegistry.forRelationship, named]
    | none =>
        dsimp only
        rw [NamespaceRegistry.forRelationship, named]
        cases bindings.registry.forColumn (rel.parentTable, rel.parentColumns) with
        | some ns => rfl
        | none =>
            cases bindings.registry.forColumn (rel.childTable, rel.childColumns) <;> rfl

theorem id_nonempty : ["id"] ≠ [] := nofun
theorem ids_aligned : ["id"].length = ["customer_id"].length := rfl

def ordersCustomer (namespaceName : Option String) : Relationship where
  parentTable := "customers"
  parentColumns := ["id"]
  childTable := "orders"
  childColumns := ["customer_id"]
  namespaceName := namespaceName
  nonempty := id_nonempty
  aligned := ids_aligned

def declaring (namespaces : List (String × Option (List (Option String)))) : Config where
  namespaces := Dict.empty.sets namespaces
  tables := []

def customerRegistry : NamespaceRegistry :=
  ⟨[⟨"customer", [("customers", ["id"]), ("orders", ["customer_id"])]⟩]⟩

theorem registry_binds_declared_relationships_orders :
    buildNamespaceRegistry (declaring [("customer", some [some "customers.id"])])
        [ordersCustomer (some "customer")] = .ok customerRegistry ∧
      customerRegistry.forColumn ("orders", ["customer_id"]) = some "customer" := by
  have built : buildNamespaceRegistry (declaring [("customer", some [some "customers.id"])])
      [ordersCustomer (some "customer")] = .ok customerRegistry := rfl
  have bound := (registry_binds_declared_relationships built).2 (ordersCustomer (some "customer"))
    (List.mem_singleton_self _)
  exact ⟨built, bound.2.1⟩

/-- A relationship that names no namespace leaves its ends in the namespaces they declare. -/
theorem unnamed_relationship_ends_differ :
    (buildNamespaceRegistry (declaring [("left", some [some "customers.id"]),
        ("right", some [some "orders.customer_id"])]) [ordersCustomer none]).map
      (fun registry => (registry.forColumn ("customers", ["id"]),
        registry.forColumn ("orders", ["customer_id"]))) = .ok (some "left", some "right") :=
  rfl

end DecoyEngine.Relationships
