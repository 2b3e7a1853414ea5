import DecoyEngine.Data.Checked
import DecoyEngine.Planning.Serialize

namespace DecoyEngine.Planning

open DecoyEngine.Data DecoyEngine.Relationships

/-! What a stored plan gives back. -/

theorem lookup_unlessNone (key other : String) (value : Option Json) :
    (unlessNone key value).lookup other = if other = key then value else none := by
  cases value with
  | none => simp [unlessNone]
  | some value =>
      by_cases same : other = key
      · simp [unlessNone, same]
      · have differ : (other == key) = false := by simpa using same
        simp [unlessNone, List.lookup_cons, List.lookup_nil, same, differ]

@[simp] theorem unlessNull_textOrNull (value : Option String) :
    unlessNull text (textOrNull value) = .ok value := by
  cases value <;> rfl

@[simp] theorem unlessNull_text (value : Option String) :
    unlessNull text ((value.map Json.text).getD .null) = .ok value := by
  cases value <;> rfl

@[simp] theorem unlessNull_integer (value : Option Int) :
    unlessNull integer ((value.map Json.int).getD .null) = .ok value := by
  cases value <;> rfl

@[simp] theorem unlessNull_number (value : Option Double) :
    unlessNull number ((value.map Json.float).getD .null) = .ok value := by
  cases value <;> rfl

@[simp] theorem word_word {α : Type} [Vocabulary α] (member : α) :
    word (.text (Vocabulary.word member)) = .ok member := by
  rw [word, Vocabulary.ofWord_word]

theorem each_written {α : Type} {read : Json → Load α} {write : α → Json} {values : List α} :
    each read (.array (values.map write)) = .ok values ↔
      ∀ value ∈ values, read (write value) = .ok value := by
  change (values.map write).mapM read = .ok values ↔ _
  rw [mapM_eq_ok, List.forall₂_map_left_iff, List.forall₂_same]

@[simp] theorem each_textArray (texts : List String) : each text (textArray texts) = .ok texts := by
  rw [textArray, each_written]
  intro value _
  rfl

theorem eachOrNone_array {α : Type} (read : Json → Load α) (items : List Json) :
    eachOrNone read (.array items) = each read (.array items) := by
  cases items <;> rfl

@[simp] theorem eachOrNone_textArray (texts : List String) :
    eachOrNone text (textArray texts) = .ok texts :=
  (eachOrNone_array text _).trans (each_textArray texts)

@[simp] theorem itemsOrNone_object (members : Members) :
    itemsOrNone (.object members) = .ok members := by
  cases members <;> rfl

theorem itemsOrNone_dictOf (entries : Members) :
    itemsOrNone ((if entries = [] then none else some (Json.object (dictOf entries))).getD .null) =
      .ok (dictOf entries) := by
  split
  · rename_i empty
    rw [empty]
    rfl
  · exact itemsOrNone_object _

/-- A dictionary built from a list reads back as the list exactly where no key is there twice and
each value reads back. -/
theorem mapM_dictOf_iff {α : Type} {name : α → String} {write : α → Json}
    {read : String × Json → Load α} {values : List α}
    (named : ∀ {entry value}, read entry = .ok value → name value = entry.1) :
    (dictOf (values.map fun value => (name value, write value))).mapM read = .ok values ↔
      (values.map name).Nodup ∧ ∀ value ∈ values, read (name value, write value) = .ok value := by
  have keys : (values.map fun value => (name value, write value)).map Prod.fst =
      values.map name := by
    rw [List.map_map]
    rfl
  have whole : ∀ {entries : Members} {values : List α},
      List.Forall₂ (fun entry value => read entry = .ok value) entries values →
        entries.map Prod.fst = values.map name := by
    intro entries values all
    induction all with
    | nil => rfl
    | cons head tail ih => rw [List.map_cons, List.map_cons, ih, named head]
  rw [mapM_eq_ok]
  constructor
  · intro all
    have distinct : (values.map name).Nodup := by
      rw [← whole all]
      exact Dict.distinct _
    rw [dictOf, Dict.entries_sets_empty_iff.mpr (keys.symm ▸ distinct), List.forall₂_map_left_iff,
      List.forall₂_same] at all
    exact ⟨distinct, all⟩
  · intro ⟨distinct, all⟩
    rw [dictOf, Dict.entries_sets_empty_iff.mpr (keys.symm ▸ distinct), List.forall₂_map_left_iff,
      List.forall₂_same]
    exact all

theorem named_eq_ok {α : Type} {read : Json → Load α} {entry : String × Json}
    {value : String × α} :
    named read entry = .ok value ↔ value.1 = entry.1 ∧ read entry.2 = .ok value.2 := by
  rw [named]
  cases read entry.2 with
  | error error => simp [Except.map]
  | ok result => simp [Except.map, Prod.ext_iff, eq_comm]

theorem mapM_named_iff {α : Type} {write : α → Json} {read : Json → Load α}
    (values : List (String × α)) :
    (dictOf (values.map fun entry => (entry.1, write entry.2))).mapM (named read) = .ok values ↔
      (values.map Prod.fst).Nodup ∧ ∀ entry ∈ values, read (write entry.2) = .ok entry.2 := by
  rw [mapM_dictOf_iff fun run => (named_eq_ok.mp run).1]
  simp only [named_eq_ok, true_and]

theorem ascending_insertionSort {entries : Members} (distinct : (entries.map Prod.fst).Nodup) :
    (entries.insertionSort keyLE).Pairwise fun left right => left.1 < right.1 := by
  have ordered := List.pairwise_insertionSort keyLE entries
  have permuted := (List.perm_insertionSort keyLE entries).map Prod.fst
  have apart := permuted.nodup_iff.mpr distinct
  rw [List.Nodup, List.pairwise_map] at apart
  exact ordered.imp₂ (fun _ _ below differ => lt_of_le_of_ne below differ) apart

theorem insertionSort_dictOf_iff (entries : Members) :
    (dictOf entries).insertionSort keyLE = entries ↔
      entries.Pairwise fun left right => left.1 < right.1 := by
  constructor
  · intro same
    rw [← same]
    exact ascending_insertionSort (Dict.distinct _)
  · intro ascending
    have distinct : (entries.map Prod.fst).Nodup := by
      rw [List.Nodup, List.pairwise_map]
      exact ascending.imp fun below => below.ne
    have ordered : entries.Pairwise keyLE := ascending.imp fun below => below.le
    rw [dictOf, Dict.entries_sets_empty_iff.mpr distinct]
    exact ordered.insertionSort_eq

theorem columnSeedFromDict_toDict (cs : ColumnSeed) :
    columnSeedFromDict (columnSeedToDict cs) =
      .ok { cs with
        providerConfig := (dictOf cs.providerConfig).insertionSort keyLE
        nerModelVersion := none } := by
  have coherent : eachOrNone text
      ((if cs.coherentWith = [] then none else some (textArray cs.coherentWith)).getD .null) =
        .ok cs.coherentWith := by
    split
    · rename_i empty
      rw [empty]
      rfl
    · exact eachOrNone_textArray _
  have vault : ((if cs.vault = true then some (Json.bool true) else none).getD .null).truthy =
      cs.vault := by
    cases cs.vault <;> rfl
  have flag : (Json.bool cs.deterministic).truthy = cs.deterministic := rfl
  simp [columnSeedToDict, columnSeedFromDict, mapping, item, get, lookup_unlessNone,
    List.lookup_append, List.lookup_cons, itemsOrNone_dictOf, coherent, vault,
    flag, text, bind, Except.bind, pure, Except.pure]

/-- What a stored column seed keeps: one without the version of a language model, whose settings
are in the order of their keys. -/
structure KeepsColumn (cs : ColumnSeed) : Prop where
  unstamped : cs.nerModelVersion = none
  ascending : cs.providerConfig.Pairwise fun left right => left.1 < right.1

structure KeepsTable (ts : TableSeed) : Prop where
  columns : (ts.perColumn.map Prod.fst).Nodup
  groups : (ts.perGroup.map Prod.fst).Nodup
  seeds : ∀ entry ∈ ts.perColumn, KeepsColumn entry.2

structure KeepsEnvelope (env : SeedEnvelope) : Prop where
  tables : (env.perTable.map Prod.fst).Nodup
  seeds : ∀ entry ∈ env.perTable, KeepsTable entry.2

theorem columnSeed_iff (cs : ColumnSeed) :
    columnSeedFromDict (columnSeedToDict cs) = .ok cs ↔ KeepsColumn cs := by
  rw [columnSeedFromDict_toDict, Except.ok.injEq]
  constructor
  · intro same
    refine ⟨?_, (insertionSort_dictOf_iff _).mp ?_⟩
    · rw [← same]
    · exact congrArg ColumnSeed.providerConfig same
  · intro keeps
    rw [(insertionSort_dictOf_iff _).mpr keeps.ascending, ← keeps.unstamped]

theorem groupSeedFromDict_toDict (gs : GroupSeed) :
    groupSeedFromDict (groupSeedToDict gs) = .ok gs := by
  simp [groupSeedToDict, groupSeedFromDict, mapping, item, get, List.lookup_cons,
    text, bind, Except.bind, pure, Except.pure]

theorem tableSeed_iff (ts : TableSeed) :
    tableSeedFromDict (tableSeedToDict ts) = .ok ts ↔ KeepsTable ts := by
  simp only [tableSeedToDict, tableSeedFromDict, mapping, get, ok_bind, List.lookup_append,
    lookup_unlessNone, String.reduceEq, if_true, if_false, Option.or_none, Option.none_or,
    itemsOrNone_dictOf, bind_eq_ok_iff, pure, Except.pure, Except.ok.injEq]
  constructor
  · rintro ⟨perColumn, columns, perGroup, groups, rfl⟩
    obtain ⟨distinct, seeds⟩ := (mapM_named_iff _).mp columns
    exact ⟨distinct, ((mapM_named_iff _).mp groups).1,
      fun entry member => (columnSeed_iff _).mp (seeds entry member)⟩
  · intro keeps
    have columns := (mapM_named_iff ts.perColumn).mpr ⟨keeps.columns,
      fun entry member => (columnSeed_iff _).mpr (keeps.seeds entry member)⟩
    have groups := (mapM_named_iff ts.perGroup).mpr ⟨keeps.groups,
      fun entry _ => groupSeedFromDict_toDict _⟩
    exact ⟨_, columns, _, groups, rfl⟩

theorem seedEnvelope_iff (env : SeedEnvelope) :
    seedEnvelopeFromDict (seedEnvelopeToDict env) = .ok env ↔ KeepsEnvelope env := by
  have seed : fromHex (String.ofList (hexText env.jobSeed)).toList = some env.jobSeed := by
    rw [String.toList_ofList, fromHex_hexText]
  have read : seedEnvelopeFromDict (seedEnvelopeToDict env) =
      (dictOf (env.perTable.map fun entry => (entry.1, tableSeedToDict entry.2))).mapM
        (named tableSeedFromDict) >>= fun perTable => .ok ⟨env.jobSeed, perTable⟩ := by
    simp only [seedEnvelopeToDict, seedEnvelopeFromDict, mapping, get, item, ok_bind,
      List.lookup_cons, String.reduceBEq, Option.getD_some, itemsOrNone_object, text, seed]
    rfl
  simp only [read, bind_eq_ok_iff, Except.ok.injEq]
  constructor
  · intro ⟨perTable, tables, same⟩
    have rest : perTable = env.perTable := congrArg SeedEnvelope.perTable same
    rw [rest, mapM_named_iff] at tables
    exact ⟨tables.1, fun entry member => (tableSeed_iff _).mp (tables.2 entry member)⟩
  · intro keeps
    exact ⟨_, (mapM_named_iff env.perTable).mpr ⟨keeps.tables,
      fun entry member => (tableSeed_iff _).mpr (keeps.seeds entry member)⟩, rfl⟩

theorem endFromDict_toDict (relEnd : PlanRelationshipEnd) :
    endFromDict (endToDict relEnd) = .ok relEnd := by
  simp [endToDict, endFromDict, mapping, item, List.lookup_cons, text, bind,
    Except.bind, pure, Except.pure]

theorem PlanRelationship.make_eq (rel : PlanRelationship) :
    PlanRelationship.make rel.parent rel.children rel.orphanPolicy rel.namespaceName = .ok rel := by
  have other : rel.children.find? (fun child =>
      decide (child.columns.length ≠ rel.parent.columns.length)) = none := by
    rw [List.find?_eq_none]
    intro child member
    simpa using rel.aligned child member
  rw [PlanRelationship.make, dif_neg rel.nonempty, dif_neg rel.columns]
  split
  · rename_i child found
    rw [other] at found
    cases found
  · rfl

theorem relationshipFromDict_toDict (rel : PlanRelationship) :
    relationshipFromDict (relationshipToDict rel) = .ok rel := by
  have children : each endFromDict (.array (rel.children.map endToDict)) = .ok rel.children :=
    each_written.mpr fun child _ => endFromDict_toDict child
  simp [relationshipToDict, relationshipFromDict, mapping, item, get, lookup_unlessNone,
    List.lookup_cons, endFromDict_toDict, children, ok_bind,
    PlanRelationship.make_eq]

theorem orderingFromDict_toDict (node : OrderingNode) :
    orderingFromDict (orderingToDict node) = .ok node := by
  simp [orderingToDict, orderingFromDict, mapping, item, List.lookup_cons, text,
    bind, Except.bind, pure, Except.pure]

theorem planCompileFromDict_toDict (pc : PlanCompileResult) :
    planCompileFromDict (planCompileToDict pc) = .ok pc := by
  simp [planCompileToDict, planCompileFromDict, mapping, get, List.lookup_cons,
    bind, Except.bind, pure, Except.pure]

/-- A declaration that can be told from its text: no dot in its table, and no separator but those
between its columns. -/
def ReadableDeclaration (entry : String × List String) : Prop :=
  '.' ∉ entry.1.toList ∧ Separated columnSeparator (entry.2.map String.toList)

theorem declarationOf_text_iff (entry : String × List String) :
    declarationOf (declarationText entry) = some entry ↔ ReadableDeclaration entry := by
  have dot : ['.'] ≠ [] := List.cons_ne_nil _ _
  have separator : columnSeparator ≠ [] := List.cons_ne_nil _ _
  have names : ∀ {parts : List (List Char)} {columns : List String},
      parts.map String.ofList = columns ↔ parts = columns.map String.toList := by
    intro parts columns
    constructor
    · intro same
      simp [← same, Function.comp_def]
    · intro same
      simp [same, Function.comp_def]
  rw [ReadableDeclaration, ← splitText_intercalate_iff separator, declarationOf, declarationText,
    String.toList_ofList, Option.map_eq_some_iff]
  generalize joined : columnSeparator.intercalate (entry.2.map String.toList) = after
  constructor
  · intro ⟨parts, found, same⟩
    obtain ⟨text, absent⟩ := (partitionText_eq_some dot).mp found
    obtain ⟨table, columns⟩ := Prod.ext_iff.mp same
    have before : parts.1 = entry.1.toList := by rw [← table, String.toList_ofList]
    rw [before, List.singleton_infix_iff] at absent
    rw [before, List.append_assoc, List.append_cancel_left_eq] at text
    obtain ⟨-, rest⟩ := List.cons.inj text
    rw [rest]
    exact ⟨by simpa using absent, names.mp columns⟩
  · intro ⟨absent, columns⟩
    refine ⟨(entry.1.toList, after), (partitionText_eq_some dot).mpr ⟨by simp, ?_⟩, ?_⟩
    · rw [List.singleton_infix_iff]
      simpa using absent
    · rw [columns, String.ofList_toList, names.mpr rfl]

structure KeepsNamespaces (namespaces : List NamespaceBinding) : Prop where
  names : (namespaces.map NamespaceBinding.namespaceName).Nodup
  declarations : ∀ ns ∈ namespaces, ∀ entry ∈ ns.declaredBy, ReadableDeclaration entry

theorem filterMap_eq_self_iff {α : Type} {f : α → Option α} {values : List α} :
    values.filterMap f = values ↔ ∀ value ∈ values, f value = some value := by
  induction values with
  | nil => simp
  | cons value values ih =>
      rw [List.forall_mem_cons, ← ih]
      cases head : f value with
      | none =>
          rw [List.filterMap_cons_none head]
          refine iff_of_false (fun same => ?_) (fun both => by cases both.1)
          have shorter := List.length_filterMap_le f values
          rw [same, List.length_cons] at shorter
          omega
      | some result => rw [List.filterMap_cons_some head, List.cons.injEq, Option.some.injEq]

theorem namespace_iff (ns : NamespaceBinding) :
    namespaceFromDict ns.namespaceName (namespaceToDict ns) = .ok ns ↔
      ∀ entry ∈ ns.declaredBy, ReadableDeclaration entry := by
  have read : declarations (textArray (ns.declaredBy.map declarationText)) =
      .ok (ns.declaredBy.filterMap fun entry => declarationOf (declarationText entry)) := by
    cases ns.declaredBy with
    | nil => rfl
    | cons entry entries =>
        simp only [declarations, textArray, Json.elements, Json.truthy, List.map_map,
          List.filterMap_map]
        rfl
  simp only [← declarationOf_text_iff, ← filterMap_eq_self_iff]
  simp only [namespaceFromDict, namespaceToDict, mapping, get, ok_bind, List.lookup_cons,
    beq_self_eq_true, Option.getD_some, read, pure, Except.pure, Except.ok.injEq]
  constructor
  · exact congrArg NamespaceBinding.declaredBy
  · intro same
    rw [same]

theorem namespaces_iff (namespaces : List NamespaceBinding) :
    (dictOf (namespaces.map fun ns => (ns.namespaceName, namespaceToDict ns))).mapM
        (fun entry => namespaceFromDict entry.1 entry.2) = .ok namespaces ↔
      KeepsNamespaces namespaces := by
  have named : ∀ {entry : String × Json} {ns : NamespaceBinding},
      namespaceFromDict entry.1 entry.2 = .ok ns → ns.namespaceName = entry.1 := by
    intro entry ns run
    simp only [namespaceFromDict, bind_eq_ok_iff, pure, Except.pure, Except.ok.injEq] at run
    obtain ⟨_, _, _, _, rfl⟩ := run
    rfl
  rw [mapM_dictOf_iff named]
  constructor
  · intro ⟨names, read⟩
    exact ⟨names, fun ns member => (namespace_iff ns).mp (read ns member)⟩
  · intro keeps
    exact ⟨keeps.names, fun ns member => (namespace_iff ns).mpr (keeps.declarations ns member)⟩

section Checked

variable (inGrammar : String → Bool) (contractPayload : Json → Except ContractError Json)

theorem validateEnvelopeWhen_iff (env : SeedEnvelope) :
    validateEnvelopeWhen inGrammar env = .ok () ↔
      ∀ table ∈ env.perTable, ∀ column ∈ table.2.perColumn, ∀ gate ∈ column.2.when,
        inGrammar gate = true := by
  rw [validateEnvelopeWhen, forM_eq_ok]
  refine forall₂_congr fun table _ => ?_
  rw [forM_eq_ok]
  refine forall₂_congr fun column _ => ?_
  cases column.2.when with
  | none => simp
  | some gate => cases checked : inGrammar gate <;> simp [checked]

/-- The catalog gives each contract of a block back as it stands there. -/
structure KeepsDeclared (block : DeclaredCastingPlan) : Prop where
  version : block.catalogVersion = catalogVersion
  contracts : ∀ column ∈ block.columns, contractPayload column.contract = .ok column.contract

theorem declaredColumn_iff (column : PlanDeclaredColumn) :
    declaredColumnFromDict contractPayload (declaredColumnToDict column) = .ok column ↔
      contractPayload column.contract = .ok column.contract := by
  cases rebuilt : contractPayload column.contract with
  | error error =>
      have read : declaredColumnFromDict contractPayload (declaredColumnToDict column) =
          .error (.contract column.table column.column error) := by
        simp [declaredColumnFromDict, declaredColumnToDict, mapping, item, get, shown, ok_bind,
          List.lookup_cons, rebuilt]
      rw [read]
      exact iff_of_false (fun same => by cases same) fun same => by cases same
  | ok contract =>
      have read : declaredColumnFromDict contractPayload (declaredColumnToDict column) =
          .ok ⟨column.table, column.column, column.strategy, contract⟩ := by
        simp [declaredColumnFromDict, declaredColumnToDict, mapping, item, get, shown, text,
          ok_bind, List.lookup_cons, rebuilt, pure, Except.pure]
      rw [read, Except.ok.injEq, Except.ok.injEq]
      constructor
      · exact congrArg PlanDeclaredColumn.contract
      · intro same
        rw [same]

theorem declaredCasting_iff (block : DeclaredCastingPlan) :
    declaredCastingFromDict contractPayload (declaredCastingToDict block) = .ok block ↔
      KeepsDeclared contractPayload block := by
  have quarantine : (noneOfNull block.quarantine).getD .null = block.quarantine := by
    cases block.quarantine <;> rfl
  have read : declaredCastingFromDict contractPayload (declaredCastingToDict block) =
      if block.catalogVersion ≠ catalogVersion then .error .catalogVersion
      else each (declaredColumnFromDict contractPayload)
        (.array (block.columns.map declaredColumnToDict)) >>= fun columns =>
          .ok ⟨block.catalogVersion, columns, block.quarantine⟩ := by
    simp only [declaredCastingToDict, declaredCastingFromDict, mapping, get, ok_bind,
      List.lookup_append, lookup_unlessNone, List.lookup_cons, List.lookup_nil, String.reduceBEq,
      String.reduceEq, if_true, if_false, Option.some_or, Option.none_or, Option.getD_some,
      quarantine, eachOrNone_array]
    rfl
  rw [read]
  split
  · rename_i other
    exact iff_of_false (fun same => by cases same) fun keeps => other keeps.version
  · rename_i version
    simp only [bind_eq_ok_iff, Except.ok.injEq]
    constructor
    · intro ⟨columns, run, same⟩
      have rest : columns = block.columns := congrArg DeclaredCastingPlan.columns same
      rw [rest, each_written] at run
      exact ⟨not_not.mp version, fun column member =>
        (declaredColumn_iff _ column).mp (run column member)⟩
    · intro keeps
      exact ⟨block.columns, each_written.mpr fun column member =>
        (declaredColumn_iff _ column).mpr (keeps.contracts column member), rfl⟩

theorem declaredCasting_option_iff (declared : Option DeclaredCastingPlan) :
    unlessNull (declaredCastingFromDict contractPayload)
        ((declared.map declaredCastingToDict).getD .null) = .ok declared ↔
      ∀ block ∈ declared, KeepsDeclared contractPayload block := by
  cases declared with
  | none => simp [unlessNull]
  | some block =>
      have written : unlessNull (declaredCastingFromDict contractPayload)
          (declaredCastingToDict block) =
            (declaredCastingFromDict contractPayload (declaredCastingToDict block)).map some := rfl
      rw [Option.map_some, Option.getD_some, written]
      simp only [Option.mem_some_iff, forall_eq', ← declaredCasting_iff]
      cases declaredCastingFromDict contractPayload (declaredCastingToDict block) <;>
        simp [Except.map]

/-- What a plan has to be for its stored form to give it back. -/
structure Lossless (plan : Plan) : Prop where
  envelope : KeepsEnvelope plan.seedEnvelope
  gates : ∀ table ∈ plan.seedEnvelope.perTable, ∀ column ∈ table.2.perColumn,
    ∀ gate ∈ column.2.when, inGrammar gate = true
  namespaces : KeepsNamespaces plan.namespaces
  declared : ∀ block ∈ plan.declaredCasting, KeepsDeclared contractPayload block

theorem planFromDict_toDict_iff (plan : Plan) :
    planFromDict inGrammar contractPayload (planToDict plan) = .ok plan ↔
      Lossless inGrammar contractPayload plan := by
  have relationships : each relationshipFromDict
      (.array (plan.relationships.map relationshipToDict)) = .ok plan.relationships :=
    each_written.mpr fun rel _ => relationshipFromDict_toDict rel
  have ordering : each orderingFromDict (.array (plan.ordering.map orderingToDict)) =
      .ok plan.ordering := each_written.mpr fun node _ => orderingFromDict_toDict node
  have read : planFromDict inGrammar contractPayload (planToDict plan) =
      seedEnvelopeFromDict (seedEnvelopeToDict plan.seedEnvelope) >>= fun seedEnvelope =>
      validateEnvelopeWhen inGrammar seedEnvelope >>= fun _ =>
      (dictOf (plan.namespaces.map fun ns => (ns.namespaceName, namespaceToDict ns))).mapM
        (fun entry => namespaceFromDict entry.1 entry.2) >>= fun namespaces =>
      unlessNull (declaredCastingFromDict contractPayload)
        ((plan.declaredCasting.map declaredCastingToDict).getD .null) >>= fun declaredCasting =>
      .ok { plan with seedEnvelope, namespaces, declaredCasting } := by
    simp only [planToDict, planFromDict, item, get, ok_bind, List.lookup_append, lookup_unlessNone,
      List.lookup_cons, List.lookup_nil, String.reduceBEq, String.reduceEq, if_true, if_false,
      Option.some_or, Option.none_or, Option.getD_some, Option.getD_none, integer, text,
      relationships, ordering, itemsOrNone_object, planCompileFromDict_toDict]
    rfl
  simp only [read, bind_eq_ok_iff, Except.ok.injEq]
  constructor
  · intro ⟨seedEnvelope, envelope, _, gates, namespaces, bindings, declared, casting, same⟩
    have isEnvelope : seedEnvelope = plan.seedEnvelope := congrArg Plan.seedEnvelope same
    have areNamespaces : namespaces = plan.namespaces := congrArg Plan.namespaces same
    have isDeclared : declared = plan.declaredCasting := congrArg Plan.declaredCasting same
    rw [isEnvelope] at envelope gates
    rw [areNamespaces] at bindings
    rw [isDeclared] at casting
    exact ⟨(seedEnvelope_iff _).mp envelope, (validateEnvelopeWhen_iff _ _).mp gates,
      (namespaces_iff _).mp bindings, (declaredCasting_option_iff _ _).mp casting⟩
  · intro lossless
    exact ⟨_, (seedEnvelope_iff _).mpr lossless.envelope,
      _, (validateEnvelopeWhen_iff _ _).mpr lossless.gates,
      _, (namespaces_iff _).mpr lossless.namespaces,
      _, (declaredCasting_option_iff _ _).mpr lossless.declared, rfl⟩

theorem planFromYaml_toYaml {τ : Type} (yaml : Yaml τ) (plan : Plan) :
    planFromYaml inGrammar contractPayload yaml (planToYaml yaml plan) =
      planFromDict inGrammar contractPayload (planToDict plan) := by
  rw [planToYaml, planFromYaml, yaml.loads]

end Checked

end DecoyEngine.Planning
