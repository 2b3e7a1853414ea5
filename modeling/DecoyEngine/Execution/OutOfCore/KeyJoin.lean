import DecoyEngine.Execution.OutOfCore.FkChunksLaw
import DecoyEngine.Execution.OutOfCore.KeyRelation

namespace DecoyEngine.Execution.OutOfCore

open DecoyEngine.Data DecoyEngine.Relationships

theorem hasNullComponent_eq (key : List ArrowCell) : hasNullComponent key = key.any pdIsna := by
  rw [hasNullComponent]
  congr 1
  funext cell
  rw [pdIsna_eq, Bool.eq_iff_iff, decide_eq_true_eq, fkKeyValue_null_iff]

abbrev ParentMap := Dict (List PyIdentity) (List FkComponent)

/-- A relation and a parent map that answer every key alike, with one row at most. -/
structure Answers (relation : List RelationRow) (parents : ParentMap)
    (lookup : Token → Option RelationRow) : Prop where
  unique : ∀ token, (relation.filter fun row => row.joinKey = token) = (lookup token).toList
  agree : ∀ key : List ArrowCell, key.any pdIsna = false →
    parents.find (tupleIdentity (normalizedKey key)) =
      (lookup (joinToken key)).map RelationRow.masked

/-- The joined row of a child row. -/
def joinedRow (lookup : Token → Option RelationRow) (row : List ArrowCell × Nat) : JoinedRow :=
  (childRow row, (childRow row).joinKey.bind lookup)

/-- What the row loop of the in-memory resolver decides about a child row. -/
def childFate (parents : ParentMap) (row : List ArrowCell) : RowFate (List FkComponent) :=
  rowFate tupleIdentity parents Dict.empty (childKey row)

/-- The cell the in-memory resolver leaves, with orphans replaced as the policy says. -/
def resolvedCell (replace : List FkComponent → List FkComponent) :
    RowFate (List FkComponent) → Option (List FkComponent)
  | .orphan key => some (replace key)
  | other => other.cell

def orphanReplacement (policy : OrphanPolicy) (remap : List FkComponent → List FkComponent) :
    List FkComponent → List FkComponent :=
  if policy = .remap then remap else id

section Row

variable {relation : List RelationRow} {parents : ParentMap} {lookup : Token → Option RelationRow}
  (answers : Answers relation parents lookup)

include answers in
theorem childFate_eq (row : List ArrowCell × Nat) :
    childFate parents row.1 =
      match (joinedRow lookup row).1.joinKey, (joinedRow lookup row).2 with
      | none, _ => .null
      | some _, some parent => .mapped parent.masked
      | some _, none => .orphan (normalizedKey row.1) := by
  cases isNull : row.1.any pdIsna with
  | true =>
      simp only [childFate, childKey, isNull, if_true, rowFate, joinedRow, childRow,
        hasNullComponent_eq]
  | false =>
      have found := answers.agree row.1 isNull
      simp only [childFate, childKey, isNull, Bool.false_eq_true, if_false, rowFate, joinedRow,
        childRow, hasNullComponent_eq, found, Dict.find_empty, Option.bind_some]
      cases lookup (joinToken row.1) <;> rfl

include answers in
theorem outputKey_eq (policy : OrphanPolicy) (remap : List FkComponent → List FkComponent)
    {children : List (List ArrowCell)} {row : List ArrowCell × Nat}
    (member : row ∈ children.zipIdx) :
    outputKey policy (children.map fun row => remap (normalizedKey row)) (joinedRow lookup row) =
      resolvedCell (orphanReplacement policy remap) (childFate parents row.1) := by
  have minted : (children.map fun row => remap (normalizedKey row)).getD
      (joinedRow lookup row).1.rowNr [] = remap (normalizedKey row.1) := by
    have located : children[row.2]? = some row.1 := List.mem_zipIdx_iff_getElem?.mp member
    have number : (joinedRow lookup row).1.rowNr = row.2 := rfl
    rw [number, List.getD_eq_getElem?_getD, List.getElem?_map, located]
    rfl
  rw [childFate_eq answers, outputKey, minted, orphanReplacement]
  cases (joinedRow lookup row).1.joinKey with
  | none => rfl
  | some token =>
      cases (joinedRow lookup row).2 with
      | some parent => rfl
      | none =>
          have source : (joinedRow lookup row).1.source = row.1 := rfl
          by_cases isRemap : policy = .remap
          · simp only [isRemap, if_true, resolvedCell]
          · simp only [isRemap, if_false, resolvedCell, source, id]

include answers in
theorem isOrphanRow_eq (row : List ArrowCell × Nat) :
    isOrphanRow (joinedRow lookup row) = (childFate parents row.1).isOrphan := by
  rw [childFate_eq answers, isOrphanRow]
  cases (joinedRow lookup row).1.joinKey with
  | none => rfl
  | some token => cases (joinedRow lookup row).2 <;> rfl

end Row

def orphanCountOf (parents : ParentMap) (children : List (List ArrowCell)) : Nat :=
  children.countP fun row => (childFate parents row).isOrphan

/-- The resolved column of `resolve_fk_keys`, one cell a row. -/
def resolvedColumn (edge : RelationshipEdge) (remap : List FkComponent → List FkComponent)
    (parents : ParentMap) (children : List (List ArrowCell)) :
    List (Option (List FkComponent)) :=
  children.map fun row =>
    resolvedCell (orphanReplacement edge.orphanPolicy remap) (childFate parents row)

def orphanWarnings (edge : RelationshipEdge) (orphanCount : Nat) : List QualityWarning :=
  if 0 < orphanCount ∧ edge.orphanPolicy = .warn then [orphanWarning edge orphanCount] else []

section InMemory

variable (parents : ParentMap) (children : List (List ArrowCell)) (edge : RelationshipEdge)
  (remap : List FkComponent → List FkComponent)

theorem length_orphanKeys (fates : List (RowFate (List FkComponent))) :
    (fates.filterMap RowFate.orphanKey).length = fates.countP RowFate.isOrphan := by
  induction fates with
  | nil => rfl
  | cons fate fates ih =>
      rw [List.filterMap_cons, List.countP_cons, ← ih]
      cases fate <;> rfl

/-- `orphan_count` of `resolve_fk_keys`: the length of its `orphan_positions`. -/
def inMemoryOrphanCount : Nat :=
  (scanRows tupleIdentity parents Dict.empty
    (children.map childKey)).orphanPositions.length

theorem inMemoryOrphanCount_eq :
    inMemoryOrphanCount parents children = orphanCountOf parents children := by
  have described := scanRows_describes tupleIdentity parents Dict.empty
    (children.map childKey)
  rw [inMemoryOrphanCount, described.orphanPositions, orphanPositions_length, length_orphanKeys,
    List.map_map, List.countP_map]
  rfl

theorem resolveFkKeys_spec :
    ∃ cascade, resolveFkKeys tupleIdentity (children.map childKey) parents edge (List.map remap)
        Dict.empty =
      if edge.orphanPolicy = .fail ∧ 0 < orphanCountOf parents children then
        .error (.orphanFkViolation edge (orphanCountOf parents children))
      else .ok ⟨resolvedColumn edge remap parents children,
        orphanWarnings edge (orphanCountOf parents children), cascade⟩ := by
  have described := scanRows_describes tupleIdentity parents Dict.empty
    (children.map childKey)
  rw [List.map_map] at described
  unfold resolveFkKeys
  generalize scanRows tupleIdentity parents Dict.empty (children.map childKey) =
    scan at described ⊢
  refine ⟨scan.cascade, ?_⟩
  generalize isFates : children.map (rowFate tupleIdentity parents Dict.empty ∘ childKey) =
    fates at described
  have counted : (fates.filterMap RowFate.orphanKey).length = orphanCountOf parents children := by
    rw [length_orphanKeys, ← isFates, List.countP_map]
    rfl
  have positions : scan.orphanPositions.length = orphanCountOf parents children := by
    rw [described.orphanPositions, orphanPositions_length, counted]
  have column : ∀ replace, fates.map (resolvedCell replace) =
      children.map fun row => resolvedCell replace (childFate parents row) := by
    intro replace
    rw [← isFates, List.map_map]
    rfl
  have filled : ∀ replace, writeAt scan.masked scan.orphanPositions
      ((scan.orphanKeys.map replace).map some) = fates.map (resolvedCell replace) := by
    intro replace
    rw [described.masked, described.orphanPositions, described.orphanKeys,
      writeAt_orphans fates _ (by simp), fillOrphans_map]
    congr 1
    funext fate
    cases fate <;> rfl
  dsimp only
  by_cases covered : scan.orphanPositions = []
  · have none' : orphanCountOf parents children = 0 := by rw [← positions, covered]; rfl
    have keys : scan.orphanKeys = [] := by
      apply List.eq_nil_of_length_eq_zero
      rw [described.orphanKeys, counted, none']
    have untouched := filled (orphanReplacement edge.orphanPolicy remap)
    rw [covered, keys] at untouched
    rw [if_pos covered, none', if_neg (by omega), resolvedColumn, ← column, ← untouched,
      orphanWarnings, if_neg (by omega)]
    rfl
  · have some' : 0 < orphanCountOf parents children := by
      rw [← positions]
      exact List.length_pos_iff.mpr covered
    rw [if_neg covered, resolvedColumn, ← column, ← filled, positions, orphanWarnings]
    cases policy : edge.orphanPolicy with
    | fail => simp [some']
    | remap =>
        have lengths : (scan.orphanKeys.map remap).length = orphanCountOf parents children := by
          rw [List.length_map, described.orphanKeys, counted]
        simp [lengths, orphanReplacement]
    | preserve => simp [orphanReplacement]
    | warn => simp [orphanReplacement, some']

end InMemory

section Join

variable (order : Sql.RowOrder) {relation : List RelationRow} {parents : ParentMap}
  {lookup : Token → Option RelationRow} (answers : Answers relation parents lookup)
  (children : List (List (List ArrowCell)))

theorem childKeyBatches_flatten :
    (childKeyBatches children).flatten = children.flatten.zipIdx.map childRow := by
  rw [childKeyBatches, ← zipIdx_withStarts, List.map_flatMap, List.flatMap_def]

/-- The joined rows, in whatever order the engine returns them. -/
def joinedRows (relation : List RelationRow) : List JoinedRow :=
  order.arrange (Sql.leftJoin ChildRow.joinKey RelationRow.joinKey
    (order.arrange (childKeyBatches children).flatten) relation)

include answers in
theorem joinedRows_perm : (joinedRows order children relation).Perm
    (children.flatten.zipIdx.map (joinedRow lookup)) := by
  rw [joinedRows, Sql.leftJoin_eq_map answers.unique, childKeyBatches_flatten]
  apply (order.perm _).trans
  apply ((order.perm _).map _).trans
  rw [List.map_map]
  rfl

include answers in
theorem orderBy_joinedRows :
    Sql.orderBy (fun row : JoinedRow => row.1.rowNr) (joinedRows order children relation) =
      children.flatten.zipIdx.map (joinedRow lookup) := by
  apply Sql.orderBy_eq_of_perm (joinedRows_perm order answers children)
  rw [List.pairwise_map]
  have indices : (children.flatten.zipIdx.map Prod.snd).Pairwise (· < ·) := by
    rw [List.zipIdx_map_snd]
    exact List.pairwise_lt_range'
  exact List.pairwise_map.mp indices

include answers in
theorem countP_isOrphanRow (rows : List (List ArrowCell)) :
    (rows.zipIdx.map (joinedRow lookup)).countP isOrphanRow = orphanCountOf parents rows := by
  have orphans : isOrphanRow ∘ joinedRow lookup =
      (fun row => (childFate parents row).isOrphan) ∘ Prod.fst := by
    funext row
    exact isOrphanRow_eq answers row
  rw [List.countP_map, orphans, ← List.countP_map, List.zipIdx_map_fst]
  rfl

include answers in
theorem map_outputKey (edge : RelationshipEdge) (remap : List FkComponent → List FkComponent)
    (rows : List (List ArrowCell)) :
    (rows.zipIdx.map (joinedRow lookup)).map
        (outputKey edge.orphanPolicy (rows.map fun row => remap (normalizedKey row))) =
      resolvedColumn edge remap parents rows := by
  rw [List.map_map]
  have each : ∀ row ∈ rows.zipIdx,
      (outputKey edge.orphanPolicy (rows.map fun row => remap (normalizedKey row)) ∘
        joinedRow lookup) row =
      ((fun row => resolvedCell (orphanReplacement edge.orphanPolicy remap)
        (childFate parents row)) ∘ Prod.fst) row := by
    intro row member
    exact outputKey_eq answers edge.orphanPolicy remap member
  rw [List.map_congr_left each, ← List.map_map, List.zipIdx_map_fst]
  rfl

end Join

section Routes

variable {T : Type} [DecidableEq T] (arrow : FkArrow T) (order : Sql.RowOrder)
  (edge : RelationshipEdge)

omit [DecidableEq T] in
theorem mapM_appendOutputBatch (remapValues : List (List FkComponent))
    (batches : List (List JoinedRow)) :
    batches.mapM (appendOutputBatch arrow edge remapValues) =
      ((batches.map (List.map (outputKey edge.orphanPolicy remapValues))).mapM
          (batchArrays arrow edge.childColumns.length)).map
        fun outputs => outputs.zip (batches.map (List.countP isOrphanRow)) := by
  induction batches with
  | nil => rfl
  | cons batch batches ih =>
      rw [List.mapM_cons, ih, List.map_cons, List.map_cons, List.mapM_cons, appendOutputBatch]
      cases batchArrays arrow edge.childColumns.length
          (batch.map (outputKey edge.orphanPolicy remapValues)) with
      | error refusal => rfl
      | ok arrays =>
          cases (batches.map (List.map (outputKey edge.orphanPolicy remapValues))).mapM
              (batchArrays arrow edge.childColumns.length) <;> rfl

variable {relation : List RelationRow} {parents : ParentMap} {lookup : Token → Option RelationRow}
  (answers : Answers relation parents lookup) (children : List (List (List ArrowCell)))
  (remap : List FkComponent → List FkComponent) (sizes : List Nat)

include answers in
/-- Orphans under `fail` come first; what is left is the resolved column, batch by batch, as Arrow
publishes it. -/
theorem maskChildFk_spec :
    maskChildFk arrow order edge relation children
        (children.flatten.map fun row => remap (normalizedKey row)) sizes =
      if edge.orphanPolicy = .fail ∧ 0 < orphanCountOf parents children.flatten then
        .error (.execution (.orphanFkViolation edge (orphanCountOf parents children.flatten)))
      else
        match publishColumns arrow edge.childColumns.length
            (cutBy sizes (resolvedColumn edge remap parents children.flatten)) with
        | .error refusal => .error (.chunks refusal)
        | .ok columns =>
            .ok ⟨columns, orphanCountOf parents children.flatten,
              orphanWarnings edge (orphanCountOf parents children.flatten)⟩ := by
  have joined : order.arrange (Sql.leftJoin ChildRow.joinKey RelationRow.joinKey
      (order.arrange (childKeyBatches children).flatten) relation) =
      joinedRows order children relation := rfl
  have orphans : (joinedRows order children relation).countP isOrphanRow =
      orphanCountOf parents children.flatten := by
    rw [(joinedRows_perm order answers children).countP_eq, countP_isOrphanRow answers]
  rw [maskChildFk, joined]
  simp only [orphans]
  split
  · rfl
  · rw [orderBy_joinedRows order answers children, mapM_appendOutputBatch, ← cutBy_map,
      map_outputKey answers, publishColumns]
    have counted : ((cutBy sizes (children.flatten.zipIdx.map (joinedRow lookup))).map
        (List.countP isOrphanRow)).sum = orphanCountOf parents children.flatten := by
      rw [← List.countP_flatten, cutBy_flatten, countP_isOrphanRow answers]
    have pieces : (cutBy sizes (resolvedColumn edge remap parents children.flatten)).length =
        (cutBy sizes (children.flatten.zipIdx.map (joinedRow lookup))).length := by
      rw [← map_outputKey answers edge remap, cutBy_map, List.length_map]
    cases built : (cutBy sizes (resolvedColumn edge remap parents children.flatten)).mapM
        (batchArrays arrow edge.childColumns.length) with
    | error refusal => rfl
    | ok outputs =>
        have lengths : outputs.length = ((cutBy sizes
            (children.flatten.zipIdx.map (joinedRow lookup))).map
              (List.countP isOrphanRow)).length := by
          rw [List.length_map, ← pieces, (mapM_eq_ok.mp built).length_eq]
        simp only [Except.map, Except.mapError, ok_bind, List.map_fst_zip lengths.le,
          List.map_snd_zip lengths.ge, counted]
        cases concatColumns arrow edge.childColumns.length outputs <;> rfl

include answers in
/-- The join against a relation does what `resolve_fk_keys` does with the parent map, up to what
Arrow refuses of the resolved column. -/
theorem maskChildFk_refines :
    match resolveFkKeys tupleIdentity (children.flatten.map childKey) parents edge (List.map remap)
        Dict.empty with
    | .error error =>
        maskChildFk arrow order edge relation children
          (children.flatten.map fun row => remap (normalizedKey row)) sizes =
            .error (.execution error)
    | .ok resolved =>
        maskChildFk arrow order edge relation children
          (children.flatten.map fun row => remap (normalizedKey row)) sizes =
          match publishColumns arrow edge.childColumns.length (cutBy sizes resolved.masked) with
          | .error refusal => .error (.chunks refusal)
          | .ok columns =>
              .ok ⟨columns, inMemoryOrphanCount parents children.flatten, resolved.warnings⟩ := by
  obtain ⟨cascade, inMemory⟩ := resolveFkKeys_spec parents children.flatten edge remap
  rw [inMemory, maskChildFk_spec arrow order edge answers children remap sizes,
    inMemoryOrphanCount_eq]
  by_cases violation : edge.orphanPolicy = .fail ∧ 0 < orphanCountOf parents children.flatten
  · rw [if_pos violation, if_pos violation]
  · rw [if_neg violation, if_neg violation]

/-- What Arrow publishes of a resolved column, `masked`, that came in batches of these sizes: the
values it was resolved to, in every component that pyarrow keeps. -/
def Publishes (count : Nat) (masked : List (Option (List FkComponent)))
    (columns : List (FkArray T)) : Prop :=
  columns.length = count ∧ ∀ idx < count,
    Timeless (componentColumn masked idx) ∨ OneCalendar (componentColumn masked idx) →
    ∃ array, columns[idx]? = some array ∧ SameCells (componentColumn masked idx) array.values

theorem publishes_of_publishColumns {arrow : FkArrow T} (keeps : arrow.Keeps) {count : Nat}
    {masked : List (Option (List FkComponent))} {columns : List (FkArray T)}
    (success : publishColumns arrow count (cutBy sizes masked) = .ok columns) :
    Publishes count masked columns := by
  have published := publishColumns_keeps keeps success
  rw [cutBy_flatten] at published
  exact published

end Routes

theorem zipIdx_parentKeyBatches {batchRows : Nat} (positive : 0 < batchRows) (offset : Nat)
    (source : List (List ParentRow)) :
    ((parentKeyBatches batchRows offset source).flatMap fun batch => batch.2.zipIdx batch.1) =
      source.flatten.zipIdx offset := by
  induction source generalizing offset with
  | nil => rfl
  | cons batch source ih =>
      rw [parentKeyBatches, List.flatMap_append, zipIdx_numberedSlices positive, ih,
        List.flatten_cons, List.zipIdx_append]

theorem relationStagingBatches_flatten {batchRows : Nat} (positive : 0 < batchRows)
    (source : List (List ParentRow)) :
    (relationStagingBatches batchRows source).flatten =
      source.flatten.zipIdx.filterMap stagedRow := by
  rw [relationStagingBatches, List.flatten_filter_not_isEmpty,
    ← zipIdx_parentKeyBatches positive 0 source, List.filterMap_flatMap, List.flatMap_def]

theorem staged_ascending (rows : List ParentRow) :
    (rows.zipIdx.filterMap stagedRow).Pairwise fun left right => left.rowNr < right.rowNr := by
  rw [List.pairwise_filterMap]
  have numbered : (rows.zipIdx).Pairwise fun left right => left.2 < right.2 := by
    have indices : (rows.zipIdx.map Prod.snd).Pairwise (· < ·) := by
      rw [List.zipIdx_map_snd]
      exact List.pairwise_lt_range'
    exact List.pairwise_map.mp indices
  apply numbered.imp
  intro left right less leftRow leftStaged rightRow rightStaged
  simp only [stagedRow] at leftStaged rightStaged
  split at leftStaged
  · cases leftStaged
  · split at rightStaged
    · cases rightStaged
    · cases leftStaged
      cases rightStaged
      exact less

/-- The masked key of the last parent row with a token. -/
def latest (rows : List ParentRow) (token : Token) : Option RelationRow :=
  ((rows.zipIdx.filterMap stagedRow).reverse.find? fun row => row.joinKey = token).map fun row =>
    ⟨row.joinKey, row.masked⟩

theorem filter_buildRelation (order : Sql.RowOrder) {batchRows : Nat} (positive : 0 < batchRows)
    (source : List (List ParentRow)) (token : Token) :
    ((buildRelation order batchRows source).filter fun row => row.joinKey = token) =
      (latest source.flatten token).toList := by
  have shuffled : (order.arrange (relationStagingBatches batchRows source).flatten).Perm
      (source.flatten.zipIdx.filterMap stagedRow) := by
    rw [← relationStagingBatches_flatten positive source]
    exact order.perm _
  have joined := Sql.perm_filter_groupBy order StagedRow.joinKey StagedRow.rowNr Sql.maximum_perm
    shuffled (fun row => (⟨row.joinKey, row.masked⟩ : RelationRow)) RelationRow.joinKey
    (fun _ => rfl) token
  rw [Sql.filter_maximum_eq_last ((staged_ascending source.flatten).filter _),
    ← Sql.find_reverse_eq_getLast, ← Option.toList_map] at joined
  exact Sql.eq_toList_of_perm joined

theorem find_parentMap (rows : List ParentRow) {key : List ArrowCell}
    (present : key.any pdIsna = false) :
    (parentMap rows).find (tupleIdentity (normalizedKey key)) =
      (latest rows (joinToken key)).map RelationRow.masked := by
  have each : ∀ numbered : List (ParentRow × Nat),
      (((numbered.map Prod.fst).filterMap fun row =>
          if row.source.any pdIsna then none
          else some (tupleIdentity (normalizedKey row.source), row.masked)).find?
        fun entry => entry.1 = tupleIdentity (normalizedKey key)).map Prod.snd =
      ((numbered.filterMap stagedRow).find? fun row => row.joinKey = joinToken key).map
        StagedRow.masked := by
    intro numbered
    induction numbered with
    | nil => rfl
    | cons row numbered ih =>
        cases isNull : row.1.source.any pdIsna with
        | true =>
            have dropped : stagedRow row = none := by
              rw [stagedRow, hasNullComponent_eq, isNull, if_pos rfl]
            simpa [dropped, isNull] using ih
        | false =>
            have kept : stagedRow row = some ⟨row.2, joinToken row.1.source, row.1.masked⟩ := by
              rw [stagedRow, hasNullComponent_eq, isNull, if_neg Bool.false_ne_true]
            have agree := tupleIdentity_eq_iff isNull present
            by_cases same : joinToken row.1.source = joinToken key
            · have identities := agree.mpr same
              simp [kept, isNull, same, identities]
            · have identities : ¬ tupleIdentity (normalizedKey row.1.source) =
                  tupleIdentity (normalizedKey key) := fun equal => same (agree.mp equal)
              simpa [kept, isNull, same, identities] using ih
  rw [parentMap, Dict.find_sets, Dict.find_empty, Option.or_none, latest, Option.map_map,
    ← List.filterMap_reverse, ← List.filterMap_reverse]
  have numbered : rows.reverse = (rows.zipIdx.reverse).map Prod.fst := by
    rw [List.map_reverse, List.zipIdx_map_fst]
  rw [numbered]
  exact each _

theorem answers_buildRelation (order : Sql.RowOrder) {batchRows : Nat} (positive : 0 < batchRows)
    (source : List (List ParentRow)) :
    Answers (buildRelation order batchRows source) (parentMap source.flatten)
      (latest source.flatten) where
  unique := filter_buildRelation order positive source
  agree := fun _ present => find_parentMap source.flatten present

def reversedRows : Sql.RowOrder where
  arrange rows := rows.reverse
  perm rows := List.reverse_perm rows

/-- The types of a column of ids: nothing but nulls, integers or text. -/
inductive IdType where
  | null | int64 | string
deriving Repr, DecidableEq

def IdType.name : IdType → String
  | .null => "null"
  | .int64 => "int64"
  | .string => "string"

/-- The type of one id; `none` for what is no id. -/
def idType : FkComponent → Option IdType
  | .int value => if -2 ^ 63 ≤ value ∧ value < 2 ^ 63 then some .int64 else none
  | .str _ => some .string
  | _ => none

def idCellOf (value : FkComponent) : FkComponent := if value.isNullLike then .null else value

/-- pyarrow over columns of ids: it refuses integers beside text, within a column and between two
chunks of it. -/
def idArrow : FkArrow IdType where
  typeName := IdType.name
  isNull type := type = .null
  isDecimal _ := false
  isInteger type := type = .int64
  isFloating _ := false
  infer values :=
    match ((values.filter fun value => !value.isNullLike).map idType).dedup with
    | [] => some ⟨.null, values.map idCellOf⟩
    | [some type] => some ⟨type, values.map idCellOf⟩
    | _ => none
  unify types := if types.length = 1 then types.head? else none
  cast array target := if array.type = .null then some ⟨target, array.values⟩ else none
  castUnsafe array _ := array

theorem idArrow_infer {values : List FkComponent} {array : FkArray IdType}
    (inferred : idArrow.infer values = some array) :
    array.values = values.map idCellOf ∧
      (array.type = .null ∨ ∃ value ∈ values, value.isNullLike = false ∧
        idType value = some array.type) := by
  simp only [idArrow] at inferred
  split at inferred
  · cases inferred
    exact ⟨rfl, Or.inl rfl⟩
  · rename_i type only
    cases inferred
    have inTypes : some type ∈ ((values.filter fun value => !value.isNullLike).map idType) := by
      rw [← List.mem_dedup, only]
      exact List.mem_singleton_self _
    obtain ⟨value, member, isType⟩ := List.mem_map.mp inTypes
    obtain ⟨inValues, notNull⟩ := List.mem_filter.mp member
    exact ⟨rfl, Or.inr ⟨value, inValues, by simpa using notNull, isType⟩⟩
  · cases inferred

theorem idArrow_keeps : idArrow.Keeps where
  infer := by
    intro values array _ inferred
    rw [(idArrow_infer inferred).1, sameCells_iff, List.map_map]
    apply List.map_congr_left
    intro value _
    rw [Function.comp_apply, idCellOf]
    split
    · rename_i isNull
      cases value with
      | float value =>
          cases value <;> first | rfl | simp_all [FkComponent.isNullLike, FkComponent.isNull]
      | null => rfl
      | notATime => rfl
      | _ => simp_all [FkComponent.isNullLike, FkComponent.isNull]
    · rfl
  inferCalendar := by
    intro left right first second calendar isFirst _
    rcases (idArrow_infer isFirst).2 with isNull | ⟨value, member, notNull, isType⟩
    · exact Or.inl (decide_eq_true isNull)
    · have inBoth := List.mem_append_left right member
      rcases calendar with dates | instants
      · rcases dates value inBoth with isNull | ⟨ordinal, rfl⟩
        · rw [isNull] at notNull
          cases notNull
        · cases isType
      · rcases instants value inBoth with isNull | ⟨instant, rfl, _⟩
        · rw [isNull] at notNull
          cases notNull
        · cases isType
  cast := by
    intro array target out cast _
    simp only [idArrow] at cast
    split at cast <;> cases cast
    exact SameCells.refl _
  castUnsafe := nofun

def ordersOf (policy : OrphanPolicy) : RelationshipEdge where
  parentTable := "customers"
  parentColumns := ["id"]
  childTable := "orders"
  childColumns := ["customer_id"]
  namespaceName := "customers_id"
  orphanPolicy := policy

theorem isArrowCell_byte (value : UInt8) : (FkComponent.int value.toNat).isArrowCell = true := by
  have small := value.toNat_lt
  simp only [FkComponent.isArrowCell, Bool.and_eq_true, decide_eq_true_eq]
  omega

def integerCell (value : UInt8) : ArrowCell := ⟨.int value.toNat, isArrowCell_byte value⟩

def nullCell : ArrowCell := ⟨.null, rfl⟩

/-- Customer 1 twice, and one without a key. -/
def customers (first second : FkComponent) : List ParentRow :=
  [⟨[integerCell 1], [first]⟩, ⟨[nullCell], [first]⟩, ⟨[integerCell 1], [second]⟩]

end DecoyEngine.Execution.OutOfCore
