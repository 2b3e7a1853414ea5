import DecoyEngine.Execution.OutputSink
import Mathlib.Data.List.Find

namespace DecoyEngine.Execution.OutputSink

/-! The schema of a stream: what the resolver knows after some chunks, and what the join takes. -/

section Columns

variable {T M : Type} {fixed : List String} {column : List (Field T M)} {field target : Field T M}

/-- The fields of a column have one type, apart from `null`. -/
def ColumnAgrees (column : List (Field T M)) : Prop :=
  ∀ left ∈ column, ∀ right ∈ column, left.type.isNull = false → right.type.isNull = false →
    left.type = right.type

/-- A fixed column has one type. -/
def ColumnFixed (fixed : List String) (column : List (Field T M)) : Prop :=
  ∀ left ∈ column, ∀ right ∈ column, left.name ∈ fixed → left.type = right.type

def settles (fixed : List String) (field : Field T M) : Bool :=
  !field.type.isNull || fixed.contains field.name

/-- The field that settles a column. -/
def settled (fixed : List String) (column : List (Field T M)) : Option (Field T M) :=
  column.find? (settles fixed)

/-- One more field. -/
def settle (fixed : List String) (known : Option (Field T M)) (field : Field T M) :
    Option (Field T M) :=
  match known with
  | some target => some target
  | none => if settles fixed field then some field else none

/-- A field that the loop of `observe` takes. -/
def Fine (known : Option (Field T M)) (field : Field T M) : Prop :=
  ∀ target, known = some target → field.type.isNull = false → field.type = target.type

/-- The field of the first chunk that has a type, else the first field. -/
def joined (first : Field T M) (later : List (Field T M)) : Field T M :=
  (settled [] (first :: later)).getD first

theorem isNull_null {type : DataType T} (null : type.isNull = true) : type = .null := by
  cases type with
  | null => rfl
  | typed type => cases null

theorem settled_append (more : List (Field T M)) :
    settled fixed (column ++ more) = (settled fixed column).or (settled fixed more) :=
  List.find?_append

theorem settled_concat :
    settled fixed (column ++ [field]) = settle fixed (settled fixed column) field := by
  rw [settled_append]
  cases settled fixed column with
  | some target => rfl
  | none => exact (Option.none_or).trans List.find?_singleton

theorem ColumnAgrees.left {more : List (Field T M)} (agrees : ColumnAgrees (column ++ more)) :
    ColumnAgrees column :=
  fun left leftMember right rightMember =>
    agrees left (List.mem_append_left _ leftMember) right (List.mem_append_left _ rightMember)

theorem agrees_concat_iff (agrees : ColumnAgrees column)
    (sameFixed : ColumnFixed fixed (column ++ [field])) :
    ColumnAgrees (column ++ [field]) ↔ Fine (settled fixed column) field := by
  constructor
  · intro all target known typed
    have member := List.mem_of_find?_eq_some known
    cases null : target.type.isNull with
    | false =>
        exact all field (List.mem_append_right _ (List.mem_singleton_self _)) target
          (List.mem_append_left _ member) typed null
    | true =>
        have settling := List.find?_some known
        rw [settles, null, Bool.not_true, Bool.false_or, List.contains_iff_mem] at settling
        exact (sameFixed target (List.mem_append_left _ member) field
          (List.mem_append_right _ (List.mem_singleton_self _)) settling).symm
  · intro fine
    have new : ∀ other ∈ column, other.type.isNull = false → field.type.isNull = false →
        other.type = field.type := by
      intro other member typed fieldTyped
      have found : (settled fixed column).isSome = true := by
        rw [settled, List.find?_isSome]
        exact ⟨other, member, by rw [settles, typed]; rfl⟩
      obtain ⟨target, known⟩ := Option.isSome_iff_exists.mp found
      have same := fine target known fieldTyped
      rw [same] at fieldTyped ⊢
      exact agrees other member target (List.mem_of_find?_eq_some known) typed fieldTyped
    intro left leftMember right rightMember leftTyped rightTyped
    rcases List.mem_append.mp leftMember with leftOld | leftNew
    · rcases List.mem_append.mp rightMember with rightOld | rightNew
      · exact agrees left leftOld right rightOld leftTyped rightTyped
      · rw [List.mem_singleton.mp rightNew] at rightTyped ⊢
        exact new left leftOld leftTyped rightTyped
    · rw [List.mem_singleton.mp leftNew] at leftTyped ⊢
      rcases List.mem_append.mp rightMember with rightOld | rightNew
      · exact (new right rightOld rightTyped leftTyped).symm
      · rw [List.mem_singleton.mp rightNew]

theorem settled_joined {first : Field T M} {later : List (Field T M)}
    (names : ∀ field ∈ later, field.name = first.name)
    (sameFixed : ColumnFixed fixed (first :: later)) :
    (settled fixed (first :: later)).getD first = joined first later := by
  by_cases null : first.type.isNull = true
  · by_cases member : first.name ∈ fixed
    · have all : ∀ field ∈ first :: later, settles [] field = false := by
        intro field among
        have same := sameFixed first List.mem_cons_self field among member
        rw [settles, ← same, null]
        rfl
      have taken : settles fixed first = true := by
        rw [settles, List.contains_iff_mem.mpr member, Bool.or_true]
      have none : settled [] (first :: later) = none :=
        List.find?_eq_none.mpr fun field among => by rw [all field among]; exact Bool.false_ne_true
      rw [joined, none, settled, List.find?_cons_of_pos taken]
      rfl
    · have same : ∀ field ∈ first :: later, settles fixed field = settles [] field := by
        intro field among
        have name : field.name = first.name := by
          rcases List.mem_cons.mp among with rfl | rest
          · rfl
          · exact names field rest
        have unfixed : fixed.contains field.name = false := by
          rw [name, ← Bool.not_eq_true, List.contains_iff_mem]
          exact member
        rw [settles, settles, unfixed]
        rfl
      rw [joined, settled, settled, List.find?_congr same]
  · have taken : ∀ names : List String, settles names first = true := by
      intro names
      rw [settles, Bool.eq_false_iff.mpr null]
      rfl
    rw [joined, settled, settled, List.find?_cons_of_pos (taken fixed),
      List.find?_cons_of_pos (taken [])]

end Columns

section Fields

variable {T M V B : Type} [DecidableEq T] [DecidableEq M] {fixed : List String}
  {typeName : DataType T → String} {table : String}

theorem targetField_agrees {first : Field T M} {later : List (Field T M)}
    (agrees : ColumnAgrees (first :: later)) :
    targetField typeName table first later = .ok (joined first later) := by
  unfold targetField
  by_cases same : (first :: later).all (· = first) = true
  · rw [if_pos same]
    congr 1
    rw [joined, settled]
    cases found : (first :: later).find? (settles []) with
    | none => rfl
    | some field =>
        have member := List.mem_of_find?_eq_some found
        exact (of_decide_eq_true (List.all_eq_true.mp same field member)).symm
  · rw [if_neg same]
    have head : (settled [] (first :: later)) =
        ((first :: later).filter fun field => !field.type.isNull).head? := by
      rw [settled, List.head?_filter]
      refine List.find?_congr fun field _ => ?_
      rw [settles, List.contains_nil, Bool.or_false]
    rw [joined, head]
    cases typed : (first :: later).filter fun field => !field.type.isNull with
    | nil => rfl
    | cons field rest =>
        have members : ∀ other ∈ field :: rest, other ∈ first :: later ∧
            other.type.isNull = false := by
          intro other among
          rw [← typed, List.mem_filter, Bool.not_eq_true'] at among
          exact among
        obtain ⟨member, fieldTyped⟩ := members field List.mem_cons_self
        have none : ¬(rest.any fun other => other.type ≠ field.type) = true := by
          rw [List.any_eq_true]
          rintro ⟨other, among, differ⟩
          obtain ⟨otherMember, otherTyped⟩ := members other (.tail _ among)
          exact of_decide_eq_true differ
            (agrees other otherMember field member otherTyped fieldTyped)
        exact if_neg none

theorem targetField_disagrees {first : Field T M} {later : List (Field T M)}
    (disagrees : ¬ColumnAgrees (first :: later)) :
    ∃ message, targetField typeName table first later = .error (.schemaMismatch message) := by
  unfold targetField
  have differ : ¬(first :: later).all (· = first) = true := by
    intro same
    refine disagrees fun left leftMember right rightMember _ _ => ?_
    rw [of_decide_eq_true (List.all_eq_true.mp same left leftMember),
      of_decide_eq_true (List.all_eq_true.mp same right rightMember)]
  rw [if_neg differ]
  cases typed : (first :: later).filter fun field => !field.type.isNull with
  | nil =>
      refine absurd (fun left leftMember right _ leftTyped _ => ?_) disagrees
      have member : left ∈ (first :: later).filter fun field => !field.type.isNull :=
        List.mem_filter.mpr ⟨leftMember, by rw [leftTyped]; rfl⟩
      rw [typed] at member
      cases member
  | cons field rest =>
      by_cases clash : (rest.any fun other => other.type ≠ field.type) = true
      · exact ⟨_, if_pos clash⟩
      · have same : ∀ other ∈ first :: later, other.type.isNull = false →
            other.type = field.type := by
          intro other among otherTyped
          have member : other ∈ (first :: later).filter fun field => !field.type.isNull :=
            List.mem_filter.mpr ⟨among, by rw [otherTyped]; rfl⟩
          rw [typed] at member
          rcases List.mem_cons.mp member with rfl | later
          · rfl
          · by_contra differ
            exact clash (List.any_eq_true.mpr ⟨other, later, decide_eq_true differ⟩)
        refine absurd (fun left leftMember right rightMember leftTyped rightTyped => ?_) disagrees
        rw [same left leftMember leftTyped, same right rightMember rightTyped]

omit [DecidableEq M] in
theorem observeFields_fine {knowns : List (Option (Field T M))} {fields : List (Field T M)}
    (fine : ∀ (index : Nat) known field, knowns[index]? = some known →
      fields[index]? = some field → Fine known field) :
    observeFields typeName table fixed knowns fields =
      .ok (List.zipWith (settle fixed) knowns fields) := by
  induction knowns generalizing fields with
  | nil => rfl
  | cons known knowns ih =>
      cases fields with
      | nil => rfl
      | cons field fields =>
          have rest := ih fun index other next found among =>
            fine (index + 1) other next found among
          have here : Fine known field := fine 0 known field rfl rfl
          cases known with
          | none =>
              rw [observeFields, rest]
              rfl
          | some target =>
              have good : ¬(!field.type.isNull && decide (field.type ≠ target.type)) = true := by
                intro bad
                obtain ⟨typed, differ⟩ := Bool.and_eq_true_iff.mp bad
                exact of_decide_eq_true differ (here target rfl (by simpa using typed))
              rw [observeFields, if_neg good, rest]
              rfl

omit [DecidableEq M] in
theorem observeFields_clash {knowns : List (Option (Field T M))} {fields : List (Field T M)}
    {index : Nat} {known : Option (Field T M)} {field : Field T M}
    (knownAt : knowns[index]? = some known) (fieldAt : fields[index]? = some field)
    (clash : ¬Fine known field) :
    ∃ message, observeFields typeName table fixed knowns fields =
      .error (.schemaMismatch message) := by
  induction knowns generalizing fields index with
  | nil => cases knownAt
  | cons head knowns ih =>
      cases fields with
      | nil => cases fieldAt
      | cons first fields =>
          cases index with
          | zero =>
              cases knownAt
              cases fieldAt
              cases known with
              | none => exact absurd (fun target same => by cases same) clash
              | some target =>
                  have bad : (!field.type.isNull && decide (field.type ≠ target.type)) = true := by
                    refine Bool.and_eq_true_iff.mpr ⟨?_, decide_eq_true fun same => ?_⟩
                    · rw [Bool.not_eq_true']
                      by_contra null
                      exact clash fun _ _ typed => absurd typed null
                    · exact clash fun other found _ => Option.some.inj found ▸ same
                  exact ⟨_, if_pos bad⟩
          | succ index =>
              obtain ⟨message, failed⟩ := ih knownAt fieldAt
              cases head with
              | none =>
                  rw [observeFields, failed]
                  exact ⟨message, rfl⟩
              | some target =>
                  by_cases bad : (!first.type.isNull && decide (first.type ≠ target.type)) = true
                  · exact ⟨_, if_pos bad⟩
                  · rw [observeFields, if_neg bad, failed]
                    exact ⟨message, rfl⟩

end Fields

section Chunks

variable {T M V B : Type} {fixed : List String} {first chunk : Table T M V B}
  {later : List (Table T M V B)} {field : Field T M} {index : Nat}

/-- The fixed columns have one type in every chunk. -/
def FixedTypes (fixed : List String) (chunks : List (Table T M V B)) : Prop :=
  ∀ left ∈ chunks, ∀ right ∈ chunks, ∀ (index : Nat) (leftField rightField : Field T M),
    left.fields[index]? = some leftField → right.fields[index]? = some rightField →
      leftField.name ∈ fixed → leftField.name = rightField.name →
        leftField.type = rightField.type

/-- The column names of the chunks are the same. -/
def SameNames (first : Table T M V B) (later : List (Table T M V B)) : Prop :=
  ∀ chunk ∈ later, chunk.columnNames = first.columnNames

def TypesAgree (first : Table T M V B) (later : List (Table T M V B)) : Prop :=
  ∀ (index : Nat) (field : Field T M), first.fields[index]? = some field →
    ColumnAgrees (field :: columnFields later index)

/-- What the chunks of a join have in common. -/
def Compatible (first : Table T M V B) (later : List (Table T M V B)) : Prop :=
  SameNames first later ∧ TypesAgree first later

theorem mem_columnFields :
    field ∈ columnFields later index ↔ ∃ chunk ∈ later, chunk.fields[index]? = some field :=
  List.mem_filterMap

theorem columnFields_append (more : List (Table T M V B)) :
    columnFields (later ++ more) index = columnFields later index ++ columnFields more index :=
  List.filterMap_append

theorem name_at (same : chunk.columnNames = first.columnNames) (index : Nat) :
    (chunk.fields[index]?).map Field.name = (first.fields[index]?).map Field.name := by
  have both := congrArg (fun names => names[index]?) same
  simpa only [Table.columnNames, List.getElem?_map] using both

theorem SameNames.field_at (same : SameNames first later)
    (fieldAt : first.fields[index]? = some field) :
    ∀ other ∈ columnFields later index, other.name = field.name := by
  intro other member
  obtain ⟨chunk, among, otherAt⟩ := mem_columnFields.mp member
  have names := name_at (same chunk among) index
  rw [otherAt, fieldAt] at names
  exact Option.some.inj names

theorem FixedTypes.column (types : FixedTypes fixed (first :: later))
    (same : SameNames first later) (fieldAt : first.fields[index]? = some field) :
    ColumnFixed fixed (field :: columnFields later index) := by
  have source : ∀ other ∈ field :: columnFields later index, other.name = field.name ∧
      ∃ chunk ∈ first :: later, chunk.fields[index]? = some other := by
    intro other member
    rcases List.mem_cons.mp member with rfl | rest
    · exact ⟨rfl, first, List.mem_cons_self, fieldAt⟩
    · obtain ⟨chunk, among, otherAt⟩ := mem_columnFields.mp rest
      exact ⟨same.field_at fieldAt other rest, chunk, .tail _ among, otherAt⟩
  intro left leftMember right rightMember isFixed
  obtain ⟨leftName, leftChunk, leftAmong, leftAt⟩ := source left leftMember
  obtain ⟨rightName, rightChunk, rightAmong, rightAt⟩ := source right rightMember
  exact types leftChunk leftAmong rightChunk rightAmong index left right leftAt rightAt isFixed
    (leftName.trans rightName.symm)

theorem Compatible.left {more : List (Table T M V B)}
    (compatible : Compatible first (later ++ more)) : Compatible first later := by
  refine ⟨fun chunk member => compatible.1 chunk (List.mem_append_left _ member),
    fun index field fieldAt => ?_⟩
  have agrees := compatible.2 index field fieldAt
  rw [columnFields_append, ← List.cons_append] at agrees
  exact agrees.left

theorem FixedTypes.left {chunks more : List (Table T M V B)}
    (types : FixedTypes fixed (chunks ++ more)) : FixedTypes fixed chunks :=
  fun left leftMember right rightMember =>
    types left (List.mem_append_left _ leftMember) right (List.mem_append_left _ rightMember)

end Chunks

section Observe

variable {T M V B : Type} [DecidableEq T] {typeName : DataType T → String}
  {table : String} {fixed : List String} {resolver : Resolver T M} {first chunk : Table T M V B}
  {later : List (Table T M V B)}

/-- What a resolver knows after some chunks. -/
structure Observed (table : String) (fixed : List String) (first : Table T M V B)
    (later : List (Table T M V B)) (resolver : Resolver T M) : Prop where
  sameTable : resolver.table = table
  sameFixed : resolver.fixed = fixed
  names : resolver.names = some first.columnNames
  firstFields : resolver.first = first.fields
  known : ∀ index : Nat, resolver.fields[index]? =
    (first.fields[index]?).map fun field => settled fixed (field :: columnFields later index)
  compatible : Compatible first later

theorem observe_first (typeName : DataType T → String) (table : String) (fixed : List String)
    (first : Table T M V B) :
    ∃ resolver, Resolver.observe typeName ⟨table, fixed, none, [], []⟩ first = .ok resolver ∧
      Observed table fixed first [] resolver := by
  have blank : ∀ index : Nat, (first.fields.map fun _ => (none : Option (Field T M)))[index]? =
      (first.fields[index]?).map fun _ => none := fun index => List.getElem?_map
  have fine : observeFields typeName table fixed (first.fields.map fun _ => none) first.fields =
      .ok (List.zipWith (settle fixed) (first.fields.map fun _ => none) first.fields) := by
    refine observeFields_fine fun index known field knownAt fieldAt target same => ?_
    rw [blank, fieldAt] at knownAt
    cases knownAt
    cases same
  refine ⟨⟨table, fixed, some first.columnNames, first.fields,
    List.zipWith (settle fixed) (first.fields.map fun _ => none) first.fields⟩, ?_,
    ⟨rfl, rfl, rfl, rfl, ?_, ?_⟩⟩
  · simp only [Resolver.observe, fine]
  · intro index
    rw [List.getElem?_zipWith, blank]
    cases first.fields[index]? with
    | none => rfl
    | some field => exact congrArg some List.find?_singleton.symm
  · refine ⟨fun chunk member => (List.not_mem_nil member).elim, fun index field fieldAt => ?_⟩
    intro left leftMember right rightMember _ _
    rw [List.mem_singleton.mp leftMember, List.mem_singleton.mp rightMember]

theorem Observed.observe_eq (observed : Observed table fixed first later resolver)
    (chunk : Table T M V B) :
    resolver.observe typeName chunk =
      if chunk.columnNames != first.columnNames then
        .error (namesDiffer table first.columnNames chunk.columnNames)
      else
        match observeFields typeName table fixed resolver.fields chunk.fields with
        | .error failure => .error failure
        | .ok fields => .ok { resolver with fields := fields } := by
  obtain ⟨ownTable, ownFixed, names, _, fields⟩ := resolver
  obtain ⟨sameTable, sameFixed, same, -, -, -⟩ := observed
  cases sameTable
  cases sameFixed
  cases same
  rfl

omit [DecidableEq T] in
theorem Observed.column (observed : Observed table fixed first later resolver)
    (names : chunk.columnNames = first.columnNames) {index : Nat}
    {known : Option (Field T M)} {field : Field T M}
    (knownAt : resolver.fields[index]? = some known) (fieldAt : chunk.fields[index]? = some field) :
    ∃ head, first.fields[index]? = some head ∧
      known = settled fixed (head :: columnFields later index) ∧
      columnFields (later ++ [chunk]) index = columnFields later index ++ [field] := by
  have same := name_at names index
  rw [fieldAt] at same
  cases headAt : first.fields[index]? with
  | none =>
      rw [headAt] at same
      cases same
  | some head =>
      rw [observed.known, headAt] at knownAt
      refine ⟨head, rfl, (Option.some.inj knownAt).symm, ?_⟩
      rw [columnFields_append]
      refine congrArg (columnFields later index ++ ·) ?_
      simp only [columnFields, List.filterMap_cons, fieldAt, List.filterMap_nil]

omit [DecidableEq T] in
theorem Observed.fine_iff (observed : Observed table fixed first later resolver)
    (types : FixedTypes fixed (first :: (later ++ [chunk])))
    (names : chunk.columnNames = first.columnNames) :
    Compatible first (later ++ [chunk]) ↔
      ∀ (index : Nat) known field, resolver.fields[index]? = some known →
        chunk.fields[index]? = some field → Fine known field := by
  have allNames : SameNames first (later ++ [chunk]) :=
    List.forall_mem_append.mpr ⟨observed.compatible.1, List.forall_mem_singleton.mpr names⟩
  have whole : ∀ {index : Nat} {head field : Field T M}, first.fields[index]? = some head →
      columnFields (later ++ [chunk]) index = columnFields later index ++ [field] →
        (ColumnAgrees (head :: columnFields (later ++ [chunk]) index) ↔
          Fine (settled fixed (head :: columnFields later index)) field) := by
    intro index head field headAt grown
    have sameFixed := types.column allNames headAt
    rw [grown, ← List.cons_append] at sameFixed ⊢
    exact agrees_concat_iff (observed.compatible.2 index head headAt) sameFixed
  constructor
  · intro compatible index known field knownAt fieldAt
    obtain ⟨head, headAt, same, grown⟩ := observed.column names knownAt fieldAt
    rw [same]
    exact (whole headAt grown).mp (compatible.2 index head headAt)
  · intro fine
    refine ⟨allNames, fun index head headAt => ?_⟩
    have same := name_at names index
    have knownAt := observed.known index
    rw [headAt] at same knownAt
    cases fieldAt : chunk.fields[index]? with
    | none =>
        rw [fieldAt] at same
        cases same
    | some field =>
        obtain ⟨other, otherAt, -, grown⟩ := observed.column names knownAt fieldAt
        exact (whole headAt grown).mpr (fine index _ field knownAt fieldAt)

theorem Observed.observe (typeName : DataType T → String)
    (observed : Observed table fixed first later resolver)
    (types : FixedTypes fixed (first :: (later ++ [chunk]))) :
    (Compatible first (later ++ [chunk]) → ∃ next, resolver.observe typeName chunk = .ok next ∧
        Observed table fixed first (later ++ [chunk]) next) ∧
      (¬Compatible first (later ++ [chunk]) → ∃ message,
        resolver.observe typeName chunk = .error (.schemaMismatch message)) := by
  rw [observed.observe_eq]
  by_cases names : chunk.columnNames = first.columnNames
  · rw [if_neg (by simp [names])]
    constructor
    · intro compatible
      rw [observeFields_fine ((observed.fine_iff types names).mp compatible)]
      refine ⟨_, rfl, ⟨observed.sameTable, observed.sameFixed, observed.names,
        observed.firstFields, fun index => ?_, compatible⟩⟩
      rw [List.getElem?_zipWith]
      have same := name_at names index
      have knownAt := observed.known index
      cases fieldAt : chunk.fields[index]? with
      | none =>
          rw [fieldAt] at same
          rw [Option.map_eq_none_iff.mp same.symm]
          cases resolver.fields[index]? <;> rfl
      | some field =>
          cases headAt : first.fields[index]? with
          | none =>
              rw [fieldAt, headAt] at same
              cases same
          | some head =>
              rw [headAt] at knownAt
              obtain ⟨-, -, -, grown⟩ := observed.column names knownAt fieldAt
              rw [knownAt, Option.map_some, Option.map_some, grown, ← List.cons_append,
                settled_concat]
    · intro clash
      rw [observed.fine_iff types names] at clash
      simp only [not_forall] at clash
      obtain ⟨index, known, field, knownAt, fieldAt, clash⟩ := clash
      obtain ⟨message, failed⟩ : ∃ message, observeFields typeName table fixed resolver.fields
          chunk.fields = .error (.schemaMismatch message) :=
        observeFields_clash knownAt fieldAt clash
      exact ⟨message, by rw [failed]⟩
  · have last : chunk ∈ later ++ [chunk] :=
      List.mem_append_right _ (List.mem_singleton_self _)
    exact ⟨fun compatible => absurd (compatible.1 chunk last) names,
      fun _ => ⟨_, if_pos (by simp [names])⟩⟩

end Observe

section Schema

variable {T M V B : Type} {table : String} {fixed : List String} {resolver : Resolver T M}
  {first chunk : Table T M V B} {later : List (Table T M V B)}

/-- The fields that the join takes. -/
def joinedSchema (first : Table T M V B) (later : List (Table T M V B)) : List (Field T M) :=
  first.fields.zipIdx.map fun entry => joined entry.1 (columnFields later entry.2)

theorem joinedSchema_at (index : Nat) : (joinedSchema first later)[index]? =
    (first.fields[index]?).map fun field => joined field (columnFields later index) := by
  rw [joinedSchema, List.getElem?_map, List.getElem?_zipIdx]
  cases first.fields[index]? with
  | none => rfl
  | some field => rw [Option.map_some, Option.map_some, Option.map_some, Nat.zero_add]

/-- What the resolver takes for the schema is what the join takes, once the resolver is settled or
the chunks are over. -/
theorem Observed.schema (observed : Observed table fixed first later resolver)
    {more : List (Table T M V B)} (names : SameNames first (later ++ more))
    (types : FixedTypes fixed (first :: (later ++ more)))
    (settledOr : resolver.resolved = true ∨ more = []) :
    resolver.schema = joinedSchema first (later ++ more) := by
  apply List.ext_getElem?
  intro index
  rw [joinedSchema_at, Resolver.schema, List.getElem?_zipWith, observed.known,
    observed.firstFields]
  cases fieldAt : first.fields[index]? with
  | none => rfl
  | some field =>
      have sameFixed := types.column names fieldAt
      have known := settled_joined (names.field_at fieldAt) sameFixed
      have stable : settled fixed (field :: columnFields (later ++ more) index) =
          settled fixed (field :: columnFields later index) := by
        rcases settledOr with resolved | none
        · have all := (Bool.and_eq_true_iff.mp resolved).2
          have knownAt := observed.known index
          rw [fieldAt, Option.map_some] at knownAt
          have some' := List.all_eq_true.mp all _ (List.mem_of_getElem? knownAt)
          obtain ⟨target, found⟩ := Option.isSome_iff_exists.mp some'
          rw [columnFields_append, ← List.cons_append, settled_append, found]
          rfl
        · rw [none, List.append_nil]
      rw [stable] at known
      exact congrArg some known

/-- Some column of the chunks is all `null` and not fixed. -/
def Unsettled (fixed : List String) (chunks : List (Table T M V B)) : Prop :=
  ∃ index : Nat, (∃ chunk ∈ chunks, index < chunk.fields.length) ∧
    ∀ chunk ∈ chunks, ∀ field, chunk.fields[index]? = some field →
      field.type = .null ∧ field.name ∉ fixed

theorem unsettled_of_none {index : Nat} {head : Field T M}
    (headAt : first.fields[index]? = some head)
    (none : settled fixed (head :: columnFields later index) = none) :
    Unsettled fixed (first :: later) := by
  have inside : index < first.fields.length := (List.getElem?_eq_some_iff.mp headAt).1
  refine ⟨index, ⟨first, List.mem_cons_self, inside⟩, fun chunk among field fieldAt => ?_⟩
  have column : field ∈ head :: columnFields later index := by
    rcases List.mem_cons.mp among with rfl | rest
    · rw [headAt] at fieldAt
      rw [Option.some.inj fieldAt]
      exact List.mem_cons_self
    · exact .tail _ (mem_columnFields.mpr ⟨chunk, rest, fieldAt⟩)
  have loose := List.find?_eq_none.mp none field column
  rw [settles, Bool.or_eq_true_iff, not_or, Bool.not_eq_true', Bool.not_eq_false,
    List.contains_iff_mem] at loose
  exact ⟨isNull_null loose.1, loose.2⟩

theorem Observed.unsettled (observed : Observed table fixed first later resolver)
    (unresolved : resolver.resolved = false) : Unsettled fixed (first :: later) := by
  rw [Resolver.resolved, observed.names, Option.isSome_some, Bool.true_and] at unresolved
  rw [← Bool.not_eq_true, List.all_eq_true] at unresolved
  simp only [not_forall] at unresolved
  obtain ⟨known, member, open'⟩ := unresolved
  obtain ⟨index, knownAt⟩ := List.getElem?_of_mem member
  rw [observed.known] at knownAt
  obtain ⟨head, headAt, same⟩ := Option.map_eq_some_iff.mp knownAt
  refine unsettled_of_none headAt ?_
  rw [same]
  exact Option.not_isSome_iff_eq_none.mp open'

theorem SameNames.width (names : SameNames first later) (member : chunk ∈ first :: later) :
    chunk.fields.length = first.fields.length := by
  have same : chunk.columnNames = first.columnNames := by
    rcases List.mem_cons.mp member with rfl | rest
    · rfl
    · exact names chunk rest
  simpa only [Table.columnNames, List.length_map] using congrArg List.length same

theorem Unsettled.left {more : List (Table T M V B)} (names : SameNames first (later ++ more))
    (unsettled : Unsettled fixed (first :: (later ++ more))) :
    Unsettled fixed (first :: later) := by
  obtain ⟨index, ⟨chunk, member, within⟩, loose⟩ := unsettled
  rw [names.width member] at within
  refine ⟨index, ⟨first, List.mem_cons_self, within⟩, fun other among => loose other ?_⟩
  rw [← List.cons_append]
  exact List.mem_append_left _ among

theorem Observed.not_unsettled (observed : Observed table fixed first later resolver)
    (resolved : resolver.resolved = true) : ¬Unsettled fixed (first :: later) := by
  rintro ⟨index, ⟨chunk, member, within⟩, loose⟩
  rw [observed.compatible.1.width member] at within
  have headAt := List.getElem?_eq_getElem within
  have knownAt := observed.known index
  rw [headAt, Option.map_some] at knownAt
  have all := (Bool.and_eq_true_iff.mp resolved).2
  have known := List.all_eq_true.mp all _ (List.mem_of_getElem? knownAt)
  obtain ⟨target, found⟩ := Option.isSome_iff_exists.mp known
  have settling := List.find?_some found
  have source : ∃ other ∈ first :: later, other.fields[index]? = some target := by
    rcases List.mem_cons.mp (List.mem_of_find?_eq_some found) with rfl | rest
    · exact ⟨first, List.mem_cons_self, headAt⟩
    · obtain ⟨other, among, targetAt⟩ := mem_columnFields.mp rest
      exact ⟨other, .tail _ among, targetAt⟩
  obtain ⟨other, among, targetAt⟩ := source
  obtain ⟨null, unfixed⟩ := loose other among target targetAt
  rw [settles, null, Bool.or_eq_true_iff, List.contains_iff_mem] at settling
  rcases settling with typed | isFixed
  · cases typed
  · exact unfixed isFixed

theorem joinedSchema_stable {more : List (Table T M V B)}
    (names : SameNames first (later ++ more)) (types : FixedTypes fixed (first :: (later ++ more)))
    (known : ¬Unsettled fixed (first :: later)) :
    joinedSchema first (later ++ more) = joinedSchema first later := by
  apply List.ext_getElem?
  intro index
  rw [joinedSchema_at, joinedSchema_at]
  cases fieldAt : first.fields[index]? with
  | none => rfl
  | some field =>
      have namesLeft : SameNames first later := fun chunk member =>
        names chunk (List.mem_append_left _ member)
      have typesLeft : FixedTypes fixed (first :: later) := by
        rw [← List.cons_append] at types
        exact types.left
      rw [Option.map_some, Option.map_some,
        ← settled_joined (names.field_at fieldAt) (types.column names fieldAt),
        ← settled_joined (namesLeft.field_at fieldAt) (typesLeft.column namesLeft fieldAt)]
      cases found : settled fixed (field :: columnFields later index) with
      | none => exact absurd (unsettled_of_none fieldAt found) known
      | some target =>
          rw [columnFields_append, ← List.cons_append, settled_append, found]
          rfl

theorem Compatible.fits (compatible : Compatible first later) (member : chunk ∈ first :: later)
    {index : Nat} {source target : Field T M} (sourceAt : chunk.fields[index]? = some source)
    (targetAt : (joinedSchema first later)[index]? = some target)
    (typed : source.type.isNull = false) : source.type = target.type := by
  rw [joinedSchema_at] at targetAt
  obtain ⟨field, fieldAt, same⟩ := Option.map_eq_some_iff.mp targetAt
  have sourceMember : source ∈ field :: columnFields later index := by
    rcases List.mem_cons.mp member with rfl | rest
    · rw [sourceAt] at fieldAt
      rw [Option.some.inj fieldAt]
      exact List.mem_cons_self
    · exact .tail _ (mem_columnFields.mpr ⟨chunk, rest, sourceAt⟩)
  have found : (settled [] (field :: columnFields later index)).isSome = true :=
    List.find?_isSome.mpr ⟨source, sourceMember, by rw [settles, typed]; rfl⟩
  obtain ⟨settler, known⟩ := Option.isSome_iff_exists.mp found
  have settling := List.find?_some known
  rw [settles, List.contains_nil, Bool.or_false, Bool.not_eq_true'] at settling
  rw [joined, known, Option.getD_some] at same
  rw [← same]
  exact compatible.2 index field fieldAt source sourceMember settler
    (List.mem_of_find?_eq_some known) typed settling

end Schema

end DecoyEngine.Execution.OutputSink
