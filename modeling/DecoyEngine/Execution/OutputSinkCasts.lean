import DecoyEngine.Execution.OutputSinkSchema
import Mathlib.Data.List.Forall2

namespace DecoyEngine.Execution.OutputSink

/-! Casts to the schema, and the join from them. -/

section Casts

variable {T M V B : Type} [DecidableEq T] [DecidableEq M] {memory : Memory T M B}
  {schema : List (Field T M)} {chunk part : Table T M V B}

/-- Two tables that differ in their buffers only. -/
def SameContent (left right : Table T M V B) : Prop :=
  left.fields = right.fields ∧ left.metadata = right.metadata ∧ left.rows = right.rows

/-- A cast that is refused for its nulls: the chunk is not of the schema already, and holds a null
in a column that the schema declares free of them. -/
def NullRefused (chunk : Table T M V B) (schema : List (Field T M)) : Prop :=
  ¬(chunk.fields = schema ∧ chunk.metadata = none) ∧
    ∃ (index : Nat) (target : Field T M), index < chunk.fields.length ∧
      schema[index]? = some target ∧ target.nullable = false ∧ chunk.hasNull index = true

omit [DecidableEq T] [DecidableEq M] in
theorem NullRefused.content {copy : Table T M V B} (refused : NullRefused copy schema)
    (same : SameContent copy chunk) : NullRefused chunk schema := by
  obtain ⟨fields, metadata, rows⟩ := same
  obtain ⟨differs, index, target, within, found, strict, null⟩ := refused
  rw [fields] at differs within
  rw [metadata] at differs
  rw [Table.hasNull, rows] at null
  exact ⟨differs, index, target, within, found, strict, null⟩

/-- The columns of a chunk can be taken for those of a schema. -/
def Fits (chunk : Table T M V B) (schema : List (Field T M)) : Prop :=
  ∀ (index : Nat) (source target : Field T M), chunk.fields[index]? = some source →
    schema[index]? = some target → source.type.isNull = false → source.type = target.type

omit [DecidableEq M] in
theorem castColumns_fits (chunk : Table T M V B) (index : Nat) {sources targets : List (Field T M)}
    (fits : ∀ (place : Nat) (source target : Field T M), sources[place]? = some source →
      targets[place]? = some target → source.type.isNull = false → source.type = target.type) :
    castColumns chunk index sources targets = .ok () ∨
      ∃ message, castColumns chunk index sources targets = .error (.castNull message) ∧
        ∃ (place : Nat) (target : Field T M), place < sources.length ∧
          targets[place]? = some target ∧ target.nullable = false ∧
            chunk.hasNull (index + place) = true := by
  induction sources generalizing index targets with
  | nil => exact .inl rfl
  | cons source sources ih =>
      cases targets with
      | nil => exact .inl rfl
      | cons target targets =>
          by_cases refused : (!target.nullable && chunk.hasNull index) = true
          · obtain ⟨strict, null⟩ := Bool.and_eq_true_iff.mp refused
            have here : castColumn source target (chunk.hasNull index) =
                .error (.castNull ("Casting field '" ++ target.name ++
                  "' with null values to non-nullable")) := if_pos refused
            refine .inr ⟨_, by rw [castColumns, here], 0, target, Nat.zero_lt_succ _, rfl, ?_, null⟩
            simpa using strict
          · have taken : (source.type = target.type || source.type.isNull) = true := by
              cases typed : source.type.isNull with
              | true => exact Bool.or_true _
              | false =>
                  have same := fits 0 source target rfl rfl typed
                  exact Bool.or_eq_true_iff.mpr (.inl (decide_eq_true same))
            have here : castColumn source target (chunk.hasNull index) = .ok () :=
              (if_neg refused).trans (if_pos taken)
            rw [castColumns, here]
            rcases ih (index + 1)
              fun place other next found among => fits (place + 1) other next found among with
              done | ⟨message, failed, place, other, within, found, strict, null⟩
            · exact .inl done
            · refine .inr ⟨message, failed, place + 1, other, Nat.succ_lt_succ within, found,
                strict, ?_⟩
              rw [← null]
              exact congrArg chunk.hasNull (by omega)

theorem cast_ok (cast : chunk.cast memory schema = .ok part) :
    part.fields = schema ∧ part.metadata = none ∧ part.rows = chunk.rows := by
  unfold Table.cast at cast
  split at cast
  · next same =>
      cases cast
      exact ⟨same.1, same.2, rfl⟩
  · split at cast
    · cases cast
    · cases cast
      exact ⟨rfl, rfl, rfl⟩

theorem cast_fits (memory : Memory T M B) (fits : Fits chunk schema) :
    (∃ part, chunk.cast memory schema = .ok part) ∨
      ∃ message, chunk.cast memory schema = .error (.castNull message) ∧
        NullRefused chunk schema := by
  unfold Table.cast
  by_cases same : chunk.fields = schema ∧ chunk.metadata = none
  · exact .inl ⟨chunk, if_pos same⟩
  · rw [if_neg same]
    rcases castColumns_fits chunk 0 fits with
      done | ⟨message, failed, place, target, within, found, strict, null⟩
    · rw [done]
      exact .inl ⟨_, rfl⟩
    · rw [failed]
      exact .inr ⟨message, rfl, same, place, target, within, found, strict,
        by rwa [Nat.zero_add] at null⟩

omit [DecidableEq M] in
theorem castColumns_null (index place : Nat) {sources targets : List (Field T M)}
    {target : Field T M} (within : place < sources.length) (found : targets[place]? = some target)
    (strict : target.nullable = false) (null : chunk.hasNull (index + place) = true) :
    castColumns chunk index sources targets ≠ .ok () := by
  induction sources generalizing index place targets with
  | nil => cases within
  | cons source sources ih =>
      cases targets with
      | nil => cases found
      | cons head targets =>
          intro done
          rw [castColumns] at done
          cases here : castColumn source head (chunk.hasNull index) with
          | error failure =>
              rw [here] at done
              cases done
          | ok _ =>
              rw [here] at done
              cases place with
              | zero =>
                  cases found
                  rw [Nat.add_zero] at null
                  rw [castColumn, if_pos (by rw [strict, null]; rfl)] at here
                  cases here
              | succ place =>
                  refine ih (index + 1) place (Nat.lt_of_succ_lt_succ within) found ?_ done
                  rwa [Nat.add_assoc, Nat.add_comm 1 place]

theorem NullRefused.not_cast (refused : NullRefused chunk schema) :
    chunk.cast memory schema ≠ .ok part := by
  obtain ⟨differs, index, target, within, found, strict, null⟩ := refused
  intro cast
  rw [Table.cast, if_neg differs] at cast
  cases done : castColumns chunk 0 chunk.fields schema with
  | error failure =>
      rw [done] at cast
      cases cast
  | ok _ =>
      exact castColumns_null 0 index within found strict (by rwa [Nat.zero_add]) done

omit [DecidableEq M] in
theorem castColumns_rows {left right : Table T M V B} (same : left.rows = right.rows)
    (index : Nat) (sources targets : List (Field T M)) :
    castColumns left index sources targets = castColumns right index sources targets := by
  induction sources generalizing index targets with
  | nil => rfl
  | cons source sources ih =>
      cases targets with
      | nil => rfl
      | cons target targets =>
          have null : left.hasNull index = right.hasNull index := by
            rw [Table.hasNull, Table.hasNull, same]
          rw [castColumns, castColumns, null, ih]

theorem cast_content {copy : Table T M V B} (same : SameContent copy chunk)
    (cast : copy.cast memory schema = .ok part) :
    ∃ other, chunk.cast memory schema = .ok other := by
  obtain ⟨fields, metadata, rows⟩ := same
  unfold Table.cast at cast ⊢
  rw [fields, metadata, castColumns_rows rows] at cast
  split at cast
  · next whole => exact ⟨chunk, if_pos whole⟩
  · next other =>
      rw [if_neg other]
      cases done : castColumns chunk 0 chunk.fields schema with
      | error failure =>
          rw [done] at cast
          cases cast
      | ok done => exact ⟨_, rfl⟩

variable {typeName : DataType T → String} {table : String} {first : Table T M V B}
  {later chunks : List (Table T M V B)}

theorem castAll_ok (casts : ∀ chunk ∈ chunks, ∃ part, chunk.cast memory schema = .ok part) :
    ∃ parts, castAll memory schema chunks = .ok parts ∧
      parts.flatMap Table.rows = chunks.flatMap Table.rows ∧
      parts.length = chunks.length ∧ ∀ part ∈ parts, part.fields = schema := by
  induction chunks with
  | nil => exact ⟨[], rfl, rfl, rfl, fun _ member => (List.not_mem_nil member).elim⟩
  | cons chunk rest ih =>
      obtain ⟨part, cast⟩ := casts chunk List.mem_cons_self
      obtain ⟨parts, all, rows, count, fields⟩ :=
        ih fun other member => casts other (.tail _ member)
      obtain ⟨partFields, -, partRows⟩ := cast_ok cast
      refine ⟨part :: parts, by rw [castAll, cast, all], ?_, congrArg (· + 1) count, ?_⟩
      · rw [List.flatMap_cons, List.flatMap_cons, partRows, rows]
      · exact List.forall_mem_cons.mpr ⟨partFields, fields⟩

theorem targetFields_agree (index : Nat) {fields : List (Field T M)}
    (agrees : ∀ (place : Nat) (field : Field T M), fields[place]? = some field →
      ColumnAgrees (field :: columnFields later (index + place))) :
    targetFields typeName table later index fields =
      .ok ((fields.zipIdx index).map fun entry =>
        joined entry.1 (columnFields later entry.2)) := by
  induction fields generalizing index with
  | nil => rfl
  | cons field rest ih =>
      have here : ColumnAgrees (field :: columnFields later index) := agrees 0 field rfl
      have tail := ih (index + 1) fun place other found => by
        have later := agrees (place + 1) other found
        rwa [show index + (place + 1) = index + 1 + place by omega] at later
      rw [targetFields, targetField_agrees here, tail]
      rfl

theorem targetFields_clash {index place : Nat} {fields : List (Field T M)} {field : Field T M}
    (fieldAt : fields[place]? = some field)
    (clash : ¬ColumnAgrees (field :: columnFields later (index + place))) :
    ∃ message, targetFields typeName table later index fields =
      .error (.schemaMismatch message) := by
  induction fields generalizing index place with
  | nil => cases fieldAt
  | cons head rest ih =>
      by_cases agrees : ColumnAgrees (head :: columnFields later index)
      · cases place with
        | zero =>
            cases fieldAt
            exact absurd agrees clash
        | succ place =>
            have next : ¬ColumnAgrees (field :: columnFields later (index + 1 + place)) := by
              rwa [Nat.add_assoc, Nat.add_comm 1 place]
            obtain ⟨message, failed⟩ := ih fieldAt next
            exact ⟨message, by rw [targetFields, targetField_agrees agrees, failed]⟩
      · obtain ⟨message, failed⟩ : ∃ message, targetField typeName table head
            (columnFields later index) = .error (.schemaMismatch message) :=
          targetField_disagrees agrees
        exact ⟨message, by rw [targetFields, failed]⟩

theorem join_compatible (memory : Memory T M B) (compatible : Compatible first later) :
    joinDispatcherChunks memory typeName table (first :: later) =
      match castAll memory (joinedSchema first later) (first :: later) with
      | .error failure => .error failure
      | .ok parts => .ok (combine memory parts) := by
  have names : later.find? (fun chunk => chunk.columnNames != first.columnNames) = none := by
    refine List.find?_eq_none.mpr fun chunk member => ?_
    rw [compatible.1 chunk member]
    simp
  have fields : targetFields typeName table later 0 first.fields =
      .ok (joinedSchema first later) := by
    refine targetFields_agree 0 fun place field fieldAt => ?_
    rw [Nat.zero_add]
    exact compatible.2 place field fieldAt
  cases all : castAll memory (joinedSchema first later) (first :: later) <;>
    simp only [joinDispatcherChunks, names, fields, all]

theorem join_incompatible (memory : Memory T M B) (clash : ¬Compatible first later) :
    ∃ message, joinDispatcherChunks memory typeName table (first :: later) =
      .error (.schemaMismatch message) := by
  cases names : later.find? fun chunk => chunk.columnNames != first.columnNames with
  | some chunk =>
      have refused : joinDispatcherChunks memory typeName table (first :: later) =
          .error (namesDiffer table first.columnNames chunk.columnNames) := by
        simp only [joinDispatcherChunks, names]
      exact ⟨_, refused⟩
  | none =>
      have same : SameNames first later := by
        intro chunk member
        have equal := List.find?_eq_none.mp names chunk member
        simpa using equal
      have types : ¬TypesAgree first later := fun agree => clash ⟨same, agree⟩
      simp only [TypesAgree, not_forall] at types
      obtain ⟨index, field, fieldAt, differ⟩ := types
      rw [← Nat.zero_add index] at differ
      obtain ⟨message, failed⟩ : ∃ message, targetFields typeName table later 0 first.fields =
          .error (.schemaMismatch message) := targetFields_clash fieldAt differ
      exact ⟨message, by simp only [joinDispatcherChunks, names, failed]⟩

end Casts

end DecoyEngine.Execution.OutputSink
