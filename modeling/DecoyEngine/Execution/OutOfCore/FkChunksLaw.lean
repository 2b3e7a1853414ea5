import DecoyEngine.Data.Checked
import DecoyEngine.Execution.OutOfCore.FkChunks

namespace DecoyEngine.Execution.OutOfCore

open DecoyEngine.Data

/-! The published column holds the values it was built from, as far as pyarrow keeps them. -/

/-- What Arrow tells apart: text is its UTF-8 bytes, a NaT is a null. -/
def FkComponent.stored : FkComponent → FkComponent
  | .str text => .bytes (String.ofList text).toUTF8.toList
  | .notATime => .null
  | other => other

def SameCell (value cell : FkComponent) : Prop :=
  sameComponent (FkComponent.stored value) (FkComponent.stored cell)

/-- A column of values and the cells an array holds of it. -/
abbrev SameCells : List FkComponent → List FkComponent → Prop := List.Forall₂ SameCell

def cellText (value : FkComponent) : List Char := (FkComponent.stored value).joinText

theorem sameCells_iff {values cells : List FkComponent} :
    SameCells values cells ↔ values.map cellText = cells.map cellText := by
  rw [← List.forall₂_eq_eq_eq, List.forall₂_map_left_iff, List.forall₂_map_right_iff]
  constructor
  · exact List.Forall₂.imp fun value cell => (joinText_eq_iff _ _).mpr
  · exact List.Forall₂.imp fun value cell => (joinText_eq_iff _ _).mp

theorem SameCells.refl (values : List FkComponent) : SameCells values values :=
  sameCells_iff.mpr rfl

theorem SameCells.trans {values middle cells : List FkComponent} (first : SameCells values middle)
    (second : SameCells middle cells) : SameCells values cells :=
  sameCells_iff.mpr ((sameCells_iff.mp first).trans (sameCells_iff.mp second))

/-! Three kinds of column that pyarrow keeps: without dates and instants, of dates, and of
instants to the microsecond. -/

def isTemporal : FkComponent → Bool
  | .date _ | .timestamp _ => true
  | _ => false

def Timeless (values : List FkComponent) : Prop := ∀ value ∈ values, isTemporal value = false

def OneCalendar (values : List FkComponent) : Prop :=
  (∀ value ∈ values, value.isNullLike = true ∨ ∃ ordinal, value = .date ordinal) ∨
  ∀ value ∈ values, value.isNullLike = true ∨
    ∃ instant, value = .timestamp instant ∧ instant.nanosecond = 0

/-- What pyarrow documents of its conversions.  Inference types an instant `timestamp[us]`, so a
column with nanoseconds, or one that mixes dates and instants, is left out. -/
structure FkArrow.Keeps {T : Type} [DecidableEq T] (arrow : FkArrow T) : Prop where
  infer : ∀ {values array}, Timeless values ∨ OneCalendar values →
    arrow.infer values = some array → SameCells values array.values
  inferCalendar : ∀ {left right first second}, OneCalendar (left ++ right) →
    arrow.infer left = some first → arrow.infer right = some second →
      arrow.isNull first.type = true ∨ arrow.isNull second.type = true ∨ first.type = second.type
  cast : ∀ {array target out}, arrow.cast array target = some out →
    arrow.isNull array.type = true ∨ Timeless array.values → SameCells array.values out.values
  -- an int whose double converts back to it is that double
  castUnsafe : ∀ {array target}, arrow.isInteger array.type = true →
    arrow.isFloating target = true →
      arrow.castUnsafe (arrow.castUnsafe array target) array.type = array →
        SameCells array.values (arrow.castUnsafe array target).values

theorem tag_of_timeless {value : FkComponent} (timeless : isTemporal value = false) :
    (fkKeyValue (FkComponent.stored value)).tag ≠ .date ∧
      (fkKeyValue (FkComponent.stored value)).tag ≠ .ts := by
  cases value with
  | float value =>
      rcases value with _ | _ | ⟨negative, magnitude⟩
      · constructor <;> intro same <;> cases same
      · constructor <;> intro same <;> cases same
      · simp only [FkComponent.stored, fkKeyValue]
        split <;> constructor <;> intro same <;> cases same
  | decimal value =>
      simp only [FkComponent.stored, fkKeyValue]
      split <;> constructor <;> intro same <;> cases same
  | date ordinal => cases timeless
  | timestamp value => cases timeless
  | _ => constructor <;> intro same <;> cases same

theorem Timeless.of_sameCells {values cells : List FkComponent} (timeless : Timeless values)
    (same : SameCells values cells) : Timeless cells := by
  intro cell member
  obtain ⟨value, inValues, alike⟩ : ∃ value ∈ values, cellText value = cellText cell := by
    have text : cellText cell ∈ values.map cellText := by
      rw [sameCells_iff.mp same]
      exact List.mem_map_of_mem member
    exact List.mem_map.mp text
  have tags := (tagText_append_inj alike).1
  obtain ⟨notDate, notInstant⟩ := tag_of_timeless (timeless value inValues)
  rw [tags] at notDate notInstant
  cases cell with
  | date ordinal => exact absurd rfl notDate
  | timestamp value => exact absurd rfl notInstant
  | _ => rfl

section Keeps

variable {T : Type} [DecidableEq T] {arrow : FkArrow T} (keeps : arrow.Keeps)

theorem concatArrays_ok {chunks : List (FkArray T)} {column : FkArray T}
    (success : concatArrays chunks = .ok column) :
    column.values = chunks.flatMap FkArray.values := by
  rw [concatArrays.eq_def] at success
  split at success
  · cases success
  · split at success <;> cases success
    rfl

include keeps

theorem castFkChunk_keeps {target : T} {chunk out : FkArray T}
    (success : castFkChunk arrow target chunk = .ok out)
    (kept : chunk.type = target ∨ arrow.isNull chunk.type = true ∨ Timeless chunk.values) :
    SameCells chunk.values out.values := by
  rw [castFkChunk] at success
  split at success
  · cases success
    exact SameCells.refl _
  · rename_i differs
    dsimp only at success
    split at success
    · rename_i widening
      rw [Bool.and_eq_true] at widening
      split at success
      · cases success
      · rename_i restored
        cases success
        exact keeps.castUnsafe widening.1 widening.2 (not_not.mp restored)
    · split at success
      · rename_i cast isCast
        cases success
        exact keeps.cast isCast (kept.resolve_left differs)
      · cases success

omit [DecidableEq T] keeps in
theorem unifiedChunkType_of_one {types : List T} {target : Option T} (distinct : types.Nodup)
    (one : ∀ left ∈ types, ∀ right ∈ types,
      arrow.isNull left = true ∨ arrow.isNull right = true ∨ left = right)
    (success : unifiedChunkType arrow types = .ok target) :
    ∀ type ∈ types, arrow.isNull type = true ∨ target = some type := by
  have single : (types.filter fun type => !arrow.isNull type).length ≤ 1 := by
    have nodup := distinct.filter fun type => !arrow.isNull type
    by_contra several
    obtain ⟨first, second, rest, isList⟩ : ∃ first second rest,
        (types.filter fun type => !arrow.isNull type) = first :: second :: rest := by
      revert several
      rcases types.filter fun type => !arrow.isNull type with _ | ⟨first, _ | ⟨second, rest⟩⟩
      · simp
      · simp
      · exact fun _ => ⟨first, second, rest, rfl⟩
    have inTypes : ∀ type ∈ first :: second :: rest, type ∈ types ∧ arrow.isNull type = false := by
      intro type member
      rw [← isList] at member
      simpa using List.mem_filter.mp member
    rw [isList] at nodup
    have same : first = second := by
      obtain ⟨firstIn, firstHolds⟩ := inTypes first List.mem_cons_self
      obtain ⟨secondIn, secondHolds⟩ :=
        inTypes second (List.mem_cons_of_mem _ List.mem_cons_self)
      simpa [firstHolds, secondHolds] using one first firstIn second secondIn
    rw [same] at nodup
    exact (List.nodup_cons.mp nodup).1 List.mem_cons_self
  simp only [unifiedChunkType, if_pos single] at success
  intro type member
  cases isNull : arrow.isNull type with
  | true => exact Or.inl rfl
  | false =>
      right
      have kept : type ∈ types.filter fun type => !arrow.isNull type := by
        simpa [isNull] using member
      rw [← Except.ok.inj success]
      obtain ⟨only, isOnly⟩ := List.length_eq_one_iff.mp
        (Nat.le_antisymm single (List.length_pos_of_mem kept))
      rw [isOnly] at kept ⊢
      rw [List.mem_singleton.mp kept]
      rfl

/-- The chunks of a column before and after a cast, against the values they come from. -/
theorem sameCells_flatten {sources : List (List FkComponent)} {chunks outs : List (FkArray T)}
    (inferred : List.Forall₂ (fun values chunk => arrow.infer values = some chunk) sources chunks)
    (kinds : ∀ values ∈ sources, Timeless values ∨ OneCalendar values)
    (cast : List.Forall₂ (fun chunk out => SameCells chunk.values out.values) chunks outs) :
    SameCells sources.flatten (outs.flatMap FkArray.values) := by
  induction inferred generalizing outs with
  | nil =>
      cases cast
      exact SameCells.refl _
  | cons isChunk _ ih =>
      obtain ⟨kind, others⟩ := List.forall_mem_cons.mp kinds
      cases cast with
      | cons first rest =>
          rw [List.flatten_cons, List.flatMap_cons]
          exact List.rel_append ((keeps.infer kind isChunk).trans first) (ih others rest)

omit keeps in
theorem OneCalendar.mono {values others : List FkComponent} (calendar : OneCalendar values)
    (inside : ∀ value ∈ others, value ∈ values) : OneCalendar others := by
  rcases calendar with dates | instants
  · exact Or.inl fun value member => dates value (inside value member)
  · exact Or.inr fun value member => instants value (inside value member)

/-- Batches of one calendar that are inferred at all are of one type, or of none. -/
theorem oneType_of_oneCalendar {sources : List (List FkComponent)} {chunks : List (FkArray T)}
    (inferred : List.Forall₂ (fun values chunk => arrow.infer values = some chunk) sources chunks)
    (calendar : OneCalendar sources.flatten) :
    ∀ left ∈ (chunks.map FkArray.type).dedup, ∀ right ∈ (chunks.map FkArray.type).dedup,
      arrow.isNull left = true ∨ arrow.isNull right = true ∨ left = right := by
  intro left leftMember right rightMember
  rw [List.mem_dedup] at leftMember rightMember
  obtain ⟨first, firstIn, rfl⟩ := List.mem_map.mp leftMember
  obtain ⟨second, secondIn, rfl⟩ := List.mem_map.mp rightMember
  obtain ⟨front, frontIn, isFirst⟩ := exists_left_of_forall₂ inferred firstIn
  obtain ⟨back, backIn, isSecond⟩ := exists_left_of_forall₂ inferred secondIn
  refine keeps.inferCalendar (calendar.mono ?_) isFirst isSecond
  intro value inBoth
  rcases List.mem_append.mp inBoth with inFront | inBack
  · exact List.mem_flatten_of_mem frontIn inFront
  · exact List.mem_flatten_of_mem backIn inBack

theorem concatFkChunks_keeps {sources : List (List FkComponent)} {chunks : List (FkArray T)}
    {column : FkArray T}
    (inferred : List.Forall₂ (fun values chunk => arrow.infer values = some chunk) sources chunks)
    (kind : Timeless sources.flatten ∨ OneCalendar sources.flatten)
    (success : concatFkChunks arrow chunks = .ok column) :
    SameCells sources.flatten column.values := by
  have kinds : ∀ values ∈ sources, Timeless values ∨ OneCalendar values := by
    intro values member
    have inside : ∀ value ∈ values, value ∈ sources.flatten := fun value inValues =>
      List.mem_flatten_of_mem member inValues
    rcases kind with timeless | calendar
    · exact Or.inl fun value inValues => timeless value (inside value inValues)
    · exact Or.inr (calendar.mono inside)
  have unchanged : ∀ {column}, concatArrays chunks = .ok column →
      SameCells sources.flatten column.values := by
    intro column concatenated
    rw [concatArrays_ok concatenated]
    exact sameCells_flatten keeps inferred kinds
      (List.forall₂_same.mpr fun chunk _ => SameCells.refl _)
  rw [concatFkChunks] at success
  split at success
  · rename_i empty
    rw [empty] at inferred
    cases inferred
    split at success
    · rename_i array isArray
      cases success
      exact keeps.infer kind isArray
    · cases success
  · dsimp only at success
    split at success
    · split at success
      · cases success
      · exact unchanged success
      · rename_i target unified
        split at success
        · cases success
        · rename_i outs cast
          rw [concatArrays_ok success]
          apply sameCells_flatten keeps inferred kinds
          have members := (List.forall₂_and_left _ _).mpr
            ⟨fun chunk member => member, mapM_eq_ok.mp cast⟩
          refine members.imp ?_
          intro chunk out both
          obtain ⟨member, isCast⟩ := both
          apply castFkChunk_keeps keeps isCast
          obtain ⟨values, inSources, isChunk⟩ := exists_left_of_forall₂ inferred member
          rcases kind with timeless | calendar
          · have part : Timeless values := fun value inValues =>
              timeless value (List.mem_flatten_of_mem inSources inValues)
            exact Or.inr (Or.inr (part.of_sameCells (keeps.infer (Or.inl part) isChunk)))
          · have one := oneType_of_oneCalendar keeps inferred calendar
            have promoted := unifiedChunkType_of_one (List.nodup_dedup _) one unified chunk.type
              (List.mem_dedup.mpr (List.mem_map_of_mem member))
            rcases promoted with isNull | isTarget
            · exact Or.inr (Or.inl isNull)
            · exact Or.inl (Option.some.inj isTarget).symm
    · exact unchanged success

omit [DecidableEq T] keeps in
theorem componentColumn_flatten (batches : List (List (Option (List FkComponent)))) (idx : Nat) :
    (batches.map fun keys => componentColumn keys idx).flatten =
      componentColumn batches.flatten idx := by
  rw [componentColumn, List.map_flatten]
  rfl

omit [DecidableEq T] keeps in
theorem batchArrays_ok {count idx : Nat} {keys : List (Option (List FkComponent))}
    {output : List (FkArray T)} (built : batchArrays arrow count keys = .ok output)
    (inside : idx < count) :
    ∃ chunk, output[idx]? = some chunk ∧ arrow.infer (componentColumn keys idx) = some chunk := by
  have related := mapM_eq_ok.mp built
  have length := related.length_eq
  rw [List.length_range] at length
  have isChunk := related.get (by rw [List.length_range]; exact inside)
    (show idx < output.length by omega)
  simp only [List.get_eq_getElem, List.getElem_range] at isChunk
  refine ⟨output.get ⟨idx, by omega⟩, List.getElem?_eq_getElem _, ?_⟩
  rw [fkOutputArray] at isChunk
  split at isChunk <;> cases isChunk
  assumption

omit [DecidableEq T] keeps in
theorem chunks_inferred {count idx : Nat} {batches : List (List (Option (List FkComponent)))}
    {outputs : List (List (FkArray T))}
    (built : List.Forall₂ (fun keys output => batchArrays arrow count keys = .ok output)
      batches outputs) (inside : idx < count) :
    List.Forall₂ (fun values chunk => arrow.infer values = some chunk)
      (batches.map fun keys => componentColumn keys idx)
      (outputs.filterMap fun output => output[idx]?) := by
  induction built with
  | nil => exact .nil
  | cons first _ ih =>
      obtain ⟨chunk, located, isChunk⟩ := batchArrays_ok first inside
      rw [List.map_cons, List.filterMap_cons, located]
      exact .cons isChunk ih

theorem publishColumns_keeps {count : Nat} {batches : List (List (Option (List FkComponent)))}
    {columns : List (FkArray T)} (success : publishColumns arrow count batches = .ok columns) :
    columns.length = count ∧ ∀ idx < count,
      Timeless (componentColumn batches.flatten idx) ∨
        OneCalendar (componentColumn batches.flatten idx) →
      ∃ array, columns[idx]? = some array ∧
        SameCells (componentColumn batches.flatten idx) array.values := by
  obtain ⟨outputs, built, concatenated⟩ := bind_eq_ok success
  have related := mapM_eq_ok.mp concatenated
  have length := related.length_eq
  rw [List.length_range] at length
  refine ⟨length.symm, ?_⟩
  intro idx inside kind
  have isColumn := related.get (by rw [List.length_range]; exact inside)
    (show idx < columns.length by omega)
  simp only [List.get_eq_getElem, List.getElem_range] at isColumn
  refine ⟨columns.get ⟨idx, by omega⟩, List.getElem?_eq_getElem _, ?_⟩
  rw [← componentColumn_flatten] at kind ⊢
  exact concatFkChunks_keeps keeps (chunks_inferred (mapM_eq_ok.mp built) inside) kind isColumn

end Keeps

end DecoyEngine.Execution.OutOfCore
