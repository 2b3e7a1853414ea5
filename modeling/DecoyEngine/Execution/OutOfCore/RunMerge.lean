import DecoyEngine.Execution.OutOfCore.ExternalSort
import Mathlib.Algebra.Order.BigOperators.Group.List

namespace DecoyEngine.Execution.OutOfCore

open DecoyEngine.Data

variable {Row κ : Type*} [LinearOrder κ] (arrow : ArrowRows Row κ)

/-- Rows that can stand in batches of one schema. -/
def Uniform (schema : Schema) (rows : List Row) : Prop := ∀ row ∈ rows, arrow.schema row = schema

theorem checkSchemas_uniform {schema : Schema} {batches : List (List Row)}
    (uniform : Uniform arrow schema batches.flatten) :
    checkSchemas arrow schema batches = .ok () := by
  have agree : (batches.filterMap List.head?).find?
      (fun row => arrow.schema row ≠ schema) = none := by
    rw [List.find?_eq_none]
    intro row member
    obtain ⟨batch, inBatches, isHead⟩ := List.mem_filterMap.mp member
    have same : arrow.schema row = schema :=
      uniform row (List.mem_flatten_of_mem inBatches (List.mem_of_mem_head? isHead))
    simp [same]
  rw [checkSchemas, agree]

theorem sameSchema_uniform {schema : Schema} {batches : List (List Row)}
    (uniform : Uniform arrow schema batches.flatten) : sameSchema arrow batches = .ok () := by
  rw [sameSchema]
  split
  · rfl
  · rename_i first rest heads
    have member : first ∈ batches.filterMap List.head? := by
      rw [heads]
      exact List.mem_cons_self
    obtain ⟨batch, inBatches, isHead⟩ := List.mem_filterMap.mp member
    rw [uniform first (List.mem_flatten_of_mem inBatches (List.mem_of_mem_head? isHead))]
    exact checkSchemas_uniform arrow uniform

theorem sameSchema_error {invalid : SortError} {batches : List (List Row)}
    (refused : sameSchema arrow batches = .error invalid) :
    ∃ first ∈ batches.flatten, ∃ other ∈ batches.flatten,
      arrow.schema first ≠ arrow.schema other ∧
      invalid = .arrowInvalid (arrow.schema first) (arrow.schema other) := by
  have inRows : ∀ row ∈ batches.filterMap List.head?, row ∈ batches.flatten := by
    intro row member
    obtain ⟨batch, inBatches, isHead⟩ := List.mem_filterMap.mp member
    exact List.mem_flatten_of_mem inBatches (List.mem_of_mem_head? isHead)
  rw [sameSchema] at refused
  split at refused
  · cases refused
  · rename_i first rest heads
    rw [checkSchemas] at refused
    split at refused
    · cases refused
    · rename_i other found
      have isOther := List.find?_some found
      rw [decide_eq_true_eq] at isOther
      have firstRow : first ∈ batches.flatten := by
        apply inRows
        rw [heads]
        exact List.mem_cons_self
      refine ⟨first, firstRow, other, inRows other (List.mem_of_find?_eq_some found), ?_, ?_⟩
      · exact fun same => isOther same.symm
      · exact (Except.error.inj refused).symm

theorem bisectViews_slices (sliceBytes : Nat → Nat → Nat) (maxBytes : Nat) (rows : List Row)
    {fuel offset count : Nat} (enough : count ≤ fuel) :
    ((bisectViews sliceBytes maxBytes fuel offset count).map (slice rows)).flatten =
      (rows.drop offset).take count := by
  induction fuel generalizing offset count with
  | zero =>
      have empty : count = 0 := Nat.le_zero.mp enough
      rw [empty]
      rfl
  | succ fuel ih =>
      rw [bisectViews]
      split
      · rename_i empty
        rw [empty]
        rfl
      · split
        · simp [slice]
        · rename_i notEmpty notSmall
          have many : 2 ≤ count := by
            have notOne : count ≠ 1 := fun one => notSmall (Or.inl one)
            omega
          rw [List.map_append, List.flatten_append, ih (by omega), ih (by omega),
            ← List.drop_drop, ← List.take_add]
          congr 1
          omega

theorem iterBoundedViews_flatten (batch : List Row) (maxBytes : Nat) :
    (iterBoundedViews arrow batch maxBytes).flatten = batch := by
  rw [iterBoundedViews, bisectViews_slices _ _ _ (Nat.le_refl _), List.drop_zero,
    List.take_length]

theorem boundedBatches_flatten (table : List Row) (maxBytes : Nat) :
    (boundedBatches arrow table maxBytes).flatten = table := by
  rw [boundedBatches, List.flatMap_def, List.flatten_flatten, List.map_map]
  have whole : List.flatten ∘ (fun batch => iterBoundedViews arrow batch maxBytes) = id := by
    funext batch
    exact iterBoundedViews_flatten arrow batch maxBytes
  rw [whole, List.map_id, arrow.toBatches_flatten]

theorem storedBatches_flatten (table : List Row) (maxBytes : Nat) :
    (storedBatches arrow table maxBytes).flatten = table := by
  rw [storedBatches, List.flatten_filter_ne_nil, boundedBatches_flatten]

theorem storedBatches_ne_nil (table : List Row) (maxBytes : Nat) :
    ∀ batch ∈ storedBatches arrow table maxBytes, batch ≠ [] := by
  intro batch member
  simpa using (List.mem_filter.mp member).2

namespace RunHead

/-- The rows a head has still to emit. -/
def rows (head : RunHead Row) : List Row := head.pending.getD [] ++ head.stored.flatten

/-- The batches a head has not emitted in full. -/
def unread (head : RunHead Row) : Nat :=
  head.stored.length + if head.pending.getD [] = [] then 0 else 1

structure Ready (key : Row → κ) (head : RunHead Row) : Prop where
  ascending : Ascending key head.rows
  stored : ∀ batch ∈ head.stored, batch ≠ []

/-- A head after `ensure_loaded`: it holds rows unless its run is exhausted. -/
structure Loaded (key : Row → κ) (head : RunHead Row) : Prop extends Ready key head where
  holds : ∀ pending, head.pending = some pending → pending ≠ []
  exhausted : head.pending = none → head.stored = []

variable {key : Row → κ} {head : RunHead Row} {cutoff : Option κ}

theorem rows_ensureLoaded (head : RunHead Row) : head.ensureLoaded.rows = head.rows := by
  obtain ⟨stored, pending⟩ := head
  cases pending with
  | none => cases stored <;> simp [ensureLoaded, rows]
  | some pending =>
      cases pending with
      | nil => cases stored <;> simp [ensureLoaded, rows]
      | cons row rest => rfl

theorem Ready.ensureLoaded (ready : head.Ready key) : head.ensureLoaded.Loaded key := by
  have ascending : Ascending key head.ensureLoaded.rows := by
    rw [rows_ensureLoaded]
    exact ready.ascending
  obtain ⟨stored, pending⟩ := head
  have nonempty : ∀ batch ∈ stored, batch ≠ [] := ready.stored
  rcases pending with _ | _ | ⟨row, rest⟩
  case some.cons =>
    exact ⟨⟨ascending, nonempty⟩, by simp [RunHead.ensureLoaded], by simp [RunHead.ensureLoaded]⟩
  all_goals
    cases stored with
    | nil => exact ⟨⟨ascending, by simp [RunHead.ensureLoaded]⟩,
        by simp [RunHead.ensureLoaded], by simp [RunHead.ensureLoaded]⟩
    | cons batch later =>
        have first : batch ≠ [] := nonempty batch List.mem_cons_self
        have others : ∀ batch ∈ later, batch ≠ [] := fun batch member =>
          nonempty batch (List.mem_cons_of_mem _ member)
        exact ⟨⟨ascending, others⟩, by simpa [RunHead.ensureLoaded] using first,
          by simp [RunHead.ensureLoaded]⟩

theorem Ready.unread_ensureLoaded (ready : head.Ready key) :
    head.ensureLoaded.unread = head.unread := by
  obtain ⟨stored, pending⟩ := head
  have nonempty : ∀ batch ∈ stored, batch ≠ [] := ready.stored
  rcases pending with _ | _ | ⟨row, rest⟩
  case some.cons => rfl
  all_goals
    cases stored with
    | nil => simp [RunHead.ensureLoaded, unread]
    | cons batch later =>
        have first : batch ≠ [] := nonempty batch List.mem_cons_self
        simp [RunHead.ensureLoaded, unread, first]

theorem getD_pending_setRemaining (remaining : List Row) :
    (head.setRemaining remaining).pending.getD [] = remaining := by
  by_cases empty : remaining = [] <;> simp [setRemaining, empty]

theorem stored_afterEmit : (head.afterEmit key cutoff).stored = head.stored := by
  obtain ⟨stored, pending⟩ := head
  cases pending <;> rfl

theorem emitPart_append_afterEmit :
    head.emitPart key cutoff ++ (head.afterEmit key cutoff).rows = head.rows := by
  cases held : head.pending with
  | none => simp [emitPart, afterEmit, held]
  | some pending =>
      have kept : (head.afterEmit key cutoff).pending.getD [] =
          pending.drop (emitCount key cutoff pending) := by
        simp only [afterEmit, held]
        exact getD_pending_setRemaining _
      rw [rows, kept, stored_afterEmit, emitPart, held, rows, held, ← List.append_assoc]
      simp only [List.take_append_drop, Option.getD_some]

theorem mem_rows_of_emitPart (head : RunHead Row) {row : Row}
    (emitted : row ∈ head.emitPart key cutoff) : row ∈ head.rows := by
  have whole : head.emitPart key cutoff ++ (head.afterEmit key cutoff).rows = head.rows :=
    emitPart_append_afterEmit
  rw [← whole]
  exact List.mem_append_left _ emitted

theorem Ready.afterEmit (ready : head.Ready key) : (head.afterEmit key cutoff).Ready key := by
  have whole : head.emitPart key cutoff ++ (head.afterEmit key cutoff).rows = head.rows :=
    emitPart_append_afterEmit
  have ascending := ready.ascending
  rw [← whole] at ascending
  constructor
  · exact ascending.of_append_right
  · rw [stored_afterEmit]
    exact ready.stored

theorem rows_afterEmit (head : RunHead Row) :
    (head.afterEmit key cutoff).rows =
      (head.pending.getD []).drop (emitCount key cutoff (head.pending.getD [])) ++
        head.stored.flatten := by
  cases held : head.pending with
  | none => simp [afterEmit, held, rows]
  | some pending =>
      rw [rows, stored_afterEmit]
      simp only [afterEmit, held, Option.getD_some]
      rw [getD_pending_setRemaining]

theorem Loaded.maxValue_spec (loaded : head.Loaded key) (waiting : head.isFinalBatch = false) :
    ∃ greatest, head.maxValue key = some greatest ∧
      (∀ row ∈ head.pending.getD [], key row ≤ greatest) ∧
      ∃ row ∈ head.pending.getD [], key row = greatest := by
  have holds : head.pending.getD [] ≠ [] := by
    cases held : head.pending with
    | none => simp [isFinalBatch, loaded.exhausted held] at waiting
    | some pending => exact loaded.holds pending held
  have found : (((head.pending.getD []).map key).max?).isSome := by
    rw [List.isSome_max?_iff]
    simpa using holds
  obtain ⟨greatest, value⟩ := Option.isSome_iff_exists.mp found
  obtain ⟨member, bound⟩ := List.max?_eq_some_iff.mp value
  refine ⟨greatest, value, ?_, List.mem_map.mp member⟩
  intro row inPending
  exact bound (key row) (List.mem_map_of_mem inPending)

theorem emitPart_le (ready : head.Ready key) {limit : κ} :
    ∀ row ∈ head.emitPart key (some limit), key row ≤ limit := by
  intro row member
  cases held : head.pending with
  | none => simp [emitPart, held] at member
  | some pending =>
      have ascending := ready.ascending
      rw [rows, held] at ascending
      simp only [emitPart, held] at member
      exact (ascending.of_append_left.take_countP limit).1 row member

theorem Loaded.le_rows_afterEmit (loaded : head.Loaded key) {limit : κ}
    (allowed : head.isFinalBatch = false → ∀ greatest, head.maxValue key = some greatest →
      limit ≤ greatest) :
    ∀ row ∈ (head.afterEmit key (some limit)).rows, limit ≤ key row := by
  intro row member
  have ascending := loaded.ascending
  rw [rows] at ascending
  rw [rows_afterEmit] at member
  cases List.mem_append.mp member with
  | inl kept => exact le_of_lt ((ascending.of_append_left.take_countP limit).2 row kept)
  | inr stored =>
      -- A stored row follows every pending row, the greatest one included.
      have waiting : head.isFinalBatch = false := by
        cases stored' : head.stored with
        | nil => simp [stored'] at stored
        | cons batch later => simp [isFinalBatch, stored']
      obtain ⟨greatest, value, _, last, inPending, isGreatest⟩ := loaded.maxValue_spec waiting
      calc limit ≤ greatest := allowed waiting greatest value
        _ = key last := isGreatest.symm
        _ ≤ key row := ascending.le_of_append last inPending row stored

theorem rows_afterEmit_of_final (final : head.isFinalBatch = true) :
    (head.afterEmit key none).rows = [] := by
  have exhausted : head.stored = [] := by simpa [isFinalBatch] using final
  rw [rows_afterEmit, exhausted, emitCount, List.drop_length]
  rfl

theorem unread_afterEmit_le (head : RunHead Row) :
    (head.afterEmit key cutoff).unread ≤ head.unread := by
  cases held : head.pending with
  | none => simp [afterEmit, held]
  | some pending =>
      simp only [unread, afterEmit, held, getD_pending_setRemaining, Option.getD_some]
      by_cases empty : pending = []
      · simp [empty, setRemaining]
      · rw [if_neg empty]
        have one : (if pending.drop (emitCount key cutoff pending) = [] then 0 else 1) ≤ 1 := by
          split <;> omega
        exact Nat.add_le_add_left one _

theorem unread_afterEmit_lt {pending : List Row} (held : head.pending = some pending)
    (holds : pending ≠ []) (all : emitCount key cutoff pending = pending.length) :
    (head.afterEmit key cutoff).unread < head.unread := by
  simp only [unread, afterEmit, held, Option.getD_some, all, List.drop_length,
    if_neg holds, setRemaining]
  simp

end RunHead

section Round

variable {key : Row → κ} {active : List (RunHead Row)}

theorem mergeCutoff_none (loaded : ∀ head ∈ active, head.Loaded key)
    (cutoff : mergeCutoff key active = none) :
    ∀ head ∈ active, head.isFinalBatch = true := by
  intro head member
  by_contra open'
  have waiting : head.isFinalBatch = false := by simpa using open'
  obtain ⟨greatest, value, _⟩ := (loaded head member).maxValue_spec waiting
  have constrained : greatest ∈
      (active.filter fun head => !head.isFinalBatch).filterMap (RunHead.maxValue key) :=
    List.mem_filterMap.mpr ⟨head, List.mem_filter.mpr ⟨member, by simp [waiting]⟩, value⟩
  rw [mergeCutoff, List.min?_eq_none_iff] at cutoff
  rw [cutoff] at constrained
  cases constrained

theorem mergeCutoff_some {limit : κ} (cutoff : mergeCutoff key active = some limit) :
    (∃ head ∈ active, head.maxValue key = some limit) ∧
    ∀ head ∈ active, head.isFinalBatch = false → ∀ greatest,
      head.maxValue key = some greatest → limit ≤ greatest := by
  obtain ⟨member, least⟩ := List.min?_eq_some_iff.mp cutoff
  obtain ⟨head, inFilter, value⟩ := List.mem_filterMap.mp member
  constructor
  · exact ⟨head, (List.mem_filter.mp inFilter).1, value⟩
  · intro other otherMember waiting greatest otherValue
    apply least
    exact List.mem_filterMap.mpr
      ⟨other, List.mem_filter.mpr ⟨otherMember, by simp [waiting]⟩, otherValue⟩

variable {heads : List (RunHead Row)}

theorem mem_activeHeads {head : RunHead Row} :
    head ∈ activeHeads heads ↔ head ∈ heads ∧ head.pending.isSome = true :=
  List.mem_filter

theorem flatMap_activeHeads (cutoff : Option κ) (heads : List (RunHead Row)) :
    (activeHeads heads).flatMap (RunHead.emitPart key cutoff) =
      heads.flatMap (RunHead.emitPart key cutoff) := by
  induction heads with
  | nil => rfl
  | cons head heads ih =>
      rw [activeHeads] at ih ⊢
      cases held : head.pending with
      | none => simp [held, RunHead.emitPart, ih]
      | some pending => simp [held, ih]

theorem emitPart_le_rows_afterEmit (loaded : ∀ head ∈ heads, head.Loaded key)
    {head other : RunHead Row} (member : head ∈ heads) (otherMember : other ∈ heads) :
    ∀ row ∈ head.emitPart key (mergeCutoff key (activeHeads heads)),
    ∀ later ∈ (other.afterEmit key (mergeCutoff key (activeHeads heads))).rows,
      key row ≤ key later := by
  intro row emitted later kept
  have activeLoaded : ∀ head ∈ activeHeads heads, head.Loaded key := fun head active =>
    loaded head (mem_activeHeads.mp active).1
  have active : other.pending.isSome = false → other.isFinalBatch = true := by
    intro idle
    have exhausted := (loaded other otherMember).exhausted (by simpa using idle)
    simp [RunHead.isFinalBatch, exhausted]
  cases cutoff : mergeCutoff key (activeHeads heads) with
  | none =>
      -- Every run is on its last batch, so nothing stays behind.
      have final : other.isFinalBatch = true := by
        cases isActive : other.pending.isSome with
        | false => exact active isActive
        | true =>
            exact mergeCutoff_none activeLoaded cutoff other
              (mem_activeHeads.mpr ⟨otherMember, isActive⟩)
      rw [cutoff, RunHead.rows_afterEmit_of_final final] at kept
      cases kept
  | some limit =>
      rw [cutoff] at emitted kept
      obtain ⟨_, allowed⟩ := mergeCutoff_some cutoff
      have below : key row ≤ limit := RunHead.emitPart_le (loaded head member).toReady row emitted
      have above : limit ≤ key later := by
        apply (loaded other otherMember).le_rows_afterEmit _ later kept
        intro waiting greatest value
        have isActive : other.pending.isSome = true := by
          by_contra idle
          rw [active (by simpa using idle)] at waiting
          cases waiting
        exact allowed other (mem_activeHeads.mpr ⟨otherMember, isActive⟩) waiting greatest value
      exact le_trans below above

theorem exists_unread_lt (loaded : ∀ head ∈ heads, head.Loaded key)
    (some' : activeHeads heads ≠ []) :
    ∃ head ∈ heads,
      (head.afterEmit key (mergeCutoff key (activeHeads heads))).unread < head.unread := by
  have finishes : ∀ head ∈ activeHeads heads,
      (∀ pending, head.pending = some pending →
        RunHead.emitCount key (mergeCutoff key (activeHeads heads)) pending = pending.length) →
      ∃ head ∈ heads,
        (head.afterEmit key (mergeCutoff key (activeHeads heads))).unread < head.unread := by
    intro head active all
    obtain ⟨member, isSome⟩ := mem_activeHeads.mp active
    obtain ⟨pending, held⟩ := Option.isSome_iff_exists.mp isSome
    exact ⟨head, member, RunHead.unread_afterEmit_lt held
      ((loaded head member).holds pending held) (all pending held)⟩
  cases cutoff : mergeCutoff key (activeHeads heads) with
  | none =>
      obtain ⟨head, active⟩ := List.exists_mem_of_ne_nil _ some'
      rw [← cutoff]
      apply finishes head active
      intro pending _
      rw [cutoff]
      rfl
  | some limit =>
      obtain ⟨⟨head, active, value⟩, _⟩ := mergeCutoff_some cutoff
      obtain ⟨_, greatest⟩ := List.max?_eq_some_iff.mp value
      rw [← cutoff]
      apply finishes head active
      intro pending held
      rw [cutoff, RunHead.emitCount, List.countP_eq_length]
      intro row member
      have bound := greatest (key row) (by
        rw [held]
        exact List.mem_map_of_mem member)
      simpa using bound

end Round

/-- A round whose tables agree on their schema; `none` once no head has rows left. -/
def emitRound (perHeadCapBytes : Nat) (merge : Merge Row) : Option (Merge Row) :=
  let heads := merge.heads.map RunHead.ensureLoaded
  let active := activeHeads heads
  if active.isEmpty then none
  else
    let cutoff := mergeCutoff arrow.key active
    let combined := arrow.sortBy (active.flatMap (RunHead.emitPart arrow.key cutoff))
    some
      { heads := heads.map (RunHead.afterEmit arrow.key cutoff)
        written := merge.written ++ storedBatches arrow combined perHeadCapBytes }

theorem emitRound_of_mergeRound {arrow : ArrowRows Row κ} {writerSchema : Schema}
    {perHeadCapBytes : Nat} {merge : Merge Row} {outcome : Option (Merge Row)}
    (round : mergeRound arrow writerSchema perHeadCapBytes merge = .ok outcome) :
    emitRound arrow perHeadCapBytes merge = outcome := by
  simp only [mergeRound] at round
  simp only [emitRound]
  split at round
  · rename_i idle
    rw [if_pos idle]
    exact Except.ok.inj round
  · rename_i busy
    rw [if_neg busy]
    split at round
    · cases round
    · split at round
      · cases round
      · exact Except.ok.inj round

namespace Merge

/-- Where a merge of the rows `total` stands: what is written is in order and comes before
everything the heads still hold. -/
structure Sorted (key : Row → κ) (total : List Row) (merge : Merge Row) : Prop where
  ready : ∀ head ∈ merge.heads, head.Ready key
  ascending : Ascending key merge.written.flatten
  below : ∀ row ∈ merge.written.flatten, ∀ head ∈ merge.heads, ∀ later ∈ head.rows,
    key row ≤ key later
  perm : (merge.written.flatten ++ merge.heads.flatMap RunHead.rows).Perm total
  stored : ∀ batch ∈ merge.written, batch ≠ []

def unread (merge : Merge Row) : Nat := (merge.heads.map RunHead.unread).sum

variable {arrow} {perHeadCapBytes : Nat} {merge next : Merge Row} {total : List Row}

theorem emitRound_eq_none (sorted : merge.Sorted arrow.key total)
    (done : emitRound arrow perHeadCapBytes merge = none) :
    merge.heads.flatMap RunHead.rows = [] := by
  simp only [emitRound] at done
  split at done
  · rename_i idle
    apply List.flatMap_eq_nil_iff.mpr
    intro head member
    have loaded := (sorted.ready head member).ensureLoaded
    have none' : head.ensureLoaded.pending = none := by
      by_contra holds
      have active : head.ensureLoaded ∈ activeHeads (merge.heads.map RunHead.ensureLoaded) :=
        mem_activeHeads.mpr ⟨List.mem_map_of_mem member, Option.isSome_iff_ne_none.mpr holds⟩
      rw [List.isEmpty_iff.mp idle] at active
      cases active
    rw [← head.rows_ensureLoaded, RunHead.rows, none', loaded.exhausted none']
    rfl
  · cases done

theorem emitRound_eq_some (round : emitRound arrow perHeadCapBytes merge = some next) :
    ∃ heads cutoff, heads = merge.heads.map RunHead.ensureLoaded ∧
      activeHeads heads ≠ [] ∧ cutoff = mergeCutoff arrow.key (activeHeads heads) ∧
      next = ⟨heads.map (RunHead.afterEmit arrow.key cutoff),
        merge.written ++ storedBatches arrow
          (arrow.sortBy (heads.flatMap (RunHead.emitPart arrow.key cutoff))) perHeadCapBytes⟩ := by
  simp only [emitRound] at round
  split at round
  · cases round
  · rename_i busy
    refine ⟨_, _, rfl, ?_, rfl, ?_⟩
    · intro idle
      rw [idle] at busy
      exact busy rfl
    · rw [← Option.some.inj round, flatMap_activeHeads]

theorem Sorted.loaded (sorted : merge.Sorted arrow.key total) :
    ∀ head ∈ merge.heads.map RunHead.ensureLoaded, head.Loaded arrow.key := by
  intro head member
  obtain ⟨before, beforeMember, isLoaded⟩ := List.mem_map.mp member
  rw [← isLoaded]
  exact (sorted.ready before beforeMember).ensureLoaded

theorem flatMap_rows_ensureLoaded (heads : List (RunHead Row)) :
    (heads.map RunHead.ensureLoaded).flatMap RunHead.rows = heads.flatMap RunHead.rows := by
  rw [List.flatMap_map]
  congr 1
  funext head
  exact head.rows_ensureLoaded

theorem flatMap_emitPart_append (key : Row → κ) (cutoff : Option κ)
    (heads : List (RunHead Row)) :
    (heads.flatMap (RunHead.emitPart key cutoff) ++
      (heads.map (RunHead.afterEmit key cutoff)).flatMap RunHead.rows).Perm
      (heads.flatMap RunHead.rows) := by
  rw [List.flatMap_map]
  apply (List.flatMap_append_perm heads _ _).trans
  apply List.Perm.of_eq
  congr 1
  funext head
  exact RunHead.emitPart_append_afterEmit

theorem Sorted.emitRound (sorted : merge.Sorted arrow.key total)
    (round : emitRound arrow perHeadCapBytes merge = some next) :
    next.Sorted arrow.key total := by
  obtain ⟨heads, cutoff, isHeads, _, isCutoff, isNext⟩ := emitRound_eq_some round
  have loaded : ∀ head ∈ heads, head.Loaded arrow.key := by
    rw [isHeads]
    exact sorted.loaded
  have sameRows : heads.flatMap RunHead.rows = merge.heads.flatMap RunHead.rows := by
    rw [isHeads]
    exact flatMap_rows_ensureLoaded merge.heads
  have below : ∀ row ∈ merge.written.flatten, ∀ later ∈ heads.flatMap RunHead.rows,
      arrow.key row ≤ arrow.key later := by
    intro row written later held
    rw [sameRows] at held
    obtain ⟨head, member, inHead⟩ := List.mem_flatMap.mp held
    exact sorted.below row written head member later inHead
  let emitted := heads.flatMap (RunHead.emitPart arrow.key cutoff)
  let kept := (heads.map (RunHead.afterEmit arrow.key cutoff)).flatMap RunHead.rows
  have split : (emitted ++ kept).Perm (heads.flatMap RunHead.rows) :=
    flatMap_emitPart_append arrow.key cutoff heads
  have combined : (arrow.sortBy emitted).Perm emitted := arrow.sortBy_perm emitted
  have emittedHeld : ∀ row ∈ arrow.sortBy emitted, row ∈ heads.flatMap RunHead.rows :=
    fun row member => split.subset (List.mem_append_left kept (combined.subset member))
  have emittedBelow : ∀ row ∈ arrow.sortBy emitted, ∀ later ∈ kept,
      arrow.key row ≤ arrow.key later := by
    intro row member later inKept
    obtain ⟨head, headMember, inHead⟩ := List.mem_flatMap.mp (combined.subset member)
    obtain ⟨after, afterMember, inAfter⟩ := List.mem_flatMap.mp inKept
    obtain ⟨other, otherMember, isAfter⟩ := List.mem_map.mp afterMember
    rw [← isAfter] at inAfter
    rw [isCutoff] at inHead inAfter
    exact emitPart_le_rows_afterEmit loaded headMember otherMember row inHead later inAfter
  have written : next.written.flatten = merge.written.flatten ++ arrow.sortBy emitted := by
    rw [isNext]
    simp only [List.flatten_append, storedBatches_flatten]
    rfl
  have nextHeads : next.heads = heads.map (RunHead.afterEmit arrow.key cutoff) := by
    rw [isNext]
  constructor
  case ready =>
    intro head member
    rw [nextHeads] at member
    obtain ⟨before, beforeMember, isAfter⟩ := List.mem_map.mp member
    rw [← isAfter]
    exact (loaded before beforeMember).toReady.afterEmit
  case ascending =>
    rw [written]
    apply sorted.ascending.append (arrow.sortBy_ascending emitted)
    intro row inWritten later inEmitted
    exact below row inWritten later (emittedHeld later inEmitted)
  case below =>
    intro row inNext head member later inHead
    have inKept : later ∈ kept := by
      rw [nextHeads] at member
      exact List.mem_flatMap.mpr ⟨head, member, inHead⟩
    rw [written] at inNext
    cases List.mem_append.mp inNext with
    | inl old => exact below row old later (split.subset (List.mem_append_right emitted inKept))
    | inr new => exact emittedBelow row new later inKept
  case perm =>
    rw [written, nextHeads, List.append_assoc]
    have resorted := (combined.append_right kept).append_left merge.written.flatten
    have moved := split.append_left merge.written.flatten
    rw [sameRows] at moved
    exact (resorted.trans moved).trans sorted.perm
  case stored =>
    intro batch member
    rw [isNext] at member
    cases List.mem_append.mp member with
    | inl old => exact sorted.stored batch old
    | inr new => exact storedBatches_ne_nil arrow _ _ batch new

theorem Sorted.unread_emitRound (sorted : merge.Sorted arrow.key total)
    (round : OutOfCore.emitRound arrow perHeadCapBytes merge = some next) :
    next.unread < merge.unread := by
  obtain ⟨heads, cutoff, isHeads, active, isCutoff, isNext⟩ := emitRound_eq_some round
  have loaded : ∀ head ∈ heads, head.Loaded arrow.key := by
    rw [isHeads]
    exact sorted.loaded
  have same : (heads.map RunHead.unread).sum = merge.unread := by
    rw [isHeads, unread, List.map_map]
    congr 1
    apply List.map_congr_left
    intro head member
    exact (sorted.ready head member).unread_ensureLoaded
  have less := exists_unread_lt loaded active
  rw [← isCutoff] at less
  rw [isNext, ← same, unread, List.map_map]
  apply List.sum_lt_sum
  · intro head _
    exact head.unread_afterEmit_le
  · exact less

end Merge

/-- A run file as both writers leave it. -/
structure OrderedRun (key : Row → κ) (run : RunFile Row) : Prop where
  ascending : Ascending key run.flatten
  stored : ∀ batch ∈ run, batch ≠ []

variable {arrow}

theorem mergeRound_uniform {schema : Schema} (perHeadCapBytes : Nat)
    {merge : Merge Row} {total : List Row} (sorted : merge.Sorted arrow.key total)
    (uniform : Uniform arrow schema total) :
    mergeRound arrow schema perHeadCapBytes merge =
      .ok (emitRound arrow perHeadCapBytes merge) := by
  have heldUniform : ∀ head ∈ merge.heads.map RunHead.ensureLoaded,
      Uniform arrow schema head.rows := by
    intro head member row inHead
    obtain ⟨before, beforeMember, rfl⟩ := List.mem_map.mp member
    rw [RunHead.rows_ensureLoaded] at inHead
    apply uniform
    apply sorted.perm.subset
    exact List.mem_append_right _ (List.mem_flatMap.mpr ⟨before, beforeMember, inHead⟩)
  have pendingUniform : Uniform arrow schema
      ((activeHeads (merge.heads.map RunHead.ensureLoaded)).map fun head =>
        head.pending.getD []).flatten := by
    intro row member
    obtain ⟨pending, inHeads, inPending⟩ := List.mem_flatten.mp member
    obtain ⟨head, active, rfl⟩ := List.mem_map.mp inHeads
    exact heldUniform head (mem_activeHeads.mp active).1 row (List.mem_append_left _ inPending)
  simp only [mergeRound, emitRound]
  split
  · rfl
  · rw [sameSchema_uniform arrow pendingUniform]
    dsimp only
    rw [checkSchemas_uniform arrow]
    intro row member
    rw [storedBatches_flatten] at member
    obtain ⟨head, active, emitted⟩ :=
      List.mem_flatMap.mp ((arrow.sortBy_perm _).mem_iff.mp member)
    apply heldUniform head (mem_activeHeads.mp active).1
    exact head.mem_rows_of_emitPart emitted

theorem mergeHeadsInto_sorts {schema : Schema} (perHeadCapBytes : Nat) {fuel : Nat}
    {merge : Merge Row} {total : List Row} (sorted : merge.Sorted arrow.key total)
    (uniform : Uniform arrow schema total) (enough : merge.unread < fuel) :
    ∃ run, mergeHeadsInto arrow schema perHeadCapBytes fuel merge = some (.ok run) ∧
      OrderedRun arrow.key run ∧ run.flatten.Perm total := by
  induction fuel generalizing merge with
  | zero => omega
  | succ fuel ih =>
      have checked := mergeRound_uniform perHeadCapBytes sorted uniform
      cases round : emitRound arrow perHeadCapBytes merge with
      | none =>
          have drained := Merge.emitRound_eq_none sorted round
          have perm := sorted.perm
          rw [drained, List.append_nil] at perm
          refine ⟨merge.written, ?_, ⟨sorted.ascending, sorted.stored⟩, perm⟩
          simp only [mergeHeadsInto, checked, round]
      | some next =>
          have less := sorted.unread_emitRound round
          obtain ⟨run, merged, ordered, perm⟩ := ih (sorted.emitRound round) (by omega)
          refine ⟨run, ?_, ordered, perm⟩
          simp only [mergeHeadsInto, checked, round]
          exact merged

end DecoyEngine.Execution.OutOfCore
