import DecoyEngine.Execution.OutOfCore.SorterSteps

namespace DecoyEngine.Execution.OutOfCore

open DecoyEngine.Data

/-! What the sorter holds in memory, in bytes, at any of its steps. -/

variable {Row κ : Type*} [LinearOrder κ]

/-- Arrow reports for rows, and for a slice of them, what they take one by one. -/
structure ArrowRows.AdditiveBytes (arrow : ArrowRows Row κ) (rowBytes : Row → Nat) : Prop where
  nbytes_eq : ∀ rows, arrow.nbytes rows = (rows.map rowBytes).sum
  sliceBytes_eq : ∀ batch offset count, offset + count ≤ batch.length →
    arrow.sliceBytes batch offset count = ((slice batch (offset, count)).map rowBytes).sum

variable {arrow : ArrowRows Row κ} {rowBytes : Row → Nat}

namespace ArrowRows.AdditiveBytes

variable (additive : arrow.AdditiveBytes rowBytes)

include additive

theorem nbytes_nil : arrow.nbytes [] = 0 := additive.nbytes_eq []

theorem nbytes_singleton (row : Row) : arrow.nbytes [row] = rowBytes row := by
  rw [additive.nbytes_eq, List.map_singleton, List.sum_singleton]

theorem nbytes_append (front back : List Row) :
    arrow.nbytes (front ++ back) = arrow.nbytes front + arrow.nbytes back := by
  rw [additive.nbytes_eq, List.map_append, List.sum_append, additive.nbytes_eq,
    additive.nbytes_eq]

theorem nbytes_flatMap {α : Type*} (part : α → List Row) (items : List α) :
    arrow.nbytes (items.flatMap part) = (items.map fun item => arrow.nbytes (part item)).sum := by
  induction items with
  | nil => exact additive.nbytes_nil
  | cons item items ih =>
      rw [List.flatMap_cons, additive.nbytes_append, ih, List.map_cons, List.sum_cons]

theorem nbytes_perm {left right : List Row} (perm : left.Perm right) :
    arrow.nbytes left = arrow.nbytes right := by
  rw [additive.nbytes_eq, additive.nbytes_eq]
  exact (perm.map rowBytes).sum_eq

theorem nbytes_sublist {left right : List Row} (sublist : left.Sublist right) :
    arrow.nbytes left ≤ arrow.nbytes right := by
  rw [additive.nbytes_eq, additive.nbytes_eq]
  exact (sublist.map rowBytes).sum_le_sum fun _ _ => Nat.zero_le _

theorem rowBytes_le {row : Row} {rows : List Row} (member : row ∈ rows) :
    rowBytes row ≤ arrow.nbytes rows := by
  rw [← additive.nbytes_singleton]
  exact additive.nbytes_sublist (List.singleton_sublist.mpr member)

end ArrowRows.AdditiveBytes

theorem bisectViews_small (sliceBytes : Nat → Nat → Nat) (maxBytes : Nat)
    {fuel offset count : Nat} :
    ∀ view ∈ bisectViews sliceBytes maxBytes fuel offset count,
      view.2 = 1 ∨ sliceBytes view.1 view.2 ≤ maxBytes := by
  induction fuel generalizing offset count with
  | zero =>
      intro view member
      cases member
  | succ fuel ih =>
      intro view member
      rw [bisectViews] at member
      split at member
      · cases member
      · split at member
        · rename_i done
          rw [List.mem_singleton.mp member]
          exact done
        · cases List.mem_append.mp member with
          | inl left => exact ih view left
          | inr right => exact ih view right

section Views

variable (additive : arrow.AdditiveBytes rowBytes) {batch : List Row} {maxBytes : Nat}

include additive

theorem iterBoundedViews_small :
    ∀ view ∈ iterBoundedViews arrow batch maxBytes,
      (∃ row, view = [row]) ∨ arrow.nbytes view ≤ maxBytes := by
  intro rows member
  obtain ⟨view, inViews, rfl⟩ := List.mem_map.mp member
  obtain ⟨positive, within⟩ := bisectViews_within _ _ view inViews
  rw [Nat.zero_add] at within
  cases bisectViews_small _ _ view inViews with
  | inl single =>
      left
      have length : (slice batch view).length = 1 := by
        rw [slice, List.length_take, List.length_drop]
        omega
      exact List.length_eq_one_iff.mp length
  | inr small =>
      right
      rw [additive.nbytes_eq, ← additive.sliceBytes_eq batch view.1 view.2 within]
      exact small

theorem iterBoundedViews_within (fits : ∀ row ∈ batch, rowBytes row ≤ maxBytes) :
    ∀ view ∈ iterBoundedViews arrow batch maxBytes, arrow.nbytes view ≤ maxBytes := by
  intro view member
  cases iterBoundedViews_small additive view member with
  | inr small => exact small
  | inl single =>
      obtain ⟨row, rfl⟩ := single
      have inBatch : row ∈ batch := by
        rw [← iterBoundedViews_flatten arrow batch maxBytes]
        exact List.mem_flatten_of_mem member List.mem_cons_self
      rw [additive.nbytes_singleton]
      exact fits row inBatch

theorem storedBatches_within {table : List Row} (fits : ∀ row ∈ table, rowBytes row ≤ maxBytes) :
    ∀ batch ∈ storedBatches arrow table maxBytes, arrow.nbytes batch ≤ maxBytes := by
  intro view member
  obtain ⟨chunk, inChunks, inViews⟩ := List.mem_flatMap.mp (List.mem_of_mem_filter member)
  apply iterBoundedViews_within additive _ view inViews
  intro row inChunk
  apply fits
  rw [← arrow.toBatches_flatten table]
  exact List.mem_flatten_of_mem inChunks inChunk

end Views

/-- Every batch of a run fits a merge head. -/
def RunWithin (arrow : ArrowRows Row κ) (cap : Nat) (run : RunFile Row) : Prop :=
  ∀ batch ∈ run, arrow.nbytes batch ≤ cap

structure RunHead.Within (arrow : ArrowRows Row κ) (cap : Nat) (head : RunHead Row) : Prop where
  pending : arrow.nbytes (head.pending.getD []) ≤ cap
  stored : RunWithin arrow cap head.stored

/-- A group that one merge opens at once. -/
structure GroupWithin (arrow : ArrowRows Row κ) (limits : SorterLimits)
    (group : List (RunFile Row)) : Prop where
  fanIn : group.length ≤ limits.mergeFanIn
  runs : ∀ run ∈ group, RunWithin arrow limits.perHeadCapBytes run

structure Merge.Within (arrow : ArrowRows Row κ) (limits : SorterLimits)
    (merge : Merge Row) : Prop where
  fanIn : merge.heads.length ≤ limits.mergeFanIn
  heads : ∀ head ∈ merge.heads, head.Within arrow limits.perHeadCapBytes
  written : RunWithin arrow limits.perHeadCapBytes merge.written

/-- The caps that a sorter keeps at every point: its buffer within the run cap and accounted to the
byte, and every batch that it stores within the share of one merge head. -/
structure Sorter.Within (arrow : ArrowRows Row κ) (limits : SorterLimits)
    (sorter : Sorter Row) : Prop where
  sameLimits : sorter.limits = limits
  accounted : sorter.bufferedBytes = arrow.nbytes sorter.buffered.flatten
  buffer : sorter.bufferedBytes ≤ limits.runBytesCap
  views : RunWithin arrow limits.perHeadCapBytes sorter.buffered
  runs : ∀ run ∈ sorter.runs ++ sorter.finalRun.toList, RunWithin arrow limits.perHeadCapBytes run

def Activity.Within (arrow : ArrowRows Row κ) (limits : SorterLimits) : Activity Row → Prop
  | .idle | .writing _ => True
  | .betweenPasses runs => ∀ run ∈ runs, RunWithin arrow limits.perHeadCapBytes run
  | .passing groups nextRuns =>
      (∀ group ∈ groups, GroupWithin arrow limits group) ∧
        ∀ run ∈ nextRuns, RunWithin arrow limits.perHeadCapBytes run
  | .merging _ group groups nextRuns merge =>
      (∀ members ∈ group :: groups, GroupWithin arrow limits members) ∧
        (∀ run ∈ nextRuns, RunWithin arrow limits.perHeadCapBytes run) ∧
        merge.Within arrow limits

structure SorterState.Within (arrow : ArrowRows Row κ) (limits : SorterLimits)
    (state : SorterState Row) : Prop where
  sorter : state.sorter.Within arrow limits
  activity : state.activity.Within arrow limits

theorem SorterLimits.perHeadCap_le (limits : SorterLimits) :
    limits.perHeadCapBytes ≤ limits.runBytesCap := Nat.div_le_self _ _

section Frame

variable {sorter next left : Sorter Row} {schema : Schema} {batch : List Row} {error : SortError}

theorem checkKeyType_frame (sorter : Sorter Row) (found : ArrowType) :
    ∃ keyType, Sorter.standing (sorter.checkKeyType found) =
      { sorter with keyType := keyType } := by
  rw [Sorter.checkKeyType]
  split
  · split
    · exact ⟨some found, rfl⟩
    · exact ⟨sorter.keyType, rfl⟩
  · split <;> exact ⟨sorter.keyType, rfl⟩

variable (arrow sorter schema batch) in
theorem validateKey_frame :
    ∃ keyType, Sorter.standing (sorter.validateKey arrow schema batch) =
      { sorter with keyType := keyType } := by
  rw [Sorter.validateKey]
  split
  · exact ⟨sorter.keyType, rfl⟩
  · rename_i found _
    obtain ⟨keyType, checked⟩ := checkKeyType_frame sorter found
    refine ⟨keyType, ?_⟩
    rw [← checked]
    cases sorter.checkKeyType found with
    | error raised => rfl
    | ok keyed =>
        simp only [bind, Except.bind]
        split <;> rfl
  · exact ⟨sorter.keyType, rfl⟩

variable (sorter schema) in
theorem adoptSchema_frame :
    ∃ adopted, Sorter.standing (sorter.adoptSchema schema) = { sorter with schema := adopted } := by
  simp only [Sorter.adoptSchema]
  split
  · exact ⟨sorter.schema, rfl⟩
  · split
    · exact ⟨sorter.schema, rfl⟩
    · exact ⟨some schema, rfl⟩

variable (arrow sorter batch) in
/-- The checks before the loop over the views touch the key type and the schema only. -/
theorem beginWrite_frame :
    ∃ keyType adopted,
      Sorter.standing ((sorter.beginWrite arrow batch).map Prod.fst) =
        { sorter with keyType := keyType, schema := adopted } := by
  cases batch with
  | nil =>
      rw [Sorter.beginWrite]
      split <;> exact ⟨sorter.keyType, sorter.schema, rfl⟩
  | cons row rest =>
      rw [Sorter.beginWrite]
      split
      · exact ⟨sorter.keyType, sorter.schema, rfl⟩
      · dsimp only
        obtain ⟨keyType, validated⟩ :=
          validateKey_frame arrow sorter (arrow.schema row) (row :: rest)
        cases valid : sorter.validateKey arrow (arrow.schema row) (row :: rest) with
        | error raised =>
            rw [valid] at validated
            exact ⟨keyType, sorter.schema, validated⟩
        | ok keyed =>
            rw [valid] at validated
            obtain ⟨adopted, same⟩ := adoptSchema_frame keyed (arrow.schema row)
            refine ⟨keyType, adopted, ?_⟩
            obtain rfl : keyed = { sorter with keyType := keyType } := validated
            rw [← same]
            simp only [bind, Except.bind]
            cases Sorter.adoptSchema { sorter with keyType := keyType } (arrow.schema row) <;> rfl

theorem beginWrite_error (begun : sorter.beginWrite arrow batch = .error (error, left)) :
    ∃ keyType adopted, left = { sorter with keyType := keyType, schema := adopted } := by
  obtain ⟨keyType, adopted, same⟩ := beginWrite_frame arrow sorter batch
  rw [begun] at same
  exact ⟨keyType, adopted, same⟩

theorem beginWrite_ok {views : List (List Row)}
    (begun : sorter.beginWrite arrow batch = .ok (next, views)) :
    (∃ keyType adopted, next = { sorter with keyType := keyType, schema := adopted }) ∧
      views = iterBoundedViews arrow batch sorter.limits.perHeadCapBytes := by
  obtain ⟨keyType, adopted, same⟩ := beginWrite_frame arrow sorter batch
  rw [begun] at same
  obtain rfl : next = { sorter with keyType := keyType, schema := adopted } := same
  refine ⟨⟨keyType, adopted, rfl⟩, ?_⟩
  cases batch with
  | nil =>
      rw [Sorter.beginWrite] at begun
      split at begun
      · cases begun
      · obtain ⟨-, rfl⟩ := Prod.mk.inj (Except.ok.inj begun)
        rfl
  | cons row rest =>
      rw [Sorter.beginWrite] at begun
      split at begun
      · cases begun
      · dsimp only at begun
        cases valid : sorter.validateKey arrow (arrow.schema row) (row :: rest) with
        | error raised =>
            rw [valid] at begun
            cases begun
        | ok keyed =>
            cases typed : keyed.adoptSchema (arrow.schema row) with
            | error raised =>
                simp only [valid, typed, bind, Except.bind] at begun
                cases begun
            | ok ready =>
                simp only [valid, typed, bind, Except.bind] at begun
                cases begun
                rfl

end Frame

/-- Arrow refuses to put two rows of the buffer under one schema. -/
def Refused (arrow : ArrowRows Row κ) (rows : List Row) (error : SortError) : Prop :=
  ∃ first ∈ rows, ∃ other ∈ rows, arrow.schema first ≠ arrow.schema other ∧
    error = .arrowInvalid (arrow.schema first) (arrow.schema other)

theorem flush_error {sorter left : Sorter Row} {error : SortError}
    (raised : sorter.flush arrow = .error (error, left)) :
    left = sorter ∧ sorter.buffered ≠ [] ∧ Refused arrow sorter.buffered.flatten error := by
  rw [Sorter.flush] at raised
  split at raised
  · cases raised
  · rename_i buffering
    split at raised
    · rename_i invalid refused
      cases raised
      exact ⟨rfl, buffering, sameSchema_error arrow refused⟩
    · cases raised

namespace Sorter.Within

variable {limits : SorterLimits} {sorter : Sorter Row} {view : List Row}

/-- The checks of a batch and the rows that a sorter has finished with do not count. -/
theorem frame (within : sorter.Within arrow limits) (keyType : Option ArrowType)
    (schema : Option Schema) :
    { sorter with keyType := keyType, schema := schema }.Within arrow limits :=
  ⟨within.sameLimits, within.accounted, within.buffer, within.views, within.runs⟩

theorem unlinkGroup (within : sorter.Within arrow limits) :
    sorter.unlinkGroup.Within arrow limits :=
  ⟨within.sameLimits, within.accounted, within.buffer, within.views, within.runs⟩

theorem close (within : sorter.Within arrow limits) : sorter.close.Within arrow limits := by
  refine ⟨within.sameLimits, within.accounted, within.buffer, within.views, ?_⟩
  intro run member
  cases member

variable (additive : arrow.AdditiveBytes rowBytes)

include additive

theorem init (limits : SorterLimits) (sortKeyColumn : String) :
    (Sorter.init limits sortKeyColumn).Within arrow limits := by
  constructor
  case sameLimits => rfl
  case accounted => exact additive.nbytes_nil.symm
  case buffer => exact Nat.zero_le _
  all_goals
    intro _ member
    cases member

theorem rowBytes_le (within : sorter.Within arrow limits) :
    ∀ row ∈ sorter.buffered.flatten, rowBytes row ≤ limits.perHeadCapBytes := by
  intro row member
  obtain ⟨view, inBuffer, inView⟩ := List.mem_flatten.mp member
  exact (additive.rowBytes_le inView).trans (within.views view inBuffer)

theorem spill (within : sorter.Within arrow limits) : (sorter.spill arrow).Within arrow limits := by
  have fits : ∀ row ∈ arrow.sortBy sorter.buffered.flatten,
      rowBytes row ≤ limits.perHeadCapBytes := by
    intro row member
    exact within.rowBytes_le additive row ((arrow.sortBy_perm _).mem_iff.mp member)
  constructor
  case sameLimits => exact within.sameLimits
  case accounted => exact additive.nbytes_nil.symm
  case buffer => exact Nat.zero_le _
  case views =>
    intro view member
    cases member
  case runs =>
    intro run member
    rw [Sorter.spill, List.append_assoc, List.mem_append, List.mem_append] at member
    rcases member with old | new | final
    · exact within.runs run (List.mem_append_left _ old)
    · rw [List.mem_singleton.mp new, within.sameLimits]
      exact storedBatches_within additive fits
    · exact within.runs run (List.mem_append_right _ final)

theorem flush {flushed : Sorter Row} (within : sorter.Within arrow limits)
    (isFlushed : sorter.flush arrow = .ok flushed) :
    flushed.Within arrow limits ∧ flushed.bufferedBytes = 0 := by
  obtain ⟨empty, rfl⟩ | ⟨-, rfl⟩ := Sorter.flush_ok isFlushed
  · refine ⟨within, ?_⟩
    rw [within.accounted, empty]
    exact additive.nbytes_nil
  · exact ⟨within.spill additive, rfl⟩

theorem push (within : sorter.Within arrow limits)
    (fits : arrow.nbytes view ≤ limits.perHeadCapBytes)
    (room : sorter.bufferedBytes + arrow.nbytes view ≤ limits.runBytesCap) :
    (sorter.push arrow view).Within arrow limits := by
  constructor
  case sameLimits => exact within.sameLimits
  case accounted =>
    rw [Sorter.push]
    dsimp only
    rw [List.flatten_append, List.flatten_singleton, additive.nbytes_append, within.accounted]
  case buffer => exact room
  case views =>
    intro other member
    rcases List.mem_append.mp member with old | new
    · exact within.views other old
    · rw [List.mem_singleton.mp new]
      exact fits
  case runs => exact within.runs

end Sorter.Within

/-- What a view does to a sorter: it raises over its width and is not taken, it raises in the
flush that would have made room, or it is buffered. -/
theorem bufferView_cases (arrow : ArrowRows Row κ) (sorter : Sorter Row) (view : List Row) :
    sorter.limits.perHeadCapBytes < arrow.nbytes view ∧
      sorter.bufferView arrow view =
        .error (.rowTooWide (arrow.nbytes view) sorter.limits.perHeadCapBytes, sorter) ∨
    arrow.nbytes view ≤ sorter.limits.perHeadCapBytes ∧
      ((∃ error, Refused arrow sorter.buffered.flatten error ∧
          sorter.bufferView arrow view = .error (error, sorter)) ∨
        (sorter.buffered = [] ∨
            sorter.bufferedBytes + arrow.nbytes view ≤ sorter.limits.runBytesCap) ∧
          sorter.bufferView arrow view = .ok (sorter.push arrow view) ∨
        ∃ flushed, sorter.flush arrow = .ok flushed ∧
          sorter.bufferView arrow view = .ok (flushed.push arrow view)) := by
  by_cases wide : sorter.limits.perHeadCapBytes < arrow.nbytes view
  · exact Or.inl ⟨wide, by rw [Sorter.bufferView]; exact if_pos wide⟩
  · refine Or.inr ⟨Nat.not_lt.mp wide, ?_⟩
    simp only [Sorter.bufferView, if_neg wide]
    split
    · rename_i full
      cases flushed : sorter.flush arrow with
      | error raised =>
          obtain ⟨rfl, -, refused⟩ := flush_error flushed
          exact Or.inl ⟨raised.1, refused, rfl⟩
      | ok emptied => exact Or.inr (Or.inr ⟨emptied, rfl, rfl⟩)
    · rename_i free
      refine Or.inr (Or.inl ⟨?_, rfl⟩)
      by_cases buffering : sorter.buffered = []
      · exact Or.inl buffering
      · exact Or.inr (Nat.not_lt.mp fun full => free ⟨buffering, full⟩)

/-- A view that would not fit is buffered after a flush: the buffer is spilled before it
would pass the cap. -/
theorem Sorter.Within.bufferView {limits : SorterLimits} {sorter : Sorter Row}
    (additive : arrow.AdditiveBytes rowBytes) (within : sorter.Within arrow limits)
    (view : List Row) :
    (Sorter.standing (sorter.bufferView arrow view)).Within arrow limits := by
  obtain ⟨-, raised⟩ |
      ⟨fits, ⟨error, -, raised⟩ | ⟨room, buffered⟩ | ⟨flushed, isFlushed, buffered⟩⟩ :=
    bufferView_cases arrow sorter view
  · rw [raised]
    exact within
  · rw [raised]
    exact within
  · rw [buffered]
    rw [within.sameLimits] at fits room
    refine within.push additive fits ?_
    rcases room with empty | room
    · rw [within.accounted, empty, List.flatten_nil, additive.nbytes_nil, Nat.zero_add]
      exact fits.trans limits.perHeadCap_le
    · exact room
  · rw [buffered]
    rw [within.sameLimits] at fits
    obtain ⟨kept, emptied⟩ := within.flush additive isFlushed
    refine kept.push additive fits ?_
    rw [emptied, Nat.zero_add]
    exact fits.trans limits.perHeadCap_le

namespace RunHead

variable {cap : Nat} {head : RunHead Row}

theorem openRun_within (additive : arrow.AdditiveBytes rowBytes) {run : RunFile Row}
    (within : RunWithin arrow cap run) : (openRun run).Within arrow cap := by
  constructor
  · exact additive.nbytes_nil.le.trans (Nat.zero_le cap)
  · exact within

theorem Within.ensureLoaded (within : head.Within arrow cap) :
    head.ensureLoaded.Within arrow cap := by
  obtain ⟨stored, pending⟩ := head
  rcases pending with _ | _ | ⟨row, rest⟩
  case some.cons => exact within
  all_goals
    cases stored with
    | nil => exact ⟨within.pending, within.stored⟩
    | cons batch later =>
        constructor
        · exact within.stored batch List.mem_cons_self
        · intro other member
          exact within.stored other (List.mem_cons_of_mem _ member)

theorem Within.afterEmit (additive : arrow.AdditiveBytes rowBytes)
    (within : head.Within arrow cap) (cutoff : Option κ) :
    (head.afterEmit arrow.key cutoff).Within arrow cap := by
  constructor
  · refine Nat.le_trans (additive.nbytes_sublist ?_) within.pending
    cases held : head.pending with
    | none =>
        simp only [RunHead.afterEmit, held]
        exact List.Sublist.refl _
    | some pending =>
        simp only [RunHead.afterEmit, held, getD_pending_setRemaining, Option.getD_some]
        exact List.drop_sublist _ _
  · rw [stored_afterEmit]
    exact within.stored

theorem emitPart_sublist (key : Row → κ) (cutoff : Option κ) (head : RunHead Row) :
    (head.emitPart key cutoff).Sublist (head.pending.getD []) := by
  cases held : head.pending with
  | none =>
      simp only [emitPart, held]
      exact List.nil_sublist _
  | some pending =>
      simp only [emitPart, held]
      exact List.take_sublist _ _

end RunHead

/-- What the loaded heads of a merge take. -/
def residentBytes (arrow : ArrowRows Row κ) (heads : List (RunHead Row)) : Nat :=
  ((activeHeads heads).map fun head => arrow.nbytes (head.pending.getD [])).sum

theorem residentBytes_le {limits : SorterLimits} {heads : List (RunHead Row)}
    (fanIn : heads.length ≤ limits.mergeFanIn)
    (within : ∀ head ∈ heads, head.Within arrow limits.perHeadCapBytes) :
    residentBytes arrow heads ≤ limits.mergeFanIn * limits.perHeadCapBytes := by
  have perHead : ∀ bytes ∈ (activeHeads heads).map
      (fun head => arrow.nbytes (head.pending.getD [])), bytes ≤ limits.perHeadCapBytes := by
    intro bytes member
    obtain ⟨head, active, rfl⟩ := List.mem_map.mp member
    exact (within head (List.mem_of_mem_filter active)).pending
  have count : (activeHeads heads).length ≤ limits.mergeFanIn :=
    (List.length_filter_le _ _).trans fanIn
  have total := List.sum_le_card_nsmul _ _ perHead
  rw [List.length_map, Nat.nsmul_eq_mul] at total
  exact total.trans (Nat.mul_le_mul_right _ count)

section Round

variable {limits : SorterLimits} {merge next : Merge Row}

/-- The rows one round emits, sorted together: the only copy a round makes. -/
def Merge.gather (arrow : ArrowRows Row κ) (merge : Merge Row) : List Row :=
  let heads := merge.heads.map RunHead.ensureLoaded
  arrow.sortBy (heads.flatMap (RunHead.emitPart arrow.key
    (mergeCutoff arrow.key (activeHeads heads))))

theorem Merge.Within.loaded (within : merge.Within arrow limits) :
    ∀ head ∈ merge.heads.map RunHead.ensureLoaded, head.Within arrow limits.perHeadCapBytes := by
  intro head member
  obtain ⟨resting, inMerge, rfl⟩ := List.mem_map.mp member
  exact (within.heads resting inMerge).ensureLoaded

variable (additive : arrow.AdditiveBytes rowBytes)

include additive

theorem Merge.Within.gather_fits (within : merge.Within arrow limits) :
    ∀ row ∈ merge.gather arrow, rowBytes row ≤ limits.perHeadCapBytes := by
  intro row member
  obtain ⟨head, loaded, emitted⟩ :=
    List.mem_flatMap.mp ((arrow.sortBy_perm _).mem_iff.mp member)
  have inPending := (RunHead.emitPart_sublist _ _ head).subset emitted
  exact (additive.rowBytes_le inPending).trans (within.loaded head loaded).pending

theorem Merge.Within.emitRound (within : merge.Within arrow limits)
    (round : emitRound arrow limits.perHeadCapBytes merge = some next) :
    next.Within arrow limits := by
  have fits := within.gather_fits additive
  obtain ⟨heads, cutoff, rfl, -, rfl, rfl⟩ := emitRound_eq_some round
  constructor
  case fanIn =>
    rw [List.length_map, List.length_map]
    exact within.fanIn
  case heads =>
    intro head member
    obtain ⟨loaded, inHeads, rfl⟩ := List.mem_map.mp member
    exact (within.loaded loaded inHeads).afterEmit additive _
  case written =>
    intro batch member
    rcases List.mem_append.mp member with old | new
    · exact within.written batch old
    · exact storedBatches_within additive fits batch new

theorem Merge.gather_le_resident (merge : Merge Row) :
    arrow.nbytes (merge.gather arrow) ≤
      residentBytes arrow (merge.heads.map RunHead.ensureLoaded) := by
  rw [Merge.gather, additive.nbytes_perm (arrow.sortBy_perm _), ← flatMap_activeHeads,
    additive.nbytes_flatMap, residentBytes]
  apply List.sum_le_sum
  intro head _
  exact additive.nbytes_sublist (RunHead.emitPart_sublist _ _ head)

/-- The heads and the round's copy of them together stay under the cap of the whole sorter. -/
theorem Merge.Within.peak_le_cap (within : merge.Within arrow limits) :
    residentBytes arrow (merge.heads.map RunHead.ensureLoaded) +
      arrow.nbytes (merge.gather arrow) ≤ limits.runBytesCap := by
  have resident : residentBytes arrow (merge.heads.map RunHead.ensureLoaded) ≤
      limits.mergeFanIn * limits.perHeadCapBytes := by
    apply residentBytes_le _ within.loaded
    rw [List.length_map]
    exact within.fanIn
  have gathered := merge.gather_le_resident additive
  have twice : limits.perHeadCapBytes * (2 * limits.mergeFanIn) ≤ limits.runBytesCap :=
    Nat.div_mul_le_self _ _
  have shared : limits.perHeadCapBytes * (2 * limits.mergeFanIn) =
      2 * (limits.mergeFanIn * limits.perHeadCapBytes) := by
    rw [Nat.mul_comm, Nat.mul_assoc]
  omega

end Round

section Steps

variable {limits : SorterLimits} {sorter : Sorter Row} {state next : SorterState Row}

theorem rangeSlices_within {runs : List (RunFile Row)}
    (within : ∀ run ∈ runs, RunWithin arrow limits.perHeadCapBytes run) :
    ∀ group ∈ rangeSlices limits.mergeFanIn runs, GroupWithin arrow limits group := by
  intro group member
  obtain ⟨short, sublist⟩ := of_mem_rangeSlices member
  constructor
  · exact short
  · intro run inGroup
    exact within run (sublist.subset inGroup)

theorem stepPasses_within {runs : List (RunFile Row)} (within : sorter.Within arrow limits)
    (stored : ∀ run ∈ runs, RunWithin arrow limits.perHeadCapBytes run) :
    (stepPasses sorter runs).Within arrow limits := by
  rw [stepPasses]
  split
  · constructor
    · exact within
    · constructor
      · rw [within.sameLimits]
        exact rangeSlices_within stored
      · intro run member
        cases member
  · constructor
    · refine ⟨within.sameLimits, within.accounted, within.buffer, within.views, ?_⟩
      intro run member
      rw [Sorter.sealWith] at member
      rcases List.mem_append.mp member with old | final
      · exact within.runs run (List.mem_append_left _ old)
      · exact stored run (List.mem_of_mem_head? (Option.mem_toList.mp final))
    · exact trivial

variable (additive : arrow.AdditiveBytes rowBytes)

include additive

theorem stepView_within (within : sorter.Within arrow limits) (view : List Row)
    (views : List (List Row)) : (stepView arrow sorter view views).Within arrow limits := by
  have kept := within.bufferView additive view
  rw [stepView]
  cases buffered : sorter.bufferView arrow view with
  | error raised =>
      rw [buffered] at kept
      exact ⟨kept, trivial⟩
  | ok next =>
      rw [buffered] at kept
      exact ⟨kept, trivial⟩

theorem openRuns_within {group : List (RunFile Row)} (within : GroupWithin arrow limits group) :
    (⟨group.map RunHead.openRun, []⟩ : Merge Row).Within arrow limits := by
  constructor
  case fanIn =>
    rw [List.length_map]
    exact within.fanIn
  case heads =>
    intro head member
    obtain ⟨run, inGroup, rfl⟩ := List.mem_map.mp member
    exact RunHead.openRun_within additive (within.runs run inGroup)
  case written =>
    intro batch member
    cases member

theorem stepGroup_within {group : List (RunFile Row)} {groups : List (List (RunFile Row))}
    {nextRuns : List (RunFile Row)} (within : sorter.Within arrow limits)
    (pending : ∀ members ∈ group :: groups, GroupWithin arrow limits members)
    (merged : ∀ run ∈ nextRuns, RunWithin arrow limits.perHeadCapBytes run) :
    (stepGroup sorter group groups nextRuns).Within arrow limits := by
  have opened := openRuns_within additive (pending group List.mem_cons_self)
  rw [stepGroup.eq_def]
  split
  · rename_i run
    refine ⟨within, fun members later => pending members (List.mem_cons_of_mem _ later), ?_⟩
    intro stored member
    rcases List.mem_append.mp member with old | new
    · exact merged stored old
    · exact (pending [run] List.mem_cons_self).runs stored new
  · split
    · exact ⟨within, trivial⟩
    · exact ⟨within, pending, merged, opened⟩

theorem stepRound_within {writerSchema : Schema} {group : List (RunFile Row)}
    {groups : List (List (RunFile Row))} {nextRuns : List (RunFile Row)} {merge : Merge Row}
    (within : sorter.Within arrow limits)
    (pending : ∀ members ∈ group :: groups, GroupWithin arrow limits members)
    (merged : ∀ run ∈ nextRuns, RunWithin arrow limits.perHeadCapBytes run)
    (merging : merge.Within arrow limits) :
    (stepRound arrow sorter writerSchema group groups nextRuns merge).Within arrow limits := by
  rw [stepRound]
  split
  · exact ⟨within, trivial⟩
  · refine ⟨within.unlinkGroup, fun members later => pending members (List.mem_cons_of_mem _ later),
      ?_⟩
    intro stored member
    rcases List.mem_append.mp member with old | new
    · exact merged stored old
    · rw [List.mem_singleton.mp new]
      exact merging.written
  · rename_i next round
    rw [within.sameLimits] at round
    exact ⟨within, pending, merged, merging.emitRound additive (emitRound_of_mergeRound round)⟩

theorem SorterState.Within.advance (within : state.Within arrow limits)
    (advanced : state.advance arrow = some next) : next.Within arrow limits := by
  obtain ⟨sorter, activity⟩ := state
  obtain ⟨kept, active⟩ := within
  cases activity with
  | idle => cases advanced
  | writing views =>
      cases views with
      | nil =>
          cases advanced
          exact ⟨kept, trivial⟩
      | cons view views =>
          cases advanced
          exact stepView_within additive kept view views
  | betweenPasses runs =>
      cases advanced
      exact stepPasses_within kept active
  | passing groups nextRuns =>
      obtain ⟨pending, merged⟩ := active
      cases groups with
      | nil =>
          cases advanced
          exact ⟨kept, merged⟩
      | cons group groups =>
          cases advanced
          exact stepGroup_within additive kept pending merged
  | merging writerSchema group groups nextRuns merge =>
      cases advanced
      exact stepRound_within additive kept active.1 active.2.1 active.2.2

theorem Sorter.Within.enter (within : sorter.Within arrow limits) (call : Call Row) :
    (call.enter arrow sorter).Within arrow limits := by
  cases call with
  | write batch =>
      rw [Call.enter]
      split
      · rename_i error left begun
        obtain ⟨keyType, adopted, rfl⟩ := beginWrite_error begun
        exact ⟨within.frame keyType adopted, trivial⟩
      · rename_i taken views begun
        obtain ⟨⟨keyType, adopted, rfl⟩, -⟩ := beginWrite_ok begun
        exact ⟨within.frame keyType adopted, trivial⟩
  | finish =>
      rw [Call.enter]
      split
      · exact ⟨within, trivial⟩
      · split
        · rename_i error left raised
          obtain ⟨rfl, -⟩ := flush_error raised
          exact ⟨within, trivial⟩
        · rename_i flushed isFlushed
          have kept := (within.flush additive isFlushed).1
          split
          · exact ⟨kept, trivial⟩
          · exact ⟨kept, fun run member => kept.runs run (List.mem_append_left _ member)⟩
  | close => exact ⟨within.close, trivial⟩

theorem SorterState.Within.reaches (within : state.Within arrow limits)
    (reached : SorterReaches arrow state next) : next.Within arrow limits := by
  induction reached with
  | refl => exact within
  | tail _ step kept =>
      cases step with
      | call sorter call => exact kept.sorter.enter additive call
      | advance advanced => exact kept.advance additive advanced

end Steps

end DecoyEngine.Execution.OutOfCore
