import DecoyEngine.Execution.OutOfCore.SorterMemory

namespace DecoyEngine.Execution.OutOfCore

open DecoyEngine.Data

variable {Row κ : Type*} [LinearOrder κ] {arrow : ArrowRows Row κ} {rowBytes : Row → Nat}

namespace Sorter

variable {sorter : Sorter Row} {view : List Row} {batch : List Row}

/-- The rows that `finish` would merge. -/
def held (sorter : Sorter Row) : List Row := sorter.runs.flatten.flatten ++ sorter.buffered.flatten

theorem held_flush {flushed : Sorter Row} (isFlushed : sorter.flush arrow = .ok flushed) :
    flushed.held.Perm sorter.held ∧ flushed.limits = sorter.limits := by
  obtain ⟨-, rfl⟩ | ⟨-, rfl⟩ := flush_ok isFlushed
  · exact ⟨List.Perm.refl _, rfl⟩
  · refine ⟨?_, rfl⟩
    rw [held, held, spill]
    simp only [List.flatten_append, List.flatten_singleton, storedBatches_flatten,
      List.flatten_nil, List.append_nil]
    exact (arrow.sortBy_perm _).append_left _

theorem held_push : (sorter.push arrow view).held = sorter.held ++ view := by
  simp only [held, push, List.flatten_append, List.flatten_singleton, List.append_assoc]

/-- The loop over `views` raises: at a view over the cap, or in a flush in front of a view.  No
view in front of it is over the cap, and those views are taken in. -/
def LoopRaises (arrow : ArrowRows Row κ) (sorter : Sorter Row) (views : List (List Row)) : Prop :=
  ∃ error left front view back, views = front ++ view :: back ∧
    (∀ taken ∈ front, arrow.nbytes taken ≤ sorter.limits.perHeadCapBytes) ∧
    views.foldlM (bufferView arrow) sorter = .error (error, left) ∧
    left.held.Perm (sorter.held ++ front.flatten) ∧
    (Refused arrow left.held error ∨
      sorter.limits.perHeadCapBytes < arrow.nbytes view ∧
        error = .rowTooWide (arrow.nbytes view) sorter.limits.perHeadCapBytes)

theorem LoopRaises.cons {next : Sorter Row} {views : List (List Row)}
    (fits : arrow.nbytes view ≤ sorter.limits.perHeadCapBytes)
    (buffered : sorter.bufferView arrow view = .ok next)
    (sameLimits : next.limits = sorter.limits) (nextHeld : next.held.Perm (sorter.held ++ view))
    (later : LoopRaises arrow next views) : LoopRaises arrow sorter (view :: views) := by
  obtain ⟨error, left, front, broad, back, rfl, frontFits, raised, leftHeld, cause⟩ := later
  rw [sameLimits] at frontFits cause
  refine ⟨error, left, view :: front, broad, back, rfl, ?_, ?_, ?_, cause⟩
  · intro taken member
    rcases List.mem_cons.mp member with rfl | inFront
    · exact fits
    · exact frontFits taken inFront
  · rw [List.foldlM_cons, buffered]
    exact raised
  · rw [List.flatten_cons, ← List.append_assoc]
    exact leftHeld.trans (nextHeld.append_right _)

theorem LoopRaises.here {error : SortError} {views : List (List Row)}
    (raised : sorter.bufferView arrow view = .error (error, sorter))
    (cause : Refused arrow sorter.held error ∨
      sorter.limits.perHeadCapBytes < arrow.nbytes view ∧
        error = .rowTooWide (arrow.nbytes view) sorter.limits.perHeadCapBytes) :
    LoopRaises arrow sorter (view :: views) := by
  refine ⟨error, sorter, [], view, views, rfl, ?_, ?_, ?_, cause⟩
  · intro taken member
    cases member
  · rw [List.foldlM_cons, raised]
    rfl
  · rw [List.flatten_nil, List.append_nil]

theorem bufferViews_raises (sorter : Sorter Row) {views : List (List Row)}
    (wide : ∃ view ∈ views, sorter.limits.perHeadCapBytes < arrow.nbytes view) :
    LoopRaises arrow sorter views := by
  induction views generalizing sorter with
  | nil =>
      obtain ⟨view, member, -⟩ := wide
      cases member
  | cons view views ih =>
      have later : ∀ next : Sorter Row, arrow.nbytes view ≤ sorter.limits.perHeadCapBytes →
          next.limits = sorter.limits → LoopRaises arrow next views := by
        intro next fits sameLimits
        obtain ⟨broad, member, isWide⟩ := wide
        apply ih next
        rw [sameLimits]
        rcases List.mem_cons.mp member with rfl | inViews
        · exact absurd isWide (Nat.not_lt.mpr fits)
        · exact ⟨broad, inViews, isWide⟩
      obtain ⟨isWide, raised⟩ |
          ⟨fits, ⟨error, refused, raised⟩ | ⟨-, buffered⟩ | ⟨flushed, isFlushed, buffered⟩⟩ :=
        bufferView_cases arrow sorter view
      · exact LoopRaises.here raised (Or.inr ⟨isWide, rfl⟩)
      · obtain ⟨first, inFirst, other, inOther, differ⟩ := refused
        refine LoopRaises.here raised (Or.inl ?_)
        exact ⟨first, List.mem_append_right _ inFirst, other, List.mem_append_right _ inOther,
          differ⟩
      · refine LoopRaises.cons fits buffered rfl ?_ (later _ fits rfl)
        rw [held_push]
      · obtain ⟨kept, sameLimits⟩ := held_flush isFlushed
        refine LoopRaises.cons fits buffered sameLimits ?_ (later _ fits sameLimits)
        rw [held_push]
        exact kept.append_right _

/-- A row over the per-head cap makes `write` raise, with nothing of the batch taken in but rows
in front of the first such row.  What raises is a check before the loop, a flush of rows that
Arrow will not put in one table, or the width of the first row over the cap. -/
theorem write_raises (additive : arrow.AdditiveBytes rowBytes)
    (wide : ∃ row ∈ batch, sorter.limits.perHeadCapBytes < rowBytes row) :
    ∃ error left front rest, sorter.write arrow batch = .error (error, left) ∧
      batch = front ++ rest ∧
      (∀ taken ∈ front, rowBytes taken ≤ sorter.limits.perHeadCapBytes) ∧
      left.held.Perm (sorter.held ++ front) ∧
      (front = [] ∧ sorter.beginWrite arrow batch = .error (error, left) ∨
        Refused arrow left.held error ∨
        ∃ row back, rest = row :: back ∧ sorter.limits.perHeadCapBytes < rowBytes row ∧
          error = .rowTooWide (rowBytes row) sorter.limits.perHeadCapBytes) := by
  rw [write_eq]
  cases begun : sorter.beginWrite arrow batch with
  | error raised =>
      obtain ⟨error, left⟩ := raised
      obtain ⟨keyType, adopted, rfl⟩ := beginWrite_error begun
      refine ⟨error, _, [], batch, rfl, rfl, by simp, ?_, Or.inl ⟨rfl, rfl⟩⟩
      rw [List.append_nil]
      exact List.Perm.refl _
  | ok begun' =>
      obtain ⟨next, views⟩ := begun'
      obtain ⟨⟨keyType, adopted, rfl⟩, rfl⟩ := beginWrite_ok begun
      have whole := iterBoundedViews_flatten arrow batch sorter.limits.perHeadCapBytes
      have wideView : ∃ view ∈ iterBoundedViews arrow batch sorter.limits.perHeadCapBytes,
          sorter.limits.perHeadCapBytes < arrow.nbytes view := by
        obtain ⟨row, member, isWide⟩ := wide
        rw [← whole] at member
        obtain ⟨view, inViews, inView⟩ := List.mem_flatten.mp member
        exact ⟨view, inViews, isWide.trans_le (additive.rowBytes_le inView)⟩
      obtain ⟨error, left, front, view, back, split, frontFits, raised, leftHeld, cause⟩ :=
        bufferViews_raises { sorter with keyType := keyType, schema := adopted } wideView
      have inViews : view ∈ iterBoundedViews arrow batch sorter.limits.perHeadCapBytes := by
        rw [split]
        exact List.mem_append_right _ List.mem_cons_self
      refine ⟨error, left, front.flatten, view ++ back.flatten, raised, ?_, ?_, leftHeld, ?_⟩
      · rw [← whole, split, List.flatten_append, List.flatten_cons]
      · intro taken member
        obtain ⟨view, inFront, inView⟩ := List.mem_flatten.mp member
        exact (additive.rowBytes_le inView).trans (frontFits view inFront)
      · right
        rcases cause with refused | ⟨isWide, isError⟩
        · exact Or.inl refused
        · obtain ⟨row, rfl⟩ : ∃ row, view = [row] := by
            cases iterBoundedViews_small additive view inViews with
            | inl single => exact single
            | inr small => exact absurd isWide (Nat.not_lt.mpr small)
          rw [additive.nbytes_singleton] at isWide isError
          exact Or.inr ⟨row, back.flatten, rfl, isWide, isError⟩

end Sorter

section Runs

variable {limits : SorterLimits} {sortKeyColumn : String} {state : SorterState Row}

theorem within_of_reached (additive : arrow.AdditiveBytes rowBytes)
    (reached : SorterReaches arrow ⟨Sorter.init limits sortKeyColumn, .idle⟩ state) :
    state.Within arrow limits := by
  have start : (⟨Sorter.init limits sortKeyColumn, .idle⟩ : SorterState Row).Within arrow limits :=
    ⟨Sorter.Within.init additive limits sortKeyColumn, trivial⟩
  exact start.reaches additive reached

theorem Activity.Within.runFiles {activity : Activity Row}
    (within : activity.Within arrow limits) :
    ∀ run ∈ activity.runFiles, RunWithin arrow limits.perHeadCapBytes run := by
  have ofGroups : ∀ groups : List (List (RunFile Row)),
      (∀ group ∈ groups, GroupWithin arrow limits group) →
        ∀ run ∈ groups.flatten, RunWithin arrow limits.perHeadCapBytes run := by
    intro groups grouped run member
    obtain ⟨group, inGroups, inGroup⟩ := List.mem_flatten.mp member
    exact (grouped group inGroups).runs run inGroup
  intro run member
  cases activity with
  | idle => cases member
  | writing views => cases member
  | betweenPasses runs => exact within run member
  | passing groups nextRuns =>
      rcases List.mem_append.mp member with pending | merged
      · exact ofGroups groups within.1 run pending
      · exact within.2 run merged
  | merging writerSchema group groups nextRuns merge =>
      obtain ⟨pending, merged, merging⟩ := within
      rcases List.mem_append.mp member with earlier | writing
      · rcases List.mem_append.mp earlier with waiting | done
        · exact ofGroups (group :: groups) pending run waiting
        · exact merged run done
      · rw [List.mem_singleton.mp writing]
        exact merging.written

theorem Activity.Within.openHeads {activity : Activity Row}
    (within : activity.Within arrow limits) :
    activity.openHeads.length ≤ limits.mergeFanIn ∧
      ∀ head ∈ activity.openHeads, head.Within arrow limits.perHeadCapBytes := by
  cases activity with
  | merging writerSchema group groups nextRuns merge => exact ⟨within.2.2.fanIn, within.2.2.heads⟩
  | _ =>
      refine ⟨Nat.zero_le _, ?_⟩
      intro head member
      cases member

/-- In every state of every run the buffer keeps to its cap, every stored batch fits a merge
head, and the open heads together keep to the fan-in's share, a round's copy of them to the
cap.  What `write` and `finish` leave behind are such states.  A row wider than a head makes
`write` raise before that row or any row behind it is taken in. -/
theorem sorter_memory_bounded (arrow : ArrowRows Row κ) (rowBytes : Row → Nat)
    (additive : arrow.AdditiveBytes rowBytes) (limits : SorterLimits) (sortKeyColumn : String)
    (state : SorterState Row)
    (reached : SorterReaches arrow ⟨Sorter.init limits sortKeyColumn, .idle⟩ state) :
    arrow.nbytes state.sorter.buffered.flatten ≤ limits.runBytesCap ∧
    (∀ run ∈ state.runFiles, ∀ batch ∈ run, arrow.nbytes batch ≤ limits.perHeadCapBytes) ∧
    (state.activity.openHeads.length ≤ limits.mergeFanIn ∧
      residentBytes arrow state.activity.openHeads ≤
        limits.mergeFanIn * limits.perHeadCapBytes ∧
      residentBytes arrow (state.activity.openHeads.map RunHead.ensureLoaded) ≤
        limits.mergeFanIn * limits.perHeadCapBytes) ∧
    (∀ writerSchema group groups nextRuns merge,
      state.activity = .merging writerSchema group groups nextRuns merge →
      residentBytes arrow (merge.heads.map RunHead.ensureLoaded) +
        arrow.nbytes (merge.gather arrow) ≤ limits.runBytesCap) ∧
    (state.activity = .idle →
      (∀ batch, SorterReaches arrow state
        ⟨Sorter.standing (state.sorter.write arrow batch), .idle⟩) ∧
      ∀ fuel outcome, state.sorter.finish arrow fuel = some outcome →
        SorterReaches arrow state ⟨Sorter.standing outcome, .idle⟩) ∧
    ∀ batch : List Row, (∃ row ∈ batch, limits.perHeadCapBytes < rowBytes row) →
      ∃ error left front rest, state.sorter.write arrow batch = .error (error, left) ∧
        batch = front ++ rest ∧ (∀ taken ∈ front, rowBytes taken ≤ limits.perHeadCapBytes) ∧
        left.held.Perm (state.sorter.held ++ front) ∧
        (front = [] ∧ state.sorter.beginWrite arrow batch = .error (error, left) ∨
          Refused arrow left.held error ∨
          ∃ row back, rest = row :: back ∧ limits.perHeadCapBytes < rowBytes row ∧
            error = .rowTooWide (rowBytes row) limits.perHeadCapBytes) := by
  have within := within_of_reached additive reached
  obtain ⟨fanIn, heads⟩ := within.activity.openHeads
  refine ⟨?_, ?_, ⟨fanIn, residentBytes_le fanIn heads, ?_⟩, ?_, ?_, ?_⟩
  · rw [← within.sorter.accounted]
    exact within.sorter.buffer
  · intro run member
    rcases List.mem_append.mp member with own | active
    · exact within.sorter.runs run own
    · exact within.activity.runFiles run active
  · apply residentBytes_le
    · rw [List.length_map]
      exact fanIn
    · intro head member
      obtain ⟨resting, isOpen, rfl⟩ := List.mem_map.mp member
      exact (heads resting isOpen).ensureLoaded
  · intro writerSchema group groups nextRuns merge merging
    have active := within.activity
    rw [merging] at active
    exact active.2.2.peak_le_cap additive
  · intro idle
    have atRest : state = ⟨state.sorter, .idle⟩ := by rw [← idle]
    rw [atRest]
    exact ⟨write_reaches arrow _, fun fuel outcome finished => finish_reaches finished⟩
  · intro batch wide
    have sameLimits := within.sorter.sameLimits
    rw [← sameLimits] at wide ⊢
    exact Sorter.write_raises additive wide

end Runs

/-- What Arrow reports of one row of a 64-bit row number and a binary payload. -/
def sizedBytes (row : Nat × Nat) : Nat := 13 + row.2

def sizedSchema : Schema :=
  [⟨"__decoy_row_nr", .integer 64 true, true⟩, ⟨"payload", .binary, true⟩]

/-- Such rows, with the length of the payload for the payload. -/
def sizedRows : ArrowRows (Nat × Nat) Nat :=
  { rowsUnder fun _ => sizedSchema with
    sliceBytes := fun batch offset count => ((slice batch (offset, count)).map sizedBytes).sum
    nbytes := fun rows => (rows.map sizedBytes).sum }

theorem sizedRows_additive : sizedRows.AdditiveBytes sizedBytes :=
  ⟨fun _ => rfl, fun _ _ _ _ => rfl⟩

/-- The narrow row in front of the wide one is buffered before the raise, and comes out. -/
theorem wide_row_leaves_row_in_front :
    sizedRows.AdditiveBytes sizedBytes ∧
    ∃ left, (Sorter.init smallLimits "__decoy_row_nr").write sizedRows [(1, 3), (2, 40)] =
        .error (.rowTooWide 53 16, left) ∧
      (left.finish sizedRows 4).map (Except.map Sorter.iterOrdered) =
        some (.ok (.ok [[(1, 3)]])) ∧
      ((Sorter.init smallLimits "__decoy_row_nr").finish sizedRows 4).map
        (Except.map Sorter.iterOrdered) = some (.ok (.ok [])) :=
  ⟨sizedRows_additive, _, rfl, rfl, rfl⟩

theorem sorter_memory_bounded_while_merging :
    ∃ state, SorterReaches sizedRows ⟨Sorter.init smallLimits "__decoy_row_nr", .idle⟩ state ∧
      state.activity.openHeads.length = 2 ∧
      residentBytes sizedRows (state.activity.openHeads.map RunHead.ensureLoaded) ≤ 2 * 16 ∧
      ∃ error left, state.sorter.write sizedRows [(1, 3), (2, 40)] = .error (error, left) := by
  have wrote := write_reaches sizedRows (Sorter.init smallLimits "__decoy_row_nr")
    [(5, 3), (3, 1), (4, 3), (1, 3), (2, 2)]
  have finishing := ((wrote.tail (.call _ .finish)).tail (.advance rfl)).tail (.advance rfl)
  obtain ⟨-, -, resident, -, -, raises⟩ :=
    sorter_memory_bounded sizedRows sizedBytes sizedRows_additive smallLimits "__decoy_row_nr" _
      finishing
  obtain ⟨error, left, _, _, raised, _⟩ :=
    raises [(1, 3), (2, 40)] ⟨(2, 40), by decide, by decide⟩
  exact ⟨_, finishing, rfl, resident.2.2, error, left, raised⟩

end DecoyEngine.Execution.OutOfCore
