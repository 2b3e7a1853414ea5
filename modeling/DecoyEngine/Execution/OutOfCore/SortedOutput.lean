import DecoyEngine.Execution.OutOfCore.RunMerge

namespace DecoyEngine.Execution.OutOfCore

open DecoyEngine.Data

variable {Row κ : Type*} [LinearOrder κ] {arrow : ArrowRows Row κ}

theorem OrderedRun.length_le {key : Row → κ} {run : RunFile Row} (ordered : OrderedRun key run) :
    run.length ≤ run.flatten.length := by
  have stored := ordered.stored
  clear ordered
  induction run with
  | nil => exact Nat.le_refl 0
  | cons batch run ih =>
      have later := ih fun batch member => stored batch (List.mem_cons_of_mem _ member)
      have first := List.length_pos_iff.mpr (stored batch List.mem_cons_self)
      rw [List.flatten_cons, List.length_append, List.length_cons]
      omega

theorem length_flatten_le {key : Row → κ} {runs : List (RunFile Row)}
    (ordered : ∀ run ∈ runs, OrderedRun key run) :
    runs.flatten.length ≤ runs.flatten.flatten.length := by
  induction runs with
  | nil => exact Nat.le_refl 0
  | cons run runs ih =>
      have later := ih fun run member => ordered run (List.mem_cons_of_mem _ member)
      have first := (ordered run List.mem_cons_self).length_le
      rw [List.flatten_cons, List.length_append, List.flatten_append, List.length_append]
      omega

theorem sum_unread_openRun (group : List (RunFile Row)) :
    ((group.map RunHead.openRun).map RunHead.unread).sum = group.flatten.length := by
  rw [List.map_map, List.length_flatten]
  rfl

theorem openRuns_sorted {key : Row → κ} {group : List (RunFile Row)}
    (ordered : ∀ run ∈ group, OrderedRun key run) :
    Merge.Sorted key group.flatten.flatten ⟨group.map RunHead.openRun, []⟩ := by
  have rows : (group.map RunHead.openRun).flatMap RunHead.rows = group.flatten.flatten := by
    rw [List.flatMap_map, List.flatMap_def, List.flatten_flatten]
    rfl
  constructor
  case ready =>
    intro head member
    obtain ⟨run, runMember, isHead⟩ := List.mem_map.mp member
    rw [← isHead]
    exact ⟨(ordered run runMember).ascending, (ordered run runMember).stored⟩
  case ascending => exact List.Pairwise.nil
  case below =>
    intro row member
    cases member
  case perm => exact List.Perm.of_eq rows
  case stored =>
    intro batch member
    cases member

namespace Sorter

variable {sorter : Sorter Row} {schema : Schema} {fuel : Nat}

theorem mergeGroup_sorts {group : List (RunFile Row)}
    (ordered : ∀ run ∈ group, OrderedRun arrow.key run)
    (uniform : Uniform arrow schema group.flatten.flatten)
    (adopted : sorter.schema = some schema) (enough : group.flatten.flatten.length < fuel) :
    ∃ gone run, sorter.mergeGroup arrow fuel group =
        some (.ok ({ sorter with unlinked := gone }, run)) ∧
      OrderedRun arrow.key run ∧ run.flatten.Perm group.flatten.flatten := by
  have unread : Merge.unread ⟨group.map RunHead.openRun, []⟩ < fuel := by
    have batches := length_flatten_le ordered
    rw [Merge.unread, sum_unread_openRun]
    omega
  obtain ⟨run, merged, runOrdered, perm⟩ := mergeHeadsInto_sorts sorter.limits.perHeadCapBytes
    (openRuns_sorted ordered) uniform unread
  rcases group with _ | ⟨first, _ | ⟨second, others⟩⟩
  · refine ⟨true, run, ?_, runOrdered, perm⟩
    simp only [mergeGroup, unlinkGroup, adopted, merged]
  · exact ⟨sorter.unlinked, first, rfl, ordered first List.mem_cons_self, by simp⟩
  · refine ⟨true, run, ?_, runOrdered, perm⟩
    simp only [mergeGroup, unlinkGroup, adopted, merged]

theorem mergeGroups_sorts {groups : List (List (RunFile Row))} (nextRuns : List (RunFile Row))
    (ordered : ∀ group ∈ groups, ∀ run ∈ group, OrderedRun arrow.key run)
    (uniform : Uniform arrow schema groups.flatten.flatten.flatten)
    (adopted : sorter.schema = some schema)
    (enough : groups.flatten.flatten.flatten.length < fuel) :
    ∃ gone runs, sorter.mergeGroups arrow fuel nextRuns groups =
        some (.ok ({ sorter with unlinked := gone }, nextRuns ++ runs)) ∧
      runs.length = groups.length ∧ (∀ run ∈ runs, OrderedRun arrow.key run) ∧
      runs.flatten.flatten.Perm groups.flatten.flatten.flatten := by
  induction groups generalizing sorter nextRuns with
  | nil => exact ⟨sorter.unlinked, [], by simp [mergeGroups], rfl, by simp, List.Perm.refl _⟩
  | cons group groups ih =>
      simp only [List.flatten_cons, List.flatten_append, List.length_append] at enough uniform
      obtain ⟨gone, run, first, runOrdered, runPerm⟩ :=
        mergeGroup_sorts (ordered group List.mem_cons_self)
          (fun row member => uniform row (List.mem_append_left _ member)) adopted
          (Nat.lt_of_le_of_lt (Nat.le_add_right _ _) enough)
      obtain ⟨gone', runs, rest, sameLength, runsOrdered, runsPerm⟩ :=
        @ih { sorter with unlinked := gone } (nextRuns ++ [run])
          (fun group member => ordered group (List.mem_cons_of_mem _ member))
          (fun row member => uniform row (List.mem_append_right _ member)) adopted (by omega)
      refine ⟨gone', run :: runs, ?_, by simp [sameLength], ?_, ?_⟩
      · rw [List.append_assoc, List.singleton_append] at rest
        simp only [mergeGroups, first]
        exact rest
      · intro other member
        cases List.mem_cons.mp member with
        | inl isRun =>
            rw [isRun]
            exact runOrdered
        | inr later => exact runsOrdered other later
      · simp only [List.flatten_cons, List.flatten_append]
        exact runPerm.append runsPerm

end Sorter

theorem length_rangeSlices {fanIn : Nat} (atLeastTwo : 2 ≤ fanIn) {runs : List (RunFile Row)}
    (several : 1 < runs.length) : (rangeSlices fanIn runs).length < runs.length := by
  rw [rangeSlices, List.length_map, List.length_range]
  apply Nat.div_lt_of_lt_mul
  have doubled : 2 * runs.length + (fanIn - 2) * 2 ≤ fanIn * runs.length := by
    obtain ⟨extra, isFanIn⟩ := Nat.exists_eq_add_of_le atLeastTwo
    have scaled : extra * 2 ≤ extra * runs.length := Nat.mul_le_mul_left extra several
    rw [isFanIn, Nat.add_mul, Nat.add_sub_cancel_left]
    omega
  omega

namespace Sorter

variable {sorter : Sorter Row} {schema : Schema} {fuel : Nat}

theorem mergePass_sorts {runs : List (RunFile Row)}
    (ordered : ∀ run ∈ runs, OrderedRun arrow.key run)
    (uniform : Uniform arrow schema runs.flatten.flatten)
    (adopted : sorter.schema = some schema) (several : 1 < runs.length)
    (enough : runs.flatten.flatten.length < fuel) :
    ∃ gone next, sorter.mergeGroups arrow fuel [] (rangeSlices sorter.limits.mergeFanIn runs) =
        some (.ok ({ sorter with unlinked := gone }, next)) ∧
      next.length < runs.length ∧ (∀ run ∈ next, OrderedRun arrow.key run) ∧
      next.flatten.flatten.Perm runs.flatten.flatten := by
  have atLeastTwo := sorter.limits.fanInAtLeastTwo
  have whole : (rangeSlices sorter.limits.mergeFanIn runs).flatten = runs :=
    rangeSlices_flatten (by omega) runs
  have groupOrdered : ∀ group ∈ rangeSlices sorter.limits.mergeFanIn runs, ∀ run ∈ group,
      OrderedRun arrow.key run := by
    intro group member run inGroup
    apply ordered
    rw [← whole]
    exact List.mem_flatten_of_mem member inGroup
  obtain ⟨gone, next, passed, sameLength, nextOrdered, perm⟩ :=
    mergeGroups_sorts [] groupOrdered (by rw [whole]; exact uniform) adopted
      (by rw [whole]; exact enough)
  rw [whole] at perm
  refine ⟨gone, next, passed, ?_, nextOrdered, perm⟩
  rw [sameLength]
  exact length_rangeSlices atLeastTwo several

theorem mergePasses_sorts {passes : Nat} {runs : List (RunFile Row)}
    (ordered : ∀ run ∈ runs, OrderedRun arrow.key run)
    (uniform : Uniform arrow schema runs.flatten.flatten)
    (adopted : 1 < runs.length → sorter.schema = some schema)
    (enough : runs.flatten.flatten.length < fuel) (enoughPasses : runs.length < passes) :
    ∃ gone final, sorter.mergePasses arrow fuel runs passes =
        some (.ok ({ sorter with unlinked := gone }, final)) ∧ final.length ≤ 1 ∧
      (∀ run ∈ final, OrderedRun arrow.key run) ∧
      final.flatten.flatten.Perm runs.flatten.flatten := by
  induction passes generalizing sorter runs with
  | zero => omega
  | succ passes ih =>
      by_cases several : 1 < runs.length
      · obtain ⟨gone, next, passed, fewer, nextOrdered, perm⟩ :=
          mergePass_sorts ordered uniform (adopted several) several enough
        obtain ⟨gone', final, finished, single, finalOrdered, finalPerm⟩ :=
          @ih { sorter with unlinked := gone } _ nextOrdered
            (fun row member => uniform row (perm.subset member)) (fun _ => adopted several)
            (by rw [perm.length_eq]; exact enough) (by omega)
        refine ⟨gone', final, ?_, single, finalOrdered, finalPerm.trans perm⟩
        simp only [mergePasses, if_pos several, passed]
        exact finished
      · refine ⟨sorter.unlinked, runs, ?_, by omega, ordered, List.Perm.refl _⟩
        simp only [mergePasses, if_neg several]

end Sorter

theorem bisectViews_within (sliceBytes : Nat → Nat → Nat) (maxBytes : Nat)
    {fuel offset count : Nat} :
    ∀ view ∈ bisectViews sliceBytes maxBytes fuel offset count,
      0 < view.2 ∧ view.1 + view.2 ≤ offset + count := by
  induction fuel generalizing offset count with
  | zero =>
      intro view member
      cases member
  | succ fuel ih =>
      intro view member
      rw [bisectViews] at member
      split at member
      · cases member
      · split at member
        · rw [List.mem_singleton.mp member]
          constructor <;> dsimp only <;> omega
        · cases List.mem_append.mp member with
          | inl left =>
              have within := ih view left
              omega
          | inr right =>
              have within := ih view right
              omega

theorem iterBoundedViews_ne_nil (batch : List Row) (maxBytes : Nat) :
    ∀ view ∈ iterBoundedViews arrow batch maxBytes, view ≠ [] := by
  intro rows member empty
  obtain ⟨view, inViews, isSlice⟩ := List.mem_map.mp member
  have within := bisectViews_within _ _ view inViews
  have length : (slice batch view).length = 0 := by rw [isSlice, empty]; rfl
  rw [slice, List.length_take, List.length_drop] at length
  omega

namespace Sorter

/-- A sorter that has taken in the rows `taken` and is still open. -/
structure Holds (key : Row → κ) (taken : List Row) (sorter : Sorter Row) : Prop where
  ordered : ∀ run ∈ sorter.runs, OrderedRun key run
  runsHold : ∀ run ∈ sorter.runs, run ≠ []
  viewsHold : ∀ view ∈ sorter.buffered, view ≠ []
  perm : (sorter.runs.flatten.flatten ++ sorter.buffered.flatten).Perm taken
  isOpen : sorter.finished = false
  intact : sorter.unlinked = false

variable {sorter next : Sorter Row} {taken : List Row} {schema : Schema} {batch : List Row}

theorem Holds.init (key : Row → κ) (limits : SorterLimits) (sortKeyColumn : String) :
    (Sorter.init limits sortKeyColumn).Holds key [] := by
  constructor
  case perm => exact List.Perm.refl _
  case isOpen => rfl
  case intact => rfl
  all_goals
    intro _ member
    cases member

theorem Holds.frame {key : Row → κ} (holds : sorter.Holds key taken)
    (keyType : Option ArrowType) (adopted : Option Schema) :
    { sorter with keyType := keyType, schema := adopted }.Holds key taken :=
  ⟨holds.ordered, holds.runsHold, holds.viewsHold, holds.perm, holds.isOpen, holds.intact⟩

theorem checkKeyType_ok {found : ArrowType} (checked : sorter.checkKeyType found = .ok next) :
    ∃ keyType, next = { sorter with keyType := keyType } := by
  rw [Sorter.checkKeyType] at checked
  split at checked <;> split at checked <;> cases checked
  · exact ⟨some found, rfl⟩
  · exact ⟨sorter.keyType, rfl⟩

theorem validateKey_ok (valid : sorter.validateKey arrow schema batch = .ok next) :
    ∃ keyType, next = { sorter with keyType := keyType } := by
  rw [Sorter.validateKey] at valid
  split at valid
  · cases valid
  · rename_i found _
    cases checked : sorter.checkKeyType found with
    | error raised =>
        rw [checked] at valid
        cases valid
    | ok typed =>
        rw [checked] at valid
        simp only [bind, Except.bind] at valid
        split at valid <;> cases valid
        exact checkKeyType_ok checked
  · cases valid

theorem adoptSchema_ok (adopted : sorter.adoptSchema schema = .ok next) :
    next = { sorter with schema := some (sorter.schema.getD schema) } := by
  simp only [Sorter.adoptSchema] at adopted
  split at adopted
  · rename_i old isOld
    cases adopted
    rw [isOld, Option.getD_some, ← isOld]
  · rename_i unset
    split at adopted <;> cases adopted
    rw [unset, Option.getD_none]

/-- A batch with rows is checked, gives the sorter its schema where it has none yet, and is
then buffered view by view. -/
theorem write_ok (isOpen : sorter.finished = false)
    (written : sorter.write arrow batch = .ok next) :
    batch = [] ∧ next = sorter ∨
    ∃ row rest keyType, batch = row :: rest ∧
      (iterBoundedViews arrow batch sorter.limits.perHeadCapBytes).foldlM (bufferView arrow)
        { sorter with
          keyType := keyType, schema := some (sorter.schema.getD (arrow.schema row)) } =
        .ok next := by
  cases batch with
  | nil =>
      rw [Sorter.write, isOpen] at written
      cases written
      exact Or.inl ⟨rfl, rfl⟩
  | cons row rest =>
      rw [Sorter.write, isOpen] at written
      simp only [Bool.false_eq_true, if_false] at written
      cases valid : sorter.validateKey arrow (arrow.schema row) (row :: rest) with
      | error raised =>
          rw [valid] at written
          cases written
      | ok keyed =>
          obtain ⟨keyType, rfl⟩ := validateKey_ok valid
          rw [valid] at written
          cases adopted : Sorter.adoptSchema { sorter with keyType := keyType }
              (arrow.schema row) with
          | error raised =>
              simp only [bind, Except.bind, adopted] at written
              cases written
          | ok typed =>
              simp only [bind, Except.bind, adopted] at written
              obtain rfl := adoptSchema_ok adopted
              exact Or.inr ⟨row, rest, keyType, rfl, written⟩

theorem flush_ok (flushed : sorter.flush arrow = .ok next) :
    sorter.buffered = [] ∧ next = sorter ∨ sorter.buffered ≠ [] ∧ next = sorter.spill arrow := by
  rw [Sorter.flush] at flushed
  split at flushed
  · rename_i empty
    exact Or.inl ⟨empty, (Except.ok.inj flushed).symm⟩
  · rename_i buffering
    split at flushed
    · cases flushed
    · exact Or.inr ⟨buffering, (Except.ok.inj flushed).symm⟩

theorem flush_uniform (uniform : Uniform arrow schema sorter.buffered.flatten) :
    ∃ next, sorter.flush arrow = .ok next := by
  rw [Sorter.flush]
  split
  · exact ⟨sorter, rfl⟩
  · rw [sameSchema_uniform arrow uniform]
    exact ⟨sorter.spill arrow, rfl⟩

theorem Holds.spill (holds : sorter.Holds arrow.key taken) (buffering : sorter.buffered ≠ []) :
    (sorter.spill arrow).Holds arrow.key taken := by
  let table := arrow.sortBy sorter.buffered.flatten
  let run := storedBatches arrow table sorter.limits.perHeadCapBytes
  have rows : run.flatten = table := storedBatches_flatten arrow table _
  have perm : table.Perm sorter.buffered.flatten := arrow.sortBy_perm _
  have runOrdered : OrderedRun arrow.key run := by
    constructor
    · rw [rows]
      exact arrow.sortBy_ascending _
    · exact storedBatches_ne_nil arrow table _
  have runHolds : run ≠ [] := by
    intro empty
    obtain ⟨view, member⟩ := List.exists_mem_of_ne_nil _ buffering
    obtain ⟨row, inView⟩ := List.exists_mem_of_ne_nil _ (holds.viewsHold view member)
    have inTable : row ∈ run.flatten := by
      rw [rows]
      exact perm.mem_iff.mpr (List.mem_flatten_of_mem member inView)
    rw [empty] at inTable
    cases inTable
  constructor
  case ordered =>
    intro other member
    cases List.mem_append.mp member with
    | inl old => exact holds.ordered other old
    | inr new =>
        rw [List.mem_singleton.mp new]
        exact runOrdered
  case runsHold =>
    intro other member
    cases List.mem_append.mp member with
    | inl old => exact holds.runsHold other old
    | inr new =>
        rw [List.mem_singleton.mp new]
        exact runHolds
  case viewsHold =>
    intro view member
    cases member
  case perm =>
    have moved : (sorter.runs.flatten.flatten ++ run.flatten).Perm taken := by
      rw [rows]
      exact (perm.append_left _).trans holds.perm
    simpa [Sorter.spill, run, table] using moved
  case isOpen => exact holds.isOpen
  case intact => exact holds.intact

theorem Holds.flush (holds : sorter.Holds arrow.key taken)
    (flushed : sorter.flush arrow = .ok next) :
    next.Holds arrow.key taken ∧ next.buffered = [] ∧ next.schema = sorter.schema := by
  obtain ⟨empty, rfl⟩ | ⟨buffering, rfl⟩ := flush_ok flushed
  · exact ⟨holds, empty, rfl⟩
  · exact ⟨holds.spill buffering, rfl, rfl⟩

theorem Holds.push (holds : sorter.Holds arrow.key taken) {view : List Row}
    (nonempty : view ≠ []) : (sorter.push arrow view).Holds arrow.key (taken ++ view) := by
  constructor
  case ordered => exact holds.ordered
  case runsHold => exact holds.runsHold
  case viewsHold =>
    intro other member
    cases List.mem_append.mp member with
    | inl old => exact holds.viewsHold other old
    | inr new =>
        rw [List.mem_singleton.mp new]
        exact nonempty
  case perm =>
    have grown := holds.perm.append_right view
    simpa [Sorter.push, List.append_assoc] using grown
  case isOpen => exact holds.isOpen
  case intact => exact holds.intact

theorem bufferView_ok {view : List Row} (buffered : sorter.bufferView arrow view = .ok next) :
    ∃ emptied, (emptied = sorter ∨ sorter.flush arrow = .ok emptied) ∧
      next = emptied.push arrow view := by
  simp only [Sorter.bufferView] at buffered
  split at buffered
  · cases buffered
  · split at buffered
    · cases flushed : sorter.flush arrow with
      | error raised =>
          rw [flushed] at buffered
          cases buffered
      | ok emptied =>
          rw [flushed] at buffered
          exact ⟨emptied, Or.inr rfl, (Except.ok.inj buffered).symm⟩
    · exact ⟨sorter, Or.inl rfl, (Except.ok.inj buffered).symm⟩

theorem Holds.bufferView (holds : sorter.Holds arrow.key taken) {view : List Row}
    (nonempty : view ≠ []) (buffered : sorter.bufferView arrow view = .ok next) :
    next.Holds arrow.key (taken ++ view) ∧ next.schema = sorter.schema := by
  obtain ⟨emptied, rfl | flushed, rfl⟩ := bufferView_ok buffered
  · exact ⟨holds.push nonempty, rfl⟩
  · obtain ⟨kept, -, sameSchema⟩ := holds.flush flushed
    exact ⟨kept.push nonempty, sameSchema⟩

theorem Holds.bufferViews {views : List (List Row)} (holds : sorter.Holds arrow.key taken)
    (nonempty : ∀ view ∈ views, view ≠ [])
    (buffered : views.foldlM (Sorter.bufferView arrow) sorter = .ok next) :
    next.Holds arrow.key (taken ++ views.flatten) ∧ next.schema = sorter.schema := by
  induction views generalizing sorter taken with
  | nil =>
      cases buffered
      simpa using holds
  | cons view views ih =>
      rw [List.foldlM_cons] at buffered
      cases first : sorter.bufferView arrow view with
      | error raised =>
          rw [first] at buffered
          cases buffered
      | ok after =>
          rw [first] at buffered
          obtain ⟨grown, kept⟩ := holds.bufferView (nonempty view List.mem_cons_self) first
          obtain ⟨rest, same⟩ := ih grown
            (fun view member => nonempty view (List.mem_cons_of_mem _ member)) buffered
          rw [List.flatten_cons, ← List.append_assoc]
          exact ⟨rest, same.trans kept⟩

/-- A write that raises nothing takes its batch in; the first one with rows sets the schema. -/
theorem Holds.write (holds : sorter.Holds arrow.key taken)
    (written : sorter.write arrow batch = .ok next) :
    next.Holds arrow.key (taken ++ batch) ∧
      next.schema = sorter.schema.or (batch.head?.map arrow.schema) := by
  obtain ⟨rfl, rfl⟩ | ⟨row, rest, keyType, isBatch, buffered⟩ := write_ok holds.isOpen written
  · rw [List.append_nil]
    exact ⟨holds, by simp⟩
  · obtain ⟨grown, kept⟩ := (holds.frame keyType _).bufferViews
      (iterBoundedViews_ne_nil batch _) buffered
    rw [iterBoundedViews_flatten] at grown
    refine ⟨grown, ?_⟩
    rw [kept, isBatch]
    cases sorter.schema <;> rfl

theorem Holds.writeAll {batches : List (List Row)} (holds : sorter.Holds arrow.key taken)
    (written : sorter.writeAll arrow batches = .ok next) :
    next.Holds arrow.key (taken ++ batches.flatten) ∧
      next.schema = sorter.schema.or (batches.flatten.head?.map arrow.schema) := by
  rw [Sorter.writeAll] at written
  induction batches generalizing sorter taken with
  | nil =>
      cases written
      simpa using holds
  | cons batch batches ih =>
      rw [List.foldlM_cons] at written
      cases first : sorter.write arrow batch with
      | error raised =>
          rw [first] at written
          cases written
      | ok after =>
          rw [first] at written
          obtain ⟨grown, adopted⟩ := holds.write first
          obtain ⟨rest, same⟩ := ih grown written
          rw [List.flatten_cons, ← List.append_assoc]
          refine ⟨rest, ?_⟩
          rw [same, adopted, List.head?_append, Option.or_assoc]
          cases batch <;> rfl

theorem length_runs_le {key : Row → κ} {runs : List (RunFile Row)}
    (nonempty : ∀ run ∈ runs, run ≠ []) (ordered : ∀ run ∈ runs, OrderedRun key run) :
    runs.length ≤ runs.flatten.flatten.length := by
  induction runs with
  | nil => exact Nat.le_refl 0
  | cons run runs ih =>
      have later := ih (fun run member => nonempty run (List.mem_cons_of_mem _ member))
        (fun run member => ordered run (List.mem_cons_of_mem _ member))
      have batches := List.length_pos_iff.mpr (nonempty run List.mem_cons_self)
      have rows := (ordered run List.mem_cons_self).length_le
      rw [List.flatten_cons, List.flatten_append, List.length_append, List.length_cons]
      omega

theorem Holds.finish {fuel : Nat} (holds : sorter.Holds arrow.key taken)
    (uniform : Uniform arrow schema taken)
    (adopted : sorter.schema = taken.head?.map arrow.schema) (enough : taken.length < fuel) :
    ∃ done output, sorter.finish arrow fuel = some (.ok done) ∧ done.iterOrdered = .ok output ∧
      output.flatten.Perm taken ∧ Ascending arrow.key output.flatten := by
  have bufferUniform : Uniform arrow schema sorter.buffered.flatten := fun row member =>
    uniform row (holds.perm.subset (List.mem_append_right _ member))
  obtain ⟨flushed, isFlushed⟩ := flush_uniform bufferUniform
  obtain ⟨kept, emptied, sameSchema⟩ := holds.flush isFlushed
  have runsPerm := kept.perm
  rw [emptied, List.flatten_nil, List.append_nil] at runsPerm
  have rowCount := runsPerm.length_eq
  have runCount := length_runs_le kept.runsHold kept.ordered
  have schemaSet : 1 < flushed.runs.length → flushed.schema = some schema := by
    intro several
    cases taken with
    | nil =>
        rw [List.length_nil] at rowCount
        omega
    | cons row rest =>
        rw [sameSchema, adopted, List.head?_cons, Option.map_some,
          uniform row List.mem_cons_self]
  obtain ⟨gone, final, merged, single, ordered, perm⟩ :=
    mergePasses_sorts kept.ordered (fun row member => uniform row (runsPerm.subset member))
      schemaSet (show _ < fuel by omega) (show _ < fuel by omega)
  have finished : sorter.finish arrow fuel =
      some (.ok ({ flushed with unlinked := gone }.sealWith final)) := by
    simp only [Sorter.finish, holds.isOpen, isFlushed, kept.intact, merged,
      Bool.false_eq_true, false_and, if_false]
  cases final with
  | nil => exact ⟨_, [], finished, rfl, perm.trans runsPerm, List.Pairwise.nil⟩
  | cons run others =>
      have alone : others = [] := by
        apply List.eq_nil_of_length_eq_zero
        rw [List.length_cons] at single
        omega
      have whole : (run :: others).flatten.flatten = run.flatten := by simp [alone]
      rw [whole] at perm
      exact ⟨_, run, finished, rfl, perm.trans runsPerm,
        (ordered run List.mem_cons_self).ascending⟩

end Sorter

/-- Batches of one schema, all of them written without a raise: `finish` returns, and what the
sorter then yields are the written rows, ascending.  Where keys are unique, neither the
partition into batches nor the limits show in the output. -/
theorem external_sort_is_lossless (arrow : ArrowRows Row κ) (limits : SorterLimits)
    (sortKeyColumn : String) (schema : Schema) (batches : List (List Row))
    (uniform : Uniform arrow schema batches.flatten) (sorter : Sorter Row)
    (written : (Sorter.init limits sortKeyColumn).writeAll arrow batches = .ok sorter)
    (fuel : Nat) (enough : batches.flatten.length < fuel) :
    ∃ done output, sorter.finish arrow fuel = some (.ok done) ∧
      done.iterOrdered = .ok output ∧
      output.flatten.Perm batches.flatten ∧ Ascending arrow.key output.flatten ∧
      ((batches.flatten.map arrow.key).Nodup →
        ∀ (limits' : SorterLimits) (batches' : List (List Row)) (sorter' : Sorter Row),
          batches'.flatten = batches.flatten →
          (Sorter.init limits' sortKeyColumn).writeAll arrow batches' = .ok sorter' →
          ∀ fuel', batches.flatten.length < fuel' →
            ∃ done' output', sorter'.finish arrow fuel' = some (.ok done') ∧
              done'.iterOrdered = .ok output' ∧ output'.flatten = output.flatten) := by
  obtain ⟨holds, adopted⟩ := (Sorter.Holds.init arrow.key limits sortKeyColumn).writeAll written
  rw [List.nil_append] at holds
  obtain ⟨done, output, finished, read, perm, ascending⟩ := holds.finish uniform adopted enough
  refine ⟨done, output, finished, read, perm, ascending, ?_⟩
  intro unique limits' batches' sorter' sameRows written' fuel' enough'
  obtain ⟨holds', adopted'⟩ :=
    (Sorter.Holds.init arrow.key limits' sortKeyColumn).writeAll written'
  rw [List.nil_append, sameRows] at holds'
  rw [sameRows] at adopted'
  obtain ⟨done', output', finished', read', perm', ascending'⟩ :=
    holds'.finish uniform adopted' enough'
  refine ⟨done', output', finished', read', ?_⟩
  apply ascending'.eq_of_perm ascending (perm'.trans perm.symm)
  exact (perm'.map arrow.key).nodup_iff.mpr unique

def numberedSchema : Schema :=
  [⟨"__decoy_row_nr", .integer 64 true, true⟩, ⟨"payload", .integer 64 true, true⟩]

/-- Rows of a 64-bit row number and a 64-bit payload. -/
def numberedRows : ArrowRows (Nat × Nat) Nat where
  key := Prod.fst
  keyIsNull := fun _ => false
  schema := fun _ => numberedSchema
  sliceBytes := fun _ _ count => 16 * count
  nbytes := fun rows => 16 * rows.length
  sortBy := List.insertionSort fun left right => left.1 ≤ right.1
  sortBy_perm := List.perm_insertionSort _
  sortBy_ascending := by
    intro rows
    have : Std.Total fun left right : Nat × Nat => left.1 ≤ right.1 :=
      ⟨fun left right => Nat.le_total left.1 right.1⟩
    have : IsTrans (Nat × Nat) fun left right => left.1 ≤ right.1 :=
      ⟨fun _ _ _ first second => Nat.le_trans first second⟩
    exact List.pairwise_insertionSort _ rows
  toBatches := fun rows => [rows]
  toBatches_flatten := fun rows => by simp

def shuffledBatches : List (List (Nat × Nat)) :=
  [[(5, 0), (3, 1), (9, 2)], [], [(1, 3), (7, 4), (2, 5)], [(8, 6)]]

def smallLimits : SorterLimits := ⟨64, 2, by decide, by decide⟩

theorem external_sort_of_shuffled_batches :
    ∃ sorter done output,
      (Sorter.init smallLimits "__decoy_row_nr").writeAll numberedRows shuffledBatches =
        .ok sorter ∧
      sorter.finish numberedRows 8 = some (.ok done) ∧ done.iterOrdered = .ok output ∧
      output.flatten.Perm shuffledBatches.flatten ∧
      Ascending numberedRows.key output.flatten := by
  have accepted : ∃ sorter, (Sorter.init smallLimits "__decoy_row_nr").writeAll numberedRows
      shuffledBatches = .ok sorter := ⟨_, rfl⟩
  obtain ⟨sorter, written⟩ := accepted
  obtain ⟨done, output, finished, read, perm, ascending, _⟩ :=
    external_sort_is_lossless numberedRows smallLimits "__decoy_row_nr" numberedSchema
      shuffledBatches (fun _ _ => rfl) sorter written 8 (by decide)
  exact ⟨sorter, done, output, written, finished, read, perm, ascending⟩

def unsignedSchema : Schema :=
  [⟨"__decoy_row_nr", .integer 64 true, true⟩, ⟨"payload", .integer 64 false, true⟩]

/-- The same rows under schemas of their own. -/
def rowsUnder (schema : Nat × Nat → Schema) : ArrowRows (Nat × Nat) Nat :=
  { numberedRows with schema := schema }

/-- Rows whose payload is signed in some batches and unsigned in others. -/
def driftingRows : ArrowRows (Nat × Nat) Nat :=
  rowsUnder fun row => if row.2 < 2 ^ 63 then numberedSchema else unsignedSchema

/-- Both batches are written without a raise; no table can hold the two together. -/
theorem finish_refuses_drifting_payload :
    ∃ sorter left, (Sorter.init smallLimits "__decoy_row_nr").writeAll driftingRows
        [[(1, 0)], [(2, 2 ^ 63)]] = .ok sorter ∧
      sorter.finish driftingRows 4 =
        some (.error (.arrowInvalid numberedSchema unsignedSchema, left)) :=
  ⟨_, _, rfl, rfl⟩

end DecoyEngine.Execution.OutOfCore
