import DecoyEngine.Subset.Closure
import Mathlib.Algebra.BigOperators.Group.Finset.Basic
import Mathlib.Algebra.Order.BigOperators.Group.Finset

namespace DecoyEngine.Subset

open DecoyEngine.Data

variable {ν : Type}

/-! What closed means -/

/-- Row `p` of the parent has the key that row `c` of the child references. -/
def Linked (keyFrames : KeyFrames ν) (e : SubsetEdge) (p c : Nat) : Prop :=
  ∃ key parentRow childRow, (frameOf keyFrames e.parentTable)[p]? = some parentRow ∧
    keyOf e.parentColumns parentRow = some key ∧
    (frameOf keyFrames e.childTable)[c]? = some childRow ∧ keyOf e.childColumns childRow = some key

/-- A selection of rows that no enabled rule extends. -/
structure Closed (keyFrames : KeyFrames ν) (directions : String → EdgeDirection)
    (edges : List (EdgeOf keyFrames)) (selection : String → Set Nat) : Prop where
  down : ∀ e ∈ edges, (directions e.val.edgeId).goesDown → ∀ p c,
    p ∈ selection e.val.parentTable → Linked keyFrames e.val p c → c ∈ selection e.val.childTable
  up : ∀ e ∈ edges, (directions e.val.edgeId).goesUp → ∀ p c,
    c ∈ selection e.val.childTable → Linked keyFrames e.val p c → p ∈ selection e.val.parentTable

theorem Closed.of_perm {keyFrames : KeyFrames ν} {directions : String → EdgeDirection}
    {edges others : List (EdgeOf keyFrames)} (perm : others.Perm edges)
    {selection : String → Set Nat} (closed : Closed keyFrames directions edges selection) :
    Closed keyFrames directions others selection where
  down := fun e member => closed.down e (perm.mem_iff.mp member)
  up := fun e member => closed.up e (perm.mem_iff.mp member)

/-- Every kept row is in the selection. -/
def Within (survivors : Survivors) (selection : String → Set Nat) : Prop :=
  ∀ table, ∀ row ∈ survivors table, row ∈ selection table

/-- The rows of the frames that are kept. -/
def rank (keyFrames : KeyFrames ν) (survivors : Survivors) : Nat :=
  ∑ table ∈ keyFrames.keys.toFinset,
    (survivors table ∩ Finset.range (frameOf keyFrames table).length).card

theorem rank_le_totalRows (keyFrames : KeyFrames ν) (survivors : Survivors) :
    rank keyFrames survivors ≤ totalRows keyFrames := by
  have rows : totalRows keyFrames =
      ∑ table ∈ keyFrames.keys.toFinset, (frameOf keyFrames table).length := by
    rw [Dict.keys, List.sum_toFinset _ keyFrames.distinct, totalRows, List.map_map]
    congr 1
    apply List.map_congr_left
    intro entry member
    have found : keyFrames.find entry.1 = some entry.2 := Dict.mem_entries.mp member
    simp only [Function.comp_apply, frameOf, found, Option.getD_some]
  rw [rows, rank]
  apply Finset.sum_le_sum
  intro table _
  calc (survivors table ∩ Finset.range (frameOf keyFrames table).length).card
      ≤ (Finset.range (frameOf keyFrames table).length).card :=
        Finset.card_le_card Finset.inter_subset_right
    _ = (frameOf keyFrames table).length := Finset.card_range _

theorem rank_keep {keyFrames : KeyFrames ν} {survivors : Survivors} {table : String}
    {new : Finset Nat} (known : table ∈ keyFrames.keys)
    (fresh : ∀ row ∈ new, row ∉ survivors table ∧ row < (frameOf keyFrames table).length) :
    rank keyFrames (keep survivors table new) = rank keyFrames survivors + new.card := by
  have inKeys : table ∈ keyFrames.keys.toFinset := List.mem_toFinset.mpr known
  rw [rank, rank, ← Finset.add_sum_erase _ _ inKeys, ← Finset.add_sum_erase _ _ inKeys]
  have others : ∑ other ∈ keyFrames.keys.toFinset.erase table,
      (keep survivors table new other ∩ Finset.range (frameOf keyFrames other).length).card =
      ∑ other ∈ keyFrames.keys.toFinset.erase table,
        (survivors other ∩ Finset.range (frameOf keyFrames other).length).card := by
    apply Finset.sum_congr rfl
    intro other member
    rw [keep, Function.update_of_ne (Finset.ne_of_mem_erase member)]
  have own : (keep survivors table new table ∩
      Finset.range (frameOf keyFrames table).length).card =
      (survivors table ∩ Finset.range (frameOf keyFrames table).length).card + new.card := by
    have split : keep survivors table new table ∩ Finset.range (frameOf keyFrames table).length =
        (survivors table ∩ Finset.range (frameOf keyFrames table).length) ∪ new := by
      rw [keep, Function.update_self, Finset.union_inter_distrib_right]
      congr 1
      rw [Finset.inter_eq_left]
      intro row member
      exact Finset.mem_range.mpr (fresh row member).2
    rw [split, Finset.card_union_of_disjoint]
    rw [Finset.disjoint_left]
    intro row kept member
    exact (fresh row member).1 (Finset.mem_inter.mp kept).1
  rw [others, own]
  omega

section Advance

variable {keyFrames : KeyFrames ν} {directions : String → EdgeDirection}
  {edges : List (EdgeOf keyFrames)}

/-- What the steps of a round do: they keep more rows, count each of them, and never leave a
closed selection. -/
structure Advance (edges : List (EdgeOf keyFrames)) (directions : String → EdgeDirection)
    (before after : RoundState) : Prop where
  grows : ∀ table, before.survivors table ⊆ after.survivors table
  within : ∀ selection, Closed keyFrames directions edges selection →
    Within before.survivors selection → Within after.survivors selection
  counted : rank keyFrames after.survivors + before.addedPerTable.total =
    rank keyFrames before.survivors + after.addedPerTable.total
  total_le : before.addedPerTable.total ≤ after.addedPerTable.total
  unchanged : after.addedPerTable.total = before.addedPerTable.total →
    after.survivors = before.survivors

theorem Advance.refl (state : RoundState) : Advance edges directions state state where
  grows := fun _ => Finset.Subset.refl _
  within := fun _ _ inside => inside
  counted := rfl
  total_le := Nat.le_refl _
  unchanged := fun _ => rfl

theorem Advance.trans {first second third : RoundState}
    (left : Advance edges directions first second)
    (right : Advance edges directions second third) : Advance edges directions first third where
  grows := fun table => (left.grows table).trans (right.grows table)
  within := fun selection closed inside =>
    right.within selection closed (left.within selection closed inside)
  counted := by
    have leftCounted := left.counted
    have rightCounted := right.counted
    omega
  total_le := left.total_le.trans right.total_le
  unchanged := by
    intro same
    have leftLe := left.total_le
    have rightLe := right.total_le
    rw [right.unchanged (by omega), left.unchanged (by omega)]

theorem advance_keep {before after : RoundState} {table : String} {new : Finset Nat}
    (known : table ∈ keyFrames.keys)
    (fresh : ∀ row ∈ new, row ∉ before.survivors table ∧
      row < (frameOf keyFrames table).length)
    (inside : ∀ selection, Closed keyFrames directions edges selection →
      Within before.survivors selection → ∀ row ∈ new, row ∈ selection table)
    (survivors : after.survivors = keep before.survivors table new)
    (total : after.addedPerTable.total = before.addedPerTable.total + new.card) :
    Advance edges directions before after where
  grows := by
    intro other
    rw [survivors, keep]
    by_cases isTable : other = table
    · rw [isTable, Function.update_self]
      exact Finset.subset_union_left
    · rw [Function.update_of_ne isTable]
  within := by
    intro selection closed kept other row member
    rw [survivors, keep] at member
    by_cases isTable : other = table
    · rw [isTable, Function.update_self] at member
      rw [isTable]
      cases Finset.mem_union.mp member with
      | inl old => exact kept table row old
      | inr added => exact inside selection closed kept row added
    · rw [Function.update_of_ne isTable] at member
      exact kept other row member
  counted := by
    rw [survivors, rank_keep known fresh, total]
    omega
  total_le := by omega
  unchanged := by
    intro same
    have none' : new = ∅ := Finset.card_eq_zero.mp (by omega)
    rw [survivors, none', keep, Finset.union_empty, Function.update_eq_self]

end Advance

variable [DecidableEq ν]

theorem mem_keysOf {frame : List (KeyRow ν)} {columns : List String} {rows : Finset Nat}
    {key : List ν} : key ∈ keysOf frame columns rows ↔
      ∃ r ∈ rows, ∃ row, frame[r]? = some row ∧ keyOf columns row = some key := by
  simp only [keysOf, List.mem_dedup, List.mem_filterMap, List.mem_filter, decide_eq_true_eq,
    Prod.exists, List.mem_zipIdx_iff_getElem?]
  constructor
  · intro ⟨row, r, ⟨located, kept⟩, isKey⟩
    exact ⟨r, kept, row, located, isKey⟩
  · intro ⟨r, kept, row, located, isKey⟩
    exact ⟨row, r, ⟨located, kept⟩, isKey⟩

theorem mem_semiJoin {frame : List (KeyRow ν)} {columns : List String} {keys : List (List ν)}
    {r : Nat} : r ∈ semiJoin frame columns keys ↔
      ∃ row key, frame[r]? = some row ∧ keyOf columns row = some key ∧ key ∈ keys := by
  simp only [semiJoin, List.mem_toFinset, List.mem_map, List.mem_filter, Prod.exists,
    List.mem_zipIdx_iff_getElem?]
  constructor
  · intro ⟨row, index, ⟨located, matching⟩, isIndex⟩
    cases isKey : keyOf columns row with
    | none => simp [isKey] at matching
    | some key =>
        rw [isIndex] at located
        exact ⟨row, key, located, isKey, by simpa [isKey] using matching⟩
  · intro ⟨row, key, located, isKey, member⟩
    exact ⟨row, r, ⟨located, by simpa [isKey] using member⟩, rfl⟩

theorem mem_downwardStep {keyFrames : KeyFrames ν} {e : SubsetEdge} {survivors : Survivors}
    {c : Nat} : c ∈ downwardStep keyFrames e survivors ↔
      c ∉ survivors e.childTable ∧ ∃ p ∈ survivors e.parentTable, Linked keyFrames e p c := by
  rw [downwardStep]
  split
  · rename_i empty
    simp [empty]
  · rw [Finset.mem_sdiff, and_comm, mem_semiJoin]
    apply and_congr_right
    intro _
    simp only [mem_keysOf, Linked]
    constructor
    · intro ⟨childRow, key, childAt, childKey, p, kept, parentRow, parentAt, parentKey⟩
      exact ⟨p, kept, key, parentRow, childRow, parentAt, parentKey, childAt, childKey⟩
    · intro ⟨p, kept, key, parentRow, childRow, parentAt, parentKey, childAt, childKey⟩
      exact ⟨childRow, key, childAt, childKey, p, kept, parentRow, parentAt, parentKey⟩

theorem mem_upwardStep {keyFrames : KeyFrames ν} {e : SubsetEdge} {survivors : Survivors}
    {p : Nat} : p ∈ upwardStep keyFrames e survivors ↔
      p ∉ survivors e.parentTable ∧ ∃ c ∈ survivors e.childTable, Linked keyFrames e p c := by
  rw [upwardStep]
  split
  · rename_i empty
    simp [empty]
  · rw [Finset.mem_sdiff, and_comm, mem_semiJoin]
    apply and_congr_right
    intro _
    simp only [mem_keysOf, Linked]
    constructor
    · intro ⟨parentRow, key, parentAt, parentKey, c, kept, childRow, childAt, childKey⟩
      exact ⟨c, kept, key, parentRow, childRow, parentAt, parentKey, childAt, childKey⟩
    · intro ⟨c, kept, key, parentRow, childRow, parentAt, parentKey, childAt, childKey⟩
      exact ⟨parentRow, key, parentAt, parentKey, c, kept, childRow, childAt, childKey⟩

section Round

variable {keyFrames : KeyFrames ν} {directions : String → EdgeDirection}
  {edges : List (EdgeOf keyFrames)}

theorem applyDown_survivors (e : SubsetEdge) (state : RoundState) :
    (applyDown keyFrames e state).survivors =
      keep state.survivors e.childTable (downwardStep keyFrames e state.survivors) := by
  rw [applyDown]
  split
  · rename_i empty
    rw [empty, keep, Finset.union_empty, Function.update_eq_self]
  · rfl

theorem applyDown_total (e : SubsetEdge) (state : RoundState) :
    (applyDown keyFrames e state).addedPerTable.total =
      state.addedPerTable.total + (downwardStep keyFrames e state.survivors).card := by
  rw [applyDown]
  split
  · rename_i empty
    rw [empty, Finset.card_empty, Nat.add_zero]
  · rw [Dict.total_add]

theorem applyUp_survivors (e : SubsetEdge) (state : RoundState) :
    (applyUp keyFrames e state).survivors =
      keep state.survivors e.parentTable (upwardStep keyFrames e state.survivors) := by
  rw [applyUp]
  split
  · rename_i empty
    rw [empty, keep, Finset.union_empty, Function.update_eq_self]
  · rfl

theorem applyUp_total (e : SubsetEdge) (state : RoundState) :
    (applyUp keyFrames e state).addedPerTable.total =
      state.addedPerTable.total + (upwardStep keyFrames e state.survivors).card := by
  rw [applyUp]
  split
  · rename_i empty
    rw [empty, Finset.card_empty, Nat.add_zero]
  · rw [Dict.total_add]

theorem applyDown_advance {e : EdgeOf keyFrames} (member : e ∈ edges)
    (enabled : (directions e.val.edgeId).goesDown) (state : RoundState) :
    Advance edges directions state (applyDown keyFrames e.val state) := by
  apply advance_keep e.property.2 _ _ (applyDown_survivors e.val state)
    (applyDown_total e.val state)
  · intro row new
    obtain ⟨notKept, _, _, _, _, _, _, _, located, _⟩ := mem_downwardStep.mp new
    exact ⟨notKept, (List.getElem?_eq_some_iff.mp located).1⟩
  · intro selection closed kept row new
    obtain ⟨_, p, keptParent, linked⟩ := mem_downwardStep.mp new
    exact closed.down e member enabled p row (kept _ p keptParent) linked

theorem applyUp_advance {e : EdgeOf keyFrames} (member : e ∈ edges)
    (enabled : (directions e.val.edgeId).goesUp) (state : RoundState) :
    Advance edges directions state (applyUp keyFrames e.val state) := by
  apply advance_keep e.property.1 _ _ (applyUp_survivors e.val state) (applyUp_total e.val state)
  · intro row new
    obtain ⟨notKept, _, _, _, _, _, located, _⟩ := mem_upwardStep.mp new
    exact ⟨notKept, (List.getElem?_eq_some_iff.mp located).1⟩
  · intro selection closed kept row new
    obtain ⟨_, c, keptChild, linked⟩ := mem_upwardStep.mp new
    exact closed.up e member enabled row c (kept _ c keptChild) linked

/-- The steps of one edge that are enabled add nothing. -/
def Saturated (directions : String → EdgeDirection) (survivors : Survivors)
    (e : EdgeOf keyFrames) : Prop :=
  ((directions e.val.edgeId).goesDown → downwardStep keyFrames e.val survivors = ∅) ∧
    ((directions e.val.edgeId).goesUp → upwardStep keyFrames e.val survivors = ∅)

theorem applyEdge_advance {e : EdgeOf keyFrames} (member : e ∈ edges) (state : RoundState) :
    Advance edges directions state (applyEdge keyFrames directions state e) ∧
      ((applyEdge keyFrames directions state e).addedPerTable.total =
        state.addedPerTable.total → Saturated directions state.survivors e) := by
  rw [applyEdge]
  generalize isMiddle : (if (directions e.val.edgeId).goesDown then
    applyDown keyFrames e.val state else state) = middle
  have down : Advance edges directions state middle ∧
      (middle.addedPerTable.total = state.addedPerTable.total →
        (directions e.val.edgeId).goesDown → downwardStep keyFrames e.val state.survivors = ∅) := by
    rw [← isMiddle]
    split
    · rename_i enabled
      refine ⟨applyDown_advance member enabled state, ?_⟩
      intro same _
      rw [applyDown_total] at same
      exact Finset.card_eq_zero.mp (by omega)
    · rename_i disabled
      exact ⟨Advance.refl state, fun _ enabled => absurd enabled disabled⟩
  generalize isLast : (if (directions e.val.edgeId).goesUp then
    applyUp keyFrames e.val middle else middle) = last
  have up : Advance edges directions middle last ∧
      (last.addedPerTable.total = middle.addedPerTable.total →
        (directions e.val.edgeId).goesUp → upwardStep keyFrames e.val middle.survivors = ∅) := by
    rw [← isLast]
    split
    · rename_i enabled
      refine ⟨applyUp_advance member enabled middle, ?_⟩
      intro same _
      rw [applyUp_total] at same
      exact Finset.card_eq_zero.mp (by omega)
    · rename_i disabled
      exact ⟨Advance.refl middle, fun _ enabled => absurd enabled disabled⟩
  refine ⟨down.1.trans up.1, ?_⟩
  intro same
  have downLe := down.1.total_le
  have upLe := up.1.total_le
  have stillMiddle : middle.addedPerTable.total = state.addedPerTable.total := by omega
  have upSaturated := up.2 (by omega)
  rw [down.1.unchanged stillMiddle] at upSaturated
  exact ⟨down.2 stillMiddle, upSaturated⟩

theorem foldl_applyEdge_advance {part : List (EdgeOf keyFrames)} (inside : ∀ e ∈ part, e ∈ edges)
    (state : RoundState) :
    Advance edges directions state (part.foldl (applyEdge keyFrames directions) state) ∧
      ((part.foldl (applyEdge keyFrames directions) state).addedPerTable.total =
        state.addedPerTable.total → ∀ e ∈ part, Saturated directions state.survivors e) := by
  induction part generalizing state with
  | nil => exact ⟨Advance.refl state, fun _ e member => absurd member List.not_mem_nil⟩
  | cons e part ih =>
      obtain ⟨first, firstSaturated⟩ := applyEdge_advance (inside e List.mem_cons_self) state
      obtain ⟨rest, restSaturated⟩ := ih (fun other member =>
        inside other (List.mem_cons_of_mem _ member)) (applyEdge keyFrames directions state e)
      refine ⟨first.trans rest, ?_⟩
      intro same other member
      have firstLe := first.total_le
      have restLe := rest.total_le
      rw [List.foldl_cons] at same
      have still : (applyEdge keyFrames directions state e).addedPerTable.total =
          state.addedPerTable.total := by omega
      cases List.mem_cons.mp member with
      | inl isHead =>
          rw [isHead]
          exact firstSaturated still
      | inr inRest =>
          rw [← first.unchanged still]
          exact restSaturated (by omega) other inRest

theorem closed_of_saturated {survivors : Survivors}
    (saturated : ∀ e ∈ edges, Saturated directions survivors e) :
    Closed keyFrames directions edges fun table => survivors table where
  down := by
    intro e member enabled p c kept linked
    apply Classical.byContradiction
    intro notKept
    have new := mem_downwardStep.mpr ⟨notKept, p, kept, linked⟩
    rw [(saturated e member).1 enabled] at new
    exact Finset.notMem_empty c new
  up := by
    intro e member enabled p c kept linked
    apply Classical.byContradiction
    intro notKept
    have new := mem_upwardStep.mpr ⟨notKept, c, kept, linked⟩
    rw [(saturated e member).2 enabled] at new
    exact Finset.notMem_empty p new

end Round

section Run

variable {keyFrames : KeyFrames ν} {directions : String → EdgeDirection}
  {edges : List (EdgeOf keyFrames)} {ε : Type} (budgetCheck : BudgetCheck ε)

/-- The outcome of a run from some kept rows on: the least closed selection over them, or what the
budget gate raised. -/
def LeastFrom (directions : String → EdgeDirection) (edges : List (EdgeOf keyFrames))
    (budgetCheck : BudgetCheck ε) (survivors : Survivors) :
    Except (ClosureError ε) ClosureResult → Prop
  | .error .nontermination => False
  | .error (.budget error) => ∃ kept edgeStats, budgetCheck kept edgeStats = .error error
  | .ok result =>
      (∀ table, survivors table ⊆ result.survivors table) ∧
      Closed keyFrames directions edges (fun table => result.survivors table) ∧
      ∀ selection, Closed keyFrames directions edges selection → Within survivors selection →
        Within result.survivors selection

theorem runRound_advance (directions : String → EdgeDirection) (edges : List (EdgeOf keyFrames))
    (rounds : Nat) (state : LoopState) :
    ∃ before after : RoundState, before.survivors = state.survivors ∧
      before.addedPerTable.total = 0 ∧ Advance edges directions before after ∧
      (runRound keyFrames directions edges rounds state).1.survivors = after.survivors ∧
      (runRound keyFrames directions edges rounds state).2 = after.addedPerTable.total ∧
      (after.addedPerTable.total = 0 →
        Closed keyFrames directions edges fun table => after.survivors table) := by
  obtain ⟨advance, saturated⟩ : Advance edges directions _ _ ∧ _ :=
    foldl_applyEdge_advance (fun e member => member)
      ⟨state.survivors, state.downAdded, state.upAdded, Dict.empty⟩
  refine ⟨_, _, rfl, rfl, advance, rfl, rfl, ?_⟩
  intro none'
  rw [advance.unchanged none']
  exact closed_of_saturated (saturated none')

theorem closureLoop_least (remaining rounds : Nat) (state : LoopState)
    (enough : totalRows keyFrames < rank keyFrames state.survivors + remaining) :
    LeastFrom directions edges budgetCheck state.survivors
      (closureLoop keyFrames directions edges budgetCheck remaining rounds state) := by
  induction remaining generalizing rounds state with
  | zero =>
      have bound := rank_le_totalRows keyFrames state.survivors
      omega
  | succ remaining ih =>
      obtain ⟨before, after, isBefore, started, advance, kept, total, closed⟩ :=
        runRound_advance directions edges rounds state
      have grows := advance.grows
      have within := advance.within
      have counted := advance.counted
      rw [isBefore] at grows within counted
      rw [← kept] at grows within counted closed
      rw [← total] at counted closed
      rw [started, Nat.add_zero] at counted
      rw [closureLoop]
      generalize runRound keyFrames directions edges rounds state = round at *
      obtain ⟨next, totalAdded⟩ := round
      dsimp only at *
      cases checked : budgetCheck next.survivors
          (stats keyFrames directions edges next.downAdded next.upAdded) with
      | error error => exact ⟨_, _, checked⟩
      | ok done =>
          dsimp only
          split
          · rename_i none'
            exact ⟨grows, closed none', within⟩
          · have rest := ih (rounds + 1) next (by omega)
            generalize closureLoop keyFrames directions edges budgetCheck remaining (rounds + 1)
              next = outcome at rest ⊢
            match outcome with
            | .error .nontermination => exact rest
            | .error (.budget error) => exact rest
            | .ok result =>
                obtain ⟨restGrows, restClosed, restWithin⟩ := rest
                exact ⟨fun table => (grows table).trans (restGrows table), restClosed,
                  fun selection isClosed inside =>
                    restWithin selection isClosed (within selection isClosed inside)⟩

theorem computeClosure_least (directions : String → EdgeDirection)
    (edges : List (EdgeOf keyFrames)) (seedRows : Survivors) :
    LeastFrom directions edges budgetCheck
      (fun table => if table ∈ keyFrames.keys then seedRows table else ∅)
      (computeClosure keyFrames directions edges seedRows budgetCheck) := by
  rw [computeClosure]
  apply closureLoop_least
  omega

theorem verifyClosure_of_closed {survivors : Survivors}
    (closed : Closed keyFrames directions edges fun table => survivors table) :
    verifyClosure keyFrames directions edges survivors = .ok () := by
  rw [verifyClosure, forM_eq_ok]
  intro e member
  rw [verifyEdge]
  split
  · rename_i enabled
    have none' : (((keysOf (frameOf keyFrames e.val.childTable) e.val.childColumns
        (survivors e.val.childTable)).filter fun key => key ∉ keysOf
          (frameOf keyFrames e.val.parentTable) e.val.parentColumns
          (survivors e.val.parentTable)).filter fun key => key ∈
            ((frameOf keyFrames e.val.parentTable).filterMap
              (keyOf e.val.parentColumns)).dedup) = [] := by
      rw [List.filter_eq_nil_iff]
      intro key unmatched present
      simp only [List.mem_filter, decide_eq_true_eq, List.mem_dedup, List.mem_filterMap,
        mem_keysOf] at unmatched present
      obtain ⟨⟨c, keptChild, childRow, childAt, childKey⟩, absent⟩ := unmatched
      obtain ⟨parentRow, inParent, parentKey⟩ := present
      obtain ⟨p, parentAt⟩ := List.mem_iff_getElem?.mp inParent
      have linked : Linked keyFrames e.val p c :=
        ⟨key, parentRow, childRow, parentAt, parentKey, childAt, childKey⟩
      exact absent ⟨p, closed.up e member enabled p c keptChild linked, parentRow, parentAt,
        parentKey⟩
    dsimp only
    rw [none', if_neg (by simp)]
  · rfl

end Run

/-- The closure of the seeds is the least closed selection over them: the growth bound never
fires, only the budget gate can stop a run, the re-check passes, and the order of the edges does
not matter. -/
theorem subset_closure_is_least {ε : Type} (keyFrames : KeyFrames ν)
    (directions : String → EdgeDirection) (edges : List (EdgeOf keyFrames)) (seedRows : Survivors)
    (budgetCheck : BudgetCheck ε) :
    match computeClosure keyFrames directions edges seedRows budgetCheck with
    | .error .nontermination => False
    | .error (.budget error) => ∃ survivors edgeStats, budgetCheck survivors edgeStats = .error error
    | .ok result =>
        (∀ table ∈ keyFrames.keys, seedRows table ⊆ result.survivors table) ∧
        Closed keyFrames directions edges (fun table => result.survivors table) ∧
        verifyClosure keyFrames directions edges result.survivors = .ok () ∧
        (∀ selection : String → Set Nat, Closed keyFrames directions edges selection →
          (∀ table ∈ keyFrames.keys, ∀ row ∈ seedRows table, row ∈ selection table) →
          Within result.survivors selection) ∧
        ∀ others : List (EdgeOf keyFrames), others.Perm edges →
          ∀ (otherCheck : BudgetCheck ε) (other : ClosureResult),
            computeClosure keyFrames directions others seedRows otherCheck = .ok other →
              other.survivors = result.survivors := by
  have seeded : ∀ {selection : String → Set Nat},
      (∀ table ∈ keyFrames.keys, ∀ row ∈ seedRows table, row ∈ selection table) →
      Within (fun table => if table ∈ keyFrames.keys then seedRows table else ∅) selection := by
    intro selection inside table row member
    dsimp only at member
    by_cases known : table ∈ keyFrames.keys
    · rw [if_pos known] at member
      exact inside table known row member
    · rw [if_neg known] at member
      cases Finset.notMem_empty row member
  have seedsKept : ∀ {survivors : Survivors}, (∀ table,
      (if table ∈ keyFrames.keys then seedRows table else ∅) ⊆ survivors table) →
      ∀ table ∈ keyFrames.keys, seedRows table ⊆ survivors table := by
    intro survivors kept table known
    have own := kept table
    rw [if_pos known] at own
    exact own
  have least := computeClosure_least budgetCheck directions edges seedRows
  cases run : computeClosure keyFrames directions edges seedRows budgetCheck with
  | error error =>
      rw [run] at least
      cases error with
      | nontermination => exact least
      | budget error => exact least
  | ok result =>
      rw [run] at least
      obtain ⟨grows, closed, within⟩ := least
      refine ⟨seedsKept grows, closed, verifyClosure_of_closed closed, ?_, ?_⟩
      · intro selection isClosed inside
        exact within selection isClosed (seeded inside)
      · intro others perm otherCheck other otherRun
        have otherLeast := computeClosure_least otherCheck directions others seedRows
        rw [otherRun] at otherLeast
        obtain ⟨otherGrows, otherClosed, otherWithin⟩ := otherLeast
        have forward := otherWithin _ (closed.of_perm perm) (seeded (seedsKept grows))
        have backward := within _ (otherClosed.of_perm perm.symm) (seeded (seedsKept otherGrows))
        funext table
        exact Finset.Subset.antisymm (forward table) (backward table)

end DecoyEngine.Subset
