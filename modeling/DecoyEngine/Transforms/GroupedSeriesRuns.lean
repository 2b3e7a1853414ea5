import DecoyEngine.Transforms.GroupedSeries

namespace DecoyEngine.Transforms.GroupedSeries

open DecoyEngine.Data

/-! The groups of a frame, and when one pass over the sorted rows finds them. -/

variable {K O C S : Type} [LinearOrder K] [LinearOrder O] [LinearOrder C]

/-- The rows of one group, with their positions, by `order_by` and then by position. -/
def Frame.inOrder (frame : Frame K O C) (group : WithTop K) : List (Row K O × Nat) :=
  (frame.rows.zipIdx.filter (fun x => x.1.group.sortKey = group)).insertionSort
    (fun x y => x.1.order < y.1.order ∨ x.1.order = y.1.order ∧ x.2 ≤ y.2)

def Frame.positions (frame : Frame K O C) (group : WithTop K) : List Nat :=
  (frame.rows.zipIdx.filter (fun x => x.1.group.sortKey = group)).map Prod.snd

/-- The frame without the rows of the other groups. -/
def Frame.only (frame : Frame K O C) (group : WithTop K) : Frame K O C where
  rows := frame.rows.filter (fun row => row.group.sortKey = group)
  inRow := frame.inRow
  inRow_monotone := frame.inRow_monotone
  label := frame.label

/-- `!=` of two group cells has a truth value. -/
def Comparable (x y : Cell K) : Prop := x ≠ .null .na ∧ y ≠ .null .na

/-- `!=` of two group cells, as a row hands them out, tells whether their groups differ. -/
def ToldApart (inRow : K → C) : Cell K → Cell K → Prop
  | .value a, .value b => inRow a = inRow b → a = b
  | .null kind, .null other => kind = .none ∧ other = .none
  | _, _ => True

theorem differs_told {inRow : K → C} {x y : Cell K} (comparable : Comparable x y)
    (told : ToldApart inRow x y) :
    differs (some (x.map inRow)) (y.map inRow) = .ok (decide (x.sortKey ≠ y.sortKey)) := by
  obtain ⟨xNotNa, yNotNa⟩ := comparable
  cases x with
  | value a =>
      cases y with
      | value b =>
          have same : inRow b ≠ inRow a ↔ (a : WithTop K) ≠ b := by
            rw [Ne, Ne, WithTop.coe_inj]
            exact not_congr ⟨fun equal => told equal.symm, fun equal => by rw [equal]⟩
          exact congrArg Except.ok (decide_eq_decide.mpr same)
      | null kind =>
          cases kind <;> first | exact absurd rfl yNotNa | simp [Cell.map, differs, Cell.sortKey]
  | null kind =>
      cases y with
      | value b =>
          cases kind <;> first | exact absurd rfl xNotNa | simp [Cell.map, differs, Cell.sortKey]
      | null other =>
          obtain ⟨rfl, rfl⟩ := told
          simp [Cell.map, differs, Cell.sortKey]

omit [LinearOrder K] in
theorem differs_answers {inRow : K → C} {x y : Cell K} (comparable : Comparable x y) :
    ∃ changed, differs (some (x.map inRow)) (y.map inRow) = .ok changed := by
  obtain ⟨xNotNa, yNotNa⟩ := comparable
  cases x with
  | value a =>
      cases y with
      | value b => exact ⟨_, rfl⟩
      | null kind => cases kind <;> first | exact absurd rfl yNotNa | exact ⟨_, rfl⟩
  | null kind =>
      cases y with
      | value b => cases kind <;> first | exact absurd rfl xNotNa | exact ⟨_, rfl⟩
      | null other =>
          cases kind <;> cases other <;>
            first | exact absurd rfl xNotNa | exact absurd rfl yNotNa | exact ⟨_, rfl⟩

omit [LinearOrder K] in
theorem comparable_of_differs {inRow : K → C} {x y : Cell K} {changed : Bool}
    (answered : differs (some (x.map inRow)) (y.map inRow) = .ok changed) : Comparable x y := by
  constructor
  · intro isNa
    subst isNa
    cases answered
  · intro isNa
    subst isNa
    cases x with
    | value a => cases answered
    | null kind => cases kind <;> cases answered

theorem told_of_differs {inRow : K → C} {x y : Cell K} {changed : Bool}
    (sorted : x.sortKey ≤ y.sortKey)
    (answered : differs (some (x.map inRow)) (y.map inRow) = .ok changed)
    (right : changed = true ↔ x.sortKey ≠ y.sortKey) : ToldApart inRow x y := by
  cases x with
  | value a =>
      cases y with
      | value b =>
          intro equal
          have unchanged : changed = false := by
            simpa [Cell.map, differs, equal] using answered.symm
          by_contra distinct
          have seen := right.mpr fun same => distinct (WithTop.coe_inj.mp same)
          rw [unchanged] at seen
          cases seen
      | null kind => trivial
  | null kind =>
      cases y with
      | value b => exact absurd sorted (by simp [Cell.sortKey])
      | null other =>
          have unchanged : changed = false := Bool.eq_false_iff.mpr fun seen => right.mp seen rfl
          subst unchanged
          cases kind <;> cases other <;> simp [Cell.map, differs] at answered
          exact ⟨rfl, rfl⟩

omit [LinearOrder K] [LinearOrder C] in
theorem eq_of_told {inRow : K → C} {x y : Cell K} (told : ToldApart inRow x y)
    (same : x.sortKey = y.sortKey) : x = y := by
  cases x with
  | value a =>
      cases y with
      | value b => exact congrArg Cell.value (WithTop.coe_inj.mp same)
      | null kind => exact absurd same WithTop.coe_ne_top
  | null kind =>
      cases y with
      | value b => exact absurd same.symm WithTop.coe_ne_top
      | null other => rw [told.1, told.2]

/-- What tells a key from a larger one tells it from all the keys after that. -/
theorem told_past {inRow : K → C} (monotone : Monotone inRow) {x y z : Cell K}
    (told : ToldApart inRow x y) (below : x.sortKey < y.sortKey) (sorted : y.sortKey ≤ z.sortKey) :
    ToldApart inRow x z := by
  cases x with
  | null kind => exact absurd below not_top_lt
  | value a =>
      cases z with
      | null kind => trivial
      | value c =>
          intro equal
          cases y with
          | null kind => exact absurd (top_le_iff.mp sorted) WithTop.coe_ne_top
          | value b =>
              have small : a < b := WithTop.coe_lt_coe.mp below
              have large : b ≤ c := WithTop.coe_le_coe.mp sorted
              have between := le_antisymm (monotone small.le) (equal ▸ monotone large)
              exact absurd (told between) small.ne

/-- The states of the rows, without the writes. -/
def sweepStates (numbering : Numbering C S) :
    Option (Cell C) → S → List (Cell C) → Except Refusal (List S)
  | _, _, [] => .ok []
  | current, state, g :: rest => do
      let changed ← differs current g
      let current := if changed then some g else current
      let state := if changed then numbering.first g else state
      let states ← sweepStates numbering current (numbering.next state) rest
      pure (state :: states)

variable {numbering : Numbering C S}

theorem numberRows_eq (current : Option (Cell C)) (state : S) (cells : List (Cell C × Nat))
    (result : List Int) :
    numberRows numbering current state cells result =
      (sweepStates numbering current state (cells.map Prod.fst)).map (fun states =>
        scatter result ((cells.map Prod.snd).zip (states.map numbering.value))) := by
  induction cells generalizing current state result with
  | nil => rfl
  | cons entry rest ih =>
      obtain ⟨g, origPos⟩ := entry
      rw [numberRows, List.map_cons, List.map_cons, sweepStates]
      cases answered : differs current g with
      | error refusal => rfl
      | ok changed =>
          simp only [bind, Except.bind, pure, Except.pure]
          rw [ih]
          cases sweepStates numbering _ _ (rest.map Prod.fst) with
          | error refusal => rfl
          | ok states => rfl

section Pass

variable (inRow : K → C)

/-- A row's group cell as the loop sees it. -/
def seen (x : Row K O × Nat) : Cell C := x.1.group.map inRow

def groupOf (x : Row K O × Nat) : WithTop K := x.1.group.sortKey

/-- The states of correctly found groups. -/
def groupStates (numbering : Numbering C S) (before : Option (WithTop K × S))
    (rows : List (Row K O × Nat)) : List S :=
  runStates groupOf (fun x => numbering.first (seen inRow x)) numbering.next before rows

variable {inRow} {rest : List (Row K O × Nat)} {lead : Row K O × Nat} {state : S}

def Answers (x y : Row K O × Nat) : Prop := Comparable x.1.group y.1.group

def Tells (inRow : K → C) (x y : Row K O × Nat) : Prop :=
  ToldApart inRow x.1.group y.1.group

omit [LinearOrder O] in
theorem sweepStates_after (state : S) (answers : (lead :: rest).Pairwise Answers)
    (tells : (lead :: rest).Pairwise (Tells inRow)) :
    sweepStates numbering (some (seen inRow lead)) (numbering.next state)
        (rest.map (seen inRow)) =
      .ok (groupStates inRow numbering (some (groupOf lead, state)) rest) := by
  induction rest generalizing lead state with
  | nil => rfl
  | cons y rest ih =>
      have comparable := List.rel_of_pairwise_cons answers List.mem_cons_self
      have told := List.rel_of_pairwise_cons tells List.mem_cons_self
      have answered : differs (some (seen inRow lead)) (seen inRow y) =
          .ok (decide (groupOf lead ≠ groupOf y)) := differs_told comparable told
      rw [List.map_cons, sweepStates, answered, groupStates, runStates, runState]
      by_cases same : groupOf lead = groupOf y
      · have skips : (lead :: rest).Sublist (lead :: y :: rest) := by simp
        have tail := ih (numbering.next state) (answers.sublist skips)
          (tells.sublist skips)
        simp only [bind, Except.bind, pure, Except.pure, same, ne_eq, not_true_eq_false,
          decide_false, Bool.false_eq_true, if_false, if_true, tail]
        rfl
      · have tail := ih (numbering.first (seen inRow y)) (List.pairwise_cons.mp answers).2
          (List.pairwise_cons.mp tells).2
        simp only [bind, Except.bind, pure, Except.pure, same, ne_eq, not_false_eq_true,
          decide_true, if_true, if_false, tail]
        rfl

omit [LinearOrder K] [LinearOrder O] in
theorem sweepStates_cons {current : Option (Cell C)} {g : Cell C} {cells : List (Cell C)}
    {states : List S}
    (swept : sweepStates numbering current state (g :: cells) = .ok states) :
    ∃ changed tail, differs current g = .ok changed ∧
      states = (if changed then numbering.first g else state) :: tail ∧
      sweepStates numbering (if changed then some g else current)
        (numbering.next (if changed then numbering.first g else state)) cells = .ok tail := by
  rw [sweepStates] at swept
  cases answered : differs current g with
  | error refusal =>
      rw [answered] at swept
      cases swept
  | ok changed =>
      simp only [answered, bind, Except.bind, pure, Except.pure] at swept
      cases tail : sweepStates numbering (if changed then some g else current)
          (numbering.next (if changed then numbering.first g else state)) cells with
      | error refusal =>
          rw [tail] at swept
          cases swept
      | ok states =>
          rw [tail] at swept
          exact ⟨changed, states, rfl, (Except.ok.inj swept).symm, tail⟩

theorem length_sweepStates {current : Option (Cell C)} {state : S} {cells : List (Cell C)}
    {states : List S} (swept : sweepStates numbering current state cells = .ok states) :
    states.length = cells.length := by
  induction cells generalizing current state states with
  | nil =>
      obtain rfl := Except.ok.inj swept
      rfl
  | cons g cells ih =>
      obtain ⟨changed, tail, -, rfl, tailSwept⟩ := sweepStates_cons swept
      rw [List.length_cons, ih tailSwept, List.length_cons]

omit [LinearOrder K] [LinearOrder O] in
theorem sweepStates_none (g : Cell C) (cells : List (Cell C)) :
    sweepStates numbering none state (g :: cells) =
      (sweepStates numbering (some g) (numbering.next (numbering.first g)) cells).map
        (numbering.first g :: ·) := by
  rw [sweepStates]
  simp only [differs, bind, Except.bind, pure, Except.pure, if_true]
  cases sweepStates numbering (some g) (numbering.next (numbering.first g)) cells <;> rfl

omit [LinearOrder K] [LinearOrder O] in
theorem answers_of_sweep {states : List S}
    (swept : sweepStates numbering (some (seen inRow lead)) state (rest.map (seen inRow)) =
      .ok states) : (lead :: rest).Pairwise Answers := by
  induction rest generalizing lead state states with
  | nil => exact List.pairwise_singleton _ _
  | cons y rest ih =>
      obtain ⟨changed, tail, answered, -, swept⟩ := sweepStates_cons swept
      have comparable : Answers lead y := comparable_of_differs answered
      have others : ∀ z ∈ rest, z.1.group ≠ .null .na := by
        intro z member
        cases changed with
        | true => exact (List.rel_of_pairwise_cons (ih swept) member).2
        | false => exact (List.rel_of_pairwise_cons (ih swept) member).2
      have restAnswers : rest.Pairwise Answers := by
        cases changed with
        | true => exact (List.pairwise_cons.mp (ih swept)).2
        | false => exact (List.pairwise_cons.mp (ih swept)).2
      refine List.pairwise_cons.mpr ⟨?_, List.pairwise_cons.mpr ⟨?_, restAnswers⟩⟩
      · intro z member
        rcases List.mem_cons.mp member with rfl | later
        · exact comparable
        · exact ⟨comparable.1, others z later⟩
      · intro z member
        exact ⟨comparable.2, others z member⟩

/-- A generator that never comes back to a first value shows every wrong comparison. -/
def Rises (numbering : Numbering C S) : Prop :=
  ∀ g other (j : Nat),
    numbering.value (numbering.next^[j + 1] (numbering.first g)) ≠
      numbering.value (numbering.first other)

omit [LinearOrder O] in
theorem tells_of_values (monotone : Monotone inRow) (rises : Rises numbering) {states : List S}
    {j : Nat} (reached : state = numbering.next^[j] (numbering.first (seen inRow lead)))
    (sorted : (lead :: rest).Pairwise (fun x y => groupOf x ≤ groupOf y))
    (swept : sweepStates numbering (some (seen inRow lead)) (numbering.next state)
      (rest.map (seen inRow)) = .ok states)
    (values : states.map numbering.value =
      (groupStates inRow numbering (some (groupOf lead, state)) rest).map numbering.value) :
    (lead :: rest).Pairwise (Tells inRow) := by
  induction rest generalizing lead state states j with
  | nil => exact List.pairwise_singleton _ _
  | cons y rest ih =>
      obtain ⟨changed, tail, answered, rfl, tailSwept⟩ := sweepStates_cons swept
      rw [groupStates, runStates, runState, List.map_cons, List.map_cons, List.cons.injEq] at values
      obtain ⟨here, tailValues⟩ := values
      have le := List.rel_of_pairwise_cons sorted List.mem_cons_self
      have stepped : numbering.next state =
          numbering.next^[j + 1] (numbering.first (seen inRow lead)) := by
        rw [Function.iterate_succ_apply', reached]
      by_cases same : groupOf lead = groupOf y
      · obtain rfl : changed = false := by
          by_contra wrong
          rw [Bool.not_eq_false] at wrong
          rw [wrong, if_pos rfl, if_pos same, stepped] at here
          exact rises _ _ _ here.symm
        have told : Tells inRow lead y :=
          told_of_differs le answered (iff_of_false Bool.false_ne_true (not_not.mpr same))
        have skips : (lead :: rest).Sublist (lead :: y :: rest) := by simp
        rw [if_pos same, ← same] at tailValues
        have tails := ih stepped (sorted.sublist skips) tailSwept tailValues
        have twins : lead.1.group = y.1.group := eq_of_told told same
        rw [List.pairwise_cons] at tails ⊢
        refine ⟨?_, List.pairwise_cons.mpr ⟨?_, tails.2⟩⟩
        · intro z member
          rcases List.mem_cons.mp member with rfl | later
          · exact told
          · exact tails.1 z later
        · intro z member
          have leads := tails.1 z member
          rwa [Tells, twins] at leads
      · obtain rfl : changed = true := by
          by_contra wrong
          rw [Bool.not_eq_true] at wrong
          rw [wrong, if_neg Bool.false_ne_true, if_neg same, stepped] at here
          exact rises _ _ _ here
        have told : Tells inRow lead y :=
          told_of_differs le answered (iff_of_true rfl same)
        have sortedTail := (List.pairwise_cons.mp sorted).2
        rw [if_neg same] at tailValues
        have tails := ih (j := 0) rfl sortedTail tailSwept tailValues
        refine List.pairwise_cons.mpr ⟨?_, tails⟩
        intro z member
        rcases List.mem_cons.mp member with rfl | later
        · exact told
        · exact told_past monotone told (lt_of_le_of_ne le same)
            (List.rel_of_pairwise_cons sortedTail later)

/-- Whatever is compared, a state is reached from the first one of some group. -/
def Reached (numbering : Numbering C S) (state : S) : Prop :=
  ∃ g j, state = numbering.next^[j] (numbering.first g)

omit [LinearOrder K] [LinearOrder O] in
variable (inRow) in
theorem sweepStates_total (answers : (lead :: rest).Pairwise Answers)
    (reached : Reached numbering state) :
    ∃ states, sweepStates numbering (some (seen inRow lead)) state (rest.map (seen inRow)) =
      .ok states ∧ ∀ reachedState ∈ states, Reached numbering reachedState := by
  induction rest generalizing lead state with
  | nil => exact ⟨[], rfl, by simp⟩
  | cons y rest ih =>
      have comparable := List.rel_of_pairwise_cons answers List.mem_cons_self
      obtain ⟨changed, answered⟩ :
          ∃ changed, differs (some (seen inRow lead)) (seen inRow y) = .ok changed :=
        differs_answers comparable
      have here : Reached numbering
          (if changed then numbering.first (seen inRow y) else state) := by
        cases changed with
        | true => exact ⟨seen inRow y, 0, rfl⟩
        | false => exact reached
      have next : Reached numbering
          (numbering.next (if changed then numbering.first (seen inRow y) else state)) := by
        obtain ⟨g, j, equal⟩ := here
        exact ⟨g, j + 1, by rw [equal, Function.iterate_succ_apply']⟩
      obtain ⟨states, swept, all⟩ : ∃ states,
          sweepStates numbering (if changed then some (seen inRow y) else some (seen inRow lead))
            (numbering.next (if changed then numbering.first (seen inRow y) else state))
            (rest.map (seen inRow)) = .ok states ∧
          ∀ reachedState ∈ states, Reached numbering reachedState := by
        cases changed with
        | true => exact ih (List.pairwise_cons.mp answers).2 next
        | false => exact ih (answers.sublist (by simp)) next
      refine ⟨(if changed then numbering.first (seen inRow y) else state) :: states, ?_,
        List.forall_mem_cons.mpr ⟨here, all⟩⟩
      rw [List.map_cons, sweepStates, answered]
      simp only [bind, Except.bind, pure, Except.pure, swept]

end Pass

instance : Std.Total (SortsBefore (K := K) (O := O)) where
  total x y := by
    rcases lt_trichotomy x.1.group.sortKey y.1.group.sortKey with below | same | above
    · exact .inl (.inl below)
    · rcases le_total x.1.order y.1.order with le | ge
      · exact .inl (.inr ⟨same, le⟩)
      · exact .inr (.inr ⟨same.symm, ge⟩)
    · exact .inr (.inl above)

instance : IsTrans (Row K O × Nat) SortsBefore where
  trans x y z first second := by
    rcases first with below | ⟨same, le⟩
    · rcases second with above | ⟨equal, -⟩
      · exact .inl (below.trans above)
      · exact .inl (equal ▸ below)
    · rcases second with above | ⟨equal, le'⟩
      · exact .inl (same ▸ above)
      · exact .inr ⟨same.trans equal, le.trans le'⟩

namespace Frame

variable {frame : Frame K O C} {out : List Int} {initial : S}

def sorted (frame : Frame K O C) : List (Row K O × Nat) :=
  frame.rows.zipIdx.insertionSort SortsBefore

theorem sorted_perm : frame.sorted.Perm frame.rows.zipIdx :=
  List.perm_insertionSort _ _

theorem sorted_groups : frame.sorted.Pairwise (fun x y => groupOf x ≤ groupOf y) := by
  refine (List.pairwise_insertionSort SortsBefore _).imp fun {x y} before => ?_
  rcases before with below | ⟨same, -⟩
  · exact le_of_lt below
  · exact le_of_eq same

theorem positions_nodup : (frame.sorted.map Prod.snd).Nodup := by
  rw [(sorted_perm.map Prod.snd).nodup_iff, List.zipIdx_map_snd]
  exact List.nodup_range'

theorem sorted_nodup : frame.sorted.Nodup := positions_nodup.of_map

theorem position_lt {x : Row K O × Nat} (member : x ∈ frame.sorted) :
    x.2 < frame.rows.length := by
  have member := sorted_perm.subset member
  have found := List.mem_zipIdx_iff_getElem?.mp member
  exact (List.getElem?_eq_some_iff.mp found).1

theorem inOrder_eq (group : WithTop K) :
    frame.inOrder group = frame.sorted.filter (fun x => groupOf x = group) := by
  rw [sorted, filter_insertionSort, inOrder]
  have increasing : frame.rows.zipIdx.Pairwise (fun x y => x.2 < y.2) := by
    rw [← List.pairwise_map (f := Prod.snd), List.zipIdx_map_snd]
    exact List.pairwise_lt_range'
  refine insertionSort_congr (List.Pairwise.imp_of_mem ?_ (increasing.filter _))
  intro x y xMember yMember earlier
  have xGroup : x.1.group.sortKey = group := of_decide_eq_true (List.mem_filter.mp xMember).2
  have yGroup : y.1.group.sortKey = group := of_decide_eq_true (List.mem_filter.mp yMember).2
  rw [SortsBefore, xGroup, yGroup]
  constructor
  · intro before
    rcases before with below | ⟨same, -⟩
    · exact .inr ⟨rfl, below.le⟩
    · exact .inr ⟨rfl, same.le⟩
  · intro before
    rcases before with below | ⟨-, le⟩
    · exact absurd below (lt_irrefl _)
    · rcases le.lt_or_eq with below | same
      · exact .inl below
      · exact .inr ⟨same, earlier.le⟩

theorem pairwise_sorted {R : Cell K → Cell K → Prop} (symmetric : ∀ x y, R x y → R y x) :
    frame.sorted.Pairwise (fun x y => R x.1.group y.1.group) ↔
      frame.rows.Pairwise (fun x y => R x.group y.group) := by
  rw [List.Perm.pairwise_iff (fun {x y} related => symmetric x.1.group y.1.group related)
    sorted_perm]
  rw [← List.pairwise_map (R := fun x y : Row K O => R x.group y.group) (f := Prod.fst),
    List.zipIdx_map_fst]

/-- The loop of either generator. -/
def loop (frame : Frame K O C) (numbering : Numbering C S) (initial : S) :
    Except Refusal (List Int) :=
  numberRows numbering none initial
    (frame.sorted.map (fun entry => (entry.1.group.map frame.inRow, entry.2)))
    (List.replicate frame.rows.length 0)

def NumbersBy (frame : Frame K O C) (numbering : Numbering C S) (out : List Int) : Prop :=
  ∀ group (j : Nat) lead x, (frame.inOrder group)[0]? = some lead →
    (frame.inOrder group)[j]? = some x →
    out[x.2]? = some
      (numbering.value (numbering.next^[j] (numbering.first (seen frame.inRow lead))))

/-- What the loop leaves: the value of its state at each row, at the row's position. -/
structure Leaves (frame : Frame K O C) (numbering : Numbering C S) (states : List S)
    (out : List Int) : Prop where
  states_length : states.length = frame.sorted.length
  length : out.length = frame.rows.length
  written : ∀ (i : Nat) x state, frame.sorted[i]? = some x → states[i]? = some state →
    out[x.2]? = some (numbering.value state)

theorem loop_eq :
    frame.loop numbering initial =
      (sweepStates numbering none initial (frame.sorted.map (seen frame.inRow))).map
        (fun states => scatter (List.replicate frame.rows.length 0)
          ((frame.sorted.map Prod.snd).zip (states.map numbering.value))) := by
  rw [loop, numberRows_eq, List.map_map, List.map_map]
  rfl

theorem leaves_of_sweep {states : List S}
    (swept : sweepStates numbering none initial (frame.sorted.map (seen frame.inRow)) =
      .ok states) :
    ∃ out, frame.loop numbering initial = .ok out ∧ frame.Leaves numbering states out := by
  have length : states.length = frame.sorted.length := by
    rw [length_sweepStates swept, List.length_map]
  refine ⟨_, by rw [loop_eq, swept]; rfl, length, by simp, fun i x state found reached => ?_⟩
  have firsts : ((frame.sorted.map Prod.snd).zip (states.map numbering.value)).map Prod.fst =
      frame.sorted.map Prod.snd :=
    List.map_fst_zip (by rw [List.length_map, List.length_map, length])
  refine scatter_getElem (by rw [firsts]; exact positions_nodup) ?_ ?_
  · refine List.mem_of_getElem? (i := i) ?_
    rw [List.getElem?_zip_eq_some, List.getElem?_map, List.getElem?_map, found, reached]
    exact ⟨rfl, rfl⟩
  · rw [List.length_replicate]
    exact position_lt (List.mem_of_getElem? found)

theorem sweep_of_loop (ran : frame.loop numbering initial = .ok out) :
    ∃ states, sweepStates numbering none initial (frame.sorted.map (seen frame.inRow)) =
      .ok states := by
  rw [loop_eq] at ran
  cases swept : sweepStates numbering none initial (frame.sorted.map (seen frame.inRow)) with
  | error refusal =>
      rw [swept] at ran
      cases ran
  | ok states => exact ⟨states, rfl⟩

/-- The states the rows of correctly found groups have. -/
def states (frame : Frame K O C) (numbering : Numbering C S) : List S :=
  groupStates frame.inRow numbering none frame.sorted

theorem length_states : (frame.states numbering).length = frame.sorted.length :=
  length_runStates _ _ _ _ _

theorem exists_place {i : Nat} {x : Row K O × Nat} (found : frame.sorted[i]? = some x) :
    ∃ (j : Nat) (lead : Row K O × Nat), (frame.inOrder (groupOf x))[0]? = some lead ∧
      (frame.inOrder (groupOf x))[j]? = some x := by
  have member : x ∈ frame.inOrder (groupOf x) := by
    rw [inOrder_eq]
    exact List.mem_filter.mpr ⟨List.mem_of_getElem? found, decide_eq_true rfl⟩
  obtain ⟨j, place⟩ := List.mem_iff_getElem?.mp member
  have inside := (List.getElem?_eq_some_iff.mp place).1
  have nonempty : 0 < (frame.inOrder (groupOf x)).length := by omega
  exact ⟨j, _, List.getElem?_eq_getElem nonempty, place⟩

variable (numbering) in
theorem states_at {group : WithTop K} {j : Nat} {lead x : Row K O × Nat}
    (leads : (frame.inOrder group)[0]? = some lead) (place : (frame.inOrder group)[j]? = some x) :
    ∃ i : Nat, frame.sorted[i]? = some x ∧
      (frame.states numbering)[i]? =
        some (numbering.next^[j] (numbering.first (seen frame.inRow lead))) := by
  rw [inOrder_eq] at leads place
  have member := mem_zip_runStates (fun x => numbering.first (seen frame.inRow x)) numbering.next
    sorted_groups leads place
  obtain ⟨i, entry⟩ := List.mem_iff_getElem?.mp member
  exact ⟨i, List.getElem?_zip_eq_some.mp entry⟩

theorem numbersBy_iff {states : List S} (leaves : frame.Leaves numbering states out) :
    frame.NumbersBy numbering out ↔
      states.map numbering.value = (frame.states numbering).map numbering.value := by
  constructor
  · intro numbers
    refine List.ext_getElem? fun i => ?_
    rw [List.getElem?_map, List.getElem?_map]
    cases found : frame.sorted[i]? with
    | none =>
        have past := List.getElem?_eq_none_iff.mp found
        have short : (frame.states numbering).length ≤ i := by rw [length_states]; exact past
        rw [List.getElem?_eq_none (leaves.states_length ▸ past), List.getElem?_eq_none short]
    | some x =>
        obtain ⟨j, lead, leads, place⟩ := exists_place found
        obtain ⟨i', found', reached⟩ := states_at numbering leads place
        -- a row is sorted to one place only
        obtain rfl : i = i' :=
          (List.getElem?_inj (List.getElem?_eq_some_iff.mp found).1 sorted_nodup).mp
            (found.trans found'.symm)
        have inside : i < states.length :=
          leaves.states_length ▸ (List.getElem?_eq_some_iff.mp found).1
        have swept := List.getElem?_eq_getElem inside
        have written := leaves.written i x _ found swept
        rw [numbers _ j lead x leads place, Option.some.injEq] at written
        rw [reached, swept, Option.map_some, Option.map_some, written]
  · intro values group j lead x leads place
    obtain ⟨i, found, reached⟩ := states_at numbering leads place
    have value := congrArg (fun values => values[i]?) values
    simp only [List.getElem?_map, reached, Option.map_some] at value
    obtain ⟨state, swept, equal⟩ := Option.map_eq_some_iff.mp value
    rw [leaves.written i x state found swept, equal]

theorem numbered_of_told (answers : frame.sorted.Pairwise Answers)
    (tells : frame.sorted.Pairwise (Tells frame.inRow)) :
    ∃ out, frame.loop numbering initial = .ok out ∧ out.length = frame.rows.length ∧
      frame.NumbersBy numbering out := by
  have swept : sweepStates numbering none initial (frame.sorted.map (seen frame.inRow)) =
      .ok (frame.states numbering) := by
    unfold states
    cases rows : frame.sorted with
    | nil => rfl
    | cons lead rest =>
        rw [rows] at answers tells
        rw [List.map_cons, sweepStates_none, sweepStates_after _ answers tells]
        rfl
  obtain ⟨out, ran, leaves⟩ := leaves_of_sweep swept
  exact ⟨out, ran, leaves.length, (numbersBy_iff leaves).mpr rfl⟩

theorem numbered_of_level {level : Int} (answers : frame.sorted.Pairwise Answers)
    (levels : ∀ state, Reached numbering state → numbering.value state = level) :
    ∃ out, frame.loop numbering initial = .ok out ∧ out.length = frame.rows.length ∧
      frame.NumbersBy numbering out := by
  obtain ⟨states, swept, reached⟩ : ∃ states,
      sweepStates numbering none initial (frame.sorted.map (seen frame.inRow)) = .ok states ∧
        ∀ state ∈ states, Reached numbering state := by
    cases rows : frame.sorted with
    | nil => exact ⟨[], rfl, by simp⟩
    | cons lead rest =>
        rw [rows] at answers
        have next : Reached numbering
            (numbering.next (numbering.first (seen frame.inRow lead))) :=
          ⟨seen frame.inRow lead, 1, rfl⟩
        obtain ⟨states, swept, reached⟩ := sweepStates_total frame.inRow answers next
        refine ⟨numbering.first (seen frame.inRow lead) :: states, ?_,
          List.forall_mem_cons.mpr ⟨⟨seen frame.inRow lead, 0, rfl⟩, reached⟩⟩
        rw [List.map_cons, sweepStates_none]
        exact congrArg (Except.map _) swept
  obtain ⟨out, ran, leaves⟩ := leaves_of_sweep swept
  refine ⟨out, ran, leaves.length, fun group j lead x leads place => ?_⟩
  obtain ⟨i, found, -⟩ := states_at numbering leads place
  have inside : i < states.length :=
    leaves.states_length ▸ (List.getElem?_eq_some_iff.mp found).1
  have here := List.getElem?_eq_getElem inside
  rw [leaves.written i x _ found here, levels _ (reached _ (List.mem_of_getElem? here)),
    levels _ ⟨seen frame.inRow lead, j, rfl⟩]

theorem answers_of_loop (ran : frame.loop numbering initial = .ok out) :
    frame.sorted.Pairwise Answers := by
  obtain ⟨states, swept⟩ := sweep_of_loop ran
  cases rows : frame.sorted with
  | nil => exact List.Pairwise.nil
  | cons lead rest =>
      rw [rows, List.map_cons, sweepStates_none] at swept
      cases tail : sweepStates numbering (some (seen frame.inRow lead))
          (numbering.next (numbering.first (seen frame.inRow lead)))
          (rest.map (seen frame.inRow)) with
      | error refusal =>
          rw [tail] at swept
          cases swept
      | ok tailStates => exact answers_of_sweep tail

theorem tells_of_numbers (rises : Rises numbering) (ran : frame.loop numbering initial = .ok out)
    (numbers : frame.NumbersBy numbering out) :
    frame.sorted.Pairwise (Tells frame.inRow) := by
  obtain ⟨states, swept⟩ := sweep_of_loop ran
  obtain ⟨left, leftRan, leaves⟩ := leaves_of_sweep swept
  obtain rfl : left = out := Except.ok.inj (leftRan.symm.trans ran)
  have values := (numbersBy_iff leaves).mp numbers
  have sortedRows := frame.sorted_groups
  unfold Frame.states at values
  cases rows : frame.sorted with
  | nil => exact List.Pairwise.nil
  | cons lead rest =>
      rw [rows, List.map_cons, sweepStates_none] at swept
      rw [rows] at values sortedRows
      cases tail : sweepStates numbering (some (seen frame.inRow lead))
          (numbering.next (numbering.first (seen frame.inRow lead)))
          (rest.map (seen frame.inRow)) with
      | error refusal =>
          rw [tail] at swept
          cases swept
      | ok tailStates =>
          rw [tail] at swept
          obtain rfl := Except.ok.inj swept
          rw [List.map_cons, groupStates, runStates, List.map_cons, List.cons.injEq] at values
          exact tells_of_values (j := 0) frame.inRow_monotone rises rfl sortedRows tail values.2

def groupRows (frame : Frame K O C) (group : WithTop K) : List (Row K O × Nat) :=
  frame.rows.zipIdx.filter (fun x => x.1.group.sortKey = group)

theorem inOrder_eq_stable (group : WithTop K) :
    frame.inOrder group =
      (frame.groupRows group).insertionSort (fun x y => x.1.order ≤ y.1.order) := by
  have increasing : frame.rows.zipIdx.Pairwise (fun x y => x.2 < y.2) := by
    rw [← List.pairwise_map (f := Prod.snd), List.zipIdx_map_snd]
    exact List.pairwise_lt_range'
  refine insertionSort_congr ((increasing.filter _).imp fun {x y} earlier => ?_)
  constructor
  · intro before
    rcases before with below | ⟨same, -⟩
    · exact below.le
    · exact same.le
  · intro le
    rcases le.lt_or_eq with below | same
    · exact .inl below
    · exact .inr ⟨same, earlier.le⟩

omit [LinearOrder O] in
theorem groupRows_rows (group : WithTop K) :
    (frame.groupRows group).map Prod.fst =
      frame.rows.filter (fun row => row.group.sortKey = group) := by
  have zipped := List.filter_map (f := Prod.fst) (l := frame.rows.zipIdx)
    (p := fun row : Row K O => decide (row.group.sortKey = group))
  rw [List.zipIdx_map_fst] at zipped
  exact zipped.symm

omit [LinearOrder O] in
theorem only_groupRows (group : WithTop K) :
    (frame.only group).groupRows group = (frame.only group).rows.zipIdx := by
  refine List.filter_eq_self.mpr fun x member => ?_
  have found := List.mem_zipIdx_iff_getElem?.mp member
  exact (List.mem_filter.mp (List.mem_of_getElem? found)).2

theorem only_inOrder {group : WithTop K} {i pos : Nat}
    (found : (frame.positions group)[i]? = some pos) :
    ∃ (j : Nat) (row : Row K O) (lead own : Row K O × Nat),
      (frame.inOrder group)[j]? = some (row, pos) ∧
      ((frame.only group).inOrder group)[j]? = some (row, i) ∧
      (frame.inOrder group)[0]? = some lead ∧
      ((frame.only group).inOrder group)[0]? = some own ∧ lead.1 = own.1 := by
  obtain ⟨⟨row, pos'⟩, here, rfl⟩ :=
    Option.map_eq_some_iff.mp (List.getElem?_map (f := Prod.snd) ▸ found)
  change (frame.groupRows group)[i]? = some (row, pos') at here
  have rows : (frame.groupRows group).map Prod.fst =
      ((frame.only group).groupRows group).map Prod.fst := by
    rw [groupRows_rows, only_groupRows, List.zipIdx_map_fst]
    rfl
  have length : (frame.groupRows group).length = ((frame.only group).groupRows group).length := by
    have lengths := congrArg List.length rows
    rwa [List.length_map, List.length_map] at lengths
  have twin : ((frame.only group).groupRows group)[i]? = some (row, i) := by
    have ownRow := congrArg (fun rows => rows[i]?) rows
    simp only [List.getElem?_map, here, Option.map_some, only_groupRows,
      List.getElem?_zipIdx, Option.map_map] at ownRow
    rw [only_groupRows, List.getElem?_zipIdx]
    cases row' : (frame.only group).rows[i]? with
    | none =>
        rw [row'] at ownRow
        cases ownRow
    | some other =>
        rw [row'] at ownRow
        obtain rfl := Option.some.inj ownRow
        rw [Option.map_some, Nat.zero_add]
  -- both groups are sorted as one list of pairs
  let pairs := ((frame.groupRows group).zip ((frame.only group).groupRows group))
  let ranked := pairs.insertionSort (fun x y => x.1.1.order ≤ y.1.1.order)
  have agree : ∀ x ∈ pairs, x.1.1 = x.2.1 := by
    intro x member
    obtain ⟨k, entry⟩ := List.mem_iff_getElem?.mp member
    obtain ⟨left, right⟩ := List.getElem?_zip_eq_some.mp entry
    have same := congrArg (fun rows => rows[k]?) rows
    simp only [List.getElem?_map, left, right, Option.map_some, Option.some.injEq] at same
    exact same
  have lefts : ranked.map Prod.fst = frame.inOrder group := by
    rw [inOrder_eq_stable, List.map_insertionSort (s := fun x y => x.1.order ≤ y.1.order) _ Prod.fst
      pairs (fun _ _ _ _ => Iff.rfl), List.map_fst_zip length.le]
  have rights : ranked.map Prod.snd = (frame.only group).inOrder group := by
    rw [inOrder_eq_stable, List.map_insertionSort (s := fun x y => x.1.order ≤ y.1.order) _ Prod.snd
      pairs (fun x xMember y yMember => by rw [agree x xMember, agree y yMember]),
      List.map_snd_zip length.ge]
  have member : ((row, pos'), (row, i)) ∈ ranked := by
    refine (List.mem_insertionSort _).mpr (List.mem_of_getElem? (i := i) ?_)
    exact List.getElem?_zip_eq_some.mpr ⟨here, twin⟩
  obtain ⟨j, rank⟩ := List.mem_iff_getElem?.mp member
  have inside := (List.getElem?_eq_some_iff.mp rank).1
  have first := List.getElem?_eq_getElem (show 0 < ranked.length by omega)
  have both := agree _ ((List.mem_insertionSort _).mp (List.mem_of_getElem? first))
  refine ⟨j, row, _, _, ?_, ?_, ?_, ?_, both⟩
  · rw [← lefts, List.getElem?_map, rank, Option.map_some]
  · rw [← rights, List.getElem?_map, rank, Option.map_some]
  · rw [← lefts, List.getElem?_map, first, Option.map_some]
  · rw [← rights, List.getElem?_map, first, Option.map_some]

theorem alone_agrees {own : List Int} {group : WithTop K}
    (numbers : frame.NumbersBy numbering out)
    (ownNumbers : (frame.only group).NumbersBy numbering own) {i pos : Nat}
    (found : (frame.positions group)[i]? = some pos) : out[pos]? = own[i]? := by
  obtain ⟨j, row, lead, ownLead, place, ownPlace, leads, ownLeads, same⟩ := only_inOrder found
  rw [numbers group j lead _ leads place, ownNumbers group j ownLead _ ownLeads ownPlace]
  rw [seen, seen, same]
  rfl

omit [LinearOrder O] in
theorem length_positions (group : WithTop K) :
    (frame.positions group).length =
      (frame.rows.filter (fun row => row.group.sortKey = group)).length := by
  rw [← groupRows_rows, List.length_map, positions, List.length_map]
  rfl

theorem length_inOrder (group : WithTop K) :
    (frame.inOrder group).length = (frame.positions group).length := by
  rw [inOrder, List.length_insertionSort, positions, List.length_map]

theorem mem_out (length : out.length = frame.rows.length)
    (numbers : frame.NumbersBy numbering out) {value : Int} (member : value ∈ out) :
    ∃ group, ∃ j < (frame.positions group).length, ∃ lead : Row K O × Nat,
      value = numbering.value (numbering.next^[j] (numbering.first (seen frame.inRow lead))) := by
  obtain ⟨pos, found⟩ := List.mem_iff_getElem?.mp member
  have inside : pos < frame.rows.length := length ▸ (List.getElem?_eq_some_iff.mp found).1
  have row : (frame.rows[pos], pos) ∈ frame.sorted :=
    sorted_perm.symm.subset (List.mem_zipIdx_iff_getElem?.mpr (List.getElem?_eq_getElem inside))
  obtain ⟨i, sortedAt⟩ := List.mem_iff_getElem?.mp row
  obtain ⟨j, lead, leads, place⟩ := exists_place sortedAt
  have here := numbers _ j lead _ leads place
  rw [found, Option.some.injEq] at here
  refine ⟨groupOf (frame.rows[pos], pos), j, ?_, lead, here⟩
  rw [← length_inOrder]
  exact (List.getElem?_eq_some_iff.mp place).1

theorem out_mem (numbers : frame.NumbersBy numbering out) {group : WithTop K} {j : Nat}
    (inside : j < (frame.positions group).length) :
    ∃ lead : Row K O × Nat,
      numbering.value (numbering.next^[j] (numbering.first (seen frame.inRow lead))) ∈ out := by
  rw [← length_inOrder] at inside
  have place := List.getElem?_eq_getElem inside
  have leads := List.getElem?_eq_getElem (show 0 < (frame.inOrder group).length by omega)
  exact ⟨_, List.mem_of_getElem? (numbers group j _ _ leads place)⟩

end Frame

end DecoyEngine.Transforms.GroupedSeries
