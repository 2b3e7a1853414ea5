import DecoyEngine.Transforms.GroupedSeriesRuns
import Mathlib.Algebra.Order.Group.Int
import Mathlib.Tactic.Linarith

namespace DecoyEngine.Transforms.GroupedSeries

open DecoyEngine.Data

/-! What the numbers of a series are, and for which frames the loop gives them. -/

variable {K O C : Type} [LinearOrder K] [LinearOrder O] [LinearOrder C]

def CountsUp (config : GroupedSeriesConfig) (frame : Frame K O C) (result : List Int) : Prop :=
  ∀ group (j : Nat) x, (frame.inOrder group)[j]? = some x →
    result[x.2]? = some (config.start + j * config.step)

namespace Rng

variable (rng : Rng) (config : GroupedSeriesConfig)

def streamAfter (label : String) : Nat → rng.State
  | 0 => rng.defaultRng label
  | j + 1 => (rng.integers (streamAfter label j) config.step (config.maxStep + 1)).2

/-- The `j`-th step taken from the stream of a group. -/
def drawn (label : String) (j : Nat) : Int :=
  (rng.integers (rng.streamAfter config label j) config.step (config.maxStep + 1)).1

end Rng

/-- A walk in every group: the first row of the group starts it, and every later one adds a step
that the group's own stream has drawn in range. -/
structure WalksUp (rng : Rng) (config : GroupedSeriesConfig) (frame : Frame K O C)
    (result : List Int) : Prop where
  start : ∀ group x, (frame.inOrder group)[0]? = some x → result[x.2]? = some config.start
  step : ∀ group (j : Nat) lead x y, (frame.inOrder group)[0]? = some lead →
    (frame.inOrder group)[j]? = some x → (frame.inOrder group)[j + 1]? = some y →
    ∃ value, result[x.2]? = some value ∧
      result[y.2]? = some
        (value + rng.drawn config ((lead.1.group.map frame.inRow).text frame.label) j)
  stepInRange : ∀ label j,
    config.step ≤ rng.drawn config label j ∧ rng.drawn config label j ≤ config.maxStep

def Numbered (rng : Rng) (config : GroupedSeriesConfig) (frame : Frame K O C)
    (result : List Int) : Prop :=
  match config.generator with
  | .cumcount => CountsUp config frame result
  | .monotoneWalk => WalksUp rng config frame result

/-- A series as it should be: every group numbered, with one value for each row, and with the
values the group has in a frame of its own. -/
structure SeriesOf (rng : Rng) (config : GroupedSeriesConfig) (frame : Frame K O C)
    (result : List Int) : Prop where
  returned : applyGroupedSeries rng config frame = .ok result
  length : result.length = frame.rows.length
  numbered : Numbered rng config frame result
  alone : ∀ group, ∃ own, applyGroupedSeries rng config (frame.only group) = .ok own ∧
    ∀ (i pos : Nat), (frame.positions group)[i]? = some pos → result[pos]? = own[i]?

/-- The largest step of a generator. -/
def GroupedSeriesConfig.stride (config : GroupedSeriesConfig) : Int :=
  match config.generator with
  | .cumcount => config.step
  | .monotoneWalk => config.maxStep

/-- The frames that are numbered as they should be: keys that can be compared and told apart in the
common type of the rows, and numbers that fit `int64`. -/
structure Numberable (config : GroupedSeriesConfig) (frame : Frame K O C) : Prop where
  twoColumns : config.groupBy ≠ config.orderBy
  comparable : frame.rows.Pairwise (fun x y => Comparable x.group y.group)
  toldApart : config.stride = 0 ∨
    frame.rows.Pairwise (fun x y => ToldApart frame.inRow x.group y.group)
  inInt64 : ∀ group (j : Nat), j < (frame.positions group).length →
    InInt64 (config.start + j * config.stride)
  drawable : config.generator = .monotoneWalk → config.maxStep < 2 ^ 63

section Generators

variable {rng : Rng} {config : GroupedSeriesConfig} {frame : Frame K O C} {out : List Int}

omit [LinearOrder C] in
theorem cumcount_state (g : Cell C) (j : Nat) :
    (cumcount (C := C) config).next^[j] ((cumcount config).first g) = j := by
  induction j with
  | zero => rfl
  | succ j ih =>
      rw [Function.iterate_succ_apply', ih]
      rfl

theorem countsUp_iff : CountsUp config frame out ↔ frame.NumbersBy (cumcount config) out := by
  constructor
  · intro counts group j lead x _ place
    rw [cumcount_state]
    exact counts group j x place
  · intro numbers group j x place
    have inside := (List.getElem?_eq_some_iff.mp place).1
    have leads := List.getElem?_eq_getElem (show 0 < (frame.inOrder group).length by omega)
    have here := numbers group j _ x leads place
    rwa [cumcount_state] at here

/-- The value at each rank of the group with a label. -/
def walked (rng : Rng) (config : GroupedSeriesConfig) (label : String) : Nat → Int
  | 0 => config.start
  | j + 1 => walked rng config label j + rng.drawn config label j

omit [LinearOrder C] in
theorem monotoneWalk_state (label : C → String) (g : Cell C) (j : Nat) :
    (monotoneWalk rng config label).next^[j] ((monotoneWalk rng config label).first g) =
      ⟨walked rng config (g.text label) j, some (rng.streamAfter config (g.text label) j)⟩ := by
  induction j with
  | zero => rfl
  | succ j ih =>
      rw [Function.iterate_succ_apply', ih]
      rfl

variable (rng config) in
theorem drawn_range (label : String) (j : Nat) :
    config.step ≤ rng.drawn config label j ∧ rng.drawn config label j ≤ config.maxStep := by
  have bounds := rng.integers_range (rng.streamAfter config label j) config.step
    (config.maxStep + 1) (by have := config.stepInRange.2; omega)
  exact ⟨bounds.1, Int.lt_add_one_iff.mp bounds.2⟩

variable (rng config) in
theorem walked_range (label : String) (j : Nat) :
    config.start ≤ walked rng config label j ∧
      walked rng config label j ≤ config.start + j * config.maxStep := by
  induction j with
  | zero => simp [walked]
  | succ j ih =>
      have drawn := drawn_range rng config label j
      have positive := config.stepInRange.1
      rw [walked, Nat.cast_succ, add_mul, one_mul]
      omega

theorem walksUp_iff : WalksUp rng config frame out ↔
    frame.NumbersBy (monotoneWalk rng config frame.label) out := by
  constructor
  · intro walks group j lead x leads place
    rw [monotoneWalk_state]
    change out[x.2]? = some (walked rng config _ j)
    induction j generalizing x with
    | zero => exact walks.start group x place
    | succ j ih =>
        have inside := (List.getElem?_eq_some_iff.mp place).1
        have before := List.getElem?_eq_getElem (show j < (frame.inOrder group).length by omega)
        obtain ⟨value, last, here⟩ := walks.step group j lead _ x leads before place
        rw [ih _ before, Option.some.injEq] at last
        rw [here, ← last]
        rfl
  · intro numbers
    have values : ∀ group (j : Nat) lead x, (frame.inOrder group)[0]? = some lead →
        (frame.inOrder group)[j]? = some x →
        out[x.2]? = some (walked rng config ((seen frame.inRow lead).text frame.label) j) := by
      intro group j lead x leads place
      rw [numbers group j lead x leads place, monotoneWalk_state]
      rfl
    refine ⟨fun group x leads => values group 0 x x leads leads, ?_, drawn_range rng config⟩
    intro group j lead x y leads place after
    exact ⟨_, values group j lead x leads place, values group (j + 1) lead y leads after⟩

theorem numbered_iff : Numbered rng config frame out ↔
    match config.generator with
    | .cumcount => frame.NumbersBy (cumcount config) out
    | .monotoneWalk => frame.NumbersBy (monotoneWalk rng config frame.label) out := by
  unfold Numbered
  cases config.generator with
  | cumcount => exact countsUp_iff
  | monotoneWalk => exact walksUp_iff

theorem series_ok {result : List Int} :
    series result = .ok out ↔ result = out ∧ ∀ value ∈ result, InInt64 value := by
  unfold series
  split
  · next fits => exact ⟨fun same => ⟨Except.ok.inj same, fits⟩, fun same => by rw [same.1]⟩
  · next unfit => exact ⟨nofun, fun same => absurd same.2 unfit⟩

theorem applyGroupedSeries_cumcount (some : frame.rows ≠ [])
    (generator : config.generator = .cumcount) :
    applyGroupedSeries rng config frame =
      if config.groupBy = config.orderBy then .error .labelNotUnique
      else frame.loop (cumcount config) 0 >>= series := by
  rw [applyGroupedSeries, if_neg (mt List.length_eq_zero_iff.mp some), generator]
  dsimp only
  unfold applyCumcount sortValues
  split <;> rfl

theorem applyGroupedSeries_monotoneWalk (some : frame.rows ≠ [])
    (generator : config.generator = .monotoneWalk) :
    applyGroupedSeries rng config frame =
      if config.groupBy = config.orderBy then .error .labelNotUnique
      else if 2 ^ 63 < config.maxStep + 1 then .error .highOutOfBounds
      else frame.loop (monotoneWalk rng config frame.label) ⟨config.start, none⟩ >>= series := by
  rw [applyGroupedSeries, if_neg (mt List.length_eq_zero_iff.mp some), generator]
  dsimp only
  unfold applyMonotoneWalk sortValues
  split
  · rfl
  · split <;> rfl

theorem answers_of_comparable
    (comparable : frame.rows.Pairwise (fun x y => Comparable x.group y.group)) :
    frame.sorted.Pairwise Answers :=
  (Frame.pairwise_sorted fun _ _ pair => ⟨pair.2, pair.1⟩).mpr comparable

omit [LinearOrder K] [LinearOrder C] in
theorem toldApart_symm {inRow : K → C} (x y : Cell K) (told : ToldApart inRow x y) :
    ToldApart inRow y x := by
  cases x with
  | value a =>
      cases y with
      | value b => exact fun equal => (told equal.symm).symm
      | null kind => trivial
  | null kind =>
      cases y with
      | value b => trivial
      | null other => exact ⟨told.2, told.1⟩

theorem toldApart_sorted :
    frame.sorted.Pairwise (Tells frame.inRow) ↔
      frame.rows.Pairwise (fun x y => ToldApart frame.inRow x.group y.group) :=
  Frame.pairwise_sorted toldApart_symm

section Loop

variable {S : Type} {numbering : Numbering C S} {initial : S}

theorem loop_series (level : Int) (answers : frame.sorted.Pairwise Answers)
    (told : (∀ state, Reached numbering state → numbering.value state = level) ∨
      frame.sorted.Pairwise (Tells frame.inRow))
    (fits : ∀ group (j : Nat) (lead : Row K O × Nat), j < (frame.positions group).length →
      InInt64 (numbering.value (numbering.next^[j] (numbering.first (seen frame.inRow lead))))) :
    ∃ out, (frame.loop numbering initial >>= series) = .ok out ∧
      out.length = frame.rows.length ∧ frame.NumbersBy numbering out := by
  obtain ⟨out, ran, length, numbers⟩ : ∃ out, frame.loop numbering initial = .ok out ∧
      out.length = frame.rows.length ∧ frame.NumbersBy numbering out := by
    rcases told with levels | tells
    · exact Frame.numbered_of_level answers levels
    · exact Frame.numbered_of_told answers tells
  refine ⟨out, ?_, length, numbers⟩
  rw [ran]
  refine series_ok.mpr ⟨rfl, fun value member => ?_⟩
  obtain ⟨group, j, inside, lead, rfl⟩ := Frame.mem_out length numbers member
  exact fits group j lead inside

theorem loop_of_series (ran : (frame.loop numbering initial >>= series) = .ok out) :
    frame.loop numbering initial = .ok out ∧ ∀ value ∈ out, InInt64 value := by
  cases looped : frame.loop numbering initial with
  | error refusal =>
      rw [looped] at ran
      cases ran
  | ok result =>
      rw [looped] at ran
      obtain ⟨rfl, fits⟩ := series_ok.mp ran
      exact ⟨rfl, fits⟩

end Loop

variable (rng config) in
theorem returns_nothing (empty : frame.rows = []) :
    applyGroupedSeries rng config frame = .ok [] ∧ Numbered rng config frame [] := by
  refine ⟨by rw [applyGroupedSeries, empty]; rfl, numbered_iff.mpr ?_⟩
  have none : ∀ group, frame.inOrder group = [] := by
    intro group
    rw [Frame.inOrder, empty]
    rfl
  cases config.generator with
  | cumcount =>
      intro group j lead x leads
      rw [none] at leads
      cases leads
  | monotoneWalk =>
      intro group j lead x leads
      rw [none] at leads
      cases leads

theorem returns_counts (rng : Rng) (some : frame.rows ≠ [])
    (generator : config.generator = .cumcount) (numberable : Numberable config frame) :
    ∃ out, applyGroupedSeries rng config frame = .ok out ∧
      out.length = frame.rows.length ∧ frame.NumbersBy (cumcount config) out := by
  have stride : config.stride = config.step := by rw [GroupedSeriesConfig.stride, generator]
  rw [applyGroupedSeries_cumcount some generator, if_neg numberable.twoColumns]
  refine loop_series config.start (answers_of_comparable numberable.comparable) ?_ ?_
  · refine numberable.toldApart.imp (fun level state _ => ?_) toldApart_sorted.mpr
    change config.start + (state : Int) * config.step = config.start
    rw [← stride, level, mul_zero, add_zero]
  · intro group j lead inside
    rw [cumcount_state]
    have fits := numberable.inInt64 group j inside
    rw [stride] at fits
    exact fits

theorem returns_walks (rng : Rng) (some : frame.rows ≠ [])
    (generator : config.generator = .monotoneWalk) (numberable : Numberable config frame) :
    ∃ out, applyGroupedSeries rng config frame = .ok out ∧
      out.length = frame.rows.length ∧
        frame.NumbersBy (monotoneWalk rng config frame.label) out := by
  have stride : config.stride = config.maxStep := by rw [GroupedSeriesConfig.stride, generator]
  have drawable := numberable.drawable generator
  rw [applyGroupedSeries_monotoneWalk some generator, if_neg numberable.twoColumns,
    if_neg (by omega)]
  refine loop_series config.start (answers_of_comparable numberable.comparable) ?_ ?_
  · refine numberable.toldApart.imp (fun level state reached => ?_) toldApart_sorted.mpr
    obtain ⟨g, j, rfl⟩ := reached
    have range := walked_range rng config (g.text frame.label) j
    rw [← stride, level, mul_zero, add_zero] at range
    rw [monotoneWalk_state]
    exact le_antisymm range.2 range.1
  · intro group j lead inside
    have range := walked_range rng config
      ((seen frame.inRow lead).text frame.label) j
    have lowest := numberable.inInt64 group 0 (by omega)
    have highest := numberable.inInt64 group j inside
    rw [Nat.cast_zero, zero_mul, add_zero] at lowest
    rw [stride] at highest
    rw [monotoneWalk_state]
    exact ⟨lowest.1.trans range.1, lt_of_le_of_lt range.2 highest.2⟩

theorem returns_numbered (rng : Rng)
    (numberable : frame.rows = [] ∨ Numberable config frame) :
    ∃ out, applyGroupedSeries rng config frame = .ok out ∧
      out.length = frame.rows.length ∧ Numbered rng config frame out := by
  by_cases empty : frame.rows = []
  · obtain ⟨ran, numbered⟩ := returns_nothing rng config empty
    exact ⟨[], ran, by rw [empty]; rfl, numbered⟩
  obtain numberable := numberable.resolve_left empty
  cases generator : config.generator with
  | cumcount =>
      obtain ⟨out, ran, length, numbers⟩ := returns_counts rng empty generator numberable
      refine ⟨out, ran, length, ?_⟩
      rw [numbered_iff, generator]
      exact numbers
  | monotoneWalk =>
      obtain ⟨out, ran, length, numbers⟩ := returns_walks rng empty generator numberable
      refine ⟨out, ran, length, ?_⟩
      rw [numbered_iff, generator]
      exact numbers

/-- A stream whose steps are all as large as they may be. -/
def topRng : Rng where
  State := Unit
  defaultRng _ := ()
  integers _ _ high := (high - 1, ())
  integers_range _ _ _ below := ⟨by dsimp only; omega, by dsimp only; omega⟩

theorem walked_top (label : String) (j : Nat) :
    walked topRng config label j = config.start + j * config.maxStep := by
  induction j with
  | zero => simp [walked]
  | succ j ih =>
      have drawn : topRng.drawn config label j = config.maxStep := by
        change config.maxStep + 1 - 1 = config.maxStep
        omega
      rw [walked, ih, drawn, Nat.cast_succ, add_mul, one_mul, add_assoc]

omit [LinearOrder C] in
theorem rises_of_values {S : Type} {numbering : Numbering C S} {stride : Int}
    (positive : stride ≠ 0)
    (values : ∀ g (j : Nat), numbering.value (numbering.next^[j] (numbering.first g)) =
      config.start + j * stride) : Rises numbering := by
  intro g other j same
  have first := values other 0
  rw [Function.iterate_zero, id] at first
  rw [values, first, Nat.cast_zero, zero_mul, add_zero] at same
  have : ((j + 1 : Nat) : Int) * stride = 0 := by linarith
  rcases mul_eq_zero.mp this with none | zero
  · omega
  · exact positive zero

theorem numberable_of_loop {S : Type} {numbering : Numbering C S} {initial : S}
    (twoColumns : config.groupBy ≠ config.orderBy)
    (drawable : config.generator = .monotoneWalk → config.maxStep < 2 ^ 63)
    (values : ∀ g (j : Nat), numbering.value (numbering.next^[j] (numbering.first g)) =
      config.start + j * config.stride)
    (ran : (frame.loop numbering initial >>= series) = .ok out)
    (numbers : frame.NumbersBy numbering out) : Numberable config frame := by
  obtain ⟨looped, fits⟩ := loop_of_series ran
  refine ⟨twoColumns, ?_, ?_, ?_, drawable⟩
  · exact (Frame.pairwise_sorted fun _ _ pair => ⟨pair.2, pair.1⟩).mp
      (Frame.answers_of_loop looped)
  · by_cases level : config.stride = 0
    · exact .inl level
    · refine .inr (toldApart_sorted.mp ?_)
      exact Frame.tells_of_numbers (rises_of_values level values) looped numbers
  · intro group j inside
    obtain ⟨lead, member⟩ := Frame.out_mem numbers inside
    exact values _ j ▸ fits _ member

theorem numberable_of_numbered (some : frame.rows ≠ [])
    (numbered : ∃ out, applyGroupedSeries topRng config frame = .ok out ∧
      Numbered topRng config frame out) : Numberable config frame := by
  obtain ⟨out, ran, numbered⟩ := numbered
  rw [numbered_iff] at numbered
  cases generator : config.generator with
  | cumcount =>
      rw [generator] at numbered
      rw [applyGroupedSeries_cumcount some generator] at ran
      by_cases oneColumn : config.groupBy = config.orderBy
      · rw [if_pos oneColumn] at ran
        cases ran
      rw [if_neg oneColumn] at ran
      refine numberable_of_loop oneColumn (by simp [generator]) (fun g j => ?_) ran numbered
      rw [cumcount_state, GroupedSeriesConfig.stride, generator]
      rfl
  | monotoneWalk =>
      rw [generator] at numbered
      rw [applyGroupedSeries_monotoneWalk some generator] at ran
      by_cases oneColumn : config.groupBy = config.orderBy
      · rw [if_pos oneColumn] at ran
        cases ran
      rw [if_neg oneColumn] at ran
      by_cases high : 2 ^ 63 < config.maxStep + 1
      · rw [if_pos high] at ran
        cases ran
      rw [if_neg high] at ran
      refine numberable_of_loop oneColumn (fun _ => by omega) (fun g j => ?_) ran numbered
      rw [monotoneWalk_state, GroupedSeriesConfig.stride, generator]
      exact walked_top _ _

omit [LinearOrder O] in
theorem only_numberable (group : WithTop K) (numberable : Numberable config frame) :
    Numberable config (frame.only group) where
  twoColumns := numberable.twoColumns
  comparable := numberable.comparable.filter _
  toldApart := numberable.toldApart.imp id fun told => told.filter _
  inInt64 other j inside := by
    refine numberable.inInt64 other j (inside.trans_le ?_)
    rw [Frame.length_positions, Frame.length_positions]
    exact (List.filter_sublist.filter _).length_le
  drawable := numberable.drawable

theorem alone_of_numbered {own : List Int} {group : WithTop K} {i pos : Nat}
    (numbered : Numbered rng config frame out)
    (ownNumbered : Numbered rng config (frame.only group) own)
    (found : (frame.positions group)[i]? = some pos) : out[pos]? = own[i]? := by
  rw [numbered_iff] at numbered ownNumbered
  cases generator : config.generator with
  | cumcount =>
      rw [generator] at numbered ownNumbered
      exact Frame.alone_agrees numbered ownNumbered found
  | monotoneWalk =>
      rw [generator] at numbered ownNumbered
      exact Frame.alone_agrees numbered ownNumbered found

end Generators

/-- A series is right, whatever the streams draw, exactly on the frames whose group cells can be
compared and told apart and whose numbers fit. -/
theorem groups_numbered_iff (config : GroupedSeriesConfig) (frame : Frame K O C) :
    (∀ rng, ∃ result, SeriesOf rng config frame result) ↔
      frame.rows = [] ∨ Numberable config frame := by
  constructor
  · intro correct
    by_cases empty : frame.rows = []
    · exact .inl empty
    · obtain ⟨result, series⟩ := correct topRng
      exact .inr (numberable_of_numbered empty ⟨result, series.returned, series.numbered⟩)
  · intro numberable rng
    obtain ⟨result, ran, length, numbered⟩ := returns_numbered rng numberable
    refine ⟨result, ran, length, numbered, fun group => ?_⟩
    have ownNumberable : (frame.only group).rows = [] ∨ Numberable config (frame.only group) := by
      rcases numberable with empty | numberable
      · exact .inl (by rw [Frame.only, empty]; rfl)
      · exact .inr (only_numberable group numberable)
    obtain ⟨own, ownRan, -, ownNumbered⟩ := returns_numbered rng ownNumberable
    exact ⟨own, ownRan, fun i pos found => alone_of_numbered numbered ownNumbered found⟩

/-- Two rows with a `nan` key in a counted column are two groups to the loop. -/
theorem nan_groups_not_numbered :
    ∃ (config : GroupedSeriesConfig) (frame : Frame Int Int Int), ∀ rng,
      applyGroupedSeries rng config frame = .ok [0, 0] ∧
        ¬ CountsUp config frame [0, 0] := by
  refine ⟨⟨"customer", "day", .cumcount, 0, 1, 10, by decide⟩,
    ⟨[⟨.null .nan, (1 : Int)⟩, ⟨.null .nan, (2 : Int)⟩], id, monotone_id, toString⟩, fun rng => ?_⟩
  refine ⟨rfl, fun counts => ?_⟩
  have second := counts ⊤ 1 (⟨.null .nan, (2 : Int)⟩, 1) rfl
  revert second
  decide

end DecoyEngine.Transforms.GroupedSeries
