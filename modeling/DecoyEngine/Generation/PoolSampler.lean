import DecoyEngine.Data.FirstHit
import Mathlib.Data.Finset.Sort
import Mathlib.Data.List.OfFn
import Mathlib.Data.List.Perm.Basic
import Mathlib.Data.List.ReduceOption

namespace DecoyEngine.Generation.PoolSampler

open DecoyEngine.Data

/-! Draws from a value pool (`generation/pool/_sampler.py`): the cardinality modes UNIQUE and
MATCH_SOURCE_CARDINALITY, of single values and of bundles. A pool may repeat a value. -/

structure GenerationError where
  code : String
  message : String
deriving Repr, DecidableEq

/-- `default_rng(seed)`: what one seed draws for each size. -/
structure Rng where
  permutation : (size : Nat) → Equiv.Perm (Fin size)

/-- A pool of tuples, one element for each output column. -/
structure BundlePool (V : Type) where
  outputColumns : List String
  values : List (Fin outputColumns.length → V)

variable {V S : Type} [DecidableEq V] [LinearOrder S]

/-- The first `count` entries of a pool in the order of the seed. -/
def draw {α : Type} (rng : Rng) (pool : List α) {count : Nat} (enough : count ≤ pool.length) :
    List α :=
  List.ofFn fun i : Fin count => pool.get (rng.permutation pool.length (i.castLE enough))

theorem length_draw {α : Type} (rng : Rng) (pool : List α) {count : Nat}
    (enough : count ≤ pool.length) : (draw rng pool enough).length = count := by
  rw [draw, List.length_ofFn]

/-- Values put in the places of a mask, in order. -/
def scatter : List Bool → List V → List (Option V)
  | [], _ => []
  | true :: mask, value :: values => some value :: scatter mask values
  | true :: mask, [] => none :: scatter mask []
  | false :: mask, values => none :: scatter mask values

/-- `source.notna()`; every row counts where there is no source. -/
def nonnullMask (n : Nat) : Option (List (Option S)) → List Bool
  | none => List.replicate n true
  | some source => source.map Option.isSome

def refuseDeterministicUnique : GenerationError :=
  ⟨"deterministic_mode_unsupported_cardinality",
    "deterministic=True is incompatible with mode=UNIQUE: " ++
      "the deterministic path keys output on source row identity, " ++
      "so identical source values map to identical outputs (which " ++
      "violates UNIQUE). Use deterministic=True with mode=REUSE, " ++
      "or mode=UNIQUE with deterministic=False."⟩

/-- `sample` under UNIQUE: distinct values of the pool for the rows that are not null, refused where
the pool has too few of them; a deterministic draw is refused before anything else. -/
def sampleUnique (rng : Rng) (pool : List V) (n : Nat) (source : Option (List (Option S)))
    (deterministic : Bool) : Except GenerationError (List (Option V)) :=
  if deterministic then .error refuseDeterministicUnique
  else if source.any (·.length ≠ n) then
    .error ⟨"source_length_mismatch", "UNIQUE sample called with source length " ++
      toString ((source.getD []).length) ++ " but n=" ++ toString n ++ "; they must match."⟩
  else
    let mask := nonnullMask n source
    let required := mask.count true
    let distinctValues := pool.eraseDups
    if enough : required ≤ distinctValues.length then
      .ok (scatter mask (draw rng distinctValues enough))
    else
      .error ⟨"uniqueness_impossible", "UNIQUE-mode sample needs " ++ toString required ++
        " distinct value(s) (non-null output rows) but the pool has only " ++
        toString distinctValues.length ++
        " distinct value(s): cannot draw without replacement."⟩

/-- `sample_bundle` under UNIQUE: one column for each output column of the pool. The source is
not looked at. -/
def sampleBundleUnique (rng : Rng) (pool : BundlePool V) (n : Nat)
    (_source : Option (List (Option S))) (deterministic : Bool) :
    Except GenerationError (Fin pool.outputColumns.length → List V) :=
  if pool.outputColumns = [] then
    .error ⟨"bundle_missing_output_columns",
      "sample_bundle requires a BundlePool with non-empty output_columns."⟩
  else if deterministic then
    .error ⟨"deterministic_mode_unsupported_cardinality",
      "sample_bundle: deterministic=True is incompatible with " ++
        "mode=UNIQUE. Same constraint as the scalar sample() path."⟩
  else if enough : n ≤ pool.values.length then
    .ok fun column => (draw rng pool.values enough).map fun bundle => bundle column
  else
    .error ⟨"uniqueness_impossible", "UNIQUE-mode bundle sample of size " ++ toString n ++
      " from pool of size " ++ toString pool.values.length ++
      ": cannot draw without replacement."⟩

/-- `sorted(source.dropna().unique())` -/
def sourceUniques (source : List (Option S)) : List S := source.reduceOption.toFinset.sort (· ≤ ·)

def targetDistinct (source : List (Option S)) : Nat := max 1 source.reduceOption.toFinset.card

theorem targetDistinct_pos (source : List (Option S)) : 0 < targetDistinct source :=
  Nat.lt_of_lt_of_le Nat.one_pos (Nat.le_max_left _ _)

/-- `value_map` -/
def valueMap (rng : Rng) (pool : List V) (source : List (Option S))
    (enough : targetDistinct source ≤ pool.length) (value : S) : V :=
  let chosenPoolValues := draw rng pool enough
  let i := (sourceUniques source).idxOf value
  chosenPoolValues.get ⟨i % targetDistinct source,
    Nat.lt_of_lt_of_eq (Nat.mod_lt _ (targetDistinct_pos source))
      (length_draw rng pool enough).symm⟩

/-- `_match_source_cardinality` with scale 1. -/
def matchSourceCardinality (rng : Rng) (pool : List V) (source : List (Option S)) :
    Except GenerationError (List (Option V)) :=
  if enough : targetDistinct source ≤ pool.length then
    .ok (source.map (Option.map (valueMap rng pool source enough)))
  else
    .error ⟨"cardinality_target_exceeds_pool", "Target distinct " ++
      toString (targetDistinct source) ++ " (source.nunique() " ++
      toString source.reduceOption.toFinset.card ++ " * scale 1.0) exceeds pool.size " ++
      toString pool.length ++ "."⟩

/-- `_deterministic`; `derive` is `derive_index` before its reduction to the pool. -/
def sampleDeterministic (derive : S → Nat) (pool : List V) (source : List (Option S)) :
    Except GenerationError (List (Option V)) :=
  if some : pool ≠ [] then
    .ok (source.map (Option.map fun value =>
      pool.get ⟨derive value % pool.length, Nat.mod_lt _ (List.length_pos_iff.mpr some)⟩))
  else if source.all Option.isNone then .ok (source.map fun _ => none)
  else .error ⟨"pool_size_invalid", "pool_size must be >= 1; got 0"⟩

/-- `sample` under MATCH_SOURCE_CARDINALITY, for a source of the length asked for. -/
def sampleMatch (rng : Rng) (derive : S → Nat) (pool : List V) (deterministic : Bool)
    (source : List (Option S)) : Except GenerationError (List (Option V)) :=
  if deterministic then sampleDeterministic derive pool source
  else matchSourceCardinality rng pool source

/-- Nulls stay null, and the values of the other rows are pairwise distinct. -/
structure UniqueLaw {W : Type} (mask : List Bool) (rows : List (Option W)) : Prop where
  nulls : rows.map Option.isSome = mask
  distinct : rows.reduceOption.Nodup

/-- The rows of a bundle sample, each the tuple of its columns. -/
def bundleRows {width : Nat} (n : Nat) (columns : Fin width → List V) :
    List (Option (Fin width → Option V)) :=
  (List.range n).map fun i => some fun column => (columns column)[i]?

/-- One mapping of source values serves the source in every order, and keeps values apart. -/
def MatchLaw (sample : List (Option S) → Except GenerationError (List (Option V)))
    (source : List (Option S)) : Prop :=
  ∃ mapping : S → Option V,
    (∀ reordered, reordered.Perm source →
      sample reordered = .ok (reordered.map (Option.bind · mapping))) ∧
    (∀ value, some value ∈ source → (mapping value).isSome) ∧
    ∀ first second, some first ∈ source → some second ∈ source →
      mapping first = mapping second → first = second

/-- The pool entries that stand for the distinct source values, in sorted order. -/
def standIns (rng : Rng) (derive : S → Nat) (pool : List V) (deterministic : Bool)
    (source : List (Option S)) : List (Option V) :=
  if deterministic then (sourceUniques source).map fun value => pool[derive value % pool.length]?
  else (List.range (sourceUniques source).length).map fun i =>
    if inside : i < pool.length then some (pool.get (rng.permutation pool.length ⟨i, inside⟩))
    else none

section Scatter

variable {mask : List Bool} {values : List V}

omit [DecidableEq V] in
theorem scatter_spec (fits : mask.count true = values.length) :
    (scatter mask values).map Option.isSome = mask ∧
      (scatter mask values).reduceOption = values := by
  induction mask generalizing values with
  | nil =>
      have none : values = [] := List.length_eq_zero_iff.mp fits.symm
      subst none
      exact ⟨rfl, rfl⟩
  | cons flag mask ih =>
      cases flag with
      | false =>
          rw [List.count_cons_of_ne (by simp)] at fits
          obtain ⟨nulls, kept⟩ := ih fits
          rw [scatter, List.map_cons, nulls, List.reduceOption_cons_of_none, kept]
          exact ⟨rfl, rfl⟩
      | true =>
          cases values with
          | nil => simp at fits
          | cons value values =>
              rw [List.count_cons_self, List.length_cons, Nat.add_right_cancel_iff] at fits
              obtain ⟨nulls, kept⟩ := ih fits
              rw [scatter, List.map_cons, nulls, List.reduceOption_cons_of_some, kept]
              exact ⟨rfl, rfl⟩

theorem draw_nodup {α : Type} (rng : Rng) {pool : List α} (distinct : pool.Nodup) {count : Nat}
    (enough : count ≤ pool.length) : (draw rng pool enough).Nodup := by
  rw [draw, List.nodup_ofFn]
  intro first second same
  have index := (rng.permutation pool.length).injective
    (List.nodup_iff_injective_get.mp distinct same)
  exact Fin.castLE_injective enough index

end Scatter

section Unique

variable {rng : Rng} {pool : List V} {n : Nat} {source : Option (List (Option S))}
  {deterministic : Bool}

omit [LinearOrder S] in
/-- A UNIQUE sample keeps its promise, and comes exactly when the distinct values suffice for the
rows that are not null. -/
theorem sampleUnique_law {rows : List (Option V)}
    (sampled : sampleUnique rng pool n source deterministic = .ok rows) :
    UniqueLaw (nonnullMask n source) rows ∧
      rows.reduceOption.length ≤ pool.eraseDups.length := by
  unfold sampleUnique at sampled
  split_ifs at sampled with refused mismatch
  dsimp only at sampled
  split at sampled
  · next enough =>
      cases sampled
      obtain ⟨nulls, kept⟩ := scatter_spec (length_draw rng pool.eraseDups enough).symm
      refine ⟨⟨nulls, ?_⟩, ?_⟩
      · rw [kept]
        exact draw_nodup rng (nodup_eraseDups pool) enough
      · rw [kept, length_draw]
        exact enough
  · cases sampled

omit [DecidableEq V] in
theorem bundleRows_draw {width : Nat} (bundles : List (Fin width → V)) :
    (bundleRows bundles.length fun column => bundles.map fun bundle => bundle column).map
        Option.isSome = List.replicate bundles.length true ∧
      ((bundleRows bundles.length
        fun column => bundles.map fun bundle => bundle column).reduceOption.Nodup ↔
          bundles.Nodup) := by
  have rows : (bundleRows bundles.length fun column => bundles.map fun bundle => bundle column) =
      bundles.map fun bundle => some fun column => some (bundle column) := by
    apply List.ext_getElem
    · simp [bundleRows]
    · intro i inLeft inRight
      have inside : i < bundles.length := by simpa using inRight
      simp [bundleRows, inside]
  rw [rows]
  constructor
  · simp [Function.comp_def]
  · have values : (bundles.map fun bundle => some fun column => some (bundle column)).reduceOption =
        bundles.map fun bundle column => some (bundle column) := by
      rw [List.reduceOption, List.filterMap_map]
      exact congrFun List.filterMap_eq_map' bundles
    rw [values]
    refine List.nodup_map_iff fun first second same => ?_
    funext column
    exact Option.some.inj (congrFun same column)

omit [DecidableEq V] [LinearOrder S] in
/-- A bundle sample keeps the promise where no row is null and the entries drawn differ. -/
theorem sampleBundleUnique_law {bundles : BundlePool V}
    {columns : Fin bundles.outputColumns.length → List V}
    (sampled : sampleBundleUnique rng bundles n source deterministic = .ok columns) :
    UniqueLaw (nonnullMask n source) (bundleRows n columns) ↔
      nonnullMask n source = List.replicate n true ∧
        ∃ enough : n ≤ bundles.values.length, (draw rng bundles.values enough).Nodup := by
  unfold sampleBundleUnique at sampled
  split_ifs at sampled with none refused enough
  cases sampled
  have length := length_draw rng bundles.values enough
  obtain ⟨nulls, distinct⟩ := bundleRows_draw (draw rng bundles.values enough)
  rw [length] at nulls distinct
  constructor
  · rintro ⟨mask, apart⟩
    exact ⟨mask.symm.trans nulls, enough, distinct.mp apart⟩
  · rintro ⟨mask, _, apart⟩
    exact ⟨nulls.trans mask.symm, distinct.mpr apart⟩

end Unique

section Matched

variable {rng : Rng} {derive : S → Nat} {pool : List V} {source reordered : List (Option S)}
  {deterministic : Bool}

theorem mem_sourceUniques {value : S} : value ∈ sourceUniques source ↔ some value ∈ source := by
  rw [sourceUniques, Finset.mem_sort, List.mem_toFinset, List.reduceOption_mem_iff]

theorem nodup_sourceUniques (source : List (Option S)) : (sourceUniques source).Nodup :=
  Finset.sort_nodup _ _

theorem length_sourceUniques (source : List (Option S)) :
    (sourceUniques source).length = source.reduceOption.toFinset.card := Finset.length_sort _

theorem toFinset_perm (same : reordered.Perm source) :
    reordered.reduceOption.toFinset = source.reduceOption.toFinset :=
  List.toFinset_eq_of_perm _ _ (same.filterMap _)

omit [DecidableEq V] in
theorem valueMap_get (rng : Rng) (enough : targetDistinct source ≤ pool.length) {i : Nat}
    (inside : i < (sourceUniques source).length) :
    ∃ inPool : i < pool.length, valueMap rng pool source enough ((sourceUniques source)[i]) =
      pool.get (rng.permutation pool.length ⟨i, inPool⟩) := by
  have index : (sourceUniques source).idxOf (sourceUniques source)[i] = i :=
    (nodup_sourceUniques source).idxOf_getElem i inside
  have target : i < targetDistinct source := by
    rw [length_sourceUniques] at inside
    rw [targetDistinct]
    omega
  refine ⟨Nat.lt_of_lt_of_le target enough, ?_⟩
  simp only [valueMap, index, Nat.mod_eq_of_lt target, draw, List.get_ofFn]
  rfl

omit [DecidableEq V] in
/-- The law holds where one mapping runs the sample, exactly if it keeps the values apart. -/
theorem matchLaw_iff {sample : List (Option S) → Except GenerationError (List (Option V))}
    {mapping : S → Option V}
    (runs : ∀ reordered, reordered.Perm source →
      sample reordered = .ok (reordered.map (Option.bind · mapping)))
    (given : ∀ value, some value ∈ source → (mapping value).isSome) :
    MatchLaw sample source ↔ ((sourceUniques source).map mapping).Nodup := by
  rw [List.nodup_map_iff_inj_on (nodup_sourceUniques source)]
  simp only [mem_sourceUniques]
  constructor
  · rintro ⟨other, otherRuns, -, apart⟩
    have same := Except.ok.inj ((runs source (.refl _)).symm.trans (otherRuns source (.refl _)))
    have agree : ∀ value, some value ∈ source → mapping value = other value :=
      fun value member => List.map_inj_left.mp same (some value) member
    intro first firstIn second secondIn equal
    rw [agree first firstIn, agree second secondIn] at equal
    exact apart first second firstIn secondIn equal
  · intro apart
    exact ⟨mapping, runs, given, fun first second firstIn secondIn =>
      apart first firstIn second secondIn⟩

omit [DecidableEq V] in
theorem sampleMatch_law {rows : List (Option V)}
    (sampled : sampleMatch rng derive pool deterministic source = .ok rows) :
    MatchLaw (sampleMatch rng derive pool deterministic) source ↔
      (standIns rng derive pool deterministic source).Nodup := by
  cases deterministic with
  | true =>
      simp only [sampleMatch, if_true, sampleDeterministic] at sampled
      have runs : ∀ reordered, reordered.Perm source →
          sampleMatch rng derive pool true reordered =
            .ok (reordered.map (Option.bind · fun value => pool[derive value % pool.length]?)) := by
        intro reordered same
        simp only [sampleMatch, if_true, sampleDeterministic]
        by_cases some : pool ≠ []
        · rw [dif_pos some]
          refine congrArg Except.ok (List.map_congr_left fun value _ => ?_)
          cases value with
          | none => rfl
          | some value =>
              rw [Option.map_some, Option.bind_some, List.get_eq_getElem,
                List.getElem?_eq_getElem (Nat.mod_lt _ (List.length_pos_iff.mpr some))]
        · rw [dif_neg some] at sampled ⊢
          split_ifs at sampled with allNull
          have nulls : ∀ value ∈ reordered, value = none := fun value member =>
            Option.isNone_iff_eq_none.mp (List.all_eq_true.mp allNull value (same.subset member))
          rw [if_pos (List.all_eq_true.mpr fun value member => by rw [nulls value member]; rfl)]
          refine congrArg Except.ok (List.map_congr_left fun value member => ?_)
          rw [nulls value member]
          rfl
      refine (matchLaw_iff runs fun value member => ?_).trans ?_
      · split_ifs at sampled with some allNull
        · rw [List.getElem?_eq_getElem (Nat.mod_lt _ (List.length_pos_iff.mpr some))]
          rfl
        · exact absurd (List.all_eq_true.mp allNull _ member) (by simp)
      · rw [standIns, if_pos rfl]
  | false =>
      simp only [sampleMatch, Bool.false_eq_true, if_false, matchSourceCardinality] at sampled
      split_ifs at sampled with enough
      have runs : ∀ reordered, reordered.Perm source →
          sampleMatch rng derive pool false reordered =
            .ok (reordered.map
              (Option.bind · fun value => some (valueMap rng pool source enough value))) := by
        intro reordered same
        have values := toFinset_perm same
        have target : targetDistinct reordered = targetDistinct source := by
          rw [targetDistinct, values, targetDistinct]
        have uniques : sourceUniques reordered = sourceUniques source := by
          rw [sourceUniques, values, sourceUniques]
        have mapped : ∀ there : targetDistinct reordered ≤ pool.length,
            valueMap rng pool reordered there = valueMap rng pool source enough := by
          intro there
          funext value
          simp only [valueMap, uniques, draw, List.get_ofFn]
          refine congrArg (fun i => pool.get (rng.permutation pool.length i)) (Fin.ext ?_)
          simp [target]
        simp only [sampleMatch, Bool.false_eq_true, if_false, matchSourceCardinality]
        rw [dif_pos (target ▸ enough), mapped]
        refine congrArg Except.ok (List.map_congr_left fun value _ => ?_)
        cases value <;> rfl
      refine (matchLaw_iff runs fun _ _ => rfl).trans ?_
      rw [standIns, if_neg Bool.false_ne_true]
      refine iff_of_eq (congrArg List.Nodup ?_)
      apply List.ext_getElem
      · simp
      · intro i inLeft inRight
        have inside : i < (sourceUniques source).length := by simpa using inLeft
        obtain ⟨inPool, value⟩ := valueMap_get rng enough inside
        simp only [List.getElem_map, List.getElem_range, value, dif_pos inPool]

end Matched

section Seeds

theorem nodup_of_short {α : Type} {values : List α} (short : values.length ≤ 1) : values.Nodup := by
  rcases values with _ | ⟨value, _ | ⟨second, rest⟩⟩
  · exact List.nodup_nil
  · exact List.nodup_singleton value
  · rw [List.length_cons, List.length_cons] at short
    omega

theorem exists_perm {α : Type} [DecidableEq α] {first second i j : α} (apart : first ≠ second)
    (differ : i ≠ j) : ∃ order : Equiv.Perm α, order first = i ∧ order second = j := by
  have moved : Equiv.swap first i second ≠ i := by
    intro same
    have both := same.trans (Equiv.swap_apply_left first i).symm
    exact apart ((Equiv.swap first i).injective both).symm
  refine ⟨(Equiv.swap first i).trans (Equiv.swap (Equiv.swap first i second) j), ?_, ?_⟩
  · rw [Equiv.trans_apply, Equiv.swap_apply_left, Equiv.swap_apply_of_ne_of_ne moved.symm differ]
  · rw [Equiv.trans_apply, Equiv.swap_apply_left]

/-- The draws of every seed are without repetition exactly from a pool without repetition, unless
there is no second draw. -/
theorem draw_nodup_iff {α : Type} {pool : List α} {count : Nat} (enough : count ≤ pool.length) :
    (∀ rng, (draw rng pool enough).Nodup) ↔ pool.Nodup ∨ count ≤ 1 := by
  constructor
  · intro apart
    by_contra neither
    obtain ⟨repeats, several⟩ := not_or.mp neither
    rw [List.nodup_iff_injective_get] at repeats
    simp only [Function.Injective, not_forall] at repeats
    obtain ⟨i, j, same, differ⟩ := repeats
    have two : 1 < count := Nat.lt_of_not_le several
    have places : (⟨0, by omega⟩ : Fin pool.length) ≠ ⟨1, by omega⟩ := by simp
    obtain ⟨order, isFirst, isSecond⟩ := exists_perm places differ
    have drawn := apart ⟨fun size =>
      if ours : size = pool.length then ours ▸ order else Equiv.refl _⟩
    rw [draw, List.nodup_ofFn] at drawn
    have clash := @drawn ⟨0, by omega⟩ ⟨1, two⟩ (by
      simp only [dite_true, Fin.castLE_mk]
      rw [isFirst, isSecond, same])
    simp at clash
  · rintro (distinct | single) rng
    · exact draw_nodup rng distinct enough
    · exact nodup_of_short (by rw [length_draw]; exact single)

omit [DecidableEq V] in
theorem standIns_eq_draw (rng : Rng) (derive : S → Nat) {pool : List V} {source : List (Option S)}
    (enough : (sourceUniques source).length ≤ pool.length) :
    standIns rng derive pool false source = (draw rng pool enough).map some := by
  rw [standIns, if_neg Bool.false_ne_true, draw]
  apply List.ext_getElem
  · simp
  · intro i inLeft inRight
    have inside : i < (sourceUniques source).length := by simpa using inLeft
    simp only [List.getElem_map, List.getElem_range, dif_pos (Nat.lt_of_lt_of_le inside enough),
      List.getElem_ofFn]
    rfl

omit [DecidableEq V] [LinearOrder S] in
/-- A bundle sample keeps the promise under every seed exactly if no row is null and the pool holds
no bundle twice, or no more than one bundle is drawn. -/
theorem bundle_law_iff (bundles : BundlePool V) (n : Nat) (source : Option (List (Option S)))
    (deterministic : Bool) :
    (∀ rng columns, sampleBundleUnique rng bundles n source deterministic = .ok columns →
      UniqueLaw (nonnullMask n source) (bundleRows n columns)) ↔
      (bundles.outputColumns ≠ [] → deterministic = false → n ≤ bundles.values.length →
        nonnullMask n source = List.replicate n true ∧ (bundles.values.Nodup ∨ n ≤ 1)) := by
  constructor
  · intro law named random enough
    have sampled : ∀ rng, sampleBundleUnique rng bundles n source deterministic =
        .ok fun column => (draw rng bundles.values enough).map fun bundle => bundle column := by
      intro rng
      rw [sampleBundleUnique, if_neg named, if_neg (by rw [random]; exact Bool.false_ne_true),
        dif_pos enough]
    have each : ∀ rng, nonnullMask n source = List.replicate n true ∧
        (draw rng bundles.values enough).Nodup := by
      intro rng
      obtain ⟨mask, _, apart⟩ :=
        (sampleBundleUnique_law (sampled rng)).mp (law rng _ (sampled rng))
      exact ⟨mask, apart⟩
    exact ⟨(each ⟨fun _ => Equiv.refl _⟩).1, (draw_nodup_iff enough).mp fun rng => (each rng).2⟩
  · intro condition rng columns sampled
    refine (sampleBundleUnique_law sampled).mpr ?_
    unfold sampleBundleUnique at sampled
    split_ifs at sampled with none refused enough
    obtain ⟨mask, apart⟩ := condition none (Bool.eq_false_iff.mpr refused) enough
    exact ⟨mask, enough, (draw_nodup_iff enough).mpr apart rng⟩

omit [DecidableEq V] in
/-- A MATCH sample keeps the promise under every seed exactly if the pool holds no value twice, or
the source no second value; derived indices may always meet. -/
theorem match_law_iff (pool : List V) (source : List (Option S)) (deterministic : Bool) :
    (∀ rng derive rows, sampleMatch rng derive pool deterministic source = .ok rows →
      MatchLaw (sampleMatch rng derive pool deterministic) source) ↔
      if deterministic then pool ≠ [] → (sourceUniques source).length ≤ 1
      else targetDistinct source ≤ pool.length →
        pool.Nodup ∨ (sourceUniques source).length ≤ 1 := by
  cases deterministic with
  | true =>
      rw [if_pos rfl]
      constructor
      · intro law some
        obtain ⟨rows, sampled⟩ : ∃ rows, sampleMatch ⟨fun _ => Equiv.refl _⟩ (fun _ => 0) pool true
            source = .ok rows := by
          rw [sampleMatch, if_pos rfl, sampleDeterministic, dif_pos some]
          exact ⟨_, rfl⟩
        have apart := (sampleMatch_law sampled).mp (law _ _ _ sampled)
        rw [standIns, if_pos rfl, List.map_const'] at apart
        exact List.nodup_replicate.mp apart
      · intro condition rng derive rows sampled
        refine (sampleMatch_law sampled).mpr ?_
        rw [standIns, if_pos rfl]
        have short : (sourceUniques source).length ≤ 1 := by
          by_cases empty : pool = []
          · rw [sampleMatch, if_pos rfl, sampleDeterministic, dif_neg (not_not.mpr empty)] at sampled
            split_ifs at sampled with allNull
            have none : sourceUniques source = [] := by
              refine List.eq_nil_iff_forall_not_mem.mpr fun value member => ?_
              have there := List.all_eq_true.mp allNull _ (mem_sourceUniques.mp member)
              cases there
            rw [none]
            exact Nat.zero_le 1
          · exact condition empty
        exact nodup_of_short (by rw [List.length_map]; exact short)
  | false =>
      rw [if_neg Bool.false_ne_true]
      constructor
      · intro law enough
        have uniques : (sourceUniques source).length ≤ pool.length := by
          rw [targetDistinct] at enough
          rw [length_sourceUniques]
          omega
        rw [← draw_nodup_iff uniques]
        intro rng
        obtain ⟨rows, sampled⟩ : ∃ rows, sampleMatch rng (fun _ => 0) pool false source =
            .ok rows := by
          rw [sampleMatch, if_neg Bool.false_ne_true, matchSourceCardinality, dif_pos enough]
          exact ⟨_, rfl⟩
        have apart := (sampleMatch_law sampled).mp (law _ _ _ sampled)
        rw [standIns_eq_draw rng _ uniques] at apart
        exact apart.of_map
      · intro condition rng derive rows sampled
        refine (sampleMatch_law sampled).mpr ?_
        rw [sampleMatch, if_neg Bool.false_ne_true, matchSourceCardinality] at sampled
        split_ifs at sampled with enough
        have uniques : (sourceUniques source).length ≤ pool.length := by
          have target := enough
          rw [targetDistinct] at target
          rw [length_sourceUniques]
          omega
        rw [standIns_eq_draw rng derive uniques]
        exact ((draw_nodup_iff uniques).mpr (condition enough) rng).map (Option.some_injective _)

end Seeds

/-- Where the modes keep their promises, whatever the seed: UNIQUE of single values always, UNIQUE
of bundles if no row is null and the pool holds no bundle twice, MATCH if the pool holds no value
twice.  With a single draw, or a single source value, a pool may repeat what it likes; a MATCH that
derives its indices keeps apart no two values. -/
theorem cardinality_modes :
    (∀ (rng : Rng) (pool : List V) (n : Nat) (source : Option (List (Option S)))
        (deterministic : Bool) (rows : List (Option V)),
      sampleUnique rng pool n source deterministic = .ok rows →
      UniqueLaw (nonnullMask n source) rows ∧
        rows.reduceOption.length ≤ pool.eraseDups.length) ∧
    (∀ (bundles : BundlePool V) (n : Nat) (source : Option (List (Option S)))
        (deterministic : Bool),
      (∀ rng columns, sampleBundleUnique rng bundles n source deterministic = .ok columns →
        UniqueLaw (nonnullMask n source) (bundleRows n columns)) ↔
        (bundles.outputColumns ≠ [] → deterministic = false → n ≤ bundles.values.length →
          nonnullMask n source = List.replicate n true ∧ (bundles.values.Nodup ∨ n ≤ 1))) ∧
    ∀ (pool : List V) (source : List (Option S)) (deterministic : Bool),
      (∀ rng derive rows, sampleMatch rng derive pool deterministic source = .ok rows →
        MatchLaw (sampleMatch rng derive pool deterministic) source) ↔
        if deterministic then pool ≠ [] → (sourceUniques source).length ≤ 1
        else targetDistinct source ≤ pool.length →
          pool.Nodup ∨ (sourceUniques source).length ≤ 1 :=
  ⟨fun _ _ _ _ _ _ => sampleUnique_law, bundle_law_iff, match_law_iff⟩

def identityRng : Rng := ⟨fun _ => Equiv.refl _⟩

/-- Two cities, each with its state. -/
def cityPool : BundlePool String := ⟨["city", "state"], [fun _ => "a", fun _ => "b"]⟩

theorem cardinality_modes_sample :
    UniqueLaw [true, false, true] [some "x", none, some "y"] ∧
    UniqueLaw (nonnullMask 2 (some [some 5, some 5]))
      (bundleRows 2 fun column => [cityPool.values[0] column, cityPool.values[1] column]) ∧
    ∃ rows, sampleMatch identityRng id ["x", "y"] false [some 1, none, some 0, some 1] = .ok rows ∧
      MatchLaw (sampleMatch identityRng id ["x", "y"] false) [some 1, none, some 0, some 1] := by
  obtain ⟨unique, bundle, matched⟩ := cardinality_modes (V := String) (S := Nat)
  refine ⟨?_, ?_, _, rfl, ?_⟩
  · exact (unique identityRng ["x", "x", "y"] 3 (some [some 5, none, some 5]) false
      [some "x", none, some "y"] (by decide)).1
  · exact (bundle cityPool 2 (some [some 5, some 5]) false).mpr
      (fun _ _ _ => ⟨rfl, .inl (by decide)⟩) identityRng _ rfl
  · exact (matched ["x", "y"] [some 1, none, some 0, some 1] false).mpr
      (fun _ => .inl (by decide)) identityRng id _ rfl

/-- Two source values on a pool that holds one value twice. -/
theorem repeated_value_matched :
    sampleMatch identityRng id ["x", "x"] false [some 0, some 1] = .ok [some "x", some "x"] ∧
      ¬ MatchLaw (sampleMatch identityRng id ["x", "x"] false) [some 0, some 1] := by
  have sampled : sampleMatch identityRng id ["x", "x"] false [some 0, some 1] =
      .ok [some "x", some "x"] := by
    have both : targetDistinct [some 0, some 1] ≤ ["x", "x"].length := by decide
    rw [sampleMatch, if_neg Bool.false_ne_true, matchSourceCardinality, dif_pos both]
    have constant : ∀ value : Nat, valueMap identityRng ["x", "x"] [some 0, some 1] both value =
        "x" := by
      intro value
      have all : ∀ i : Fin ["x", "x"].length, ["x", "x"].get i = "x" := by decide
      simp only [valueMap, draw, List.get_ofFn]
      exact all _
    simp [constant]
  refine ⟨sampled, ?_⟩
  rintro ⟨mapping, runs, -, apart⟩
  have given := Except.ok.inj (sampled.symm.trans (runs _ (.refl _)))
  simp only [List.map_cons, Option.bind_some, List.map_nil, List.cons.injEq, and_true] at given
  exact absurd (apart 0 1 (by simp) (by simp) (given.1.symm.trans given.2)) (by decide)

end DecoyEngine.Generation.PoolSampler
