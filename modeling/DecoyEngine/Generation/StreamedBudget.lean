import DecoyEngine.Generation.Streamed

namespace DecoyEngine.Generation.Budget

/-! A run that passes the preflight: its charge at every step, and what is left of it at the end. -/

/-- The reservations the run knows of. -/
def Config.holders (config : Config) : List Nat :=
  config.building.toList ++ (config.stageStack ++ config.runStack)

/-- The charge is that of the held reservations, and what the run knows of is held once. -/
structure Sound (base : Int) (config : Config) : Prop where
  charged : config.ledger.chargedBytes = base + Ledger.outstanding config.ledger.reservations
  distinct : config.holders.Nodup
  held : ∀ id ∈ config.holders, config.ledger.Held id

/-- Nothing is held that the run does not know of. -/
def Tight (config : Config) : Prop := ∀ id, config.ledger.Held id → id ∈ config.holders

section Moves

variable {base : Int} {config next : Config} {stage : String} {nbytes id lost : Nat}

theorem Sound.release (sound : Sound base config) (free : config.holders.Perm (id :: next.holders))
    (ledger : next.ledger = config.ledger.release id) : Sound base next := by
  have member : id ∈ config.holders := free.symm.subset (by simp)
  have freed := Ledger.release_freed (sound.held id member)
  have distinct := free.nodup_iff.mp sound.distinct
  constructor
  · rw [ledger]
    have before := sound.charged
    have charged := freed.charged
    have outstanding := freed.outstanding
    omega
  · exact (List.nodup_cons.mp distinct).2
  · intro other among
    have differ : other ≠ id := by
      rintro rfl
      exact (List.nodup_cons.mp distinct).1 among
    rw [ledger, freed.others other differ]
    exact sound.held other (free.symm.subset (List.mem_cons_of_mem _ among))

theorem Tight.release (tight : Tight config) (sound : Sound base config)
    (free : config.holders.Perm (id :: next.holders))
    (ledger : next.ledger = config.ledger.release id) : Tight next := by
  have freed := Ledger.release_freed (sound.held id (free.symm.subset (by simp)))
  intro other held
  rw [ledger] at held
  have differ : other ≠ id := by
    rintro rfl
    exact freed.self held
  rcases List.mem_cons.mp (free.subset (tight other ((freed.others other differ).mp held))) with
    same | among
  · exact absurd same differ
  · exact among

theorem Sound.reserve (sound : Sound base config)
    (charged : Ledger.Charged config.ledger next.ledger stage nbytes id)
    (taken : next.holders.Perm (id :: config.holders)) : Sound base next := by
  constructor
  · have before := sound.charged
    rw [charged.charged, charged.outstanding]
    push_cast
    omega
  · refine taken.nodup_iff.mpr (List.nodup_cons.mpr ⟨fun among => ?_, sound.distinct⟩)
    have bound := (sound.held id among).bound
    rw [charged.place] at bound
    exact Nat.lt_irrefl _ bound
  · intro other among
    rcases List.mem_cons.mp (taken.subset among) with rfl | earlier
    · exact charged.held
    · exact charged.keeps (sound.held other earlier)

theorem Tight.reserve (tight : Tight config)
    (charged : Ledger.Charged config.ledger next.ledger stage nbytes id)
    (taken : next.holders.Perm (id :: config.holders)) : Tight next := by
  intro other held
  rcases charged.other_of_held held with rfl | earlier
  · exact taken.symm.subset (by simp)
  · exact taken.symm.subset (List.mem_cons_of_mem _ (tight other earlier))

theorem Sound.forget (sound : Sound base config) (ledger : next.ledger = config.ledger)
    (fewer : next.holders.Sublist config.holders) : Sound base next where
  charged := by rw [ledger]; exact sound.charged
  distinct := fewer.nodup sound.distinct
  held := fun id among => by rw [ledger]; exact sound.held id (fewer.subset among)

end Moves

/-- The most that commands can charge, over what the two stacks hold. -/
def peak : List Command → Nat → Nat → Nat
  | [], run, stage => run + stage
  | .holdRun _ nbytes :: rest, run, stage => peak rest (run + nbytes) stage
  | .holdStage _ nbytes :: rest, run, stage => peak rest run (stage + nbytes)
  | .build _ nbytes :: rest, run, stage => peak rest run (stage + nbytes)
  | .consume :: rest, run, stage => peak rest run stage
  | .closeStage :: rest, run, stage => max (run + stage) (peak rest run 0)

theorem peak_mono (commands : List Command) {run run' stage stage' : Nat} (runs : run ≤ run')
    (stages : stage ≤ stage') : peak commands run stage ≤ peak commands run' stage' := by
  induction commands generalizing run run' stage stage' with
  | nil => exact Nat.add_le_add runs stages
  | cons command rest ih =>
      cases command with
      | holdRun _ nbytes => exact ih (Nat.add_le_add_right runs nbytes) stages
      | holdStage _ nbytes => exact ih runs (Nat.add_le_add_right stages nbytes)
      | build _ nbytes => exact ih runs (Nat.add_le_add_right stages nbytes)
      | consume => exact ih runs stages
      | closeStage =>
          have later := ih runs (Nat.le_refl 0)
          simp only [peak]
          omega

theorem le_peak (commands : List Command) (run stage : Nat) :
    run + stage ≤ peak commands run stage := by
  induction commands generalizing run stage with
  | nil => exact Nat.le_refl _
  | cons command rest ih =>
      cases command with
      | holdRun _ nbytes =>
          have later := ih (run + nbytes) stage
          simp only [peak]
          omega
      | holdStage _ nbytes =>
          have later := ih run (stage + nbytes)
          simp only [peak]
          omega
      | build _ nbytes =>
          have later := ih run (stage + nbytes)
          simp only [peak]
          omega
      | consume => exact ih run stage
      | closeStage => exact Nat.le_max_left _ _

theorem peak_holdRuns (label : Column × Nat → String) (pools : List (Column × Nat))
    (rest : List Command) (run stage : Nat) :
    peak (pools.map (fun entry => .holdRun (label entry) entry.2) ++ rest) run stage =
      peak rest (run + (pools.map Prod.snd).sum) stage := by
  induction pools generalizing run with
  | nil => rfl
  | cons entry pools ih =>
      rw [List.map_cons, List.cons_append, peak, ih, List.map_cons, List.sum_cons, Nat.add_assoc]

theorem peak_builds (label : Column × Nat → String) (pools : List (Column × Nat))
    (rest : List Command) (run stage : Nat) :
    peak (pools.map (fun entry => .build (label entry) entry.2) ++ rest) run stage =
      peak rest run (stage + (pools.map Prod.snd).sum) := by
  induction pools generalizing stage with
  | nil => rfl
  | cons entry pools ih =>
      rw [List.map_cons, List.cons_append, peak, ih, List.map_cons, List.sum_cons, Nat.add_assoc]

section Plans

variable (bounds : Bounds) (instanceDefault : Option Locale)

/-- What a table holds to the end of the run. -/
def kept (referenced : List (String × String)) (streamIt : Bool) (planned : Planned) : Nat :=
  planned.keyBytes bounds referenced +
    if streamIt then 0 else planned.accumulatorBytes bounds

/-- What a table holds in its stage, at most. -/
def staged (streamIt : Bool) (planned : Planned) : Nat :=
  planned.batchBytes bounds + planned.poolBytes bounds instanceDefault +
    if streamIt then planned.sinkBytes bounds else 0

theorem peak_table (referenced : List (String × String)) (streamIt : Bool) (planned : Planned)
    (rest : List Command) (run : Nat) :
    peak (tableCommands bounds instanceDefault referenced streamIt planned ++ rest) run 0 =
      max (run + kept bounds referenced streamIt planned +
        staged bounds instanceDefault streamIt planned)
        (peak rest (run + kept bounds referenced streamIt planned) 0) := by
  have keys : ((keyPools bounds referenced planned.table).map Prod.snd).sum =
      planned.keyBytes bounds referenced := rfl
  have pools : ((fakerPools bounds instanceDefault planned.table).map Prod.snd).sum =
      planned.poolBytes bounds instanceDefault := rfl
  simp only [tableCommands, List.append_assoc, List.cons_append, List.nil_append]
  rw [peak_holdRuns (fun entry => "parent_key_pool:" ++ planned.table.name ++ "." ++ entry.1.name),
    keys]
  cases streamIt with
  | true =>
      simp only [if_true, List.cons_append, List.nil_append, peak, kept,
        staged, peak_builds (fun entry => "faker_pool_build:" ++ planned.table.name ++ "." ++
          entry.1.name), pools]
      congr 1
      omega
  | false =>
      simp only [Bool.false_eq_true, if_false, List.cons_append,
        List.nil_append, peak, kept, staged, peak_builds (fun entry => "faker_pool_build:" ++
          planned.table.name ++ "." ++ entry.1.name), pools]
      congr 1
      · omega
      · congr 1
        omega

theorem peak_tables (referenced : List (String × String)) (streamIt : Bool) (most : Nat)
    (tables : List Planned) (run : Nat)
    (small : ∀ planned ∈ tables, staged bounds instanceDefault streamIt planned ≤ most) :
    peak (tables.flatMap (tableCommands bounds instanceDefault referenced streamIt)) run 0 ≤
      run + (tables.map (kept bounds referenced streamIt)).sum + most := by
  induction tables generalizing run with
  | nil => exact Nat.le_add_right run most
  | cons planned rest ih =>
      have later := ih (run + kept bounds referenced streamIt planned) fun other member =>
        small other (List.mem_cons_of_mem _ member)
      have here := small planned (by simp)
      rw [List.flatMap_cons, peak_table, List.map_cons, List.sum_cons]
      omega

theorem preflight_fold (referenced : List (String × String)) (tables : List Planned)
    (plan : Plan) (final : Plan)
    (folded : tables.foldl (fun plan planned =>
      { plan with
        keyPools := plan.keyPools + planned.keyBytes bounds referenced
        accumulators := plan.accumulators + planned.accumulatorBytes bounds
        stagePeak := max plan.stagePeak
          (planned.batchBytes bounds + planned.poolBytes bounds instanceDefault)
        sinkPeak := max plan.sinkPeak (planned.sinkBytes bounds) }) plan = final) :
    final.layouts = plan.layouts ∧
      final.keyPools = plan.keyPools + (tables.map (Planned.keyBytes bounds referenced)).sum ∧
      final.accumulators = plan.accumulators +
        (tables.map (Planned.accumulatorBytes bounds)).sum ∧
      plan.stagePeak ≤ final.stagePeak ∧ plan.sinkPeak ≤ final.sinkPeak ∧
      ∀ planned ∈ tables,
        planned.batchBytes bounds + planned.poolBytes bounds instanceDefault ≤ final.stagePeak ∧
        planned.sinkBytes bounds ≤ final.sinkPeak := by
  induction tables generalizing plan with
  | nil =>
      cases folded
      simp
  | cons first rest ih =>
      obtain ⟨layouts, keys, accumulators, stages, sinks, each⟩ := ih _ folded
      dsimp only at layouts keys accumulators stages sinks
      simp only [List.map_cons, List.sum_cons]
      refine ⟨layouts, by omega, by omega, by omega, by omega, ?_⟩
      intro planned member
      rcases List.mem_cons.mp member with rfl | later
      · exact ⟨by omega, by omega⟩
      · exact each planned later

theorem sum_kept (referenced : List (String × String)) (streamIt : Bool)
    (tables : List Planned) :
    (tables.map (kept bounds referenced streamIt)).sum =
      (tables.map (Planned.keyBytes bounds referenced)).sum +
        if streamIt then 0 else (tables.map (Planned.accumulatorBytes bounds)).sum := by
  induction tables with
  | nil => cases streamIt <;> rfl
  | cons planned rest ih =>
      simp only [List.map_cons, List.sum_cons, ih, kept]
      cases streamIt
      · simp only [Bool.false_eq_true, if_false]
        omega
      · simp only [if_true]
        omega

theorem peak_commands (tables : List Planned) (layoutBytes : Nat) (streamIt : Bool) :
    peak (commands bounds instanceDefault tables layoutBytes streamIt) 0 0 ≤
      if streamIt then (preflight bounds instanceDefault tables layoutBytes).streamingPeak
      else (preflight bounds instanceDefault tables layoutBytes).residentPeak := by
  obtain ⟨layouts, keys, accumulators, -, -, each⟩ :=
    preflight_fold bounds instanceDefault (referencedKeys tables) tables _
      (preflight bounds instanceDefault tables layoutBytes) rfl
  dsimp only at layouts keys accumulators
  have start : peak (commands bounds instanceDefault tables layoutBytes streamIt) 0 0 =
      peak (tables.flatMap (tableCommands bounds instanceDefault (referencedKeys tables) streamIt))
        layoutBytes 0 := by
    rw [commands]
    split
    · rename_i none
      rw [none, List.nil_append]
    · rw [List.singleton_append, peak, Nat.zero_add]
  rw [start]
  have sums := sum_kept bounds (referencedKeys tables) streamIt tables
  cases streamIt with
  | true =>
      have bound := peak_tables bounds instanceDefault (referencedKeys tables) true
        ((preflight bounds instanceDefault tables layoutBytes).stagePeak +
          (preflight bounds instanceDefault tables layoutBytes).sinkPeak) tables layoutBytes
        fun planned member => by
          have figures := each planned member
          simp only [staged, if_true]
          omega
      simp only [if_true, Plan.streamingPeak] at sums ⊢
      omega
  | false =>
      have bound := peak_tables bounds instanceDefault (referencedKeys tables) false
        (preflight bounds instanceDefault tables layoutBytes).stagePeak tables layoutBytes
        fun planned member => by
          have figures := each planned member
          simp only [staged, Bool.false_eq_true, if_false]
          omega
      simp only [Bool.false_eq_true, if_false, Plan.residentPeak] at sums ⊢
      omega

end Plans

section Runs

variable {base : Int} {config : Config}

/-- What the stage and the pool build hold. -/
def Config.stageHolders (config : Config) : List Nat :=
  config.building.toList ++ config.stageStack

/-- Nothing has been raised, and what is left to do fits. -/
structure Fitting (base : Int) (config : Config) : Prop where
  account : Ledger.outstanding config.ledger.reservations =
    config.ledger.sizes config.runStack + config.ledger.sizes config.stageHolders
  room : ∀ ceiling, config.ledger.ceilingBytes = some ceiling →
    base + peak config.todo (config.ledger.sizes config.runStack)
      (config.ledger.sizes config.stageHolders) ≤ ceiling

/-- The invariant of an admitted run. -/
structure Invariant (base : Int) (config : Config) : Prop extends Sound base config where
  fitting : config.raised = none → Fitting base config
  under : ∀ ceiling, config.ledger.ceilingBytes = some ceiling →
    config.ledger.chargedBytes ≤ ceiling
  stopped : config.raised = none ∨
    config.raised = some .foreign ∧ config.todo = [] ∧ config.building = none

theorem Config.holders_eq (config : Config) :
    config.holders = config.stageHolders ++ config.runStack := by
  rw [holders, stageHolders, List.append_assoc]

theorem Fitting.under (fitting : Fitting base config)
    (charged : config.ledger.chargedBytes =
      base + Ledger.outstanding config.ledger.reservations)
    (ceiling : Nat) (bounded : config.ledger.ceilingBytes = some ceiling) :
    config.ledger.chargedBytes ≤ ceiling := by
  have room := fitting.room ceiling bounded
  have least := le_peak config.todo (config.ledger.sizes config.runStack)
    (config.ledger.sizes config.stageHolders)
  rw [charged, fitting.account]
  push_cast at room ⊢
  omega

theorem sizes_cons (ledger : Ledger) (id : Nat) (ids : List Nat) :
    ledger.sizes (id :: ids) = ledger.sizeOf id + ledger.sizes ids := by
  rw [Ledger.sizes, List.map_cons, List.sum_cons]
  rfl

theorem Invariant.fail (invariant : Invariant base config) :
    Invariant base (config.fail .foreign) where
  toSound := invariant.toSound.forget rfl (List.sublist_append_right _ _)
  fitting := fun calm => by cases calm
  under := invariant.under
  stopped := .inr ⟨rfl, rfl, rfl⟩

theorem Invariant.release {next : Config} {id : Nat} (invariant : Invariant base config)
    (free : config.holders.Perm (id :: next.holders))
    (ledger : next.ledger = config.ledger.release id)
    (raised : next.raised = config.raised) (todo : next.todo = config.todo)
    (building : next.building = config.building ∨ next.building = none)
    (less : next.runStack = config.runStack ∧
        config.stageHolders = id :: next.stageHolders ∨
      config.runStack = id :: next.runStack ∧ next.stageHolders = config.stageHolders) :
    Invariant base next := by
  have freed := Ledger.release_freed
    (invariant.held id (free.symm.subset List.mem_cons_self))
  refine ⟨invariant.toSound.release free ledger, fun calm => ?_, ?_, ?_⟩
  · have fitting := invariant.fitting (raised ▸ calm)
    have outstanding := freed.outstanding
    have account := fitting.account
    rcases less with ⟨runs, stages⟩ | ⟨runs, stages⟩
    · have split : config.ledger.sizes config.stageHolders =
          config.ledger.sizeOf id + config.ledger.sizes next.stageHolders := by
        rw [stages, sizes_cons]
      constructor
      · rw [ledger, freed.keeps_sizes, freed.keeps_sizes, runs]
        omega
      · intro ceiling bounded
        rw [ledger, freed.ceiling] at bounded
        have room := fitting.room ceiling bounded
        have smaller := peak_mono config.todo
          (Nat.le_refl (config.ledger.sizes config.runStack))
          (show config.ledger.sizes next.stageHolders ≤
            config.ledger.sizes config.stageHolders by omega)
        rw [ledger, freed.keeps_sizes, freed.keeps_sizes, runs, todo]
        omega
    · have split : config.ledger.sizes config.runStack =
          config.ledger.sizeOf id + config.ledger.sizes next.runStack := by
        rw [runs, sizes_cons]
      constructor
      · rw [ledger, freed.keeps_sizes, freed.keeps_sizes, stages]
        omega
      · intro ceiling bounded
        rw [ledger, freed.ceiling] at bounded
        have room := fitting.room ceiling bounded
        have smaller := peak_mono config.todo
          (show config.ledger.sizes next.runStack ≤
            config.ledger.sizes config.runStack by omega)
          (Nat.le_refl (config.ledger.sizes config.stageHolders))
        rw [ledger, freed.keeps_sizes, freed.keeps_sizes, stages, todo]
        omega
  · intro ceiling bounded
    rw [ledger, freed.ceiling] at bounded
    have before := invariant.under ceiling bounded
    have charged := freed.charged
    rw [ledger]
    omega
  · rw [raised, todo]
    exact invariant.stopped.imp_right fun stopped =>
      ⟨stopped.1, stopped.2.1, building.elim (·.trans stopped.2.2) fun none => none⟩

theorem Invariant.reserve (invariant : Invariant base config) (stage : String) (nbytes : Nat)
    (calm : config.raised = none)
    (small : ∀ run staged, run + staged + nbytes ≤ peak config.todo run staged) :
    ∃ ledger id, config.ledger.reserve stage nbytes = .ok (ledger, id) ∧
      Ledger.Charged config.ledger ledger stage nbytes id := by
  have fitting := invariant.fitting calm
  have fits : ∀ ceiling, config.ledger.ceilingBytes = some ceiling →
      config.ledger.chargedBytes + nbytes ≤ ceiling := by
    intro ceiling bounded
    have room := fitting.room ceiling bounded
    have least := small (config.ledger.sizes config.runStack)
      (config.ledger.sizes config.stageHolders)
    rw [invariant.charged, fitting.account]
    push_cast at room ⊢
    omega
  obtain ⟨ledger, id, reserved⟩ := Ledger.reserve_fits fits
  exact ⟨ledger, id, reserved, Ledger.reserve_charged reserved⟩

theorem Invariant.reserved {next : Config} {stage : String} {nbytes id : Nat}
    (invariant : Invariant base config) (calm : config.raised = none)
    (charged : Ledger.Charged config.ledger next.ledger stage nbytes id)
    (raised : next.raised = config.raised)
    (taken : next.holders.Perm (id :: config.holders))
    (more : next.stageHolders = config.stageHolders ∧ next.runStack = id :: config.runStack ∧
        (∀ run staged, peak next.todo (run + nbytes) staged ≤ peak config.todo run staged) ∨
      next.stageHolders = id :: config.stageHolders ∧ next.runStack = config.runStack ∧
        ∀ run staged, peak next.todo run (staged + nbytes) ≤ peak config.todo run staged) :
    Invariant base next := by
  have fitting := invariant.fitting calm
  have sound := invariant.toSound.reserve charged taken
  have runs : ∀ other ∈ config.runStack, config.ledger.Held other := fun other among =>
    invariant.held other (List.mem_append_right _ (List.mem_append_right _ among))
  have stages : ∀ other ∈ config.stageHolders, config.ledger.Held other := fun other among =>
    invariant.held other (by rw [config.holders_eq]; exact List.mem_append_left _ among)
  have account := fitting.account
  have fits : Fitting base next := by
    rcases more with ⟨stageSame, runMore, room⟩ | ⟨stageMore, runSame, room⟩
    · constructor
      · rw [charged.outstanding, stageSame, runMore, sizes_cons, charged.size,
          charged.sizes runs, charged.sizes stages]
        omega
      · intro ceiling bounded
        rw [charged.ceiling] at bounded
        have before := fitting.room ceiling bounded
        have now := room (config.ledger.sizes config.runStack)
          (config.ledger.sizes config.stageHolders)
        rw [stageSame, runMore, sizes_cons, charged.size, charged.sizes runs,
          charged.sizes stages, Nat.add_comm nbytes]
        omega
    · constructor
      · rw [charged.outstanding, stageMore, runSame, sizes_cons, charged.size,
          charged.sizes runs, charged.sizes stages]
        omega
      · intro ceiling bounded
        rw [charged.ceiling] at bounded
        have before := fitting.room ceiling bounded
        have now := room (config.ledger.sizes config.runStack)
          (config.ledger.sizes config.stageHolders)
        rw [stageMore, runSame, sizes_cons, charged.size, charged.sizes runs,
          charged.sizes stages, Nat.add_comm nbytes]
        omega
  exact ⟨sound, fun _ => fits, fits.under sound.charged, .inl (raised.trans calm)⟩

theorem step_command {ledger : Ledger} {runStack stageStack : List Nat} {command : Command}
    {rest : List Command} {raised : Option Failure} {choice : Choice} (raising : choice ≠ .raise) :
    step ⟨ledger, runStack, stageStack, none, command :: rest, raised⟩ choice =
      step ⟨ledger, runStack, stageStack, none, command :: rest, raised⟩ .proceed := by
  cases choice with
  | proceed => rfl
  | decline => cases command <;> rfl
  | raise => exact absurd rfl raising

theorem Invariant.reserving (invariant : Invariant base config) (calm : config.raised = none)
    (stage : String) (nbytes : Nat) (place : Ledger → Nat → Config)
    (small : ∀ run staged, run + staged + nbytes ≤ peak config.todo run staged)
    (lands : ∀ ledger id, config.ledger.reserve stage nbytes = .ok (ledger, id) →
      step config .proceed = place ledger id)
    (keeps : ∀ ledger id, Ledger.Charged config.ledger ledger stage nbytes id →
      Invariant base (place ledger id)) :
    Invariant base (step config .proceed) := by
  obtain ⟨ledger, id, reserved, charged⟩ := invariant.reserve stage nbytes calm small
  rw [lands ledger id reserved]
  exact keeps ledger id charged

theorem closeStage_invariant {ledger : Ledger} {runStack stageStack : List Nat}
    {rest : List Command}
    (invariant : Invariant base ⟨ledger, runStack, stageStack, none, .closeStage :: rest, none⟩) :
    Invariant base
      (step ⟨ledger, runStack, stageStack, none, .closeStage :: rest, none⟩ .proceed) := by
  cases stageStack with
  | cons id more =>
      exact invariant.release (List.Perm.refl _) rfl rfl rfl (.inl rfl) (.inl ⟨rfl, rfl⟩)
  | nil =>
      have closed : step ⟨ledger, runStack, [], none, .closeStage :: rest, none⟩ .proceed =
        ⟨ledger, runStack, [], none, rest, none⟩ := rfl
      have fitting := invariant.fitting rfl
      rw [closed]
      refine ⟨invariant.toSound.forget rfl (List.Sublist.refl _),
        fun _ => ⟨fitting.account, fun ceiling bounded => ?_⟩, invariant.under, .inl rfl⟩
      have room := fitting.room ceiling bounded
      have none : ledger.sizes [] = 0 := rfl
      simp only [peak, Config.stageHolders, Option.toList_none, List.nil_append, none] at room ⊢
      omega

theorem command_invariant {ledger : Ledger} {runStack stageStack : List Nat} {command : Command}
    {rest : List Command}
    (invariant : Invariant base ⟨ledger, runStack, stageStack, none, command :: rest, none⟩) :
    Invariant base (step ⟨ledger, runStack, stageStack, none, command :: rest, none⟩ .proceed) := by
  cases command with
  | holdRun stage nbytes =>
      refine invariant.reserving rfl stage nbytes
        (fun next id => ⟨next, id :: runStack, stageStack, none, rest, none⟩)
        (fun run staged => ?_) (fun next id reserved => ?_) fun next id charged =>
          invariant.reserved rfl charged rfl List.perm_middle
            (.inl ⟨rfl, rfl, fun _ _ => Nat.le_refl _⟩)
      · have least := le_peak rest (run + nbytes) staged
        simp only [peak]
        omega
      · simp only [step, show ledger.reserve stage nbytes = .ok (next, id) from reserved]
  | holdStage stage nbytes =>
      refine invariant.reserving rfl stage nbytes
        (fun next id => ⟨next, runStack, id :: stageStack, none, rest, none⟩)
        (fun run staged => ?_) (fun next id reserved => ?_) fun next id charged =>
          invariant.reserved rfl charged rfl (List.Perm.refl _)
            (.inr ⟨rfl, rfl, fun _ _ => Nat.le_refl _⟩)
      · have least := le_peak rest run (staged + nbytes)
        simp only [peak]
        omega
      · simp only [step, show ledger.reserve stage nbytes = .ok (next, id) from reserved]
  | build stage nbytes =>
      refine invariant.reserving rfl stage nbytes
        (fun next id => ⟨next, runStack, stageStack, some id, rest, none⟩)
        (fun run staged => ?_) (fun next id reserved => ?_) fun next id charged =>
          invariant.reserved rfl charged rfl (List.Perm.refl _)
            (.inr ⟨rfl, rfl, fun _ _ => Nat.le_refl _⟩)
      · have least := le_peak rest run (staged + nbytes)
        simp only [peak]
        omega
      · simp only [step, show ledger.reserve stage nbytes = .ok (next, id) from reserved]
  | consume =>
      have fitting := invariant.fitting rfl
      exact ⟨invariant.toSound.forget rfl (List.Sublist.refl _),
        fun _ => ⟨fitting.account, fitting.room⟩, invariant.under, .inl rfl⟩
  | closeStage => exact closeStage_invariant invariant

/-- One step of an admitted run: the pool under construction goes first, then the next command, and
at the end what is still held. -/
theorem step_invariant (choice : Choice) (invariant : Invariant base config) :
    Invariant base (step config choice) := by
  obtain ⟨ledger, runStack, stageStack, building, todo, raised⟩ := config
  cases building with
  | some id =>
      cases choice with
      | raise => exact invariant.fail
      | decline =>
          exact invariant.release (List.Perm.refl _) rfl rfl rfl (.inr rfl) (.inl ⟨rfl, rfl⟩)
      | proceed =>
          have calm : raised = none := invariant.stopped.resolve_right fun stopped => by
            cases stopped.2.2
          have same : Sound base (step ⟨ledger, runStack, stageStack, some id, todo, raised⟩
              .proceed) := invariant.toSound.forget rfl (List.Sublist.refl _)
          exact ⟨same, fun _ => ⟨(invariant.fitting calm).account, (invariant.fitting calm).room⟩,
            invariant.under, .inl calm⟩
  | none =>
      cases todo with
      | nil =>
          cases stageStack with
          | cons id rest =>
              exact invariant.release (List.Perm.refl _) rfl rfl rfl (.inl rfl)
                (.inl ⟨rfl, rfl⟩)
          | nil =>
              cases runStack with
              | nil => exact invariant
              | cons id rest =>
                  exact invariant.release (List.Perm.refl _) rfl rfl rfl (.inl rfl)
                    (.inr ⟨rfl, rfl⟩)
      | cons command rest =>
          obtain rfl : raised = none := invariant.stopped.resolve_right fun stopped => by
            cases stopped.2.1
          by_cases raising : choice = .raise
          · subst raising
            exact invariant.fail
          · rw [step_command raising]
            exact command_invariant invariant

/-- What a step does to the ledger and to what the run knows of. -/
inductive Change (config next : Config) : Prop where
  | same (ledger : next.ledger = config.ledger) (holders : next.holders = config.holders)
  | released (id : Nat) (ledger : next.ledger = config.ledger.release id)
      (free : config.holders = id :: next.holders)
  | reserved (stage : String) (nbytes id : Nat)
      (charged : Ledger.Charged config.ledger next.ledger stage nbytes id)
      (taken : next.holders.Perm (id :: config.holders))

/-- Something is raised while a pool is built. -/
def Drops (config : Config) (choice : Choice) : Prop :=
  config.building.isSome = true ∧ choice = .raise

theorem fail_same (failure : Failure) (quiet : config.building = none) :
    Change config (config.fail failure) := by
  refine .same rfl ?_
  rw [Config.holders, Config.holders, quiet]
  rfl

theorem step_change {choice : Choice} (kept : ¬Drops config choice) :
    Change config (step config choice) := by
  obtain ⟨ledger, runStack, stageStack, building, todo, raised⟩ := config
  cases building with
  | some id =>
      cases choice with
      | raise => exact absurd ⟨rfl, rfl⟩ kept
      | decline => exact .released id rfl rfl
      | proceed => exact .same rfl rfl
  | none =>
      cases todo with
      | nil =>
          cases stageStack with
          | cons id rest => exact .released id rfl rfl
          | nil =>
              cases runStack with
              | nil => exact .same rfl rfl
              | cons id rest => exact .released id rfl rfl
      | cons command rest =>
          by_cases raising : choice = .raise
          · subst raising
            exact fail_same _ rfl
          · rw [step_command raising]
            cases command with
            | holdRun stage nbytes =>
                cases reserved : ledger.reserve stage nbytes with
                | error failure =>
                    simp only [step, reserved]
                    exact fail_same _ rfl
                | ok pair =>
                    have charged := Ledger.reserve_charged reserved
                    simp only [step, reserved]
                    exact .reserved stage nbytes pair.2 charged List.perm_middle
            | holdStage stage nbytes =>
                cases reserved : ledger.reserve stage nbytes with
                | error failure =>
                    simp only [step, reserved]
                    exact fail_same _ rfl
                | ok pair =>
                    have charged := Ledger.reserve_charged reserved
                    simp only [step, reserved]
                    exact .reserved stage nbytes pair.2 charged (List.Perm.refl _)
            | build stage nbytes =>
                cases reserved : ledger.reserve stage nbytes with
                | error failure =>
                    simp only [step, reserved]
                    exact fail_same _ rfl
                | ok pair =>
                    have charged := Ledger.reserve_charged reserved
                    simp only [step, reserved]
                    exact .reserved stage nbytes pair.2 charged (List.Perm.refl _)
            | consume => exact .same rfl rfl
            | closeStage =>
                cases stageStack with
                | cons id more => exact .released id rfl rfl
                | nil => exact .same rfl rfl

theorem Change.tight {next : Config} (change : Change config next) (sound : Sound base config)
    (tight : Tight config) : Tight next := by
  cases change with
  | same ledger holders =>
      intro id held
      rw [ledger] at held
      rw [holders]
      exact tight id held
  | released id ledger free => exact tight.release sound (free ▸ List.Perm.refl _) ledger
  | reserved stage nbytes id charged taken => exact tight.reserve charged taken

/-- A reservation that is held and that the run no longer knows of. -/
def Lost (config : Config) (id : Nat) : Prop := config.ledger.Held id ∧ id ∉ config.holders

theorem Change.lost {next : Config} {id : Nat} (change : Change config next)
    (sound : Sound base config) (lost : Lost config id) : Lost next id := by
  obtain ⟨held, unknown⟩ := lost
  cases change with
  | same ledger holders => exact ⟨by rwa [ledger], by rwa [holders]⟩
  | released other ledger free =>
      rw [free, List.mem_cons, not_or] at unknown
      have freed := Ledger.release_freed (sound.held other (by rw [free]; simp))
      refine ⟨?_, unknown.2⟩
      rw [ledger, freed.others id unknown.1]
      exact held
  | reserved stage nbytes other charged taken =>
      refine ⟨charged.keeps held, fun member => ?_⟩
      rcases List.mem_cons.mp (taken.subset member) with rfl | earlier
      · have bound := held.bound
        rw [charged.place] at bound
        exact Nat.lt_irrefl _ bound
      · exact unknown earlier

theorem Lost.drop {id : Nat} {choice : Choice} (lost : Lost config id)
    (drops : Drops config choice) : Lost (step config choice) id := by
  obtain ⟨ledger, runStack, stageStack, building, todo, raised⟩ := config
  obtain ⟨some', rfl⟩ := drops
  cases building with
  | none => cases some'
  | some other => exact ⟨lost.1, fun member => lost.2 (List.mem_cons_of_mem _ member)⟩

theorem drops_lost {choice : Choice} (sound : Sound base config) (drops : Drops config choice) :
    ∃ id, Lost (step config choice) id := by
  obtain ⟨ledger, runStack, stageStack, building, todo, raised⟩ := config
  obtain ⟨some', rfl⟩ := drops
  cases building with
  | none => cases some'
  | some id => exact ⟨id, sound.held id (by simp [Config.holders]),
      (List.nodup_cons.mp sound.distinct).1⟩

def Command.weight : Command → Nat
  | .holdRun .. => 2
  | .holdStage .. => 2
  | .build .. => 3
  | .consume => 1
  | .closeStage => 1

/-- How many steps a run can still make. -/
def Config.remaining (config : Config) : Nat :=
  (config.todo.map Command.weight).sum + 2 * config.building.toList.length +
    config.stageStack.length + config.runStack.length

theorem remaining_eq_zero : config.remaining = 0 ↔ config.done := by
  obtain ⟨ledger, runStack, stageStack, building, todo, raised⟩ := config
  constructor
  · intro zero
    simp only [Config.remaining, Nat.add_eq_zero_iff, List.length_eq_zero_iff] at zero
    obtain ⟨⟨⟨work, build⟩, stage⟩, run⟩ := zero
    refine ⟨?_, ?_, stage, run⟩
    · cases building with
      | none => rfl
      | some id => cases build
    · cases todo with
      | nil => rfl
      | cons command rest => cases command <;> simp [Command.weight] at work
  · rintro ⟨rfl, rfl, rfl, rfl⟩
    rfl

theorem step_remaining (config : Config) (choice : Choice) :
    (step config choice).remaining ≤ config.remaining - 1 := by
  obtain ⟨ledger, runStack, stageStack, building, todo, raised⟩ := config
  cases building with
  | some id =>
      cases choice <;>
        simp only [step, Config.fail, Config.remaining, Option.toList_some, Option.toList_none,
          List.length_cons, List.length_nil, List.map_nil, List.sum_nil] <;> omega
  | none =>
      cases todo with
      | nil =>
          cases stageStack <;> cases runStack <;>
            simp only [step, Config.unwind, Config.remaining, Option.toList_none,
              List.length_cons, List.length_nil, List.map_nil, List.sum_nil] <;> omega
      | cons command rest =>
          have positive : 1 ≤ command.weight := by cases command <;> simp [Command.weight]
          by_cases raising : choice = .raise
          · subst raising
            simp only [step, Config.fail, Config.remaining, Option.toList_none, List.length_nil,
              List.map_nil, List.sum_nil, List.map_cons, List.sum_cons]
            omega
          · rw [step_command raising]
            cases command with
            | holdRun stage nbytes =>
                cases reserved : ledger.reserve stage nbytes <;>
                  simp only [step, reserved, Config.fail, Config.remaining, Option.toList_none,
                    List.length_cons, List.length_nil, List.map_nil, List.sum_nil, List.map_cons,
                    List.sum_cons, Command.weight] <;> omega
            | holdStage stage nbytes =>
                cases reserved : ledger.reserve stage nbytes <;>
                  simp only [step, reserved, Config.fail, Config.remaining, Option.toList_none,
                    List.length_cons, List.length_nil, List.map_nil, List.sum_nil, List.map_cons,
                    List.sum_cons, Command.weight] <;> omega
            | build stage nbytes =>
                cases reserved : ledger.reserve stage nbytes <;>
                  simp only [step, reserved, Config.fail, Config.remaining, Option.toList_none,
                    Option.toList_some, List.length_cons, List.length_nil, List.map_nil,
                    List.sum_nil, List.map_cons, List.sum_cons, Command.weight] <;> omega
            | consume =>
                simp only [step, Config.remaining, Option.toList_none, List.length_nil,
                  List.map_cons, List.sum_cons, Command.weight]
                omega
            | closeStage =>
                cases stageStack <;>
                  simp only [step, Config.remaining, Option.toList_none, List.length_cons,
                    List.length_nil, List.map_cons, List.sum_cons, Command.weight] <;> omega

theorem execute_invariant (choices : List Choice) (invariant : Invariant base config) :
    Invariant base (execute config choices) := by
  induction choices generalizing config with
  | nil => exact invariant
  | cons choice rest ih => exact ih (step_invariant choice invariant)

theorem execute_remaining (choices : List Choice) (config : Config) :
    (execute config choices).remaining ≤ config.remaining - choices.length := by
  induction choices generalizing config with
  | nil => exact Nat.le_refl _
  | cons choice rest ih =>
      have here := step_remaining config choice
      have later := ih (step config choice)
      change (execute (step config choice) rest).remaining ≤ _
      rw [List.length_cons]
      omega

/-- No pool build of the run is left by an exception. -/
def BuildsEnd (config : Config) (choices : List Choice) : Prop :=
  ∀ before choice after, choices = before ++ choice :: after →
    ¬Drops (execute config before) choice

theorem execute_tight (choices : List Choice) (invariant : Invariant base config)
    (tight : Tight config) (ends : BuildsEnd config choices) :
    Tight (execute config choices) := by
  induction choices generalizing config with
  | nil => exact tight
  | cons choice rest ih =>
      have kept : ¬Drops config choice := ends [] choice rest rfl
      refine ih (step_invariant choice invariant)
        ((step_change kept).tight invariant.toSound tight) ?_
      rintro before later after rfl
      exact ends (choice :: before) later after rfl

theorem execute_lost {id : Nat} (choices : List Choice) (invariant : Invariant base config)
    (lost : Lost config id) : Lost (execute config choices) id := by
  induction choices generalizing config with
  | nil => exact lost
  | cons choice rest ih =>
      refine ih (step_invariant choice invariant) ?_
      by_cases drops : Drops config choice
      · exact lost.drop drops
      · exact (step_change drops).lost invariant.toSound lost

theorem execute_append (config : Config) (before after : List Choice) :
    execute config (before ++ after) = execute (execute config before) after :=
  List.foldl_append

end Runs

end DecoyEngine.Generation.Budget
