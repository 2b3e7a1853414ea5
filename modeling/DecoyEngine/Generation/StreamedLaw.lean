import DecoyEngine.Generation.StreamedBudget
import Mathlib.Tactic.Linarith

namespace DecoyEngine.Generation.Budget

/-! Every run that the preflight admits, over every way its steps can end. -/

/-- A ledger at the start of a run. -/
def Ledger.opened (ceiling : Option Nat) (charged peak : Int) : Ledger :=
  ⟨ceiling, charged, peak, [], []⟩

/-- What holds of a run after some steps. -/
structure RunLaw (base : Int) (ceiling : Option Nat) (start : Config) (choices : List Choice) :
    Prop where
  charged : (execute start choices).ledger.chargedBytes =
    base + Ledger.outstanding (execute start choices).ledger.reservations
  under : ∀ bytes, ceiling = some bytes → (execute start choices).ledger.chargedBytes ≤ bytes
  /-- No reservation is refused. -/
  admitted : ∀ code message,
    (execute start choices).raised ≠ some (.budgetExceeded code message)
  ends : start.remaining ≤ choices.length → (execute start choices).done
  /-- At the end everything is released, unless an exception came out of a pool build. -/
  released : (execute start choices).done →
    ((∀ reservation ∈ (execute start choices).ledger.reservations,
      reservation.released = true) ↔ BuildsEnd start choices)

section Law

variable {base : Int} {config start : Config} {choices : List Choice}

theorem step_ceiling (choice : Choice) (sound : Sound base config) :
    (step config choice).ledger.ceilingBytes = config.ledger.ceilingBytes := by
  by_cases drops : Drops config choice
  · obtain ⟨ledger, runStack, stageStack, building, todo, raised⟩ := config
    obtain ⟨some', rfl⟩ := drops
    cases building with
    | none => cases some'
    | some id => rfl
  · cases step_change drops with
    | same ledger holders => rw [ledger]
    | released id ledger free =>
        rw [ledger]
        exact (Ledger.release_freed (sound.held id (by rw [free]; simp))).ceiling
    | reserved stage nbytes id charged taken => exact charged.ceiling

theorem execute_ceiling (choices : List Choice) (invariant : Invariant base config) :
    (execute config choices).ledger.ceilingBytes = config.ledger.ceilingBytes := by
  induction choices generalizing config with
  | nil => rfl
  | cons choice rest ih =>
      exact (ih (step_invariant choice invariant)).trans (step_ceiling choice invariant.toSound)

theorem all_released_iff {ledger : Ledger} :
    (∀ reservation ∈ ledger.reservations, reservation.released = true) ↔
      ∀ id, ¬ledger.Held id := by
  constructor
  · rintro all id ⟨reservation, found, open'⟩
    rw [all reservation (List.mem_of_getElem? found)] at open'
    cases open'
  · intro none reservation member
    obtain ⟨id, found⟩ := List.getElem?_of_mem member
    rw [← Bool.not_eq_false]
    exact fun open' => none id ⟨reservation, found, open'⟩

theorem Config.done.holders (done : config.done) : config.holders = [] := by
  obtain ⟨building, -, stage, run⟩ := done
  rw [Config.holders, building, stage, run]
  rfl

theorem released_iff (invariant : Invariant base start) (tight : Tight start)
    (done : (execute start choices).done) :
    (∀ reservation ∈ (execute start choices).ledger.reservations,
      reservation.released = true) ↔ BuildsEnd start choices := by
  rw [all_released_iff]
  constructor
  · rintro none before choice after rfl drops
    obtain ⟨id, lost⟩ := drops_lost (execute_invariant before invariant).toSound drops
    have later := execute_lost after
      (step_invariant choice (execute_invariant before invariant)) lost
    rw [execute_append] at none
    exact none id later.1
  · intro ends id held
    have known := execute_tight choices invariant tight ends id held
    rw [done.holders] at known
    cases known

theorem Invariant.law {ceiling : Option Nat} (invariant : Invariant base start)
    (tight : Tight start) (bytes : start.ledger.ceilingBytes = ceiling) (choices : List Choice) :
    RunLaw base ceiling start choices where
  charged := (execute_invariant choices invariant).charged
  under := fun most bounded => (execute_invariant choices invariant).under most
    ((execute_ceiling choices invariant).trans (bytes.trans bounded))
  admitted := by
    intro code message refused
    rcases (execute_invariant choices invariant).stopped with calm | stopped
    · rw [calm] at refused
      cases refused
    · rw [stopped.1] at refused
      cases refused
  ends := by
    intro enough
    have left := execute_remaining choices start
    exact remaining_eq_zero.mp (by omega)
  released := released_iff invariant tight

end Law

theorem fits_room {band : FitBand} {ledger : Ledger} {need ceiling : Nat}
    (fitting : fits band ledger need = true) (bounded : ledger.ceilingBytes = some ceiling) :
    ledger.chargedBytes + need ≤ ceiling := by
  rw [fits, Ledger.remainingBytes, bounded] at fitting
  have fitting := of_decide_eq_true fitting
  have under := lt_of_le_of_lt (band.le_widen need) fitting
  have whole : (need : Int) < (ceiling : Int) - ledger.chargedBytes := by exact_mod_cast under
  omega

theorem admitPlan_law {bounds : Bounds} {instanceDefault : Option Locale} {band : FitBand}
    {ceiling : Option Nat} {charged peakBytes : Int} {boundedSink streamIt : Bool}
    {planned : List Planned} {start : Config}
    (admitted : admitPlan bounds instanceDefault band (.opened ceiling charged peakBytes)
      boundedSink planned = .ok (streamIt, start))
    (choices : List Choice) : RunLaw charged ceiling start choices := by
  unfold admitPlan at admitted
  extract_lets layoutBytes plan streams at admitted
  split at admitted
  · cases admitted
  · rename_i unfit
    have same := (Prod.mk.inj (Except.ok.inj admitted)).2
    rw [← same]
    have most := peak_commands bounds instanceDefault planned layoutBytes streams
    have room : ∀ bytes, ceiling = some bytes → charged +
        peak (commands bounds instanceDefault planned layoutBytes streams) 0 0 ≤ bytes := by
      intro bytes bounded
      have fitting : ∃ need : Nat, charged + need ≤ bytes ∧
          peak (commands bounds instanceDefault planned layoutBytes streams) 0 0 ≤ need := by
        cases mode : streams with
        | true =>
            rw [mode] at most
            exact ⟨_, fits_room (Bool.and_eq_true_iff.mp mode).2 bounded, most⟩
        | false =>
            rw [mode] at most
            rw [mode, Bool.not_false, Bool.true_and, Bool.not_eq_true, Bool.not_eq_false'] at unfit
            exact ⟨_, fits_room unfit bounded, most⟩
      obtain ⟨need, under, small⟩ := fitting
      omega
    have fitting : Fitting charged ⟨.opened ceiling charged peakBytes, [], [], none,
        commands bounds instanceDefault planned layoutBytes streams, none⟩ := ⟨rfl, room⟩
    have sum : charged = charged + Ledger.outstanding [] := (Int.add_zero charged).symm
    refine Invariant.law ⟨⟨sum, ?_, ?_⟩, fun _ => fitting, fitting.under sum, .inl rfl⟩ ?_ rfl
      choices
    · exact List.nodup_nil
    · rintro id among
      cases among
    · rintro id ⟨reservation, found, -⟩
      cases found

/-- Every run of an admitted plan, whatever its steps do: the ledger never passes its ceiling, a
reservation that the preflight allowed is never refused, and what is held is given back, unless a
pool build has raised. -/
theorem admitted_run (bounds : Bounds) (instanceDefault : Option Locale) (band : FitBand)
    (ceiling : Option Nat) (charged peakBytes : Int) (boundedSink : Bool) (batchRows : Nat)
    (partition : Option (String → Nat → List Int)) (tables : List Table) (streamIt : Bool)
    (start : Config)
    (admitted : runGeneration bounds instanceDefault band (.opened ceiling charged peakBytes)
      boundedSink batchRows partition tables = .ok (streamIt, start))
    (choices : List Choice) : RunLaw charged ceiling start choices := by
  unfold runGeneration at admitted
  extract_lets missing at admitted
  split at admitted
  · cases admitted
  · cases layouts : makeLayouts batchRows partition tables with
    | error failure =>
        rw [layouts] at admitted
        cases admitted
    | ok planned =>
        rw [layouts] at admitted
        exact admitPlan_law admitted choices

/-- The band, on exact numbers. -/
def exactBand : FitBand where
  widen := fun need => need * 13 / 10
  le_widen := fun need => by
    have nonnegative : (0 : ℚ) ≤ need := Nat.cast_nonneg need
    linarith

/-- 50,000 cities. -/
def cities : Table :=
  ⟨"people", 50000, [⟨"city", "faker", some "city", none, false, "", ""⟩]⟩

/-- The run of `cities` under a ceiling of ten gigabytes. -/
def citiesRun : Config :=
  ⟨.opened (some 10000000000) 0 0, [], [], none,
    [.holdStage "batch_buffers:people" 47750000, .holdRun "accumulator:people" 13400000,
      .build "faker_pool_build:people.city" 4776920, .consume, .closeStage], none⟩

theorem cities_planned :
    admitPlan (fun _ => some 256) none exactBand (.opened (some 10000000000) 0 0) false
      [⟨cities, ⟨50000, 0⟩⟩] = .ok (false, citiesRun) := by
  have listed : commands (fun _ => some 256) none [⟨cities, ⟨50000, 0⟩⟩] 0 false =
      citiesRun.todo := by decide +kernel
  have fitting : fits exactBand (.opened (some 10000000000) 0 0)
      (preflight (fun _ => some 256) none [⟨cities, ⟨50000, 0⟩⟩] 0).residentPeak = true := by
    decide +kernel
  simp only [admitPlan, List.map_cons, List.map_nil, List.sum_cons, List.sum_nil, Nat.add_zero,
    Bool.false_and, Bool.not_false, Bool.true_and, fitting, Bool.not_true, listed, citiesRun]
  rfl

theorem cities_admitted :
    runGeneration (fun _ => some 256) none exactBand (.opened (some 10000000000) 0 0) false 65536
      none [cities] = .ok (false, citiesRun) :=
  cities_planned

theorem cities_law : RunLaw 0 (some 10000000000) citiesRun [.proceed, .proceed, .proceed] :=
  admitted_run (fun _ => some 256) none exactBand (some 10000000000) 0 0 false 65536 none [cities]
    false citiesRun cities_admitted [.proceed, .proceed, .proceed]

/-- The build raises: the run ends with the charge of the pool still held. -/
theorem pool_charge_kept :
    (runGeneration (fun _ => some 256) none exactBand (.opened (some 10000000000) 0 0) false 65536
        none [cities] = .ok (false, citiesRun)) ∧
      (execute citiesRun [.proceed, .proceed, .proceed, .raise, .proceed, .proceed]).done ∧
      (execute citiesRun
        [.proceed, .proceed, .proceed, .raise, .proceed, .proceed]).ledger.chargedBytes =
          4776920 ∧
      ⟨"faker_pool_build:people.city", 4776920, false⟩ ∈ (execute citiesRun
        [.proceed, .proceed, .proceed, .raise, .proceed, .proceed]).ledger.reservations :=
  ⟨cities_planned, ⟨rfl, rfl, rfl, rfl⟩, rfl, .tail _ (.tail _ (.head _))⟩

end DecoyEngine.Generation.Budget
