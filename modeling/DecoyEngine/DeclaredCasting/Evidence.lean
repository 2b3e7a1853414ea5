import DecoyEngine.Data.Grid
import DecoyEngine.DeclaredCasting.History

namespace DecoyEngine.DeclaredCasting

open DecoyEngine.Data

/-! Two ledgers whose histories agree row by row publish the same evidence, whatever the order
in which the rows were visited; and the totals of the evidence count the events. -/

section Agreement

variable {ρ : Type u} {approveRef : String → Option String} {left right : CastIssueLedger ρ}

/-- The order of the sorted counters: by table, then by column. -/
def entryLE (left right : (String × String) × Counters) : Prop := toLex left.1 ≤ toLex right.1

instance : DecidableRel entryLE := fun left right =>
  inferInstanceAs (Decidable (toLex left.1 ≤ toLex right.1))

instance : Std.Total entryLE := ⟨fun left right => le_total (toLex left.1) (toLex right.1)⟩

instance : IsTrans ((String × String) × Counters) entryLE :=
  ⟨fun _ _ _ => le_trans⟩

theorem sortedCounts_sorted (ledger : CastIssueLedger ρ) :
    ledger.sortedCounts.Pairwise entryLE :=
  List.pairwise_insertionSort entryLE ledger.counts.entries

theorem sortedCounts_perm (ledger : CastIssueLedger ρ) :
    ledger.sortedCounts.Perm ledger.counts.entries :=
  List.perm_insertionSort entryLE ledger.counts.entries

theorem sortedCounts_eq (agree : ∀ key, left.counts.find key = right.counts.find key) :
    left.sortedCounts = right.sortedCounts := by
  have entries : left.counts.entries.Perm right.counts.entries := Dict.perm_of_find_eq agree
  have same : left.sortedCounts.Perm right.sortedCounts :=
    (sortedCounts_perm left).trans (entries.trans (sortedCounts_perm right).symm)
  refine List.Perm.eq_of_pairwise ?_ (sortedCounts_sorted left) (sortedCounts_sorted right) same
  intro first second firstIn secondIn below above
  have sameKey : first.1 = second.1 := toLex.injective (le_antisymm below above)
  have firstFound : left.counts.find first.1 = some first.2 :=
    Dict.mem_entries.mp ((sortedCounts_perm left).mem_iff.mp firstIn)
  have secondFound : right.counts.find second.1 = some second.2 :=
    Dict.mem_entries.mp ((sortedCounts_perm right).mem_iff.mp secondIn)
  rw [← sameKey, ← agree, firstFound] at secondFound
  exact Prod.ext sameKey (Option.some.inj secondFound)

theorem evidence_eq_of_agree {before after : List (CastEvent ρ)}
    (leftRecords : left.Records approveRef before) (rightRecords : right.Records approveRef after)
    (agree : ∀ table row, before.filter (CastEvent.isAt table row) =
      after.filter (CastEvent.isAt table row))
    (approveName : String → Option String) (complete : Bool) :
    left.evidence approveName complete = right.evidence approveName complete := by
  have rearranged : before.Perm after :=
    perm_of_filter_eq CastEvent.place fun key => agree key.1 key.2
  have counters : ∀ key, left.counts.find key = right.counts.find key := by
    intro key
    rw [leftRecords.counts, rightRecords.counts, rearranged.any_eq]
    simp only [rearranged.countP_eq]
  have rows : ∀ key, left.rows.find key = right.rows.find key := by
    intro (table, row)
    have reasons : rowRecords approveRef before table row =
        rowRecords approveRef after table row := by
      rw [rowRecords, agree, rowRecords]
    rw [leftRecords.rows, rightRecords.rows, reasons]
  simp only [CastIssueLedger.evidence, sortedCounts_eq counters,
    (Dict.perm_of_find_eq rows).length_eq]

end Agreement

section Totals

variable {ρ : Type u} {approveRef : String → Option String} {ledger : CastIssueLedger ρ}
  {history : List (CastEvent ρ)}

def CastEvent.columnKey (event : CastEvent ρ) : String × String := (event.table, event.column)

def CastEvent.isIssue : CastEvent ρ → Bool
  | .issue _ => true
  | _ => false

/-- The events that put a null where there was a lexeme or a value. -/
def CastEvent.isSubstitution : CastEvent ρ → Bool
  | .sentinel _ _ _ => true
  | .issue entry => entry.disposition = .null
  | .defect _ _ _ => false

theorem failures_countP (key : String × String) (history : List (CastEvent ρ)) :
    CastIssueLedger.failures (fun kind => history.countP (CastEvent.counts key kind)) =
      history.countP (fun event => decide (event.columnKey = key) && event.isIssue) := by
  induction history with
  | nil => rfl
  | cons event history ih =>
      simp only [CastIssueLedger.failures, List.countP_cons] at ih ⊢
      rw [← ih]
      by_cases here : event.columnKey = key
      · cases event with
        | sentinel table column row =>
            simp [CastEvent.counts, CastEvent.kind, CastEvent.isIssue]
        | defect table column row =>
            simp [CastEvent.counts, CastEvent.kind, CastEvent.isIssue]
        | issue entry =>
            have matching : (entry.table, entry.column) = key := here
            cases stage : entry.stage <;> cases disposition : entry.disposition <;>
              simp [CastEvent.counts, CastEvent.kind, CastEvent.isIssue, CastEvent.table,
                CastEvent.column, CastEvent.columnKey, stage, disposition, matching] <;> omega
      · have apart : ¬ (event.table, event.column) = key := here
        simp [CastEvent.counts, CastEvent.columnKey, apart]

theorem substitutions_countP (key : String × String) (history : List (CastEvent ρ)) :
    CastIssueLedger.substitutions (fun kind => history.countP (CastEvent.counts key kind)) =
      history.countP (fun event => decide (event.columnKey = key) && event.isSubstitution) := by
  induction history with
  | nil => rfl
  | cons event history ih =>
      simp only [CastIssueLedger.substitutions, List.countP_cons] at ih ⊢
      rw [← ih]
      by_cases here : event.columnKey = key
      · cases event with
        | sentinel table column row =>
            have matching : (table, column) = key := here
            simp [CastEvent.counts, CastEvent.kind, CastEvent.isSubstitution, CastEvent.table,
              CastEvent.column, CastEvent.columnKey, matching]
            omega
        | defect table column row =>
            simp [CastEvent.counts, CastEvent.kind, CastEvent.isSubstitution]
        | issue entry =>
            have matching : (entry.table, entry.column) = key := here
            cases stage : entry.stage <;> cases disposition : entry.disposition <;>
              simp [CastEvent.counts, CastEvent.kind, CastEvent.isSubstitution, CastEvent.table,
                CastEvent.column, CastEvent.columnKey, stage, disposition, matching] <;> omega
      · have apart : ¬ (event.table, event.column) = key := here
        simp [CastEvent.counts, CastEvent.columnKey, apart]

/-- A total over the counters is a count over the history, once it is one per column. -/
theorem total_countP (records : ledger.Records approveRef history) {total : Counters → Nat}
    {test : CastEvent ρ → Bool}
    (perColumn : ∀ key, total (fun kind => history.countP (CastEvent.counts key kind)) =
      history.countP (fun event => decide (event.columnKey = key) && test event)) :
    (ledger.sortedCounts.map (fun entry => total entry.2)).sum = history.countP test := by
  have rearranged : (ledger.sortedCounts.map (fun entry => total entry.2)).sum =
      (ledger.counts.entries.map (fun entry => total entry.2)).sum :=
    ((sortedCounts_perm ledger).map _).sum_eq
  have cells : ledger.counts.entries.map (fun entry => total entry.2) =
      ledger.counts.keys.map (fun key =>
        history.countP (fun event => decide (event.columnKey = key) && test event)) := by
    rw [Dict.keys, List.map_map]
    refine List.map_congr_left fun entry member => ?_
    have found : ledger.counts.find entry.1 = some entry.2 := Dict.mem_entries.mp member
    rw [records.counts] at found
    split at found
    · rw [← Option.some.inj found, Function.comp_apply, perColumn]
    · contradiction
  have listed : ∀ event ∈ history, event.columnKey ∈ ledger.counts.keys := by
    intro event member
    by_contra absent
    have missing := Dict.find_eq_none.mpr absent
    have present : history.any
        (fun other => decide ((other.table, other.column) = event.columnKey)) = true :=
      List.any_eq_true.mpr ⟨event, member, decide_eq_true rfl⟩
    rw [records.counts, if_pos present] at missing
    contradiction
  rw [rearranged, cells]
  exact sum_countP_keys CastEvent.columnKey test ledger.counts.distinct listed

theorem totalFailures_eq (records : ledger.Records approveRef history)
    (approveName : String → Option String) (complete : Bool) :
    (ledger.evidence approveName complete).totalFailures = history.countP CastEvent.isIssue :=
  total_countP records fun key => failures_countP key history

theorem totalSubstitutions_eq (records : ledger.Records approveRef history)
    (approveName : String → Option String) (complete : Bool) :
    (ledger.evidence approveName complete).totalSubstitutions =
      history.countP CastEvent.isSubstitution :=
  total_countP records fun key => substitutions_countP key history

end Totals

end DecoyEngine.DeclaredCasting
