import DecoyEngine.DeclaredCasting.Ledger
import Mathlib.Data.List.Perm.Basic

namespace DecoyEngine.DeclaredCasting

open DecoyEngine.Data

/-! Everything that reaches the ledger is an event at a cell.  A ledger is described by the
list of the events it has recorded: its counters count them, and a row's reasons are
the quarantined ones among that row's events, in order.  A defect of a formatter is an event
too, but one that raises before anything is counted. -/

inductive CastEvent (ρ : Type u) where
  | sentinel (table column : String) (row : Nat)
  | issue (issue : CastIssue ρ)
  | defect (table column : String) (row : Nat)
deriving DecidableEq

namespace CastEvent

variable {ρ : Type u}

def table : CastEvent ρ → String
  | .sentinel table _ _ => table
  | .issue entry => entry.table
  | .defect table _ _ => table

def column : CastEvent ρ → String
  | .sentinel _ column _ => column
  | .issue entry => entry.column
  | .defect _ column _ => column

def row : CastEvent ρ → Nat
  | .sentinel _ _ row => row
  | .issue entry => entry.row
  | .defect _ _ row => row

def kind : CastEvent ρ → Option CountKind
  | .sentinel _ _ _ => some .sentinelToNull
  | .issue entry => some (.issue entry.stage entry.disposition)
  | .defect _ _ _ => none

def issueKey : CastEvent ρ → Option IssueKey
  | .issue entry => some (entry.table, entry.column, entry.row, entry.stage)
  | _ => none

/-- What the event raises, if it does: the counts are those of the moment. -/
def raises : CastEvent ρ → Option (CastCounts → CastRaise ρ)
  | .sentinel _ _ _ => none
  | .issue entry => if entry.disposition = .fail then some (.valueError entry.reason) else none
  | .defect _ _ _ => some fun _ => .contractInvalid

def isFail (event : CastEvent ρ) : Bool := event.raises.isSome

variable (approveRef : String → Option String)

def quarantineRecord : CastEvent ρ → Option (ReasonRecord ρ)
  | .issue entry =>
      if entry.disposition = .quarantine then some (CastIssueLedger.issueRecord approveRef entry)
      else none
  | _ => none

def place (event : CastEvent ρ) : String × Nat := (event.table, event.row)

/-- The event concerns the given row of the given table. -/
def isAt (table : String) (row : Nat) (event : CastEvent ρ) : Bool :=
  event.place = (table, row)

theorem place_of_issueKey {event : CastEvent ρ} {table column : String} {row : Nat} {stage : Stage}
    (keyed : event.issueKey = some (table, column, row, stage)) : event.place = (table, row) := by
  cases event with
  | issue entry =>
      cases Option.some.inj keyed
      rfl
  | _ => cases keyed

/-- The event counts under the given column and kind. -/
def counts (key : String × String) (kind : CountKind) (event : CastEvent ρ) : Bool :=
  (event.table, event.column) = key ∧ event.kind = some kind

end CastEvent

section Record

variable {ρ : Type u} (approveRef approveName : String → Option String)

/-- One cell's outcome reaching the ledger: `add_sentinel` or `_disposition`. -/
def recordEvent (ledger : CastIssueLedger ρ) :
    CastEvent ρ → Except (CastRaise ρ) (CastIssueLedger ρ)
  | .sentinel table column _ => .ok (ledger.addSentinel table column)
  | .issue entry => ledger.dispose approveRef approveName entry
  | .defect _ _ _ => .error .contractInvalid

def recordEvents (ledger : CastIssueLedger ρ) (events : List (CastEvent ρ)) :
    Except (CastRaise ρ) (CastIssueLedger ρ) :=
  events.foldlM (recordEvent approveRef approveName) ledger

/-- The reasons of a row among a list of events. -/
def rowRecords (events : List (CastEvent ρ)) (table : String) (row : Nat) : List (ReasonRecord ρ) :=
  (events.filter (CastEvent.isAt table row)).filterMap (CastEvent.quarantineRecord approveRef)

/-- The ledger is what recording `history` on an empty one leaves. -/
structure CastIssueLedger.Records (ledger : CastIssueLedger ρ) (history : List (CastEvent ρ)) :
    Prop where
  seen : ∀ key ∈ ledger.seen, key ∈ history.filterMap CastEvent.issueKey
  counts : ∀ key, ledger.counts.find key =
    if history.any (fun event => (event.table, event.column) = key) then
      some (fun kind => history.countP (CastEvent.counts key kind))
    else none
  rows : ∀ table row, ledger.rows.find (table, row) =
    if rowRecords approveRef history table row = [] then none
    else some (rowRecords approveRef history table row)

variable {approveRef approveName}

theorem CastIssueLedger.records_empty : (empty : CastIssueLedger ρ).Records approveRef [] where
  seen := by simp [empty]
  counts := by simp [empty]
  rows := by simp [empty, rowRecords]

variable {ledger : CastIssueLedger ρ} {history : List (CastEvent ρ)}

theorem CastIssueLedger.Records.cell (records : ledger.Records approveRef history)
    (key : String × String) (kind : CountKind) :
    ledger.cell key kind = history.countP (CastEvent.counts key kind) := by
  rw [CastIssueLedger.cell, records.counts]
  split
  · rfl
  · rename_i absent
    rw [Option.getD_none, eq_comm, List.countP_eq_zero]
    intro event member counted
    simp only [CastEvent.counts, decide_eq_true_eq] at counted
    exact absent (List.any_eq_true.mpr ⟨event, member, by simpa using counted.1⟩)

theorem CastIssueLedger.Records.rowReasons (records : ledger.Records approveRef history)
    (table : String) (row : Nat) :
    ledger.rowReasons table row = rowRecords approveRef history table row := by
  rw [CastIssueLedger.rowReasons, records.rows]
  split
  · rename_i none
    rw [none]
    rfl
  · rfl

theorem CastIssueLedger.Records.isQuarantined (records : ledger.Records approveRef history)
    (table : String) (row : Nat) :
    ledger.isQuarantined table row = true ↔ rowRecords approveRef history table row ≠ [] := by
  rw [CastIssueLedger.isQuarantined, records.rows]
  split
  · rename_i none
    simp [none]
  · rename_i some
    simpa using some

theorem CastIssueLedger.increment_counts (records : ledger.Records approveRef history)
    {event : CastEvent ρ} {kind : CountKind} (counted : event.kind = some kind)
    (key : String × String) :
    (ledger.increment (event.table, event.column) kind 1).counts.find key =
      if (history ++ [event]).any (fun event => (event.table, event.column) = key) then
        some (fun kind => (history ++ [event]).countP (CastEvent.counts key kind))
      else none := by
  rw [CastIssueLedger.increment, Dict.find_set]
  by_cases here : key = (event.table, event.column)
  · subst here
    have present : (history ++ [event]).any
        (fun other => decide ((other.table, other.column) = (event.table, event.column))) = true := by
      simp
    rw [if_pos rfl, if_pos present]
    congr 1
    funext other
    rw [records.cell, List.countP_append]
    by_cases same : other = kind
    · simp [same, CastEvent.counts, counted]
    · have apart : ¬ kind = other := fun equal => same equal.symm
      simp [same, CastEvent.counts, counted, apart]
  · have elsewhere : ¬ (event.table, event.column) = key := fun equal => here equal.symm
    rw [if_neg here, records.counts, List.any_append]
    have unchanged : ∀ kind, (history ++ [event]).countP (CastEvent.counts key kind) =
        history.countP (CastEvent.counts key kind) := by
      intro kind
      simp [CastEvent.counts, elsewhere]
    simp only [List.any_cons, List.any_nil, elsewhere, decide_false, Bool.or_false, unchanged]

theorem rowRecords_append (before after : List (CastEvent ρ)) (table : String) (row : Nat) :
    rowRecords approveRef (before ++ after) table row =
      rowRecords approveRef before table row ++ rowRecords approveRef after table row := by
  rw [rowRecords, List.filter_append, List.filterMap_append]
  rfl

theorem rowRecords_single (event : CastEvent ρ) (table : String) (row : Nat) :
    rowRecords approveRef [event] table row =
      if event.isAt table row then (event.quarantineRecord approveRef).toList else [] := by
  rw [rowRecords]
  by_cases here : event.isAt table row = true
  · rw [List.filter_cons_of_pos here, List.filter_nil, if_pos here, List.filterMap_cons]
    cases event.quarantineRecord approveRef <;> rfl
  · rw [List.filter_cons_of_neg here, List.filter_nil, if_neg here, List.filterMap_nil]

theorem rowRecords_single_of_none {event : CastEvent ρ}
    (kept : event.quarantineRecord approveRef = none) (table : String) (row : Nat) :
    rowRecords approveRef [event] table row = [] := by
  rw [rowRecords_single, kept]
  split <;> rfl

theorem CastIssueLedger.Records.addSentinel (records : ledger.Records approveRef history)
    (table column : String) (row : Nat) :
    (ledger.addSentinel table column).Records approveRef
      (history ++ [.sentinel table column row]) where
  seen := by
    intro key member
    rw [List.filterMap_append]
    exact List.mem_append_left _ (records.seen key member)
  counts := @increment_counts _ _ _ _ records (.sentinel table column row) _ rfl
  rows := by
    intro otherTable otherRow
    have unchanged : rowRecords approveRef (history ++ [.sentinel table column row]) otherTable
        otherRow = rowRecords approveRef history otherTable otherRow := by
      rw [rowRecords_append, rowRecords_single_of_none rfl, List.append_nil]
    rw [unchanged]
    exact records.rows otherTable otherRow

theorem CastIssueLedger.Records.enter (records : ledger.Records approveRef history)
    (entry : CastIssue ρ) {seen : List IssueKey} {truncated : Bool} (tracked : ∀ key ∈ seen,
      key ∈ (history ++ [CastEvent.issue entry]).filterMap CastEvent.issueKey) :
    ({ ledger with seen := seen, truncated := truncated }.enter approveRef entry).Records
      approveRef (history ++ [CastEvent.issue entry]) := by
  have counted := @increment_counts _ _ _ _ records (CastEvent.issue entry) _ rfl
  have split : ∀ table row, rowRecords approveRef (history ++ [CastEvent.issue entry]) table row =
      rowRecords approveRef history table row ++
        rowRecords approveRef [CastEvent.issue entry] table row :=
    rowRecords_append history [CastEvent.issue entry]
  rw [CastIssueLedger.enter]
  by_cases quarantine : entry.disposition = .quarantine
  · rw [if_pos quarantine]
    refine ⟨tracked, counted, fun table row => ?_⟩
    have record : (CastEvent.issue entry).quarantineRecord approveRef =
        some (issueRecord approveRef entry) := if_pos quarantine
    have known : ledger.rowReasons entry.table entry.row =
        rowRecords approveRef history entry.table entry.row :=
      records.rowReasons entry.table entry.row
    simp only [increment, Dict.find_set]
    rw [split, rowRecords_single, record]
    by_cases here : (table, row) = (entry.table, entry.row)
    · obtain ⟨rfl, rfl⟩ := Prod.mk.inj here
      have isHere : (CastEvent.issue entry).isAt entry.table entry.row = true := by
        simp [CastEvent.isAt, CastEvent.place, CastEvent.table, CastEvent.row]
      rw [if_pos rfl, if_pos isHere, ← known, if_neg (by simp)]
      rfl
    · have elsewhere : ¬ (CastEvent.issue entry).isAt table row = true := by
        intro isHere
        exact here (of_decide_eq_true isHere).symm
      rw [if_neg here, if_neg elsewhere, List.append_nil]
      exact records.rows table row
  · rw [if_neg quarantine]
    refine ⟨tracked, counted, fun table row => ?_⟩
    have none : (CastEvent.issue entry).quarantineRecord approveRef = none := if_neg quarantine
    rw [split, rowRecords_single_of_none none, List.append_nil]
    exact records.rows table row

theorem CastIssueLedger.Records.add (records : ledger.Records approveRef history)
    {entry : CastIssue ρ} (fresh : (entry.table, entry.column, entry.row, entry.stage) ∉
      history.filterMap CastEvent.issueKey) :
    ∃ next, ledger.add approveRef entry = .ok next ∧
      next.Records approveRef (history ++ [.issue entry]) := by
  have kept : ∀ key ∈ ledger.seen,
      key ∈ (history ++ [CastEvent.issue entry]).filterMap CastEvent.issueKey := by
    intro key member
    rw [List.filterMap_append]
    exact List.mem_append_left _ (records.seen key member)
  rw [CastIssueLedger.add]
  by_cases tracking : ledger.seen.length < trackLimit
  · have unseen : (entry.table, entry.column, entry.row, entry.stage) ∉ ledger.seen :=
      fun member => fresh (records.seen _ member)
    simp only [tracking, if_true, unseen, if_false]
    refine ⟨_, rfl, records.enter entry fun key member => ?_⟩
    rcases List.mem_cons.mp member with same | earlier
    · rw [same, List.filterMap_append]
      exact List.mem_append_right _ (by simp [CastEvent.issueKey])
    · exact kept key earlier
  · simp only [tracking, if_false]
    exact ⟨_, rfl, records.enter entry kept⟩

variable (approveName)

theorem recordEvent_records (records : ledger.Records approveRef history) {event : CastEvent ρ}
    (fresh : ∀ key, event.issueKey = some key → key ∉ history.filterMap CastEvent.issueKey) :
    (∀ raise, event.raises = some raise →
      ∃ counts, recordEvent approveRef approveName ledger event = .error (raise counts)) ∧
    (event.raises = none → ∃ next, recordEvent approveRef approveName ledger event = .ok next ∧
        next.Records approveRef (history ++ [event])) := by
  cases event with
  | sentinel table column row => exact ⟨nofun, fun _ => ⟨_, rfl, records.addSentinel table column row⟩⟩
  | defect table column row =>
      refine ⟨fun raise isRaise => ?_, nofun⟩
      cases isRaise
      exact ⟨ledger.evidence approveName false, rfl⟩
  | issue entry =>
      obtain ⟨next, added, described⟩ := records.add (fresh _ rfl)
      have disposed : recordEvent approveRef approveName ledger (.issue entry) =
          if entry.disposition = .fail then
            .error (.valueError entry.reason (next.evidence approveName false))
          else .ok next := by
        simp only [recordEvent, CastIssueLedger.dispose, added]
        rfl
      rw [disposed, CastEvent.raises]
      by_cases failing : entry.disposition = .fail
      · rw [if_pos failing, if_pos failing]
        refine ⟨fun raise isRaise => ?_, nofun⟩
        cases isRaise
        exact ⟨next.evidence approveName false, rfl⟩
      · rw [if_neg failing, if_neg failing]
        exact ⟨nofun, fun _ => ⟨next, rfl, described⟩⟩

/-- The same for a list of events: the first that raises does, otherwise all of them are
recorded. -/
theorem recordEvents_records (records : ledger.Records approveRef history)
    {events : List (CastEvent ρ)} (distinct : (events.filterMap CastEvent.issueKey).Nodup)
    (fresh : ∀ key ∈ events.filterMap CastEvent.issueKey,
      key ∉ history.filterMap CastEvent.issueKey) :
    (events.any CastEvent.isFail = true → ∃ event ∈ events, ∃ raise counts,
      event.raises = some raise ∧
        recordEvents approveRef approveName ledger events = .error (raise counts)) ∧
    (events.any CastEvent.isFail = false →
      ∃ next, recordEvents approveRef approveName ledger events = .ok next ∧
        next.Records approveRef (history ++ events)) := by
  induction events generalizing ledger history with
  | nil => exact ⟨by simp, fun _ => ⟨ledger, rfl, by rwa [List.append_nil]⟩⟩
  | cons event events ih =>
      have freshHere : ∀ key, event.issueKey = some key →
          key ∉ history.filterMap CastEvent.issueKey :=
        fun key found => fresh key (by simp [found])
      obtain ⟨raises, passes⟩ := recordEvent_records approveName records freshHere
      have step : recordEvents approveRef approveName ledger (event :: events) =
          (recordEvent approveRef approveName ledger event >>= fun next =>
            recordEvents approveRef approveName next events) := by
        rw [recordEvents, List.foldlM_cons]
        rfl
      rw [step, List.any_cons, CastEvent.isFail]
      cases failing : event.raises with
      | some raise =>
          obtain ⟨counts, raised⟩ := raises raise failing
          rw [raised]
          exact ⟨fun _ => ⟨event, List.mem_cons_self, raise, counts, failing, rfl⟩, by simp⟩
      | none =>
          obtain ⟨next, recorded, described⟩ := passes failing
          have keys : (event :: events).filterMap CastEvent.issueKey =
              event.issueKey.toList ++ events.filterMap CastEvent.issueKey := by
            rw [List.filterMap_cons]
            cases event.issueKey <;> rfl
          rw [keys] at distinct fresh
          rw [List.nodup_append] at distinct
          have freshLater : ∀ key ∈ events.filterMap CastEvent.issueKey,
              key ∉ (history ++ [event]).filterMap CastEvent.issueKey := by
            intro key later earlier
            rw [List.filterMap_append, List.mem_append] at earlier
            rcases earlier with before | here
            · exact fresh key (List.mem_append_right _ later) before
            · refine distinct.2.2 key ?_ key later rfl
              simpa using here
          rw [recorded, Option.isSome_none, Bool.false_or]
          have extended : history ++ event :: events = history ++ [event] ++ events := by simp
          rw [extended]
          obtain ⟨raisesLater, passesLater⟩ := ih described distinct.2.1 freshLater
          refine ⟨fun failing => ?_, passesLater⟩
          obtain ⟨other, member, raise, counts, isRaise, raised⟩ := raisesLater failing
          exact ⟨other, List.mem_cons_of_mem _ member, raise, counts, isRaise, raised⟩

end Record

end DecoyEngine.DeclaredCasting
