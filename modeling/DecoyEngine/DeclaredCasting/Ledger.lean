import DecoyEngine.Data.Dict
import Mathlib.Data.List.Sort
import Mathlib.Data.Prod.Lex
import Mathlib.Data.String.Basic

namespace DecoyEngine.DeclaredCasting

open DecoyEngine.Data

/-! The issue ledger of declared casting (`declared_casting/_counts.py`).

Reasons are the registry's and stay abstract (`ρ`); so does `approve_ref`, which drops
a column reference that is not safe to publish. -/

inductive Stage where
  | parse | format
deriving Repr, DecidableEq

/-- A column's error policy, and the disposition of each of its issues. -/
inductive Disposition where
  | fail | null | quarantine
deriving Repr, DecidableEq

/-- The keys of a column's counters: `sentinel_to_null`, `parse_null`, `output_fail`, … -/
inductive CountKind where
  | sentinelToNull
  | issue (stage : Stage) (disposition : Disposition)
deriving Repr, DecidableEq

def CountKind.name : CountKind → String
  | .sentinelToNull => "sentinel_to_null"
  | .issue .parse .fail => "parse_fail"
  | .issue .parse .null => "parse_null"
  | .issue .parse .quarantine => "parse_quarantine"
  | .issue .format .fail => "output_fail"
  | .issue .format .null => "output_null"
  | .issue .format .quarantine => "output_quarantine"

def CountKind.all : List CountKind :=
  [.issue .format .fail, .issue .format .null, .issue .format .quarantine, .issue .parse .fail,
   .issue .parse .null, .issue .parse .quarantine, .sentinelToNull]

inductive Phase where
  | mask | finalize
deriving Repr, DecidableEq

structure CastIssue (ρ : Type u) where
  table : String
  column : String
  row : Nat
  stage : Stage
  reason : ρ
  disposition : Disposition
deriving Repr, DecidableEq

structure ReasonRecord (ρ : Type u) where
  reason : ρ
  phase : Phase
  objectRef : Option String
deriving Repr, DecidableEq

abbrev IssueKey := String × String × Nat × Stage

def trackLimit : Nat := 1000000

abbrev Counters := CountKind → Nat

structure CastIssueLedger (ρ : Type u) where
  counts : Dict (String × String) Counters
  rows : Dict (String × Nat) (List (ReasonRecord ρ))
  seen : List IssueKey
  truncated : Bool

/-- Evidence of a run, value-free. -/
structure CastCounts where
  complete : Bool
  totalSubstitutions : Nat
  totalFailures : Nat
  quarantinedRows : Nat
  byColumn : List ((String × String) × List (CountKind × Nat))
deriving Repr, DecidableEq

/-- Why the protected store refused a row: its session could not be opened, the row is past the
policy's budget, or it could not be encoded or written. -/
inductive StoreFailure where
  | opening | budget | io
deriving Repr, DecidableEq

/-- What a casting call raises: the value error of a `fail` column with its partial counts, the
contract error of a formatter that is not the inverse of its parser, the error of the protected
store, or the ledger's own invariant check. -/
inductive CastRaise (ρ : Type u) where
  | valueError (reason : ρ) (counts : CastCounts)
  | contractInvalid
  | quarantineError (failure : StoreFailure)
  | countedTwice
deriving Repr, DecidableEq

def CastRaise.isValueError {ρ : Type u} : CastRaise ρ → Bool
  | .valueError _ _ => true
  | _ => false

namespace CastIssueLedger

variable {ρ : Type u}

def empty : CastIssueLedger ρ := ⟨Dict.empty, Dict.empty, [], false⟩

def cell (ledger : CastIssueLedger ρ) (key : String × String) : Counters :=
  (ledger.counts.find key).getD (fun _ => 0)

/-- `self._counts[key][kind] += n` on a dictionary that defaults to zero. -/
def increment (ledger : CastIssueLedger ρ) (key : String × String) (kind : CountKind) (n : Nat) :
    CastIssueLedger ρ :=
  { ledger with
    counts := ledger.counts.set key
      (fun other => if other = kind then ledger.cell key other + n else ledger.cell key other) }

def addSentinel (ledger : CastIssueLedger ρ) (table column : String) : CastIssueLedger ρ :=
  ledger.increment (table, column) .sentinelToNull 1

def rowReasons (ledger : CastIssueLedger ρ) (table : String) (row : Nat) : List (ReasonRecord ρ) :=
  (ledger.rows.find (table, row)).getD []

def isQuarantined (ledger : CastIssueLedger ρ) (table : String) (row : Nat) : Bool :=
  (ledger.rows.find (table, row)).isSome

variable (approveRef : String → Option String)

def issueRecord (issue : CastIssue ρ) : ReasonRecord ρ where
  reason := issue.reason
  phase := match issue.stage with
    | .parse => .mask
    | .format => .finalize
  objectRef := approveRef (issue.table ++ "." ++ issue.column)

/-- The part of `add` after its duplicate check. -/
def enter (ledger : CastIssueLedger ρ) (issue : CastIssue ρ) : CastIssueLedger ρ :=
  let counted :=
    ledger.increment (issue.table, issue.column) (.issue issue.stage issue.disposition) 1
  if issue.disposition = .quarantine then
    { counted with
      rows := counted.rows.set (issue.table, issue.row)
        (counted.rowReasons issue.table issue.row ++ [issueRecord approveRef issue]) }
  else counted

def add (ledger : CastIssueLedger ρ) (issue : CastIssue ρ) :
    Except (CastRaise ρ) (CastIssueLedger ρ) :=
  let key : IssueKey := (issue.table, issue.column, issue.row, issue.stage)
  if ledger.seen.length < trackLimit then
    if key ∈ ledger.seen then .error .countedTwice
    else .ok ({ ledger with seen := key :: ledger.seen }.enter approveRef issue)
  else .ok ({ ledger with truncated := true }.enter approveRef issue)

def substitutions (cell : Counters) : Nat :=
  cell .sentinelToNull + cell (.issue .parse .null) + cell (.issue .format .null)

def failures (cell : Counters) : Nat :=
  cell (.issue .parse .fail) + cell (.issue .parse .null) + cell (.issue .parse .quarantine) +
    cell (.issue .format .fail) + cell (.issue .format .null) + cell (.issue .format .quarantine)

variable (approveName : String → Option String)

/-- Counters under approved names; an unsafe name is dropped here, never from the totals. -/
def publicCells (entries : List ((String × String) × Counters)) :
    List ((String × String) × List (CountKind × Nat)) :=
  entries.filterMap (fun entry => do
    let table ← approveName entry.1.1
    let column ← approveName entry.1.2
    some ((table, column),
      (CountKind.all.map (fun kind => (kind, entry.2 kind))).filter (fun count => count.2 ≠ 0)))

def sortedCounts (ledger : CastIssueLedger ρ) : List ((String × String) × Counters) :=
  ledger.counts.entries.insertionSort (fun left right => toLex left.1 ≤ toLex right.1)

def evidence (ledger : CastIssueLedger ρ) (complete : Bool) : CastCounts where
  complete := complete
  totalSubstitutions := (ledger.sortedCounts.map (fun entry => substitutions entry.2)).sum
  totalFailures := (ledger.sortedCounts.map (fun entry => failures entry.2)).sum
  quarantinedRows := ledger.rows.entries.length
  byColumn := publicCells approveName ledger.sortedCounts

/-- `_disposition`: the issue is recorded first, so that the error of a `fail` column
carries it in its partial counts. -/
def dispose (ledger : CastIssueLedger ρ) (issue : CastIssue ρ) :
    Except (CastRaise ρ) (CastIssueLedger ρ) := do
  let ledger ← ledger.add approveRef issue
  if issue.disposition = .fail then
    .error (.valueError issue.reason (ledger.evidence approveName false))
  else .ok ledger

end CastIssueLedger

end DecoyEngine.DeclaredCasting
