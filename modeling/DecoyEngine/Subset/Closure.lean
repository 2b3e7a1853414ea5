import DecoyEngine.Data.Checked
import DecoyEngine.Data.Dict
import Mathlib.Data.Fintype.Card
import Mathlib.Data.List.Lex
import Mathlib.Data.List.Sort
import Mathlib.Data.Prod.Lex
import Mathlib.Data.String.Basic

namespace DecoyEngine.Subset

open DecoyEngine.Data

/-! FK-aware subset closure (`subset/_closure.py`).

A key frame is the list of a table's rows; the row index column is the position.  A value is
`none` where the column is null. -/

inductive EdgeDirection where
  | both | downward | upward | none
deriving Repr, DecidableEq

def EdgeDirection.goesDown : EdgeDirection → Bool
  | .both | .downward => true
  | .upward | .none => false

def EdgeDirection.goesUp : EdgeDirection → Bool
  | .both | .upward => true
  | .downward | .none => false

structure SubsetEdge where
  edgeId : String
  parentTable : String
  parentColumns : List String
  childTable : String
  childColumns : List String
deriving Repr, DecidableEq

section

variable {ν : Type} [DecidableEq ν]

abbrev KeyRow (ν : Type) := String → Option ν

abbrev KeyFrames (ν : Type) := Dict String (List (KeyRow ν))

/-- A table's frame; a table outside the frames has no row. -/
def frameOf (keyFrames : KeyFrames ν) (table : String) : List (KeyRow ν) :=
  (keyFrames.find table).getD []

/-- An edge between two of the tables. -/
abbrev EdgeOf (keyFrames : KeyFrames ν) :=
  { edge : SubsetEdge // edge.parentTable ∈ keyFrames.keys ∧ edge.childTable ∈ keyFrames.keys }

/-- The key of a row, `none` when a component is null. -/
def keyOf (columns : List String) (row : KeyRow ν) : Option (List ν) := columns.mapM row

/-- The rows of each table that are kept. -/
abbrev Survivors := String → Finset Nat

/-- `frame.filter(pl.col(RI).is_in(rows)).select(columns).unique()`, without its null keys. -/
def keysOf (frame : List (KeyRow ν)) (columns : List String) (rows : Finset Nat) : List (List ν) :=
  ((frame.zipIdx.filter fun row => row.2 ∈ rows).filterMap fun row => keyOf columns row.1).dedup

/-- `frame.join(keys, how="semi")[RI]`: the rows with one of the keys; null keys never match. -/
def semiJoin (frame : List (KeyRow ν)) (columns : List String) (keys : List (List ν)) :
    Finset Nat :=
  ((frame.zipIdx.filter fun row =>
    match keyOf columns row.1 with
    | some key => key ∈ keys
    | none => false).map Prod.snd).toFinset

/-- The child rows of the surviving parent keys that are not kept yet. -/
def downwardStep (keyFrames : KeyFrames ν) (e : SubsetEdge) (survivors : Survivors) : Finset Nat :=
  if survivors e.parentTable = ∅ then ∅
  else
    let survKeys := keysOf (frameOf keyFrames e.parentTable) e.parentColumns
      (survivors e.parentTable)
    semiJoin (frameOf keyFrames e.childTable) e.childColumns survKeys \ survivors e.childTable

/-- The parent rows that surviving child keys need and that are not kept yet. -/
def upwardStep (keyFrames : KeyFrames ν) (e : SubsetEdge) (survivors : Survivors) : Finset Nat :=
  if survivors e.childTable = ∅ then ∅
  else
    let needed := keysOf (frameOf keyFrames e.childTable) e.childColumns (survivors e.childTable)
    semiJoin (frameOf keyFrames e.parentTable) e.parentColumns needed \ survivors e.parentTable

structure EdgeStats where
  edgeId : String
  direction : EdgeDirection
  rowsAddedDownward : Nat
  rowsAddedUpward : Nat
deriving Repr, DecidableEq

structure RoundTrace where
  roundIndex : Nat
  rowsAdded : Nat
  perTableAdded : List (String × Nat)
deriving Repr, DecidableEq

structure ClosureResult where
  survivors : Survivors
  rounds : Nat
  terminatedBy : String
  edgeStats : List EdgeStats
  trace : List RoundTrace

inductive ClosureError (ε : Type) where
  | nontermination
  -- what the budget gate raises
  | budget (error : ε)
deriving Repr, DecidableEq

structure LoopState where
  survivors : Survivors
  downAdded : Dict String Nat
  upAdded : Dict String Nat
  trace : List RoundTrace

/-- A round in progress, with what it has added to each table. -/
structure RoundState where
  survivors : Survivors
  downAdded : Dict String Nat
  upAdded : Dict String Nat
  addedPerTable : Dict String Nat

def keep (survivors : Survivors) (table : String) (rows : Finset Nat) : Survivors :=
  Function.update survivors table (survivors table ∪ rows)

variable (keyFrames : KeyFrames ν) (directions : String → EdgeDirection)

def applyDown (e : SubsetEdge) (state : RoundState) : RoundState :=
  let new := downwardStep keyFrames e state.survivors
  if new = ∅ then state
  else
    { state with
      survivors := keep state.survivors e.childTable new
      downAdded := state.downAdded.add e.edgeId new.card
      addedPerTable := state.addedPerTable.add e.childTable new.card }

def applyUp (e : SubsetEdge) (state : RoundState) : RoundState :=
  let new := upwardStep keyFrames e state.survivors
  if new = ∅ then state
  else
    { state with
      survivors := keep state.survivors e.parentTable new
      upAdded := state.upAdded.add e.edgeId new.card
      addedPerTable := state.addedPerTable.add e.parentTable new.card }

def applyEdge (state : RoundState) (e : EdgeOf keyFrames) : RoundState :=
  let direction := directions e.val.edgeId
  let state := if direction.goesDown then applyDown keyFrames e.val state else state
  if direction.goesUp then applyUp keyFrames e.val state else state

def stats (edges : List (EdgeOf keyFrames)) (downAdded upAdded : Dict String Nat) :
    List EdgeStats :=
  edges.map fun e => ⟨e.val.edgeId, directions e.val.edgeId,
    (downAdded.find e.val.edgeId).getD 0, (upAdded.find e.val.edgeId).getD 0⟩

abbrev BudgetCheck (ε : Type) := Survivors → List EdgeStats → Except ε Unit

variable {ε : Type}

/-- One round over the edges, and its trace entry. -/
def runRound (edges : List (EdgeOf keyFrames)) (rounds : Nat) (state : LoopState) :
    LoopState × Nat :=
  let done := edges.foldl (applyEdge keyFrames directions)
    ⟨state.survivors, state.downAdded, state.upAdded, Dict.empty⟩
  let totalAdded := done.addedPerTable.total
  (⟨done.survivors, done.downAdded, done.upAdded, state.trace ++
    [⟨rounds, totalAdded, done.addedPerTable.entries.insertionSort
      fun left right => toLex left ≤ toLex right⟩]⟩, totalAdded)

/-- The rounds that are still allowed, from round `rounds` on. -/
def closureLoop (edges : List (EdgeOf keyFrames)) (budgetCheck : BudgetCheck ε) :
    (remaining : Nat) → (rounds : Nat) → LoopState → Except (ClosureError ε) ClosureResult
  | 0, _, _ => .error .nontermination
  | remaining + 1, rounds, state =>
      let (state, totalAdded) := runRound keyFrames directions edges rounds state
      match budgetCheck state.survivors
          (stats keyFrames directions edges state.downAdded state.upAdded) with
      | .error error => .error (.budget error)
      | .ok () =>
          if totalAdded = 0 then
            .ok ⟨state.survivors, rounds, "fixpoint",
              stats keyFrames directions edges state.downAdded state.upAdded, state.trace⟩
          else closureLoop edges budgetCheck remaining (rounds + 1) state

/-- `sum(kf.height for kf in key_frames.values())`. -/
def totalRows : Nat := (keyFrames.entries.map fun entry => entry.2.length).sum

def computeClosure (edges : List (EdgeOf keyFrames)) (seedRows : Survivors)
    (budgetCheck : BudgetCheck ε) : Except (ClosureError ε) ClosureResult :=
  let counters := Dict.empty.sets (edges.map fun e => (e.val.edgeId, 0))
  let survivors := fun table => if table ∈ keyFrames.keys then seedRows table else ∅
  closureLoop keyFrames directions edges budgetCheck (totalRows keyFrames + 2) 1
    ⟨survivors, counters, counters, []⟩

inductive VerifyError where
  | invariantViolated (edgeId : String) (stillPresent : Nat)
deriving Repr, DecidableEq

def VerifyError.code : VerifyError → String
  | .invariantViolated _ _ => "subset_closure_invariant_violated"

def VerifyError.message : VerifyError → String
  | .invariantViolated edgeId stillPresent =>
      s!"edge {edgeId}: {stillPresent} surviving child key(s) " ++
      "reference a parent key that exists in the source parent table but was not " ++
      "pulled into the surviving parent set. This is a closure engine bug."

/-- The check of `verify_closure` on one edge: with the up rule on, no surviving child key may lack
its surviving parent where the parent table holds that key. -/
def verifyEdge (survivors : Survivors) (e : EdgeOf keyFrames) : Except VerifyError Unit :=
  if (directions e.val.edgeId).goesUp then
    let pkf := frameOf keyFrames e.val.parentTable
    let ckf := frameOf keyFrames e.val.childTable
    let survivingChildKeys := keysOf ckf e.val.childColumns (survivors e.val.childTable)
    let survivingParentKeys := keysOf pkf e.val.parentColumns (survivors e.val.parentTable)
    let unmatched := survivingChildKeys.filter fun key => key ∉ survivingParentKeys
    let fullParentKeys := (pkf.filterMap (keyOf e.val.parentColumns)).dedup
    let stillPresent := unmatched.filter fun key => key ∈ fullParentKeys
    if stillPresent.length > 0 then .error (.invariantViolated e.val.edgeId stillPresent.length)
    else .ok ()
  else .ok ()

def verifyClosure (edges : List (EdgeOf keyFrames)) (survivors : Survivors) :
    Except VerifyError Unit :=
  edges.forM (verifyEdge keyFrames directions survivors)

end

end DecoyEngine.Subset
