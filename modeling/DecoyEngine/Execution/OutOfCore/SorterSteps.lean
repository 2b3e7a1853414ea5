import DecoyEngine.Execution.OutOfCore.SortedOutput
import Mathlib.Logic.Relation

namespace DecoyEngine.Execution.OutOfCore

open DecoyEngine.Data

/-! The sorter step by step: every point at which `write` or `finish` holds other rows in
memory or in run files than the point before is a state of its own. -/

variable {Row κ : Type*} [LinearOrder κ]

/-- What the sorter is doing between two steps. -/
inductive Activity (Row : Type*) where
  | idle
  | writing (views : List (List Row))
  | betweenPasses (runs : List (RunFile Row))
  | passing (groups : List (List (RunFile Row))) (nextRuns : List (RunFile Row))
  | merging (writerSchema : Schema) (group : List (RunFile Row))
      (groups : List (List (RunFile Row))) (nextRuns : List (RunFile Row)) (merge : Merge Row)

structure SorterState (Row : Type*) where
  sorter : Sorter Row
  activity : Activity Row

/-- The run files on disk or in the middle of being written. -/
def Activity.runFiles : Activity Row → List (RunFile Row)
  | .idle | .writing _ => []
  | .betweenPasses runs => runs
  | .passing groups nextRuns => groups.flatten ++ nextRuns
  | .merging _ group groups nextRuns merge =>
      group ++ groups.flatten ++ nextRuns ++ [merge.written]

def Activity.openHeads : Activity Row → List (RunHead Row)
  | .merging _ _ _ _ merge => merge.heads
  | _ => []

def SorterState.runFiles (state : SorterState Row) : List (RunFile Row) :=
  state.sorter.runs ++ state.sorter.finalRun.toList ++ state.activity.runFiles

variable (arrow : ArrowRows Row κ)

namespace Sorter

/-- What `write` does before its loop over the batch's views. -/
def beginWrite (sorter : Sorter Row) (batch : List Row) :
    Except (Raised Row) (Sorter Row × List (List Row)) :=
  if sorter.finished then .error (.writeAfterFinish, sorter)
  else
    match batch with
    | [] => .ok (sorter, [])
    | row :: _ => do
        let schema := arrow.schema row
        let sorter ← sorter.validateKey arrow schema batch
        let sorter ← sorter.adoptSchema schema
        .ok (sorter, iterBoundedViews arrow batch sorter.limits.perHeadCapBytes)

theorem write_eq (sorter : Sorter Row) (batch : List Row) :
    sorter.write arrow batch =
      sorter.beginWrite arrow batch >>= fun begun => begun.2.foldlM (bufferView arrow) begun.1 := by
  cases batch with
  | nil =>
      rw [write, beginWrite]
      split <;> rfl
  | cons row rest =>
      rw [write, beginWrite]
      split
      · rfl
      · dsimp only
        cases sorter.validateKey arrow (arrow.schema row) (row :: rest) with
        | error raised => rfl
        | ok keyed =>
            simp only [bind, Except.bind]
            cases keyed.adoptSchema (arrow.schema row) <;> rfl

end Sorter

inductive Call (Row : Type*) where
  | write (batch : List Row)
  | finish
  | close

/-- The state a call begins in; a call that raises at once leaves the sorter idle. -/
def Call.enter (sorter : Sorter Row) : Call Row → SorterState Row
  | .write batch =>
      match sorter.beginWrite arrow batch with
      | .error (_, left) => ⟨left, .idle⟩
      | .ok (next, views) => ⟨next, .writing views⟩
  | .finish =>
      if sorter.finished then ⟨sorter, .idle⟩
      else
        match sorter.flush arrow with
        | .error (_, left) => ⟨left, .idle⟩
        | .ok flushed =>
            if flushed.unlinked ∧ 1 < flushed.runs.length then ⟨flushed, .idle⟩
            else ⟨flushed, .betweenPasses flushed.runs⟩
  | .close => ⟨sorter.close, .idle⟩

/-- `write` takes its next view, or raises on it. -/
def stepView (sorter : Sorter Row) (view : List Row) (views : List (List Row)) :
    SorterState Row :=
  match sorter.bufferView arrow view with
  | .error (_, left) => ⟨left, .idle⟩
  | .ok next => ⟨next, .writing views⟩

/-- The loop of `finish`: another pass, or the one run that is left. -/
def stepPasses (sorter : Sorter Row) (runs : List (RunFile Row)) : SorterState Row :=
  if 1 < runs.length then ⟨sorter, .passing (rangeSlices sorter.limits.mergeFanIn runs) []⟩
  else ⟨sorter.sealWith runs, .idle⟩

/-- A pass takes its next group; a group of one run is carried over. -/
def stepGroup (sorter : Sorter Row) (group : List (RunFile Row))
    (groups : List (List (RunFile Row))) (nextRuns : List (RunFile Row)) : SorterState Row :=
  match group with
  | [run] => ⟨sorter, .passing groups (nextRuns ++ [run])⟩
  | _ =>
      match sorter.schema with
      | none => ⟨sorter, .idle⟩
      | some schema =>
          ⟨sorter, .merging schema group groups nextRuns ⟨group.map RunHead.openRun, []⟩⟩

def stepRound (sorter : Sorter Row) (writerSchema : Schema) (group : List (RunFile Row))
    (groups : List (List (RunFile Row))) (nextRuns : List (RunFile Row)) (merge : Merge Row) :
    SorterState Row :=
  match mergeRound arrow writerSchema sorter.limits.perHeadCapBytes merge with
  | .error _ => ⟨sorter, .idle⟩
  | .ok none =>
      ⟨sorter.unlinkGroup, .passing groups (nextRuns ++ [merge.written])⟩
  | .ok (some next) => ⟨sorter, .merging writerSchema group groups nextRuns next⟩

/-- The next step of the call that is under way. -/
def SorterState.advance (state : SorterState Row) : Option (SorterState Row) :=
  match state.activity with
  | .idle => none
  | .writing [] => some ⟨state.sorter, .idle⟩
  | .writing (view :: views) => some (stepView arrow state.sorter view views)
  | .betweenPasses runs => some (stepPasses state.sorter runs)
  | .passing [] nextRuns => some ⟨state.sorter, .betweenPasses nextRuns⟩
  | .passing (group :: groups) nextRuns => some (stepGroup state.sorter group groups nextRuns)
  | .merging writerSchema group groups nextRuns merge =>
      some (stepRound arrow state.sorter writerSchema group groups nextRuns merge)

/-- One step: a call on an idle sorter, or the next step of the one under way. -/
inductive SorterStep : SorterState Row → SorterState Row → Prop where
  | call (sorter : Sorter Row) (call : Call Row) :
      SorterStep ⟨sorter, .idle⟩ (call.enter arrow sorter)
  | advance {state next : SorterState Row} (advanced : state.advance arrow = some next) :
      SorterStep state next

abbrev SorterReaches : SorterState Row → SorterState Row → Prop :=
  Relation.ReflTransGen (SorterStep arrow)

/-- The sorter a call leaves behind, whether it returns or raises. -/
def Sorter.standing : Except (Sorter.Raised Row) (Sorter Row) → Sorter Row
  | .ok next => next
  | .error (_, left) => left

variable {arrow} {sorter : Sorter Row}

theorem bufferViews_reaches (views : List (List Row)) :
    SorterReaches arrow ⟨sorter, .writing views⟩
      ⟨Sorter.standing (views.foldlM (Sorter.bufferView arrow) sorter), .idle⟩ := by
  induction views generalizing sorter with
  | nil => exact .single (.advance rfl)
  | cons view views ih =>
      rw [List.foldlM_cons]
      have first : SorterStep arrow ⟨sorter, .writing (view :: views)⟩
          (stepView arrow sorter view views) := .advance rfl
      cases buffered : sorter.bufferView arrow view with
      | error raised =>
          rw [stepView, buffered] at first
          exact .single first
      | ok next =>
          rw [stepView, buffered] at first
          exact Relation.ReflTransGen.head first ih

theorem write_reaches (arrow : ArrowRows Row κ) (sorter : Sorter Row) (batch : List Row) :
    SorterReaches arrow ⟨sorter, .idle⟩
      ⟨Sorter.standing (sorter.write arrow batch), .idle⟩ := by
  have entered : SorterStep arrow ⟨sorter, .idle⟩ _ := .call sorter (.write batch)
  rw [Call.enter] at entered
  rw [Sorter.write_eq]
  cases begun : sorter.beginWrite arrow batch with
  | error raised =>
      rw [begun] at entered
      exact .single entered
  | ok begun' =>
      rw [begun] at entered
      exact Relation.ReflTransGen.head entered (bufferViews_reaches begun'.2)

section Merging

variable {members : List (RunFile Row)} {groups : List (List (RunFile Row))}
variable {runs nextRuns : List (RunFile Row)} {fuel : Nat}

/-- Where a merge ends: behind its group with the merged run, or in a raise. -/
def afterMerge (sorter : Sorter Row) (groups : List (List (RunFile Row)))
    (nextRuns : List (RunFile Row)) : Except SortError (RunFile Row) → SorterState Row
  | .error _ => ⟨sorter, .idle⟩
  | .ok run => ⟨sorter.unlinkGroup, .passing groups (nextRuns ++ [run])⟩

theorem mergeHeadsInto_reaches {writerSchema : Schema} {merge : Merge Row}
    {outcome : Except SortError (RunFile Row)}
    (merged : mergeHeadsInto arrow writerSchema sorter.limits.perHeadCapBytes fuel merge =
      some outcome) :
    SorterReaches arrow ⟨sorter, .merging writerSchema members groups nextRuns merge⟩
      (afterMerge sorter groups nextRuns outcome) := by
  induction fuel generalizing merge with
  | zero => cases merged
  | succ fuel ih =>
      rw [mergeHeadsInto] at merged
      have first : SorterStep arrow ⟨sorter, .merging writerSchema members groups nextRuns merge⟩
          (stepRound arrow sorter writerSchema members groups nextRuns merge) := .advance rfl
      rw [stepRound] at first
      rcases round : mergeRound arrow writerSchema sorter.limits.perHeadCapBytes merge with
        invalid | _ | next
      · rw [round] at merged first
        cases merged
        exact .single first
      · rw [round] at merged first
        cases merged
        exact .single first
      · rw [round] at merged first
        exact Relation.ReflTransGen.head first (ih merged)

/-- Where the rest of a pass begins once `mergeGroup` is through with one group. -/
def settledGroup (groups : List (List (RunFile Row))) (nextRuns : List (RunFile Row)) :
    Except (Sorter.Raised Row) (Sorter Row × RunFile Row) → SorterState Row
  | .error (_, left) => ⟨left, .idle⟩
  | .ok (merged, run) => ⟨merged, .passing groups (nextRuns ++ [run])⟩

theorem mergeGroup_reaches {outcome : Except (Sorter.Raised Row) (Sorter Row × RunFile Row)}
    (merged : sorter.mergeGroup arrow fuel members = some outcome) :
    SorterReaches arrow ⟨sorter, .passing (members :: groups) nextRuns⟩
      (settledGroup groups nextRuns outcome) := by
  have first : SorterStep arrow ⟨sorter, .passing (members :: groups) nextRuns⟩
      (stepGroup sorter members groups nextRuns) := .advance rfl
  rw [Sorter.mergeGroup.eq_def] at merged
  rw [stepGroup.eq_def] at first
  split at merged
  · cases merged
    exact .single first
  · rename_i several
    split at first
    · exact absurd rfl (several _)
    · cases adopted : sorter.schema with
      | none =>
          rw [adopted] at merged first
          cases merged
          exact .single first
      | some schema =>
          rw [adopted] at merged first
          dsimp only at merged
          split at merged
          · cases merged
          · rename_i invalid raised
            cases merged
            exact Relation.ReflTransGen.head first (mergeHeadsInto_reaches raised)
          · rename_i run wrote
            cases merged
            exact Relation.ReflTransGen.head first (mergeHeadsInto_reaches wrote)

/-- Where `finish` goes on once a pass is through. -/
def afterPass : Except (Sorter.Raised Row) (Sorter Row × List (RunFile Row)) → SorterState Row
  | .error (_, left) => ⟨left, .idle⟩
  | .ok (merged, nextRuns) => ⟨merged, .betweenPasses nextRuns⟩

theorem mergeGroups_reaches
    {outcome : Except (Sorter.Raised Row) (Sorter Row × List (RunFile Row))}
    (passed : sorter.mergeGroups arrow fuel nextRuns groups = some outcome) :
    SorterReaches arrow ⟨sorter, .passing groups nextRuns⟩ (afterPass outcome) := by
  induction groups generalizing sorter nextRuns with
  | nil =>
      cases passed
      exact .single (.advance rfl)
  | cons members groups ih =>
      rw [Sorter.mergeGroups] at passed
      split at passed
      · cases passed
      · rename_i raised merged
        cases passed
        exact mergeGroup_reaches merged
      · rename_i after run merged
        exact (mergeGroup_reaches merged).trans (ih passed)

/-- What `finish` makes of the outcome of its passes. -/
def afterPasses : Except (Sorter.Raised Row) (Sorter Row × List (RunFile Row)) → Sorter Row
  | .error (_, left) => left
  | .ok (merged, runs) => merged.sealWith runs

theorem mergePasses_reaches {passes : Nat}
    {outcome : Except (Sorter.Raised Row) (Sorter Row × List (RunFile Row))}
    (merged : sorter.mergePasses arrow fuel runs passes = some outcome) :
    SorterReaches arrow ⟨sorter, .betweenPasses runs⟩ ⟨afterPasses outcome, .idle⟩ := by
  induction passes generalizing sorter runs with
  | zero => cases merged
  | succ passes ih =>
      rw [Sorter.mergePasses] at merged
      have first : SorterStep arrow ⟨sorter, .betweenPasses runs⟩ (stepPasses sorter runs) :=
        .advance rfl
      rw [stepPasses] at first
      by_cases many : 1 < runs.length
      · rw [if_pos many] at merged first
        split at merged
        · cases merged
        · rename_i raised passed
          cases merged
          exact Relation.ReflTransGen.head first (mergeGroups_reaches passed)
        · rename_i after nextRuns passed
          exact (Relation.ReflTransGen.head first (mergeGroups_reaches passed)).trans (ih merged)
      · rw [if_neg many] at merged first
        cases merged
        exact .single first

end Merging

theorem finish_reaches {outcome : Except (Sorter.Raised Row) (Sorter Row)} {fuel : Nat}
    (finished : sorter.finish arrow fuel = some outcome) :
    SorterReaches arrow ⟨sorter, .idle⟩ ⟨Sorter.standing outcome, .idle⟩ := by
  have entered : SorterStep arrow ⟨sorter, .idle⟩ _ := .call sorter .finish
  rw [Call.enter] at entered
  rw [Sorter.finish] at finished
  cases sealed : sorter.finished with
  | true =>
      rw [sealed] at entered finished
      cases finished
      exact .single entered
  | false =>
      rw [sealed] at entered finished
      simp only [Bool.false_eq_true, if_false] at entered finished
      cases flush : sorter.flush arrow with
      | error raised =>
          rw [flush] at entered finished
          cases finished
          exact .single entered
      | ok flushed =>
          rw [flush] at entered finished
          dsimp only at entered finished
          by_cases gone : flushed.unlinked = true ∧ 1 < flushed.runs.length
          · rw [if_pos gone] at entered finished
            cases finished
            exact .single entered
          · rw [if_neg gone] at entered finished
            split at finished
            · cases finished
            · rename_i raised merged
              cases finished
              exact Relation.ReflTransGen.head entered (mergePasses_reaches merged)
            · rename_i merged runs passed
              cases finished
              exact Relation.ReflTransGen.head entered (mergePasses_reaches passed)

end DecoyEngine.Execution.OutOfCore
