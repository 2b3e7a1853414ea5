import DecoyEngine.Data.PyRepr
import Mathlib.Data.List.Forall2

namespace DecoyEngine.Execution.Tokenize

open DecoyEngine.Data (pyRepr)

/-! Runs of the tokenize strategy over one shared vault (`_strategies/_tokenize.py`). A run looks
a value up, and on a miss puts its own token in a step of its own, so that other runs can come in
between. -/

structure StrategyError where
  code : String
  strategy : String
  message : String
deriving Repr, DecidableEq

/-- The stored tokens, by namespace and plaintext. -/
abbrev Vault := String → String → Option String

/-- `vault.put`: an insertion if the pair is absent, and the token stored there. -/
def Vault.put (vault : Vault) (namespaceName plaintext token : String) : Vault × String :=
  match vault namespaceName plaintext with
  | some stored => (vault, stored)
  | none => (fun name text =>
      if name = namespaceName ∧ text = plaintext then some token else vault name text, token)

/-- What a handler is given. `derive` is keyed with the mask key of the run and gives the whole
token, its prefix included. -/
structure Request (Value : Type) where
  columnName : String
  hasVault : Bool
  namespaceName : Option String
  dtype : String
  isStringDtype : Bool
  column : List (Option Value)
  derive : String → String → String

/-- What a handler reads of its request once the checks have passed. -/
structure Run (Value : Type) where
  columnName : String
  namespaceName : String
  column : List (Option Value)
  derive : String → String → String

variable {Value Id : Type}

/-- The checks before the first row, in the order of the source: a vault, a namespace, and a column
of strings. -/
def Request.check (request : Request Value) : Except StrategyError (Run Value) :=
  if !request.hasVault then
    .error ⟨"tokenize_requires_vault", "tokenize", "column " ++ pyRepr request.columnName ++
      " uses the tokenize strategy but no vault was provided by the platform; " ++
      "tokenize requires a vault-backed runner."⟩
  else
    match request.namespaceName with
    | none =>
        .error ⟨"tokenize_requires_namespace", "tokenize", "column " ++
          pyRepr request.columnName ++ " uses the tokenize strategy but has no namespace; " ++
          "the token is keyed on it (so different namespaces tokenize apart)."⟩
    | some namespaceName =>
        if !request.isStringDtype then
          .error ⟨"tokenize_requires_string_dtype", "tokenize", "column " ++
            pyRepr request.columnName ++
            " uses the tokenize strategy but its source dtype is " ++ request.dtype ++
            "; V0 tokenize supports only string/object source columns."⟩
        else .ok ⟨request.columnName, namespaceName, request.column, request.derive⟩

/-- The run of a request; a request without a namespace never takes a step of it. -/
def Request.run (request : Request Value) : Run Value :=
  ⟨request.columnName, request.namespaceName.getD "", request.column, request.derive⟩

/-- `_vault_error` -/
def vaultError (columnName op : String) : StrategyError :=
  ⟨"tokenize_vault_error", "tokenize", "column " ++ pyRepr columnName ++
    ": the token vault raised during " ++ op ++ "; the run is aborted so no partial or " ++
    "unrecorded output is written. The underlying vault error is suppressed to avoid " ++
    "leaking the source value or token."⟩

/-- Where a run stands: at a row, between the lookup and the put of one, or at its end. -/
inductive Status (Value : Type) where
  | pending (rows : List (Option Value)) (out : List (Option String))
  | proposing (plaintext token : String) (rows : List (Option Value)) (out : List (Option String))
  | done (out : List (Option String))
  | failed (error : StrategyError)

/-- Where a handler stands before its first row: the checks come first. -/
def Request.start (request : Request Value) : Status Value :=
  match request.check with
  | .ok run => .pending run.column []
  | .error error => .failed error

/-- How a vault step ends; a put can raise before or after the vault has committed it. -/
inductive Outcome where
  | ok
  | raises
  | raisesAfterCommit
deriving Repr, DecidableEq

/-- One step of one run: a null row, a lookup of the next value, or the put of a token that the
lookup did not find. `plaintextOf` is `unicodedata.normalize("NFC", str(value))`. -/
def advance (plaintextOf : Value → String) (run : Run Value) (outcome : Outcome) (vault : Vault) :
    Status Value → Vault × Status Value
  | .pending [] out => (vault, .done out)
  | .pending (none :: rows) out => (vault, .pending rows (out ++ [none]))
  | .pending (some value :: rows) out =>
      if outcome ≠ .ok then (vault, .failed (vaultError run.columnName "lookup"))
      else
        match vault run.namespaceName (plaintextOf value) with
        | some existing => (vault, .pending rows (out ++ [some existing]))
        | none =>
            (vault, .proposing (plaintextOf value)
              (run.derive run.namespaceName (plaintextOf value)) rows out)
  | .proposing plaintext token rows out =>
      match outcome with
      | .ok =>
          let (vault, stored) := vault.put run.namespaceName plaintext token
          if stored = "" then (vault, .failed (vaultError run.columnName "write"))
          else (vault, .pending rows (out ++ [some stored]))
      | .raises => (vault, .failed (vaultError run.columnName "write"))
      | .raisesAfterCommit =>
          ((vault.put run.namespaceName plaintext token).1,
            .failed (vaultError run.columnName "write"))
  | .done out => (vault, .done out)
  | .failed error => (vault, .failed error)

structure State (Value Id : Type) where
  vault : Vault
  status : Id → Status Value

/-- Whose turn it is, and how its vault step ends. -/
abbrev Action (Id : Type) := Id × Outcome

variable [DecidableEq Id] (plaintextOf : Value → String) (runs : Id → Run Value)

def initial (requests : Id → Request Value) (vault : Vault) : State Value Id :=
  ⟨vault, fun id => (requests id).start⟩

def step (state : State Value Id) (action : Action Id) : State Value Id :=
  let (vault, status) :=
    advance plaintextOf (runs action.1) action.2 state.vault (state.status action.1)
  ⟨vault, Function.update state.status action.1 status⟩

def execute (state : State Value Id) (schedule : List (Action Id)) : State Value Id :=
  schedule.foldl (step plaintextOf runs) state

/-- The vault and the handlers after a schedule, every request over the same vault. -/
def tokenize (requests : Id → Request Value) (vault : Vault) (schedule : List (Action Id)) :
    State Value Id :=
  execute plaintextOf (fun id => (requests id).run) (initial requests vault) schedule

/-- The tokens a run has come to so far. -/
def Status.emitted : Status Value → List (Option String)
  | .pending _ out => out
  | .proposing _ _ _ out => out
  | .done out => out
  | .failed _ => []

/-- The column a run writes, once it does. -/
def Status.column : Status Value → Option (List (Option String))
  | .done out => some out
  | _ => none

/-- The next step of the run asks the vault, and that fails: it raises, or it stores nothing. -/
def Status.fails (run : Run Value) (vault : Vault) (outcome : Outcome) : Status Value → Prop
  | .pending (some _ :: _) _ => outcome ≠ .ok
  | .proposing plaintext token _ _ =>
      outcome ≠ .ok ∨ (vault.put run.namespaceName plaintext token).2 = ""
  | _ => False

/-- How many turns the run can still use. -/
def Status.remaining : Status Value → Nat
  | .pending rows _ => 2 * rows.length + 1
  | .proposing _ _ rows _ => 2 * rows.length + 2
  | .done _ => 0
  | .failed _ => 0

/-- A row and what stands for it: nulls stay null, and a token is the stored one. -/
def Entered (vault : Vault) (namespaceName : String) : Option Value → Option String → Prop
  | none, none => True
  | some value, some token => vault namespaceName (plaintextOf value) = some token
  | none, some _ => False
  | some _, none => False

/-- The rows a run is past are entered, in order. -/
def Kept (run : Run Value) (vault : Vault) : Status Value → Prop
  | .pending rows out => ∃ taken, run.column = taken ++ rows ∧
      List.Forall₂ (Entered plaintextOf vault run.namespaceName) taken out
  | .proposing plaintext _ rows out => ∃ taken value, run.column = taken ++ some value :: rows ∧
      plaintext = plaintextOf value ∧
      List.Forall₂ (Entered plaintextOf vault run.namespaceName) taken out
  | .done out => List.Forall₂ (Entered plaintextOf vault run.namespaceName) run.column out
  | .failed _ => True

/-- No stored token changes. -/
def Grows (before after : Vault) : Prop :=
  ∀ name text token, before name text = some token → after name text = some token

section Steps

variable {plaintextOf : Value → String} {runs : Id → Run Value} {run : Run Value}
  {outcome : Outcome} {vault : Vault} {status : Status Value}
  {namespaceName plaintext token : String}

theorem Request.run_eq {request : Request Value} (passed : request.check = .ok run) :
    request.run = run := by
  unfold Request.check at passed
  rw [Request.run]
  cases named : request.namespaceName with
  | none =>
      simp only [named] at passed
      split_ifs at passed
  | some namespaceName =>
      simp only [named] at passed
      split_ifs at passed
      exact Except.ok.inj passed

theorem Request.start_of_passed {request : Request Value} (passed : request.check = .ok run) :
    request.start = .pending request.column [] := by
  rw [Request.start, passed, ← Request.run_eq passed]
  rfl

theorem Request.start_of_refused {request : Request Value} {error : StrategyError}
    (refused : request.check = .error error) : request.start = .failed error := by
  rw [Request.start, refused]

theorem remaining_start (request : Request Value) :
    request.start.remaining ≤ 2 * request.column.length + 1 := by
  cases checked : request.check with
  | ok run => rw [Request.start_of_passed checked]; exact le_rfl
  | error error => rw [Request.start_of_refused checked]; exact Nat.zero_le _

theorem put_spec (vault : Vault) (namespaceName plaintext token : String) :
    (vault.put namespaceName plaintext token).1 namespaceName plaintext =
        some (vault.put namespaceName plaintext token).2 ∧
      Grows vault (vault.put namespaceName plaintext token).1 ∧
      ∀ name, name ≠ namespaceName →
        (vault.put namespaceName plaintext token).1 name = vault name := by
  unfold Vault.put
  cases found : vault namespaceName plaintext with
  | some stored => exact ⟨found, fun _ _ _ known => known, fun _ _ => rfl⟩
  | none =>
      refine ⟨if_pos ⟨rfl, rfl⟩, fun name text other known => ?_, fun name other => ?_⟩
      · have differs : ¬(name = namespaceName ∧ text = plaintext) := by
          rintro ⟨rfl, rfl⟩
          rw [found] at known
          cases known
        exact (if_neg differs).trans known
      · funext text
        exact if_neg fun same => other same.1

theorem advance_vault (status : Status Value) :
    Grows vault (advance plaintextOf run outcome vault status).1 ∧
      ∀ name, name ≠ run.namespaceName →
        (advance plaintextOf run outcome vault status).1 name = vault name := by
  have still : Grows vault vault ∧
      ∀ name, name ≠ run.namespaceName → vault name = vault name :=
    ⟨fun _ _ _ known => known, fun _ _ => rfl⟩
  cases status with
  | pending rows out =>
      match rows with
      | [] => exact still
      | none :: rows => exact still
      | some value :: rows =>
          simp only [advance]
          split
          · exact still
          · split <;> exact still
  | proposing plaintext token rows out =>
      obtain ⟨-, grows, other⟩ := put_spec vault run.namespaceName plaintext token
      cases outcome with
      | ok =>
          simp only [advance]
          split <;> exact ⟨grows, other⟩
      | raises => exact still
      | raisesAfterCommit => exact ⟨grows, other⟩
  | done out => exact still
  | failed error => exact still

theorem Entered.grow {before after : Vault} (grows : Grows before after) {row : Option Value}
    {entry : Option String} (entered : Entered plaintextOf before namespaceName row entry) :
    Entered plaintextOf after namespaceName row entry := by
  cases row <;> cases entry
  · trivial
  · exact entered
  · exact entered
  · exact grows _ _ _ entered

theorem forall_grow {before after : Vault} (grows : Grows before after) {rows : List (Option Value)}
    {out : List (Option String)}
    (entered : List.Forall₂ (Entered plaintextOf before namespaceName) rows out) :
    List.Forall₂ (Entered plaintextOf after namespaceName) rows out :=
  entered.imp fun _ _ => Entered.grow grows

theorem forall_entered {taken rest : List (Option Value)} {out : List (Option String)}
    {index : Nat} {row : Option Value} {entry : Option String}
    (atRow : (taken ++ rest)[index]? = some row)
    (entered : List.Forall₂ (Entered plaintextOf vault namespaceName) taken out)
    (emitted : out[index]? = some entry) :
    Entered plaintextOf vault namespaceName row entry := by
  induction entered generalizing index with
  | nil => cases emitted
  | cons here _ ih =>
      cases index with
      | zero =>
          cases atRow
          cases emitted
          exact here
      | succ index => exact ih atRow emitted

theorem Kept.grow {before after : Vault} (grows : Grows before after)
    (kept : Kept plaintextOf run before status) : Kept plaintextOf run after status := by
  cases status with
  | pending rows out =>
      obtain ⟨taken, split, entered⟩ := kept
      exact ⟨taken, split, forall_grow grows entered⟩
  | proposing plaintext token rows out =>
      obtain ⟨taken, value, split, same, entered⟩ := kept
      exact ⟨taken, value, split, same, forall_grow grows entered⟩
  | done out => exact forall_grow grows kept
  | failed error => trivial

theorem Kept.next {rows taken : List (Option Value)} {row : Option Value} {entry : Option String}
    {out : List (Option String)} (split : run.column = taken ++ row :: rows)
    (entered : List.Forall₂ (Entered plaintextOf vault run.namespaceName) taken out)
    (here : Entered plaintextOf vault run.namespaceName row entry) :
    Kept plaintextOf run vault (.pending rows (out ++ [entry])) :=
  ⟨taken ++ [row], by rw [split, List.append_assoc]; rfl,
    List.rel_append entered (.cons here .nil)⟩

theorem advance_kept (kept : Kept plaintextOf run vault status) :
    Kept plaintextOf run (advance plaintextOf run outcome vault status).1
      (advance plaintextOf run outcome vault status).2 := by
  cases status with
  | pending rows out =>
      obtain ⟨taken, split, entered⟩ := kept
      match rows with
      | [] =>
          rw [List.append_nil] at split
          change List.Forall₂ _ run.column out
          rw [split]
          exact entered
      | none :: rows => exact Kept.next split entered trivial
      | some value :: rows =>
          simp only [advance]
          split_ifs with raised
          · trivial
          · cases found : vault run.namespaceName (plaintextOf value) with
            | some existing => exact Kept.next split entered found
            | none => exact ⟨taken, value, split, rfl, entered⟩
  | proposing plaintext token rows out =>
      obtain ⟨taken, value, split, rfl, entered⟩ := kept
      obtain ⟨stored, grows, -⟩ := put_spec vault run.namespaceName (plaintextOf value) token
      cases outcome with
      | ok =>
          simp only [advance]
          split_ifs with empty
          · trivial
          · exact Kept.next split (forall_grow grows entered) stored
      | raises => trivial
      | raisesAfterCommit => trivial
  | done out => exact kept
  | failed error => trivial

variable (plaintextOf outcome) in
theorem advance_congr {other : Vault} (same : vault run.namespaceName = other run.namespaceName)
    (status : Status Value) :
    (advance plaintextOf run outcome vault status).2 =
        (advance plaintextOf run outcome other status).2 ∧
      (advance plaintextOf run outcome vault status).1 run.namespaceName =
        (advance plaintextOf run outcome other status).1 run.namespaceName := by
  cases status with
  | pending rows out =>
      match rows with
      | [] => exact ⟨rfl, same⟩
      | none :: rows => exact ⟨rfl, same⟩
      | some value :: rows =>
          simp only [advance, same]
          split_ifs with raised
          · exact ⟨rfl, same⟩
          · cases other run.namespaceName (plaintextOf value) <;> exact ⟨rfl, same⟩
  | proposing plaintext token rows out =>
      have put : (vault.put run.namespaceName plaintext token).2 =
            (other.put run.namespaceName plaintext token).2 ∧
          (vault.put run.namespaceName plaintext token).1 run.namespaceName =
            (other.put run.namespaceName plaintext token).1 run.namespaceName := by
        simp only [Vault.put, same]
        cases other run.namespaceName plaintext with
        | some stored => exact ⟨rfl, same⟩
        | none => exact ⟨rfl, by funext text; simp only [same]⟩
      cases outcome with
      | ok =>
          simp only [advance, put.1]
          split_ifs with empty
          · exact ⟨rfl, put.2⟩
          · exact ⟨rfl, put.2⟩
      | raises => exact ⟨rfl, same⟩
      | raisesAfterCommit => exact ⟨rfl, put.2⟩
  | done out => exact ⟨rfl, same⟩
  | failed error => exact ⟨rfl, same⟩

variable (plaintextOf) in
theorem advance_fails (fails : status.fails run vault outcome) :
    ∃ op, (advance plaintextOf run outcome vault status).2 =
      .failed (vaultError run.columnName op) := by
  cases status with
  | pending rows out =>
      match rows with
      | [] => exact fails.elim
      | none :: rows => exact fails.elim
      | some value :: rows =>
          have raised : outcome ≠ .ok := fails
          refine ⟨"lookup", ?_⟩
          simp only [advance]
          rw [if_pos raised]
  | proposing plaintext token rows out =>
      refine ⟨"write", ?_⟩
      cases outcome with
      | ok =>
          have empty := fails.resolve_left fun differs => differs rfl
          simp only [advance]
          rw [if_pos empty]
      | raises => rfl
      | raisesAfterCommit => rfl
  | done out => exact fails.elim
  | failed error => exact fails.elim

variable (plaintextOf run outcome vault) in
theorem advance_remaining (status : Status Value) :
    (advance plaintextOf run outcome vault status).2.remaining ≤ status.remaining - 1 := by
  cases status with
  | pending rows out =>
      match rows with
      | [] => exact Nat.le_refl 0
      | none :: rows =>
          simp only [advance, Status.remaining, List.length_cons]
          omega
      | some value :: rows =>
          simp only [advance]
          split
          · simp [Status.remaining]
          · split <;> simp only [Status.remaining, List.length_cons] <;> omega
  | proposing plaintext token rows out =>
      cases outcome with
      | ok =>
          simp only [advance]
          split <;> simp [Status.remaining]
      | raises => exact Nat.zero_le _
      | raisesAfterCommit => exact Nat.zero_le _
  | done out => exact Nat.le_refl 0
  | failed error => exact Nat.le_refl 0

end Steps

section Schedules

variable {plaintextOf : Value → String} {runs : Id → Run Value} {state : State Value Id}
  {requests : Id → Request Value}

/-- Each run's emitted rows are in the vault. -/
def Invariant (plaintextOf : Value → String) (runs : Id → Run Value) (state : State Value Id) :
    Prop :=
  ∀ id, Kept plaintextOf (runs id) state.vault (state.status id)

omit [DecidableEq Id] in
theorem initial_invariant (vault : Vault) :
    Invariant plaintextOf (fun id => (requests id).run) (initial requests vault) := by
  intro id
  change Kept plaintextOf (requests id).run vault (requests id).start
  cases checked : (requests id).check with
  | ok run =>
      rw [Request.start_of_passed checked]
      exact ⟨[], rfl, .nil⟩
  | error error =>
      rw [Request.start_of_refused checked]
      trivial

theorem step_status_self (state : State Value Id) (action : Action Id) :
    (step plaintextOf runs state action).status action.1 =
      (advance plaintextOf (runs action.1) action.2 state.vault (state.status action.1)).2 :=
  Function.update_self ..

theorem step_status_other (state : State Value Id) {action : Action Id} {id : Id}
    (other : id ≠ action.1) :
    (step plaintextOf runs state action).status id = state.status id :=
  Function.update_of_ne other ..

theorem step_invariant (action : Action Id) (invariant : Invariant plaintextOf runs state) :
    Invariant plaintextOf runs (step plaintextOf runs state action) := by
  intro id
  by_cases turn : id = action.1
  · subst turn
    rw [step_status_self]
    exact advance_kept (invariant _)
  · rw [step_status_other state turn]
    exact (invariant id).grow (advance_vault _).1

theorem execute_append (state : State Value Id) (before after : List (Action Id)) :
    execute plaintextOf runs state (before ++ after) =
      execute plaintextOf runs (execute plaintextOf runs state before) after :=
  List.foldl_append

theorem execute_invariant (invariant : Invariant plaintextOf runs state)
    (schedule : List (Action Id)) :
    Invariant plaintextOf runs (execute plaintextOf runs state schedule) := by
  induction schedule generalizing state with
  | nil => exact invariant
  | cons action schedule ih => exact ih (step_invariant action invariant)

variable (plaintextOf runs) in
theorem execute_grows (state : State Value Id) (schedule : List (Action Id)) :
    Grows state.vault (execute plaintextOf runs state schedule).vault := by
  induction schedule generalizing state with
  | nil => exact fun _ _ _ known => known
  | cons action schedule ih =>
      exact fun name text token known =>
        ih _ name text token ((advance_vault _).1 name text token known)

theorem step_failed {id : Id} {error : StrategyError} (action : Action Id)
    (failed : state.status id = .failed error) :
    (step plaintextOf runs state action).status id = .failed error := by
  by_cases turn : id = action.1
  · subst turn
    rw [step_status_self, failed]
    rfl
  · rw [step_status_other state turn, failed]

theorem execute_failed {id : Id} {error : StrategyError} (schedule : List (Action Id))
    (failed : state.status id = .failed error) :
    (execute plaintextOf runs state schedule).status id = .failed error := by
  induction schedule generalizing state with
  | nil => exact failed
  | cons action schedule ih => exact ih (step_failed action failed)

variable (plaintextOf runs state) in
theorem step_remaining (id : Id) (action : Action Id) :
    ((step plaintextOf runs state action).status id).remaining +
        (if action.1 = id then 1 else 0) ≤
      max (state.status id).remaining (if action.1 = id then 1 else 0) := by
  by_cases turn : id = action.1
  · subst turn
    have fewer := advance_remaining plaintextOf (runs action.1) action.2 state.vault
      (state.status action.1)
    rw [step_status_self, if_pos rfl]
    omega
  · rw [step_status_other state turn, if_neg (Ne.symm turn)]
    omega

variable (plaintextOf runs state) in
theorem execute_remaining (id : Id) (schedule : List (Action Id)) :
    ((execute plaintextOf runs state schedule).status id).remaining ≤
      (state.status id).remaining - schedule.countP fun action => action.1 = id := by
  induction schedule generalizing state with
  | nil => exact Nat.le_refl _
  | cons action schedule ih =>
      have rest := ih (step plaintextOf runs state action)
      have here := step_remaining plaintextOf runs state id action
      change ((execute plaintextOf runs (step plaintextOf runs state action)
        schedule).status id).remaining ≤ _
      rw [List.countP_cons]
      by_cases turn : action.1 = id
      · simp only [turn, if_true, decide_true] at here ⊢
        omega
      · simp only [turn, if_false, decide_false, Bool.false_eq_true] at here ⊢
        omega

/-- Two states that agree on what belongs to a namespace. -/
structure SameIn (runs : Id → Run Value) (name : String) (left right : State Value Id) :
    Prop where
  entries : left.vault name = right.vault name
  status : ∀ id, (runs id).namespaceName = name → left.status id = right.status id

variable {name : String} {left right : State Value Id}

theorem SameIn.step_inside (same : SameIn runs name left right) {action : Action Id}
    (inside : (runs action.1).namespaceName = name) :
    SameIn runs name (step plaintextOf runs left action)
      (step plaintextOf runs right action) := by
  subst inside
  have here := advance_congr plaintextOf action.2 same.entries (left.status action.1)
  have there := same.status action.1 rfl
  constructor
  · change (advance plaintextOf (runs action.1) action.2 left.vault _).1 _ =
      (advance plaintextOf (runs action.1) action.2 right.vault _).1 _
    rw [← there]
    exact here.2
  · intro id belongs
    by_cases turn : id = action.1
    · subst turn
      rw [step_status_self, step_status_self, ← there]
      exact here.1
    · rw [step_status_other left turn, step_status_other right turn]
      exact same.status id belongs

theorem SameIn.step_outside (same : SameIn runs name left right) {action : Action Id}
    (outside : (runs action.1).namespaceName ≠ name) :
    SameIn runs name (step plaintextOf runs left action) right := by
  constructor
  · rw [← same.entries]
    exact (advance_vault (left.status action.1)).2 name (Ne.symm outside)
  · intro id belongs
    have other : id ≠ action.1 := by
      rintro rfl
      exact outside belongs
    rw [step_status_other left other]
    exact same.status id belongs

theorem SameIn.execute (same : SameIn runs name left right) (schedule : List (Action Id)) :
    SameIn runs name (execute plaintextOf runs left schedule)
      (execute plaintextOf runs right
        (schedule.filter fun action => (runs action.1).namespaceName = name)) := by
  induction schedule generalizing left right with
  | nil => exact same
  | cons action schedule ih =>
      by_cases belongs : (runs action.1).namespaceName = name
      · rw [List.filter_cons_of_pos (by simpa using belongs)]
        exact ih (same.step_inside belongs)
      · rw [List.filter_cons_of_neg (by simpa using belongs)]
        exact ih (same.step_outside belongs)

theorem Kept.entered {run : Run Value} {vault : Vault} {status : Status Value}
    (kept : Kept plaintextOf run vault status) {index : Nat} {row : Option Value}
    {entry : Option String} (atRow : run.column[index]? = some row)
    (emitted : status.emitted[index]? = some entry) :
    Entered plaintextOf vault run.namespaceName row entry := by
  cases status with
  | pending rows out =>
      obtain ⟨taken, split, entered⟩ := kept
      exact forall_entered (split ▸ atRow) entered emitted
  | proposing plaintext token rows out =>
      obtain ⟨taken, value, split, -, entered⟩ := kept
      exact forall_entered (split ▸ atRow) entered emitted
  | done out =>
      rw [← List.append_nil run.column] at atRow
      exact forall_entered atRow kept emitted
  | failed error => cases emitted

/-- What holds after any schedule of handlers over one vault: a token is recorded before it is
emitted, one text of a namespace has one token whoever asks and under whatever key, and a handler
that is refused or fails publishes nothing. -/
structure TokenLaw (plaintextOf : Value → String) (requests : Id → Request Value) (vault : Vault)
    (schedule : List (Action Id)) : Prop where
  recorded : ∀ (id : Id) (index : Nat) (value : Value) (token : String),
    (requests id).column[index]? = some (some value) →
    ((tokenize plaintextOf requests vault schedule).status id).emitted[index]? =
      some (some token) →
    (tokenize plaintextOf requests vault schedule).vault (requests id).run.namespaceName
      (plaintextOf value) = some token
  /-- The two tokens may be emitted at different times, by runs with different keys. -/
  consistent : ∀ before after, schedule = before ++ after →
    ∀ (first second : Id) (index₁ index₂ : Nat) (value₁ value₂ : Value)
      (token₁ token₂ : String),
      (requests first).run.namespaceName = (requests second).run.namespaceName →
      plaintextOf value₁ = plaintextOf value₂ →
      (requests first).column[index₁]? = some (some value₁) →
      (requests second).column[index₂]? = some (some value₂) →
      ((tokenize plaintextOf requests vault before).status first).emitted[index₁]? =
        some (some token₁) →
      ((tokenize plaintextOf requests vault schedule).status second).emitted[index₂]? =
        some (some token₂) →
      token₁ = token₂
  nulls : ∀ (id : Id) (index : Nat) (row : Option Value) (entry : Option String),
    (requests id).column[index]? = some row →
    ((tokenize plaintextOf requests vault schedule).status id).emitted[index]? = some entry →
    (entry = none ↔ row = none)
  complete : ∀ id out,
    ((tokenize plaintextOf requests vault schedule).status id).column = some out →
    out.length = (requests id).column.length
  ends : ∀ id, 2 * (requests id).column.length < schedule.countP (fun action => action.1 = id) →
    ((tokenize plaintextOf requests vault schedule).status id).remaining = 0
  /-- A request that fails its checks keeps their error and publishes no column. -/
  unstarted : ∀ id error, (requests id).check = .error error →
    (tokenize plaintextOf requests vault schedule).status id = .failed error
  /-- No column comes out of a run once a vault step of it has failed. -/
  refused : ∀ before id outcome after, schedule = before ++ (id, outcome) :: after →
    Status.fails (requests id).run (tokenize plaintextOf requests vault before).vault outcome
      ((tokenize plaintextOf requests vault before).status id) →
    ∃ op, (tokenize plaintextOf requests vault schedule).status id =
        .failed (vaultError (requests id).columnName op) ∧
      ((tokenize plaintextOf requests vault schedule).status id).column = none
  /-- The runs and the entries of the other namespaces could as well not be there. -/
  isolated : ∀ name (other : Vault), vault name = other name →
    SameIn (fun id => (requests id).run) name (tokenize plaintextOf requests vault schedule)
      (tokenize plaintextOf requests other
        (schedule.filter fun action => (requests action.1).run.namespaceName = name))

/-- Over one vault, however the steps of the runs are interleaved and wherever a vault step fails,
equal texts of a namespace get equal tokens, and what a run emits is what the vault has stored. -/
theorem tokens_consistent (plaintextOf : Value → String) (requests : Id → Request Value)
    (vault : Vault) (schedule : List (Action Id)) :
    TokenLaw plaintextOf requests vault schedule := by
  have always : ∀ schedule, Invariant plaintextOf (fun id => (requests id).run)
      (tokenize plaintextOf requests vault schedule) :=
    execute_invariant (initial_invariant vault)
  constructor
  case recorded =>
    intro id index value token atRow emitted
    exact (always schedule id).entered atRow emitted
  case consistent =>
    rintro before after rfl first second index₁ index₂ value₁ value₂ token₁ token₂
      names texts row₁ row₂ emitted₁ emitted₂
    have early := (always before first).entered row₁ emitted₁
    have late := (always (before ++ after) second).entered row₂ emitted₂
    rw [tokenize, execute_append] at late
    have kept := execute_grows plaintextOf (fun id => (requests id).run) _ after _ _ _ early
    rw [names, texts] at kept
    exact Option.some.inj (kept.symm.trans late)
  case nulls =>
    intro id index row entry atRow emitted
    have entered := (always schedule id).entered atRow emitted
    cases row <;> cases entry <;> simp_all [Entered]
  case complete =>
    intro id out published
    have kept := always schedule id
    cases status : (tokenize plaintextOf requests vault schedule).status id with
    | done column =>
        rw [status] at kept published
        cases published
        exact kept.length_eq.symm
    | pending rows column => rw [status] at published; cases published
    | proposing plaintext token rows column => rw [status] at published; cases published
    | failed error => rw [status] at published; cases published
  case ends =>
    intro id turns
    have bound := execute_remaining plaintextOf (fun id => (requests id).run)
      (initial requests vault) id schedule
    have start := remaining_start (requests id)
    change ((tokenize plaintextOf requests vault schedule).status id).remaining ≤
      (requests id).start.remaining - _ at bound
    omega
  case unstarted =>
    intro id error refused
    exact execute_failed schedule (Request.start_of_refused refused)
  case refused =>
    rintro before id outcome after rfl fails
    obtain ⟨op, failed⟩ := advance_fails plaintextOf fails
    have final : (tokenize plaintextOf requests vault
        (before ++ (id, outcome) :: after)).status id =
          .failed (vaultError (requests id).columnName op) := by
      rw [tokenize, execute_append]
      exact execute_failed after ((step_status_self _ (id, outcome)).trans failed)
    exact ⟨op, final, by rw [final]; rfl⟩
  case isolated =>
    intro name other same
    have start : SameIn (fun id => (requests id).run) name (initial requests vault)
      (initial requests other) := ⟨same, fun _ _ => rfl⟩
    exact start.execute schedule

end Schedules

end DecoyEngine.Execution.Tokenize
