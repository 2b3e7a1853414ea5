import DecoyEngine.Data.PyRepr
import Mathlib.Algebra.Ring.Nat
import Mathlib.Data.Int.Basic

namespace DecoyEngine.Generation.Budget

open DecoyEngine.Data (pyRepr)

/-! The memory ledger of a generation run (`_budget_ledger.py`). -/

/-- A held charge. -/
structure Reservation where
  stage : String
  nbytes : Nat
  released : Bool
deriving Repr, DecidableEq

/-- What ends a run: the declared failures, and everything else that can be raised. -/
inductive Failure where
  | budgetExceeded (code message : String)
  | unbounded (code message : String)
  | valueError (message : String)
  | foreign
deriving Repr, DecidableEq

/-- The ledger, with the reservations it has given out in this run. -/
structure Ledger where
  ceilingBytes : Option Nat
  chargedBytes : Int
  peakBytes : Int
  events : List (String × Nat)
  reservations : List Reservation
deriving Repr, DecidableEq

namespace Ledger

def bounded (ledger : Ledger) : Bool := ledger.ceilingBytes.isSome

def remainingBytes (ledger : Ledger) : Option Int :=
  ledger.ceilingBytes.map fun (ceiling : Nat) => (ceiling : Int) - ledger.chargedBytes

/-- `reserve`: the ledger after it and the place of the reservation. -/
def reserve (ledger : Ledger) (stage : String) (upperBoundBytes : Nat) :
    Except Failure (Ledger × Nat) :=
  match ledger.ceilingBytes with
  | some ceiling =>
      if (ceiling : Int) < ledger.chargedBytes + upperBoundBytes then
        .error (.budgetExceeded "generation_budget_exceeded"
          ("stage " ++ pyRepr stage ++ " needs " ++ toString upperBoundBytes ++
            " bytes but only " ++ toString (ceiling - ledger.chargedBytes) ++ " of " ++ toString ceiling ++ " remain."))
      else .ok (charge ledger)
  | none => .ok (charge ledger)
where
  charge (ledger : Ledger) : Ledger × Nat :=
    let charged := ledger.chargedBytes + upperBoundBytes
    ({ ledger with
        chargedBytes := charged
        peakBytes := max ledger.peakBytes charged
        events := ledger.events ++ [(stage, upperBoundBytes)]
        reservations := ledger.reservations ++ [⟨stage, upperBoundBytes, false⟩] },
      ledger.reservations.length)

/-- `Reservation.release`: a second release does nothing. -/
def release (ledger : Ledger) (id : Nat) : Ledger :=
  match ledger.reservations[id]? with
  | none => ledger
  | some reservation =>
      if reservation.released then ledger
      else
        { ledger with
          chargedBytes := ledger.chargedBytes - reservation.nbytes
          reservations := ledger.reservations.set id { reservation with released := true } }

/-- The charge of the reservations that are not released. -/
def outstanding : List Reservation → Nat
  | [] => 0
  | reservation :: rest =>
      (if reservation.released then 0 else reservation.nbytes) + outstanding rest

/-- A reservation that is still held. -/
def Held (ledger : Ledger) (id : Nat) : Prop :=
  ∃ reservation, ledger.reservations[id]? = some reservation ∧ reservation.released = false

def sizeOf (ledger : Ledger) (id : Nat) : Nat :=
  (ledger.reservations[id]?.map Reservation.nbytes).getD 0

/-- The charge of some reservations. -/
def sizes (ledger : Ledger) (ids : List Nat) : Nat := (ids.map ledger.sizeOf).sum

section Facts

variable {ledger next : Ledger} {stage : String} {nbytes id other : Nat} {ids : List Nat}

theorem outstanding_append (reservations : List Reservation) (reservation : Reservation) :
    outstanding (reservations ++ [reservation]) =
      outstanding reservations + (if reservation.released then 0 else reservation.nbytes) := by
  induction reservations with
  | nil => simp [outstanding]
  | cons first rest ih =>
      rw [List.cons_append, outstanding, outstanding, ih]
      omega

theorem outstanding_set {reservations : List Reservation} {reservation : Reservation}
    (found : reservations[id]? = some reservation) (held : reservation.released = false) :
    outstanding (reservations.set id { reservation with released := true }) +
      reservation.nbytes = outstanding reservations := by
  induction reservations generalizing id with
  | nil => cases found
  | cons first rest ih =>
      cases id with
      | zero =>
          cases found
          simp only [List.set_cons_zero, outstanding, held, if_true, Bool.false_eq_true, if_false]
          omega
      | succ id =>
          have later := ih found
          simp only [List.set_cons_succ, outstanding]
          omega

/-- What a reservation does, when it is not refused. -/
structure Charged (ledger next : Ledger) (stage : String) (nbytes id : Nat) : Prop where
  ceiling : next.ceilingBytes = ledger.ceilingBytes
  charged : next.chargedBytes = ledger.chargedBytes + nbytes
  place : id = ledger.reservations.length
  reservations : next.reservations = ledger.reservations ++ [⟨stage, nbytes, false⟩]

theorem charge_charged (ledger : Ledger) (stage : String) (nbytes : Nat) :
    Charged ledger (reserve.charge stage nbytes ledger).1 stage nbytes
      (reserve.charge stage nbytes ledger).2 :=
  ⟨rfl, rfl, rfl, rfl⟩

theorem reserve_charged (reserved : ledger.reserve stage nbytes = .ok (next, id)) :
    Charged ledger next stage nbytes id := by
  have charged := charge_charged ledger stage nbytes
  unfold reserve at reserved
  split at reserved
  · split at reserved
    · cases reserved
    · cases reserved
      exact charged
  · cases reserved
    exact charged

theorem reserve_fits
    (fits : ∀ ceiling, ledger.ceilingBytes = some ceiling →
      ledger.chargedBytes + nbytes ≤ ceiling) :
    ∃ next id, ledger.reserve stage nbytes = .ok (next, id) := by
  unfold reserve
  split
  · rename_i ceiling bounded
    rw [if_neg (Int.not_lt.mpr (fits ceiling bounded))]
    exact ⟨_, _, rfl⟩
  · exact ⟨_, _, rfl⟩

theorem Charged.held (charged : Charged ledger next stage nbytes id) : next.Held id := by
  refine ⟨⟨stage, nbytes, false⟩, ?_, rfl⟩
  rw [charged.reservations, charged.place, List.getElem?_concat_length]

theorem Charged.at (charged : Charged ledger next stage nbytes id)
    (bound : other < ledger.reservations.length) :
    next.reservations[other]? = ledger.reservations[other]? := by
  rw [charged.reservations, List.getElem?_append_left bound]

theorem Held.bound (held : ledger.Held id) : id < ledger.reservations.length := by
  obtain ⟨reservation, found, -⟩ := held
  exact (List.getElem?_eq_some_iff.mp found).1

theorem Charged.keeps (charged : Charged ledger next stage nbytes id) (held : ledger.Held other) :
    next.Held other := by
  have bound := held.bound
  obtain ⟨reservation, found, open'⟩ := held
  exact ⟨reservation, (charged.at bound).trans found, open'⟩

theorem Charged.other_of_held (charged : Charged ledger next stage nbytes id)
    (held : next.Held other) : other = id ∨ ledger.Held other := by
  obtain ⟨reservation, found, open'⟩ := held
  rw [charged.reservations] at found
  by_cases bound : other < ledger.reservations.length
  · rw [List.getElem?_append_left bound] at found
    exact .inr ⟨reservation, found, open'⟩
  · have last := (List.getElem?_eq_some_iff.mp found).1
    rw [List.length_append, List.length_singleton] at last
    rw [charged.place]
    omega

theorem Charged.sizes (charged : Charged ledger next stage nbytes id)
    (held : ∀ other ∈ ids, ledger.Held other) : next.sizes ids = ledger.sizes ids := by
  refine congrArg List.sum (List.map_congr_left fun other member => ?_)
  rw [sizeOf, sizeOf, charged.at (held other member).bound]

theorem Charged.size (charged : Charged ledger next stage nbytes id) :
    next.sizeOf id = nbytes := by
  rw [sizeOf, charged.reservations, charged.place, List.getElem?_concat_length]
  rfl

theorem Charged.outstanding (charged : Charged ledger next stage nbytes id) :
    Ledger.outstanding next.reservations = Ledger.outstanding ledger.reservations + nbytes := by
  rw [charged.reservations, outstanding_append]
  rfl

/-- What the release of a held reservation does. -/
structure Freed (ledger : Ledger) (id : Nat) : Prop where
  ceiling : (ledger.release id).ceilingBytes = ledger.ceilingBytes
  charged : (ledger.release id).chargedBytes + ledger.sizeOf id = ledger.chargedBytes
  outstanding : outstanding (ledger.release id).reservations + ledger.sizeOf id =
    outstanding ledger.reservations
  self : ¬(ledger.release id).Held id
  others : ∀ other, other ≠ id → ((ledger.release id).Held other ↔ ledger.Held other)
  sizes : ∀ other, (ledger.release id).sizeOf other = ledger.sizeOf other

theorem release_freed (held : ledger.Held id) : Freed ledger id := by
  obtain ⟨reservation, found, open'⟩ := held
  have released : ledger.release id =
      { ledger with
        chargedBytes := ledger.chargedBytes - reservation.nbytes
        reservations := ledger.reservations.set id { reservation with released := true } } := by
    rw [release, found]
    dsimp only
    rw [open']
    rfl
  have size : ledger.sizeOf id = reservation.nbytes := by
    rw [sizeOf, found]
    rfl
  have bound := (List.getElem?_eq_some_iff.mp found).1
  constructor
  · rw [released]
  · rw [released, size]
    exact Int.sub_add_cancel _ _
  · rw [released, size]
    exact outstanding_set found open'
  · rw [released]
    rintro ⟨again, place, free⟩
    rw [List.getElem?_set_self bound] at place
    cases place
    cases free
  · intro other differ
    rw [released, Held, Held, List.getElem?_set_ne (Ne.symm differ)]
  · intro other
    rw [released, sizeOf, sizeOf]
    by_cases same : other = id
    · subst same
      rw [List.getElem?_set_self bound, found]
      rfl
    · rw [List.getElem?_set_ne (Ne.symm same)]

theorem Freed.keeps_sizes (freed : Freed ledger id) (ids : List Nat) :
    (ledger.release id).sizes ids = ledger.sizes ids :=
  congrArg List.sum (List.map_congr_left fun other _ => freed.sizes other)

end Facts

end Ledger

end DecoyEngine.Generation.Budget
