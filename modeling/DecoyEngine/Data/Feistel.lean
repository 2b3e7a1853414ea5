import Mathlib.Data.List.Basic

namespace DecoyEngine.Data

/-! Unbalanced Feistel networks over an arbitrary round function.

The half replaced in round `round` ranges over `Half round`; two rounds later the
same half is replaced again, so the domains alternate.  `mix` and `unmix` only
need to cancel inside that domain. -/

structure Feistel (α : Type u) (β : Type v) where
  Half : Nat → α → Prop
  mix : Nat → α → β → α
  unmix : Nat → α → β → α
  alternates : ∀ {round half}, Half (round + 2) half ↔ Half round half
  mix_half : ∀ {round half} (pad : β), Half round half → Half round (mix round half pad)
  unmix_half : ∀ {round half} (pad : β), Half round half → Half round (unmix round half pad)
  unmix_mix : ∀ {round half} (pad : β), Half round half →
    unmix round (mix round half pad) pad = half
  mix_unmix : ∀ {round half} (pad : β), Half round half →
    mix round (unmix round half pad) pad = half

namespace Feistel

variable {α : Type u} {β : Type v} (network : Feistel α β) (pad : Nat → α → β)

/-- The halves on entry to round `round`: the one to be replaced comes first. -/
def Ready (round : Nat) (halves : α × α) : Prop :=
  network.Half round halves.1 ∧ network.Half (round + 1) halves.2

def forward (round : Nat) (halves : α × α) : α × α :=
  (halves.2, network.mix round halves.1 (pad round halves.2))

def backward (round : Nat) (halves : α × α) : α × α :=
  (network.unmix round halves.2 (pad round halves.1), halves.1)

/-- Rounds `0, 1, ..., count - 1` in this order. -/
def forwardRounds : Nat → α × α → α × α
  | 0, halves => halves
  | count + 1, halves => network.forward pad count (forwardRounds count halves)

/-- Rounds `count - 1, ..., 1, 0` in this order. -/
def backwardRounds : Nat → α × α → α × α
  | 0, halves => halves
  | count + 1, halves => backwardRounds count (network.backward pad count halves)

variable {network}

theorem forward_ready {round : Nat} {halves : α × α} (ready : network.Ready round halves) :
    network.Ready (round + 1) (network.forward pad round halves) :=
  ⟨ready.2, network.alternates.mpr (network.mix_half _ ready.1)⟩

theorem backward_ready {round : Nat} {halves : α × α} (ready : network.Ready (round + 1) halves) :
    network.Ready round (network.backward pad round halves) :=
  ⟨network.unmix_half _ (network.alternates.mp ready.2), ready.1⟩

theorem backward_forward {round : Nat} {halves : α × α} (ready : network.Ready round halves) :
    network.backward pad round (network.forward pad round halves) = halves := by
  obtain ⟨left, right⟩ := halves
  simp only [forward, backward]
  rw [network.unmix_mix _ ready.1]

theorem forward_backward {round : Nat} {halves : α × α}
    (ready : network.Ready (round + 1) halves) :
    network.forward pad round (network.backward pad round halves) = halves := by
  obtain ⟨left, right⟩ := halves
  simp only [forward, backward]
  rw [network.mix_unmix _ (network.alternates.mp ready.2)]

theorem forwardRounds_ready {halves : α × α} (count : Nat) (ready : network.Ready 0 halves) :
    network.Ready count (network.forwardRounds pad count halves) := by
  induction count with
  | zero => exact ready
  | succ count ih => exact forward_ready pad ih

theorem backwardRounds_ready {halves : α × α} (count : Nat)
    (ready : network.Ready count halves) :
    network.Ready 0 (network.backwardRounds pad count halves) := by
  induction count generalizing halves with
  | zero => exact ready
  | succ count ih => exact ih (backward_ready pad ready)

theorem backwardRounds_forwardRounds {halves : α × α} (count : Nat)
    (ready : network.Ready 0 halves) :
    network.backwardRounds pad count (network.forwardRounds pad count halves) = halves := by
  induction count with
  | zero => rfl
  | succ count ih =>
      rw [forwardRounds, backwardRounds,
        backward_forward pad (forwardRounds_ready pad count ready), ih]

theorem forwardRounds_backwardRounds {halves : α × α} (count : Nat)
    (ready : network.Ready count halves) :
    network.forwardRounds pad count (network.backwardRounds pad count halves) = halves := by
  induction count generalizing halves with
  | zero => rfl
  | succ count ih =>
      rw [backwardRounds, forwardRounds, ih (backward_ready pad ready),
        forward_backward pad ready]

end Feistel

variable {σ : Type u} {ε : Type v} {step : Nat → σ → Except ε σ} {next : Nat → σ → σ}

theorem foldlM_range_ok {Ready : Nat → σ → Prop} (rounds : Nat → σ → σ)
    (zero : ∀ state, rounds 0 state = state)
    (succ : ∀ count state, rounds (count + 1) state = next count (rounds count state))
    (total : ∀ round state, Ready round state →
      step round state = .ok (next round state) ∧ Ready (round + 1) (next round state))
    (count : Nat) {state : σ} (ready : Ready 0 state) :
    (List.range count).foldlM (fun state round => step round state) state =
        .ok (rounds count state) ∧ Ready count (rounds count state) := by
  induction count with
  | zero => exact ⟨by simp [zero]; rfl, by simpa [zero] using ready⟩
  | succ count ih =>
      obtain ⟨run, reached⟩ := ih
      obtain ⟨stepped, advanced⟩ := total count _ reached
      rw [List.range_succ, List.foldlM_append, run, succ]
      exact ⟨by simp [stepped, bind, Except.bind, pure, Except.pure], advanced⟩

theorem foldlM_range_reverse_ok {Ready : Nat → σ → Prop} (rounds : Nat → σ → σ)
    (zero : ∀ state, rounds 0 state = state)
    (succ : ∀ count state, rounds (count + 1) state = rounds count (next count state))
    (total : ∀ round state, Ready (round + 1) state →
      step round state = .ok (next round state) ∧ Ready round (next round state))
    (count : Nat) {state : σ} (ready : Ready count state) :
    (List.range count).reverse.foldlM (fun state round => step round state) state =
        .ok (rounds count state) ∧ Ready 0 (rounds count state) := by
  induction count generalizing state with
  | zero => exact ⟨by simp [zero]; rfl, by simpa [zero] using ready⟩
  | succ count ih =>
      obtain ⟨stepped, advanced⟩ := total count state ready
      rw [List.range_succ, List.reverse_append, succ]
      simpa [stepped, bind, Except.bind] using ih advanced

end DecoyEngine.Data
