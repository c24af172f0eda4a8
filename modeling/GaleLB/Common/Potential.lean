import GaleLB.Common.Transition
import Mathlib.Algebra.Ring.Nat

/-!
# Runs that pay for their steps

A potential is a number that every step lowers, except that some events refill it by a
bounded amount. The length of a run is then bounded by the potential of its first state
and by the refills along the way. Events that refill nothing can only be taken finitely
often in a row: from every state they lead to one in which none of them is enabled.

The steps need only be paid for in states that satisfy an invariant.
-/

namespace Transition

variable {S E : Type*}

/-- Every step out of a state with an invariant keeps the invariant and costs one unit of the
potential, up to what its event refills. -/
structure Pays (step : S → E → S → Prop) (I : S → Prop) (potential : S → ℕ) (refill : E → ℕ) : Prop where
  keeps : ∀ s e t, I s → step s e t → I t
  costs : ∀ s e t, I s → step s e t → potential t + 1 ≤ potential s + refill e

/-- No event that meets a condition is enabled. -/
def Stuck (step : S → E → S → Prop) (allowed : E → Prop) (s : S) : Prop :=
  ∀ e t, allowed e → ¬ step s e t

variable {step : S → E → S → Prop} {I : S → Prop} {potential : S → ℕ} {refill : E → ℕ} {s t : S}
  {events : List E}

/-- A run keeps the invariant. -/
theorem Pays.run (h : Pays step I potential refill) (hs : I s) (hrun : Run step s events t) : I t := by
  induction hrun with
  | nil => exact hs
  | snoc _ hlast ih => exact h.keeps _ _ _ ih hlast

/-- A run is no longer than its first potential and its refills allow. -/
theorem Pays.length_le (h : Pays step I potential refill) (hs : I s) (hrun : Run step s events t) :
    events.length + potential t ≤ potential s + (events.map refill).sum := by
  induction hrun with
  | nil => simp
  | @snoc events t u e hrun hlast ih =>
    have hcost := h.costs t e u (h.run hs hrun) hlast
    rw [List.length_append, List.length_singleton, List.map_append, List.sum_append, List.map_singleton,
      List.sum_singleton]
    omega

/-- Without refills a run is no longer than its first potential. -/
theorem Pays.length_le_potential (h : Pays step I potential fun _ => 0) (hs : I s) (hrun : Run step s events t) :
    events.length ≤ potential s := by
  have hlength := h.length_le hs hrun
  have hrefill : (events.map fun _ => 0).sum = 0 := by simp
  omega

/-- Events that refill nothing can be taken until none of them is enabled. -/
theorem Pays.exists_stuck (h : Pays step I potential refill) {allowed : E → Prop}
    (hallowed : ∀ e, allowed e → refill e = 0) (hs : I s) :
    ∃ events t, Run step s events t ∧ (∀ e ∈ events, allowed e) ∧ Stuck step allowed t := by
  induction hn : potential s using Nat.strongRecOn generalizing s with
  | ind n ih =>
    by_cases hstuck : Stuck step allowed s
    · exact ⟨[], s, Run.nil, nofun, hstuck⟩
    · unfold Stuck at hstuck
      push Not at hstuck
      obtain ⟨e, t, he, hstep⟩ := hstuck
      have hcost := h.costs s e t hs hstep
      rw [hallowed e he] at hcost
      obtain ⟨events, u, hrun, hevents, hend⟩ := ih (potential t) (by omega) (h.keeps s e t hs hstep) rfl
      exact ⟨e :: events, u, Run.cons hstep hrun, List.forall_mem_cons.mpr ⟨he, hevents⟩, hend⟩

end Transition
