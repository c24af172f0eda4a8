import GaleLB.Common.Transition

/-!
# Histories with times

Every event of a history carries the time at which it happens. A system that never goes
back in time produces histories whose times are in order. Timing assumptions, such as a
bound on a delay, are conditions on every event and the events before it.
-/

namespace TimedHistory

open Transition

variable {A E S : Type*}

/-- An action with the time at which it happens. -/
structure Stamped (A : Type*) where
  time : ℕ
  action : A
deriving DecidableEq, Repr

/-- A condition holds at every event of a history, given the events before it. -/
def AtEvery (C : List E → E → Prop) (events : List E) : Prop :=
  ∀ before e, before ++ [e] <+: events → C before e

/-- The condition holds at the last event and at all the others. -/
theorem atEvery_concat {C : List E → E → Prop} {events : List E} {e : E} :
    AtEvery C (events ++ [e]) ↔ AtEvery C events ∧ C events e := by
  constructor
  · intro h
    exact ⟨fun before x hinitial => h before x (hinitial.trans (List.prefix_append _ _)),
      h events e List.prefix_rfl⟩
  · rintro ⟨hevents, hlast⟩ before x hinitial
    rcases List.prefix_concat_iff.mp hinitial with heq | hinitial
    · obtain ⟨hbefore, hx⟩ := List.append_inj' heq rfl
      cases hx
      exact hbefore ▸ hlast
    · exact hevents before x hinitial

/-- The condition holds at every event exactly when it holds at every index. -/
theorem atEvery_iff_index {C : List E → E → Prop} {events : List E} :
    AtEvery C events ↔ ∀ i : Fin events.length, C (events.take i) (events.get i) := by
  constructor
  · intro h i
    apply h
    rw [List.get_eq_getElem, List.take_append_getElem i.isLt]
    exact List.take_prefix _ _
  · rintro h before e ⟨rest, rfl⟩
    have hindex := h ⟨before.length, by simp⟩
    simpa using hindex

instance {C : List E → E → Prop} [∀ before e, Decidable (C before e)] (events : List E) :
    Decidable (AtEvery C events) :=
  decidable_of_iff _ atEvery_iff_index.symm

/-- A system in which time does not go back. -/
structure Forward (step : S → Stamped A → S → Prop) (now : S → ℕ) : Prop where
  le : ∀ s e t, step s e t → now s ≤ e.time
  now_eq : ∀ s e t, step s e t → now t = e.time

variable {step : S → Stamped A → S → Prop} {now : S → ℕ} {events : List (Stamped A)} {s t : S}

/-- Nothing in a history is later than the state that it reaches. -/
theorem Forward.time_le (h : Forward step now) (hrun : Run step s events t) :
    ∀ e ∈ events, e.time ≤ now t := by
  induction hrun with
  | nil => exact nofun
  | snoc _ hlast ih =>
    rw [List.forall_mem_append, h.now_eq _ _ _ hlast]
    exact ⟨fun e he => Nat.le_trans (ih e he) (h.le _ _ _ hlast),
      fun e he => (List.mem_singleton.mp he) ▸ Nat.le_refl _⟩

/-- The times of a history are in order. -/
theorem Forward.atEvery (h : Forward step now) (hrun : Run step s events t) :
    AtEvery (fun before e => ∀ earlier ∈ before, earlier.time ≤ e.time) events := by
  induction hrun with
  | nil =>
    intro before e hinitial
    exact absurd (List.prefix_nil.mp hinitial) (by simp)
  | snoc hrun hlast ih =>
    rw [atEvery_concat]
    exact ⟨ih, fun earlier hmem => Nat.le_trans (h.time_le hrun earlier hmem) (h.le _ _ _ hlast)⟩

end TimedHistory
