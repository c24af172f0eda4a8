import GaleLB.Common.Transition
import Mathlib.Data.List.Induction

/-!
# Stores described by their last write

When every event either overwrites a key or leaves it alone, the content of a key
after a run is decided by the last event that touched it. `lastMatch` names that
event; its characterization splits the history into the part before it and a
remainder that no longer touches the key.
-/

namespace LastWrite

open Transition

variable {S E K V : Type*}

/-- The last event of a history that satisfies a test. -/
def lastMatch (p : E → Bool) (events : List E) : Option E :=
  (events.filter p).getLast?

@[simp] theorem lastMatch_nil (p : E → Bool) : lastMatch p [] = none := rfl

/-- A new event replaces the last match exactly when it satisfies the test. -/
@[simp] theorem lastMatch_concat (p : E → Bool) (events : List E) (e : E) :
    lastMatch p (events ++ [e]) = if p e then some e else lastMatch p events := by
  unfold lastMatch
  cases he : p e with
  | true => simp [List.filter_append, he]
  | false => rw [List.filter_append, List.filter_singleton, he]; simp

/-- The last match is an event of the history followed only by events that fail the test. -/
theorem lastMatch_eq_some_iff (p : E → Bool) (events : List E) (e : E) :
    lastMatch p events = some e ↔
      ∃ before after, events = before ++ e :: after ∧ p e = true ∧ ∀ x ∈ after, p x = false := by
  constructor
  · intro h
    induction events using List.reverseRecOn with
    | nil => simp at h
    | append_singleton events x ih =>
      rw [lastMatch_concat] at h
      cases hx : p x with
      | true =>
        have hxe : x = e := by simpa [hx] using h
        exact ⟨events, [], by rw [hxe], hxe ▸ hx, by simp⟩
      | false =>
        obtain ⟨before, after, rfl, he, hafter⟩ := ih (by simpa [hx] using h)
        refine ⟨before, after ++ [x], by simp, he, ?_⟩
        intro y hy
        rcases List.mem_append.mp hy with hy | hy
        · exact hafter y hy
        · rwa [List.mem_singleton.mp hy]
  · rintro ⟨before, after, rfl, he, hafter⟩
    have hnil : after.filter p = [] := List.filter_eq_nil_iff.mpr fun x hx => by simp [hafter x hx]
    rw [lastMatch, List.filter_append, List.filter_cons_of_pos he, hnil, List.getLast?_concat]

/-- The last match occurs in the history. -/
theorem mem_of_lastMatch {p : E → Bool} {events : List E} {e : E}
    (h : lastMatch p events = some e) : e ∈ events := by
  obtain ⟨before, after, rfl, -, -⟩ := (lastMatch_eq_some_iff p events e).mp h
  simp

/-- The last match satisfies the test. -/
theorem lastMatch_satisfies {p : E → Bool} {events : List E} {e : E}
    (h : lastMatch p events = some e) : p e = true := by
  obtain ⟨_, _, -, he, -⟩ := (lastMatch_eq_some_iff p events e).mp h
  exact he

/-- There is no last match exactly when every event fails the test. -/
theorem lastMatch_eq_none_iff (p : E → Bool) (events : List E) :
    lastMatch p events = none ↔ ∀ e ∈ events, p e = false := by
  rw [lastMatch, List.getLast?_eq_none_iff, List.filter_eq_nil_iff]
  simp

/-- A match in a later part of the history hides every earlier one. -/
theorem lastMatch_append_of_mem {p : E → Bool} (before : List E) {after : List E} {e : E}
    (hmem : e ∈ after) (he : p e = true) : lastMatch p (before ++ after) = lastMatch p after := by
  have hne : after.filter p ≠ [] := List.ne_nil_of_mem (List.mem_filter.mpr ⟨hmem, he⟩)
  rw [lastMatch, lastMatch, List.filter_append, List.getLast?_append_of_ne_nil _ hne]

/-- A last match that passes a narrower test is also the last match of the narrower test. -/
theorem lastMatch_of_imp {p q : E → Bool} {events : List E} {e : E}
    (h : lastMatch p events = some e) (hq : q e = true) (himp : ∀ x, q x = true → p x = true) :
    lastMatch q events = some e := by
  obtain ⟨before, after, rfl, -, hafter⟩ := (lastMatch_eq_some_iff p events e).mp h
  refine (lastMatch_eq_some_iff q _ e).mpr ⟨before, after, rfl, hq, ?_⟩
  intro x hx
  cases hqx : q x with
  | false => rfl
  | true => exact absurd (himp x hqx) (by simp [hafter x hx])

/-- After a run a key holds what the last event touching it wrote, or its initial content.

The effect of a step need only be known in states that satisfy an invariant `I`. -/
theorem lookup_run {step : S → E → S → Prop} {I : S → Prop} (lookup : S → K → Option V)
    (touches : K → E → Bool) (write : E → Option V)
    (hkeep : ∀ s e t, I s → step s e t → I t)
    (hstep : ∀ s e t, I s → step s e t → ∀ k,
      lookup t k = if touches k e then write e else lookup s k)
    {s t : S} {events : List E} (hs : I s) (hrun : Run step s events t) (k : K) :
    I t ∧ lookup t k = match lastMatch (touches k) events with
      | some e => write e
      | none => lookup s k := by
  induction hrun with
  | nil => exact ⟨hs, rfl⟩
  | @snoc events t u e _ hlast ih =>
    refine ⟨hkeep _ _ _ ih.1 hlast, ?_⟩
    rw [hstep _ _ _ ih.1 hlast k, lastMatch_concat]
    cases htouch : touches k e with
    | true => rfl
    | false => simpa using ih.2

end LastWrite
