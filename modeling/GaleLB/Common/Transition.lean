import Mathlib.Data.List.Basic
import Mathlib.Order.Basic

/-!
# Labelled runs of a transition relation

A run keeps the list of its events, most recent last, so that an invariant can speak
about the state and about the history that produced it. `Restrict` keeps only the
steps whose event meets a condition in the state before it. `EveryStep` states what
holds at each step along a list of events, which compares a property of every state
reached with a condition on the steps. Partial step functions are the executable case;
replaying an event list agrees with the relational runs.
-/

namespace Transition

variable {S E : Type*}

/-- A finite run from `s`, with its events in order of occurrence. -/
inductive Run (step : S → E → S → Prop) (s : S) : List E → S → Prop
  | nil : Run step s [] s
  | snoc {events : List E} {t u : S} {e : E} :
      Run step s events t → step t e u → Run step s (events ++ [e]) u

variable {step step' : S → E → S → Prop} {s t u : S} {e : E} {events events' : List E}

/-- One step is a run. -/
theorem Run.single (h : step s e t) : Run step s [e] t := by
  have hrun : Run step s ([] ++ [e]) t := Run.nil.snoc h
  exact hrun

/-- Runs compose, and their event lists concatenate. -/
theorem Run.append (h : Run step s events t) (h' : Run step t events' u) :
    Run step s (events ++ events') u := by
  induction h' with
  | nil => simpa using h
  | snoc _ hlast ih => simpa using ih.snoc hlast

/-- A step followed by a run. -/
theorem Run.cons (h : step s e t) (h' : Run step t events u) : Run step s (e :: events) u :=
  (Run.single h).append h'

/-- A run without events goes nowhere. -/
theorem Run.eq_of_nil (h : Run step s [] t) : t = s := by
  generalize hnil : ([] : List E) = events at h
  cases h with
  | nil => rfl
  | snoc => simp at hnil

/-- A run of consecutive events passes through a state between them. -/
theorem Run.split (h : Run step s (events ++ events') u) : ∃ t, Run step s events t ∧ Run step t events' u := by
  generalize hall : events ++ events' = all at h
  induction h generalizing events' with
  | nil =>
    obtain ⟨rfl, rfl⟩ := List.append_eq_nil_iff.mp hall
    exact ⟨s, Run.nil, Run.nil⟩
  | @snoc all t u e hrun hlast ih =>
    rcases List.eq_nil_or_concat events' with rfl | ⟨front, last, rfl⟩
    · rw [List.append_nil] at hall
      exact ⟨u, hall ▸ hrun.snoc hlast, Run.nil⟩
    · rw [List.concat_eq_append, ← List.append_assoc] at hall
      obtain ⟨hfront, hsame⟩ := List.append_inj' hall rfl
      cases hsame
      obtain ⟨m, hfirst, hsecond⟩ := ih hfront
      rw [List.concat_eq_append]
      exact ⟨m, hfirst, hsecond.snoc hlast⟩

/-- A run that is not empty begins with a step. -/
theorem Run.uncons (h : Run step s (e :: events) u) : ∃ t, step s e t ∧ Run step t events u := by
  obtain ⟨t, hfirst, hrest⟩ : ∃ t, Run step s [e] t ∧ Run step t events u := h.split
  refine ⟨t, ?_, hrest⟩
  generalize hone : [e] = one at hfirst
  cases hfirst with
  | nil => cases hone
  | @snoc front t' _ last hfront hlast =>
    have hparts : [] ++ [e] = front ++ [last] := hone
    obtain ⟨rfl, hsame⟩ := List.append_inj' hparts rfl
    cases hsame
    rwa [hfront.eq_of_nil] at hlast

/-- A run of a system projects to a run of a component, if the steps whose label the component does not
share leave it alone. -/
theorem Run.project {S' E' : Type*} {step' : S' → E' → S' → Prop} (state : S → S') (label : E → Option E')
    (hshared : ∀ s e t e', step s e t → label e = some e' → step' (state s) e' (state t))
    (hother : ∀ s e t, step s e t → label e = none → state t = state s) (h : Run step s events t) :
    Run step' (state s) (events.filterMap label) (state t) := by
  induction h with
  | nil => exact Run.nil
  | @snoc events t u e _ hlast ih =>
    rw [List.filterMap_append]
    cases hlabel : label e with
    | none =>
      rw [List.filterMap_cons_none hlabel, List.filterMap_nil, List.append_nil, hother _ _ _ hlast hlabel]
      exact ih
    | some e' =>
      rw [List.filterMap_cons_some hlabel, List.filterMap_nil]
      exact ih.snoc (hshared _ _ _ _ hlast hlabel)

/-- Runs of a smaller relation are runs of a larger one. -/
theorem Run.mono (h : Run step s events t) (hsub : ∀ s e t, step s e t → step' s e t) :
    Run step' s events t := by
  induction h with
  | nil => exact Run.nil
  | snoc _ hlast ih => exact ih.snoc (hsub _ _ _ hlast)

/-- The steps of a relation whose event meets a condition in the state before it. -/
def Restrict (step : S → E → S → Prop) (allowed : S → E → Prop) (s : S) (e : E) (t : S) : Prop :=
  step s e t ∧ allowed s e

/-- Forgetting the condition leaves an ordinary run. -/
theorem Run.unrestrict {allowed : S → E → Prop} (h : Run (Restrict step allowed) s events t) :
    Run step s events t :=
  h.mono fun _ _ _ hstep => hstep.1

/-- A run whose events all meet a condition is a run of the restricted relation. -/
theorem Run.restrict {P : E → Prop} (h : Run step s events t) (hall : ∀ e ∈ events, P e) :
    Run (Restrict step fun _ e => P e) s events t := by
  induction h with
  | nil => exact Run.nil
  | snoc _ hlast ih =>
    rw [List.forall_mem_append] at hall
    exact (ih hall.1).snoc ⟨hlast, hall.2 _ List.mem_cons_self⟩

/-- A run keeps to a condition, or one of its steps does not meet it. -/
theorem Run.restrict_or_exists {allowed : S → E → Prop} (h : Run step s events t) :
    Run (Restrict step allowed) s events t ∨
      ∃ before e u, before ++ [e] <+: events ∧ Run step s before u ∧ ¬ allowed u e := by
  induction h with
  | nil => exact Or.inl Run.nil
  | @snoc events t u e hrun hlast ih =>
    rcases ih with hkept | ⟨before, e', u', hinitial, hbefore, hnot⟩
    · by_cases hallowed : allowed t e
      · exact Or.inl (hkept.snoc ⟨hlast, hallowed⟩)
      · exact Or.inr ⟨events, e, t, List.prefix_rfl, hrun, hallowed⟩
    · exact Or.inr ⟨before, e', u', hinitial.trans (List.prefix_append _ _), hbefore, hnot⟩

/-- A condition on the history, the state before, the event and the state after holds at every step
that the runs along a list of events can take. -/
def EveryStep (step : S → E → S → Prop) (s : S) (C : List E → S → E → S → Prop) (events : List E) :
    Prop :=
  ∀ before t e u, before ++ [e] <+: events → Run step s before t → step t e u → C before t e u

/-- Conditions that agree at every reachable step hold along the same lists of events. -/
theorem everyStep_congr {C C' : List E → S → E → S → Prop}
    (h : ∀ before t e u, Run step s before t → step t e u → (C before t e u ↔ C' before t e u)) :
    EveryStep step s C events ↔ EveryStep step s C' events :=
  forall₄_congr fun before t e u => imp_congr_right fun _ => forall₂_congr fun hrun hlast =>
    h before t e u hrun hlast

/-- A property that every step meeting a condition keeps holds along a list of events at whose steps
the condition holds. -/
theorem EveryStep.invariant {P : List E → S → Prop} {C : List E → S → E → S → Prop} (hinit : P [] s)
    (hstep : ∀ before t e u, Run step s before t → step t e u → P before t → C before t e u →
      P (before ++ [e]) u) (h : EveryStep step s C events) (hrun : Run step s events' t)
    (hinitial : events' <+: events) : P events' t := by
  induction hrun with
  | nil => exact hinit
  | snoc hrun hlast ih =>
    have hbefore := ih ((List.prefix_append _ _).trans hinitial)
    exact hstep _ _ _ _ hrun hlast hbefore (h _ _ _ _ hinitial hrun hlast)

/-- A property of the state reached holds after every step exactly when a condition holds at every
step, if each step out of a state with the property keeps it exactly under the condition. -/
theorem everyStep_iff {P : List E → S → Prop} {C : List E → S → E → S → Prop} (hinit : P [] s)
    (hstep : ∀ before t e u, Run step s before t → step t e u → P before t →
      (P (before ++ [e]) u ↔ C before t e u)) :
    EveryStep step s (fun before _ e u => P (before ++ [e]) u) events ↔ EveryStep step s C events := by
  constructor
  · intro h before t e u hinitial hrun hlast
    have hbefore : P before t := h.invariant hinit (fun _ _ _ _ _ _ _ hafter => hafter) hrun
      ((List.prefix_append _ _).trans hinitial)
    exact (hstep before t e u hrun hlast hbefore).mp (h before t e u hinitial hrun hlast)
  · intro h before t e u hinitial hrun hlast
    have hbefore : P before t := h.invariant hinit
      (fun before t e u hrun hlast hbefore => (hstep before t e u hrun hlast hbefore).mpr) hrun
      ((List.prefix_append _ _).trans hinitial)
    exact (hstep before t e u hrun hlast hbefore).mpr (h before t e u hinitial hrun hlast)

/-- The relation computed by a partial step function. -/
def Computes (next : S → E → Option S) (s : S) (e : E) (t : S) : Prop :=
  next s e = some t

/-- Replay a list of events, stopping at the first one that is not enabled. -/
def replay (next : S → E → Option S) (s : S) : List E → Option S
  | [] => some s
  | e :: rest => (next s e).bind fun t => replay next t rest

/-- A successful replay is a run of the step function. -/
theorem run_of_replay {next : S → E → Option S} (events : List E) {s t : S}
    (h : replay next s events = some t) : Run (Computes next) s events t := by
  induction events generalizing s with
  | nil =>
    simp only [replay, Option.some.injEq] at h
    subst t
    exact Run.nil
  | cons e rest ih =>
    obtain ⟨u, hfirst, hrest⟩ := Option.bind_eq_some_iff.mp h
    exact Run.cons hfirst (ih hrest)

/-- A replay of one more event continues where the replay of the others ends. -/
theorem replay_concat {next : S → E → Option S} (events : List E) (e : E) (s : S) :
    replay next s (events ++ [e]) = (replay next s events).bind fun t => next t e := by
  induction events generalizing s with
  | nil => exact Option.bind_fun_some (next s e)
  | cons x rest ih =>
    rw [List.cons_append, replay, replay, Option.bind_assoc]
    congr 1
    funext t
    exact ih t

/-- A run of a step function is replayed. -/
theorem replay_of_run {next : S → E → Option S} {s t : S} (h : Run (Computes next) s events t) :
    replay next s events = some t := by
  induction h with
  | nil => rfl
  | snoc _ hlast ih =>
    rw [replay_concat, ih]
    exact hlast

end Transition
