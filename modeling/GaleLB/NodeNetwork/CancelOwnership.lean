import GaleLB.NodeNetwork.Dispatcher

/-!
# Whose context `Stop` cancels

`Start` reports the dispatcher as running under the lock, and stores its context later and
without the lock. In between, `Stop` passes its check and finds no context, or that of an
earlier call. The deferred function of an earlier call can also let the next call pass the
guard in between; of two calls that are about to store their contexts, the one that passed
the guard first may store last.

As long as no `Stop` passes its check and no `Start` passes its guard while a call is
between its guard and its assignment, `Stop` cancels the context of the call that last set
the status to running. Neither half of the condition can be dropped.
-/

namespace GaleLB.NodeNetwork

open Transition

/-- The call that an event lets pass the guard of `Start`, which sets the status to running. -/
def Dispatcher.passing (d : Dispatcher) : Event → Option CallId
  | .startGuard call => if d.status = .stopped then some call else none
  | _ => none

/-- The call that last set the status to running while events are replayed. -/
def lastPassed (d : Dispatcher) : List Event → Option CallId
  | [] => none
  | e :: rest => (d.step e).bind fun d' => (lastPassed d' rest).or (d.passing e)

/-- The call whose context an event stores. -/
def Event.assigned : Event → Option CallId
  | .assignCtx call _ => some call
  | _ => none

/-- A `Stop` call passes its check, or a `Start` call passes its guard. -/
def Dispatcher.PassesStatus (d : Dispatcher) : Event → Prop
  | .stop => d.status = .running
  | .startGuard _ => d.status = .stopped
  | _ => False

/-- An event passes a check of the status only while no call is between its guard and its assignment. -/
def Dispatcher.Orderly (d : Dispatcher) (e : Event) : Prop :=
  d.PassesStatus e → ∀ call, d.starts call ≠ .assigning

/-- A `Stop` call that passes its check finds the context of the call that last set the status to running. -/
def CancelsStarter (targets : Targets) (before : List Event) (d : Dispatcher) : Prop :=
  d.status = .running → ∃ call, lastPassed (newDispatcher targets) before = some call ∧ d.generalCtx = some call

/-- A call that passes the guard now is the last one, and otherwise it is the one before. -/
theorem lastPassed_concat {d t u : Dispatcher} {events : List Event} {e : Event}
    (hrun : Run Dispatcher.Step d events t) (hstep : Dispatcher.Step t e u) :
    lastPassed d (events ++ [e]) = (t.passing e).or (lastPassed d events) := by
  have hreplay : replay Dispatcher.step d events = some t := replay_of_run hrun
  clear hrun
  induction events generalizing d with
  | nil =>
    obtain rfl : d = t := Option.some.inj hreplay
    have hnext : d.step e = some u := hstep
    rw [List.nil_append, lastPassed.eq_2, hnext]
    exact Option.or_none.symm
  | cons x rest ih =>
    obtain ⟨d', hfirst, hrest⟩ := Option.bind_eq_some_iff.mp hreplay
    rw [List.cons_append, lastPassed, lastPassed, hfirst, Option.bind_some, Option.bind_some, ih hrest,
      Option.or_assoc]

section

variable {d d' : Dispatcher} {e : Event}

/-- The status becomes running only when a call passes the guard. -/
theorem Dispatcher.Step.running (h : Dispatcher.Step d e d') (hrunning : d'.status = .running) :
    d.status = .running ∨ d.passing e ≠ none := by
  cases h.cases with
  | @passed call hpc hstatus =>
    right
    have hpassing : d.passing (.startGuard call) = some call := if_pos hstatus
    rw [hpassing]
    nofun
  | finish | stopped => cases hrunning
  | _ => exact Or.inl hrunning

/-- An event stores the context of its call or leaves the stored one. -/
theorem Dispatcher.Step.generalCtx (h : Dispatcher.Step d e d') :
    d'.generalCtx = if e.assigned.isSome then e.assigned else d.generalCtx := by
  cases h.cases <;> rfl

/-- Only a call that is about to store its context does. -/
theorem Dispatcher.Step.of_assigned (h : Dispatcher.Step d e d') {call : CallId}
    (hassigned : e.assigned = some call) : d.starts call = .assigning := by
  cases h.cases with
  | assignCtx hpc horder =>
    cases hassigned
    exact hpc
  | _ => cases hassigned

/-- A call that passes the guard passes a check of the status, and stores nothing. -/
theorem Dispatcher.passesStatus_of_passing {call : CallId} (h : d.passing e = some call) :
    d.PassesStatus e ∧ e.assigned = none := by
  cases e with
  | startGuard call' =>
    change (if d.status = .stopped then some call' else none) = some call at h
    exact ⟨(Option.ite_none_right_eq_some.mp h).1, rfl⟩
  | _ => cases h

/-- A call that moves on from and to elsewhere leaves the calls that are about to store their contexts. -/
theorem assigning_of_update {moved : CallId} {pc : StartPc} (hstarts : d'.starts = Function.update d.starts moved pc)
    (hbefore : d.starts moved ≠ .assigning) (hafter : pc ≠ .assigning) (call : CallId) :
    d'.starts call = .assigning ↔ d.starts call = .assigning := by
  rw [hstarts, Function.update_apply]
  split
  · rename_i hsame
    rw [hsame]
    exact iff_of_false hafter hbefore
  · exact Iff.rfl

/-- The calls about to store their contexts after an event are those before it and the one that it lets
pass the guard, without the one that it lets store its context. -/
theorem Dispatcher.Step.assigning_iff (h : Dispatcher.Step d e d') (call : CallId) :
    d'.starts call = .assigning ↔
      (d.passing e = some call ∨ d.starts call = .assigning) ∧ e.assigned ≠ some call := by
  have hother (hpassing : d.passing e = none) (hassigned : e.assigned = none)
      (hsame : d'.starts call = .assigning ↔ d.starts call = .assigning) :
      d'.starts call = .assigning ↔
        (d.passing e = some call ∨ d.starts call = .assigning) ∧ e.assigned ≠ some call := by
    simp [hpassing, hassigned, hsame]
  cases h.cases with
  | @refused moved hpc hstatus =>
    have hpassing : d.passing (.startGuard moved) = none := if_neg (by rw [hstatus]; nofun)
    exact hother hpassing rfl (assigning_of_update rfl (by rw [hpc]; nofun) (by nofun) call)
  | @passed moved hpc hstatus =>
    have hpassing : d.passing (.startGuard moved) = some moved := if_pos hstatus
    rw [hpassing, Dispatcher.passGuard_starts, Function.update_apply]
    by_cases hsame : call = moved
    · simp [hsame, Event.assigned]
    · simp [hsame, Ne.symm hsame, Event.assigned]
  | @assignCtx moved order hpc horder =>
    rw [Dispatcher.assign_starts, Function.update_apply]
    by_cases hsame : call = moved
    · simp [hsame, Event.assigned]
    · simp [hsame, Ne.symm hsame, Event.assigned, Dispatcher.passing]
  | launched hpc | launchFailed hpc | wait hpc | finish hpc =>
    exact hother rfl rfl (assigning_of_update rfl (by rw [hpc]; nofun) (by nofun) call)
  | stopped | stopRefused | checkPassed | checkExited | report => exact hother rfl rfl Iff.rfl

end

/-- A call about to store its context is the last that passed the guard; if there is none, the stored
context is that of the last one. -/
structure Owned (targets : Targets) (events : List Event) (d : Dispatcher) : Prop where
  assigning : ∀ call, d.starts call = .assigning → lastPassed (newDispatcher targets) events = some call
  stored : (∀ call, d.starts call ≠ .assigning) → d.generalCtx = lastPassed (newDispatcher targets) events

variable {targets : Targets} {before events : List Event} {d d' : Dispatcher} {e : Event}

/-- An orderly step keeps the ownership. -/
theorem Owned.step (h : Owned targets before d) (hrun : Run Dispatcher.Step (newDispatcher targets) before d)
    (hlast : Dispatcher.Step d e d') (horderly : d.Orderly e) : Owned targets (before ++ [e]) d' := by
  have hconcat := lastPassed_concat hrun hlast
  constructor
  · intro call hassigning
    rw [hconcat]
    obtain ⟨hpassing | hbefore, -⟩ := (hlast.assigning_iff call).mp hassigning
    · rw [hpassing, Option.some_or]
    · -- No other call can pass the guard in an orderly step, since this one is about to store its context.
      cases hpassing : d.passing e with
      | some other => exact absurd hbefore (horderly (Dispatcher.passesStatus_of_passing hpassing).1 call)
      | none => exact h.assigning call hbefore
  · intro hnone
    rw [hconcat, hlast.generalCtx]
    cases hpassing : d.passing e with
    | some other =>
      refine absurd ((hlast.assigning_iff other).mpr ⟨Or.inl hpassing, ?_⟩) (hnone other)
      rw [(Dispatcher.passesStatus_of_passing hpassing).2]
      nofun
    | none =>
      cases hassigned : e.assigned with
      | some call => exact (h.assigning call (hlast.of_assigned hassigned)).symm
      | none =>
        refine h.stored fun call hassigning => hnone call ((hlast.assigning_iff call).mpr ⟨Or.inr hassigning, ?_⟩)
        rw [hassigned]
        nofun

/-- Every run of orderly steps keeps the ownership. -/
theorem run_owned (hrun : Run (Restrict Dispatcher.Step Dispatcher.Orderly) (newDispatcher targets) events d) :
    Owned targets events d := by
  induction hrun with
  | nil => exact ⟨nofun, fun _ => rfl⟩
  | snoc hrun hlast ih => exact ih.step hrun.unrestrict hlast.1 hlast.2

/-- A running dispatcher was set to running by some call. -/
theorem run_lastPassed_ne_none (hrun : Run Dispatcher.Step (newDispatcher targets) events d)
    (hrunning : d.status = .running) : lastPassed (newDispatcher targets) events ≠ none := by
  induction hrun with
  | nil => cases hrunning
  | snoc hrun hlast ih =>
    rw [lastPassed_concat hrun hlast, ne_eq, Option.or_eq_none_iff]
    rintro ⟨hpassing, hbefore⟩
    rcases hlast.running hrunning with hrunning' | hpasses
    · exact ih hrunning' hbefore
    · exact hpasses hpassing

/-- A `Stop` call that passes its check while a call is about to store its context finds another context
or none, if the steps so far are orderly. -/
theorem Owned.not_cancelsStarter (h : Owned targets before d)
    (hrun : Run Dispatcher.Step (newDispatcher targets) before d) (hrunning : d.status = .running)
    {call : CallId} (hassigning : d.starts call = .assigning) : ¬ CancelsStarter targets before d := by
  intro hcancels
  obtain ⟨other, hpassed, hctx⟩ := hcancels hrunning
  obtain rfl : call = other := Option.some.inj ((h.assigning call hassigning).symm.trans hpassed)
  exact ((run_inv hrun).freshCtx call (Or.inr hassigning)).1 hctx

/-- The state after a call has passed the guard and stored its context, and then a call that passed the guard
before has stored its own. -/
def Dispatcher.overtaken (d : Dispatcher) (first second : CallId) : Dispatcher :=
  ((d.passGuard second).assign second d.targets.entries).assign first d.targets.entries

/-- Two calls that are about to store their contexts can do so in the other order. -/
theorem Dispatcher.exists_overtaken {first second : CallId} (hfirst : d.starts first = .assigning)
    (hne : first ≠ second) :
    ∃ u, Dispatcher.Step (d.passGuard second) (.assignCtx second d.targets.entries) u ∧
      Dispatcher.Step u (.assignCtx first d.targets.entries) (d.overtaken first second) := by
  have hwaits : ((d.passGuard second).assign second d.targets.entries).starts first = .assigning := by
    rw [Dispatcher.assign_starts_of_ne _ _ hne, Dispatcher.passGuard_starts, Function.update_of_ne hne]
    exact hfirst
  refine ⟨_, (Dispatcher.StepCase.assignCtx (Function.update_self _ _ _) (List.Perm.refl _)).step, ?_⟩
  exact (Dispatcher.StepCase.assignCtx hwaits (List.Perm.refl _)).step

/-- When a call passes the guard while another is about to store its context, they can store their
contexts in the other order, and then a `Stop` call finds the context of the first. -/
theorem Owned.exists_not_cancelsStarter (h : Owned targets before d)
    (hrun : Run Dispatcher.Step (newDispatcher targets) before d) {first second : CallId}
    (hfirst : d.starts first = .assigning) (hidle : d.starts second = .idle) (hstopped : d.status = .stopped) :
    ∃ later u, Run (Restrict Dispatcher.Step Dispatcher.Orderly) (d.passGuard second) later u ∧
      u.Orderly .stop ∧ ¬ CancelsStarter targets (before ++ .startGuard second :: later) u := by
  have hne : first ≠ second := by
    rintro rfl
    rw [hfirst] at hidle
    cases hidle
  have hpassing : d.passing (.startGuard second) = some second := if_pos hstopped
  have hpass : Dispatcher.Step d (.startGuard second) (d.passGuard second) :=
    (Dispatcher.StepCase.passed hidle hstopped).step
  obtain ⟨u, hassign, hovertake⟩ := Dispatcher.exists_overtaken hfirst hne
  refine ⟨[.assignCtx second d.targets.entries, .assignCtx first d.targets.entries], d.overtaken first second,
    Run.cons ⟨hassign, nofun⟩ (Run.single ⟨hovertake, nofun⟩), ?_, ?_⟩
  · intro _ call hassigning
    rw [hovertake.assigning_iff, hassign.assigning_iff, hpass.assigning_iff] at hassigning
    obtain ⟨hnone | ⟨hnone | ⟨hpasses | hwaits, -⟩, hsecond⟩, hfirst'⟩ := hassigning
    · cases hnone
    · cases hnone
    · exact hsecond (hpassing.symm.trans hpasses)
    · exact hfirst' ((h.assigning first hfirst).symm.trans (h.assigning call hwaits))
  · intro hcancels
    obtain ⟨call, hpassed, hctx⟩ := hcancels rfl
    have hlast : lastPassed (newDispatcher targets) (before ++ [.startGuard second] ++
        [.assignCtx second d.targets.entries] ++ [.assignCtx first d.targets.entries]) = some second := by
      rw [lastPassed_concat ((hrun.snoc hpass).snoc hassign) hovertake, lastPassed_concat (hrun.snoc hpass) hassign,
        lastPassed_concat hrun hpass, hpassing]
      rfl
    rw [List.append_assoc, List.append_assoc] at hlast
    have hsame : first = call := Option.some.inj hctx
    exact hne (hsame.trans (Option.some.inj (hpassed.symm.trans hlast)))

/-- In every run in which no `Stop` passes its check and no `Start` passes its guard while a call is
between its guard and its assignment, a `Stop` that passes its check finds the context of the call that
last set the status to running. A `Stop` that breaks the condition in such a run finds another context
or none, and a `Start` that breaks it can be followed, under the condition, by a `Stop` that does. -/
theorem stop_cancels_starter (targets : Targets) :
    (∀ before d d', Run (Restrict Dispatcher.Step Dispatcher.Orderly) (newDispatcher targets) before d →
      Restrict Dispatcher.Step Dispatcher.Orderly d .stop d' → CancelsStarter targets before d) ∧
    ∀ before d e d', Run (Restrict Dispatcher.Step Dispatcher.Orderly) (newDispatcher targets) before d →
      Dispatcher.Step d e d' → ¬ d.Orderly e → (e = .stop ∧ ¬ CancelsStarter targets before d) ∨
        ∃ later u, Run (Restrict Dispatcher.Step Dispatcher.Orderly) d' later u ∧ u.Orderly .stop ∧
          ¬ CancelsStarter targets (before ++ e :: later) u := by
  constructor
  · intro before d d' hrun hlast hrunning
    have hctx := (run_owned hrun).stored (hlast.2 hrunning)
    obtain ⟨call, hcall⟩ := Option.ne_none_iff_exists'.mp (run_lastPassed_ne_none hrun.unrestrict hrunning)
    exact ⟨call, hcall, hctx.trans hcall⟩
  · intro before d e d' hrun hlast hnot
    unfold Dispatcher.Orderly at hnot
    push Not at hnot
    obtain ⟨hpasses, call, hassigning⟩ := hnot
    cases hlast.cases with
    | stopped | stopRefused =>
      exact Or.inl ⟨rfl, (run_owned hrun).not_cancelsStarter hrun.unrestrict hpasses hassigning⟩
    | passed hpc hstatus =>
      exact Or.inr ((run_owned hrun).exists_not_cancelsStarter hrun.unrestrict hassigning hpc hstatus)
    | refused hpc hstatus => cases hstatus.symm.trans hpasses
    | _ => cases hpasses

/-- A `Stop` call between the guard of the first `Start` call and its assignment panics. -/
theorem stop_panics_before_assignment :
    ∃ d d', Run Dispatcher.Step (newDispatcher soleTargets) [.startGuard 0] d ∧
      Dispatcher.Step d .stop d' ∧ d.status = .running ∧
      lastPassed (newDispatcher soleTargets) [.startGuard 0] = some 0 ∧ d.generalCtx = none ∧
      d.stop.1 = .panics := by
  have hrun : Run Dispatcher.Step (newDispatcher soleTargets) [.startGuard 0] _ :=
    run_of_replay [Event.startGuard 0] rfl
  exact ⟨_, _, hrun, rfl, rfl, rfl, rfl, rfl⟩

end GaleLB.NodeNetwork
