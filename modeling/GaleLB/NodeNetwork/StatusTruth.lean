import GaleLB.NodeNetwork.Dispatcher

/-!
# Whether the reported status is true

Two actions report a dispatcher as stopped: a `Stop` call, and the deferred function of
every `Start` call, which does not look at what later calls have done in the meantime. The
status is truthful in all runs in which neither happens while a call is between its guard
and its context, and in which the deferred function runs only when the stored context is
cancelled or nothing runs and nothing remains to be launched. Any of these actions outside
of this condition can be continued to a stopped dispatcher with a reporting loop.
-/

namespace GaleLB.NodeNetwork

open Transition

/-- A dispatcher reported as stopped has a cancelled context or no running loop. -/
def Dispatcher.Truthful (d : Dispatcher) : Prop :=
  d.status = .stopped → d.live = false ∨ ∀ call key, (d.loops (call, key)).running = false

/-- No client creation and no fetch of a configuration fails. -/
def Event.Succeeds : Event → Prop
  | .launch _ outcome => outcome = .started
  | _ => True

/-- The steps without failures. -/
abbrev Dispatcher.GoodStep : Dispatcher → Event → Dispatcher → Prop :=
  Restrict Dispatcher.Step fun _ e => e.Succeeds

/-- No loop runs and none remains to be launched. -/
structure Dispatcher.Dormant (d : Dispatcher) : Prop where
  loops : ∀ call key, (d.loops (call, key)).running = false
  launches : ∀ call rest, d.starts call = .launching rest → rest = []

/-- No call is about to assign a context, and the stored one is cancelled or nothing is going on. -/
structure Dispatcher.Resting (d : Dispatcher) : Prop where
  assigned : ∀ call, d.starts call ≠ .assigning
  quiet : d.live = false ∨ d.Dormant

/-- With targets to report to, the dispatcher is reported as stopped at the right moments only. -/
def StopsInTime (d : Dispatcher) (e : Event) : Prop :=
  d.targets.entries ≠ [] → match e with
    | .stop => d.stop.1 = .returned none → ∀ call, d.starts call ≠ .assigning
    | .finish _ => d.Resting
    | _ => True

/-- A call that neither waits for its context nor launches leaves a dispatcher resting. -/
theorem Dispatcher.Resting.of_start {d d' : Dispatcher} {call : CallId} {pc : StartPc} (h : d.Resting)
    (hstarts : d'.starts = Function.update d.starts call pc) (hassigning : pc ≠ .assigning)
    (hlaunching : ∀ rest, pc ≠ .launching rest) (hloops : d'.loops = d.loops) (hlive : d'.live = d.live) :
    d'.Resting := by
  constructor
  · intro call'
    rw [hstarts, Function.update_apply]
    split
    · exact hassigning
    · exact h.assigned call'
  · rcases h.quiet with hcancelled | hdormant
    · exact Or.inl (hlive.trans hcancelled)
    · refine Or.inr ⟨by rw [hloops]; exact hdormant.loops, ?_⟩
      intro call' rest hpc
      rw [hstarts, Function.update_apply] at hpc
      split at hpc
      · exact absurd hpc (hlaunching rest)
      · exact hdormant.launches call' rest hpc

/-- A running loop of a resting dispatcher moves on under a cancelled context. -/
theorem Dispatcher.Resting.of_loop {d : Dispatcher} {call : CallId} {key : String} {pc : LoopPc}
    (h : d.Resting) (hrunning : (d.loops (call, key)).running = true) : (d.setLoop call key pc).Resting := by
  refine ⟨h.assigned, Or.inl ?_⟩
  rcases h.quiet with hcancelled | hdormant
  · exact hcancelled
  · rw [hdormant.loops call key] at hrunning
    cases hrunning

/-- Steps in time keep a dispatcher resting while it is reported as stopped. -/
theorem Dispatcher.Resting.step {d d' : Dispatcher} {e : Event} (h : d.status = .stopped → d.Resting)
    (htargets : d.targets.entries ≠ []) (hstep : Dispatcher.Step d e d') (hintime : StopsInTime d e) :
    d'.status = .stopped → d'.Resting := by
  have hcondition := hintime htargets
  intro hstopped
  cases hstep.cases with
  | refused hpc hstatus => exact (h hstopped).of_start rfl nofun nofun rfl rfl
  | passed hpc hstatus => cases hstopped
  | assignCtx hpc horder => exact absurd hpc ((h hstopped).assigned _)
  | @launched call entry rest outcome hpc houtcome =>
    have hresting := h hstopped
    constructor
    · intro call'
      rw [Dispatcher.launch_starts, Function.update_apply]
      split
      · nofun
      · exact hresting.assigned call'
    · rcases hresting.quiet with hcancelled | hdormant
      · exact Or.inl hcancelled
      · cases hdormant.launches call _ hpc
  | launchFailed hpc houtcome => exact (h hstopped).of_start rfl nofun nofun rfl rfl
  | wait hpc hdone => exact (h hstopped).of_start rfl nofun nofun rfl rfl
  | finish hpc =>
    have hresting : d.Resting := hcondition
    exact hresting.of_start rfl nofun nofun rfl rfl
  | stopped hstatus hctx =>
    have hreturned : d.stop.1 = .returned none := by rw [Dispatcher.stop_of_running hstatus hctx]
    exact ⟨hcondition hreturned, Or.inl (Dispatcher.cancelCtx_live hctx)⟩
  | stopRefused hresult => exact h hstopped
  | checkPassed hpc hlive => exact (h hstopped).of_loop (by rw [hpc]; rfl)
  | checkExited hpc hlive => exact (h hstopped).of_loop (by rw [hpc]; rfl)
  | report hpc => exact (h hstopped).of_loop (by rw [hpc]; rfl)

/-- The targets of a dispatcher never change. -/
theorem run_targets {targets : Targets} {events : List Event} {d : Dispatcher}
    (hrun : Run Dispatcher.Step (newDispatcher targets) events d) : d.targets = targets := by
  induction hrun with
  | nil => rfl
  | snoc _ hlast ih => cases hlast.cases <;> exact ih

/-- In runs that stop in time, a dispatcher that is reported as stopped is resting. -/
theorem run_resting {targets : Targets} {events : List Event} {d : Dispatcher}
    (htargets : targets.entries ≠ [])
    (hrun : Run (Restrict Dispatcher.GoodStep StopsInTime) (newDispatcher targets) events d) :
    d.status = .stopped → d.Resting := by
  induction hrun with
  | nil => exact fun _ => ⟨nofun, Or.inl rfl⟩
  | snoc hrun hlast ih =>
    have hsame := run_targets hrun.unrestrict.unrestrict
    exact Dispatcher.Resting.step ih (by rw [hsame]; exact htargets) hlast.1.1 hlast.2

/-- A resting dispatcher is truthful. -/
theorem Dispatcher.Truthful.of_resting {d : Dispatcher} (h : d.status = .stopped → d.Resting) :
    d.Truthful :=
  fun hstopped => (h hstopped).quiet.imp_right Dispatcher.Dormant.loops

/-- Without targets nothing ever runs. -/
theorem Dispatcher.Inv.truthful_of_no_targets {d : Dispatcher} (h : d.Inv) (htargets : d.targets.entries = []) :
    d.Truthful := by
  refine fun _ => Or.inr fun call key => ?_
  by_contra hrunning
  have hlaunched : d.loops (call, key) ≠ .notStarted := by
    intro hnot
    rw [hnot] at hrunning
    exact hrunning rfl
  have hkey := h.known call key hlaunched
  rw [htargets] at hkey
  cases hkey

/-- A call can launch a loop without failure. -/
theorem goodStep_launch {d : Dispatcher} {call : CallId} {entry : String × Target}
    {rest : List (String × Target)} (hpc : d.starts call = .launching (entry :: rest)) :
    Dispatcher.GoodStep d (.launch call .started) (d.launch call entry.1 rest) :=
  ⟨(Dispatcher.StepCase.launched hpc rfl).step, rfl⟩

/-- A launch under a live context makes a stopped dispatcher untruthful. -/
theorem untruthful_of_launch {d : Dispatcher} {call : CallId} {key : String} {rest : List (String × Target)}
    (hstopped : d.status = .stopped) (hlive : d.live = true) : ¬ (d.launch call key rest).Truthful := by
  intro htruthful
  rcases htruthful hstopped with hcancelled | hquiet
  · have hsame : (d.launch call key rest).live = d.live := rfl
    rw [hsame, hlive] at hcancelled
    cases hcancelled
  · have hrunning := hquiet call key
    rw [d.launch_loops_self] at hrunning
    cases hrunning

/-- A call that assigns its context while the dispatcher is reported as stopped makes that untruthful. -/
theorem untruthful_of_assigning {d : Dispatcher} {call : CallId} (hinv : d.Inv)
    (htargets : d.targets.entries ≠ []) (hstopped : d.status = .stopped) (hpc : d.starts call = .assigning) :
    ∃ events u, Run Dispatcher.GoodStep d events u ∧ ¬ u.Truthful := by
  obtain ⟨entry, rest, hentries⟩ := List.exists_cons_of_ne_nil htargets
  have hassign : Dispatcher.GoodStep d (.assignCtx call d.targets.entries) (d.assign call d.targets.entries) :=
    ⟨(Dispatcher.StepCase.assignCtx hpc (List.Perm.refl _)).step, trivial⟩
  have hlaunching : (d.assign call d.targets.entries).starts call = .launching (entry :: rest) := by
    rw [d.assign_starts_self, hentries]
  have hlive : (d.assign call d.targets.entries).live = true := by
    rw [Dispatcher.assign_live, (hinv.freshCtx call (Or.inr hpc)).2]
    rfl
  exact ⟨_, _, Run.cons hassign (Run.single (goodStep_launch hlaunching)), untruthful_of_launch hstopped hlive⟩

/-- The deferred function of a call makes the status untruthful unless the dispatcher is resting. -/
theorem untruthful_of_finish {d : Dispatcher} {call : CallId} {result : Option String} (hinv : d.Inv)
    (htargets : d.targets.entries ≠ []) (hpc : d.starts call = .deferring result) (hbusy : ¬ d.Resting) :
    ∃ events u, Run Dispatcher.GoodStep (d.finish call result) events u ∧ ¬ u.Truthful := by
  have hother : ∀ call' pc, d.starts call' = pc → pc ≠ .deferring result →
      (d.finish call result).starts call' = pc := by
    intro call' pc hpc' hne
    rw [Dispatcher.finish_starts, Function.update_of_ne]
    · exact hpc'
    · intro hsame
      rw [hsame, hpc] at hpc'
      exact hne hpc'.symm
  by_cases hassigned : ∀ call', d.starts call' ≠ .assigning
  · have hnoisy : ¬ (d.live = false ∨ d.Dormant) := fun hquiet => hbusy ⟨hassigned, hquiet⟩
    rw [not_or, Bool.not_eq_false] at hnoisy
    by_cases hquiet : ∀ call' key, (d.loops (call', key)).running = false
    · obtain ⟨call', rest, hlaunching, hrest⟩ : ∃ call' rest, d.starts call' = .launching rest ∧ rest ≠ [] := by
        by_contra hnone
        apply hnoisy.2
        refine ⟨hquiet, fun call' rest hlaunching => ?_⟩
        by_contra hrest
        exact hnone ⟨call', rest, hlaunching, hrest⟩
      obtain ⟨entry, rest, rfl⟩ := List.exists_cons_of_ne_nil hrest
      have hlaunch := goodStep_launch (hother call' _ hlaunching nofun)
      exact ⟨_, _, Run.single hlaunch, untruthful_of_launch rfl hnoisy.1⟩
    · refine ⟨[], _, Run.nil, fun htruthful => ?_⟩
      rcases htruthful rfl with hcancelled | hquiet'
      · have hsame : (d.finish call result).live = d.live := rfl
        rw [hsame, hnoisy.1] at hcancelled
        cases hcancelled
      · exact hquiet hquiet'
  · simp only [not_forall, not_not] at hassigned
    obtain ⟨call', hassigning⟩ := hassigned
    exact untruthful_of_assigning (hinv.of_start rfl (fun _ => ⟨nofun, nofun, nofun⟩) rfl rfl rfl rfl) htargets
      rfl (hother call' _ hassigning nofun)

/-- Without failures, the status is truthful in every run that stops in time, and every step that
does not can be continued to an untruthful status. -/
theorem status_truthful (targets : Targets) :
    (∀ events d, Run (Restrict Dispatcher.GoodStep StopsInTime) (newDispatcher targets) events d →
      d.Truthful) ∧
    ∀ events d e d', Run Dispatcher.GoodStep (newDispatcher targets) events d → Dispatcher.GoodStep d e d' →
      ¬ StopsInTime d e → ∃ later u, Run Dispatcher.GoodStep d' later u ∧ ¬ u.Truthful := by
  constructor
  · intro events d hrun
    by_cases htargets : targets.entries = []
    · have hrun' := hrun.unrestrict.unrestrict
      apply (run_inv hrun').truthful_of_no_targets
      rw [run_targets hrun']
      exact htargets
    · exact Dispatcher.Truthful.of_resting (run_resting htargets hrun)
  · intro events d e d' hrun hstep hlate
    have hinv := run_inv hrun.unrestrict
    obtain ⟨htargets, hcondition⟩ := Classical.not_imp.mp hlate
    cases hstep.1.cases with
    | finish hpc => exact untruthful_of_finish hinv htargets hpc hcondition
    | stopped hstatus hctx =>
      obtain ⟨-, hassigning⟩ := Classical.not_imp.mp hcondition
      simp only [not_forall, not_not] at hassigning
      obtain ⟨call, hassigning⟩ := hassigning
      exact untruthful_of_assigning (hinv.of_stopped hctx) htargets rfl hassigning
    | stopRefused hresult =>
      obtain ⟨hreturned, -⟩ := Classical.not_imp.mp hcondition
      exact absurd hreturned hresult
    | _ => exact absurd trivial hcondition

/-- A second call passes its guard while the first one still drains its loop; the first call then
reports the dispatcher as stopped, and the second one reports to the load balancer. -/
def overlappingStarts : List Event :=
  [.startGuard 0, .assignCtx 0 soleTargets.entries, .launch 0 .started, .stop, .startGuard 1,
    .check 0 "10.0.0.1:7070", .wait 0, .finish 0, .assignCtx 1 soleTargets.entries, .launch 1 .started]

/-- A dispatcher that is reported as stopped runs a loop under a live context. -/
theorem status_not_truthful :
    ∃ d, Run Dispatcher.GoodStep (newDispatcher soleTargets) overlappingStarts d ∧ ¬ d.Truthful := by
  have hreplay : Run Dispatcher.Step (newDispatcher soleTargets) overlappingStarts _ :=
    run_of_replay overlappingStarts rfl
  refine ⟨_, hreplay.restrict (by simp [overlappingStarts, Event.Succeeds]), ?_⟩
  intro htruthful
  rcases htruthful rfl with hcancelled | hquiet
  · cases hcancelled
  · cases hquiet 1 "10.0.0.1:7070"

end GaleLB.NodeNetwork
