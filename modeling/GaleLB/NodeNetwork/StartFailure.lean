import GaleLB.NodeNetwork.StopFinality

/-!
# A `Start` call that fails

When a client cannot be created or a configuration cannot be fetched, `Start` returns at
once. Its deferred function reports the dispatcher as stopped, but nothing cancels the
context, so the loops that it has launched before the failure go on reporting. A failed
call that is not disturbed by others leaves nothing behind exactly when it has launched no
loop, that is, when the first target of its range is the one that fails.
-/

namespace GaleLB.NodeNetwork

open Transition

/-- The events of one `Start` call and of the loops. -/
def Event.IsolatedTo (call : CallId) : Event → Prop
  | .startGuard call' | .assignCtx call' _ | .launch call' _ | .wait call' | .finish call' => call' = call
  | .stop => False
  | .check _ _ | .report _ _ => True

/-- The steps of one `Start` call and of the loops. -/
abbrev Dispatcher.StepOf (call : CallId) : Dispatcher → Event → Dispatcher → Prop :=
  Restrict Dispatcher.Step fun _ e => e.IsolatedTo call

/-- The call has passed its guard and has not returned. -/
def StartPc.active : StartPc → Bool
  | .idle | .returned _ => false
  | _ => true

/-- Only a successful launch has no error. -/
theorem launchError_eq_none_iff (target : Target) (outcome : LaunchOutcome) :
    launchError target outcome = none ↔ outcome = .started := by
  cases outcome <;> simp [launchError]

/-- What holds while one `Start` call works on a dispatcher that was stopped and quiet. -/
structure Dispatcher.Undisturbed (call : CallId) (events : List Event) (d : Dispatcher) : Prop where
  uncancelled : d.cancelled call = false
  others : ∀ call' key, call' ≠ call → (d.loops (call', key)).running = false
  own : ∀ key, d.loops (call, key) = .notStarted ∨
    (d.loops (call, key)).running = true ∧ d.generalCtx = some call
  launched : .launch call .started ∈ events ↔ ∃ key, (d.loops (call, key)).running = true
  launching : ∀ rest, d.starts call = .launching rest → d.generalCtx = some call
  status : d.status = .running ↔ (d.starts call).active = true

/-- Only the loops of the call run. -/
theorem Dispatcher.Undisturbed.own_of_running {call call' : CallId} {key : String} {events : List Event}
    {d : Dispatcher} (h : d.Undisturbed call events) (hrunning : (d.loops (call', key)).running = true) :
    call' = call ∧ d.live = true := by
  have hsame : call' = call := by
    by_contra hne
    rw [h.others call' key hne] at hrunning
    cases hrunning
  rw [hsame] at hrunning
  rcases h.own key with hnot | ⟨-, hctx⟩
  · rw [hnot] at hrunning
    cases hrunning
  · refine ⟨hsame, ?_⟩
    rw [Dispatcher.live, hctx, Option.any_some, h.uncancelled]
    rfl

/-- Steps of the call that launch nothing keep the loops as they are. -/
theorem Dispatcher.Undisturbed.of_start {call : CallId} {events : List Event} {d d' : Dispatcher} {e : Event}
    (h : d.Undisturbed call events) (he : e ≠ .launch call .started) (hcancelled : d'.cancelled = d.cancelled)
    (hloops : d'.loops = d.loops) (hctx : d'.generalCtx = d.generalCtx ∨ d'.generalCtx = some call)
    (hlaunching : ∀ rest, d'.starts call = .launching rest → d'.generalCtx = some call)
    (hstatus : d'.status = .running ↔ (d'.starts call).active = true) :
    d'.Undisturbed call (events ++ [e]) := by
  constructor
  · rw [hcancelled]
    exact h.uncancelled
  · rw [hloops]
    exact h.others
  · intro key
    rw [hloops]
    rcases h.own key with hnot | ⟨hrunning, hown⟩
    · exact Or.inl hnot
    · exact Or.inr ⟨hrunning, hctx.elim (fun hsame => hsame.trans hown) id⟩
  · rw [hloops, List.mem_append, List.mem_singleton, ← h.launched, or_iff_left he.symm]
  · exact hlaunching
  · exact hstatus

/-- A running loop that stays running keeps the rest as it is. -/
theorem Dispatcher.Undisturbed.of_loop {call call' : CallId} {key : String} {pc : LoopPc} {events : List Event}
    {d : Dispatcher} {e : Event} (h : d.Undisturbed call events) (he : e ≠ .launch call .started)
    (hrunning : (d.loops (call', key)).running = true) (hpc : pc.running = true) :
    (d.setLoop call' key pc).Undisturbed call (events ++ [e]) := by
  obtain ⟨rfl, -⟩ := h.own_of_running hrunning
  have hsame : ∀ call'' key'', ((d.setLoop call' key pc).loops (call'', key'')).running =
      (d.loops (call'', key'')).running := by
    intro call'' key''
    rw [Dispatcher.setLoop_loops, Function.update_apply]
    split
    · rename_i heq
      rw [heq, hpc, hrunning]
    · rfl
  constructor
  · exact h.uncancelled
  · intro call'' key'' hne
    rw [hsame]
    exact h.others call'' key'' hne
  · intro key''
    by_cases heq : key'' = key
    · rcases h.own key with hnot | ⟨-, hctx⟩
      · rw [hnot] at hrunning
        cases hrunning
      · rw [heq, hsame]
        exact Or.inr ⟨hrunning, hctx⟩
    · rw [d.setLoop_loops_of_ne pc fun hpair => heq (Prod.mk.inj hpair).2]
      exact h.own key''
  · rw [List.mem_append, List.mem_singleton, or_iff_left he.symm, h.launched]
    simp only [hsame]
  · exact h.launching
  · exact h.status

/-- Launching a loop keeps the call undisturbed. -/
theorem Dispatcher.Undisturbed.of_launched {call : CallId} {entry : String × Target}
    {rest : List (String × Target)} {events : List Event} {d : Dispatcher} (h : d.Undisturbed call events)
    (hpc : d.starts call = .launching (entry :: rest)) :
    (d.launch call entry.1 rest).Undisturbed call (events ++ [.launch call .started]) := by
  have hctx := h.launching _ hpc
  have hself := d.launch_loops_self call entry.1 rest
  constructor
  · exact h.uncancelled
  · intro call' key hne
    rw [d.launch_loops_of_ne rest fun hpair => hne (Prod.mk.inj hpair).1]
    exact h.others call' key hne
  · intro key
    by_cases heq : key = entry.1
    · rw [heq, hself]
      exact Or.inr ⟨rfl, hctx⟩
    · rw [d.launch_loops_of_ne rest fun hpair => heq (Prod.mk.inj hpair).2]
      exact h.own key
  · constructor
    · exact fun _ => ⟨entry.1, by rw [hself]; rfl⟩
    · exact fun _ => List.mem_append_right _ List.mem_cons_self
  · exact fun _ _ => hctx
  · rw [d.launch_starts_self, Dispatcher.launch_status, h.status, hpc]
    rfl

/-- Every step of the call and of the loops keeps the call undisturbed. -/
theorem Dispatcher.Undisturbed.step {call : CallId} {events : List Event} {d d' : Dispatcher} {e : Event}
    (h : d.Undisturbed call events) (hstep : Dispatcher.StepOf call d e d') :
    d'.Undisturbed call (events ++ [e]) := by
  obtain ⟨hstep, hisolated⟩ := hstep
  cases hstep.cases with
  | refused hpc hstatus =>
    cases (hisolated : _ = call)
    rw [h.status, hpc] at hstatus
    cases hstatus
  | passed hpc hstatus =>
    cases (hisolated : _ = call)
    refine h.of_start nofun rfl rfl (Or.inl rfl) ?_ ?_
    · rw [Dispatcher.passGuard_starts, Function.update_self]
      nofun
    · rw [Dispatcher.passGuard_starts, Function.update_self]
      exact ⟨fun _ => rfl, fun _ => rfl⟩
  | assignCtx hpc horder =>
    cases (hisolated : _ = call)
    refine h.of_start nofun rfl rfl (Or.inr rfl) (fun _ _ => rfl) ?_
    rw [d.assign_starts_self, Dispatcher.assign_status, h.status, hpc]
    rfl
  | launched hpc houtcome =>
    cases (hisolated : _ = call)
    cases (launchError_eq_none_iff _ _).mp houtcome
    exact h.of_launched hpc
  | @launchFailed _ _ _ outcome err hpc houtcome =>
    cases (hisolated : _ = call)
    refine h.of_start ?_ rfl rfl (Or.inl rfl) ?_ ?_
    · intro hevent
      cases hevent
      cases houtcome
    · rw [Dispatcher.setStart_starts, Function.update_self]
      nofun
    · rw [Dispatcher.setStart_starts, Function.update_self, Dispatcher.setStart_status, h.status, hpc]
      rfl
  | wait hpc hdone =>
    cases (hisolated : _ = call)
    refine h.of_start nofun rfl rfl (Or.inl rfl) ?_ ?_
    · rw [Dispatcher.setStart_starts, Function.update_self]
      nofun
    · rw [Dispatcher.setStart_starts, Function.update_self, Dispatcher.setStart_status, h.status, hpc]
      rfl
  | finish hpc =>
    cases (hisolated : _ = call)
    refine h.of_start nofun rfl rfl (Or.inl rfl) ?_ ?_
    · rw [Dispatcher.finish_starts, Function.update_self]
      nofun
    · rw [Dispatcher.finish_starts, Function.update_self]
      exact ⟨nofun, nofun⟩
  | stopped hstatus hctx => exact absurd hisolated id
  | stopRefused hresult => exact absurd hisolated id
  | checkPassed hpc hlive => exact h.of_loop nofun (by rw [hpc]; rfl) rfl
  | checkExited hpc hlive =>
    have hlive' := (h.own_of_running (by rw [hpc]; rfl)).2
    rw [hlive] at hlive'
    cases hlive'
  | report hpc => exact h.of_loop nofun (by rw [hpc]; rfl) rfl

/-- The call stays undisturbed throughout. -/
theorem run_undisturbed {call : CallId} {events : List Event} {d d' : Dispatcher}
    (h : d.Undisturbed call []) (hrun : Run (Dispatcher.StepOf call) d events d') :
    d'.Undisturbed call events := by
  induction hrun with
  | nil => exact h
  | snoc _ hlast ih => exact ih.step hlast

/-- A stopped dispatcher without running loops is undisturbed for a new call. -/
theorem Dispatcher.Inv.undisturbed {d : Dispatcher} {call : CallId} (h : d.Inv)
    (hstopped : d.status = .stopped) (hquiet : ∀ call' key, (d.loops (call', key)).running = false)
    (hidle : d.starts call = .idle) : d.Undisturbed call [] := by
  constructor
  · exact (h.freshCtx call (Or.inl hidle)).2
  · exact fun call' key _ => hquiet call' key
  · exact fun key => Or.inl (h.freshLoops call key (Or.inl hidle))
  · constructor
    · nofun
    · intro hrunning
      obtain ⟨key, hrunning⟩ := hrunning
      rw [hquiet call key] at hrunning
      cases hrunning
  · rw [hidle]
    nofun
  · rw [hstopped, hidle]
    exact ⟨nofun, nofun⟩

/-- Nothing reports after an undisturbed call exactly when the call has launched no loop. -/
theorem Dispatcher.Undisturbed.quiet_iff {call : CallId} {events : List Event} {d : Dispatcher}
    (h : d.Undisturbed call events) :
    (∀ call' key, ¬ d.Reports call' key) ↔ .launch call .started ∉ events := by
  rw [h.launched]
  constructor
  · intro hquiet hrunning
    obtain ⟨key, hrunning⟩ := hrunning
    exact hquiet call key ⟨hrunning, (h.own_of_running hrunning).2⟩
  · intro hnone call' key hreports
    obtain ⟨rfl, -⟩ := h.own_of_running hreports.1
    exact hnone ⟨key, hreports.1⟩

/-- A `Start` call on a stopped and quiet dispatcher that returns an error, without other calls in
between, leaves it stopped and quiet exactly when it has launched no loop before the failure. -/
theorem failed_start_atomic_iff (targets : Targets) (before : List Event) (d : Dispatcher)
    (hbefore : Run Dispatcher.Step (newDispatcher targets) before d) (hstopped : d.status = .stopped)
    (hquiet : ∀ call key, (d.loops (call, key)).running = false) (call : CallId)
    (hidle : d.starts call = .idle) (events : List Event) (d' : Dispatcher)
    (hcall : Run (Dispatcher.StepOf call) d events d') (err : String)
    (hfailed : d'.starts call = .returned (some err)) :
    (d'.status = .stopped ∧ ∀ call' key, ¬ d'.Reports call' key) ↔ .launch call .started ∉ events := by
  have h := run_undisturbed ((run_inv hbefore).undisturbed hstopped hquiet hidle) hcall
  rw [← h.quiet_iff]
  apply and_iff_right
  have hstatus := h.status
  rw [hfailed] at hstatus
  cases hcases : d'.status with
  | stopped => rfl
  | running => cases hstatus.mp hcases

/-- Two load balancers. -/
def twoTargets : Targets :=
  ⟨[("10.0.0.1:7070", ⟨"10.0.0.1", 7070⟩), ("10.0.0.2:7070", ⟨"10.0.0.2", 7070⟩)], by decide⟩

/-- The first target fails. -/
def failingFirst : List Event :=
  [.startGuard 0, .assignCtx 0 twoTargets.entries, .launch 0 (.clientFailed "connection refused"), .finish 0]

/-- The second target fails. -/
def failingSecond : List Event :=
  [.startGuard 0, .assignCtx 0 twoTargets.entries, .launch 0 .started, .launch 0 (.configFailed "connection refused"),
    .finish 0]

/-- A call that fails on its first target leaves nothing behind. -/
theorem failingFirst_atomic :
    ∃ d, Run (Dispatcher.StepOf 0) (newDispatcher twoTargets) failingFirst d ∧
      d.status = .stopped ∧ ∀ call key, ¬ d.Reports call key := by
  have hreplay : Run Dispatcher.Step (newDispatcher twoTargets) failingFirst _ := run_of_replay failingFirst rfl
  have hrun : Run (Dispatcher.StepOf 0) (newDispatcher twoTargets) failingFirst _ :=
    hreplay.restrict (by simp [failingFirst, Event.IsolatedTo])
  have hatomic := failed_start_atomic_iff twoTargets [] (newDispatcher twoTargets) Run.nil rfl
    (fun _ _ => rfl) 0 rfl failingFirst _ hrun _ rfl
  exact ⟨_, hrun, hatomic.mpr (by decide)⟩

/-- A call that fails on its second target leaves the first loop reporting. -/
theorem failingSecond_reports :
    ∃ d err, Run (Dispatcher.StepOf 0) (newDispatcher twoTargets) failingSecond d ∧
      d.starts 0 = .returned (some err) ∧ d.status = .stopped ∧ d.Reports 0 "10.0.0.1:7070" := by
  have hreplay : Run Dispatcher.Step (newDispatcher twoTargets) failingSecond _ := run_of_replay failingSecond rfl
  have hrun : Run (Dispatcher.StepOf 0) (newDispatcher twoTargets) failingSecond _ :=
    hreplay.restrict (by simp [failingSecond, Event.IsolatedTo])
  exact ⟨_, _, hrun, rfl, rfl, by decide⟩

end GaleLB.NodeNetwork
