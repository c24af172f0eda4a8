import GaleLB.NodeNetwork.Moves
import GaleLB.NodeNetwork.StatusTruth

/-!
# The process of a node

The main goroutine calls `Start` of the dispatcher, and this call is the one numbered zero.
The handlers of the API call `Start`, `Stop` and `Status` of the same dispatcher at any
time. When the call of the main goroutine returns, its deferred functions call `Stop` and
shut the API down, and the process ends with all its goroutines.

A panic of `Stop` in a handler is recovered and answered with an internal server error. In
the deferred function it ends the process.
-/

namespace GaleLB.NodeNetwork

open Transition

/-- Where the main goroutine is: in its call of `Start`, shutting the API down, or at its end, possibly
with a panic. -/
inductive MainPc where
  | starting
  | closing (panicking : Bool)
  | exited (panicking : Bool)
deriving DecidableEq, Repr

/-- The dispatcher with the main goroutine of its process. -/
structure NodeProcess where
  dispatcher : Dispatcher
  main : MainPc

/-- A process that is about to call `Start`. -/
def newNodeProcess (targets : Targets) : NodeProcess := ⟨newDispatcher targets, .starting⟩

/-- The status code of the answer to `POST /stop`. -/
def stopCode : StopResult → ℕ
  | .returned _ => 200
  | .panics => 500

/-- An action of a `Start` call or of a loop, a request to the API with its answer, or a deferred function
of the main goroutine. -/
inductive ProcessEvent where
  | goroutine (e : Event)
  | postStop (code : ℕ)
  | getStatus (status : Status)
  | deferredStop
  | shutdown

/-- The process has not ended. -/
def MainPc.alive : MainPc → Bool
  | .exited _ => false
  | _ => true

/-- One event, where it is enabled. -/
def NodeProcess.step (p : NodeProcess) : ProcessEvent → Option NodeProcess
  | .goroutine e =>
    if p.main.alive ∧ e ≠ .stop then (p.dispatcher.step e).map fun d => { p with dispatcher := d } else none
  | .postStop code =>
    if p.main.alive ∧ code = stopCode p.dispatcher.stop.1 then some { p with dispatcher := p.dispatcher.stop.2 }
    else none
  | .getStatus status => if p.main.alive ∧ status = p.dispatcher.status then some p else none
  | .deferredStop =>
    match p.main, p.dispatcher.starts 0 with
    | .starting, .returned _ => some ⟨p.dispatcher.stop.2, .closing (p.dispatcher.stop.1 = .panics)⟩
    | _, _ => none
  | .shutdown =>
    match p.main with
    | .closing panicking => some { p with main := .exited panicking }
    | _ => none

/-- The steps of a process as a relation. -/
abbrev NodeProcess.Step : NodeProcess → ProcessEvent → NodeProcess → Prop := Computes NodeProcess.step

/-- Everything that one event can do to a process. -/
inductive NodeProcess.StepCase (p : NodeProcess) : ProcessEvent → NodeProcess → Prop
  | goroutine {e d} (halive : p.main.alive = true) (hother : e ≠ .stop) (hstep : Dispatcher.Step p.dispatcher e d) :
      StepCase p (.goroutine e) { p with dispatcher := d }
  | postStop (halive : p.main.alive = true) :
      StepCase p (.postStop (stopCode p.dispatcher.stop.1)) { p with dispatcher := p.dispatcher.stop.2 }
  | getStatus (halive : p.main.alive = true) : StepCase p (.getStatus p.dispatcher.status) p
  | deferredStop {result} (hmain : p.main = .starting) (hreturned : p.dispatcher.starts 0 = .returned result) :
      StepCase p .deferredStop ⟨p.dispatcher.stop.2, .closing (p.dispatcher.stop.1 = .panics)⟩
  | shutdown {panicking} (hmain : p.main = .closing panicking) :
      StepCase p .shutdown { p with main := .exited panicking }

variable {p q u : NodeProcess} {e : ProcessEvent} {events before : List ProcessEvent} {targets : Targets}

/-- The cases exhaust the steps. -/
theorem NodeProcess.Step.cases (h : NodeProcess.Step p e q) : NodeProcess.StepCase p e q := by
  cases e with
  | goroutine e =>
    obtain ⟨⟨halive, hother⟩, hsome⟩ := Option.ite_none_right_eq_some.mp h
    obtain ⟨d, hstep, rfl⟩ := Option.map_eq_some_iff.mp hsome
    exact .goroutine halive hother hstep
  | postStop code =>
    obtain ⟨⟨halive, rfl⟩, hsome⟩ := Option.ite_none_right_eq_some.mp h
    cases hsome
    exact .postStop halive
  | getStatus status =>
    obtain ⟨⟨halive, rfl⟩, hsome⟩ := Option.ite_none_right_eq_some.mp h
    cases hsome
    exact .getStatus halive
  | deferredStop =>
    simp only [Computes, NodeProcess.step] at h
    split at h
    · cases h
      exact .deferredStop ‹_› ‹_›
    · cases h
  | shutdown =>
    simp only [Computes, NodeProcess.step] at h
    split at h
    · cases h
      exact .shutdown ‹_›
    · cases h

/-- Every case is a step. -/
theorem NodeProcess.StepCase.step (h : NodeProcess.StepCase p e q) : NodeProcess.Step p e q := by
  cases h with
  | goroutine halive hother hstep =>
    exact (if_pos ⟨halive, hother⟩).trans (Option.map_eq_some_iff.mpr ⟨_, hstep, rfl⟩)
  | postStop halive => exact if_pos ⟨halive, rfl⟩
  | getStatus halive => exact if_pos ⟨halive, rfl⟩
  | deferredStop hmain hreturned => simp only [Computes, NodeProcess.step, hmain, hreturned]
  | shutdown hmain => simp only [Computes, NodeProcess.step, hmain]

/-- The event of the dispatcher. -/
def ProcessEvent.ofDispatcher : ProcessEvent → Option Event
  | .goroutine e => some e
  | .postStop _ | .deferredStop => some .stop
  | .getStatus _ | .shutdown => none

/-- A step that concerns the dispatcher is one of its steps. -/
theorem NodeProcess.Step.ofDispatcher {e' : Event} (h : NodeProcess.Step p e q)
    (hevent : e.ofDispatcher = some e') : Dispatcher.Step p.dispatcher e' q.dispatcher := by
  cases h.cases with
  | goroutine _ _ hmove =>
    cases hevent
    exact hmove
  | postStop | deferredStop =>
    cases hevent
    rfl
  | getStatus | shutdown => cases hevent

/-- The other steps leave the dispatcher alone. -/
theorem NodeProcess.Step.dispatcher_eq (h : NodeProcess.Step p e q) (hevent : e.ofDispatcher = none) :
    q.dispatcher = p.dispatcher := by
  cases h.cases with
  | goroutine | postStop | deferredStop => cases hevent
  | getStatus | shutdown => rfl

/-- A run of the process is a run of its dispatcher. -/
theorem run_dispatcher (hrun : Run NodeProcess.Step p events q) :
    Run Dispatcher.Step p.dispatcher (events.filterMap ProcessEvent.ofDispatcher) q.dispatcher :=
  hrun.project NodeProcess.dispatcher ProcessEvent.ofDispatcher
    (fun _ _ _ _ hstep hevent => hstep.ofDispatcher hevent)
    fun _ _ _ hstep hevent => hstep.dispatcher_eq hevent

/-- The invariant of the dispatcher holds in every run of the process. -/
theorem run_dispatcher_inv (hrun : Run NodeProcess.Step (newNodeProcess targets) events p) : p.dispatcher.Inv :=
  run_inv (run_dispatcher hrun)

/-- Until the first context is stored, calls are refused or about to store one, and the dispatcher is
reported as running from the first of them on. -/
def Dispatcher.Unassigned (d : Dispatcher) : Prop :=
  d.generalCtx = none →
    (∀ call, d.starts call = .idle ∨ d.starts call = .assigning ∨
      d.starts call = .returned (some "dispatcher is already running")) ∧
    (d.status = .stopped → ∀ call, d.starts call = .idle)

/-- Every step keeps this invariant. -/
theorem Dispatcher.Unassigned.step {d d' : Dispatcher} {e : Event} (h : d.Unassigned)
    (hstep : Dispatcher.Step d e d') : d'.Unassigned := by
  cases hstep.cases with
  | @refused call hpc hstatus =>
    intro hctx
    obtain ⟨hcalls, -⟩ := h hctx
    refine ⟨fun call' => ?_, fun hstopped => ?_⟩
    · by_cases hsame : call' = call
      · subst hsame
        exact Or.inr (Or.inr (Function.update_self call' _ d.starts))
      · rw [Dispatcher.setStart_starts, Function.update_of_ne hsame]
        exact hcalls call'
    · rw [Dispatcher.setStart_status, hstatus] at hstopped
      cases hstopped
  | @passed call hpc hstatus =>
    intro hctx
    obtain ⟨hcalls, -⟩ := h hctx
    refine ⟨fun call' => ?_, nofun⟩
    by_cases hsame : call' = call
    · subst hsame
      exact Or.inr (Or.inl (Function.update_self call' _ d.starts))
    · rw [Dispatcher.passGuard_starts, Function.update_of_ne hsame]
      exact hcalls call'
  | assignCtx => exact nofun
  | @launched call entry rest outcome hpc | @launchFailed call entry rest outcome err hpc | @wait call hpc
  | @finish call result hpc =>
    -- Such a call has stored a context.
    intro hctx
    rcases (h hctx).1 call with hidle | hassigning | hrefused
    · rw [hpc] at hidle
      cases hidle
    · rw [hpc] at hassigning
      cases hassigning
    · rw [hpc] at hrefused
      cases hrefused
  | stopped _ hctx' =>
    intro hctx
    rw [Dispatcher.cancelCtx_generalCtx, hctx'] at hctx
    cases hctx
  | stopRefused => exact h
  | checkPassed | checkExited | report => exact h

/-- The invariant holds in every run. -/
theorem run_unassigned {events : List Event} {d : Dispatcher}
    (hrun : Run Dispatcher.Step (newDispatcher targets) events d) : d.Unassigned := by
  induction hrun with
  | nil => exact fun _ => ⟨fun _ => Or.inl rfl, fun _ _ => rfl⟩
  | snoc _ hlast ih => exact ih.step hlast

/-- A context is stored exactly when some call has stored one. -/
theorem run_generalCtx_eq_none_iff (hrun : Run NodeProcess.Step (newNodeProcess targets) events p) :
    p.dispatcher.generalCtx = none ↔ ∀ call order, ProcessEvent.goroutine (.assignCtx call order) ∉ events := by
  induction hrun with
  | nil => simp [newNodeProcess, newDispatcher]
  | @snoc events p q e hrun hlast ih =>
    simp only [List.mem_append, List.mem_singleton, not_or, forall_and]
    cases hlast.cases with
    | @goroutine e d _ _ hmove =>
      rw [← ih]
      change d.generalCtx = none ↔ _
      rw [hmove.generalCtx]
      cases e <;> simp [Event.assigned]
    | postStop | deferredStop =>
      rw [← ih]
      change p.dispatcher.stop.2.generalCtx = none ↔ _
      have hkept : p.dispatcher.stop.2.generalCtx = p.dispatcher.generalCtx := by
        unfold Dispatcher.stop
        split <;> rfl
      rw [hkept]
      simp
    | getStatus | shutdown =>
      rw [← ih]
      simp

/-- `Stop` panics while the dispatcher is reported as running without a context. -/
theorem Dispatcher.stop_panics_iff (d : Dispatcher) :
    d.stop.1 = .panics ↔ d.status = .running ∧ d.generalCtx = none := by
  unfold Dispatcher.stop
  split <;> simp [*]

/-- In every run the deferred `Stop` of the main goroutine panics exactly when no call has stored a
context. -/
theorem deferredStop_panics_iff (hrun : Run NodeProcess.Step (newNodeProcess targets) events p)
    (hstep : NodeProcess.Step p .deferredStop q) :
    q.main = .closing true ↔ ∀ call order, ProcessEvent.goroutine (.assignCtx call order) ∉ events := by
  rw [← run_generalCtx_eq_none_iff hrun]
  cases hstep.cases with
  | @deferredStop result hmain hreturned =>
    have hpanics : MainPc.closing (p.dispatcher.stop.1 = .panics) = .closing true ↔
        p.dispatcher.stop.1 = .panics := by
      rw [MainPc.closing.injEq, decide_eq_true_eq]
    rw [hpanics, Dispatcher.stop_panics_iff]
    constructor
    · exact And.right
    · intro hctx
      refine ⟨?_, hctx⟩
      cases hstatus : p.dispatcher.status with
      | running => rfl
      | stopped =>
        have hidle := (run_unassigned (run_dispatcher hrun) hctx).2 hstatus 0
        rw [hreturned] at hidle
        cases hidle

/-- A request for a start that comes first makes the main goroutine panic. -/
def overtakenStart : List ProcessEvent := [.goroutine (.startGuard 1), .goroutine (.startGuard 0)]

/-- The request has passed the guard, and the call of the main goroutine is refused. -/
theorem overtakenStart_panics :
    ∃ p q, Run NodeProcess.Step (newNodeProcess soleTargets) overtakenStart p ∧
      NodeProcess.Step p .deferredStop q ∧ q.main = .closing true := by
  have hrun : ∃ p q, Run NodeProcess.Step (newNodeProcess soleTargets) overtakenStart p ∧
      NodeProcess.Step p .deferredStop q := ⟨_, _, run_of_replay overtakenStart rfl, rfl⟩
  obtain ⟨p, q, hs, hstep⟩ := hrun
  refine ⟨p, q, hs, hstep, (deferredStop_panics_iff hs hstep).mpr ?_⟩
  simp [overtakenStart]

/-- Why the call of the main goroutine has returned: there is nothing to do, a request has stopped it, it
could not launch a loop, or a request for a start came first. -/
inductive EndReason (targets : Targets) (events : List ProcessEvent) : Prop
  | noTargets (hnone : targets.entries = [])
  | stopped {earlier r} (hinitial : earlier ++ [.postStop 200] <+: events)
      (hrun : Run NodeProcess.Step (newNodeProcess targets) earlier r) (hstop : r.dispatcher.stop.1 = .returned none)
  | launchFailed {outcome} (hlaunch : .goroutine (.launch 0 outcome) ∈ events) (hfailed : outcome ≠ .started)
  | refused {earlier r call} (hinitial : earlier ++ [.goroutine (.startGuard 0)] <+: events)
      (hrun : Run NodeProcess.Step (newNodeProcess targets) earlier r) (hrunning : r.dispatcher.status = .running)
      (hother : call ≠ 0) (hfirst : .goroutine (.startGuard call) ∈ earlier)

/-- A reason stays one. -/
theorem EndReason.mono (h : EndReason targets before) (hinitial : before <+: events) :
    EndReason targets events := by
  cases h with
  | noTargets hnone => exact .noTargets hnone
  | stopped hstopped hrun hstop => exact .stopped (hstopped.trans hinitial) hrun hstop
  | launchFailed hlaunch hfailed => exact .launchFailed (hinitial.subset hlaunch) hfailed
  | refused hrefused hrun hrunning hother hfirst =>
    exact .refused (hrefused.trans hinitial) hrun hrunning hother hfirst

/-- The main goroutine does not go back to its call. -/
theorem NodeProcess.Step.starting (h : NodeProcess.Step p e q) (hmain : q.main = .starting) :
    p.main = .starting := by
  cases h.cases with
  | goroutine | postStop | getStatus => exact hmain
  | deferredStop | shutdown => cases hmain

/-- While the main goroutine is in its call, `Stop` is called by requests only. -/
theorem NodeProcess.Step.postStop (h : NodeProcess.Step p e q) (hmain : q.main = .starting)
    (hevent : e.ofDispatcher = some .stop) (hstop : p.dispatcher.stop.1 = .returned none) : e = .postStop 200 := by
  cases h.cases with
  | goroutine _ hother =>
    cases hevent
    exact absurd rfl hother
  | postStop => rw [hstop]; rfl
  | deferredStop => cases hmain
  | getStatus | shutdown => cases hevent

/-- A context is cancelled because of a request. -/
theorem run_cancelled (hrun : Run NodeProcess.Step (newNodeProcess targets) events p) (hmain : p.main = .starting)
    {ctx : CallId} (hcancelled : p.dispatcher.cancelled ctx = true) : EndReason targets events := by
  induction hrun with
  | nil => cases hcancelled
  | @snoc events p q e hrun hlast ih =>
    have hearlier (h : p.dispatcher.cancelled ctx = true) : EndReason targets (events ++ [e]) :=
      (ih (hlast.starting hmain) h).mono (List.prefix_append _ _)
    cases hevent : e.ofDispatcher with
    | none => exact hearlier (hlast.dispatcher_eq hevent ▸ hcancelled)
    | some e' =>
      rcases (hlast.ofDispatcher hevent).cancelled.2 hcancelled with h | ⟨rfl, hstop⟩
      · exact hearlier h
      · have he := hlast.postStop hmain hevent hstop
        subst he
        exact .stopped (List.prefix_refl _) hrun hstop

/-- The events of calls and loops. -/
theorem ProcessEvent.eq_goroutine {e' : Event} (h : e.ofDispatcher = some e') (hother : e' ≠ .stop) :
    e = .goroutine e' := by
  cases e with
  | goroutine =>
    cases h
    rfl
  | postStop | deferredStop =>
    cases h
    exact absurd rfl hother
  | getStatus | shutdown => cases h

/-- A running dispatcher was set to running by a call that has begun. -/
theorem run_running (hrun : Run NodeProcess.Step (newNodeProcess targets) events p)
    (hrunning : p.dispatcher.status = .running) :
    ∃ call, p.dispatcher.starts call ≠ .idle ∧ .goroutine (.startGuard call) ∈ events := by
  induction hrun with
  | nil => cases hrunning
  | @snoc events p q e hrun hlast ih =>
    cases hevent : e.ofDispatcher with
    | none =>
      rw [hlast.dispatcher_eq hevent] at hrunning ⊢
      obtain ⟨call, hbegun, hmem⟩ := ih hrunning
      exact ⟨call, hbegun, List.mem_append_left _ hmem⟩
    | some e' =>
      have hmove := hlast.ofDispatcher hevent
      rcases hmove.running hrunning with hearlier | hpassing
      · obtain ⟨call, hbegun, hmem⟩ := ih hearlier
        exact ⟨call, (hmove.startMove call).begun_mono hbegun, List.mem_append_left _ hmem⟩
      · cases e' with
        | startGuard call =>
          have he := ProcessEvent.eq_goroutine hevent nofun
          refine ⟨call, ?_, by rw [he]; simp⟩
          have hstart := hmove.startMove call
          generalize p.dispatcher.starts call = pc at hstart
          generalize q.dispatcher.starts call = pc' at hstart
          cases hstart with
          | stays hother => exact absurd rfl hother
          | refused | passed => nofun
        | _ => exact absurd rfl hpassing

/-- The call of the main goroutine fails because of a launch or because a request came first. -/
theorem run_failed (hrun : Run NodeProcess.Step (newNodeProcess targets) events p) {err : String}
    (hfailed : p.dispatcher.starts 0 = .deferring (some err) ∨ p.dispatcher.starts 0 = .returned (some err)) :
    EndReason targets events := by
  induction hrun with
  | nil => rcases hfailed with h | h <;> cases h
  | @snoc events p q e hrun hlast ih =>
    have hearlier (h : p.dispatcher.starts 0 = .deferring (some err) ∨
        p.dispatcher.starts 0 = .returned (some err)) : EndReason targets (events ++ [e]) :=
      (ih h).mono (List.prefix_append _ _)
    cases hevent : e.ofDispatcher with
    | none => exact hearlier (hlast.dispatcher_eq hevent ▸ hfailed)
    | some e' =>
      have hmove := hlast.ofDispatcher hevent
      have hstart := hmove.startMove 0
      generalize hpc : p.dispatcher.starts 0 = pc at hstart hearlier
      generalize q.dispatcher.starts 0 = pc' at hstart hfailed
      cases hstart with
      | stays => exact hearlier hfailed
      | refused hrunning =>
        obtain ⟨call, hbegun, hmem⟩ := run_running hrun hrunning
        have hother : call ≠ 0 := by
          rintro rfl
          exact hbegun hpc
        have he := ProcessEvent.eq_goroutine hevent nofun
        exact .refused (he ▸ List.prefix_refl _) hrun hrunning hother hmem
      | @failed entry rest outcome err' houtcome =>
        have he := ProcessEvent.eq_goroutine hevent nofun
        subst he
        refine .launchFailed (List.mem_append_right _ (List.mem_singleton_self _)) ?_
        rintro rfl
        cases houtcome
      | finished =>
        rcases hfailed with h | h
        · cases h
        · cases h
          exact hearlier (Or.inl rfl)
      | passed | assigned | launched | waited => rcases hfailed with h | h <;> cases h

/-- In every run, the process of a node ends only if it has no targets, or after a request that stopped it,
a launch of the main goroutine that failed, or a request for a start that came first. -/
theorem node_ends_only_if (hrun : Run NodeProcess.Step (newNodeProcess targets) events p)
    (hstep : NodeProcess.Step p .deferredStop q) : EndReason targets events := by
  cases hstep.cases with
  | @deferredStop result hmain hreturned =>
    cases result with
    | some err => exact run_failed hrun (Or.inr hreturned)
    | none =>
      have hexplained := run_explained (run_dispatcher hrun)
      by_cases hnone : targets.entries = []
      · exact .noTargets hnone
      · obtain ⟨entry, hentry⟩ := List.exists_mem_of_ne_nil _ hnone
        have htargets := run_targets (run_dispatcher hrun)
        have hexited := hexplained.done 0 (Or.inr hreturned) entry (htargets ▸ hentry)
        obtain ⟨ctx, hcancelled⟩ := hexplained.exited 0 entry.1 hexited
        exact run_cancelled hrun hmain hcancelled

/-- A node starts, refuses a second start, and is stopped by a request. -/
def stoppedByRequest : List ProcessEvent :=
  [.goroutine (.startGuard 0), .goroutine (.assignCtx 0 soleTargets.entries), .goroutine (.launch 0 .started),
    .goroutine (.startGuard 1), .getStatus .running, .postStop 200, .goroutine (.check 0 "10.0.0.1:7070"),
    .goroutine (.wait 0), .goroutine (.finish 0)]

/-- The request to stop the node is why its process ends. -/
theorem stoppedByRequest_ends :
    ∃ p q, Run NodeProcess.Step (newNodeProcess soleTargets) stoppedByRequest p ∧
      NodeProcess.Step p .deferredStop q ∧ EndReason soleTargets stoppedByRequest := by
  have hrun : ∃ p q, Run NodeProcess.Step (newNodeProcess soleTargets) stoppedByRequest p ∧
      NodeProcess.Step p .deferredStop q := ⟨_, _, run_of_replay stoppedByRequest rfl, rfl⟩
  obtain ⟨p, q, hs, hstep⟩ := hrun
  exact ⟨p, q, hs, hstep, node_ends_only_if hs hstep⟩

end GaleLB.NodeNetwork
