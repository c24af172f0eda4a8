import GaleLB.NodeNetwork.Dispatcher

/-!
# What `Stop` stops

A loop checks whatever context the dispatcher stores, so a new context revives every loop
that has not noticed the cancellation of the old one. `Stop` is final, and no target gets
two reporting loops, in all runs in which a `Start` call assigns its context only when no
loop runs and no other call has loops left to launch. Any assignment outside of this
condition can be continued to two loops that report to the same target.
-/

namespace GaleLB.NodeNetwork

open Transition

/-- The loop is at its check and would pass it. -/
def Dispatcher.Passes (d : Dispatcher) (call : CallId) (key : String) : Prop :=
  d.loops (call, key) = .checking ∧ d.live = true

/-- The loop runs under a context that is not cancelled. -/
def Dispatcher.Reports (d : Dispatcher) (call : CallId) (key : String) : Prop :=
  (d.loops (call, key)).running = true ∧ d.live = true

instance (d : Dispatcher) (call : CallId) (key : String) : Decidable (d.Passes call key) :=
  inferInstanceAs (Decidable (_ ∧ _))

instance (d : Dispatcher) (call : CallId) (key : String) : Decidable (d.Reports call key) :=
  inferInstanceAs (Decidable (_ ∧ _))

/-- Two loops report to the same target. -/
def Dispatcher.TwoReporters (d : Dispatcher) : Prop :=
  ∃ call call' key, call ≠ call' ∧ d.Reports call key ∧ d.Reports call' key

/-- A context is assigned only when no loop runs and no other call has loops left to launch. -/
def AssignsAlone (d : Dispatcher) : Event → Prop
  | .assignCtx call _ => (∀ call' key, (d.loops (call', key)).running = false) ∧
      ∀ call' rest, call' ≠ call → d.starts call' = .launching rest → rest = []
  | _ => True

/-- All running loops, and all loops still to be launched, belong to the call whose context is stored. -/
structure Dispatcher.Exclusive (d : Dispatcher) : Prop where
  loops : ∀ call key, (d.loops (call, key)).running = true → d.generalCtx = some call
  launching : ∀ call entry rest, d.starts call = .launching (entry :: rest) → d.generalCtx = some call

/-- Launched loops that do not run have exited. -/
theorem LoopPc.exited_of_not_running {pc : LoopPc} (hlaunched : pc ≠ .notStarted)
    (hrunning : pc.running = false) : pc = .exited := by
  cases pc with
  | notStarted => exact absurd rfl hlaunched
  | checking => cases hrunning
  | reporting => cases hrunning
  | exited => rfl

/-- A call that has nothing to launch keeps the loops exclusive. -/
theorem Dispatcher.Exclusive.of_start {d d' : Dispatcher} {call : CallId} {pc : StartPc} (h : d.Exclusive)
    (hstarts : d'.starts = Function.update d.starts call pc) (hpc : ∀ rest, pc ≠ .launching rest)
    (hloops : d'.loops = d.loops) (hctx : d'.generalCtx = d.generalCtx) : d'.Exclusive := by
  constructor
  · rw [hloops, hctx]
    exact h.loops
  · intro call' entry rest hlaunching
    rw [hstarts, Function.update_apply] at hlaunching
    rw [hctx]
    split at hlaunching
    · exact absurd hlaunching (hpc _)
    · exact h.launching call' entry rest hlaunching

/-- A loop that was running may move on. -/
theorem Dispatcher.Exclusive.of_loop {d : Dispatcher} {call : CallId} {key : String} {pc : LoopPc}
    (h : d.Exclusive) (hrunning : (d.loops (call, key)).running = true) :
    (d.setLoop call key pc).Exclusive := by
  refine ⟨fun call' key' hrunning' => ?_, h.launching⟩
  by_cases hsame : (call', key') = (call, key)
  · rw [(Prod.mk.inj hsame).1]
    exact h.loops call key hrunning
  · rw [d.setLoop_loops_of_ne pc hsame] at hrunning'
    exact h.loops call' key' hrunning'

/-- A step that assigns alone keeps the loops exclusive. -/
theorem Dispatcher.Exclusive.step {d d' : Dispatcher} {e : Event} (h : d.Exclusive)
    (hstep : Dispatcher.Step d e d') (halone : AssignsAlone d e) : d'.Exclusive := by
  cases hstep.cases with
  | refused hpc hstatus => exact h.of_start rfl nofun rfl rfl
  | passed hpc hstatus => exact h.of_start rfl nofun rfl rfl
  | @assignCtx call order hpc horder =>
    constructor
    · intro call' key hrunning
      exact absurd hrunning (Bool.eq_false_iff.mp (halone.1 call' key))
    · intro call' entry rest hlaunching
      by_cases hsame : call' = call
      · rw [hsame, Dispatcher.assign_generalCtx]
      · rw [d.assign_starts_of_ne order hsame] at hlaunching
        cases halone.2 call' _ hsame hlaunching
  | @launched call entry rest outcome hpc houtcome =>
    have hctx := h.launching call entry rest hpc
    constructor
    · intro call' key hrunning
      by_cases hsame : (call', key) = (call, entry.1)
      · rw [(Prod.mk.inj hsame).1]
        exact hctx
      · rw [d.launch_loops_of_ne rest hsame] at hrunning
        exact h.loops call' key hrunning
    · intro call' entry' rest' hlaunching
      by_cases hsame : call' = call
      · rw [hsame]
        exact hctx
      · rw [d.launch_starts_of_ne _ rest hsame] at hlaunching
        exact h.launching call' entry' rest' hlaunching
  | launchFailed hpc houtcome => exact h.of_start rfl nofun rfl rfl
  | wait hpc hdone => exact h.of_start rfl nofun rfl rfl
  | finish hpc => exact h.of_start rfl nofun rfl rfl
  | stopped hstatus hctx => exact ⟨h.loops, h.launching⟩
  | stopRefused hresult => exact h
  | checkPassed hpc hlive => exact h.of_loop (by rw [hpc]; rfl)
  | checkExited hpc hlive => exact h.of_loop (by rw [hpc]; rfl)
  | report hpc => exact h.of_loop (by rw [hpc]; rfl)

/-- The loops are exclusive in all runs whose contexts are assigned alone. -/
theorem run_exclusive {targets : Targets} {events : List Event} {d : Dispatcher}
    (hrun : Run (Restrict Dispatcher.Step AssignsAlone) (newDispatcher targets) events d) :
    d.Exclusive := by
  induction hrun with
  | nil => exact ⟨nofun, nofun⟩
  | snoc _ hlast ih => exact ih.step hlast.1 hlast.2

/-- Exclusive loops report to different targets. -/
theorem Dispatcher.Exclusive.not_twoReporters {d : Dispatcher} (h : d.Exclusive) : ¬ d.TwoReporters := by
  intro htwo
  obtain ⟨call, call', key, hne, hreports, hreports'⟩ := htwo
  apply hne
  apply Option.some.inj
  rw [← h.loops call key hreports.1, ← h.loops call' key hreports'.1]

/-- A launched loop that will not pass its check again, unless a new context is assigned. -/
structure Dispatcher.Settled (d : Dispatcher) (call : CallId) (key : String) : Prop where
  launched : d.loops (call, key) ≠ .notStarted
  done : d.live = false ∨ d.loops (call, key) = .exited

/-- Steps of other loops leave a settled loop alone. -/
theorem Dispatcher.Settled.of_other {d : Dispatcher} {call call' : CallId} {key key' : String} {pc : LoopPc}
    (h : d.Settled call key) (hne : (call, key) ≠ (call', key')) :
    (d.setLoop call' key' pc).Settled call key := by
  have hsame := d.setLoop_loops_of_ne pc hne
  exact ⟨by rw [hsame]; exact h.launched, by rw [hsame]; exact h.done⟩

/-- A step that assigns alone keeps a loop settled. -/
theorem Dispatcher.Settled.step {d d' : Dispatcher} {e : Event} {call : CallId} {key : String}
    (h : d.Settled call key) (hinv : d.Inv) (hstep : Dispatcher.Step d e d') (halone : AssignsAlone d e) :
    d'.Settled call key := by
  cases hstep.cases with
  | refused hpc hstatus => exact ⟨h.launched, h.done⟩
  | passed hpc hstatus => exact ⟨h.launched, h.done⟩
  | assignCtx hpc horder =>
    exact ⟨h.launched, Or.inr (LoopPc.exited_of_not_running h.launched (halone.1 call key))⟩
  | @launched call' entry rest outcome hpc houtcome =>
    have hne : (call, key) ≠ (call', entry.1) := by
      intro hsame
      apply h.launched
      rw [hsame]
      exact ((hinv.pending call' _ hpc).2 entry List.mem_cons_self).2
    have hsame := d.launch_loops_of_ne rest hne
    exact ⟨by rw [hsame]; exact h.launched, by rw [hsame]; exact h.done⟩
  | launchFailed hpc houtcome => exact ⟨h.launched, h.done⟩
  | wait hpc hdone => exact ⟨h.launched, h.done⟩
  | finish hpc => exact ⟨h.launched, h.done⟩
  | stopped hstatus hctx => exact ⟨h.launched, Or.inl (Dispatcher.cancelCtx_live hctx)⟩
  | stopRefused hresult => exact h
  | @checkPassed call' key' hpc hlive =>
    have hexited : d.loops (call, key) = .exited := h.done.resolve_left (by rw [hlive]; nofun)
    apply h.of_other
    intro hsame
    rw [hsame, hpc] at hexited
    cases hexited
  | @checkExited call' key' hpc hlive =>
    by_cases hsame : (call, key) = (call', key')
    · rw [Prod.mk.injEq] at hsame
      obtain ⟨rfl, rfl⟩ := hsame
      have hself := d.setLoop_loops_self call key .exited
      exact ⟨by rw [hself]; nofun, Or.inr hself⟩
    · exact h.of_other hsame
  | @report call' key' hpc =>
    by_cases hsame : (call, key) = (call', key')
    · rw [Prod.mk.injEq] at hsame
      obtain ⟨rfl, rfl⟩ := hsame
      have hself := d.setLoop_loops_self call key .checking
      have hlive : d.live = false := h.done.resolve_right (by rw [hpc]; nofun)
      exact ⟨by rw [hself]; nofun, Or.inl hlive⟩
    · exact h.of_other hsame

/-- Loops stay settled in all runs whose contexts are assigned alone. -/
theorem run_settled {d d' : Dispatcher} {events : List Event} {call : CallId} {key : String}
    (h : d.Settled call key) (hinv : d.Inv)
    (hrun : Run (Restrict Dispatcher.Step AssignsAlone) d events d') : d'.Settled call key := by
  suffices hboth : d'.Settled call key ∧ d'.Inv from hboth.1
  induction hrun with
  | nil => exact ⟨h, hinv⟩
  | snoc _ hlast ih => exact ⟨ih.1.step ih.2 hlast.1 hlast.2, ih.2.step hlast.1⟩

/-- A `Stop` call that returns nil settles every launched loop. -/
theorem Dispatcher.settled_of_stop {d : Dispatcher} {call : CallId} {key : String}
    (hstop : d.stop.1 = .returned none) (hlaunched : d.loops (call, key) ≠ .notStarted) :
    d.stop.2.Settled call key := by
  cases hstatus : d.status with
  | stopped =>
    rw [Dispatcher.stop_of_stopped hstatus] at hstop
    cases hstop
  | running =>
    cases hctx : d.generalCtx with
    | none =>
      rw [Dispatcher.stop_of_unset hstatus hctx] at hstop
      cases hstop
    | some ctx =>
      rw [Dispatcher.stop_of_running hstatus hctx]
      exact ⟨hlaunched, Or.inl (Dispatcher.cancelCtx_live hctx)⟩

/-- A settled loop does not pass its check. -/
theorem Dispatcher.Settled.not_passes {d : Dispatcher} {call : CallId} {key : String}
    (h : d.Settled call key) : ¬ d.Passes call key := by
  intro hpasses
  rcases h.done with hlive | hexited
  · rw [hpasses.2] at hlive
    cases hlive
  · rw [hpasses.1] at hexited
    cases hexited

/-- A call that is launching can launch all its loops, and nothing else changes for the loops. -/
theorem run_launch (call : CallId) (rest : List (String × Target)) (d : Dispatcher)
    (hpc : d.starts call = .launching rest) :
    ∃ events d', Run Dispatcher.Step d events d' ∧ d'.live = d.live ∧
      (∀ key ∈ rest.map Prod.fst, d'.loops (call, key) = .checking) ∧
      (∀ key, d.loops (call, key) = .checking → d'.loops (call, key) = .checking) ∧
      ∀ call' key, call' ≠ call → d'.loops (call', key) = d.loops (call', key) := by
  induction rest generalizing d with
  | nil => exact ⟨[], d, Run.nil, rfl, nofun, fun _ h => h, fun _ _ _ => rfl⟩
  | cons entry rest ih =>
    have hlaunch : Dispatcher.StepCase d (.launch call .started) (d.launch call entry.1 rest) := .launched hpc rfl
    obtain ⟨events, d', hrun, hlive, hkeys, hkept, hothers⟩ :=
      ih (d.launch call entry.1 rest) (d.launch_starts_self call entry.1 rest)
    have hentry := d.launch_loops_self call entry.1 rest
    refine ⟨_, d', Run.cons hlaunch.step hrun, hlive, ?_, ?_, ?_⟩
    · intro key hkey
      rw [List.map_cons, List.mem_cons] at hkey
      rcases hkey with rfl | hkey
      · exact hkept _ hentry
      · exact hkeys key hkey
    · intro key hchecking
      apply hkept
      by_cases hsame : key = entry.1
      · rw [hsame]
        exact hentry
      · rw [d.launch_loops_of_ne rest fun heq => hsame (Prod.mk.inj heq).2]
        exact hchecking
    · intro call' key hne
      rw [hothers call' key hne]
      exact d.launch_loops_of_ne rest fun heq => hne (Prod.mk.inj heq).1

/-- A call whose context is stored and live can launch a second loop for a target with a running loop. -/
theorem twoReporters_of_running {d : Dispatcher} {call call' : CallId} {order : List (String × Target)}
    {key : String} (hpc : d.starts call = .launching order) (hlive : d.live = true)
    (hkey : key ∈ order.map Prod.fst) (hne : call' ≠ call)
    (hrunning : (d.loops (call', key)).running = true) :
    ∃ events d', Run Dispatcher.Step d events d' ∧ d'.TwoReporters := by
  obtain ⟨events, d', hrun, hlive', hkeys, -, hothers⟩ := run_launch call order d hpc
  refine ⟨events, d', hrun, call, call', key, hne.symm, ⟨?_, hlive'.trans hlive⟩, ?_, hlive'.trans hlive⟩
  · rw [hkeys key hkey]
    rfl
  · rw [hothers call' key hne]
    exact hrunning

/-- A context that is assigned while loops run or remain to be launched can lead to two reporters. -/
theorem twoReporters_of_assignCtx {d d' : Dispatcher} {call : CallId} {order : List (String × Target)}
    (hinv : d.Inv) (hstep : Dispatcher.Step d (.assignCtx call order) d')
    (hearly : ¬ AssignsAlone d (.assignCtx call order)) :
    ∃ events u, Run Dispatcher.Step d' events u ∧ u.TwoReporters := by
  cases hstep.cases with
  | assignCtx hpc horder =>
    have hlive : (d.assign call order).live = true := by
      rw [Dispatcher.assign_live, (hinv.freshCtx call (Or.inr hpc)).2]
      rfl
    have hself := d.assign_starts_self call order
    have hkeys : ∀ key, key ∈ d.targets.entries.map Prod.fst → key ∈ order.map Prod.fst :=
      fun key hkey => (horder.map Prod.fst).symm.subset hkey
    by_cases hquiet : ∀ call' key, (d.loops (call', key)).running = false
    · obtain ⟨call', rest, hne, hlaunching, hrest⟩ : ∃ call' rest, call' ≠ call ∧
          d.starts call' = .launching rest ∧ rest ≠ [] := by
        by_contra hnone
        apply hearly
        refine ⟨hquiet, fun call' rest hne hlaunching => ?_⟩
        by_contra hrest
        exact hnone ⟨call', rest, hne, hlaunching, hrest⟩
      obtain ⟨entry, rest, rfl⟩ := List.exists_cons_of_ne_nil hrest
      have hother := (d.assign_starts_of_ne order hne).trans hlaunching
      have hentry := ((hinv.pending call' _ hlaunching).2 entry List.mem_cons_self).1
      have hlaunch : Dispatcher.StepCase (d.assign call order) (.launch call' .started)
          ((d.assign call order).launch call' entry.1 rest) := .launched hother rfl
      have hself' := ((d.assign call order).launch_starts_of_ne entry.1 rest hne.symm).trans hself
      have hrunning : (((d.assign call order).launch call' entry.1 rest).loops (call', entry.1)).running =
          true := by
        rw [Dispatcher.launch_loops_self]
        rfl
      obtain ⟨events, u, hrun, htwo⟩ := twoReporters_of_running hself' hlive
        (hkeys entry.1 (List.mem_map_of_mem hentry)) hne hrunning
      exact ⟨_, u, Run.cons hlaunch.step hrun, htwo⟩
    · simp only [not_forall, Bool.not_eq_false] at hquiet
      obtain ⟨call', key, hrunning⟩ := hquiet
      have hlaunched : d.loops (call', key) ≠ .notStarted := by
        intro hnot
        rw [hnot] at hrunning
        cases hrunning
      have hne : call' ≠ call := by
        intro hsame
        exact hlaunched (hinv.freshLoops call' key (Or.inr (hsame ▸ hpc)))
      exact twoReporters_of_running hself hlive (hkeys key (hinv.known call' key hlaunched)) hne hrunning

/-- When every context is assigned alone, no target has two reporting loops and no loop launched
before a successful `Stop` passes its check again; every other assignment of a context can be
continued to two loops that report to the same target. -/
theorem stop_final (targets : Targets) :
    (∀ events d, Run (Restrict Dispatcher.Step AssignsAlone) (newDispatcher targets) events d →
      ¬ d.TwoReporters ∧ (d.stop.1 = .returned none → ∀ later d',
        Run (Restrict Dispatcher.Step AssignsAlone) d.stop.2 later d' →
          ∀ call key, d.loops (call, key) ≠ .notStarted → ¬ d'.Passes call key)) ∧
    ∀ events d e d', Run Dispatcher.Step (newDispatcher targets) events d → Dispatcher.Step d e d' →
      ¬ AssignsAlone d e → ∃ later u, Run Dispatcher.Step d' later u ∧ u.TwoReporters := by
  constructor
  · intro events d hrun
    refine ⟨(run_exclusive hrun).not_twoReporters, ?_⟩
    intro hstop later d' hlater call key hlaunched
    have hinv : d.stop.2.Inv := (run_inv hrun.unrestrict).step (e := .stop) rfl
    exact (run_settled (Dispatcher.settled_of_stop hstop hlaunched) hinv hlater).not_passes
  · intro events d e d' hrun hstep hearly
    cases e with
    | assignCtx call order => exact twoReporters_of_assignCtx (run_inv hrun) hstep hearly
    | _ => exact absurd trivial hearly

/-- A node starts and reports once. -/
def firstStart : List Event :=
  [.startGuard 0, .assignCtx 0 soleTargets.entries, .launch 0 .started, .check 0 "10.0.0.1:7070",
    .report 0 "10.0.0.1:7070"]

/-- The node is started again before its loop has noticed the stop. -/
def secondStart : List Event :=
  [.startGuard 1, .assignCtx 1 soleTargets.entries, .launch 1 .started]

/-- A stopped loop passes its check again, and two loops report to the same target. -/
theorem stop_not_final :
    ∃ d d', Run Dispatcher.Step (newDispatcher soleTargets) firstStart d ∧ d.stop.1 = .returned none ∧
      d.loops (0, "10.0.0.1:7070") ≠ .notStarted ∧ Run Dispatcher.Step d.stop.2 secondStart d' ∧
      d'.Passes 0 "10.0.0.1:7070" ∧ d'.TwoReporters := by
  refine ⟨_, _, run_of_replay firstStart rfl, rfl, by decide, run_of_replay secondStart rfl, by decide, ?_⟩
  exact ⟨0, 1, "10.0.0.1:7070", by decide, by decide, by decide⟩

end GaleLB.NodeNetwork
