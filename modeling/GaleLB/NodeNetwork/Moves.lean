import GaleLB.NodeNetwork.CancelOwnership
import GaleLB.NodeNetwork.StopFinality

/-!
# What one event does to a call and to a loop

Every event moves at most one `Start` call and at most one loop. The moves of a single call
and of a single loop say what is left behind: a loop exits when the stored context is
cancelled, and a call waits until all its loops have exited. Contexts stay stored and
cancelled. So a call that returns without an error has seen all its loops exit, and a
context that some `Stop` has cancelled.
-/

namespace GaleLB.NodeNetwork

open Transition

/-- The call that an event moves. -/
def Event.startCall : Event → Option CallId
  | .startGuard call | .assignCtx call _ | .launch call _ | .wait call | .finish call => some call
  | .stop | .check _ _ | .report _ _ => none

/-- The loop that an event moves, if it is launched already. -/
def Event.loop : Event → Option (CallId × String)
  | .check call key | .report call key => some (call, key)
  | _ => none

/-- The ways in which an event moves a call. -/
inductive StartMove (d d' : Dispatcher) (call : CallId) : Event → StartPc → StartPc → Prop
  | stays {e pc} (hother : e.startCall ≠ some call) : StartMove d d' call e pc pc
  | refused (hstatus : d.status = .running) :
      StartMove d d' call (.startGuard call) .idle (.returned (some "dispatcher is already running"))
  | passed : StartMove d d' call (.startGuard call) .idle .assigning
  | assigned {order} (horder : order.Perm d.targets.entries) :
      StartMove d d' call (.assignCtx call order) .assigning (.launching order)
  | launched {entry rest outcome} (hloop : d'.loops (call, entry.1) = .checking) :
      StartMove d d' call (.launch call outcome) (.launching (entry :: rest)) (.launching rest)
  | failed {entry rest outcome err} (houtcome : launchError entry.2 outcome = some err) :
      StartMove d d' call (.launch call outcome) (.launching (entry :: rest)) (.deferring (some err))
  | waited (hdone : d.loopsDone call = true) : StartMove d d' call (.wait call) (.launching []) (.deferring none)
  | finished {result} : StartMove d d' call (.finish call) (.deferring result) (.returned result)

/-- The ways in which an event moves a loop. -/
inductive LoopMove (d : Dispatcher) (call : CallId) (key : String) : Event → LoopPc → LoopPc → Prop
  | stays {e pc} (hother : e.loop ≠ some (call, key)) : LoopMove d call key e pc pc
  | launched {entry rest outcome} (hpc : d.starts call = .launching (entry :: rest)) (hkey : entry.1 = key) :
      LoopMove d call key (.launch call outcome) .notStarted .checking
  | passed (hlive : d.live = true) : LoopMove d call key (.check call key) .checking .reporting
  | exited (hlive : d.live = false) : LoopMove d call key (.check call key) .checking .exited
  | reported : LoopMove d call key (.report call key) .reporting .checking

variable {d d' : Dispatcher} {e : Event} {events : List Event} {targets : Targets}

/-- A call that an event does not move stays where it is. -/
theorem StartMove.of_update {call call' : CallId} {pc : StartPc}
    (hstarts : d'.starts = Function.update d.starts call' pc)
    (he : e.startCall = some call') (hmove : StartMove d d' call' e (d.starts call') pc) :
    StartMove d d' call e (d.starts call) (d'.starts call) := by
  by_cases hsame : call = call'
  · subst hsame
    rw [hstarts, Function.update_self]
    exact hmove
  · rw [hstarts, Function.update_of_ne hsame]
    exact .stays fun h => hsame (Option.some.inj (h.symm.trans he))

/-- Every event moves a call in one of these ways. -/
theorem Dispatcher.Step.startMove (h : Dispatcher.Step d e d') (call : CallId) :
    StartMove d d' call e (d.starts call) (d'.starts call) := by
  cases h.cases with
  | refused hpc hstatus => exact .of_update rfl rfl (hpc ▸ .refused hstatus)
  | passed hpc hstatus => exact .of_update rfl rfl (hpc ▸ .passed)
  | assignCtx hpc horder => exact .of_update rfl rfl (hpc ▸ .assigned horder)
  | @launched call' entry rest outcome hpc houtcome =>
    exact .of_update rfl rfl (hpc ▸ .launched (Dispatcher.launch_loops_self d call' entry.1 rest))
  | launchFailed hpc houtcome => exact .of_update rfl rfl (hpc ▸ .failed houtcome)
  | wait hpc hdone => exact .of_update rfl rfl (hpc ▸ .waited hdone)
  | finish hpc => exact .of_update rfl rfl (hpc ▸ .finished)
  | stopped | stopRefused | checkPassed | checkExited | report => exact .stays nofun

/-- A loop that an event does not move stays where it is. -/
theorem LoopMove.of_setLoop {call call' : CallId} {key key' : String} {pc : LoopPc}
    (he : e.loop = some (call', key')) (hmove : LoopMove d call' key' e (d.loops (call', key')) pc) :
    LoopMove d call key e (d.loops (call, key)) ((d.setLoop call' key' pc).loops (call, key)) := by
  by_cases hsame : (call, key) = (call', key')
  · cases hsame
    rw [Dispatcher.setLoop_loops_self]
    exact hmove
  · rw [Dispatcher.setLoop_loops_of_ne d pc hsame]
    exact .stays fun h => hsame (Option.some.inj (h.symm.trans he))

/-- Every event moves a loop in one of these ways. -/
theorem Dispatcher.Step.loopMove (h : Dispatcher.Step d e d') (hinv : d.Inv) (call : CallId) (key : String) :
    LoopMove d call key e (d.loops (call, key)) (d'.loops (call, key)) := by
  cases h.cases with
  | refused | passed | assignCtx | launchFailed | wait | finish | stopped | stopRefused => exact .stays nofun
  | @launched call' entry rest outcome hpc houtcome =>
    by_cases hsame : (call, key) = (call', entry.1)
    · cases hsame
      rw [Dispatcher.launch_loops_self, ((hinv.pending call _ hpc).2 entry List.mem_cons_self).2]
      exact .launched hpc rfl
    · rw [Dispatcher.launch_loops_of_ne d rest hsame]
      exact .stays nofun
  | checkPassed hpc hlive => exact .of_setLoop rfl (hpc ▸ .passed hlive)
  | checkExited hpc hlive => exact .of_setLoop rfl (hpc ▸ .exited hlive)
  | report hpc => exact .of_setLoop rfl (hpc ▸ .reported)

/-- A stored context is never removed. -/
theorem Dispatcher.Step.generalCtx_ne_none (h : Dispatcher.Step d e d') (hctx : d.generalCtx ≠ none) :
    d'.generalCtx ≠ none := by
  rw [h.generalCtx]
  split
  · exact Option.isSome_iff_ne_none.mp ‹_›
  · exact hctx

/-- A cancelled context stays cancelled, and a new one is cancelled by a successful `Stop` only. -/
theorem Dispatcher.Step.cancelled {ctx : CallId} (h : Dispatcher.Step d e d') :
    (d.cancelled ctx = true → d'.cancelled ctx = true) ∧
      (d'.cancelled ctx = true → d.cancelled ctx = true ∨ e = .stop ∧ d.stop.1 = .returned none) := by
  cases h.cases with
  | @stopped ctx' hstatus hctx =>
    refine ⟨fun hcancelled => ?_, fun _ => Or.inr ⟨rfl, by rw [Dispatcher.stop_of_running hstatus hctx]⟩⟩
    rw [Dispatcher.cancelCtx_cancelled]
    by_cases hsame : ctx = ctx'
    · rw [hsame, Function.update_self]
    · rw [Function.update_of_ne hsame, hcancelled]
  | _ => exact ⟨id, Or.inl⟩

/-- The targets of a dispatcher stay the same. -/
theorem Dispatcher.Step.targets_eq (h : Dispatcher.Step d e d') : d'.targets = d.targets := by
  cases h.cases <;> rfl

/-- What the launched loops and the returned calls of a dispatcher tell about its past. -/
structure Dispatcher.Explained (d : Dispatcher) : Prop where
  launching : ∀ call rest, d.starts call = .launching rest → d.generalCtx ≠ none
  loops : ∀ call key, d.loops (call, key) ≠ .notStarted → d.generalCtx ≠ none
  exited : ∀ call key, d.loops (call, key) = .exited → ∃ ctx, d.cancelled ctx = true
  launched : ∀ call rest, d.starts call = .launching rest → ∀ entry ∈ d.targets.entries,
    entry ∈ rest ∨ d.loops (call, entry.1) ≠ .notStarted
  done : ∀ call, d.starts call = .deferring none ∨ d.starts call = .returned none → ∀ entry ∈ d.targets.entries,
    d.loops (call, entry.1) = .exited

/-- A call that has begun does not become idle. -/
theorem StartMove.begun_mono {call : CallId} {pc pc' : StartPc} (h : StartMove d d' call e pc pc')
    (hbegun : pc ≠ .idle) : pc' ≠ .idle := by
  cases h with
  | stays => exact hbegun
  | _ => nofun

/-- A call that has returned does not move. -/
theorem StartMove.returned_mono {call : CallId} {pc pc' : StartPc} (h : StartMove d d' call e pc pc')
    {result : Option String} (hreturned : pc = .returned result) : pc' = .returned result := by
  cases h with
  | stays => exact hreturned
  | _ => cases hreturned

/-- A launched loop stays launched. -/
theorem LoopMove.launched_mono {call : CallId} {key : String} {pc pc' : LoopPc} (h : LoopMove d call key e pc pc')
    (hlaunched : pc ≠ .notStarted) : pc' ≠ .notStarted := by
  cases h with
  | stays => exact hlaunched
  | _ => nofun

/-- A loop that has exited does not move. -/
theorem LoopMove.exited_mono {call : CallId} {key : String} {pc pc' : LoopPc} (h : LoopMove d call key e pc pc')
    (hexited : pc = .exited) : pc' = .exited := by
  cases h with
  | stays => exact hexited
  | _ => cases hexited

/-- A context that is stored and not live is cancelled. -/
theorem Dispatcher.exists_cancelled (hctx : d.generalCtx ≠ none) (hlive : d.live = false) :
    ∃ ctx, d.cancelled ctx = true := by
  obtain ⟨ctx, hstored⟩ := Option.ne_none_iff_exists'.mp hctx
  unfold Dispatcher.live at hlive
  rw [hstored, Option.any_some, Bool.not_eq_false'] at hlive
  exact ⟨ctx, hlive⟩

/-- Every step keeps the past of a dispatcher explained. -/
theorem Dispatcher.Explained.step (h : d.Explained) (hinv : d.Inv) (hstep : Dispatcher.Step d e d') :
    d'.Explained where
  launching call rest hpc := by
    have hmove := hstep.startMove call
    rw [hpc] at hmove
    generalize hstart : d.starts call = pc at hmove
    cases hmove with
    | stays | launched => exact hstep.generalCtx_ne_none (h.launching call _ hstart)
    | assigned =>
      rw [hstep.generalCtx]
      nofun
  loops call key hlaunched := by
    have hmove := hstep.loopMove hinv call key
    apply hstep.generalCtx_ne_none
    generalize hpc : d.loops (call, key) = pc at hmove
    generalize d'.loops (call, key) = pc' at hmove hlaunched
    cases hmove with
    | stays => exact h.loops call key (hpc ▸ hlaunched)
    | launched hstart => exact h.launching call _ hstart
    | passed | exited | reported => exact h.loops call key (by rw [hpc]; nofun)
  exited call key hexited := by
    have hmove := hstep.loopMove hinv call key
    rw [hexited] at hmove
    generalize hpc : d.loops (call, key) = pc at hmove
    have hcancelled : ∃ ctx, d.cancelled ctx = true := by
      cases hmove with
      | stays => exact h.exited call key hpc
      | exited hlive => exact Dispatcher.exists_cancelled (h.loops call key (by rw [hpc]; nofun)) hlive
    obtain ⟨ctx, hctx⟩ := hcancelled
    exact ⟨ctx, hstep.cancelled.1 hctx⟩
  launched call rest hpc entry hentry := by
    have hmove := hstep.startMove call
    have hmono := (hstep.loopMove hinv call entry.1).launched_mono
    rw [hpc] at hmove
    rw [hstep.targets_eq] at hentry
    generalize hstart : d.starts call = pc at hmove
    cases hmove with
    | stays => exact (h.launched call rest hstart entry hentry).imp_right hmono
    | assigned horder => exact Or.inl (horder.mem_iff.mpr hentry)
    | @launched first _ _ hloop =>
      rcases h.launched call _ hstart entry hentry with hmem | hlaunched
      · rcases List.mem_cons.mp hmem with rfl | hrest
        · exact Or.inr (by rw [hloop]; nofun)
        · exact Or.inl hrest
      · exact Or.inr (hmono hlaunched)
  done call hpc entry hentry := by
    have hmove := hstep.startMove call
    have hmono := (hstep.loopMove hinv call entry.1).exited_mono
    rw [hstep.targets_eq] at hentry
    generalize hstart : d.starts call = pc at hmove
    generalize d'.starts call = pc' at hmove hpc
    cases hmove with
    | stays => exact hmono (h.done call (hstart ▸ hpc) entry hentry)
    | finished =>
      rcases hpc with hpc | hpc
      · cases hpc
      · cases hpc
        exact hmono (h.done call (Or.inl hstart) entry hentry)
    | waited hdone =>
      have hlaunched := (h.launched call [] hstart entry hentry).resolve_left List.not_mem_nil
      have hidle := List.all_eq_true.mp hdone entry hentry
      rw [Bool.not_eq_true'] at hidle
      exact hmono (LoopPc.exited_of_not_running hlaunched hidle)
    | refused | passed | assigned | launched | failed => rcases hpc with hpc | hpc <;> cases hpc

/-- The past of a dispatcher is explained in every run. -/
theorem run_explained (hrun : Run Dispatcher.Step (newDispatcher targets) events d) : d.Explained := by
  induction hrun with
  | nil =>
    refine ⟨nofun, fun _ _ h => absurd rfl h, nofun, nofun, fun call hpc => ?_⟩
    rcases hpc with hpc | hpc <;> cases hpc
  | snoc hrun hlast ih => exact ih.step (run_inv hrun) hlast

end GaleLB.NodeNetwork
