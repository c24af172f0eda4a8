import GaleLB.Common.Potential
import GaleLB.NodeNetwork.NodeProcess
import Mathlib.Algebra.BigOperators.Group.Finset.Piecewise
import Mathlib.Algebra.Order.BigOperators.Group.Finset

/-!
# A stopped node exits

After a successful `Stop`, and as long as no request stores a new context, the loops of the
main goroutine's call can only report once more and exit. The call then returns, and the
process ends. Each of these actions uses up a part of a bounded amount of work, and one of
them is enabled as long as the process has not ended, so a request to stop the dispatcher
ends the whole process, without a panic.
-/

namespace GaleLB.NodeNetwork

open Transition

/-- The work of the main goroutine after its call. -/
def MainPc.potential : MainPc → ℕ
  | .starting => 2
  | .closing _ => 1
  | .exited _ => 0

/-- The work of a call; a launched loop has work of its own. -/
def StartPc.potential : StartPc → ℕ
  | .launching rest => 2 * rest.length + 2
  | .deferring _ => 1
  | _ => 0

/-- The work of a loop whose context is cancelled. -/
def LoopPc.potential : LoopPc → ℕ
  | .reporting => 2
  | .checking => 1
  | _ => 0

/-- The keys of the targets. -/
def Targets.keys (targets : Targets) : Finset String := (targets.entries.map Prod.fst).toFinset

/-- The work of the loops of a call. -/
def Dispatcher.loopsPotential (d : Dispatcher) (call : CallId) : ℕ :=
  ∑ key ∈ d.targets.keys, (d.loops (call, key)).potential

/-- The work that a stopped process has left. -/
def NodeProcess.potential (p : NodeProcess) : ℕ :=
  p.main.potential + (p.dispatcher.starts 0).potential + p.dispatcher.loopsPotential 0

/-- The event is one of the main goroutine or of the loops of its call. -/
def ProcessEvent.own : ProcessEvent → Bool
  | .goroutine e => e.startCall = some 0 || e.loop.any fun loop => loop.1 = 0
  | .deferredStop | .shutdown => true
  | .postStop _ | .getStatus _ => false

/-- Events of others are not paid for. -/
def ProcessEvent.refill (e : ProcessEvent) : ℕ := if e.own then 0 else 1

/-- The event stores no context. -/
def ProcessEvent.StoresNothing (e : ProcessEvent) : Prop := ∀ call order, e ≠ .goroutine (.assignCtx call order)

/-- The steps in which no context is stored. -/
abbrev NodeProcess.QuietStep : NodeProcess → ProcessEvent → NodeProcess → Prop :=
  Restrict NodeProcess.Step fun _ e => e.StoresNothing

/-- What holds of a process after a successful `Stop`, while no context is stored. -/
structure NodeProcess.Stopping (p : NodeProcess) : Prop where
  inv : p.dispatcher.Inv
  cancelled : p.dispatcher.live = false
  stored : p.dispatcher.generalCtx ≠ none
  begun : p.dispatcher.starts 0 ≠ .idle ∧ p.dispatcher.starts 0 ≠ .assigning
  orderly : p.main ≠ .closing true ∧ p.main ≠ .exited true

variable {p q u : NodeProcess} {e : ProcessEvent} {events before : List ProcessEvent} {targets : Targets}

/-- Without a new context, a cancelled one stays the stored one. -/
theorem Dispatcher.Step.live_eq_false {d d' : Dispatcher} {e : Event} (h : Dispatcher.Step d e d')
    (hstores : ∀ call order, e ≠ .assignCtx call order) (hlive : d.live = false) : d'.live = false := by
  cases h.cases with
  | assignCtx => exact absurd rfl (hstores _ _)
  | stopped _ hctx => exact Dispatcher.cancelCtx_live hctx
  | _ => exact hlive

/-- A successful `Stop` leaves no live context. -/
theorem Dispatcher.live_of_stop {d : Dispatcher} (hstop : d.stop.1 = .returned none) : d.stop.2.live = false := by
  cases hstatus : d.status with
  | stopped =>
    rw [Dispatcher.stop_of_stopped hstatus] at hstop
    cases hstop
  | running =>
    cases hctx : d.generalCtx with
    | none =>
      rw [Dispatcher.stop_of_unset hstatus hctx] at hstop
      cases hstop
    | some ctx =>
      rw [Dispatcher.stop_of_running hstatus hctx]
      exact Dispatcher.cancelCtx_live hctx

/-- A dispatcher with a context does not panic in `Stop`. -/
theorem Dispatcher.stop_ne_panics {d : Dispatcher} (h : d.generalCtx ≠ none) : d.stop.1 ≠ .panics :=
  fun hpanics => h ((Dispatcher.stop_panics_iff d).mp hpanics).2

/-- Every quiet step keeps a process stopping. -/
theorem NodeProcess.Stopping.step (h : p.Stopping) (hstep : NodeProcess.QuietStep p e q) : q.Stopping := by
  obtain ⟨hstep, hstores⟩ := hstep
  have hdispatcher : q.dispatcher.Inv ∧ q.dispatcher.live = false ∧ q.dispatcher.generalCtx ≠ none ∧
      q.dispatcher.starts 0 ≠ .idle ∧ q.dispatcher.starts 0 ≠ .assigning := by
    cases hevent : e.ofDispatcher with
    | none =>
      rw [hstep.dispatcher_eq hevent]
      exact ⟨h.inv, h.cancelled, h.stored, h.begun⟩
    | some e' =>
      have hmove := hstep.ofDispatcher hevent
      have hstores' (call : CallId) (order : List (String × Target)) : e' ≠ .assignCtx call order := by
        rintro rfl
        exact hstores call order (ProcessEvent.eq_goroutine hevent nofun)
      refine ⟨h.inv.step hmove, hmove.live_eq_false hstores' h.cancelled, hmove.generalCtx_ne_none h.stored, ?_⟩
      have hstart := hmove.startMove 0
      have hbegun := h.begun
      generalize p.dispatcher.starts 0 = pc at hstart hbegun
      generalize q.dispatcher.starts 0 = pc' at hstart
      cases hstart with
      | stays => exact hbegun
      | refused | passed => exact absurd rfl hbegun.1
      | assigned => exact absurd rfl hbegun.2
      | launched | failed | waited | finished => exact ⟨nofun, nofun⟩
  refine ⟨hdispatcher.1, hdispatcher.2.1, hdispatcher.2.2.1, hdispatcher.2.2.2, ?_⟩
  cases hstep.cases with
  | goroutine | postStop | getStatus => exact h.orderly
  | deferredStop =>
    rw [decide_eq_false (Dispatcher.stop_ne_panics h.stored)]
    exact ⟨nofun, nofun⟩
  | @shutdown panicking hmain =>
    have horderly := h.orderly.1
    rw [hmain] at horderly
    cases panicking with
    | true => exact absurd rfl horderly
    | false => exact ⟨nofun, nofun⟩

/-- The key of the target that a call launches next. -/
def StartPc.nextKey : StartPc → Option String
  | .launching (entry :: _) => some entry.1
  | _ => none

/-- An event that moves a loop moves no call. -/
theorem Event.startCall_of_loop {e : Event} {loop : CallId × String} (h : e.loop = some loop) :
    e.startCall = none := by
  cases e with
  | check | report => rfl
  | _ => cases h

section Loops

variable {d d' : Dispatcher} {e : Event} {call : CallId} {key : String}

/-- Under a cancelled context the work of a loop grows by its launch only. -/
theorem LoopMove.potential_le {pc pc' : LoopPc} (h : LoopMove d call key e pc pc') (hlive : d.live = false) :
    pc'.potential ≤
      pc.potential + if e.startCall = some call ∧ (d.starts call).nextKey = some key then 1 else 0 := by
  cases h with
  | stays => exact Nat.le_add_right _ _
  | launched hpc hkey => rw [if_pos ⟨rfl, by rw [hpc, ← hkey]; rfl⟩]; exact Nat.le_refl 1
  | passed hpassed =>
    rw [hpassed] at hlive
    cases hlive
  | exited => exact Nat.zero_le _
  | reported => exact Nat.le_add_right_of_le (Nat.le_succ 1)

/-- A loop that moves under a cancelled context uses up work. -/
theorem LoopMove.potential_lt {pc pc' : LoopPc} (h : LoopMove d call key e pc pc') (hlive : d.live = false)
    (hloop : e.loop = some (call, key)) : pc'.potential < pc.potential := by
  cases h with
  | stays hother => exact absurd hloop hother
  | launched => cases hloop
  | passed hpassed =>
    rw [hpassed] at hlive
    cases hlive
  | exited | reported => exact Nat.lt_succ_self _

/-- Under a cancelled context the work of the loops of a call grows by its launches only. -/
theorem Dispatcher.Step.loopsPotential_le (h : Dispatcher.Step d e d') (hinv : d.Inv) (hlive : d.live = false)
    (call : CallId) :
    d'.loopsPotential call ≤ d.loopsPotential call +
      if e.startCall = some call ∧ (d.starts call).nextKey.isSome then 1 else 0 := by
  unfold Dispatcher.loopsPotential
  rw [h.targets_eq]
  have hsum := Finset.sum_le_sum fun key (_ : key ∈ d.targets.keys) =>
    (h.loopMove hinv call key).potential_le hlive
  rw [Finset.sum_add_distrib] at hsum
  refine hsum.trans (Nat.add_le_add_left ?_ _)
  by_cases hcall : e.startCall = some call
  · cases (d.starts call).nextKey with
    | none => simp
    | some next =>
      simp only [hcall, true_and, Option.some.injEq, Finset.sum_ite_eq, Option.isSome_some, if_true]
      split <;> decide
  · simp [hcall]

/-- A loop that moves under a cancelled context uses up work of its call. -/
theorem Dispatcher.Step.loopsPotential_lt (h : Dispatcher.Step d e d') (hinv : d.Inv) (hlive : d.live = false)
    (hloop : e.loop = some (call, key)) : d'.loopsPotential call < d.loopsPotential call := by
  have hcall : e.startCall ≠ some call := by
    rw [Event.startCall_of_loop hloop]
    nofun
  have hmoves := (h.loopMove hinv call key).potential_lt hlive hloop
  have hkey : key ∈ d.targets.keys := by
    refine List.mem_toFinset.mpr (hinv.known call key fun hpc => ?_)
    rw [hpc] at hmoves
    exact absurd hmoves (Nat.not_lt_zero _)
  unfold Dispatcher.loopsPotential
  rw [h.targets_eq]
  refine Finset.sum_lt_sum (fun key _ => ?_) ⟨key, hkey, hmoves⟩
  have hle := (h.loopMove hinv call key).potential_le hlive
  rw [if_neg fun hsame => hcall hsame.1] at hle
  exact hle

end Loops

/-- An event that moves another call leaves the work of a call and of its loops. -/
theorem Dispatcher.Step.potential_of_other {d d' : Dispatcher} {e : Event} {call : CallId}
    (h : Dispatcher.Step d e d') (hinv : d.Inv) (hlive : d.live = false) (hother : e.startCall ≠ some call) :
    (d'.starts call).potential + d'.loopsPotential call ≤ (d.starts call).potential + d.loopsPotential call := by
  have hloops := h.loopsPotential_le hinv hlive call
  rw [if_neg fun hsame => hother hsame.1] at hloops
  have hstart := h.startMove call
  generalize d.starts call = pc at hstart
  generalize d'.starts call = pc' at hstart
  cases hstart with
  | stays => omega
  | _ => exact absurd rfl hother

/-- An event that moves a call uses up work of the call, unless it is the start of the call. -/
theorem Dispatcher.Step.potential_of_call {d d' : Dispatcher} {e : Event} {call : CallId}
    (h : Dispatcher.Step d e d') (hinv : d.Inv) (hlive : d.live = false) (hcall : e.startCall = some call)
    (hbegun : d.starts call ≠ .idle ∧ d.starts call ≠ .assigning) :
    (d'.starts call).potential + d'.loopsPotential call < (d.starts call).potential + d.loopsPotential call := by
  have hloops := h.loopsPotential_le hinv hlive call
  have hstart := h.startMove call
  generalize d.starts call = pc at hstart hbegun hloops
  generalize d'.starts call = pc' at hstart
  cases hstart with
  | stays hother => exact absurd hcall hother
  | refused | passed => exact absurd rfl hbegun.1
  | assigned => exact absurd rfl hbegun.2
  | launched =>
    rw [if_pos ⟨rfl, rfl⟩] at hloops
    simp only [StartPc.potential, List.length_cons]
    omega
  | failed =>
    rw [if_pos ⟨rfl, rfl⟩] at hloops
    simp only [StartPc.potential, List.length_cons]
    omega
  | waited | finished =>
    rw [if_neg fun hsame => Bool.false_ne_true hsame.2] at hloops
    simp only [StartPc.potential, List.length_nil]
    omega

/-- Every quiet step of a stopping process is paid for. -/
theorem NodeProcess.Stopping.costs (h : p.Stopping) (hstep : NodeProcess.QuietStep p e q) :
    q.potential + 1 ≤ p.potential + e.refill := by
  obtain ⟨hstep, -⟩ := hstep
  unfold NodeProcess.potential ProcessEvent.refill
  have hdispatcher (e' : Event) (hevent : e.ofDispatcher = some e') (hother : e'.startCall ≠ some 0) :=
    (hstep.ofDispatcher hevent).potential_of_other h.inv h.cancelled hother
  cases hstep.cases with
  | @goroutine e' d halive hnot hmove =>
    dsimp only
    by_cases hcall : e'.startCall = some 0
    · have hpaid := hmove.potential_of_call h.inv h.cancelled hcall h.begun
      rw [if_pos (by rw [ProcessEvent.own, hcall]; rfl)]
      omega
    · have hrest := hdispatcher e' rfl hcall
      dsimp only at hrest
      by_cases hloop : ∃ key, e'.loop = some (0, key)
      · obtain ⟨key, hloop⟩ := hloop
        have hpaid := hmove.loopsPotential_lt h.inv h.cancelled hloop
        have hstays : d.starts 0 = p.dispatcher.starts 0 := by
          have hstart := hmove.startMove 0
          generalize p.dispatcher.starts 0 = pc at hstart ⊢
          generalize d.starts 0 = pc' at hstart ⊢
          cases hstart with
          | stays => rfl
          | _ => exact absurd rfl hcall
        rw [hstays, if_pos (by rw [ProcessEvent.own, hloop]; simp)]
        omega
      · have hforeign : (ProcessEvent.goroutine e').own = false := by
          rw [ProcessEvent.own, decide_eq_false hcall, Bool.false_or]
          cases hmoved : e'.loop with
          | none => rfl
          | some loop =>
            rw [Option.any_some, decide_eq_false_iff_not]
            rintro hzero
            exact hloop ⟨loop.2, hmoved.trans (by rw [← hzero])⟩
        rw [hforeign, if_neg Bool.false_ne_true]
        omega
  | postStop =>
    have hrest := hdispatcher .stop rfl nofun
    dsimp only at hrest ⊢
    rw [if_neg (by nofun)]
    omega
  | getStatus =>
    rw [if_neg (by nofun)]
  | deferredStop hmain =>
    have hrest := hdispatcher .stop rfl nofun
    have hown : ProcessEvent.deferredStop.own = true := rfl
    dsimp only at hrest ⊢
    rw [if_pos hown, hmain]
    simp only [MainPc.potential]
    omega
  | shutdown hmain =>
    have hown : ProcessEvent.shutdown.own = true := rfl
    rw [if_pos hown, hmain]
    simp only [MainPc.potential]
    omega

/-- The quiet steps of a stopping process are paid for. -/
theorem stopping_pays :
    Pays NodeProcess.QuietStep NodeProcess.Stopping NodeProcess.potential ProcessEvent.refill :=
  ⟨fun _ _ _ h hstep => h.step hstep, fun _ _ _ h hstep => h.costs hstep⟩

/-- As long as the process has not ended, the main goroutine or one of its loops can go on. -/
theorem NodeProcess.Stopping.exists_step (h : p.Stopping) (halive : p.main.alive = true) :
    ∃ e q, e.own = true ∧ NodeProcess.QuietStep p e q := by
  have hquiet {e : Event} {d : Dispatcher} (hstep : Dispatcher.StepCase p.dispatcher e d) (hstop : e ≠ .stop)
      (hstores : ∀ call order, e ≠ .assignCtx call order) :
      NodeProcess.QuietStep p (.goroutine e) { p with dispatcher := d } :=
    ⟨(NodeProcess.StepCase.goroutine halive hstop hstep.step).step, fun call order hsame =>
      hstores call order (ProcessEvent.goroutine.inj hsame)⟩
  cases hmain : p.main with
  | exited panicking =>
    rw [hmain] at halive
    cases halive
  | closing panicking => exact ⟨_, _, rfl, (NodeProcess.StepCase.shutdown hmain).step, nofun⟩
  | starting =>
    cases hpc : p.dispatcher.starts 0 with
    | idle => exact absurd hpc h.begun.1
    | assigning => exact absurd hpc h.begun.2
    | returned result => exact ⟨_, _, rfl, (NodeProcess.StepCase.deferredStop hmain hpc).step, nofun⟩
    | deferring result => exact ⟨_, _, rfl, hquiet (.finish hpc) nofun nofun⟩
    | launching rest =>
      cases rest with
      | cons entry rest =>
        have hlaunch : launchError entry.2 .started = none := rfl
        exact ⟨_, _, rfl, hquiet (.launched hpc hlaunch) nofun nofun⟩
      | nil =>
        cases hdone : p.dispatcher.loopsDone 0 with
        | true => exact ⟨_, _, rfl, hquiet (.wait hpc hdone) nofun nofun⟩
        | false =>
          -- Some loop is still running.
          obtain ⟨entry, -, hrunning⟩ := List.all_eq_false.mp hdone
          cases hloop : p.dispatcher.loops (0, entry.1) with
          | checking => exact ⟨_, _, rfl, hquiet (.checkExited hloop h.cancelled) nofun nofun⟩
          | reporting => exact ⟨_, _, rfl, hquiet (.report hloop) nofun nofun⟩
          | notStarted | exited =>
            rw [hloop] at hrunning
            exact absurd rfl hrunning

/-- A process that can go on neither by its main goroutine nor by its loops has ended without a panic. -/
theorem NodeProcess.Stopping.stuck_iff (h : p.Stopping) :
    Stuck NodeProcess.QuietStep (fun e => e.own = true) p ↔ p.main = .exited false := by
  constructor
  · intro hstuck
    cases hmain : p.main with
    | exited panicking =>
      have horderly := h.orderly.2
      rw [hmain] at horderly
      cases panicking with
      | true => exact absurd rfl horderly
      | false => rfl
    | starting | closing =>
      obtain ⟨e, q, hown, hstep⟩ := h.exists_step (by rw [hmain]; rfl)
      exact absurd hstep (hstuck e q hown)
  · intro hmain e q hown hstep
    cases hstep.1.cases with
    | goroutine halive | postStop halive | getStatus halive =>
      rw [hmain] at halive
      cases halive
    | deferredStop hstarting =>
      rw [hmain] at hstarting
      cases hstarting
    | shutdown hclosing =>
      rw [hmain] at hclosing
      cases hclosing

/-- The main goroutine leaves its call only when the call has returned. -/
theorem run_main (hrun : Run NodeProcess.Step (newNodeProcess targets) events p) (hmain : p.main ≠ .starting) :
    ∃ result, p.dispatcher.starts 0 = .returned result := by
  induction hrun with
  | nil => exact absurd rfl hmain
  | @snoc events p q e hrun hlast ih =>
    have hreturned : ∃ result, p.dispatcher.starts 0 = .returned result := by
      cases hlast.cases with
      | goroutine | postStop | getStatus => exact ih hmain
      | deferredStop _ hreturned => exact ⟨_, hreturned⟩
      | shutdown hclosing => exact ih (by rw [hclosing]; nofun)
    obtain ⟨result, hreturned⟩ := hreturned
    cases hevent : e.ofDispatcher with
    | none => exact ⟨result, (hlast.dispatcher_eq hevent).symm ▸ hreturned⟩
    | some e' => exact ⟨result, ((hlast.ofDispatcher hevent).startMove 0).returned_mono hreturned⟩

/-- The events that are not refilled are the own ones. -/
theorem sum_refill_add_countP (events : List ProcessEvent) :
    (events.map ProcessEvent.refill).sum + events.countP ProcessEvent.own = events.length := by
  induction events with
  | nil => rfl
  | cons e events ih =>
    rw [List.map_cons, List.sum_cons, List.countP_cons, List.length_cons, ProcessEvent.refill]
    split <;> omega

/-- A stopped process has a bounded amount of work left. -/
theorem NodeProcess.Stopping.potential_le (h : p.Stopping) (hmain : p.main = .starting)
    {rest : List (String × Target)} (hpc : p.dispatcher.starts 0 = .launching rest) :
    p.potential ≤ 4 * p.dispatcher.targets.entries.length + 4 := by
  obtain ⟨hnodup, hpending⟩ := h.inv.pending 0 rest hpc
  have hrest : rest.length ≤ p.dispatcher.targets.entries.length := by
    have hkeys : rest.map Prod.fst ⊆ p.dispatcher.targets.entries.map Prod.fst :=
      List.map_subset Prod.fst fun entry hentry => (hpending entry hentry).1
    have hle := (hnodup.subperm hkeys).length_le
    rwa [List.length_map, List.length_map] at hle
  have hloops : p.dispatcher.loopsPotential 0 ≤ 2 * p.dispatcher.targets.entries.length := by
    have hle : ∀ key ∈ p.dispatcher.targets.keys, (p.dispatcher.loops (0, key)).potential ≤ 2 := by
      intro key _
      cases p.dispatcher.loops (0, key) <;> decide
    have hcard : p.dispatcher.targets.keys.card ≤ p.dispatcher.targets.entries.length :=
      (List.toFinset_card_le _).trans (Nat.le_of_eq (List.length_map _))
    have hsum := (Finset.sum_le_sum hle).trans_eq (Finset.sum_const_nat fun _ _ => rfl)
    unfold Dispatcher.loopsPotential
    omega
  unfold NodeProcess.potential
  rw [hmain, hpc]
  simp only [MainPc.potential, StartPc.potential]
  omega

/-- Once a request has stopped a node whose main goroutine was launching or waiting for its loops, the main
goroutine and its loops take a bounded number of steps in every continuation without a new context; they
can go on exactly as long as the process has not ended, and it ends without a panic. -/
theorem stopped_node_exits (hrun : Run NodeProcess.Step (newNodeProcess targets) before p)
    {rest : List (String × Target)} (hpc : p.dispatcher.starts 0 = .launching rest)
    (hstop : p.dispatcher.stop.1 = .returned none) (hstep : NodeProcess.Step p (.postStop 200) q) :
    (∀ later u, Run NodeProcess.QuietStep q later u →
      later.countP ProcessEvent.own ≤ 4 * targets.entries.length + 4 ∧
        (Stuck NodeProcess.QuietStep (fun e => e.own = true) u ↔ u.main = .exited false)) ∧
    ∃ later u, Run NodeProcess.QuietStep q later u ∧ (∀ e ∈ later, e.own = true) ∧ u.main = .exited false := by
  have hmain : p.main = .starting := by
    by_contra hleft
    obtain ⟨result, hreturned⟩ := run_main hrun hleft
    rw [hpc] at hreturned
    cases hreturned
  have hrun' := hrun.snoc hstep
  obtain ⟨-, hsome⟩ := Option.ite_none_right_eq_some.mp hstep
  cases hsome
  have hmove : Dispatcher.Step p.dispatcher .stop p.dispatcher.stop.2 := rfl
  have hctx := (run_explained (run_dispatcher hrun)).launching 0 rest hpc
  have hpc' : p.dispatcher.stop.2.starts 0 = .launching rest := by
    have hstart := hmove.startMove 0
    rw [hpc] at hstart
    generalize p.dispatcher.stop.2.starts 0 = pc at hstart ⊢
    cases hstart with
    | stays => rfl
  have hstopping : NodeProcess.Stopping { p with dispatcher := p.dispatcher.stop.2 } := by
    refine ⟨run_dispatcher_inv hrun', ?_, hmove.generalCtx_ne_none hctx, ?_, ?_⟩
    · exact Dispatcher.live_of_stop hstop
    · rw [hpc']
      exact ⟨nofun, nofun⟩
    · rw [hmain]
      exact ⟨nofun, nofun⟩
  have htargets : p.dispatcher.stop.2.targets = targets := run_targets (run_dispatcher hrun')
  have hwork := hstopping.potential_le hmain hpc'
  rw [htargets] at hwork
  constructor
  · intro later u hlater
    have hlength := stopping_pays.length_le hstopping hlater
    have hown := sum_refill_add_countP later
    exact ⟨by omega, (stopping_pays.run hstopping hlater).stuck_iff⟩
  · have hpaid : ∀ e : ProcessEvent, e.own = true → e.refill = 0 := fun e hown => if_pos hown
    obtain ⟨later, u, hlater, hown, hstuck⟩ := stopping_pays.exists_stuck hpaid hstopping
    exact ⟨later, u, hlater, hown, (stopping_pays.run hstopping hlater).stuck_iff.mp hstuck⟩

/-- A node with one load balancer, about to report. -/
def reportingNode : List ProcessEvent :=
  [.goroutine (.startGuard 0), .goroutine (.assignCtx 0 soleTargets.entries), .goroutine (.launch 0 .started),
    .goroutine (.check 0 "10.0.0.1:7070")]

/-- A request to stop a node that is about to report ends its process. -/
theorem reportingNode_exits :
    ∃ p q, Run NodeProcess.Step (newNodeProcess soleTargets) reportingNode p ∧
      NodeProcess.Step p (.postStop 200) q ∧
      ∃ later u, Run NodeProcess.QuietStep q later u ∧ (∀ e ∈ later, e.own = true) ∧ u.main = .exited false := by
  have hrun : ∃ p q, Run NodeProcess.Step (newNodeProcess soleTargets) reportingNode p ∧
      p.dispatcher.starts 0 = .launching [] ∧ p.dispatcher.stop.1 = .returned none ∧
      NodeProcess.Step p (.postStop 200) q := ⟨_, _, run_of_replay reportingNode rfl, rfl, rfl, rfl⟩
  obtain ⟨p, q, hs, hpc, hstop, hstep⟩ := hrun
  exact ⟨p, q, hs, hstep, (stopped_node_exits hs hpc hstop hstep).2⟩

end GaleLB.NodeNetwork
