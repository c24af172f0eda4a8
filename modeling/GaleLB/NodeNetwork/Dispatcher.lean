import GaleLB.Common.Transition
import Mathlib.Data.Int.Notation
import Mathlib.Data.List.Perm.Basic
import Mathlib.Data.List.Nodup
import Mathlib.Logic.Function.Basic
import Mathlib.Tactic.Simps.Basic

/-!
# The dispatcher of a node

`Start` launches one reporting loop per target and waits for all of them; `Stop` cancels
the context that is stored in the dispatcher. Calls are numbered, and so are the contexts:
every `Start` call that passes its guard creates one. A loop is identified by the call
that launched it and by the key of its target, because a call launches at most one loop
per key.

The lock-protected sections, the assignment of a new context, each launch, each check of
a loop and each report are atomic events. They may be interleaved at will. A loop checks
the context that is stored at that moment, which need not be the one of its own call.
-/

namespace GaleLB.NodeNetwork

open Transition

/-- The reported status. -/
inductive Status where
  | running
  | stopped
deriving DecidableEq, Repr

/-- A load balancer to report to. -/
structure Target where
  ip : String
  port : ℤ
deriving DecidableEq, Repr

/-- The text of a target. -/
def Target.string (t : Target) : String := t.ip ++ ":" ++ toString t.port

/-- The map of targets: its entries in some order, with distinct keys. -/
structure Targets where
  entries : List (String × Target)
  nodup : (entries.map Prod.fst).Nodup

/-- A single load balancer. -/
def soleTargets : Targets := ⟨[("10.0.0.1:7070", ⟨"10.0.0.1", 7070⟩)], by simp⟩

/-- The number of a `Start` call and of the context that it creates. -/
abbrev CallId := ℕ

/-- Where a `Start` call is; a result is the text of the error that it will return, if any. -/
inductive StartPc where
  | idle
  | assigning
  | launching (rest : List (String × Target))
  | deferring (result : Option String)
  | returned (result : Option String)
deriving DecidableEq, Repr

/-- Where a reporting loop is. -/
inductive LoopPc where
  | notStarted
  | checking
  | reporting
  | exited
deriving DecidableEq, Repr

/-- The loop has been launched and has not returned. -/
def LoopPc.running : LoopPc → Bool
  | .checking | .reporting => true
  | _ => false

/-- The dispatcher with its calls and loops. -/
structure Dispatcher where
  targets : Targets
  status : Status
  generalCtx : Option CallId
  cancelled : CallId → Bool
  starts : CallId → StartPc
  loops : CallId × String → LoopPc

/-- A dispatcher is created without a context. -/
def newDispatcher (targets : Targets) : Dispatcher where
  targets := targets
  status := .stopped
  generalCtx := none
  cancelled := fun _ => false
  starts := fun _ => .idle
  loops := fun _ => .notStarted

/-- The stored context exists and has not been cancelled. -/
def Dispatcher.live (d : Dispatcher) : Bool :=
  d.generalCtx.any fun ctx => !d.cancelled ctx

/-- What happens when a loop is launched for a target. -/
inductive LaunchOutcome where
  | started
  | clientFailed (err : String)
  | configFailed (err : String)
deriving DecidableEq, Repr

/-- The error with which `startDispatchers` gives up on a target. -/
def launchError (target : Target) : LaunchOutcome → Option String
  | .started => none
  | .clientFailed err => some ("failed to create client for target " ++ target.string ++ ": " ++ err)
  | .configFailed err => some ("failed to fetch config for target " ++ target.string ++ ": " ++ err)

/-- What `Stop` does: return, possibly with an error, or panic on an unset cancel function. -/
inductive StopResult where
  | returned (err : Option String)
  | panics
deriving DecidableEq, Repr

/-- Cancel a context and report the dispatcher as stopped. -/
@[simps] def Dispatcher.cancelCtx (d : Dispatcher) (ctx : CallId) : Dispatcher :=
  { d with cancelled := Function.update d.cancelled ctx true, status := .stopped }

/-- Cancel the stored context, unless the dispatcher is stopped already. -/
def Dispatcher.stop (d : Dispatcher) : StopResult × Dispatcher :=
  match d.status, d.generalCtx with
  | .stopped, _ => (.returned (some "dispatcher is already stopped"), d)
  | .running, none => (.panics, d)
  | .running, some ctx => (.returned none, d.cancelCtx ctx)

/-- The wait group of a call is done. -/
def Dispatcher.loopsDone (d : Dispatcher) (call : CallId) : Bool :=
  d.targets.entries.all fun entry => !(d.loops (call, entry.1)).running

/-- The atomic actions of the calls and loops. -/
inductive Event where
  | startGuard (call : CallId)
  | assignCtx (call : CallId) (order : List (String × Target))
  | launch (call : CallId) (outcome : LaunchOutcome)
  | wait (call : CallId)
  | finish (call : CallId)
  | stop
  | check (call : CallId) (key : String)
  | report (call : CallId) (key : String)
deriving DecidableEq, Repr

/-- Move a `Start` call on. -/
@[simps] def Dispatcher.setStart (d : Dispatcher) (call : CallId) (pc : StartPc) : Dispatcher :=
  { d with starts := Function.update d.starts call pc }

/-- Move a loop on. -/
@[simps] def Dispatcher.setLoop (d : Dispatcher) (call : CallId) (key : String) (pc : LoopPc) : Dispatcher :=
  { d with loops := Function.update d.loops (call, key) pc }

/-- Pass the guard of `Start`. -/
@[simps] def Dispatcher.passGuard (d : Dispatcher) (call : CallId) : Dispatcher :=
  { d with starts := Function.update d.starts call .assigning, status := .running }

/-- Store the new context of a call and start its range over the targets. -/
@[simps] def Dispatcher.assign (d : Dispatcher) (call : CallId) (order : List (String × Target)) : Dispatcher :=
  { d with starts := Function.update d.starts call (.launching order), generalCtx := some call }

/-- Launch the loop of a target. -/
@[simps] def Dispatcher.launch (d : Dispatcher) (call : CallId) (key : String)
    (rest : List (String × Target)) : Dispatcher :=
  { d with
    starts := Function.update d.starts call (.launching rest)
    loops := Function.update d.loops (call, key) .checking }

/-- Run the deferred function of `Start`. -/
@[simps] def Dispatcher.finish (d : Dispatcher) (call : CallId) (result : Option String) : Dispatcher :=
  { d with starts := Function.update d.starts call (.returned result), status := .stopped }

/-- One event, where it is enabled. -/
def Dispatcher.step (d : Dispatcher) : Event → Option Dispatcher
  | .startGuard call =>
    if d.starts call = .idle then
      match d.status with
      | .running => some (d.setStart call (.returned (some "dispatcher is already running")))
      | .stopped => some (d.passGuard call)
    else none
  | .assignCtx call order =>
    if d.starts call = .assigning ∧ order.Perm d.targets.entries then
      some (d.assign call order)
    else none
  | .launch call outcome =>
    match d.starts call with
    | .launching (entry :: rest) =>
      match launchError entry.2 outcome with
      | none => some (d.launch call entry.1 rest)
      | some err => some (d.setStart call (.deferring (some err)))
    | _ => none
  | .wait call =>
    if d.starts call = .launching [] ∧ d.loopsDone call then some (d.setStart call (.deferring none))
    else none
  | .finish call =>
    match d.starts call with
    | .deferring result => some (d.finish call result)
    | _ => none
  | .stop => some d.stop.2
  | .check call key =>
    if d.loops (call, key) = .checking then
      some (d.setLoop call key (if d.live then .reporting else .exited))
    else none
  | .report call key =>
    if d.loops (call, key) = .reporting then some (d.setLoop call key .checking) else none

/-- The steps of a dispatcher as a relation. -/
abbrev Dispatcher.Step : Dispatcher → Event → Dispatcher → Prop := Computes Dispatcher.step

/-- A loop that moves on is where it moves to. -/
theorem Dispatcher.setLoop_loops_self (d : Dispatcher) (call : CallId) (key : String) (pc : LoopPc) :
    (d.setLoop call key pc).loops (call, key) = pc :=
  Function.update_self _ _ _

/-- A loop that moves on leaves the other loops alone. -/
theorem Dispatcher.setLoop_loops_of_ne (d : Dispatcher) {call call' : CallId} {key key' : String} (pc : LoopPc)
    (hne : (call', key') ≠ (call, key)) : (d.setLoop call key pc).loops (call', key') = d.loops (call', key') :=
  Function.update_of_ne hne _ _

/-- A launched loop starts with its check. -/
theorem Dispatcher.launch_loops_self (d : Dispatcher) (call : CallId) (key : String)
    (rest : List (String × Target)) : (d.launch call key rest).loops (call, key) = .checking :=
  Function.update_self _ _ _

/-- A launch leaves the other loops alone. -/
theorem Dispatcher.launch_loops_of_ne (d : Dispatcher) {call call' : CallId} {key key' : String}
    (rest : List (String × Target)) (hne : (call', key') ≠ (call, key)) :
    (d.launch call key rest).loops (call', key') = d.loops (call', key') :=
  Function.update_of_ne hne _ _

/-- A launch removes its target from the range of the call. -/
theorem Dispatcher.launch_starts_self (d : Dispatcher) (call : CallId) (key : String)
    (rest : List (String × Target)) : (d.launch call key rest).starts call = .launching rest :=
  Function.update_self _ _ _

/-- A launch leaves the other calls alone. -/
theorem Dispatcher.launch_starts_of_ne (d : Dispatcher) {call call' : CallId} (key : String)
    (rest : List (String × Target)) (hne : call' ≠ call) :
    (d.launch call key rest).starts call' = d.starts call' :=
  Function.update_of_ne hne _ _

/-- A call that has its context ranges over the targets. -/
theorem Dispatcher.assign_starts_self (d : Dispatcher) (call : CallId) (order : List (String × Target)) :
    (d.assign call order).starts call = .launching order :=
  Function.update_self _ _ _

/-- A new context leaves the other calls alone. -/
theorem Dispatcher.assign_starts_of_ne (d : Dispatcher) {call call' : CallId} (order : List (String × Target))
    (hne : call' ≠ call) : (d.assign call order).starts call' = d.starts call' :=
  Function.update_of_ne hne _ _

/-- A new context is live. -/
theorem Dispatcher.assign_live (d : Dispatcher) (call : CallId) (order : List (String × Target)) :
    (d.assign call order).live = !d.cancelled call := rfl

/-- Cancelling the stored context leaves no live context. -/
theorem Dispatcher.cancelCtx_live {d : Dispatcher} {ctx : CallId} (hctx : d.generalCtx = some ctx) :
    (d.cancelCtx ctx).live = false := by
  simp [Dispatcher.live, hctx]

/-- A stopped dispatcher refuses to stop. -/
theorem Dispatcher.stop_of_stopped {d : Dispatcher} (hstatus : d.status = .stopped) :
    d.stop = (.returned (some "dispatcher is already stopped"), d) := by
  simp only [Dispatcher.stop, hstatus]

/-- A running dispatcher without a context panics. -/
theorem Dispatcher.stop_of_unset {d : Dispatcher} (hstatus : d.status = .running)
    (hctx : d.generalCtx = none) : d.stop = (.panics, d) := by
  simp only [Dispatcher.stop, hstatus, hctx]

/-- A running dispatcher with a context stops. -/
theorem Dispatcher.stop_of_running {d : Dispatcher} {ctx : CallId} (hstatus : d.status = .running)
    (hctx : d.generalCtx = some ctx) :
    d.stop = (.returned none, d.cancelCtx ctx) := by
  simp only [Dispatcher.stop, hstatus, hctx]

/-- A call of `Stop` that does not return nil changes nothing. -/
theorem Dispatcher.stop_refused {d : Dispatcher} (h : d.stop.1 ≠ .returned none) : d.stop.2 = d := by
  cases hstatus : d.status with
  | stopped => rw [Dispatcher.stop_of_stopped hstatus]
  | running =>
    cases hctx : d.generalCtx with
    | none => rw [Dispatcher.stop_of_unset hstatus hctx]
    | some ctx =>
      rw [Dispatcher.stop_of_running hstatus hctx] at h
      exact absurd rfl h

/-- Everything that one event can do to a dispatcher. -/
inductive Dispatcher.StepCase (d : Dispatcher) : Event → Dispatcher → Prop
  | refused {call} (hpc : d.starts call = .idle) (hstatus : d.status = .running) :
      StepCase d (.startGuard call) (d.setStart call (.returned (some "dispatcher is already running")))
  | passed {call} (hpc : d.starts call = .idle) (hstatus : d.status = .stopped) :
      StepCase d (.startGuard call) (d.passGuard call)
  | assignCtx {call order} (hpc : d.starts call = .assigning) (horder : order.Perm d.targets.entries) :
      StepCase d (.assignCtx call order) (d.assign call order)
  | launched {call entry rest outcome} (hpc : d.starts call = .launching (entry :: rest))
      (houtcome : launchError entry.2 outcome = none) :
      StepCase d (.launch call outcome) (d.launch call entry.1 rest)
  | launchFailed {call entry rest outcome err} (hpc : d.starts call = .launching (entry :: rest))
      (houtcome : launchError entry.2 outcome = some err) :
      StepCase d (.launch call outcome) (d.setStart call (.deferring (some err)))
  | wait {call} (hpc : d.starts call = .launching []) (hdone : d.loopsDone call = true) :
      StepCase d (.wait call) (d.setStart call (.deferring none))
  | finish {call result} (hpc : d.starts call = .deferring result) :
      StepCase d (.finish call) (d.finish call result)
  | stopped {ctx} (hstatus : d.status = .running) (hctx : d.generalCtx = some ctx) :
      StepCase d .stop (d.cancelCtx ctx)
  | stopRefused (hresult : d.stop.1 ≠ .returned none) : StepCase d .stop d
  | checkPassed {call key} (hpc : d.loops (call, key) = .checking) (hlive : d.live = true) :
      StepCase d (.check call key) (d.setLoop call key .reporting)
  | checkExited {call key} (hpc : d.loops (call, key) = .checking) (hlive : d.live = false) :
      StepCase d (.check call key) (d.setLoop call key .exited)
  | report {call key} (hpc : d.loops (call, key) = .reporting) :
      StepCase d (.report call key) (d.setLoop call key .checking)

/-- The cases exhaust the steps. -/
theorem Dispatcher.Step.cases {d d' : Dispatcher} {e : Event} (h : Dispatcher.Step d e d') :
    Dispatcher.StepCase d e d' := by
  change d.step e = some d' at h
  cases e with
  | startGuard call =>
    simp only [Dispatcher.step] at h
    split at h
    · split at h
      · cases h
        exact .refused ‹_› ‹_›
      · cases h
        exact .passed ‹_› ‹_›
    · cases h
  | assignCtx call order =>
    simp only [Dispatcher.step, Option.ite_none_right_eq_some, Option.some.injEq] at h
    exact h.2 ▸ .assignCtx h.1.1 h.1.2
  | launch call outcome =>
    simp only [Dispatcher.step] at h
    split at h
    · split at h
      · cases h
        exact .launched ‹_› ‹_›
      · cases h
        exact .launchFailed ‹_› ‹_›
    · cases h
  | wait call =>
    simp only [Dispatcher.step, Option.ite_none_right_eq_some, Option.some.injEq] at h
    exact h.2 ▸ .wait h.1.1 h.1.2
  | finish call =>
    simp only [Dispatcher.step] at h
    split at h
    · cases h
      exact .finish ‹_›
    · cases h
  | stop =>
    simp only [Dispatcher.step, Option.some.injEq] at h
    subst h
    cases hstatus : d.status with
    | stopped =>
      rw [Dispatcher.stop_of_stopped hstatus]
      exact .stopRefused (by rw [Dispatcher.stop_of_stopped hstatus]; nofun)
    | running =>
      cases hctx : d.generalCtx with
      | none =>
        rw [Dispatcher.stop_of_unset hstatus hctx]
        exact .stopRefused (by rw [Dispatcher.stop_of_unset hstatus hctx]; nofun)
      | some ctx =>
        rw [Dispatcher.stop_of_running hstatus hctx]
        exact .stopped hstatus hctx
  | check call key =>
    simp only [Dispatcher.step, Option.ite_none_right_eq_some, Option.some.injEq] at h
    obtain ⟨hpc, rfl⟩ := h
    by_cases hlive : d.live = true
    · rw [if_pos hlive]
      exact .checkPassed hpc hlive
    · rw [if_neg hlive]
      exact .checkExited hpc (Bool.eq_false_iff.mpr hlive)
  | report call key =>
    simp only [Dispatcher.step, Option.ite_none_right_eq_some, Option.some.injEq] at h
    exact h.2 ▸ .report h.1

/-- Every case is a step. -/
theorem Dispatcher.StepCase.step {d d' : Dispatcher} {e : Event} (h : Dispatcher.StepCase d e d') :
    Dispatcher.Step d e d' := by
  change d.step e = some d'
  cases h with
  | refused hpc hstatus => simp only [Dispatcher.step, hpc, hstatus, if_true]
  | passed hpc hstatus => simp only [Dispatcher.step, hpc, hstatus, if_true]
  | assignCtx hpc horder => simp only [Dispatcher.step, hpc, horder, and_self, if_true]
  | launched hpc houtcome => simp only [Dispatcher.step, hpc, houtcome]
  | launchFailed hpc houtcome => simp only [Dispatcher.step, hpc, houtcome]
  | wait hpc hdone => simp only [Dispatcher.step, hpc, hdone, and_self, if_true]
  | finish hpc => simp only [Dispatcher.step, hpc]
  | stopped hstatus hctx => simp only [Dispatcher.step, Dispatcher.stop_of_running hstatus hctx]
  | stopRefused hresult => simp only [Dispatcher.step, Dispatcher.stop_refused hresult]
  | checkPassed hpc hlive => simp only [Dispatcher.step, hpc, hlive, if_true]
  | checkExited hpc hlive => simp [Dispatcher.step, hpc, hlive]
  | report hpc => simp only [Dispatcher.step, hpc, if_true]

/-- What holds of a dispatcher in every run: a call that has not assigned its context has no trace,
and a call only launches loops that do not exist yet. -/
structure Dispatcher.Inv (d : Dispatcher) : Prop where
  freshLoops : ∀ call key, d.starts call = .idle ∨ d.starts call = .assigning →
    d.loops (call, key) = .notStarted
  freshCtx : ∀ call, d.starts call = .idle ∨ d.starts call = .assigning →
    d.generalCtx ≠ some call ∧ d.cancelled call = false
  pending : ∀ call rest, d.starts call = .launching rest →
    (rest.map Prod.fst).Nodup ∧ ∀ entry ∈ rest, entry ∈ d.targets.entries ∧ d.loops (call, entry.1) = .notStarted
  known : ∀ call key, d.loops (call, key) ≠ .notStarted → key ∈ d.targets.entries.map Prod.fst

/-- A new dispatcher satisfies the invariant. -/
theorem newDispatcher_inv (targets : Targets) : (newDispatcher targets).Inv :=
  ⟨fun _ _ _ => rfl, fun _ _ => ⟨nofun, rfl⟩, nofun, fun _ _ h => absurd rfl h⟩

/-- A call that moves on to or past its deferred function keeps the invariant. -/
theorem Dispatcher.Inv.of_start {d d' : Dispatcher} {call : CallId} {pc : StartPc} (h : d.Inv)
    (hstarts : d'.starts = Function.update d.starts call pc)
    (hpc : ∀ rest, pc ≠ .idle ∧ pc ≠ .assigning ∧ pc ≠ .launching rest) (htargets : d'.targets = d.targets)
    (hloops : d'.loops = d.loops) (hctx : d'.generalCtx = d.generalCtx)
    (hcancelled : d'.cancelled = d.cancelled) : d'.Inv := by
  have hsame : ∀ call' pc', d'.starts call' = pc' → pc ≠ pc' → d.starts call' = pc' := by
    intro call' pc' hpc' hne
    rw [hstarts, Function.update_apply] at hpc'
    split at hpc'
    · exact absurd hpc' hne
    · exact hpc'
  have hfresh : ∀ call', d'.starts call' = .idle ∨ d'.starts call' = .assigning →
      d.starts call' = .idle ∨ d.starts call' = .assigning := by
    intro call' hcall
    exact hcall.imp (fun hidle => hsame call' .idle hidle (hpc []).1)
      fun hassigning => hsame call' .assigning hassigning (hpc []).2.1
  constructor
  · intro call' key hcall
    rw [hloops]
    exact h.freshLoops call' key (hfresh call' hcall)
  · intro call' hcall
    rw [hctx, hcancelled]
    exact h.freshCtx call' (hfresh call' hcall)
  · intro call' rest hlaunching
    rw [htargets, hloops]
    exact h.pending call' rest (hsame call' _ hlaunching (hpc rest).2.2)
  · rw [htargets, hloops]
    exact h.known

/-- A loop that moves on keeps the invariant. -/
theorem Dispatcher.Inv.of_loop {d : Dispatcher} {call : CallId} {key : String} {pc : LoopPc} (h : d.Inv)
    (hlaunched : d.loops (call, key) ≠ .notStarted) : (d.setLoop call key pc).Inv := by
  have hother : ∀ call' key', d.loops (call', key') = .notStarted →
      (d.setLoop call key pc).loops (call', key') = .notStarted := by
    intro call' key' hnot
    rw [d.setLoop_loops_of_ne]
    · exact hnot
    · intro hsame
      rw [hsame] at hnot
      exact hlaunched hnot
  constructor
  · intro call' key' hcall
    exact hother call' key' (h.freshLoops call' key' hcall)
  · exact h.freshCtx
  · intro call' rest hlaunching
    obtain ⟨hnodup, hrest⟩ := h.pending call' rest hlaunching
    exact ⟨hnodup, fun entry hentry => ⟨(hrest entry hentry).1, hother call' entry.1 (hrest entry hentry).2⟩⟩
  · intro call' key' hloop
    by_cases hsame : (call', key') = (call, key)
    · rw [Prod.mk.injEq] at hsame
      rw [hsame.2]
      exact h.known call key hlaunched
    · rw [d.setLoop_loops_of_ne pc hsame] at hloop
      exact h.known call' key' hloop

/-- Passing the guard keeps the invariant. -/
theorem Dispatcher.Inv.of_passed {d : Dispatcher} {call : CallId} (h : d.Inv) (hpc : d.starts call = .idle) :
    (d.passGuard call).Inv := by
  have hfresh : ∀ call', Function.update d.starts call .assigning call' = .idle ∨
      Function.update d.starts call .assigning call' = .assigning →
      d.starts call' = .idle ∨ d.starts call' = .assigning := by
    intro call' hcall
    by_cases hsame : call' = call
    · rw [hsame]
      exact Or.inl hpc
    · rw [Function.update_of_ne hsame] at hcall
      exact hcall
  constructor
  · exact fun call' key hcall => h.freshLoops call' key (hfresh call' hcall)
  · exact fun call' hcall => h.freshCtx call' (hfresh call' hcall)
  · intro call' rest hlaunching
    apply h.pending call' rest
    change Function.update d.starts call .assigning call' = .launching rest at hlaunching
    rw [Function.update_apply] at hlaunching
    split at hlaunching
    · cases hlaunching
    · exact hlaunching
  · exact h.known

/-- Assigning a context keeps the invariant. -/
theorem Dispatcher.Inv.of_assignCtx {d : Dispatcher} {call : CallId} {order : List (String × Target)}
    (h : d.Inv) (hpc : d.starts call = .assigning) (horder : order.Perm d.targets.entries) :
    (d.assign call order).Inv := by
  have hfresh : ∀ call', (d.assign call order).starts call' = .idle ∨
      (d.assign call order).starts call' = .assigning →
      call' ≠ call ∧ (d.starts call' = .idle ∨ d.starts call' = .assigning) := by
    intro call' hcall
    by_cases hsame : call' = call
    · rw [hsame, d.assign_starts_self] at hcall
      rcases hcall with hcall | hcall <;> cases hcall
    · rw [d.assign_starts_of_ne order hsame] at hcall
      exact ⟨hsame, hcall⟩
  constructor
  · exact fun call' key hcall => h.freshLoops call' key (hfresh call' hcall).2
  · intro call' hcall
    obtain ⟨hne, hcall⟩ := hfresh call' hcall
    exact ⟨fun hctx => hne (Option.some.inj hctx).symm, (h.freshCtx call' hcall).2⟩
  · intro call' rest hlaunching
    by_cases hsame : call' = call
    · rw [hsame, d.assign_starts_self] at hlaunching
      cases hlaunching
      refine ⟨(horder.map Prod.fst).nodup_iff.mpr d.targets.nodup, ?_⟩
      intro entry hentry
      rw [hsame]
      exact ⟨horder.subset hentry, h.freshLoops call entry.1 (Or.inr hpc)⟩
    · rw [d.assign_starts_of_ne order hsame] at hlaunching
      exact h.pending call' rest hlaunching
  · exact h.known

/-- Launching a loop keeps the invariant. -/
theorem Dispatcher.Inv.of_launched {d : Dispatcher} {call : CallId} {entry : String × Target}
    {rest : List (String × Target)} (h : d.Inv) (hpc : d.starts call = .launching (entry :: rest)) :
    (d.launch call entry.1 rest).Inv := by
  obtain ⟨hnodup, hentries⟩ := h.pending call _ hpc
  rw [List.map_cons, List.nodup_cons] at hnodup
  constructor
  · intro call' key hcall
    by_cases hsame : call' = call
    · rw [hsame, d.launch_starts_self] at hcall
      rcases hcall with hcall | hcall <;> cases hcall
    · rw [d.launch_starts_of_ne _ rest hsame] at hcall
      rw [d.launch_loops_of_ne rest fun heq => hsame (Prod.mk.inj heq).1]
      exact h.freshLoops call' key hcall
  · intro call' hcall
    by_cases hsame : call' = call
    · rw [hsame, d.launch_starts_self] at hcall
      rcases hcall with hcall | hcall <;> cases hcall
    · rw [d.launch_starts_of_ne _ rest hsame] at hcall
      exact h.freshCtx call' hcall
  · intro call' rest' hlaunching
    by_cases hsame : call' = call
    · rw [hsame, d.launch_starts_self] at hlaunching
      cases hlaunching
      refine ⟨hnodup.2, fun other hother => ⟨(hentries other (List.mem_cons_of_mem _ hother)).1, ?_⟩⟩
      rw [hsame, d.launch_loops_of_ne rest]
      · exact (hentries other (List.mem_cons_of_mem _ hother)).2
      · intro heq
        apply hnodup.1
        rw [← (Prod.mk.inj heq).2]
        exact List.mem_map_of_mem hother
    · rw [d.launch_starts_of_ne _ rest hsame] at hlaunching
      obtain ⟨hnodup', hentries'⟩ := h.pending call' rest' hlaunching
      refine ⟨hnodup', fun other hother => ⟨(hentries' other hother).1, ?_⟩⟩
      rw [d.launch_loops_of_ne rest fun heq => hsame (Prod.mk.inj heq).1]
      exact (hentries' other hother).2
  · intro call' key hlaunched
    by_cases hsame : (call', key) = (call, entry.1)
    · rw [(Prod.mk.inj hsame).2]
      exact List.mem_map_of_mem (hentries entry List.mem_cons_self).1
    · rw [d.launch_loops_of_ne rest hsame] at hlaunched
      exact h.known call' key hlaunched

/-- Stopping keeps the invariant. -/
theorem Dispatcher.Inv.of_stopped {d : Dispatcher} {ctx : CallId} (h : d.Inv)
    (hctx : d.generalCtx = some ctx) :
    (d.cancelCtx ctx).Inv := by
  refine ⟨h.freshLoops, fun call hcall => ⟨(h.freshCtx call hcall).1, ?_⟩, h.pending, h.known⟩
  change Function.update d.cancelled ctx true call = false
  rw [Function.update_of_ne]
  · exact (h.freshCtx call hcall).2
  · intro hsame
    exact (h.freshCtx call hcall).1 (hsame ▸ hctx)

/-- Every step keeps the invariant. -/
theorem Dispatcher.Inv.step {d d' : Dispatcher} {e : Event} (h : d.Inv) (hstep : Dispatcher.Step d e d') :
    d'.Inv := by
  cases hstep.cases with
  | refused hpc hstatus => exact h.of_start rfl (fun _ => ⟨nofun, nofun, nofun⟩) rfl rfl rfl rfl
  | passed hpc hstatus => exact h.of_passed hpc
  | assignCtx hpc horder => exact h.of_assignCtx hpc horder
  | launched hpc houtcome => exact h.of_launched hpc
  | launchFailed hpc houtcome => exact h.of_start rfl (fun _ => ⟨nofun, nofun, nofun⟩) rfl rfl rfl rfl
  | wait hpc hdone => exact h.of_start rfl (fun _ => ⟨nofun, nofun, nofun⟩) rfl rfl rfl rfl
  | finish hpc => exact h.of_start rfl (fun _ => ⟨nofun, nofun, nofun⟩) rfl rfl rfl rfl
  | stopped hstatus hctx => exact h.of_stopped hctx
  | stopRefused hresult => exact h
  | checkPassed hpc hlive => exact h.of_loop (by rw [hpc]; nofun)
  | checkExited hpc hlive => exact h.of_loop (by rw [hpc]; nofun)
  | report hpc => exact h.of_loop (by rw [hpc]; nofun)

/-- The invariant holds in every reachable state. -/
theorem run_inv {targets : Targets} {events : List Event} {d : Dispatcher}
    (hrun : Run Dispatcher.Step (newDispatcher targets) events d) : d.Inv := by
  induction hrun with
  | nil => exact newDispatcher_inv targets
  | snoc _ hlast ih => exact ih.step hlast

end GaleLB.NodeNetwork
