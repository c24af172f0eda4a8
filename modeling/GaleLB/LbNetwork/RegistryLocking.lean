import GaleLB.Common.GuardedObject
import GaleLB.LbNetwork.RegistryHistory

/-!
# Concurrent calls on the registry

Every health stream has its own goroutines, and all of them report to one registry. Each
call looks its node up, then works on the record that it has found: a health check stamps
the record, reads its counter and writes it back. The calls are cut here into these steps.

The global lock makes them atomic, so that no health check is lost between the reading and
the writing of a counter, not even for streams that share a node key.
-/

namespace GaleLB.LbNetwork

open Transition Locking

/-- The calls on a registry; the time of a health check is read during the call. -/
inductive RegistryOp where
  | registerNode (nodeKey : String)
  | reportNewHealthCheck (nodeKey : String)
  | reportNodeFailure (nodeKey : String)
deriving DecidableEq, Repr

/-- Where a call is. -/
inductive RegistryPc where
  | registering (nodeKey : String)
  | inserting (nodeKey : String)
  | checking (nodeKey : String)
  | stamping (nodeKey : String)
  | loading (nodeKey : String)
  | storing (nodeKey : String) (checks : UInt64)
  | failing (nodeKey : String)
  | resetting (nodeKey : String)
  | finished
deriving DecidableEq, Repr

/-- Where a call begins. -/
def RegistryOp.start : RegistryOp → RegistryPc
  | .registerNode nodeKey => .registering nodeKey
  | .reportNewHealthCheck nodeKey => .checking nodeKey
  | .reportNodeFailure nodeKey => .failing nodeKey

/-- The call with the time at which it was made. -/
def RegistryOp.call (now : Time) : RegistryOp → RegistryCall
  | .registerNode nodeKey => .registerNode nodeKey
  | .reportNewHealthCheck nodeKey => .reportNewHealthCheck nodeKey now
  | .reportNodeFailure nodeKey => .reportNodeFailure nodeKey

/-- Change the record under a key, to which a call holds a pointer. -/
def NodeRegistry.modify (n : NodeRegistry) (nodeKey : String) (change : Node → Node) : NodeRegistry :=
  match n.registry nodeKey with
  | some nodeInfo => n.store nodeKey (change nodeInfo)
  | none => n

/-- One step of a call; the input is what the clock shows. -/
def NodeRegistry.micro : RegistryPc × NodeRegistry → Time → Option (RegistryPc × NodeRegistry)
  | (.registering nodeKey, n), _ =>
    match n.registry nodeKey with
    | some _ => some (.finished, n)
    | none => some (.inserting nodeKey, n)
  | (.inserting nodeKey, n), _ => some (.finished, n.store nodeKey Node.zero)
  | (.checking nodeKey, n), _ =>
    match n.registry nodeKey with
    | some _ => some (.stamping nodeKey, n)
    | none => some (.finished, n)
  | (.stamping nodeKey, n), now =>
    some (.loading nodeKey, n.modify nodeKey fun nodeInfo => { nodeInfo with lastHealthCheck := now })
  | (.loading nodeKey, n), _ => some (.storing nodeKey (n.counter nodeKey), n)
  | (.storing nodeKey checks, n), _ =>
    some (.finished, n.modify nodeKey fun nodeInfo => { nodeInfo with continuousHealthChecks := checks + 1 })
  | (.failing nodeKey, n), _ =>
    match n.registry nodeKey with
    | some _ => some (.resetting nodeKey, n)
    | none => some (.finished, n)
  | (.resetting nodeKey, n), _ =>
    some (.finished, n.modify nodeKey fun nodeInfo => { nodeInfo with continuousHealthChecks := 0 })
  | (.finished, _), _ => none

/-- Whether a call is finished; it returns nothing. -/
def RegistryPc.result : RegistryPc → Option Unit
  | .finished => some ()
  | _ => none

/-- The calls on a registry as programs behind its global lock, which all of them take for writing. -/
def registryProgram : Program NodeRegistry RegistryOp RegistryPc Time Unit where
  mode _ := .write
  start := RegistryOp.start
  micro := NodeRegistry.micro
  result := RegistryPc.result

/-- Where a call can be, and what it has made of the registry, after it started on `n` and nobody interfered. -/
inductive NodeRegistry.Progress (n : NodeRegistry) : RegistryOp → RegistryPc → NodeRegistry → Prop
  | registering (key : String) : Progress n (.registerNode key) (.registering key) n
  | inserting (key : String) (h : n.registry key = none) : Progress n (.registerNode key) (.inserting key) n
  | registered (key : String) : Progress n (.registerNode key) .finished (n.registerNode key)
  | checking (key : String) : Progress n (.reportNewHealthCheck key) (.checking key) n
  | stamping (key : String) (nodeInfo : Node) (h : n.registry key = some nodeInfo) :
      Progress n (.reportNewHealthCheck key) (.stamping key) n
  | loading (key : String) (nodeInfo : Node) (now : Time) (h : n.registry key = some nodeInfo) :
      Progress n (.reportNewHealthCheck key) (.loading key)
        (n.store key { nodeInfo with lastHealthCheck := now })
  | storing (key : String) (nodeInfo : Node) (now : Time) (h : n.registry key = some nodeInfo) :
      Progress n (.reportNewHealthCheck key) (.storing key nodeInfo.continuousHealthChecks)
        (n.store key { nodeInfo with lastHealthCheck := now })
  | checked (key : String) (now : Time) :
      Progress n (.reportNewHealthCheck key) .finished (n.reportNewHealthCheck key now)
  | failing (key : String) : Progress n (.reportNodeFailure key) (.failing key) n
  | resetting (key : String) (nodeInfo : Node) (h : n.registry key = some nodeInfo) :
      Progress n (.reportNodeFailure key) (.resetting key) n
  | failed (key : String) : Progress n (.reportNodeFailure key) .finished (n.reportNodeFailure key)

/-- A record that has just been stored is found under its key. -/
theorem NodeRegistry.registry_store (n : NodeRegistry) (key : String) (nodeInfo : Node) :
    (n.store key nodeInfo).registry key = some nodeInfo := Function.update_self _ _ _

/-- Storing twice under a key leaves the second record. -/
theorem NodeRegistry.store_store (n : NodeRegistry) (key : String) (first second : Node) :
    (n.store key first).store key second = n.store key second := by
  unfold NodeRegistry.store
  rw [Function.update_idem]

/-- A step of a call makes progress. -/
theorem NodeRegistry.Progress.micro {n m m' : NodeRegistry} {op : RegistryOp} {pc pc' : RegistryPc} {now : Time}
    (h : NodeRegistry.Progress n op pc m) (hmicro : NodeRegistry.micro (pc, m) now = some (pc', m')) :
    NodeRegistry.Progress n op pc' m' := by
  cases h with
  | registering key =>
    simp only [NodeRegistry.micro] at hmicro
    split at hmicro
    case h_1 nodeInfo hfound =>
      cases hmicro
      have hsame : n.registerNode key = n := by rw [NodeRegistry.registerNode, hfound]
      have hdone : Progress n (.registerNode key) .finished (n.registerNode key) := .registered key
      rwa [hsame] at hdone
    case h_2 habsent =>
      cases hmicro
      exact .inserting key habsent
  | inserting key habsent =>
    cases hmicro
    have hnew : n.registerNode key = n.store key Node.zero := by rw [NodeRegistry.registerNode, habsent]
    exact hnew ▸ .registered key
  | checking key =>
    simp only [NodeRegistry.micro] at hmicro
    split at hmicro
    case h_1 nodeInfo hfound =>
      cases hmicro
      exact .stamping key nodeInfo hfound
    case h_2 habsent =>
      cases hmicro
      have hsame : n.reportNewHealthCheck key 0 = n := by rw [NodeRegistry.reportNewHealthCheck, habsent]
      have hdone : Progress n (.reportNewHealthCheck key) .finished (n.reportNewHealthCheck key 0) := .checked key 0
      rwa [hsame] at hdone
  | stamping key nodeInfo hfound =>
    cases hmicro
    rw [NodeRegistry.modify, hfound]
    exact .loading key nodeInfo now hfound
  | loading key nodeInfo stamp hfound =>
    cases hmicro
    have hcounter : (n.store key { nodeInfo with lastHealthCheck := stamp }).counter key =
        nodeInfo.continuousHealthChecks := by
      rw [NodeRegistry.counter, NodeRegistry.continuousHealthChecks, NodeRegistry.registry_store]
      rfl
    rw [hcounter]
    exact .storing key nodeInfo stamp hfound
  | storing key nodeInfo stamp hfound =>
    cases hmicro
    rw [NodeRegistry.modify, NodeRegistry.registry_store]
    change Progress n _ _ (NodeRegistry.store (n.store key _) key _)
    rw [NodeRegistry.store_store]
    have hnew : n.reportNewHealthCheck key stamp = n.store key
        { nodeInfo with
          lastHealthCheck := stamp
          continuousHealthChecks := nodeInfo.continuousHealthChecks + 1 } := by
      rw [NodeRegistry.reportNewHealthCheck, hfound]
    exact hnew ▸ .checked key stamp
  | failing key =>
    simp only [NodeRegistry.micro] at hmicro
    split at hmicro
    case h_1 nodeInfo hfound =>
      cases hmicro
      exact .resetting key nodeInfo hfound
    case h_2 habsent =>
      cases hmicro
      have hsame : n.reportNodeFailure key = n := by rw [NodeRegistry.reportNodeFailure, habsent]
      have hdone : Progress n (.reportNodeFailure key) .finished (n.reportNodeFailure key) := .failed key
      rwa [hsame] at hdone
  | resetting key nodeInfo hfound =>
    cases hmicro
    have hnew : n.reportNodeFailure key = n.modify key fun nodeInfo =>
        { nodeInfo with continuousHealthChecks := 0 } := by
      rw [NodeRegistry.reportNodeFailure, NodeRegistry.modify, hfound]
    exact hnew ▸ .failed key
  | registered key | checked key | failed key => cases hmicro

/-- The state of a call on a registry that nobody else uses. -/
theorem run_registry_progress {n m : NodeRegistry} {op : RegistryOp} {pc : RegistryPc} {inputs : List Time}
    (hrun : Run registryProgram.Body (op.start, n) inputs (pc, m)) : NodeRegistry.Progress n op pc m := by
  generalize hend : (pc, m) = last at hrun
  induction hrun generalizing pc m with
  | nil =>
    cases hend
    cases op with
    | registerNode key => exact .registering key
    | reportNewHealthCheck key => exact .checking key
    | reportNodeFailure key => exact .failing key
  | @snoc inputs x y input _ hlast ih =>
    cases hend
    exact (ih rfl).micro hlast

/-- A call carried out in one piece is a call of the sequential model, made at some time. -/
theorem exec_registry {n m : NodeRegistry} {op : RegistryOp} {result : Unit}
    (h : registryProgram.Exec n (op, result) m) : ∃ now, m = n.perform (op.call now) := by
  obtain ⟨inputs, pc, hrun, hresult⟩ := h
  cases run_registry_progress hrun with
  | registering | inserting | checking | stamping | loading | storing | failing | resetting => cases hresult
  | registered key => exact ⟨0, rfl⟩
  | checked key now => exact ⟨now, rfl⟩
  | failed key => exact ⟨0, rfl⟩

/-- The steps that a call still has to take. -/
def RegistryPc.potential : RegistryPc → ℕ
  | .checking _ => 4
  | .stamping _ => 3
  | .registering _ | .loading _ | .failing _ => 2
  | .inserting _ | .storing _ _ | .resetting _ => 1
  | .finished => 0

/-- Every step of a call brings it closer to its end. -/
theorem registryProgram_pays :
    Pays registryProgram.Body (fun _ => True) (fun x => x.1.potential) fun _ => 0 := by
  refine ⟨fun _ _ _ _ _ => trivial, ?_⟩
  rintro ⟨pc, n⟩ now ⟨pc', m⟩ - hmicro
  change NodeRegistry.micro (pc, n) now = some (pc', m) at hmicro
  cases pc with
  | registering key | checking key | failing key =>
    simp only [NodeRegistry.micro] at hmicro
    split at hmicro <;> cases hmicro <;> simp [RegistryPc.potential]
  | inserting key | stamping key | loading key | storing key checks | resetting key =>
    cases hmicro
    exact Nat.le_refl _
  | finished => cases hmicro

/-- A call that can take no step is finished. -/
theorem registryProgram_result (x : RegistryPc × NodeRegistry)
    (h : Stuck registryProgram.Body (fun _ => True) x) : (registryProgram.result x.1).isSome := by
  obtain ⟨pc, n⟩ := x
  have hno : NodeRegistry.micro (pc, n) 0 = none :=
    Option.eq_none_iff_forall_ne_some.mpr fun y => h 0 y trivial
  cases pc with
  | finished => rfl
  | registering key | checking key | failing key =>
    simp only [NodeRegistry.micro] at hno
    split at hno <;> cases hno
  | inserting key | stamping key | loading key | storing key checks | resetting key => cases hno

/-- Calls carried out one after the other leave the registry after these calls, made at some times. -/
theorem run_exec_registry {n m : NodeRegistry} {finished : List (RegistryOp × Unit)}
    (h : Run registryProgram.Exec n finished m) :
    ∃ calls : List RegistryCall, calls.map RegistryCall.untimed = finished.map (fun f => f.1.call 0) ∧
      m = calls.foldl NodeRegistry.perform n := by
  induction h with
  | nil => exact ⟨[], rfl, rfl⟩
  | @snoc finished m m' f _ hexec ih =>
    obtain ⟨calls, hcalls, rfl⟩ := ih
    obtain ⟨now, rfl⟩ := exec_registry hexec
    refine ⟨calls ++ [f.1.call now], ?_, by rw [List.foldl_append]; rfl⟩
    rw [List.map_append, hcalls, List.map_append, List.map_singleton, List.map_singleton]
    cases f.1 <;> rfl

/-- The calls under a key do not depend on their times. -/
theorem callsUnder_untimed (key : String) (calls : List RegistryCall) :
    (callsUnder key calls).map RegistryCall.untimed = callsUnder key (calls.map RegistryCall.untimed) := by
  unfold callsUnder
  rw [List.filter_map]
  congr 1
  refine List.filter_congr fun call _ => ?_
  cases call <;> rfl

/-- The counters depend on the calls only, not on their times. -/
theorem continuousHealthChecks_untimed {calls calls' : List RegistryCall}
    (h : calls.map RegistryCall.untimed = calls'.map RegistryCall.untimed) (key : String) :
    (afterCalls calls).continuousHealthChecks key = (afterCalls calls').continuousHealthChecks key := by
  rw [afterCalls_continuousHealthChecks, afterCalls_continuousHealthChecks, callsUnder_untimed,
    callsUnder_untimed, h]

/-- The finished calls, in the order in which they gave the lock back. -/
def finishedCalls {T : Type*} (events : List (Action T RegistryOp Time Unit)) : List RegistryCall :=
  (events.filterMap Action.finished).map fun finished => finished.1.call 0

/-- Concurrent calls on the registry amount to sequential ones. Whatever the interleaving of the steps of any
number of goroutines, the registry is, whenever no call is under way, what the finished calls make of it one
after the other, each at the time it read. No health check is lost: the counter of a node is the number of
finished health checks after its registration and its last failure. A goroutine that holds the lock can always
finish its call by itself. -/
theorem registry_linearizable {T : Type*} [DecidableEq T] {events : List (Action T RegistryOp Time Unit)}
    {s : Guarded T NodeRegistry RegistryOp RegistryPc}
    (hrun : Run registryProgram.Step (initial .new) events s) :
    (s.Quiet → (∃ calls : List RegistryCall, calls.map RegistryCall.untimed = finishedCalls events ∧
        s.object = afterCalls calls) ∧
      ∀ key, s.object.continuousHealthChecks key =
        if .registerNode key ∈ finishedCalls events then
          some (UInt64.ofNat (checksCounted key (finishedCalls events)))
        else none) ∧
      ∀ t op pc, s.threads t = .inside op pc → ∃ (inputs : List Time) (result : Unit)
        (u : Guarded T NodeRegistry RegistryOp RegistryPc),
          Run registryProgram.Step s (inputs.map (.micro t) ++ [.unlock t op result]) u := by
  have hreads : registryProgram.ReadsOnly := fun _ _ _ _ _ hmode => nomatch hmode
  obtain ⟨-, n, hexec, hprogress⟩ := linearizable hreads hrun
  obtain ⟨calls, hcalls, hn⟩ := run_exec_registry hexec
  refine ⟨fun hquiet => ⟨⟨calls, hcalls, (hprogress.quiet hquiet).trans hn⟩, fun key => ?_⟩,
    fun t op pc => exists_unlock registryProgram_pays registryProgram_result⟩
  have huntimed : calls.map RegistryCall.untimed = (finishedCalls events).map RegistryCall.untimed := by
    rw [hcalls, finishedCalls, List.map_map]
    refine List.map_congr_left fun f _ => ?_
    simp only [Function.comp_apply]
    cases f.1 <;> rfl
  rw [hprogress.quiet hquiet, hn, ← afterCalls_counter]
  exact continuousHealthChecks_untimed huntimed key

/-- The steps of one call under a lock that is free. -/
def callEvents (t : Bool) (op : RegistryOp) (steps : ℕ) : List (Action Bool RegistryOp Time Unit) :=
  .lock t op :: (List.range steps).map (.micro t) ++ [.unlock t op ()]

/-- Two streams under one node key, of which one waits with its health check for the other. -/
def sharedKeyEvents : List (Action Bool RegistryOp Time Unit) :=
  .call false (.registerNode "192.168.1.7:41234") :: callEvents false (.registerNode "192.168.1.7:41234") 2 ++
    [.call false (.reportNewHealthCheck "192.168.1.7:41234"), .call true (.reportNewHealthCheck "192.168.1.7:41234")] ++
    callEvents true (.reportNewHealthCheck "192.168.1.7:41234") 4 ++
    callEvents false (.reportNewHealthCheck "192.168.1.7:41234") 4

/-- Both health checks are counted. -/
theorem sharedKey_counts_both :
    ∃ s, Run registryProgram.Step (initial .new) sharedKeyEvents s ∧
      s.object.continuousHealthChecks "192.168.1.7:41234" = some 2 := by
  have hrun : ∃ s, Run registryProgram.Step (initial .new) sharedKeyEvents s ∧ s.holders = [] :=
    ⟨_, run_of_replay sharedKeyEvents rfl, rfl⟩
  obtain ⟨s, hs, hholders⟩ := hrun
  have hquiet : s.Quiet := fun t hmem => by
    rw [hholders] at hmem
    cases hmem
  refine ⟨s, hs, (((registry_linearizable hs).1 hquiet).2 "192.168.1.7:41234").trans ?_⟩
  decide +kernel

end GaleLB.LbNetwork
