import GaleLB.LbNetwork.HealthAccounting

/-!
# The registry as a function of its history

The record under a key is decided by the calls under that key alone: the first
registration creates it, a later one keeps it, reports before the first registration are
lost, and a failure starts a new count. So the counter is the number of health checks
after both the first registration and the last failure, up to its wrap-around.

Handlers register their node before they report anything, and no call forgets a node.
In the node manager no report is lost.
-/

namespace GaleLB.LbNetwork

open Transition

/-- The registry after a sequence of calls. -/
def afterCalls (calls : List RegistryCall) : NodeRegistry := calls.foldl NodeRegistry.perform .new

/-- The registry after one more call. -/
theorem afterCalls_concat (calls : List RegistryCall) (call : RegistryCall) :
    afterCalls (calls ++ [call]) = (afterCalls calls).perform call :=
  List.foldl_concat _ _ _ _

/-- The calls under a key. -/
def callsUnder (key : String) (calls : List RegistryCall) : List RegistryCall :=
  calls.filter fun call => call.nodeKey = key

/-- The calls under a key after one more call. -/
theorem callsUnder_concat (key : String) (calls : List RegistryCall) (call : RegistryCall) :
    callsUnder key (calls ++ [call]) = callsUnder key calls ++ if call.nodeKey = key then [call] else [] := by
  unfold callsUnder
  rw [List.filter_append, List.filter_singleton]
  by_cases h : call.nodeKey = key <;> simp [h]

/-- The record under a key is what the calls under that key make of it, one after the other. -/
theorem afterCalls_registry (calls : List RegistryCall) (key : String) :
    (afterCalls calls).registry key =
      (callsUnder key calls).foldl (fun record call => call.effect record) none := by
  induction calls using List.reverseRecOn with
  | nil => rfl
  | append_singleton calls call ih =>
    rw [afterCalls_concat, callsUnder_concat, List.foldl_append, ← ih]
    by_cases h : call.nodeKey = key
    · subst h
      rw [if_pos rfl]
      exact NodeRegistry.perform_self _ _
    · rw [if_neg h]
      exact NodeRegistry.perform_of_ne _ _ h

/-- What a call makes of the counter of its key. -/
def RegistryCall.count : RegistryCall → Option UInt64 → Option UInt64
  | .registerNode _, checks => some (checks.getD 0)
  | .reportNewHealthCheck _ _, checks => checks.map (· + 1)
  | .reportNodeFailure _, checks => checks.map fun _ => 0

/-- A call without its time. -/
def RegistryCall.untimed : RegistryCall → RegistryCall
  | .reportNewHealthCheck nodeKey _ => .reportNewHealthCheck nodeKey 0
  | call => call

/-- The time of a call does not matter for the counter. -/
theorem RegistryCall.count_untimed (call : RegistryCall) : call.untimed.count = call.count := by
  cases call <;> rfl

/-- A call changes the counter of its own key. -/
theorem NodeRegistry.continuousHealthChecks_perform (n : NodeRegistry) (call : RegistryCall) (key : String) :
    (n.perform call).continuousHealthChecks key =
      if call.nodeKey = key then call.count (n.continuousHealthChecks key)
      else n.continuousHealthChecks key := by
  unfold NodeRegistry.continuousHealthChecks
  by_cases h : call.nodeKey = key
  · subst h
    rw [if_pos rfl, n.perform_self]
    cases n.registry call.nodeKey <;> cases call <;> rfl
  · rw [if_neg h, n.perform_of_ne call h]

/-- The counter under a key is what the calls under that key make of it, whatever their times. -/
theorem afterCalls_continuousHealthChecks (calls : List RegistryCall) (key : String) :
    (afterCalls calls).continuousHealthChecks key =
      ((callsUnder key calls).map RegistryCall.untimed).foldl (fun checks call => call.count checks) none := by
  induction calls using List.reverseRecOn with
  | nil => rfl
  | append_singleton calls call ih =>
    rw [afterCalls_concat, NodeRegistry.continuousHealthChecks_perform, callsUnder_concat, List.map_append,
      List.foldl_append, ← ih]
    by_cases h : call.nodeKey = key
    · rw [if_pos h, if_pos h, ← call.count_untimed]
      rfl
    · rw [if_neg h, if_neg h]
      rfl

/-- The call reports a health check under a key. -/
def RegistryCall.isCheck (key : String) : RegistryCall → Bool
  | .reportNewHealthCheck nodeKey _ => nodeKey = key
  | _ => false

/-- The number of health checks under a key after both its first registration and its last failure. -/
def checksCounted (key : String) (calls : List RegistryCall) : ℕ :=
  ((calls.dropWhile (· ≠ .registerNode key)).rtakeWhile (· ≠ .reportNodeFailure key)).countP
    (RegistryCall.isCheck key)

/-- Without a registration nothing is left of a history. -/
theorem dropWhile_registerNode_eq_nil {key : String} {calls : List RegistryCall} :
    calls.dropWhile (· ≠ .registerNode key) = [] ↔ .registerNode key ∉ calls := by
  rw [List.dropWhile_eq_nil_iff]
  constructor
  · intro h hmem
    exact of_decide_eq_true (h _ hmem) rfl
  · intro h call hmem
    exact decide_eq_true fun hcall => h (hcall ▸ hmem)

/-- A call of a registered node is counted if it is a health check, and starts a new count if it is
a failure. -/
theorem checksCounted_concat {key : String} {calls : List RegistryCall}
    (h : .registerNode key ∈ calls) (call : RegistryCall) :
    checksCounted key (calls ++ [call]) = if call = .reportNodeFailure key then 0
      else checksCounted key calls + if call.isCheck key then 1 else 0 := by
  have hne : (calls.dropWhile (· ≠ .registerNode key)).isEmpty = false := by
    rw [List.isEmpty_eq_false_iff]
    exact fun hnil => dropWhile_registerNode_eq_nil.mp hnil h
  unfold checksCounted
  rw [List.dropWhile_append, hne, if_neg Bool.false_ne_true]
  by_cases hcall : call = .reportNodeFailure key
  · rw [if_pos hcall, List.rtakeWhile_concat_neg _ _ _ (by simpa using hcall), List.countP_nil]
  · rw [if_neg hcall, List.rtakeWhile_concat_pos _ _ _ (by simpa using hcall), List.countP_append,
      List.countP_singleton]

/-- Nothing is counted up to the first registration. -/
theorem checksCounted_registration {key : String} {calls : List RegistryCall}
    (h : .registerNode key ∉ calls) : checksCounted key (calls ++ [.registerNode key]) = 0 := by
  unfold checksCounted
  rw [List.dropWhile_append, dropWhile_registerNode_eq_nil.mpr h]
  simp [List.rtakeWhile, RegistryCall.isCheck]

/-- The counter after a history: none without a registration, and otherwise the number of health
checks that count. -/
theorem afterCalls_counter (calls : List RegistryCall) (key : String) :
    (afterCalls calls).continuousHealthChecks key =
      if .registerNode key ∈ calls then some (UInt64.ofNat (checksCounted key calls)) else none := by
  induction calls using List.reverseRecOn with
  | nil => rfl
  | append_singleton calls call ih =>
    rw [afterCalls_concat, NodeRegistry.continuousHealthChecks_perform, ih]
    by_cases hregistered : .registerNode key ∈ calls
    · rw [if_pos hregistered, if_pos (List.mem_append_left _ hregistered), checksCounted_concat hregistered]
      cases call with
      | registerNode nodeKey => simp [RegistryCall.count, RegistryCall.isCheck]
      | reportNewHealthCheck nodeKey now =>
        by_cases hkey : nodeKey = key <;>
          simp [RegistryCall.count, RegistryCall.isCheck, RegistryCall.nodeKey, hkey]
      | reportNodeFailure nodeKey =>
        by_cases hkey : nodeKey = key <;>
          simp [RegistryCall.count, RegistryCall.isCheck, RegistryCall.nodeKey, hkey]
    · rw [if_neg hregistered]
      by_cases hcall : .registerNode key = call
      · subst hcall
        rw [if_pos (List.mem_append_right _ List.mem_cons_self), checksCounted_registration hregistered]
        exact if_pos rfl
      · have hnone : .registerNode key ∉ calls ++ [call] := by
          rw [List.mem_append, List.mem_singleton]
          exact not_or.mpr ⟨hregistered, hcall⟩
        rw [if_neg hnone]
        cases call with
        | registerNode nodeKey => exact if_neg fun hkey => hcall (congrArg _ hkey.symm)
        | reportNewHealthCheck nodeKey now => exact ite_self _
        | reportNodeFailure nodeKey => exact ite_self _

/-- A key is present exactly when it was registered. -/
theorem afterCalls_ne_none_iff (calls : List RegistryCall) (key : String) :
    (afterCalls calls).registry key ≠ none ↔ .registerNode key ∈ calls := by
  have hcounter := afterCalls_counter calls key
  unfold NodeRegistry.continuousHealthChecks at hcounter
  by_cases h : .registerNode key ∈ calls
  · rw [if_pos h] at hcounter
    refine iff_of_true (fun hnone => ?_) h
    rw [hnone] at hcounter
    cases hcounter
  · rw [if_neg h, Option.map_eq_none_iff] at hcounter
    exact iff_of_false (fun hne => hne hcounter) h

/-- Registering a known node changes nothing. -/
theorem NodeRegistry.perform_registerNode {n : NodeRegistry} {key : String} (h : n.registry key ≠ none) :
    n.perform (.registerNode key) = n := by
  obtain ⟨nodeInfo, hrecord⟩ := Option.ne_none_iff_exists'.mp h
  unfold NodeRegistry.perform NodeRegistry.registerNode
  simp only [hrecord]

/-- After every sequence of calls a key is present exactly when it was registered; its counter is
then the number of health checks after both its first registration and its last failure, up to the
wrap-around. Registering it again changes nothing, and only the calls under a key matter for it. -/
theorem afterCalls_record (calls : List RegistryCall) (key : String) :
    ((afterCalls calls).registry key ≠ none ↔ .registerNode key ∈ calls) ∧
    (.registerNode key ∈ calls →
      (afterCalls calls).continuousHealthChecks key = some (UInt64.ofNat (checksCounted key calls)) ∧
      afterCalls (calls ++ [.registerNode key]) = afterCalls calls) ∧
    (∀ calls', callsUnder key calls = callsUnder key calls' →
      (afterCalls calls).registry key = (afterCalls calls').registry key) ∧
    ∀ calls', (callsUnder key calls).map RegistryCall.untimed = (callsUnder key calls').map RegistryCall.untimed →
      (afterCalls calls).continuousHealthChecks key = (afterCalls calls').continuousHealthChecks key := by
  refine ⟨afterCalls_ne_none_iff calls key, ?_, ?_, ?_⟩
  · intro h
    have hknown := (afterCalls_ne_none_iff calls key).mpr h
    rw [afterCalls_counter, if_pos h, afterCalls_concat, NodeRegistry.perform_registerNode hknown]
    exact ⟨rfl, rfl⟩
  · intro calls' h
    rw [afterCalls_registry, afterCalls_registry, h]
  · intro calls' h
    rw [afterCalls_continuousHealthChecks, afterCalls_continuousHealthChecks, h]

/-- A history with an early report, a second registration and calls under another key. -/
def sampleCalls : List RegistryCall :=
  [.reportNewHealthCheck sampleKey 1, .registerNode sampleKey, .reportNewHealthCheck sampleKey 2,
    .reportNodeFailure sampleKey, .registerNode "192.168.0.101:41000", .reportNewHealthCheck sampleKey 3,
    .registerNode sampleKey, .reportNodeFailure "192.168.0.101:41000", .reportNewHealthCheck sampleKey 4]

/-- Of the four health checks of that history two are counted. -/
theorem sampleCalls_record :
    .registerNode sampleKey ∈ sampleCalls ∧
      (afterCalls sampleCalls).continuousHealthChecks sampleKey = some 2 ∧
      (afterCalls sampleCalls).registry sampleKey =
        (afterCalls (callsUnder sampleKey sampleCalls)).registry sampleKey := by
  have hmem : .registerNode sampleKey ∈ sampleCalls := by decide +kernel
  obtain ⟨-, hregistered, hsame, -⟩ := afterCalls_record sampleCalls sampleKey
  refine ⟨hmem, ?_, hsame _ (by decide +kernel)⟩
  have hcount : checksCounted sampleKey sampleCalls = 2 := by decide +kernel
  rw [(hregistered hmem).1, hcount]
  rfl

variable {labels : List Label} {m m' : Manager} {l : Label}

/-- The registry of the node manager is what the calls of its streams make of an empty one. -/
theorem run_registry (hrun : Run Manager.Step newManager labels m) :
    m.registry = afterCalls (labels.filterMap Label.registryCall) := by
  induction hrun with
  | nil => rfl
  | @snoc labels m m' l _ hlast ih =>
    rw [List.filterMap_append]
    cases hcall : l.registryCall with
    | none => rw [List.filterMap_cons_none hcall, List.filterMap_nil, List.append_nil, hlast.facts.silent hcall, ih]
    | some call =>
      rw [List.filterMap_cons_some hcall, List.filterMap_nil, afterCalls_concat, hlast.facts.performed call hcall, ih]

/-- What a step makes of the record of a known node. -/
theorem Manager.Step.record (h : Manager.Step m l m') {call : RegistryCall} {nodeInfo : Node}
    (hcall : l.registryCall = some call) (hrecord : m.registry.registry call.nodeKey = some nodeInfo) :
    m'.registry.registry call.nodeKey = call.effect (some nodeInfo) := by
  rw [h.facts.performed call hcall, m.registry.perform_self, hrecord]

/-- In every run each report finds its node in the registry and changes its record. -/
theorem run_report_effective (hrun : Run Manager.Step newManager labels m) (hstep : Manager.Step m l m') :
    (∀ key now, l.registryCall = some (.reportNewHealthCheck key now) →
      ∃ nodeInfo, m.registry.registry key = some nodeInfo ∧
        m'.registry.registry key = some ⟨nodeInfo.continuousHealthChecks + 1, now⟩) ∧
    ∀ key, l.registryCall = some (.reportNodeFailure key) →
      ∃ nodeInfo, m.registry.registry key = some nodeInfo ∧
        m'.registry.registry key = some ⟨0, nodeInfo.lastHealthCheck⟩ := by
  constructor
  · intro key now hcall
    have hknown := (run_known hrun).of_check hstep hcall
    obtain ⟨nodeInfo, hrecord⟩ := Option.ne_none_iff_exists'.mp hknown
    exact ⟨nodeInfo, hrecord, hstep.record hcall hrecord⟩
  · intro key hcall
    have hknown := (run_known hrun).of_failure hstep hcall
    obtain ⟨nodeInfo, hrecord⟩ := Option.ne_none_iff_exists'.mp hknown
    exact ⟨nodeInfo, hrecord, hstep.record hcall hrecord⟩

/-- The failure of a second stream over one connection finds the record that the first one filled. -/
theorem sharedKey_report_effective :
    ∃ m m', Run Manager.Step newManager sharedKeyLabels m ∧
      Manager.Step m ⟨1, .reportNodeFailure, sampleKey, 2⟩ m' ∧
      ∃ nodeInfo, m.registry.registry sampleKey = some nodeInfo ∧
        m'.registry.registry sampleKey = some ⟨0, nodeInfo.lastHealthCheck⟩ := by
  obtain ⟨m, m', hrun, hstep⟩ : ∃ m m', Run Manager.Step newManager sharedKeyLabels m ∧
      Manager.Step m ⟨1, .reportNodeFailure, sampleKey, 2⟩ m' :=
    ⟨_, _, run_of_replay sharedKeyLabels rfl, rfl⟩
  exact ⟨m, m', hrun, hstep, (run_report_effective hrun hstep).2 sampleKey rfl⟩

end GaleLB.LbNetwork
