import Mathlib.Logic.Function.Basic
import Mathlib.Data.UInt

/-!
# The registry of nodes

The registry maps a node key to the node's health record. Its three operations hold the
global lock, so each is one atomic change of the map: registering adds a record under a
new key, a health check increments the counter of a known key, and a failure resets it.
Unknown keys are only logged. Every operation acts on the record of its own key.
-/

namespace GaleLB.LbNetwork

/-- A point in time; the zero time is that of a node without health checks. -/
abbrev Time := ℕ

/-- The health record of a node. -/
structure Node where
  continuousHealthChecks : UInt64
  lastHealthCheck : Time
deriving DecidableEq, Repr

/-- The zero record, with which a node is registered. -/
def Node.zero : Node := ⟨0, 0⟩

/-- The registry, as a map from node keys to records. -/
structure NodeRegistry where
  registry : String → Option Node

/-- A registry without nodes. -/
def NodeRegistry.new : NodeRegistry := ⟨fun _ => none⟩

/-- Store a record under a key. -/
def NodeRegistry.store (n : NodeRegistry) (nodeKey : String) (nodeInfo : Node) : NodeRegistry :=
  ⟨Function.update n.registry nodeKey (some nodeInfo)⟩

/-- Add a node to the registry unless its key is present. -/
def NodeRegistry.registerNode (n : NodeRegistry) (nodeKey : String) : NodeRegistry :=
  match n.registry nodeKey with
  | some _ => n
  | none => n.store nodeKey Node.zero

/-- Record a health check of a known node; the counter wraps around. -/
def NodeRegistry.reportNewHealthCheck (n : NodeRegistry) (nodeKey : String) (now : Time) : NodeRegistry :=
  match n.registry nodeKey with
  | some nodeInfo => n.store nodeKey
      { nodeInfo with
        lastHealthCheck := now
        continuousHealthChecks := nodeInfo.continuousHealthChecks + 1 }
  | none => n

/-- Reset the counter of a known node. -/
def NodeRegistry.reportNodeFailure (n : NodeRegistry) (nodeKey : String) : NodeRegistry :=
  match n.registry nodeKey with
  | some nodeInfo => n.store nodeKey { nodeInfo with continuousHealthChecks := 0 }
  | none => n

/-- A call of one of the three operations. -/
inductive RegistryCall where
  | registerNode (nodeKey : String)
  | reportNewHealthCheck (nodeKey : String) (now : Time)
  | reportNodeFailure (nodeKey : String)
deriving DecidableEq, Repr

/-- The key a call is about. -/
def RegistryCall.nodeKey : RegistryCall → String
  | .registerNode nodeKey => nodeKey
  | .reportNewHealthCheck nodeKey _ => nodeKey
  | .reportNodeFailure nodeKey => nodeKey

/-- Carry a call out. -/
def NodeRegistry.perform (n : NodeRegistry) : RegistryCall → NodeRegistry
  | .registerNode nodeKey => n.registerNode nodeKey
  | .reportNewHealthCheck nodeKey now => n.reportNewHealthCheck nodeKey now
  | .reportNodeFailure nodeKey => n.reportNodeFailure nodeKey

/-- What a call makes of the record of its key. -/
def RegistryCall.effect : RegistryCall → Option Node → Option Node
  | .registerNode _, record => some (record.getD Node.zero)
  | .reportNewHealthCheck _ now, record => record.map fun nodeInfo =>
      { nodeInfo with
        lastHealthCheck := now
        continuousHealthChecks := nodeInfo.continuousHealthChecks + 1 }
  | .reportNodeFailure _, record => record.map fun nodeInfo =>
      { nodeInfo with continuousHealthChecks := 0 }

/-- The counter of a registered node. -/
def NodeRegistry.continuousHealthChecks (n : NodeRegistry) (nodeKey : String) : Option UInt64 :=
  (n.registry nodeKey).map Node.continuousHealthChecks

/-- The counter under a key, zero for an unknown node. -/
def NodeRegistry.counter (n : NodeRegistry) (key : String) : UInt64 :=
  (n.continuousHealthChecks key).getD 0

/-- Carrying a call out updates the record of its key. -/
theorem NodeRegistry.perform_eq (n : NodeRegistry) (call : RegistryCall) :
    (n.perform call).registry =
      Function.update n.registry call.nodeKey (call.effect (n.registry call.nodeKey)) := by
  have hsame : ∀ {nodeKey record}, n.registry nodeKey = record →
      n.registry = Function.update n.registry nodeKey record := fun h => by
    rw [← h, Function.update_eq_self]
  cases call with
  | registerNode nodeKey =>
    simp only [NodeRegistry.perform, NodeRegistry.registerNode, RegistryCall.nodeKey]
    cases hrecord : n.registry nodeKey with
    | none => rfl
    | some nodeInfo => exact hsame hrecord
  | reportNewHealthCheck nodeKey now =>
    simp only [NodeRegistry.perform, NodeRegistry.reportNewHealthCheck, RegistryCall.nodeKey]
    cases hrecord : n.registry nodeKey with
    | none => exact hsame hrecord
    | some nodeInfo => rfl
  | reportNodeFailure nodeKey =>
    simp only [NodeRegistry.perform, NodeRegistry.reportNodeFailure, RegistryCall.nodeKey]
    cases hrecord : n.registry nodeKey with
    | none => exact hsame hrecord
    | some nodeInfo => rfl

/-- A call changes the record of its own key. -/
theorem NodeRegistry.perform_self (n : NodeRegistry) (call : RegistryCall) :
    (n.perform call).registry call.nodeKey = call.effect (n.registry call.nodeKey) := by
  rw [n.perform_eq, Function.update_self]

/-- A call leaves the records of the other keys alone. -/
theorem NodeRegistry.perform_of_ne (n : NodeRegistry) (call : RegistryCall) {key : String}
    (h : call.nodeKey ≠ key) : (n.perform call).registry key = n.registry key := by
  rw [n.perform_eq, Function.update_of_ne (Ne.symm h)]

/-- No call forgets a node. -/
theorem NodeRegistry.perform_ne_none (n : NodeRegistry) (call : RegistryCall) {key : String}
    (h : n.registry key ≠ none) : (n.perform call).registry key ≠ none := by
  by_cases hkey : call.nodeKey = key
  · subst hkey
    rw [n.perform_self]
    obtain ⟨nodeInfo, hrecord⟩ := Option.ne_none_iff_exists'.mp h
    rw [hrecord]
    cases call <;> nofun
  · rw [n.perform_of_ne call hkey]
    exact h

/-- The counter of a known node. -/
theorem NodeRegistry.continuousHealthChecks_of_ne_none {n : NodeRegistry} {key : String}
    (h : n.registry key ≠ none) : n.continuousHealthChecks key = some (n.counter key) := by
  obtain ⟨nodeInfo, hrecord⟩ := Option.ne_none_iff_exists'.mp h
  unfold NodeRegistry.counter NodeRegistry.continuousHealthChecks
  rw [hrecord]
  rfl

/-- A call under another key leaves the counter alone. -/
theorem NodeRegistry.counter_perform_of_ne (n : NodeRegistry) {call : RegistryCall} {key : String}
    (h : call.nodeKey ≠ key) : (n.perform call).counter key = n.counter key := by
  unfold NodeRegistry.counter NodeRegistry.continuousHealthChecks
  rw [n.perform_of_ne call h]

/-- Registering a node keeps its counter. -/
theorem NodeRegistry.counter_registerNode (n : NodeRegistry) (key : String) :
    (n.perform (.registerNode key)).counter key = n.counter key := by
  have hself : (n.perform (.registerNode key)).registry key =
      some ((n.registry key).getD Node.zero) := n.perform_self _
  unfold NodeRegistry.counter NodeRegistry.continuousHealthChecks
  rw [hself]
  cases n.registry key <;> rfl

/-- A health check increments the counter of a known node. -/
theorem NodeRegistry.counter_reportNewHealthCheck {n : NodeRegistry} {key : String} (now : Time)
    (h : n.registry key ≠ none) :
    (n.perform (.reportNewHealthCheck key now)).counter key = n.counter key + 1 := by
  have hself : (n.perform (.reportNewHealthCheck key now)).registry key = _ := n.perform_self _
  obtain ⟨nodeInfo, hrecord⟩ := Option.ne_none_iff_exists'.mp h
  unfold NodeRegistry.counter NodeRegistry.continuousHealthChecks
  rw [hself]
  change (((n.registry key).map _).map _).getD 0 = _
  rw [hrecord]
  rfl

/-- A failure leaves the counter at zero. -/
theorem NodeRegistry.counter_reportNodeFailure (n : NodeRegistry) (key : String) :
    (n.perform (.reportNodeFailure key)).counter key = 0 := by
  have hself : (n.perform (.reportNodeFailure key)).registry key = _ := n.perform_self _
  unfold NodeRegistry.counter NodeRegistry.continuousHealthChecks
  rw [hself]
  change (((n.registry key).map _).map _).getD 0 = _
  cases n.registry key <;> rfl

end GaleLB.LbNetwork
