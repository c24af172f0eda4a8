import GaleLB.LbNetwork.HealthStream
import GaleLB.LbNetwork.Registry
import Mathlib.Data.List.DropRight

/-!
# The node manager with all its streams

Any number of health streams run side by side and share the registry. A step is one event
of one stream; the events that call the registry change it under the node key of their
stream. Projecting a run to a stream gives a run of that stream alone. The counter under
a key is the number of health checks reported under it, by whichever stream, since the
last failure reported under it.
-/

namespace GaleLB.LbNetwork

open Transition

/-- The streams, numbered in any order, and the registry that they share. -/
structure Manager where
  streams : ℕ → Stream
  registry : NodeRegistry

/-- A manager before its first stream has done anything. -/
def newManager : Manager := ⟨fun _ => newStream, .new⟩

/-- The registry call of an event. -/
def Event.registryCall (nodeKey : String) (now : Time) : Event → Option RegistryCall
  | .registerNode => some (.registerNode nodeKey)
  | .reportNewHealthCheck => some (.reportNewHealthCheck nodeKey now)
  | .reportNodeFailure => some (.reportNodeFailure nodeKey)
  | _ => none

/-- An event of a stream, with the node key that the stream has and the time. -/
structure Label where
  stream : ℕ
  event : Event
  nodeKey : String
  now : Time

/-- The registry call of a labelled event. -/
def Label.registryCall (l : Label) : Option RegistryCall := l.event.registryCall l.nodeKey l.now

/-- One event of one stream, with its registry call. -/
def Manager.step (m : Manager) (l : Label) : Option Manager :=
  -- The label records the key that the handler passes to the registry.
  if l.nodeKey = (m.streams l.stream).nodeKey then do
    let s ← (m.streams l.stream).step l.event
    let registry := match l.registryCall with
      | some call => m.registry.perform call
      | none => m.registry
    some ⟨Function.update m.streams l.stream s, registry⟩
  else none

/-- The steps of the manager as a relation. -/
abbrev Manager.Step : Manager → Label → Manager → Prop := Computes Manager.step

/-- What a step does to the streams and to the registry. -/
structure Manager.StepFacts (m : Manager) (l : Label) (m' : Manager) : Prop where
  nodeKey : l.nodeKey = (m.streams l.stream).nodeKey
  stream : Stream.Step (m.streams l.stream) l.event (m'.streams l.stream)
  others : ∀ id, id ≠ l.stream → m'.streams id = m.streams id
  silent : l.registryCall = none → m'.registry = m.registry
  performed : ∀ call, l.registryCall = some call → m'.registry = m.registry.perform call

/-- The facts about a step. -/
theorem Manager.Step.facts {m m' : Manager} {l : Label} (h : Manager.Step m l m') :
    Manager.StepFacts m l m' := by
  change m.step l = some m' at h
  unfold Manager.step at h
  by_cases hkey : l.nodeKey = (m.streams l.stream).nodeKey
  · rw [if_pos hkey] at h
    obtain ⟨s, hs, hm'⟩ := Option.bind_eq_some_iff.mp h
    cases hm'
    refine ⟨hkey, ?_, ?_, ?_, ?_⟩
    · change (m.streams l.stream).step l.event = some (Function.update m.streams l.stream s l.stream)
      rw [Function.update_self]
      exact hs
    · intro id hid
      exact Function.update_of_ne hid _ _
    · intro hcall
      simp only [hcall]
    · intro call hcall
      simp only [hcall]
  · rw [if_neg hkey] at h
    cases h

/-- The events of one stream in a history of the manager. -/
def eventsOf (id : ℕ) (labels : List Label) : List Event :=
  labels.filterMap fun l => if l.stream = id then some l.event else none

/-- The events of a stream after one more step. -/
theorem eventsOf_concat (id : ℕ) (labels : List Label) (l : Label) :
    eventsOf id (labels ++ [l]) = eventsOf id labels ++ if l.stream = id then [l.event] else [] := by
  unfold eventsOf
  rw [List.filterMap_append]
  by_cases h : l.stream = id <;> simp [h]

/-- A run of the manager projects to a run of each stream. -/
theorem run_stream {m m' : Manager} {labels : List Label} (hrun : Run Manager.Step m labels m') (id : ℕ) :
    Run Stream.Step (m.streams id) (eventsOf id labels) (m'.streams id) := by
  induction hrun with
  | nil => exact Run.nil
  | @snoc labels m' m'' l _ hlast ih =>
    rw [eventsOf_concat]
    by_cases h : l.stream = id
    · subst h
      rw [if_pos rfl]
      exact ih.snoc hlast.facts.stream
    · rw [if_neg h, List.append_nil, hlast.facts.others id (Ne.symm h)]
      exact ih

/-- A stream without events stays as it is. -/
theorem run_stream_eq {m m' : Manager} {labels : List Label} (hrun : Run Manager.Step m labels m') {id : ℕ}
    (h : eventsOf id labels = []) : m'.streams id = m.streams id := by
  have hstream := run_stream hrun id
  rw [h] at hstream
  exact hstream.eq_of_nil

/-- The handler has registered its node and has not returned from the multiplexer. -/
def HandlerPc.registered : HandlerPc → Bool
  | .spawning | .selecting | .reportingCheck | .reportingFailure _ | .returning _ => true
  | _ => false

/-- A handler becomes registered by its registration only, and keeps its node key from then on. -/
theorem Stream.Step.registered {s t : Stream} {e : Event} (h : Stream.Step s e t)
    (hregistered : t.handler.registered = true) :
    t.nodeKey = s.nodeKey ∧ (e = .registerNode ∨ s.handler.registered = true) := by
  cases h.cases with
  | registerNode => exact ⟨rfl, Or.inl rfl⟩
  | setupDone | setupFailed | multiplexerReturns | closeErrChan | closeMsgChan => cases hregistered
  | recv | sendLast | sendErr | panicLast | panicErr | sendMsg | panicMsg => exact ⟨rfl, Or.inr hregistered⟩
  | spawnListener hhandler | takeMsg hhandler | takeErr hhandler | timeout hhandler
  | reportNewHealthCheck hhandler | reportNodeFailure hhandler => exact ⟨rfl, Or.inr (by rw [hhandler]; rfl)⟩

/-- A health check is reported by a handler that is due to. -/
theorem Stream.Step.of_reportNewHealthCheck {s t : Stream} (h : Stream.Step s .reportNewHealthCheck t) :
    s.handler = .reportingCheck := by
  cases h.cases with
  | reportNewHealthCheck hhandler => exact hhandler

/-- A failure is reported by a handler that is due to. -/
theorem Stream.Step.of_reportNodeFailure {s t : Stream} (h : Stream.Step s .reportNodeFailure t) :
    ∃ err, s.handler = .reportingFailure err := by
  cases h.cases with
  | reportNodeFailure hhandler => exact ⟨_, hhandler⟩

/-- The nodes of all registered handlers are in the registry. -/
def Manager.Known (m : Manager) : Prop :=
  ∀ id, (m.streams id).handler.registered = true → m.registry.registry (m.streams id).nodeKey ≠ none

/-- No step forgets a node. -/
theorem Manager.Step.registry_ne_none {m m' : Manager} {l : Label} (h : Manager.Step m l m')
    {key : String} (hknown : m.registry.registry key ≠ none) : m'.registry.registry key ≠ none := by
  cases hcall : l.registryCall with
  | none =>
    rw [h.facts.silent hcall]
    exact hknown
  | some call =>
    rw [h.facts.performed call hcall]
    exact m.registry.perform_ne_none call hknown

/-- A registering step puts its node key into the registry. -/
theorem Manager.Step.registry_of_registerNode {m m' : Manager} {l : Label} (h : Manager.Step m l m')
    (hevent : l.event = .registerNode) : m'.registry.registry l.nodeKey ≠ none := by
  have hcall : l.registryCall = some (.registerNode l.nodeKey) := by
    unfold Label.registryCall
    rw [hevent]
    rfl
  have hself : (m.registry.perform (.registerNode l.nodeKey)).registry l.nodeKey =
      some ((m.registry.registry l.nodeKey).getD Node.zero) := m.registry.perform_self _
  rw [h.facts.performed _ hcall, hself]
  nofun

/-- Every step keeps the nodes of registered handlers in the registry. -/
theorem Manager.Known.step {m m' : Manager} {l : Label} (h : m.Known) (hstep : Manager.Step m l m') :
    m'.Known := by
  intro id hregistered
  by_cases hid : id = l.stream
  · subst hid
    obtain ⟨hkey, hcase⟩ := hstep.facts.stream.registered hregistered
    rw [hkey]
    rcases hcase with hevent | hbefore
    · rw [← hstep.facts.nodeKey]
      exact hstep.registry_of_registerNode hevent
    · exact hstep.registry_ne_none (h l.stream hbefore)
  · rw [hstep.facts.others id hid] at hregistered ⊢
    exact hstep.registry_ne_none (h id hregistered)

variable {labels : List Label} {m : Manager}

/-- Every run keeps the nodes of registered handlers in the registry. -/
theorem Manager.Known.run {m' : Manager} (h : m.Known) (hrun : Run Manager.Step m labels m') : m'.Known := by
  induction hrun with
  | nil => exact h
  | snoc _ hlast ih => exact ih.step hlast

/-- In every run the nodes of registered handlers are in the registry. -/
theorem run_known (hrun : Run Manager.Step newManager labels m) : m.Known := by
  have hinit : newManager.Known := nofun
  exact hinit.run hrun

/-- The part of a history after the last failure reported under a key. -/
def sinceFailure (key : String) (labels : List Label) : List Label :=
  labels.rtakeWhile fun l => l.registryCall ≠ some (.reportNodeFailure key)

/-- The step reports a health check under a key. -/
def Label.isCheck (key : String) (l : Label) : Bool :=
  l.registryCall = some (.reportNewHealthCheck key l.now)

/-- The number of health checks reported under a key since the last failure under it. -/
def checksSinceFailure (key : String) (labels : List Label) : ℕ :=
  (sinceFailure key labels).countP (Label.isCheck key)

/-- A failure under the key starts a new count, a health check under the key is counted. -/
theorem checksSinceFailure_concat (key : String) (labels : List Label) (l : Label) :
    checksSinceFailure key (labels ++ [l]) =
      if l.registryCall = some (.reportNodeFailure key) then 0
      else checksSinceFailure key labels + if l.isCheck key then 1 else 0 := by
  unfold checksSinceFailure sinceFailure
  by_cases h : l.registryCall = some (.reportNodeFailure key)
  · rw [if_pos h, List.rtakeWhile_concat_neg _ _ _ (by simpa using h), List.countP_nil]
  · rw [if_neg h, List.rtakeWhile_concat_pos _ _ _ (by simpa using h), List.countP_append,
      List.countP_singleton]

/-- A step without a call under a key reports neither a failure nor a health check under it. -/
theorem Label.silent_of_ne {l : Label} {key : String}
    (h : ∀ call, l.registryCall = some call → call.nodeKey ≠ key) :
    l.registryCall ≠ some (.reportNodeFailure key) ∧ l.isCheck key = false := by
  refine ⟨fun hcall => h _ hcall rfl, ?_⟩
  unfold Label.isCheck
  rw [decide_eq_false_iff_not]
  exact fun hcall => h _ hcall rfl

/-- A step without a call under a key leaves its count alone. -/
theorem checksSinceFailure_concat_of_silent {key : String} (labels : List Label) {l : Label}
    (h : ∀ call, l.registryCall = some call → call.nodeKey ≠ key) :
    checksSinceFailure key (labels ++ [l]) = checksSinceFailure key labels := by
  obtain ⟨hfailure, hcheck⟩ := Label.silent_of_ne h
  rw [checksSinceFailure_concat, if_neg hfailure, hcheck, if_neg Bool.false_ne_true, Nat.add_zero]

/-- A reported health check is the event of its stream. -/
theorem Label.event_of_check {l : Label} {key : String} {now : Time}
    (h : l.registryCall = some (.reportNewHealthCheck key now)) :
    l.event = .reportNewHealthCheck ∧ l.nodeKey = key ∧ l.now = now := by
  unfold Label.registryCall at h
  cases hevent : l.event <;> rw [hevent] at h <;> cases h
  exact ⟨rfl, rfl, rfl⟩

/-- A reported failure is the event of its stream. -/
theorem Label.event_of_failure {l : Label} {key : String}
    (h : l.registryCall = some (.reportNodeFailure key)) : l.event = .reportNodeFailure ∧ l.nodeKey = key := by
  unfold Label.registryCall at h
  cases hevent : l.event <;> rw [hevent] at h <;> cases h
  exact ⟨rfl, rfl⟩

/-- A health check is reported under a known key. -/
theorem Manager.Known.of_check {m' : Manager} {l : Label} {key : String} {now : Time} (h : m.Known)
    (hstep : Manager.Step m l m') (hcall : l.registryCall = some (.reportNewHealthCheck key now)) :
    m.registry.registry key ≠ none := by
  obtain ⟨hevent, hkey, -⟩ := Label.event_of_check hcall
  have hstream := hstep.facts.stream
  rw [hevent] at hstream
  rw [← hkey, hstep.facts.nodeKey]
  apply h
  rw [hstream.of_reportNewHealthCheck]
  rfl

/-- A failure is reported under a known key. -/
theorem Manager.Known.of_failure {m' : Manager} {l : Label} {key : String} (h : m.Known)
    (hstep : Manager.Step m l m') (hcall : l.registryCall = some (.reportNodeFailure key)) :
    m.registry.registry key ≠ none := by
  obtain ⟨hevent, hkey⟩ := Label.event_of_failure hcall
  have hstream := hstep.facts.stream
  rw [hevent] at hstream
  obtain ⟨err, hhandler⟩ := hstream.of_reportNodeFailure
  rw [← hkey, hstep.facts.nodeKey]
  apply h
  rw [hhandler]
  rfl

/-- A step resets the counter under a key by a failure, increments it by a health check, and
otherwise leaves it alone. -/
theorem Manager.Step.counter {m' : Manager} {l : Label} (h : Manager.Step m l m') (hknown : m.Known)
    (key : String) :
    m'.registry.counter key = if l.registryCall = some (.reportNodeFailure key) then 0
      else m.registry.counter key + if l.isCheck key then 1 else 0 := by
  by_cases hsilent : ∀ call, l.registryCall = some call → call.nodeKey ≠ key
  · obtain ⟨hfailure, hcheck⟩ := Label.silent_of_ne hsilent
    rw [if_neg hfailure, hcheck, if_neg Bool.false_ne_true, UInt64.add_zero]
    cases hcall : l.registryCall with
    | none => rw [h.facts.silent hcall]
    | some call => rw [h.facts.performed call hcall, m.registry.counter_perform_of_ne (hsilent call hcall)]
  · push Not at hsilent
    obtain ⟨call, hcall, rfl⟩ := hsilent
    -- Only the health check depends on the key being known; an unknown key would not be counted.
    rw [h.facts.performed call hcall, Label.isCheck, hcall]
    cases call with
    | registerNode nodeKey =>
      simp only [RegistryCall.nodeKey, NodeRegistry.counter_registerNode]
      simp
    | reportNewHealthCheck nodeKey now =>
      have hrecord := hknown.of_check h hcall
      obtain ⟨-, -, rfl⟩ := Label.event_of_check hcall
      simp only [RegistryCall.nodeKey, NodeRegistry.counter_reportNewHealthCheck l.now hrecord]
      simp
    | reportNodeFailure nodeKey =>
      simp only [RegistryCall.nodeKey, NodeRegistry.counter_reportNodeFailure, if_true]

/-- In every run the counter under a key is the number of health checks since the last failure. -/
theorem run_counter (hrun : Run Manager.Step newManager labels m) (key : String) :
    m.registry.counter key = UInt64.ofNat (checksSinceFailure key labels) := by
  induction hrun with
  | nil => rfl
  | snoc hrun hlast ih =>
    rw [hlast.counter (run_known hrun), checksSinceFailure_concat, ih]
    split
    · rfl
    · rw [UInt64.ofNat_add]
      split <;> rfl

end GaleLB.LbNetwork
