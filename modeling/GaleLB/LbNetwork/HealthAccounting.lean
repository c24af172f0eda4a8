import GaleLB.LbNetwork.NodeManager
import GaleLB.LbNetwork.StreamEnd

/-!
# What the counters of the registry say about the nodes

A failure resets the counter of its node key; a shutdown message and a `NotServing`
message leave it alone. The multiplexer can therefore return with a positive counter, and
the counter of a node that alternates between statuses is not the length of its last run
of `Serving` messages. Between the last registry call of a multiplexer and its return,
another stream under the same key can call the registry, so what a failure has reset may
be counted up again by the time of the return. A failure resets the counter for every
stream under its key, also for streams that are still healthy. Each property holds exactly
when the history avoids the step that breaks it, up to the wrap-around of the counter.
-/

namespace GaleLB.LbNetwork

open Channel Transition

/-- The handler can still call the registry: it is set up, and the last call of its multiplexer is to come. -/
def HandlerPc.working : HandlerPc → Bool
  | .registering | .spawning | .selecting | .reportingCheck | .reportingFailure _ => true
  | _ => false

/-- The handler is active: it is set up and its multiplexer has not returned. -/
def HandlerPc.active : HandlerPc → Bool
  | .registering | .spawning | .selecting | .reportingCheck | .reportingFailure _ | .returning _ => true
  | _ => false

/-- No other handler is active for a node key. -/
def Manager.Alone (m : Manager) (id : ℕ) (key : String) : Prop :=
  ∀ other, other ≠ id → (m.streams other).handler.active = true → (m.streams other).nodeKey ≠ key

/-- No other handler can still call the registry under a node key. -/
def Manager.LastWorker (m : Manager) (id : ℕ) (key : String) : Prop :=
  ∀ other, other ≠ id → (m.streams other).handler.working = true → (m.streams other).nodeKey ≠ key

/-- The multiplexer takes a shutdown message. -/
def Event.TakesShutdown : Event → Prop
  | .takeMsg msg => getStatus msg = shuttingDown
  | _ => False

/-- If the multiplexer returns and no other handler is active for its node key, the counter of the node is
zero. -/
def UnhealthyAtReturn (l : Label) (m' : Manager) : Prop :=
  l.event = .multiplexerReturns → m'.Alone l.stream l.nodeKey →
    m'.registry.continuousHealthChecks l.nodeKey = some 0

/-- A shutdown message comes with no health checks under its node key since the last failure, up to the
wrap-around, if no other handler can still call the registry under that key. -/
def ShutsDownUncounted (before : List Label) (m : Manager) (l : Label) : Prop :=
  l.event.TakesShutdown → m.LastWorker l.stream l.nodeKey → 2 ^ 64 ∣ checksSinceFailure l.nodeKey before

/-- A handler that can still call the registry is active. -/
theorem HandlerPc.active_of_working {pc : HandlerPc} (h : pc.working = true) : pc.active = true := by
  cases pc <;> first | rfl | cases h

/-- An active handler is about to return if it cannot call the registry any more. -/
theorem HandlerPc.working_or_returning {pc : HandlerPc} (h : pc.active = true) :
    pc.working = true ∨ ∃ result, pc = .returning result := by
  cases pc with
  | returning result => exact Or.inr ⟨result, rfl⟩
  | registering | spawning | selecting | reportingCheck | reportingFailure => exact Or.inl rfl
  | setup | closingErr | closingMsg | returned => cases h

/-- A handler that is not active does not wait for its return. -/
theorem HandlerPc.ne_returning {pc : HandlerPc} (h : pc.active = false) (result : Option GoError) :
    pc ≠ .returning result := by
  rintro rfl
  cases h

/-- The multiplexer goes on after a message, or it was the shutdown message. -/
theorem afterMsg_working (msg : HealthStatus) :
    (afterMsg msg).working = true ∨ getStatus msg = shuttingDown := by
  unfold afterMsg
  split
  · exact Or.inl rfl
  · split
    · exact Or.inr ‹_›
    · exact Or.inl rfl

/-- The multiplexer goes on after an error. -/
theorem afterErr_working (err : GoError) : (afterErr err).working = true := by
  unfold afterErr
  split <;> rfl

/-- A handler that can call the registry keeps its node key, and can call the registry until it has
reported a failure or taken a shutdown message. -/
theorem Stream.Step.of_working {s t : Stream} {e : Event} (h : Stream.Step s e t)
    (hworking : s.handler.working = true) :
    t.nodeKey = s.nodeKey ∧ (t.handler.working = true ∨ e = .reportNodeFailure ∨ e.TakesShutdown) := by
  cases h.cases with
  | registerNode | spawnListener | timeout | reportNewHealthCheck => exact ⟨rfl, Or.inl rfl⟩
  | recv | sendLast | sendErr | panicLast | panicErr | sendMsg | panicMsg => exact ⟨rfl, Or.inl hworking⟩
  | @takeMsg msg => exact ⟨rfl, (afterMsg_working msg).imp_right Or.inr⟩
  | @takeErr err => exact ⟨rfl, Or.inl (afterErr_working err)⟩
  | reportNodeFailure => exact ⟨rfl, Or.inr (Or.inl rfl)⟩
  | setupDone hhandler | setupFailed hhandler | multiplexerReturns hhandler | closeErrChan hhandler
  | closeMsgChan hhandler =>
    rw [hhandler] at hworking
    cases hworking

/-- A multiplexer that takes a shutdown message is due to return, under the same node key. -/
theorem Stream.Step.of_takesShutdown {s t : Stream} {e : Event} (h : Stream.Step s e t)
    (hdown : e.TakesShutdown) : t.handler = .returning none ∧ t.nodeKey = s.nodeKey := by
  cases h.cases with
  | @takeMsg msg =>
    have hstatus : getStatus msg = shuttingDown := hdown
    have hafter : afterMsg msg = .returning none := by
      unfold afterMsg
      rw [hstatus]
      rfl
    exact ⟨hafter, rfl⟩
  | _ => cases hdown

/-- Only a handler that can call the registry does. -/
theorem Stream.Step.working_of_registryCall {s t : Stream} {e : Event} (h : Stream.Step s e t)
    {nodeKey : String} {now : Time} (hcall : e.registryCall nodeKey now ≠ none) : s.handler.working = true := by
  cases h.cases with
  | registerNode hhandler | reportNewHealthCheck hhandler | reportNodeFailure hhandler =>
    rw [hhandler]
    rfl
  | _ => exact absurd rfl hcall

/-- A handler in its loop has registered its node. -/
theorem HandlerPc.registered_of_looping {pc : HandlerPc} (h : pc.phase = .looping) :
    pc.registered = true := by
  cases pc <;> first | rfl | cases h

/-- A counter of wrapped checks is zero exactly when their number is a multiple of 2^64. -/
theorem ofNat_eq_zero_iff (checks : ℕ) : UInt64.ofNat checks = 0 ↔ 2 ^ 64 ∣ checks := by
  rw [← UInt64.toNat_inj, UInt64.toNat_ofNat', Nat.dvd_iff_mod_eq_zero]
  rfl

variable {before labels : List Label} {m m' : Manager} {l : Label}

/-- In every run the counter of a known node is the number of health checks since the last failure. -/
theorem run_continuousHealthChecks (hrun : Run Manager.Step newManager labels m) {key : String}
    (hknown : m.registry.registry key ≠ none) :
    m.registry.continuousHealthChecks key = some (UInt64.ofNat (checksSinceFailure key labels)) := by
  rw [NodeRegistry.continuousHealthChecks_of_ne_none hknown, run_counter hrun]

/-- After a step of a registered handler the counter of its node is zero exactly when the number of
health checks since the last failure is a multiple of 2^64. -/
theorem zero_after_step_iff (hrun : Run Manager.Step newManager before m) (hlast : Manager.Step m l m')
    (hregistered : (m.streams l.stream).handler.registered = true) :
    m'.registry.continuousHealthChecks l.nodeKey = some 0 ↔
      2 ^ 64 ∣ checksSinceFailure l.nodeKey (before ++ [l]) := by
  have hknown := hlast.registry_ne_none (run_known hrun l.stream hregistered)
  rw [← hlast.facts.nodeKey] at hknown
  rw [run_continuousHealthChecks (hrun.snoc hlast) hknown, Option.some.injEq, ofNat_eq_zero_iff]

/-- The registry call of a reported failure. -/
theorem Label.registryCall_of_failure (h : l.event = .reportNodeFailure) :
    l.registryCall = some (.reportNodeFailure l.nodeKey) := by
  unfold Label.registryCall
  rw [h]
  rfl

/-- A shutdown message makes no registry call. -/
theorem Label.silent_of_shutdown (h : l.event.TakesShutdown) {key : String} :
    ∀ call, l.registryCall = some call → call.nodeKey ≠ key := by
  unfold Label.registryCall
  intro call hcall
  cases hevent : l.event <;> rw [hevent] at h hcall <;> first | cases h | cases hcall

/-- A return makes no registry call. -/
theorem Label.silent_of_return (h : l.event = .multiplexerReturns) {key : String} :
    ∀ call, l.registryCall = some call → call.nodeKey ≠ key := by
  unfold Label.registryCall
  intro call hcall
  rw [h] at hcall
  cases hcall

/-- A registry call is made under the node key of its stream. -/
theorem Label.nodeKey_of_registryCall {call : RegistryCall} (h : l.registryCall = some call) :
    call.nodeKey = l.nodeKey := by
  unfold Label.registryCall at h
  cases hevent : l.event <;> rw [hevent] at h <;> cases h <;> rfl

/-- The multiplexer that returns is due to. -/
theorem Stream.Step.of_multiplexerReturns {s t : Stream} (h : Stream.Step s .multiplexerReturns t) :
    ∃ result, s.handler = .returning result := by
  cases h.cases with
  | multiplexerReturns hhandler => exact ⟨_, hhandler⟩

/-- The handler whose multiplexer returns has registered its node and cannot call the registry any more. -/
theorem Manager.Step.of_return (h : Manager.Step m l m') (hevent : l.event = .multiplexerReturns) :
    (m.streams l.stream).handler.registered = true ∧ (m.streams l.stream).handler.working = false := by
  have hstream := h.facts.stream
  rw [hevent] at hstream
  obtain ⟨result, hreturning⟩ := hstream.of_multiplexerReturns
  rw [hreturning]
  exact ⟨rfl, rfl⟩

/-- A key under which no handler can call the registry has no health checks since its last failure, up to
the wrap-around. -/
def Accounted (labels : List Label) (m : Manager) : Prop :=
  ∀ key, (∀ id, (m.streams id).handler.working = true → (m.streams id).nodeKey ≠ key) →
    2 ^ 64 ∣ checksSinceFailure key labels

/-- The streams other than the one that moves stay as they are, so if none of the streams can call the
registry under a key after a step, none of the others could before. -/
theorem Manager.Step.lastWorker {key : String} (h : Manager.Step m l m')
    (hidle : ∀ id, (m'.streams id).handler.working = true → (m'.streams id).nodeKey ≠ key) :
    m.LastWorker l.stream key := by
  intro other hother hworking
  rw [← h.facts.others other hother] at hworking ⊢
  exact hidle other hworking

/-- A step keeps the keys accounted, if a shutdown message taken by the last handler that could call the
registry under its key comes with no health checks. -/
theorem Accounted.step (h : Accounted before m) (hlast : Manager.Step m l m')
    (hshutdown : ShutsDownUncounted before m l) : Accounted (before ++ [l]) m' := by
  intro key hidle
  have hothers := hlast.lastWorker hidle
  by_cases hmoves : (m.streams l.stream).handler.working = true ∧ l.nodeKey = key
  · obtain ⟨hworking, rfl⟩ := hmoves
    obtain ⟨hsame, hstays | hfailure | hdown⟩ := hlast.facts.stream.of_working hworking
    · exact absurd (hsame.trans hlast.facts.nodeKey.symm) (hidle l.stream hstays)
    · rw [checksSinceFailure_concat, if_pos (Label.registryCall_of_failure hfailure)]
      exact dvd_zero _
    · rw [checksSinceFailure_concat_of_silent _ (Label.silent_of_shutdown hdown)]
      exact hshutdown hdown hothers
  · -- Nobody could call the registry under the key before the step, so the step does not either.
    rw [checksSinceFailure_concat_of_silent]
    · refine h key fun id hworking hkey => ?_
      by_cases hid : id = l.stream
      · subst hid
        exact hmoves ⟨hworking, hlast.facts.nodeKey.trans hkey⟩
      · exact hothers id hid hworking hkey
    · intro call hcall hkey
      have hcalls : l.event.registryCall l.nodeKey l.now ≠ none := Option.ne_none_iff_exists'.mpr ⟨call, hcall⟩
      exact hmoves ⟨hlast.facts.stream.working_of_registryCall hcalls,
        (Label.nodeKey_of_registryCall hcall).symm.trans hkey⟩

/-- The counter is zero at a return without another active handler, if the keys are accounted. -/
theorem Accounted.unhealthyAtReturn (h : Accounted before m) (hrun : Run Manager.Step newManager before m)
    (hlast : Manager.Step m l m') : UnhealthyAtReturn l m' := by
  intro hevent halone
  obtain ⟨hregistered, hidle⟩ := hlast.of_return hevent
  refine (zero_after_step_iff hrun hlast hregistered).mpr ?_
  rw [checksSinceFailure_concat_of_silent _ (Label.silent_of_return hevent)]
  refine h l.nodeKey fun id hworking => ?_
  by_cases hid : id = l.stream
  · rw [hid, hidle] at hworking
    cases hworking
  · have hactive := HandlerPc.active_of_working hworking
    rw [← hlast.facts.others id hid] at hactive ⊢
    exact halone id hid hactive

/-- The multiplexer of a stream returns. -/
def Manager.returnLabel (m : Manager) (id : ℕ) : Label := ⟨id, .multiplexerReturns, (m.streams id).nodeKey, 0⟩

/-- A multiplexer that is due to return can do so, and is not active any more. -/
theorem Manager.exists_return {id : ℕ} {result : Option GoError} (h : (m.streams id).handler = .returning result) :
    ∃ u, Manager.Step m (m.returnLabel id) u ∧ (u.streams id).handler.active = false := by
  have hstep : (m.streams id).step .multiplexerReturns =
      some { m.streams id with handler := .closingErr result } := by
    unfold Stream.step
    rw [h]
  refine ⟨⟨Function.update m.streams id { m.streams id with handler := .closingErr result }, m.registry⟩, ?_, ?_⟩
  · change Manager.step m (m.returnLabel id) = some _
    unfold Manager.step Manager.returnLabel
    rw [if_pos rfl, hstep]
    rfl
  · change (Function.update m.streams id _ id).handler.active = false
    rw [Function.update_self]
    rfl

/-- Some streams have returned and the others are as they were. -/
structure Manager.Returned (ids : List ℕ) (m u : Manager) : Prop where
  streams : ∀ id, u.streams id = m.streams id ∨ id ∈ ids ∧ (u.streams id).handler.active = false
  listed : ∀ id ∈ ids, ∀ result, (u.streams id).handler ≠ .returning result

/-- The multiplexer of a stream can return if it is due to. -/
theorem exists_run_return (id : ℕ) (m : Manager) :
    ∃ later u, Run Manager.Step m later u ∧ (∀ l ∈ later, l.event = .multiplexerReturns) ∧ m.Returned [id] u := by
  by_cases hdue : ∃ result, (m.streams id).handler = .returning result
  · obtain ⟨result, hreturning⟩ := hdue
    obtain ⟨u, hstep, hinactive⟩ := Manager.exists_return hreturning
    refine ⟨[m.returnLabel id], u, Run.single hstep, List.forall_mem_singleton.mpr rfl, fun other => ?_, ?_⟩
    · by_cases hother : other = id
      · exact Or.inr ⟨List.mem_singleton.mpr hother, hother ▸ hinactive⟩
      · exact Or.inl (hstep.facts.others other hother)
    · exact List.forall_mem_singleton.mpr (HandlerPc.ne_returning hinactive)
  · push Not at hdue
    exact ⟨[], m, Run.nil, List.forall_mem_nil _, fun _ => Or.inl rfl, List.forall_mem_singleton.mpr hdue⟩

/-- The multiplexers of some streams that are due to return can all do so, one after the other. -/
theorem exists_run_returns (ids : List ℕ) (m : Manager) :
    ∃ later u, Run Manager.Step m later u ∧ (∀ l ∈ later, l.event = .multiplexerReturns) ∧ m.Returned ids u := by
  induction ids generalizing m with
  | nil => exact ⟨[], m, Run.nil, List.forall_mem_nil _, fun _ => Or.inl rfl, List.forall_mem_nil _⟩
  | cons first rest ih =>
    obtain ⟨now, m', hnow, hreturns, hfirst⟩ := exists_run_return first m
    obtain ⟨later, u, hlater, hreturns', hrest⟩ := ih m'
    refine ⟨now ++ later, u, hnow.append hlater, List.forall_mem_append.mpr ⟨hreturns, hreturns'⟩, fun id => ?_, ?_⟩
    · rcases hrest.streams id with hsame | ⟨hmem, hinactive⟩
      · rw [hsame]
        refine (hfirst.streams id).imp_right (And.imp_left fun hmem => ?_)
        exact List.mem_cons.mpr (Or.inl (List.mem_singleton.mp hmem))
      · exact Or.inr ⟨List.mem_cons_of_mem _ hmem, hinactive⟩
    · refine List.forall_mem_cons.mpr ⟨?_, hrest.listed⟩
      rcases hrest.streams first with hsame | ⟨-, hinactive⟩
      · rw [hsame]
        exact hfirst.listed first List.mem_cons_self
      · exact HandlerPc.ne_returning hinactive

/-- Steps without a call under a key leave its count alone. -/
theorem checksSinceFailure_append_of_silent {key : String} (labels : List Label) {later : List Label}
    (h : ∀ l ∈ later, ∀ call, l.registryCall = some call → call.nodeKey ≠ key) :
    checksSinceFailure key (labels ++ later) = checksSinceFailure key labels := by
  induction later using List.reverseRecOn with
  | nil => rw [List.append_nil]
  | append_singleton later l ih =>
    rw [List.forall_mem_append] at h
    rw [← List.append_assoc, checksSinceFailure_concat_of_silent _ (h.2 l List.mem_cons_self), ih h.1]

/-- A stream that has not moved is not active. -/
theorem run_inactive (hrun : Run Manager.Step newManager labels m) {id : ℕ} (h : ∀ l ∈ labels, l.stream ≠ id) :
    (m.streams id).handler.active = false := by
  have hnone : eventsOf id labels = [] := List.filterMap_eq_nil_iff.mpr fun l hmem => if_neg (h l hmem)
  rw [run_stream_eq hrun hnone]
  rfl

/-- After a shutdown message taken by the last handler that could call the registry under its key, the
handlers that wait for their return can return one after the other, the one of the message last. -/
theorem exists_last_return (hrun : Run Manager.Step newManager before m) (hlast : Manager.Step m l m')
    (hdown : l.event.TakesShutdown) (hworker : m.LastWorker l.stream l.nodeKey) :
    ∃ later u l' u', Run Manager.Step m' later u ∧ (∀ x ∈ later, x.event = .multiplexerReturns) ∧
      Manager.Step u l' u' ∧ l'.event = .multiplexerReturns ∧ l'.nodeKey = l.nodeKey ∧
      u'.Alone l'.stream l'.nodeKey := by
  obtain ⟨hreturning, hkey⟩ := hlast.facts.stream.of_takesShutdown hdown
  have hkey' := hkey.trans hlast.facts.nodeKey.symm
  obtain ⟨later, u, hlater, hreturns, hreturned⟩ :=
    exists_run_returns ((before.map Label.stream).filter (· ≠ l.stream)) m'
  have hself : u.streams l.stream = m'.streams l.stream := by
    refine (hreturned.streams l.stream).resolve_right fun ⟨hmem, _⟩ => ?_
    exact absurd rfl (of_decide_eq_true (List.mem_filter.mp hmem).2)
  obtain ⟨u', hreturn, -⟩ := Manager.exists_return (hself ▸ hreturning)
  refine ⟨later, u, _, u', hlater, hreturns, hreturn, rfl, (congrArg Stream.nodeKey hself).trans hkey', ?_⟩
  intro other hother hactive hsame
  rw [hreturn.facts.others other hother] at hactive hsame
  rcases hreturned.streams other with hstays | ⟨-, hleft⟩
  · have hbefore : u.streams other = m.streams other := hstays.trans (hlast.facts.others other hother)
    rcases HandlerPc.working_or_returning hactive with hworking | ⟨result, hwaits⟩
    · rw [hbefore] at hworking hsame
      exact hworker other hother hworking (hsame.trans ((congrArg Stream.nodeKey hself).trans hkey'))
    · -- A handler that waits for its return has moved before, so its multiplexer is one of those that return.
      have hmoved : other ∈ before.map Label.stream := by
        by_contra hnot
        rw [hbefore, run_inactive hrun fun x hx hid => hnot (List.mem_map.mpr ⟨x, hx, hid⟩)] at hactive
        cases hactive
      exact hreturned.listed other (List.mem_filter.mpr ⟨hmoved, decide_eq_true hother⟩) result hwaits
  · rw [hleft] at hactive
    cases hactive

/-- Along every interleaving in which a shutdown message comes with no health checks under its node key
since the last failure, whenever no other handler can still call the registry under that key, the counter
is zero at every return without another active handler; and each shutdown message that breaks the
condition can be followed by such a return with another counter. -/
theorem unhealthy_after_return (labels : List Label) :
    (EveryStep Manager.Step newManager (fun before m l _ => ShutsDownUncounted before m l) labels →
      EveryStep Manager.Step newManager (fun _ _ l m' => UnhealthyAtReturn l m') labels) ∧
    ∀ before m l m', before ++ [l] <+: labels → Run Manager.Step newManager before m → Manager.Step m l m' →
      ¬ ShutsDownUncounted before m l →
      ∃ later u l' u', Run Manager.Step m' later u ∧ Manager.Step u l' u' ∧ ¬ UnhealthyAtReturn l' u' := by
  refine ⟨fun h before m l m' hinitial hrun hlast => ?_, fun before m l m' _ hrun hlast hnot => ?_⟩
  · have haccounted : Accounted before m :=
      h.invariant (fun _ _ => dvd_zero _) (fun _ _ _ _ _ hstep hbefore => hbefore.step hstep) hrun
        ((List.prefix_append _ _).trans hinitial)
    exact haccounted.unhealthyAtReturn hrun hlast
  · unfold ShutsDownUncounted at hnot
    push Not at hnot
    obtain ⟨hdown, hworker, hchecks⟩ := hnot
    obtain ⟨later, u, l', u', hlater, hreturns, hreturn, hevent, hkey, halone⟩ :=
      exists_last_return hrun hlast hdown hworker
    refine ⟨later, u, l', u', hlater, hreturn, fun hzero => hchecks ?_⟩
    have hchecks' := (zero_after_step_iff ((hrun.snoc hlast).append hlater) hreturn
      (hreturn.of_return hevent).1).mp (hzero hevent halone)
    rw [checksSinceFailure_concat_of_silent _ (Label.silent_of_return hevent),
      checksSinceFailure_append_of_silent _ (fun x hx => Label.silent_of_return (hreturns x hx)),
      checksSinceFailure_concat_of_silent _ (Label.silent_of_shutdown hdown), hkey] at hchecks'
    exact hchecks'

/-- A stream is alone if no other one has moved. -/
theorem alone_of_run (hrun : Run Manager.Step newManager labels m) {id : ℕ}
    (h : ∀ l ∈ labels, l.stream = id) (key : String) : m.Alone id key := by
  intro other hother hactive
  rw [run_inactive hrun fun l hl hmoved => hother (hmoved.symm.trans (h l hl))] at hactive
  cases hactive

/-- The remote address of a node's connection. -/
def sampleKey : String := "192.168.0.100:41000"

/-- A stream over that connection up to its first round. -/
def startLabels (id : ℕ) : List Label :=
  [⟨id, .setup (.tcp sampleKey) (.ok "") (.ok ""), "", 0⟩, ⟨id, .registerNode, sampleKey, 0⟩,
    ⟨id, .spawnListener, sampleKey, 0⟩]

/-- A round of the stream with a message. -/
def messageLabels (id : ℕ) (status : ServiceStatus) : List Label :=
  [⟨id, .recv (.message status), sampleKey, 1⟩, ⟨id, .sendMsg, sampleKey, 1⟩,
    ⟨id, .takeMsg (some status), sampleKey, 1⟩]

/-- The report of a health check. -/
def checkLabel (id : ℕ) : Label := ⟨id, .reportNewHealthCheck, sampleKey, 1⟩

/-- A node reports one health check and then announces its shutdown, which the multiplexer takes. -/
def shutdownLabels : List Label :=
  startLabels 0 ++ messageLabels 0 serving ++ [checkLabel 0] ++ messageLabels 0 shuttingDown

/-- The multiplexer returns on the shutdown message and leaves the node with a positive counter. -/
theorem healthy_after_shutdown :
    ∃ m m', Run Manager.Step newManager shutdownLabels m ∧
      Manager.Step m ⟨0, .multiplexerReturns, sampleKey, 1⟩ m' ∧ m'.Alone 0 sampleKey ∧
      m'.registry.continuousHealthChecks sampleKey = some 1 := by
  have hrun : Run Manager.Step newManager shutdownLabels _ := run_of_replay shutdownLabels rfl
  refine ⟨_, _, hrun, rfl, ?_, rfl⟩
  refine alone_of_run (run_of_replay (shutdownLabels ++ [⟨0, .multiplexerReturns, sampleKey, 1⟩]) rfl)
    ?_ sampleKey
  simp [shutdownLabels, startLabels, messageLabels, checkLabel]

/-- The health checks that one stream reported under a key since the last failure under it. -/
def accumulated (id : ℕ) (key : String) (labels : List Label) : ℕ :=
  (sinceFailure key labels).countP fun l => decide (l.stream = id) && l.isCheck key

/-- A stream is in its loop and has reported health checks since the last failure under its key. -/
def Accumulating (before : List Label) (m : Manager) (id : ℕ) : Prop :=
  (m.streams id).handler.phase = .looping ∧ 0 < accumulated id (m.streams id).nodeKey before

/-- A reported failure keeps the counter under a known key exactly when it is reported under another
key, or the counter is zero already. -/
theorem failure_keeps_counter_iff (hrun : Run Manager.Step newManager before m)
    (hlast : Manager.Step m l m') (hfailure : l.event = .reportNodeFailure) {key : String}
    (hknown : m.registry.registry key ≠ none) :
    m'.registry.continuousHealthChecks key = m.registry.continuousHealthChecks key ↔
      key ≠ l.nodeKey ∨ 2 ^ 64 ∣ checksSinceFailure l.nodeKey before := by
  have hcall := Label.registryCall_of_failure hfailure
  rw [run_continuousHealthChecks hrun hknown,
    run_continuousHealthChecks (hrun.snoc hlast) (hlast.registry_ne_none hknown), Option.some.injEq]
  by_cases hkey : key = l.nodeKey
  · subst hkey
    rw [checksSinceFailure_concat, if_pos hcall, or_iff_right (not_not.mpr rfl), eq_comm,
      ← ofNat_eq_zero_iff]
    rfl
  · refine iff_of_true ?_ (Or.inl hkey)
    rw [checksSinceFailure_concat_of_silent]
    intro call hcall'
    obtain rfl : _ = call := Option.some.inj (hcall.symm.trans hcall')
    exact Ne.symm hkey

/-- Along every history, a reported failure leaves the counter of every other stream that is still in
its loop and has accumulated health checks, exactly when no such stream has the node key of the
failing one, up to the wrap-around. -/
theorem streams_isolated_iff (labels : List Label) :
    EveryStep Manager.Step newManager (fun before m l m' =>
        l.event = .reportNodeFailure → ∀ id, id ≠ l.stream → Accumulating before m id →
          m'.registry.continuousHealthChecks (m.streams id).nodeKey =
            m.registry.continuousHealthChecks (m.streams id).nodeKey) labels ↔
      EveryStep Manager.Step newManager (fun before m l _ =>
        l.event = .reportNodeFailure → ∀ id, id ≠ l.stream → Accumulating before m id →
          (m.streams id).nodeKey ≠ l.nodeKey ∨ 2 ^ 64 ∣ checksSinceFailure l.nodeKey before) labels := by
  refine everyStep_congr fun before m l m' hrun hlast => imp_congr_right fun hfailure => ?_
  refine forall₃_congr fun id _ haccumulating => ?_
  have hknown := run_known hrun id (HandlerPc.registered_of_looping haccumulating.1)
  exact failure_keeps_counter_iff hrun hlast hfailure hknown

/-- Two streams over one connection: the first reports a health check, the second times out. -/
def sharedKeyLabels : List Label :=
  startLabels 0 ++ messageLabels 0 serving ++ [checkLabel 0] ++ startLabels 1 ++
    [⟨1, .timeout, sampleKey, 2⟩]

/-- The failure of the second stream resets what the first one accumulated. -/
theorem failure_resets_other_stream :
    ∃ m m', Run Manager.Step newManager sharedKeyLabels m ∧
      Manager.Step m ⟨1, .reportNodeFailure, sampleKey, 2⟩ m' ∧ Accumulating sharedKeyLabels m 0 ∧
      m.registry.continuousHealthChecks (m.streams 0).nodeKey = some 1 ∧
      m'.registry.continuousHealthChecks (m.streams 0).nodeKey = some 0 := by
  have hrun : Run Manager.Step newManager sharedKeyLabels _ := run_of_replay sharedKeyLabels rfl
  refine ⟨_, _, hrun, rfl, ⟨rfl, ?_⟩, rfl, rfl⟩
  change 0 < accumulated 0 sampleKey sharedKeyLabels
  decide +kernel

/-- A handler obtains its node key in its setup and keeps it. -/
theorem Stream.Step.nodeKey_or_setup {s t : Stream} {e : Event} (h : Stream.Step s e t) {key : String}
    (hkey : t.nodeKey = key ∨ t.handler = .setup) : s.nodeKey = key ∨ s.handler = .setup := by
  cases h.cases with
  | setupDone hhandler | setupFailed hhandler => exact Or.inr hhandler
  | recv | sendLast | sendErr | panicLast | panicErr | sendMsg | panicMsg => exact hkey
  | registerNode | spawnListener | timeout | reportNewHealthCheck | reportNodeFailure | multiplexerReturns
  | closeErrChan | closeMsgChan => exact Or.inl (hkey.resolve_right nofun)
  | @takeMsg msg chan hhandler hreceive => exact Or.inl (hkey.resolve_right (afterMsg_ne_setup msg))
  | @takeErr err chan hhandler hreceive => exact Or.inl (hkey.resolve_right (afterErr_ne_setup err))

/-- A step reports a health check under a key by the event of that name, if its stream has the key. -/
theorem Label.isCheck_eq {key : String} (h : l.event = .reportNewHealthCheck → l.nodeKey = key) :
    l.isCheck key = l.event.isHealthCheck := by
  unfold Label.isCheck Label.registryCall
  cases hevent : l.event with
  | reportNewHealthCheck => simp [h hevent, Event.registryCall, Event.isHealthCheck]
  | _ => simp [Event.registryCall, Event.isHealthCheck]

/-- Only the health checks of a stream move the counter under its key, if it reports no failure and
no other stream calls the registry under that key. -/
theorem run_counter_of_alone (hknown : m.Known) (hrun : Run Manager.Step m labels m') {id : ℕ}
    {key : String} (halone : ∀ l ∈ labels, l.stream ≠ id → ∀ call, l.registryCall = some call →
      call.nodeKey ≠ key) (hfailure : .reportNodeFailure ∉ eventsOf id labels)
    (hkey : (m'.streams id).nodeKey = key ∨ (m'.streams id).handler = .setup) :
    m'.registry.counter key =
      m.registry.counter key + UInt64.ofNat (healthChecks (eventsOf id labels)) := by
  -- The key is unknown until the setup, so the induction carries the alternative that the handler
  -- is still in its setup; a handler in its setup reports no health check.
  induction hrun with
  | nil => exact (UInt64.add_zero _).symm
  | @snoc labels m₁ m₂ l hrun hlast ih =>
    rw [List.forall_mem_append] at halone
    rw [eventsOf_concat] at hfailure
    have hlabel := halone.2 l List.mem_cons_self
    have hfailure' : .reportNodeFailure ∉ eventsOf id labels := fun h => hfailure (List.mem_append_left _ h)
    rw [hlast.counter (hknown.run hrun), eventsOf_concat]
    by_cases hid : l.stream = id
    · subst hid
      have hkey' := hlast.facts.stream.nodeKey_or_setup hkey
      have hcheck : l.isCheck key = l.event.isHealthCheck := by
        refine Label.isCheck_eq fun hevent => ?_
        have hstream := hlast.facts.stream
        rw [hevent] at hstream
        rw [hlast.facts.nodeKey]
        refine hkey'.resolve_right fun hsetup => ?_
        rw [hstream.of_reportNewHealthCheck] at hsetup
        cases hsetup
      have hcall : l.registryCall ≠ some (.reportNodeFailure key) := by
        intro hcall
        rw [if_pos rfl, (Label.event_of_failure hcall).1] at hfailure
        exact hfailure (List.mem_append_right _ List.mem_cons_self)
      rw [if_neg hcall, hcheck, if_pos rfl, healthChecks_concat, UInt64.ofNat_add, ← UInt64.add_assoc,
        ← ih halone.1 hfailure' hkey']
      split <;> rfl
    · rw [if_neg hid, List.append_nil]
      rw [hlast.facts.others id (Ne.symm hid)] at hkey
      obtain ⟨hcall, hcheck⟩ := Label.silent_of_ne (hlabel hid)
      rw [if_neg hcall, hcheck, if_neg Bool.false_ne_true, UInt64.add_zero]
      exact ih halone.1 hfailure' hkey

/-- The multiplexer waits and no message is on its way to it. -/
structure Stream.Idle (s : Stream) : Prop where
  selecting : s.handler = .selecting
  buffered : s.msgChan.buf = []
  pending : s.listener.pending = []

/-- The longest suffix of `Serving` messages. -/
def servingSuffix (msgs : List ServiceStatus) : List ServiceStatus := msgs.rtakeWhile (· = serving)

/-- The messages before that suffix. -/
def beforeSuffix (msgs : List ServiceStatus) : List ServiceStatus := msgs.rdropWhile (· = serving)

/-- The `Serving` messages are those of the suffix and those before it. -/
theorem count_serving (msgs : List ServiceStatus) :
    msgs.count serving = (beforeSuffix msgs).count serving + (servingSuffix msgs).length := by
  have hall : ∀ status ∈ servingSuffix msgs, serving = status := by
    intro status hmem
    have hserving := List.mem_rtakeWhile_imp (p := fun status => decide (status = serving)) hmem
    exact (of_decide_eq_true hserving).symm
  rw [← List.count_eq_length.mpr hall, ← List.count_append]
  congr 1
  exact List.rdropWhile_append_rtakeWhile.symm

/-- The listener forwards every message. -/
theorem forwarded_messages (msgs : List ServiceStatus) :
    forwarded (msgs.map .message) = msgs.map some := by
  induction msgs with
  | nil => rfl
  | cons status rest ih =>
    rw [List.map_cons, forwarded_cons, if_neg (by nofun), ih]
    rfl

/-- Of `Serving` and `NotServing` messages, the multiplexer counts the former. -/
theorem counted_messages {msgs : List ServiceStatus}
    (h : ∀ status ∈ msgs, status = serving ∨ status = notServing) :
    counted (msgs.map some) = msgs.count serving := by
  induction msgs with
  | nil => rfl
  | cons status rest ih =>
    rw [List.forall_mem_cons] at h
    rw [List.map_cons, counted_cons, ih h.2, List.count_cons]
    rcases h.1 with rfl | rfl
    · exact Nat.add_comm _ _
    · exact Nat.zero_add _

/-- An idle stream that received only `Serving` and `NotServing` messages has reported a health check
for each of the former. -/
theorem run_healthChecks_of_idle {events : List Event} {s : Stream} {msgs : List ServiceStatus}
    (hrun : Run Stream.Step newStream events s) (hidle : s.Idle)
    (hstatus : ∀ status ∈ msgs, status = serving ∨ status = notServing)
    (hreceived : received events = msgs.map .message) : healthChecks events = msgs.count serving := by
  have hlooping : s.handler.phase ≠ .left := by
    rw [hidle.selecting]
    nofun
  have hqueue := (run_flow hrun).queue (run_not_panicked hrun hlooping)
  rw [hidle.buffered, hidle.pending, List.append_nil, List.append_nil, hreceived, forwarded_messages] at hqueue
  have hchecks := (run_counting hrun).checks
  rw [hidle.selecting, hqueue, counted_messages hstatus] at hchecks
  exact hchecks

/-- When a stream has handled all its messages, with statuses `Serving` and `NotServing`, and no other
stream called the registry under its key, the counter is the length of the last run of `Serving`
messages exactly when no `Serving` message precedes that run and the node had no health checks
before, up to the wrap-around. -/
theorem counter_eq_servingSuffix_iff {history : List Label}
    (hreach : Run Manager.Step newManager history m) {id : ℕ} (hnew : m.streams id = newStream)
    (hrun : Run Manager.Step m labels m') {msgs : List ServiceStatus}
    (hstatus : ∀ status ∈ msgs, status = serving ∨ status = notServing)
    (hreceived : received (eventsOf id labels) = msgs.map .message) (hidle : (m'.streams id).Idle)
    (halone : ∀ l ∈ labels, l.stream ≠ id → ∀ call, l.registryCall = some call →
      call.nodeKey ≠ (m'.streams id).nodeKey) :
    ∃ checks, m'.registry.continuousHealthChecks (m'.streams id).nodeKey = some checks ∧
      (checks.toNat = (servingSuffix msgs).length ↔ (servingSuffix msgs).length < 2 ^ 64 ∧
        2 ^ 64 ∣ checksSinceFailure (m'.streams id).nodeKey history + (beforeSuffix msgs).count serving) := by
  have hstream := run_stream hrun id
  rw [hnew] at hstream
  have hregistered : (m'.streams id).handler.registered = true := by
    rw [hidle.selecting]
    rfl
  have hfailure : .reportNodeFailure ∉ eventsOf id labels := by
    intro hmem
    obtain ⟨err, hresult⟩ := run_result_of_failure hstream hmem
    rw [hidle.selecting] at hresult
    cases hresult
  have hcounter := run_counter_of_alone (run_known hreach) hrun halone hfailure (Or.inl rfl)
  rw [run_counter hreach, run_healthChecks_of_idle hstream hidle hstatus hreceived, ← UInt64.ofNat_add,
    count_serving] at hcounter
  refine ⟨_, NodeRegistry.continuousHealthChecks_of_ne_none ((run_known hreach).run hrun id hregistered), ?_⟩
  rw [hcounter, UInt64.toNat_ofNat']
  omega

/-- A node that comes up: it does not serve at first and then serves. -/
def recoveringLabels : List Label :=
  startLabels 0 ++ messageLabels 0 notServing ++ messageLabels 0 serving ++ [checkLabel 0]

/-- The counter of a node that serves from some point on is right. -/
theorem recovering_counter :
    ∃ m checks, Run Manager.Step newManager recoveringLabels m ∧
      received (eventsOf 0 recoveringLabels) = [notServing, serving].map .message ∧
      m.registry.continuousHealthChecks sampleKey = some checks ∧
      checks.toNat = (servingSuffix [notServing, serving]).length := by
  have hrun : Run Manager.Step newManager recoveringLabels _ := run_of_replay recoveringLabels rfl
  have hreceived : received (eventsOf 0 recoveringLabels) = [notServing, serving].map .message := rfl
  obtain ⟨checks, hchecks, hiff⟩ := counter_eq_servingSuffix_iff Run.nil rfl hrun
    (by simp) hreceived ⟨rfl, rfl, rfl⟩
    (by simp [recoveringLabels, startLabels, messageLabels, checkLabel])
  exact ⟨_, checks, hrun, hreceived, hchecks, hiff.mpr (by decide +kernel)⟩

/-- A node that stops serving. -/
def failingLabels : List Label :=
  startLabels 0 ++ messageLabels 0 serving ++ [checkLabel 0] ++ messageLabels 0 notServing

/-- A `NotServing` message does not break the run of health checks. -/
theorem notServing_keeps_counter :
    ∃ m, Run Manager.Step newManager failingLabels m ∧
      received (eventsOf 0 failingLabels) = [serving, notServing].map .message ∧ (m.streams 0).Idle ∧
      (∀ l ∈ failingLabels, l.stream = 0) ∧ m.registry.continuousHealthChecks sampleKey = some 1 ∧
      (servingSuffix [serving, notServing]).length = 0 := by
  have hrun : Run Manager.Step newManager failingLabels _ := run_of_replay failingLabels rfl
  refine ⟨_, hrun, rfl, ⟨rfl, rfl, rfl⟩, ?_, rfl, by decide⟩
  simp [failingLabels, startLabels, messageLabels, checkLabel]

end GaleLB.LbNetwork
