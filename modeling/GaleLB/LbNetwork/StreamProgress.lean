import GaleLB.Common.Potential
import GaleLB.LbNetwork.MessageFlow

/-!
# Health streams do not hang after their setup

Every received result gives the two goroutines a bounded amount of work: forward it, take
it, report it, and wait again. The number of events of a run is therefore bounded by the
number of results received in it. When nothing more is received, the work runs out only
after the handler has returned. The listener is never left at a send: as long as the
handler is in its loop it makes room, and afterwards the channels are closed.

The setup is not covered. The handler waits there for the hardware address of its peer, and
the lookup by an ARP call has no deadline: like a receive, its answer is an event that need
not come, and a handler whose lookup is not answered stays where it is.
-/

namespace GaleLB.LbNetwork

open Channel Transition

/-- The events that a handler can still cause on its own. -/
def HandlerPc.potential : HandlerPc → ℕ
  | .setup => 8
  | .registering => 7
  | .spawning | .reportingCheck => 6
  | .selecting => 5
  | .reportingFailure _ => 4
  | .returning _ => 3
  | .closingErr _ => 2
  | .closingMsg _ => 1
  | .returned _ => 0

/-- The events that a listener can still cause before its next receive. -/
def ListenerPc.potential : ListenerPc → ℕ
  | .sendingErr _ => 5
  | .sendingMsg _ => 3
  | .sendingLast _ => 2
  | _ => 0

/-- The events that a stream can still cause; a buffered message is taken and reported, a buffered
error is taken. -/
def Stream.potential (s : Stream) : ℕ :=
  s.handler.potential + s.listener.potential + 2 * s.msgChan.buf.length + s.errChan.buf.length

/-- The event is an action of the two goroutines, and not the answer to the lookup of the setup or to a
receive. -/
def Event.own : Event → Bool
  | .setup _ _ _ | .recv _ => false
  | _ => true

/-- A receive gives a stream new work. -/
def Event.refill : Event → ℕ
  | .recv _ => 6
  | _ => 0

/-- The work after a receive. -/
theorem potential_afterRecv (result : RecvResult) : (afterRecv result).potential ≤ 5 := by
  cases result with
  | message status => exact Nat.le_of_ble_eq_true rfl
  | error err =>
    simp only [afterRecv]
    split <;> exact Nat.le_of_ble_eq_true rfl

/-- The work after a message. -/
theorem potential_afterMsg (msg : HealthStatus) : (afterMsg msg).potential ≤ 6 := by
  unfold afterMsg
  split
  · exact Nat.le_of_ble_eq_true rfl
  · split <;> exact Nat.le_of_ble_eq_true rfl

/-- The work after an error. -/
theorem potential_afterErr (err : GoError) : (afterErr err).potential ≤ 5 := by
  unfold afterErr
  split <;> exact Nat.le_of_ble_eq_true rfl

/-- Every event is paid for. -/
theorem Stream.Step.potential {s t : Stream} {e : Event} (h : Stream.Step s e t) :
    t.potential + 1 ≤ s.potential + e.refill := by
  unfold Stream.potential
  cases h.cases with
  | setupDone hhandler | setupFailed hhandler | registerNode hhandler | timeout hhandler
  | reportNewHealthCheck hhandler | reportNodeFailure hhandler | multiplexerReturns hhandler
  | closeErrChan hhandler | closeMsgChan hhandler =>
    simp only [hhandler, HandlerPc.potential, Chan.close]
    omega
  | spawnListener hhandler =>
    simp only [hhandler, HandlerPc.potential, ListenerPc.potential]
    omega
  | @recv result hlistener hallowed =>
    have hwork := potential_afterRecv result
    have hidle : s.listener.potential = 0 := by rw [hlistener]; rfl
    have hrefill : (Event.recv result).refill = 6 := rfl
    dsimp only
    omega
  | sendLast hlistener hsend | sendErr hlistener hsend =>
    rw [((Chan.send_eq_sent_iff _ _ _).mp hsend).2.2.1, List.length_append, List.length_singleton]
    simp only [hlistener, ListenerPc.potential]
    omega
  | sendMsg hlistener hsend =>
    rw [((Chan.send_eq_sent_iff _ _ _).mp hsend).2.2.1, List.length_append, List.length_singleton]
    simp only [hlistener, ListenerPc.potential]
    omega
  | panicLast hlistener | panicErr hlistener | panicMsg hlistener =>
    simp only [hlistener, ListenerPc.potential]
    omega
  | @takeMsg msg chan hhandler hreceive =>
    have hwork := potential_afterMsg msg
    have hselecting : s.handler.potential = 5 := by rw [hhandler]; rfl
    rw [((Chan.receive_eq_some_iff _ _ _).mp hreceive).1, List.length_cons]
    dsimp only
    omega
  | @takeErr err chan hhandler hreceive =>
    have hwork := potential_afterErr err
    have hselecting : s.handler.potential = 5 := by rw [hhandler]; rfl
    rw [((Chan.receive_eq_some_iff _ _ _).mp hreceive).1, List.length_cons]
    dsimp only
    omega

/-- The steps of a stream are paid for. -/
theorem stream_pays : Pays Stream.Step (fun _ => True) Stream.potential Event.refill :=
  ⟨fun _ _ _ _ _ => trivial, fun _ _ _ _ h => h.potential⟩

/-- The refills of a run are its receives. -/
theorem sum_refill (events : List Event) : (events.map Event.refill).sum = 6 * (received events).length := by
  induction events with
  | nil => rfl
  | cons e rest ih =>
    rw [List.map_cons, List.sum_cons, ih]
    cases e with
    | recv result =>
      change 6 + 6 * (received rest).length = 6 * ((received rest).length + 1)
      omega
    | _ => exact Nat.zero_add _

/-- A returning handler has closed the error channel, and then the message channel. -/
structure Stream.Closing (s : Stream) : Prop where
  closingMsg : ∀ result, s.handler = .closingMsg result → s.errChan.closed = true
  returned : ∀ result, s.handler = .returned result → s.errChan.closed = true ∧ s.msgChan.closed = true

/-- A handler that is not about to return keeps the channels as they are. -/
theorem Stream.Closing.of_open {s : Stream} (h : s.handler.potential ≥ 2) : s.Closing := by
  constructor
  · intro result hhandler
    rw [hhandler] at h
    change 2 ≤ 1 at h
    omega
  · intro result hhandler
    rw [hhandler] at h
    change 2 ≤ 0 at h
    omega

/-- A step of the listener leaves the handler alone and closes nothing. -/
theorem Stream.Closing.of_listener {s t : Stream} (h : s.Closing) (hhandler : t.handler = s.handler)
    (herr : t.errChan.closed = s.errChan.closed) (hmsg : t.msgChan.closed = s.msgChan.closed) : t.Closing := by
  constructor
  · intro result hclosing
    rw [herr]
    exact h.closingMsg result (hhandler ▸ hclosing)
  · intro result hreturned
    rw [herr, hmsg]
    exact h.returned result (hhandler ▸ hreturned)

/-- Every step closes the channels in order. -/
theorem Stream.Closing.step {s t : Stream} {e : Event} (h : s.Closing) (hstep : Stream.Step s e t) :
    t.Closing := by
  cases hstep.cases with
  | setupDone | setupFailed | registerNode | spawnListener | timeout | reportNewHealthCheck
  | reportNodeFailure | multiplexerReturns => exact Stream.Closing.of_open (Nat.le_of_ble_eq_true rfl)
  | recv | panicLast | panicErr | panicMsg => exact h.of_listener rfl rfl rfl
  | sendLast _ hsend | sendErr _ hsend =>
    obtain ⟨hopen, -, -, hopen'⟩ := (Chan.send_eq_sent_iff _ _ _).mp hsend
    exact h.of_listener rfl (hopen'.trans hopen.symm) rfl
  | sendMsg _ hsend =>
    obtain ⟨hopen, -, -, hopen'⟩ := (Chan.send_eq_sent_iff _ _ _).mp hsend
    exact h.of_listener rfl rfl (hopen'.trans hopen.symm)
  | @takeMsg msg =>
    apply Stream.Closing.of_open
    change 2 ≤ (afterMsg msg).potential
    unfold afterMsg
    split
    · exact Nat.le_of_ble_eq_true rfl
    · split <;> exact Nat.le_of_ble_eq_true rfl
  | @takeErr err =>
    apply Stream.Closing.of_open
    change 2 ≤ (afterErr err).potential
    unfold afterErr
    split <;> exact Nat.le_of_ble_eq_true rfl
  | closeErrChan => exact ⟨fun _ _ => rfl, nofun⟩
  | closeMsgChan hhandler => exact ⟨nofun, fun _ _ => ⟨h.closingMsg _ hhandler, rfl⟩⟩

variable {events : List Event} {s : Stream}

/-- In every run the channels are closed in order. -/
theorem run_closing (hrun : Run Stream.Step newStream events s) : s.Closing := by
  induction hrun with
  | nil => exact ⟨nofun, nofun⟩
  | snoc _ hlast ih => exact ih.step hlast

/-- The handler has returned, and the listener is not at a send. -/
structure Stream.Over (s : Stream) : Prop where
  handler : ∃ result, s.handler = .returned result
  listener : s.listener.sendsErr = false ∧ s.listener.sendsMsg = false

/-- A stream that is over does nothing but receive. -/
theorem Stream.Over.stuck (h : s.Over) : Stuck Stream.Step (fun e => e.own = true) s := by
  intro e t hown hstep
  obtain ⟨result, hreturned⟩ := h.handler
  obtain ⟨herr, hmsg⟩ := h.listener
  cases hstep.cases with
  | recv => cases hown
  | sendLast hlistener | sendErr hlistener | panicLast hlistener | panicErr hlistener =>
    rw [hlistener] at herr
    cases herr
  | sendMsg hlistener | panicMsg hlistener =>
    rw [hlistener] at hmsg
    cases hmsg
  | setupDone hhandler | setupFailed hhandler | registerNode hhandler | spawnListener hhandler
  | takeMsg hhandler | takeErr hhandler | timeout hhandler | reportNewHealthCheck hhandler
  | reportNodeFailure hhandler | multiplexerReturns hhandler | closeErrChan hhandler | closeMsgChan hhandler =>
    rw [hreturned] at hhandler
    cases hhandler

/-- A stream whose setup has not returned does nothing else. -/
theorem Stream.Inv.stuck_of_setup (h : s.Inv) (hsetup : s.handler = .setup) :
    Stuck Stream.Step (fun e => e.own = true) s := by
  intro e t hown hstep
  have hlistener := h.starting (by rw [hsetup]; rfl)
  cases hstep.cases with
  | setupDone | setupFailed | recv => cases hown
  | sendLast hpc | sendErr hpc | panicLast hpc | panicErr hpc | sendMsg hpc | panicMsg hpc =>
    rw [hlistener] at hpc
    cases hpc
  | registerNode hpc | spawnListener hpc | takeMsg hpc | takeErr hpc | timeout hpc | reportNewHealthCheck hpc
  | reportNodeFailure hpc | multiplexerReturns hpc | closeErrChan hpc | closeMsgChan hpc =>
    rw [hsetup] at hpc
    cases hpc

/-- A handler that is set up and has not returned can go on by itself. -/
theorem Stream.exists_step_of_handler (hsetup : s.handler ≠ .setup) (h : ∀ result, s.handler ≠ .returned result) :
    ∃ e t, e.own = true ∧ Stream.Step s e t := by
  cases hhandler : s.handler with
  | setup => exact absurd hhandler hsetup
  | registering => exact ⟨_, _, rfl, (Stream.StepCase.registerNode hhandler).step⟩
  | spawning => exact ⟨_, _, rfl, (Stream.StepCase.spawnListener hhandler).step⟩
  | selecting => exact ⟨_, _, rfl, (Stream.StepCase.timeout hhandler).step⟩
  | reportingCheck => exact ⟨_, _, rfl, (Stream.StepCase.reportNewHealthCheck hhandler).step⟩
  | reportingFailure err => exact ⟨_, _, rfl, (Stream.StepCase.reportNodeFailure hhandler).step⟩
  | returning result => exact ⟨_, _, rfl, (Stream.StepCase.multiplexerReturns hhandler).step⟩
  | closingErr result => exact ⟨_, _, rfl, (Stream.StepCase.closeErrChan hhandler).step⟩
  | closingMsg result => exact ⟨_, _, rfl, (Stream.StepCase.closeMsgChan hhandler).step⟩
  | returned result => exact absurd hhandler (h result)

/-- A handler that is set up stays so. -/
theorem Stream.Step.handler_ne_setup {t : Stream} {e : Event} (h : Stream.Step s e t)
    (hsetup : s.handler ≠ .setup) : t.handler ≠ .setup := by
  cases h.cases with
  | recv | sendLast | sendErr | panicLast | panicErr | sendMsg | panicMsg => exact hsetup
  | @takeMsg msg => exact afterMsg_ne_setup msg
  | @takeErr err => exact afterErr_ne_setup err
  | _ => nofun

/-- A handler that is set up stays so throughout. -/
theorem run_handler_ne_setup {t : Stream} (hrun : Run Stream.Step s events t) (hsetup : s.handler ≠ .setup) :
    t.handler ≠ .setup := by
  induction hrun with
  | nil => exact hsetup
  | snoc _ hlast ih => exact hlast.handler_ne_setup ih

/-- A listener panics by an action of its own. -/
theorem Stream.Step.own_of_panicked {t : Stream} {e : Event} (h : Stream.Step s e t) (hinv : s.Inv)
    (hpanicked : t.listener = .panicked) : e.own = true := by
  cases h.cases with
  | @recv result => exact absurd hpanicked (ListenerPc.ne_of_sends (afterRecv_sends result)).2.2.2
  | setupDone hhandler | setupFailed hhandler =>
    have hlistener := hinv.starting (by rw [hhandler]; rfl)
    exact absurd (hlistener.symm.trans hpanicked) nofun
  | _ => rfl

/-- In every run, a stream that is set up and cannot go on by itself is over. -/
theorem run_over_of_stuck (hrun : Run Stream.Step newStream events s) (hsetup : s.handler ≠ .setup)
    (hstuck : Stuck Stream.Step (fun e => e.own = true) s) : s.Over := by
  have hreturned : ∃ result, s.handler = .returned result := by
    by_contra hrunning
    push Not at hrunning
    obtain ⟨e, t, hown, hstep⟩ := Stream.exists_step_of_handler hsetup hrunning
    exact hstuck e t hown hstep
  obtain ⟨result, hhandler⟩ := hreturned
  obtain ⟨herr, hmsg⟩ := (run_closing hrun).returned result hhandler
  have hidle : ¬ (s.listener.sendsErr = true ∨ s.listener.sendsMsg = true) := by
    intro hsends
    obtain ⟨e, hpanic⟩ := panics_of_closed hsends herr hmsg
    exact hstuck e _ (hpanic.own_of_panicked (run_inv hrun) rfl) hpanic
  rw [not_or, Bool.not_eq_true, Bool.not_eq_true] at hidle
  exact ⟨⟨result, hhandler⟩, hidle⟩

/-- In every run the number of events is bounded by the number of received results. The goroutines can do
nothing by themselves exactly when the handler has returned and the listener is not at a send, or when the
lookup of the setup has not been answered. Without another receive they do only a bounded number of events,
and once the setup has returned they always bring the stream to its end by themselves. -/
theorem stream_ends (hrun : Run Stream.Step newStream events s) :
    events.length ≤ 8 + 6 * (received events).length ∧
      (Stuck Stream.Step (fun e => e.own = true) s ↔ s.Over ∨ s.handler = .setup) ∧
      (∀ later t, Run Stream.Step s later t → received later = [] → later.length ≤ s.potential) ∧
      (s.handler ≠ .setup →
        ∃ later t, Run Stream.Step s later t ∧ (∀ e ∈ later, e.own = true) ∧ t.Over) := by
  refine ⟨?_, ⟨fun hstuck => ?_, ?_⟩, ?_, fun hsetup => ?_⟩
  · have hlength := stream_pays.length_le trivial hrun
    rw [sum_refill] at hlength
    have hnew : newStream.potential = 8 := rfl
    omega
  · by_cases hsetup : s.handler = .setup
    · exact Or.inr hsetup
    · exact Or.inl (run_over_of_stuck hrun hsetup hstuck)
  · rintro (hover | hsetup)
    · exact hover.stuck
    · exact (run_inv hrun).stuck_of_setup hsetup
  · intro later t hlater hsilent
    have hlength := stream_pays.length_le trivial hlater
    rw [sum_refill, hsilent, List.length_nil] at hlength
    omega
  · have hpaid : ∀ e : Event, e.own = true → e.refill = 0 := by
      intro e hown
      cases e with
      | recv result => cases hown
      | _ => rfl
    obtain ⟨later, t, hlater, hown, hstuck⟩ := stream_pays.exists_stuck hpaid (s := s) trivial
    have hend := run_over_of_stuck (hrun.append hlater) (run_handler_ne_setup hlater hsetup) hstuck
    exact ⟨later, t, hlater, hown, hend⟩

/-- The stream of a silent node ends. -/
theorem silentNode_ends :
    ∃ s, Run Stream.Step newStream silentNodeEvents s ∧ s.Over ∧
      silentNodeEvents.length ≤ 8 + 6 * (received silentNodeEvents).length := by
  have hrun : ∃ s, Run Stream.Step newStream silentNodeEvents s ∧ s.Over :=
    ⟨_, run_of_replay silentNodeEvents rfl, ⟨_, rfl⟩, rfl, rfl⟩
  obtain ⟨s, hs, hover⟩ := hrun
  exact ⟨s, hs, hover, (stream_ends hs).1⟩

end GaleLB.LbNetwork
