import GaleLB.LbNetwork.HealthStream

/-!
# Sends on the channels of a health stream

The handler closes both channels when it returns, whatever the listener is doing. An exit
after an unrecoverable error is safe, because that error is the last thing the listener
sends. An exit after a shutdown message or after the timeout is safe only when the
listener has returned already; otherwise some continuation sends on a closed channel.
-/

namespace GaleLB.LbNetwork

open Channel Transition

/-- The stages of a handler: before the listener exists, in the select loop, and after it. -/
inductive Phase where
  | starting
  | looping
  | left
deriving DecidableEq, Repr

/-- The stage of a handler. -/
def HandlerPc.phase : HandlerPc → Phase
  | .setup | .registering | .spawning => .starting
  | .selecting | .reportingCheck => .looping
  | .reportingFailure _ | .returning _ | .closingErr _ | .closingMsg _ | .returned _ => .left

/-- The listener is at a send on the error channel. -/
def ListenerPc.sendsErr : ListenerPc → Bool
  | .sendingLast _ | .sendingErr _ => true
  | _ => false

/-- The listener is at a send on the message channel. -/
def ListenerPc.sendsMsg : ListenerPc → Bool
  | .sendingMsg _ => true
  | _ => false

/-- A send on a closed channel has been executed or is about to be. -/
def Stream.SendsOnClosed (s : Stream) : Prop :=
  s.listener = .panicked ∨ s.listener.sendsErr ∧ s.errChan.closed ∨ s.listener.sendsMsg ∧ s.msgChan.closed

/-- The events by which the handler gives up without an error of the listener. -/
def Event.GivesUp : Event → Prop
  | .takeMsg msg => getStatus msg = shuttingDown
  | .timeout => True
  | _ => False

/-- The handler gives up only after the listener has returned. -/
def GivesUpLate (s : Stream) (e : Event) : Prop :=
  e.GivesUp → s.listener = .returned

/-- A message ends the loop exactly when it announces the shutdown. -/
theorem afterMsg_phase (msg : HealthStatus) :
    (afterMsg msg).phase = if getStatus msg = shuttingDown then .left else .looping := by
  unfold afterMsg
  by_cases hnot : getStatus msg = notServing
  · rw [if_pos hnot, hnot]
    rfl
  · rw [if_neg hnot]
    split <;> rfl

/-- An error ends the loop exactly when it is unrecoverable. -/
theorem afterErr_phase (err : GoError) :
    (afterErr err).phase = if gRPCErrUnrecoverable err then .left else .looping := by
  unfold afterErr
  split <;> rfl

/-- A message does not take the handler back to its setup. -/
theorem afterMsg_ne_setup (msg : HealthStatus) : afterMsg msg ≠ .setup := by
  intro hsetup
  have hphase := afterMsg_phase msg
  rw [hsetup] at hphase
  split at hphase <;> cases hphase

/-- An error does not take the handler back to its setup. -/
theorem afterErr_ne_setup (err : GoError) : afterErr err ≠ .setup := by
  intro hsetup
  have hphase := afterErr_phase err
  rw [hsetup] at hphase
  split at hphase <;> cases hphase

/-- The loop ends with a shutdown message. -/
theorem afterMsg_left_iff (msg : HealthStatus) :
    (afterMsg msg).phase = .left ↔ getStatus msg = shuttingDown := by
  rw [afterMsg_phase]
  split <;> simp [*]

/-- The loop ends with an unrecoverable error. -/
theorem afterErr_left_iff (err : GoError) :
    (afterErr err).phase = .left ↔ gRPCErrUnrecoverable err = true := by
  rw [afterErr_phase]
  split <;> simp [*]

/-- What holds of a stream in every run. -/
structure Stream.Inv (s : Stream) : Prop where
  starting : s.handler.phase = .starting → s.listener = .notStarted
  looping : s.handler.phase = .looping → s.listener ≠ .notStarted
  opened : s.handler.phase ≠ .left → s.errChan.closed = false ∧ s.msgChan.closed = false
  recoverable : ∀ err, s.listener = .sendingErr err → gRPCErrUnrecoverable err = false
  lastErr : ∀ err ∈ s.errChan.buf, gRPCErrUnrecoverable err = true → s.listener = .returned

/-- A new stream satisfies the invariant. -/
theorem newStream_inv : newStream.Inv :=
  ⟨fun _ => rfl, nofun, fun _ => ⟨rfl, rfl⟩, nofun, nofun⟩

/-- The handler moves on within its stage or leaves, while the listener stays where it is. -/
theorem Stream.Inv.of_handler {s t : Stream} (h : s.Inv) (hlistener : t.listener = s.listener)
    (hphase : t.handler.phase = s.handler.phase ∨ t.handler.phase = .left)
    (hclosed : t.handler.phase ≠ .left →
      t.errChan.closed = s.errChan.closed ∧ t.msgChan.closed = s.msgChan.closed)
    (hbuf : t.errChan.buf ⊆ s.errChan.buf) : t.Inv := by
  have hsame : t.handler.phase ≠ .left → t.handler.phase = s.handler.phase := fun hleft =>
    hphase.resolve_right hleft
  constructor
  · intro hstarting
    rw [hlistener]
    exact h.starting (by rw [← hsame (by rw [hstarting]; nofun), hstarting])
  · intro hlooping
    rw [hlistener]
    exact h.looping (by rw [← hsame (by rw [hlooping]; nofun), hlooping])
  · intro hleft
    rw [(hclosed hleft).1, (hclosed hleft).2]
    exact h.opened (by rw [← hsame hleft]; exact hleft)
  · intro err herr
    exact h.recoverable err (hlistener ▸ herr)
  · intro err hmem herr
    rw [hlistener]
    exact h.lastErr err (hbuf hmem) herr

/-- The listener moves on, while the handler stays where it is. -/
theorem Stream.Inv.of_listener {s t : Stream} (h : s.Inv) (hhandler : t.handler = s.handler)
    (hstarted : s.listener ≠ .notStarted) (hstarted' : t.listener ≠ .notStarted)
    (hclosed : t.errChan.closed = s.errChan.closed ∧ t.msgChan.closed = s.msgChan.closed)
    (hrecoverable : ∀ err, t.listener = .sendingErr err → gRPCErrUnrecoverable err = false)
    (hlastErr : ∀ err ∈ t.errChan.buf, gRPCErrUnrecoverable err = true → t.listener = .returned) :
    t.Inv := by
  constructor
  · intro hstarting
    rw [hhandler] at hstarting
    exact absurd (h.starting hstarting) hstarted
  · exact fun _ => hstarted'
  · rw [hhandler, hclosed.1, hclosed.2]
    exact h.opened
  · exact hrecoverable
  · exact hlastErr

/-- While the listener runs, no buffered error is unrecoverable. -/
theorem Stream.Inv.buffered {s : Stream} (h : s.Inv) (hrunning : s.listener ≠ .returned) {P : Prop} :
    ∀ err ∈ s.errChan.buf, gRPCErrUnrecoverable err = true → P := by
  intro err hmem herr
  exact absurd (h.lastErr err hmem herr) hrunning

/-- After a received result the listener is at a send. -/
theorem afterRecv_sends (result : RecvResult) :
    (afterRecv result).sendsErr = true ∨ (afterRecv result).sendsMsg = true := by
  cases result with
  | message status => exact Or.inr rfl
  | error err =>
    left
    simp only [afterRecv]
    split <;> rfl

/-- A listener at a send is not in any other place. -/
theorem ListenerPc.ne_of_sends {pc : ListenerPc} (h : pc.sendsErr = true ∨ pc.sendsMsg = true) :
    pc ≠ .notStarted ∧ pc ≠ .receiving ∧ pc ≠ .returned ∧ pc ≠ .panicked := by
  refine ⟨?_, ?_, ?_, ?_⟩ <;>
  · intro hpc
    rw [hpc] at h
    rcases h with h | h <;> cases h

/-- The listener continues after recoverable errors only. -/
theorem afterRecv_recoverable (result : RecvResult) (err : GoError)
    (h : afterRecv result = .sendingErr err) : gRPCErrUnrecoverable err = false := by
  cases result with
  | message status => cases h
  | error err' =>
    simp only [afterRecv] at h
    by_cases hlast : gRPCErrUnrecoverable err' = true
    · rw [if_pos hlast] at h
      cases h
    · rw [if_neg hlast] at h
      cases h
      exact Bool.eq_false_iff.mpr hlast

/-- Every step keeps the invariant. -/
theorem Stream.Inv.step {s t : Stream} {e : Event} (h : s.Inv) (hstep : Stream.Step s e t) : t.Inv := by
  cases hstep.cases with
  | setupDone hhandler | registerNode hhandler | reportNewHealthCheck hhandler =>
    exact h.of_handler rfl (Or.inl (by rw [hhandler]; rfl)) (fun _ => ⟨rfl, rfl⟩) (List.Subset.refl _)
  | setupFailed | timeout | reportNodeFailure | multiplexerReturns =>
    exact h.of_handler rfl (Or.inr rfl) (fun _ => ⟨rfl, rfl⟩) (List.Subset.refl _)
  | closeErrChan | closeMsgChan =>
    exact h.of_handler rfl (Or.inr rfl) (fun hleft => absurd rfl hleft) (List.Subset.refl _)
  | spawnListener hhandler =>
    have hphase : s.handler.phase = .starting := by rw [hhandler]; rfl
    have hlistener := h.starting hphase
    have hopened := h.opened (by rw [hphase]; nofun)
    exact ⟨nofun, nofun, fun _ => hopened, nofun, h.buffered (by rw [hlistener]; nofun)⟩
  | recv hlistener hallowed =>
    exact h.of_listener rfl (by rw [hlistener]; nofun) (ListenerPc.ne_of_sends (afterRecv_sends _)).1 ⟨rfl, rfl⟩
      (afterRecv_recoverable _) (h.buffered (by rw [hlistener]; nofun))
  | sendLast hlistener hsend =>
    obtain ⟨hopen, -, hbuf, hopen'⟩ := (Chan.send_eq_sent_iff _ _ _).mp hsend
    exact h.of_listener rfl (by rw [hlistener]; nofun) nofun ⟨hopen'.trans hopen.symm, rfl⟩ nofun
      (fun _ _ _ => rfl)
  | @sendErr err chan hlistener hsend =>
    obtain ⟨hopen, -, hbuf, hopen'⟩ := (Chan.send_eq_sent_iff _ _ _).mp hsend
    refine h.of_listener rfl (by rw [hlistener]; nofun) nofun ⟨hopen'.trans hopen.symm, rfl⟩ nofun ?_
    intro err' hmem herr
    change err' ∈ chan.buf at hmem
    rw [hbuf, List.mem_append, List.mem_singleton] at hmem
    rcases hmem with hmem | rfl
    · exact h.buffered (by rw [hlistener]; nofun) err' hmem herr
    · rw [h.recoverable err' hlistener] at herr
      cases herr
  | panicLast hlistener | panicErr hlistener | panicMsg hlistener =>
    exact h.of_listener rfl (by rw [hlistener]; nofun) nofun ⟨rfl, rfl⟩ nofun
      (h.buffered (by rw [hlistener]; nofun))
  | sendMsg hlistener hsend =>
    obtain ⟨hopen, -, hbuf, hopen'⟩ := (Chan.send_eq_sent_iff _ _ _).mp hsend
    exact h.of_listener rfl (by rw [hlistener]; nofun) nofun ⟨rfl, hopen'.trans hopen.symm⟩ nofun
      (h.buffered (by rw [hlistener]; nofun))
  | @takeMsg msg chan hhandler hreceive =>
    obtain ⟨hbuf, hclosed⟩ := (Chan.receive_eq_some_iff _ _ _).mp hreceive
    refine h.of_handler rfl ?_ (fun _ => ⟨rfl, hclosed⟩) (List.Subset.refl _)
    rw [afterMsg_phase, hhandler]
    split
    · exact Or.inr rfl
    · exact Or.inl rfl
  | @takeErr err chan hhandler hreceive =>
    obtain ⟨hbuf, hclosed⟩ := (Chan.receive_eq_some_iff _ _ _).mp hreceive
    refine h.of_handler rfl ?_ (fun _ => ⟨hclosed, rfl⟩) (hbuf ▸ List.subset_cons_self err chan.buf)
    rw [afterErr_phase, hhandler]
    split
    · exact Or.inr rfl
    · exact Or.inl rfl

/-- The invariant holds in every reachable state. -/
theorem run_inv {events : List Event} {s : Stream} (hrun : Run Stream.Step newStream events s) : s.Inv := by
  induction hrun with
  | nil => exact newStream_inv
  | snoc _ hlast ih => exact ih.step hlast

/-- The listener has not panicked, and is not running once the handler has left its loop. -/
structure Stream.Quiet (s : Stream) : Prop where
  unpanicked : s.listener ≠ .panicked
  left : s.handler.phase = .left → s.listener = .notStarted ∨ s.listener = .returned

/-- While the listener runs, the handler of a quiet stream has not left its loop. -/
theorem Stream.Quiet.not_left {s : Stream} (h : s.Quiet) (hstarted : s.listener ≠ .notStarted)
    (hrunning : s.listener ≠ .returned) : s.handler.phase ≠ .left := by
  intro hleft
  rcases h.left hleft with hlistener | hlistener
  · exact hstarted hlistener
  · exact hrunning hlistener

/-- A handler that gives up late keeps a stream quiet. -/
theorem Stream.Quiet.step {s t : Stream} {e : Event} (h : s.Quiet) (hinv : s.Inv)
    (hstep : Stream.Step s e t) (hlate : GivesUpLate s e) : t.Quiet := by
  cases hstep.cases with
  | setupDone | registerNode | reportNewHealthCheck => exact ⟨h.unpanicked, nofun⟩
  | setupFailed hhandler hsetup =>
    exact ⟨h.unpanicked, fun _ => Or.inl (hinv.starting (by rw [hhandler]; rfl))⟩
  | spawnListener hhandler => exact ⟨nofun, nofun⟩
  | @recv result hlistener hallowed =>
    have hleft := h.not_left (by rw [hlistener]; nofun) (by rw [hlistener]; nofun)
    exact ⟨(ListenerPc.ne_of_sends (afterRecv_sends result)).2.2.2, fun hleft' => absurd hleft' hleft⟩
  | sendLast hlistener hsend => exact ⟨nofun, fun _ => Or.inr rfl⟩
  | sendErr hlistener hsend | sendMsg hlistener hsend =>
    have hleft := h.not_left (by rw [hlistener]; nofun) (by rw [hlistener]; nofun)
    exact ⟨nofun, fun hleft' => absurd hleft' hleft⟩
  | panicLast hlistener hclosed | panicErr hlistener hclosed =>
    have hleft := h.not_left (by rw [hlistener]; nofun) (by rw [hlistener]; nofun)
    rw [(hinv.opened hleft).1] at hclosed
    cases hclosed
  | panicMsg hlistener hclosed =>
    have hleft := h.not_left (by rw [hlistener]; nofun) (by rw [hlistener]; nofun)
    rw [(hinv.opened hleft).2] at hclosed
    cases hclosed
  | @takeMsg msg chan hhandler hreceive =>
    exact ⟨h.unpanicked, fun hleft => Or.inr (hlate ((afterMsg_left_iff msg).mp hleft))⟩
  | @takeErr err chan hhandler hreceive =>
    have hmem : err ∈ s.errChan.buf := by
      rw [((Chan.receive_eq_some_iff _ _ _).mp hreceive).1]
      exact List.mem_cons_self
    exact ⟨h.unpanicked, fun hleft => Or.inr (hinv.lastErr err hmem ((afterErr_left_iff err).mp hleft))⟩
  | timeout hhandler => exact ⟨h.unpanicked, fun _ => Or.inr (hlate trivial)⟩
  | reportNodeFailure hhandler | multiplexerReturns hhandler | closeErrChan hhandler | closeMsgChan hhandler =>
    exact ⟨h.unpanicked, fun _ => h.left (by rw [hhandler]; rfl)⟩

/-- Runs in which the handler gives up late stay quiet. -/
theorem run_quiet {events : List Event} {s : Stream}
    (hrun : Run (Restrict Stream.Step GivesUpLate) newStream events s) : s.Quiet := by
  induction hrun with
  | nil => exact ⟨nofun, nofun⟩
  | snoc hrun hlast ih => exact ih.step (run_inv hrun.unrestrict) hlast.1 hlast.2

/-- A quiet stream does not send on a closed channel. -/
theorem Stream.Quiet.not_sendsOnClosed {s : Stream} (h : s.Quiet) (hinv : s.Inv) : ¬ s.SendsOnClosed := by
  intro hsends
  have hopened : s.listener.sendsErr = true ∨ s.listener.sendsMsg = true →
      s.errChan.closed = false ∧ s.msgChan.closed = false := by
    intro hpending
    obtain ⟨hstarted, -, hrunning, -⟩ := ListenerPc.ne_of_sends hpending
    exact hinv.opened (h.not_left hstarted hrunning)
  rcases hsends with hpanicked | ⟨hpending, hclosed⟩ | ⟨hpending, hclosed⟩
  · exact h.unpanicked hpanicked
  · rw [(hopened (Or.inl hpending)).1] at hclosed
    cases hclosed
  · rw [(hopened (Or.inr hpending)).2] at hclosed
    cases hclosed

/-- The error with which gRPC cancels a stream whose handler has returned. -/
def canceledErr : GoError := ⟨.canceled, "rpc error: code = Canceled desc = context canceled"⟩

/-- The listener is at a send on a closed channel, and that send panics. -/
theorem panics_of_closed {s : Stream} (hsends : s.listener.sendsErr = true ∨ s.listener.sendsMsg = true)
    (herr : s.errChan.closed = true) (hmsg : s.msgChan.closed = true) :
    ∃ e, Stream.Step s e { s with listener := .panicked } := by
  obtain ⟨hstarted, hreceiving, hrunning, hpanicked⟩ := ListenerPc.ne_of_sends hsends
  cases hlistener : s.listener with
  | sendingLast err => exact ⟨.sendErr, (Stream.StepCase.panicLast hlistener herr).step⟩
  | sendingErr err => exact ⟨.sendErr, (Stream.StepCase.panicErr hlistener herr).step⟩
  | sendingMsg req => exact ⟨.sendMsg, (Stream.StepCase.panicMsg hlistener hmsg).step⟩
  | notStarted => exact absurd hlistener hstarted
  | receiving => exact absurd hlistener hreceiving
  | returned => exact absurd hlistener hrunning
  | panicked => exact absurd hlistener hpanicked

/-- A listener that outlives its handler panics. -/
theorem panics_after_return {s : Stream} {result : Option GoError} (hhandler : s.handler = .returned result)
    (herr : s.errChan.closed = true) (hmsg : s.msgChan.closed = true) (hstarted : s.listener ≠ .notStarted)
    (hrunning : s.listener ≠ .returned) :
    ∃ events t, Run Stream.Step s events t ∧ t.listener = .panicked := by
  have hpending (hsends : s.listener.sendsErr = true ∨ s.listener.sendsMsg = true) :
      ∃ events t, Run Stream.Step s events t ∧ t.listener = .panicked := by
    obtain ⟨e, hpanic⟩ := panics_of_closed hsends herr hmsg
    exact ⟨[e], _, Run.single hpanic, rfl⟩
  cases hlistener : s.listener with
  | notStarted => exact absurd hlistener hstarted
  | returned => exact absurd hlistener hrunning
  | panicked => exact ⟨[], s, Run.nil, hlistener⟩
  | receiving =>
    have hrecv : Stream.StepCase s (.recv (.error canceledErr))
        { s with listener := afterRecv (.error canceledErr) } := .recv hlistener (by rw [hhandler]; rfl)
    obtain ⟨e, hpanic⟩ := panics_of_closed (s := { s with listener := afterRecv (.error canceledErr) })
      (afterRecv_sends (.error canceledErr)) herr hmsg
    exact ⟨_, _, Run.cons hrecv.step (Run.single hpanic), rfl⟩
  | sendingLast err => exact hpending (Or.inl (by rw [hlistener]; rfl))
  | sendingErr err => exact hpending (Or.inl (by rw [hlistener]; rfl))
  | sendingMsg req => exact hpending (Or.inr (by rw [hlistener]; rfl))

/-- A handler that starts closing the channels of a running listener can make it panic. -/
theorem panics_of_closing {s : Stream} {result : Option GoError} (hhandler : s.handler = .closingErr result)
    (hstarted : s.listener ≠ .notStarted) (hrunning : s.listener ≠ .returned) :
    ∃ events t, Run Stream.Step s events t ∧ t.listener = .panicked := by
  have hcloseErr := (Stream.StepCase.closeErrChan hhandler).step
  have hcloseMsg : Stream.StepCase { s with errChan := s.errChan.close, handler := .closingMsg result }
      .closeMsgChan { s with errChan := s.errChan.close, msgChan := s.msgChan.close, handler := .returned result } :=
    .closeMsgChan rfl
  obtain ⟨events, t, hrun, hpanicked⟩ := panics_after_return
    (s := { s with errChan := s.errChan.close, msgChan := s.msgChan.close, handler := .returned result })
    rfl rfl rfl hstarted hrunning
  exact ⟨_, t, Run.cons hcloseErr (Run.cons hcloseMsg.step hrun), hpanicked⟩

/-- A multiplexer that returns while the listener runs can make it panic. -/
theorem panics_of_returning {s : Stream} {result : Option GoError} (hhandler : s.handler = .returning result)
    (hstarted : s.listener ≠ .notStarted) (hrunning : s.listener ≠ .returned) :
    ∃ events t, Run Stream.Step s events t ∧ t.listener = .panicked := by
  have hreturn := (Stream.StepCase.multiplexerReturns hhandler).step
  obtain ⟨events, t, hrun, hpanicked⟩ := panics_of_closing
    (s := { s with handler := .closingErr result }) rfl hstarted hrunning
  exact ⟨_, t, Run.cons hreturn hrun, hpanicked⟩

/-- A handler that gives up while the listener runs can make it panic. -/
theorem panics_of_givesUp {s t : Stream} {e : Event} (hinv : s.Inv) (hstep : Stream.Step s e t)
    (hgivesUp : e.GivesUp) (hrunning : s.listener ≠ .returned) :
    ∃ events u, Run Stream.Step t events u ∧ u.listener = .panicked := by
  cases hstep.cases with
  | @takeMsg msg chan hhandler hreceive =>
    have hstarted : s.listener ≠ .notStarted := hinv.looping (by rw [hhandler]; rfl)
    have hstatus : getStatus msg = shuttingDown := hgivesUp
    have hreturning : afterMsg msg = .returning none := by
      unfold afterMsg
      rw [hstatus]
      rfl
    exact panics_of_returning hreturning hstarted hrunning
  | timeout hhandler =>
    have hstarted : s.listener ≠ .notStarted := hinv.looping (by rw [hhandler]; rfl)
    have hreport : Stream.StepCase { s with handler := .reportingFailure (timeoutErr s.nodeKey) }
        .reportNodeFailure { s with handler := .returning (some (timeoutErr s.nodeKey)) } :=
      .reportNodeFailure rfl
    obtain ⟨events, u, hrun, hpanicked⟩ := panics_of_returning
      (s := { s with handler := .returning (some (timeoutErr s.nodeKey)) }) rfl hstarted hrunning
    exact ⟨_, u, Run.cons hreport.step hrun, hpanicked⟩
  | _ => exact absurd hgivesUp id

/-- No send on a closed channel happens or is pending after any run in which the handler gives up
only after the listener has returned, and a step in which it gives up earlier can be continued to
a panic. -/
theorem no_send_on_closed_channel (events : List Event) (s : Stream) :
    (Run (Restrict Stream.Step GivesUpLate) newStream events s → ¬ s.SendsOnClosed) ∧
      ∀ e t, Run Stream.Step newStream events s → Stream.Step s e t → ¬ GivesUpLate s e →
        ∃ later u, Run Stream.Step t later u ∧ u.SendsOnClosed := by
  constructor
  · intro hrun
    exact (run_quiet hrun).not_sendsOnClosed (run_inv hrun.unrestrict)
  · intro e t hrun hstep hearly
    obtain ⟨hgivesUp, hrunning⟩ := Classical.not_imp.mp hearly
    obtain ⟨later, u, hlater, hpanicked⟩ := panics_of_givesUp (run_inv hrun) hstep hgivesUp hrunning
    exact ⟨later, u, hlater, Or.inl hpanicked⟩

/-- A node connects and stays silent; the timeout and the cancelled stream end in a panic. -/
def silentNodeEvents : List Event :=
  [.setup (.tcp "192.168.0.100:41000") (.ok "02:42:ac:11:00:02") (.error eof), .registerNode, .spawnListener,
    .timeout, .reportNodeFailure, .multiplexerReturns, .closeErrChan, .closeMsgChan, .recv (.error canceledErr),
    .sendErr]

/-- A timeout with the listener in its receive ends in a send on the closed error channel. -/
theorem silentNode_panics : ∃ s, Run Stream.Step newStream silentNodeEvents s ∧ s.SendsOnClosed :=
  ⟨_, run_of_replay silentNodeEvents rfl, Or.inl rfl⟩

end GaleLB.LbNetwork
