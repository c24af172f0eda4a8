import GaleLB.LbNetwork.HealthCheckCount

/-!
# What happens to the last messages of a stream

Messages and errors reach the multiplexer on two channels, and the select takes whichever
is ready. An unrecoverable error therefore overtakes a message that is still buffered,
and a shutdown message ends the handler although the listener may hold, or still receive,
another one. Messages are lost at exactly these steps. In their absence the handler has
handled every received message when it leaves its loop, and a final shutdown message
makes it return nil without a reported failure.
-/

namespace GaleLB.LbNetwork

open Channel Transition

/-- The events of a stream that delivers messages and then an unrecoverable error, while the timer
does not fire. -/
def Event.Orderly : Event → Prop
  | .recv (.error err) => gRPCErrUnrecoverable err = true
  | .timeout => False
  | _ => True

/-- The steps of such a stream. -/
def OrderlyStep : Stream → Event → Stream → Prop := Restrict Stream.Step fun _ e => e.Orderly

/-- The message of a result that is not an error. -/
def RecvResult.message? : RecvResult → Option HealthStatus
  | .message status => some (some status)
  | .error _ => none

/-- The messages received in a run. -/
def receivedMessages (events : List Event) : List HealthStatus :=
  (received events).filterMap RecvResult.message?

/-- What the handler returns, once that is settled. -/
def HandlerPc.result : HandlerPc → Option (Option GoError)
  | .reportingFailure err => some (some err)
  | .returning result | .closingErr result | .closingMsg result | .returned result => some result
  | _ => none

/-- Every received message has been handled, and a final shutdown message is answered with nil and
without a reported failure. -/
structure Handled (events : List Event) (s : Stream) : Prop where
  messages : taken events = receivedMessages events
  shutdown : (receivedMessages events).getLast? = some (some shuttingDown) →
    s.handler.result = some none ∧ .reportNodeFailure ∉ events

/-- The select takes an unrecoverable error only when no message is buffered, it takes a shutdown
message only when the listener holds no other one, and no message arrives after the loop. -/
def Drained (s : Stream) : Event → Prop
  | .takeErr err => gRPCErrUnrecoverable err = true → s.msgChan.buf = []
  | .takeMsg msg => getStatus msg = shuttingDown → s.listener.pending = []
  | .recv (.message _) => s.handler.phase ≠ .left
  | _ => True

/-- A handler that has left its loop takes no message and keeps its result. -/
theorem Stream.Step.of_left {s t : Stream} {e : Event} (h : Stream.Step s e t)
    (hleft : s.handler.phase = .left) :
    e.taken = none ∧ t.handler.phase = .left ∧ t.handler.result = s.handler.result := by
  cases h.cases with
  | recv | sendLast | sendErr | panicLast | panicErr | sendMsg | panicMsg => exact ⟨rfl, hleft, rfl⟩
  | reportNodeFailure hhandler => exact ⟨rfl, rfl, by rw [hhandler]; rfl⟩
  | multiplexerReturns hhandler => exact ⟨rfl, rfl, by rw [hhandler]; rfl⟩
  | closeErrChan hhandler => exact ⟨rfl, rfl, by rw [hhandler]; rfl⟩
  | closeMsgChan hhandler => exact ⟨rfl, rfl, by rw [hhandler]; rfl⟩
  | setupDone hhandler | setupFailed hhandler | registerNode hhandler | spawnListener hhandler
  | takeMsg hhandler | takeErr hhandler | timeout hhandler | reportNewHealthCheck hhandler =>
    rw [hhandler] at hleft
    cases hleft

/-- The ways in which a handler leaves: a failed setup, a shutdown message, an unrecoverable error
or the timeout. -/
inductive Stream.Leaves (s : Stream) : Event → Stream → Prop
  | setupFailed {peer arpCache arpCall err} (hhandler : s.handler = .setup) :
      Leaves s (.setup peer arpCache arpCall) { s with handler := .closingErr (some err) }
  | shutdown {msg chan} (hstatus : getStatus msg = shuttingDown)
      (hreceive : s.msgChan.receive = some (msg, chan)) :
      Leaves s (.takeMsg msg) { s with msgChan := chan, handler := .returning none }
  | failed {err chan} (herr : gRPCErrUnrecoverable err = true)
      (hreceive : s.errChan.receive = some (err, chan)) :
      Leaves s (.takeErr err) { s with errChan := chan, handler := afterErr err }
  | timeout : Leaves s .timeout { s with handler := .reportingFailure (timeoutErr s.nodeKey) }

/-- A step that leaves does so in one of these ways. -/
theorem Stream.Step.leaves {s t : Stream} {e : Event} (h : Stream.Step s e t)
    (hlooping : s.handler.phase ≠ .left) (hleft : t.handler.phase = .left) : Stream.Leaves s e t := by
  cases h.cases with
  | setupFailed hhandler => exact .setupFailed hhandler
  | timeout hhandler => exact .timeout
  | @takeMsg msg chan hhandler hreceive =>
    have hstatus := (afterMsg_left_iff msg).mp hleft
    have hafter : afterMsg msg = .returning none := by
      unfold afterMsg
      rw [hstatus]
      rfl
    rw [hafter]
    exact .shutdown hstatus hreceive
  | @takeErr err chan hhandler hreceive => exact .failed ((afterErr_left_iff err).mp hleft) hreceive
  | recv | sendLast | sendErr | panicLast | panicErr | sendMsg | panicMsg => exact absurd hleft hlooping
  | reportNodeFailure hhandler | multiplexerReturns hhandler | closeErrChan hhandler | closeMsgChan hhandler =>
    rw [hhandler] at hlooping
    exact absurd rfl hlooping
  | setupDone | registerNode | spawnListener | reportNewHealthCheck => cases hleft

/-- A handler with a settled result has left its loop. -/
theorem HandlerPc.phase_of_result {pc : HandlerPc} {result : Option GoError} (h : pc.result = some result) :
    pc.phase = .left := by
  cases pc <;> first | rfl | cases h

variable {events : List Event} {s : Stream}

/-- A reported failure is returned as an error. -/
theorem run_result_of_failure (hrun : Run Stream.Step newStream events s)
    (h : .reportNodeFailure ∈ events) : ∃ err, s.handler.result = some (some err) := by
  induction hrun with
  | nil => cases h
  | @snoc events s t e hrun hlast ih =>
    rw [List.mem_append, List.mem_singleton] at h
    rcases h with hearlier | rfl
    · obtain ⟨err, hresult⟩ := ih hearlier
      exact ⟨err, (hlast.of_left (HandlerPc.phase_of_result hresult)).2.2.trans hresult⟩
    · cases hlast.cases with
      | @reportNodeFailure err hhandler => exact ⟨err, rfl⟩

/-- A handled shutdown message makes the handler return nil. -/
theorem run_result_of_shutdown (hrun : Run Stream.Step newStream events s) {msg : HealthStatus}
    (hmem : msg ∈ taken events) (hstatus : getStatus msg = shuttingDown) : s.handler.result = some none := by
  induction hrun with
  | nil => cases hmem
  | @snoc events s t e hrun hlast ih =>
    by_cases hleft : s.handler.phase = .left
    · obtain ⟨htaken, -, hresult⟩ := hlast.of_left hleft
      rw [taken_concat_of_none events htaken] at hmem
      exact hresult.trans (ih hmem)
    · have hearlier := (run_counting hrun).looping hleft
      have hleft' : t.handler.phase = .left := by
        by_contra hlooping
        exact (run_counting (hrun.snoc hlast)).looping hlooping msg hmem hstatus
      cases hlast.leaves hleft hleft' with
      | shutdown => rfl
      | setupFailed | failed | timeout =>
        rw [taken_concat_of_none events rfl] at hmem
        exact absurd hstatus (hearlier msg hmem)

/-- A listener panics on a closed channel only. -/
theorem Stream.Step.closed_of_panicked {s t : Stream} {e : Event} (h : Stream.Step s e t)
    (hpanicked : t.listener = .panicked) :
    s.listener = .panicked ∨ s.errChan.closed = true ∨ s.msgChan.closed = true := by
  cases h.cases with
  | panicLast hlistener hclosed | panicErr hlistener hclosed => exact Or.inr (Or.inl hclosed)
  | panicMsg hlistener hclosed => exact Or.inr (Or.inr hclosed)
  | @recv result => exact absurd hpanicked (ListenerPc.ne_of_sends (afterRecv_sends result)).2.2.2
  | spawnListener | sendLast | sendErr | sendMsg => cases hpanicked
  | setupDone | setupFailed | registerNode | takeMsg | takeErr | timeout | reportNewHealthCheck
  | reportNodeFailure | multiplexerReturns | closeErrChan | closeMsgChan => exact Or.inl hpanicked

/-- A listener does not panic before the handler has left. -/
theorem run_not_panicked (hrun : Run Stream.Step newStream events s) (h : s.handler.phase ≠ .left) :
    s.listener ≠ .panicked := by
  induction hrun with
  | nil => nofun
  | @snoc events s t e hrun hlast ih =>
    intro hpanicked
    have hlooping : s.handler.phase ≠ .left := fun hleft => h (hlast.of_left hleft).2.1
    have hopened := (run_inv hrun).opened hlooping
    rcases hlast.closed_of_panicked hpanicked with hbefore | herr | hmsg
    · exact ih hlooping hbefore
    · rw [hopened.1] at herr
      cases herr
    · rw [hopened.2] at hmsg
      cases hmsg

/-- A stream that is still starting has been starting, and nothing arrived. -/
theorem Stream.Step.of_starting {s t : Stream} {e : Event} (h : Stream.Step s e t) (hinv : s.Inv)
    (hstarting : t.handler.phase = .starting) :
    s.handler.phase = .starting ∧ e.received = none ∧ e.taken = none := by
  cases h.cases with
  | setupDone hhandler | registerNode hhandler =>
    rw [hhandler]
    exact ⟨rfl, rfl, rfl⟩
  | recv hlistener =>
    rw [hinv.starting hstarting] at hlistener
    cases hlistener
  | sendLast | sendErr | sendMsg | panicLast | panicErr | panicMsg => exact ⟨hstarting, rfl, rfl⟩
  | @takeMsg msg chan hhandler hreceive =>
    rw [afterMsg_phase] at hstarting
    split at hstarting <;> cases hstarting
  | @takeErr err chan hhandler hreceive =>
    rw [afterErr_phase] at hstarting
    split at hstarting <;> cases hstarting
  | setupFailed | spawnListener | timeout | reportNewHealthCheck | reportNodeFailure | multiplexerReturns
  | closeErrChan | closeMsgChan => cases hstarting

/-- Nothing is received or handled before the loop. -/
theorem run_starting (hrun : Run Stream.Step newStream events s) (h : s.handler.phase = .starting) :
    received events = [] ∧ taken events = [] := by
  induction hrun with
  | nil => exact ⟨rfl, rfl⟩
  | @snoc events s t e hrun hlast ih =>
    obtain ⟨hstarting, hreceived, htaken⟩ := hlast.of_starting (run_inv hrun) h
    rw [received_concat_of_none events hreceived, taken_concat_of_none events htaken]
    exact ih hstarting

/-- The received messages after one more event. -/
theorem receivedMessages_concat (events : List Event) (e : Event) :
    receivedMessages (events ++ [e]) =
      receivedMessages events ++ (e.received.bind RecvResult.message?).toList := by
  unfold receivedMessages
  rw [received_concat, List.filterMap_append]
  congr 1
  cases e.received with
  | none => rfl
  | some result =>
    change List.filterMap RecvResult.message? [result] = result.message?.toList
    cases result <;> rfl

/-- The listener of an orderly stream forwards the received messages and nothing else. -/
theorem run_forwarded (hrun : Run OrderlyStep newStream events s) :
    forwarded (received events) = receivedMessages events := by
  induction hrun with
  | nil => rfl
  | @snoc events s t e hrun hlast ih =>
    rw [receivedMessages_concat, ← ih]
    by_cases hnone : e.received = none
    · rw [received_concat_of_none events hnone, hnone]
      exact (List.append_nil _).symm
    · cases hlast.1.cases with
      | @recv result hlistener hallowed =>
        have hrunning := (run_flow hrun.unrestrict).running (by rw [hlistener]; rfl)
        have hreceived : received (events ++ [.recv result]) = received events ++ [result] :=
          received_concat events (.recv result)
        rw [hreceived, forwarded_concat hrunning]
        congr 1
        cases result with
        | message status => rfl
        | error err =>
          rw [if_pos (show (RecvResult.error err).fatal = true from hlast.2)]
          rfl
      | _ => exact absurd rfl hnone

/-- In every run, handling all messages includes the answer to a final shutdown message. -/
theorem handled_iff (hrun : Run Stream.Step newStream events s) :
    Handled events s ↔ taken events = receivedMessages events := by
  refine ⟨fun h => h.messages, fun h => ⟨h, fun hlast => ?_⟩⟩
  have hmem : some shuttingDown ∈ taken events := h ▸ List.mem_of_getLast? hlast
  have hresult := run_result_of_shutdown hrun hmem rfl
  refine ⟨hresult, fun hfailure => ?_⟩
  obtain ⟨err, herr⟩ := run_result_of_failure hrun hfailure
  rw [hresult] at herr
  cases herr

/-- After the loop, all received messages stay handled as long as no other one arrives. -/
theorem handled_step_of_left {t : Stream} {e : Event} (hrun : Run OrderlyStep newStream events s)
    (hlast : OrderlyStep s e t) (hleft : s.handler.phase = .left) (hbefore : Handled events s) :
    Handled (events ++ [e]) t ↔ Drained s e := by
  obtain ⟨htaken, -, -⟩ := hlast.1.of_left hleft
  rw [handled_iff (hrun.unrestrict.snoc hlast.1), taken_concat_of_none events htaken,
    receivedMessages_concat, hbefore.messages, List.self_eq_append_right]
  cases hlast.1.cases with
  | @recv result hlistener hallowed =>
    cases result with
    | message status => exact iff_of_false (List.cons_ne_nil _ _) (not_not.mpr hleft)
    | error err => exact iff_of_true rfl trivial
  | takeMsg hhandler | takeErr hhandler =>
    rw [hhandler] at hleft
    cases hleft
  | _ => exact iff_of_true rfl trivial

/-- At the step that leaves the loop, all received messages have been handled exactly when none is
buffered behind an error or held back behind a shutdown message. -/
theorem handled_step_of_leaves {t : Stream} {e : Event} (hrun : Run OrderlyStep newStream events s)
    (hlast : OrderlyStep s e t) (hlooping : s.handler.phase ≠ .left) (hleft : t.handler.phase = .left) :
    Handled (events ++ [e]) t ↔ Drained s e := by
  have hrun' := hrun.unrestrict
  -- Taken, buffered and pending messages make up the received ones, so a message is lost exactly
  -- when one of the last two parts is not empty at the exit.
  have hqueue := (run_flow hrun').queue (run_not_panicked hrun' hlooping)
  rw [run_forwarded hrun] at hqueue
  rw [handled_iff (hrun'.snoc hlast.1), receivedMessages_concat, ← hqueue]
  cases hlast.1.leaves hlooping hleft with
  | setupFailed hhandler =>
    obtain ⟨hreceived, htaken⟩ := run_starting hrun' (by rw [hhandler]; rfl)
    have hnone : receivedMessages events = [] := by
      rw [receivedMessages, hreceived]
      rfl
    rw [taken_concat_of_none events rfl, hqueue, hnone, htaken]
    exact iff_of_true rfl trivial
  | @shutdown msg chan hstatus hreceive =>
    have hbuf := ((Chan.receive_eq_some_iff _ _ _).mp hreceive).1
    -- The channel holds one message at most, and this one is taken.
    have hempty : chan.buf = [] := by
      have hbounded : s.msgChan.buf.length ≤ 1 := s.msgChan.bounded
      rw [hbuf, List.length_cons] at hbounded
      exact List.length_eq_zero_iff.mp (by omega)
    have htaken : taken (events ++ [.takeMsg msg]) = taken events ++ [msg] := taken_concat events (.takeMsg msg)
    rw [htaken, hbuf, hempty]
    change taken events ++ [msg] = taken events ++ [msg] ++ s.listener.pending ++ [] ↔ (_ → _)
    rw [List.append_nil, List.self_eq_append_right]
    exact ⟨fun h _ => h, fun h => h hstatus⟩
  | @failed err chan herr hreceive =>
    have hmem : err ∈ s.errChan.buf := by
      rw [((Chan.receive_eq_some_iff _ _ _).mp hreceive).1]
      exact List.mem_cons_self
    rw [(run_inv hrun').lastErr err hmem herr, taken_concat_of_none events rfl]
    change taken events = taken events ++ s.msgChan.buf ++ [] ++ [] ↔ (_ → _)
    rw [List.append_nil, List.append_nil, List.self_eq_append_right]
    exact ⟨fun h _ => h, fun h => h herr⟩
  | timeout => exact absurd hlast.2 id

/-- A step inside the loop loses nothing. -/
theorem drained_of_looping {t : Stream} {e : Event} (h : Stream.Step s e t)
    (hlooping : s.handler.phase ≠ .left) (hlooping' : t.handler.phase ≠ .left) : Drained s e := by
  cases h.cases with
  | @recv result hlistener hallowed =>
    cases result with
    | message status => exact hlooping
    | error err => exact trivial
  | @takeMsg msg chan hhandler hreceive =>
    exact fun hstatus => absurd ((afterMsg_left_iff msg).mpr hstatus) hlooping'
  | @takeErr err chan hhandler hreceive =>
    exact fun herr => absurd ((afterErr_left_iff err).mpr herr) hlooping'
  | _ => exact trivial

/-- Along every interleaving of an orderly stream, a handler that has left its loop has handled every
received message, and answered a final shutdown message with nil and without a reported failure,
exactly when every step is drained. -/
theorem messages_handled_iff (events : List Event) :
    EveryStep OrderlyStep newStream
        (fun before _ e s => s.handler.phase = .left → Handled (before ++ [e]) s) events ↔
      EveryStep OrderlyStep newStream (fun _ s e _ => Drained s e) events := by
  have hinit : newStream.handler.phase = .left → Handled [] newStream := nofun
  refine everyStep_iff (P := fun events s => s.handler.phase = .left → Handled events s) hinit ?_
  intro before s e t hrun hlast hbefore
  by_cases hleft : s.handler.phase = .left
  · rw [imp_iff_right (hlast.1.of_left hleft).2.1]
    exact handled_step_of_left hrun hlast hleft (hbefore hleft)
  · by_cases hleft' : t.handler.phase = .left
    · rw [imp_iff_right hleft']
      exact handled_step_of_leaves hrun hlast hleft hleft'
    · exact iff_of_true (fun h => absurd h hleft') (drained_of_looping hlast.1 hleft hleft')

/-- A node announces its shutdown and closes the stream; the select takes the error first. -/
def overtakenEvents : List Event :=
  startEvents "192.168.0.100:41000" ++ [.recv (.message shuttingDown), .sendMsg, .recv (.error canceledErr),
    .sendErr, .takeErr canceledErr, .reportNodeFailure]

/-- The shutdown message is overtaken by the end of the stream: it is not handled, a failure is
reported and an error is returned. -/
theorem shutdown_overtaken :
    ∃ s err, Run OrderlyStep newStream overtakenEvents s ∧ s.handler.phase = .left ∧
      receivedMessages overtakenEvents = [some shuttingDown] ∧ taken overtakenEvents = [] ∧
      s.handler.result = some (some err) ∧ .reportNodeFailure ∈ overtakenEvents := by
  have hrun : Run Stream.Step newStream overtakenEvents _ := run_of_replay overtakenEvents rfl
  refine ⟨_, _, hrun.restrict ?_, rfl, rfl, rfl, rfl, by simp [overtakenEvents]⟩
  simp [overtakenEvents, startEvents, Event.Orderly, gRPCErrUnrecoverable, canceledErr]

end GaleLB.LbNetwork
