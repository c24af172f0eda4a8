import GaleLB.LbNetwork.ChannelSafety
import Mathlib.Data.List.TakeWhile

/-!
# The flow of messages through a health stream

The listener forwards one message for every result it receives before an unrecoverable
error, and a nil message for every other error. The multiplexer takes the forwarded
messages in order. At every point of a run, what has been taken, what is buffered and
what the listener is about to send make up what the received results forward.
-/

namespace GaleLB.LbNetwork

open Channel Transition

/-- The result that an event receives from the stream. -/
def Event.received : Event → Option RecvResult
  | .recv result => some result
  | _ => none

/-- The message that an event hands to the multiplexer. -/
def Event.taken : Event → Option HealthStatus
  | .takeMsg msg => some msg
  | _ => none

/-- The results received in a run. -/
def received (events : List Event) : List RecvResult := events.filterMap Event.received

/-- The messages handled in a run. -/
def taken (events : List Event) : List HealthStatus := events.filterMap Event.taken

/-- The listener returns after this result. -/
def RecvResult.fatal : RecvResult → Bool
  | .message _ => false
  | .error err => gRPCErrUnrecoverable err

/-- The message of a result, which is nil next to an error. -/
def RecvResult.req : RecvResult → HealthStatus
  | .message status => some status
  | .error _ => none

/-- The messages that the listener forwards for a sequence of results. -/
def forwarded (results : List RecvResult) : List HealthStatus :=
  (results.takeWhile fun result => !result.fatal).map RecvResult.req

/-- The messages that the listener will still forward before its next receive. -/
def ListenerPc.pending : ListenerPc → List HealthStatus
  | .sendingErr _ => [none]
  | .sendingMsg req => [req]
  | _ => []

/-- The listener will not receive again. -/
def ListenerPc.over : ListenerPc → Bool
  | .sendingLast _ | .returned | .panicked => true
  | _ => false

/-- The received results after one more event. -/
theorem received_concat (events : List Event) (e : Event) :
    received (events ++ [e]) = received events ++ e.received.toList := by
  unfold received
  rw [List.filterMap_append]
  cases h : e.received <;> simp [h]

/-- The handled messages after one more event. -/
theorem taken_concat (events : List Event) (e : Event) :
    taken (events ++ [e]) = taken events ++ e.taken.toList := by
  unfold taken
  rw [List.filterMap_append]
  cases h : e.taken <;> simp [h]

/-- Events that are no receives leave the received results alone. -/
theorem received_concat_of_none (events : List Event) {e : Event} (h : e.received = none) :
    received (events ++ [e]) = received events := by
  rw [received_concat, h, Option.toList_none, List.append_nil]

/-- Events that take no message leave the handled messages alone. -/
theorem taken_concat_of_none (events : List Event) {e : Event} (h : e.taken = none) :
    taken (events ++ [e]) = taken events := by
  rw [taken_concat, h, Option.toList_none, List.append_nil]

/-- One more result forwards its message, unless it is fatal. -/
theorem forwarded_concat {results : List RecvResult} (h : ∀ result ∈ results, result.fatal = false)
    (result : RecvResult) :
    forwarded (results ++ [result]) = forwarded results ++ if result.fatal then [] else [result.req] := by
  have hall : ∀ result ∈ results, (!result.fatal) = true := by
    intro result hmem
    rw [h result hmem]
    rfl
  unfold forwarded
  rw [List.takeWhile_append_of_pos hall, List.map_append, List.takeWhile_eq_self_iff.mpr hall]
  cases hfatal : result.fatal <;> simp [hfatal]

/-- The listener is about to forward the message of a result that is not fatal. -/
theorem pending_afterRecv (result : RecvResult) :
    (afterRecv result).pending = if result.fatal then [] else [result.req] := by
  cases result with
  | message status => rfl
  | error err =>
    change (if gRPCErrUnrecoverable err = true then ListenerPc.sendingLast err
      else .sendingErr err).pending = if gRPCErrUnrecoverable err = true then [] else [none]
    split <;> rfl

/-- The listener ends with a fatal result. -/
theorem over_afterRecv (result : RecvResult) : (afterRecv result).over = result.fatal := by
  cases result with
  | message status => rfl
  | error err =>
    simp only [afterRecv, RecvResult.fatal]
    split <;> simp [ListenerPc.over, *]

/-- The messages of a stream are neither lost nor reordered nor duplicated. -/
structure Flow (events : List Event) (s : Stream) : Prop where
  running : s.listener.over = false → ∀ result ∈ received events, result.fatal = false
  queue : s.listener ≠ .panicked →
    taken events ++ s.msgChan.buf ++ s.listener.pending = forwarded (received events)
  buffered : taken events ++ s.msgChan.buf <+: forwarded (received events)

/-- A state with a complete queue has its buffered messages in order. -/
theorem Flow.of_queue {events : List Event} {s : Stream}
    (hrunning : s.listener.over = false → ∀ result ∈ received events, result.fatal = false)
    (hqueue : taken events ++ s.msgChan.buf ++ s.listener.pending = forwarded (received events)) :
    Flow events s :=
  ⟨hrunning, fun _ => hqueue, ⟨s.listener.pending, hqueue⟩⟩

/-- Events that neither receive nor take a message and leave the listener alone keep the flow. -/
theorem Flow.of_silent {events : List Event} {s t : Stream} {e : Event} (h : Flow events s)
    (hreceived : e.received = none) (htaken : e.taken = none) (hlistener : t.listener = s.listener)
    (hbuf : t.msgChan.buf = s.msgChan.buf) : Flow (events ++ [e]) t := by
  constructor
  · rw [received_concat_of_none events hreceived, hlistener]
    exact h.running
  · rw [received_concat_of_none events hreceived, taken_concat_of_none events htaken, hlistener, hbuf]
    exact h.queue
  · rw [received_concat_of_none events hreceived, taken_concat_of_none events htaken, hbuf]
    exact h.buffered

/-- The listener moves messages it is about to send towards the multiplexer. -/
theorem Flow.of_forward {events : List Event} {s t : Stream} {e : Event} (h : Flow events s)
    (hreceived : e.received = none) (htaken : e.taken = none) (hrunning : s.listener ≠ .panicked)
    (hover : t.listener.over = false → s.listener.over = false)
    (hmove : t.msgChan.buf ++ t.listener.pending = s.msgChan.buf ++ s.listener.pending) :
    Flow (events ++ [e]) t := by
  apply Flow.of_queue
  · intro hover'
    rw [received_concat_of_none events hreceived]
    exact h.running (hover hover')
  · rw [received_concat_of_none events hreceived, taken_concat_of_none events htaken, List.append_assoc,
      hmove, ← List.append_assoc]
    exact h.queue hrunning

/-- A panic of the listener loses what it was about to send, and nothing else. -/
theorem Flow.of_panic {events : List Event} {s : Stream} {e : Event} (h : Flow events s)
    (hreceived : e.received = none) (htaken : e.taken = none) :
    Flow (events ++ [e]) { s with listener := .panicked } := by
  constructor
  · nofun
  · exact fun hpanicked => absurd rfl hpanicked
  · rw [received_concat_of_none events hreceived, taken_concat_of_none events htaken]
    exact h.buffered

/-- A receive adds the message that the listener is about to send. -/
theorem Flow.of_recv {events : List Event} {s : Stream} (h : Flow events s)
    (hlistener : s.listener = .receiving) (result : RecvResult) :
    Flow (events ++ [.recv result]) { s with listener := afterRecv result } := by
  have hrunning := h.running (by rw [hlistener]; rfl)
  have hqueue := h.queue (by rw [hlistener]; nofun)
  have hreceived : received (events ++ [.recv result]) = received events ++ [result] :=
    received_concat events (.recv result)
  have htaken : taken (events ++ [.recv result]) = taken events := taken_concat_of_none events rfl
  rw [hlistener, show ListenerPc.receiving.pending = [] from rfl, List.append_nil] at hqueue
  apply Flow.of_queue
  · intro hover result' hmem
    rw [hreceived, List.mem_append, List.mem_singleton] at hmem
    rcases hmem with hmem | rfl
    · exact hrunning result' hmem
    · rw [← over_afterRecv]
      exact hover
  · rw [hreceived, htaken, forwarded_concat hrunning, hqueue, pending_afterRecv]

/-- The multiplexer takes the oldest buffered message. -/
theorem Flow.of_take {events : List Event} {s t : Stream} {msg : HealthStatus} (h : Flow events s)
    (hlistener : t.listener = s.listener) (hbuf : s.msgChan.buf = msg :: t.msgChan.buf) :
    Flow (events ++ [.takeMsg msg]) t := by
  have hreceived : received (events ++ [.takeMsg msg]) = received events := received_concat_of_none events rfl
  have htaken : taken (events ++ [.takeMsg msg]) ++ t.msgChan.buf = taken events ++ s.msgChan.buf := by
    rw [taken_concat, hbuf]
    simp [Event.taken]
  constructor
  · rw [hreceived, hlistener]
    exact h.running
  · rw [hreceived, htaken, hlistener]
    exact h.queue
  · rw [hreceived, htaken]
    exact h.buffered

/-- Every step keeps the flow. -/
theorem Flow.step {events : List Event} {s t : Stream} {e : Event} (h : Flow events s) (hinv : s.Inv)
    (hstep : Stream.Step s e t) : Flow (events ++ [e]) t := by
  cases hstep.cases with
  | setupDone | setupFailed | registerNode | takeErr | timeout | reportNewHealthCheck | reportNodeFailure
  | multiplexerReturns | closeErrChan | closeMsgChan => exact h.of_silent rfl rfl rfl rfl
  | spawnListener hhandler =>
    have hlistener : s.listener = .notStarted := hinv.starting (by rw [hhandler]; rfl)
    exact h.of_forward rfl rfl (by rw [hlistener]; nofun) (fun _ => by rw [hlistener]; rfl)
      (by rw [hlistener]; rfl)
  | recv hlistener hallowed => exact h.of_recv hlistener _
  | sendLast hlistener hsend =>
    exact h.of_forward rfl rfl (by rw [hlistener]; nofun) nofun (by rw [hlistener]; rfl)
  | sendErr hlistener hsend =>
    exact h.of_forward rfl rfl (by rw [hlistener]; nofun) (fun _ => by rw [hlistener]; rfl)
      (by rw [hlistener]; rfl)
  | @sendMsg req chan hlistener hsend =>
    have hbuf := ((Chan.send_eq_sent_iff _ _ _).mp hsend).2.2.1
    refine h.of_forward rfl rfl (by rw [hlistener]; nofun) (fun _ => by rw [hlistener]; rfl) ?_
    rw [hlistener]
    exact (List.append_nil _).trans hbuf
  | panicLast | panicErr | panicMsg => exact h.of_panic rfl rfl
  | takeMsg hhandler hreceive => exact h.of_take rfl ((Chan.receive_eq_some_iff _ _ _).mp hreceive).1

/-- Messages flow in order in every run. -/
theorem run_flow {events : List Event} {s : Stream} (hrun : Run Stream.Step newStream events s) :
    Flow events s := by
  induction hrun with
  | nil => exact Flow.of_queue nofun rfl
  | snoc hrun hlast ih => exact ih.step (run_inv hrun) hlast

end GaleLB.LbNetwork
