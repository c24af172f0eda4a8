import GaleLB.Common.Channel
import GaleLB.Common.Transition

/-!
# One health stream of the node manager

A stream is served by two goroutines. The handler `ReportHealthStatus` sets up the peer,
registers the node, spawns the listener and then multiplexes messages, errors and the
timer until the multiplexer returns; its deferred calls close the error channel and then
the message channel. The listener `listenerReportHealthStatus` receives from the stream and
forwards what it gets on the two channels.

Every channel operation, registry call and receive is one event, and so is the return of the
multiplexer, which comes after its last registry call. The timer may fire in
every round of the select: stopping or draining it never blocks, because a timer channel
holds no value once `Stop` has returned.
-/

namespace GaleLB.LbNetwork

open Channel

/-- The status codes of gRPC. -/
inductive Code where
  | ok | canceled | unknown | invalidArgument | deadlineExceeded | notFound | alreadyExists
  | permissionDenied | resourceExhausted | failedPrecondition | aborted | outOfRange | unimplemented
  | internal | unavailable | dataLoss | unauthenticated
deriving DecidableEq, Repr

/-- A non-nil error: the code that `status.Code` finds in it, and its text. -/
structure GoError where
  code : Code
  text : String
deriving DecidableEq, Repr

/-- `fmt.Errorf` without a wrapped error. -/
def GoError.new (text : String) : GoError := ⟨.unknown, text⟩

/-- `fmt.Errorf` with a wrapped error, whose code stays visible. -/
def GoError.wrap (context : String) (err : GoError) : GoError := ⟨err.code, context ++ ": " ++ err.text⟩

/-- The end of a stream is not a gRPC status. -/
def eof : GoError := ⟨.unknown, "EOF"⟩

/-- Errors after which the stream is given up. -/
def gRPCErrUnrecoverable (err : GoError) : Bool :=
  err.code = .canceled || err.code = .unavailable

/-- A service status; the wire admits every value. -/
abbrev ServiceStatus := UInt32

/-- The node serves traffic. -/
abbrev serving : ServiceStatus := 0

/-- The node does not serve traffic. -/
abbrev notServing : ServiceStatus := 1

/-- The node is shutting down. -/
abbrev shuttingDown : ServiceStatus := 2

/-- A pointer to a health message, which only carries its status. -/
abbrev HealthStatus := Option ServiceStatus

/-- The generated accessor: the nil message has status zero. -/
def getStatus (msg : HealthStatus) : ServiceStatus := msg.getD 0

/-- What `stream.Recv` returns: a message, or a nil message with an error. -/
inductive RecvResult where
  | message (status : ServiceStatus)
  | error (err : GoError)
deriving DecidableEq, Repr

/-- What the stream's context knows about the peer. -/
inductive Peer where
  | missing
  | notTcp
  | nilTcp
  | tcp (addr : String)
deriving DecidableEq, Repr

/-- The TCP address of the peer, as text. -/
def extractTCPFromConn : Peer → Except GoError String
  | .tcp addr => .ok addr
  | _ => .error (.new "failed to extract peer info from stream")

/-- The part of the handler before the registration: find the node key and its hardware address. -/
def setupStream (peer : Peer) (arpCache arpCall : Except GoError String) : Except GoError String :=
  match extractTCPFromConn peer with
  | .error err => .error (err.wrap "failed to extract peer info from stream")
  | .ok nodeKey =>
    match arpCache with
    | .ok _ => .ok nodeKey
    | .error _ =>
      match arpCall with
      | .ok _ => .ok nodeKey
      | .error err => .error (err.wrap "failed to get MAC address via ARP call")

/-- Where the handler is; a result is what it will return. -/
inductive HandlerPc where
  | setup
  | registering
  | spawning
  | selecting
  | reportingCheck
  | reportingFailure (err : GoError)
  | returning (result : Option GoError)
  | closingErr (result : Option GoError)
  | closingMsg (result : Option GoError)
  | returned (result : Option GoError)
deriving DecidableEq, Repr

/-- Where the listener is, with the values it is about to send. -/
inductive ListenerPc where
  | notStarted
  | receiving
  | sendingLast (err : GoError)
  | sendingErr (err : GoError)
  | sendingMsg (req : HealthStatus)
  | returned
  | panicked
deriving DecidableEq, Repr

/-- The capacity of both channels. -/
abbrev channelBufferSize : ℕ := 1

/-- The state of one stream. -/
structure Stream where
  nodeKey : String
  handler : HandlerPc
  listener : ListenerPc
  msgChan : Chan HealthStatus channelBufferSize
  errChan : Chan GoError channelBufferSize

/-- A stream whose handler has just been called. -/
def newStream : Stream := ⟨"", .setup, .notStarted, .make, .make⟩

/-- The atomic actions of the two goroutines. -/
inductive Event where
  | setup (peer : Peer) (arpCache arpCall : Except GoError String)
  | registerNode
  | spawnListener
  | recv (result : RecvResult)
  | sendErr
  | sendMsg
  | takeMsg (msg : HealthStatus)
  | takeErr (err : GoError)
  | timeout
  | reportNewHealthCheck
  | reportNodeFailure
  | multiplexerReturns
  | closeErrChan
  | closeMsgChan

/-- What the listener does with a received result. -/
def afterRecv : RecvResult → ListenerPc
  | .message status => .sendingMsg (some status)
  | .error err => if gRPCErrUnrecoverable err then .sendingLast err else .sendingErr err

/-- What the multiplexer does with a message. -/
def afterMsg (msg : HealthStatus) : HandlerPc :=
  if getStatus msg = notServing then .selecting
  else if getStatus msg = shuttingDown then .returning none
  else .reportingCheck

/-- What the multiplexer does with an error. -/
def afterErr (err : GoError) : HandlerPc :=
  if gRPCErrUnrecoverable err then
    .reportingFailure (err.wrap "unrecoverable error receiving health status")
  else .selecting

/-- The error of a stream without timely health checks. -/
def timeoutErr (nodeKey : String) : GoError :=
  .new ("timed out waiting for health status from " ++ nodeKey)

/-- Once the handler has returned, gRPC cancels the stream. -/
def recvAllowed (handler : HandlerPc) (result : RecvResult) : Bool :=
  match handler, result with
  | .returned _, .error err => err.code = .canceled
  | .returned _, .message _ => false
  | _, _ => true

/-- Continue after a send of the listener; a blocked send does not happen. -/
def Stream.afterSend {α : Type} (s : Stream) (resume : Chan α channelBufferSize → Stream) :
    SendResult α channelBufferSize → Option Stream
  | .sent chan => some (resume chan)
  | .panics => some { s with listener := .panicked }
  | .blocked => none

/-- One event, where it is enabled. -/
def Stream.step (s : Stream) : Event → Option Stream
  | .setup peer arpCache arpCall =>
    if s.handler = .setup then
      match setupStream peer arpCache arpCall with
      | .ok nodeKey => some { s with nodeKey := nodeKey, handler := .registering }
      | .error err => some { s with handler := .closingErr (some err) }
    else none
  | .registerNode =>
    if s.handler = .registering then some { s with handler := .spawning } else none
  | .spawnListener =>
    if s.handler = .spawning then some { s with handler := .selecting, listener := .receiving } else none
  | .recv result =>
    if s.listener = .receiving ∧ recvAllowed s.handler result then
      some { s with listener := afterRecv result }
    else none
  | .sendErr =>
    match s.listener with
    | .sendingLast err =>
      s.afterSend (fun chan => { s with errChan := chan, listener := .returned }) (s.errChan.send err)
    | .sendingErr err =>
      s.afterSend (fun chan => { s with errChan := chan, listener := .sendingMsg none }) (s.errChan.send err)
    | _ => none
  | .sendMsg =>
    match s.listener with
    | .sendingMsg req =>
      s.afterSend (fun chan => { s with msgChan := chan, listener := .receiving }) (s.msgChan.send req)
    | _ => none
  | .takeMsg msg =>
    match s.msgChan.receive with
    | some (head, chan) =>
      if s.handler = .selecting ∧ head = msg then
        some { s with msgChan := chan, handler := afterMsg msg }
      else none
    | none => none
  | .takeErr err =>
    match s.errChan.receive with
    | some (head, chan) =>
      if s.handler = .selecting ∧ head = err then
        some { s with errChan := chan, handler := afterErr err }
      else none
    | none => none
  | .timeout =>
    if s.handler = .selecting then some { s with handler := .reportingFailure (timeoutErr s.nodeKey) }
    else none
  | .reportNewHealthCheck =>
    if s.handler = .reportingCheck then some { s with handler := .selecting } else none
  | .reportNodeFailure =>
    match s.handler with
    | .reportingFailure err => some { s with handler := .returning (some err) }
    | _ => none
  | .multiplexerReturns =>
    match s.handler with
    | .returning result => some { s with handler := .closingErr result }
    | _ => none
  | .closeErrChan =>
    match s.handler with
    | .closingErr result => some { s with errChan := s.errChan.close, handler := .closingMsg result }
    | _ => none
  | .closeMsgChan =>
    match s.handler with
    | .closingMsg result => some { s with msgChan := s.msgChan.close, handler := .returned result }
    | _ => none

/-- The steps of a stream as a relation. -/
abbrev Stream.Step : Stream → Event → Stream → Prop := Transition.Computes Stream.step

/-- Everything that one event can do to a stream. -/
inductive Stream.StepCase (s : Stream) : Event → Stream → Prop
  | setupDone {peer arpCache arpCall nodeKey} (hhandler : s.handler = .setup)
      (hsetup : setupStream peer arpCache arpCall = .ok nodeKey) :
      StepCase s (.setup peer arpCache arpCall) { s with nodeKey := nodeKey, handler := .registering }
  | setupFailed {peer arpCache arpCall err} (hhandler : s.handler = .setup)
      (hsetup : setupStream peer arpCache arpCall = .error err) :
      StepCase s (.setup peer arpCache arpCall) { s with handler := .closingErr (some err) }
  | registerNode (hhandler : s.handler = .registering) :
      StepCase s .registerNode { s with handler := .spawning }
  | spawnListener (hhandler : s.handler = .spawning) :
      StepCase s .spawnListener { s with handler := .selecting, listener := .receiving }
  | recv {result} (hlistener : s.listener = .receiving) (hallowed : recvAllowed s.handler result) :
      StepCase s (.recv result) { s with listener := afterRecv result }
  | sendLast {err chan} (hlistener : s.listener = .sendingLast err)
      (hsend : s.errChan.send err = .sent chan) :
      StepCase s .sendErr { s with errChan := chan, listener := .returned }
  | sendErr {err chan} (hlistener : s.listener = .sendingErr err)
      (hsend : s.errChan.send err = .sent chan) :
      StepCase s .sendErr { s with errChan := chan, listener := .sendingMsg none }
  | panicLast {err} (hlistener : s.listener = .sendingLast err) (hclosed : s.errChan.closed = true) :
      StepCase s .sendErr { s with listener := .panicked }
  | panicErr {err} (hlistener : s.listener = .sendingErr err) (hclosed : s.errChan.closed = true) :
      StepCase s .sendErr { s with listener := .panicked }
  | sendMsg {req chan} (hlistener : s.listener = .sendingMsg req)
      (hsend : s.msgChan.send req = .sent chan) :
      StepCase s .sendMsg { s with msgChan := chan, listener := .receiving }
  | panicMsg {req} (hlistener : s.listener = .sendingMsg req) (hclosed : s.msgChan.closed = true) :
      StepCase s .sendMsg { s with listener := .panicked }
  | takeMsg {msg chan} (hhandler : s.handler = .selecting)
      (hreceive : s.msgChan.receive = some (msg, chan)) :
      StepCase s (.takeMsg msg) { s with msgChan := chan, handler := afterMsg msg }
  | takeErr {err chan} (hhandler : s.handler = .selecting)
      (hreceive : s.errChan.receive = some (err, chan)) :
      StepCase s (.takeErr err) { s with errChan := chan, handler := afterErr err }
  | timeout (hhandler : s.handler = .selecting) :
      StepCase s .timeout { s with handler := .reportingFailure (timeoutErr s.nodeKey) }
  | reportNewHealthCheck (hhandler : s.handler = .reportingCheck) :
      StepCase s .reportNewHealthCheck { s with handler := .selecting }
  | reportNodeFailure {err} (hhandler : s.handler = .reportingFailure err) :
      StepCase s .reportNodeFailure { s with handler := .returning (some err) }
  | multiplexerReturns {result} (hhandler : s.handler = .returning result) :
      StepCase s .multiplexerReturns { s with handler := .closingErr result }
  | closeErrChan {result} (hhandler : s.handler = .closingErr result) :
      StepCase s .closeErrChan { s with errChan := s.errChan.close, handler := .closingMsg result }
  | closeMsgChan {result} (hhandler : s.handler = .closingMsg result) :
      StepCase s .closeMsgChan { s with msgChan := s.msgChan.close, handler := .returned result }

/-- A send that happens goes through or panics. -/
theorem Stream.afterSend_eq_some {α : Type} {s t : Stream} {resume : Chan α channelBufferSize → Stream}
    {c : Chan α channelBufferSize} {v : α} (h : s.afterSend resume (c.send v) = some t) :
    (∃ chan, c.send v = .sent chan ∧ t = resume chan) ∨
      c.closed = true ∧ t = { s with listener := .panicked } := by
  cases hsend : c.send v with
  | sent chan =>
    rw [hsend] at h
    exact Or.inl ⟨chan, rfl, (Option.some.inj h).symm⟩
  | blocked =>
    rw [hsend] at h
    cases h
  | panics =>
    rw [hsend] at h
    exact Or.inr ⟨(Chan.send_eq_panics_iff c v).mp hsend, (Option.some.inj h).symm⟩

/-- The cases exhaust the steps. -/
theorem Stream.Step.cases {s t : Stream} {e : Event} (h : Stream.Step s e t) : Stream.StepCase s e t := by
  change s.step e = some t at h
  cases e with
  | setup peer arpCache arpCall =>
    simp only [Stream.step] at h
    split at h
    · split at h
      · cases h
        exact .setupDone ‹_› ‹_›
      · cases h
        exact .setupFailed ‹_› ‹_›
    · cases h
  | registerNode =>
    simp only [Stream.step, Option.ite_none_right_eq_some, Option.some.injEq] at h
    exact h.2 ▸ .registerNode h.1
  | spawnListener =>
    simp only [Stream.step, Option.ite_none_right_eq_some, Option.some.injEq] at h
    exact h.2 ▸ .spawnListener h.1
  | recv result =>
    simp only [Stream.step, Option.ite_none_right_eq_some, Option.some.injEq] at h
    exact h.2 ▸ .recv h.1.1 h.1.2
  | sendErr =>
    simp only [Stream.step] at h
    split at h
    · rcases Stream.afterSend_eq_some h with hsent | hpanic
      · obtain ⟨chan, hsend, rfl⟩ := hsent
        exact .sendLast ‹_› hsend
      · exact hpanic.2 ▸ .panicLast ‹_› hpanic.1
    · rcases Stream.afterSend_eq_some h with hsent | hpanic
      · obtain ⟨chan, hsend, rfl⟩ := hsent
        exact .sendErr ‹_› hsend
      · exact hpanic.2 ▸ .panicErr ‹_› hpanic.1
    · cases h
  | sendMsg =>
    simp only [Stream.step] at h
    split at h
    · rcases Stream.afterSend_eq_some h with hsent | hpanic
      · obtain ⟨chan, hsend, rfl⟩ := hsent
        exact .sendMsg ‹_› hsend
      · exact hpanic.2 ▸ .panicMsg ‹_› hpanic.1
    · cases h
  | takeMsg msg =>
    simp only [Stream.step] at h
    split at h
    · simp only [Option.ite_none_right_eq_some, Option.some.injEq] at h
      obtain ⟨⟨hhandler, rfl⟩, rfl⟩ := h
      exact .takeMsg hhandler ‹_›
    · cases h
  | takeErr err =>
    simp only [Stream.step] at h
    split at h
    · simp only [Option.ite_none_right_eq_some, Option.some.injEq] at h
      obtain ⟨⟨hhandler, rfl⟩, rfl⟩ := h
      exact .takeErr hhandler ‹_›
    · cases h
  | timeout =>
    simp only [Stream.step, Option.ite_none_right_eq_some, Option.some.injEq] at h
    exact h.2 ▸ .timeout h.1
  | reportNewHealthCheck =>
    simp only [Stream.step, Option.ite_none_right_eq_some, Option.some.injEq] at h
    exact h.2 ▸ .reportNewHealthCheck h.1
  | reportNodeFailure =>
    simp only [Stream.step] at h
    split at h
    · cases h
      exact .reportNodeFailure ‹_›
    · cases h
  | multiplexerReturns =>
    simp only [Stream.step] at h
    split at h
    · cases h
      exact .multiplexerReturns ‹_›
    · cases h
  | closeErrChan =>
    simp only [Stream.step] at h
    split at h
    · cases h
      exact .closeErrChan ‹_›
    · cases h
  | closeMsgChan =>
    simp only [Stream.step] at h
    split at h
    · cases h
      exact .closeMsgChan ‹_›
    · cases h

/-- Every case is a step. -/
theorem Stream.StepCase.step {s t : Stream} {e : Event} (h : Stream.StepCase s e t) : Stream.Step s e t := by
  change s.step e = some t
  cases h with
  | setupDone hhandler hsetup => simp only [Stream.step, hhandler, hsetup, if_true]
  | setupFailed hhandler hsetup => simp only [Stream.step, hhandler, hsetup, if_true]
  | registerNode hhandler => simp only [Stream.step, hhandler, if_true]
  | spawnListener hhandler => simp only [Stream.step, hhandler, if_true]
  | recv hlistener hallowed => simp only [Stream.step, hlistener, hallowed, and_self, if_true]
  | sendLast hlistener hsend => simp only [Stream.step, hlistener, hsend, Stream.afterSend]
  | sendErr hlistener hsend => simp only [Stream.step, hlistener, hsend, Stream.afterSend]
  | panicLast hlistener hclosed =>
    simp only [Stream.step, hlistener, (Chan.send_eq_panics_iff _ _).mpr hclosed, Stream.afterSend]
  | panicErr hlistener hclosed =>
    simp only [Stream.step, hlistener, (Chan.send_eq_panics_iff _ _).mpr hclosed, Stream.afterSend]
  | sendMsg hlistener hsend => simp only [Stream.step, hlistener, hsend, Stream.afterSend]
  | panicMsg hlistener hclosed =>
    simp only [Stream.step, hlistener, (Chan.send_eq_panics_iff _ _).mpr hclosed, Stream.afterSend]
  | takeMsg hhandler hreceive => simp only [Stream.step, hhandler, hreceive, and_self, if_true]
  | takeErr hhandler hreceive => simp only [Stream.step, hhandler, hreceive, and_self, if_true]
  | timeout hhandler => simp only [Stream.step, hhandler, if_true]
  | reportNewHealthCheck hhandler => simp only [Stream.step, hhandler, if_true]
  | reportNodeFailure hhandler => simp only [Stream.step, hhandler]
  | multiplexerReturns hhandler => simp only [Stream.step, hhandler]
  | closeErrChan hhandler => simp only [Stream.step, hhandler]
  | closeMsgChan hhandler => simp only [Stream.step, hhandler]

end GaleLB.LbNetwork
