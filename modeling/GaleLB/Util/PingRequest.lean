import GaleLB.Common.Channel
import GaleLB.Common.Potential
import GaleLB.LbNetwork.HealthStream

/-!
# The goroutines of a ping

`Ping` spawns a goroutine that writes the echo request, waits for its result, spawns a second
goroutine that reads one message, and waits for that result. Both goroutines report on one
channel of capacity one, and the context may end either wait. The socket is closed when the
call returns, so a goroutine that is still at work then fails and reports to nobody. The
read has no deadline: while the call waits, the write or the read returns or the context is
done only when the network or the caller's context lets it. What is said about the end of a
ping is that the goroutines take it there once these happen, not that they happen.

The second goroutine is spawned only after the first result was taken, so at most one
value is ever in the channel or on its way there: no goroutine blocks on its send, even when
the call has gone. A ping succeeds only when the request was written and the message read
after it is an echo reply, whichever request that reply answers.
-/

namespace GaleLB.Util

open Channel Transition LbNetwork

/-- A parsed message: its type, and the text that formatting the message gives. -/
structure IcmpMessage where
  type : UInt8
  text : String

/-- The type of an echo reply. -/
def icmpTypeEchoReply : UInt8 := 0

/-- Where the call is; after the socket is open, every return closes it first. -/
inductive PingPc where
  | listening
  | resolving
  | spawningSender
  | awaitingSend
  | spawningReceiver
  | awaitingReply
  | closing (result : Option GoError)
  | returned (result : Option GoError)

/-- Where one of the two goroutines is; `working` is the write or the read. -/
inductive WorkerPc where
  | notStarted
  | working
  | sending (result : Option GoError)
  | done

/-- A ping with its goroutines, its channel and its socket. -/
structure Ping where
  call : PingPc
  sender : WorkerPc
  receiver : WorkerPc
  errChan : Chan (Option GoError) 1
  connOpen : Bool

/-- A ping that has just been called. -/
def newPing : Ping := ⟨.listening, .notStarted, .notStarted, .make, false⟩

/-- The atomic actions of the call and of its goroutines, with what the network returns. -/
inductive PingEvent where
  | listenPacket (err : Option GoError)
  | resolveIPAddr (err : Option GoError)
  | spawnSender
  | write (err : Option GoError)
  | senderSend
  | spawnReceiver
  | read (reply : Except GoError IcmpMessage)
  | receiverSend
  | ctxDone (err : GoError)
  | takeErr
  | closeConn

/-- What the receiving goroutine makes of what it read. -/
def replyResult : Except GoError IcmpMessage → Option GoError
  | .error err => some err
  | .ok parsedMsg =>
    if parsedMsg.type = icmpTypeEchoReply then none
    else some (GoError.new ("received unexpected ICMP message: " ++ parsedMsg.text))

/-- One event, where it is enabled; nothing succeeds on a closed socket, and a send waits for room. -/
def Ping.step (s : Ping) : PingEvent → Option Ping
  | .listenPacket err =>
    match s.call, err with
    | .listening, none => some { s with call := .resolving, connOpen := true }
    | .listening, some err => some { s with call := .returned (some err) }
    | _, _ => none
  | .resolveIPAddr err =>
    match s.call, err with
    | .resolving, none => some { s with call := .spawningSender }
    | .resolving, some err => some { s with call := .closing (some err) }
    | _, _ => none
  | .spawnSender =>
    match s.call with
    | .spawningSender => some { s with call := .awaitingSend, sender := .working }
    | _ => none
  | .write err =>
    match s.sender with
    | .working => if s.connOpen ∨ err.isSome then some { s with sender := .sending err } else none
    | _ => none
  | .senderSend =>
    match s.sender with
    | .sending result =>
      match s.errChan.send result with
      | .sent chan => some { s with sender := .done, errChan := chan }
      | _ => none
    | _ => none
  | .spawnReceiver =>
    match s.call with
    | .spawningReceiver => some { s with call := .awaitingReply, receiver := .working }
    | _ => none
  | .read reply =>
    match s.receiver with
    | .working =>
      if s.connOpen ∨ ¬ reply.isOk then some { s with receiver := .sending (replyResult reply) } else none
    | _ => none
  | .receiverSend =>
    match s.receiver with
    | .sending result =>
      match s.errChan.send result with
      | .sent chan => some { s with receiver := .done, errChan := chan }
      | _ => none
    | _ => none
  | .ctxDone err =>
    match s.call with
    | .awaitingSend | .awaitingReply => some { s with call := .closing (some err) }
    | _ => none
  | .takeErr =>
    match s.call, s.errChan.receive with
    | .awaitingSend, some (none, chan) => some { s with call := .spawningReceiver, errChan := chan }
    | .awaitingSend, some (some err, chan) => some { s with call := .closing (some err), errChan := chan }
    | .awaitingReply, some (result, chan) => some { s with call := .closing result, errChan := chan }
    | _, _ => none
  | .closeConn =>
    match s.call with
    | .closing result => some { s with call := .returned result, connOpen := false }
    | _ => none

/-- The steps of a ping as a relation. -/
abbrev Ping.Step : Ping → PingEvent → Ping → Prop := Computes Ping.step

/-- Everything that one event can do to a ping. -/
inductive Ping.StepCase (s : Ping) : PingEvent → Ping → Prop
  | listened (hcall : s.call = .listening) :
      StepCase s (.listenPacket none) { s with call := .resolving, connOpen := true }
  | listenFailed {err} (hcall : s.call = .listening) :
      StepCase s (.listenPacket (some err)) { s with call := .returned (some err) }
  | resolved (hcall : s.call = .resolving) :
      StepCase s (.resolveIPAddr none) { s with call := .spawningSender }
  | resolveFailed {err} (hcall : s.call = .resolving) :
      StepCase s (.resolveIPAddr (some err)) { s with call := .closing (some err) }
  | spawnSender (hcall : s.call = .spawningSender) :
      StepCase s .spawnSender { s with call := .awaitingSend, sender := .working }
  | write {err} (hsender : s.sender = .working) (hconn : s.connOpen ∨ err.isSome) :
      StepCase s (.write err) { s with sender := .sending err }
  | senderSend {result chan} (hsender : s.sender = .sending result)
      (hsend : s.errChan.send result = .sent chan) :
      StepCase s .senderSend { s with sender := .done, errChan := chan }
  | spawnReceiver (hcall : s.call = .spawningReceiver) :
      StepCase s .spawnReceiver { s with call := .awaitingReply, receiver := .working }
  | read {reply} (hreceiver : s.receiver = .working) (hconn : s.connOpen ∨ ¬ reply.isOk) :
      StepCase s (.read reply) { s with receiver := .sending (replyResult reply) }
  | receiverSend {result chan} (hreceiver : s.receiver = .sending result)
      (hsend : s.errChan.send result = .sent chan) :
      StepCase s .receiverSend { s with receiver := .done, errChan := chan }
  | ctxDone {err} (hcall : s.call = .awaitingSend ∨ s.call = .awaitingReply) :
      StepCase s (.ctxDone err) { s with call := .closing (some err) }
  | takeSent {chan} (hcall : s.call = .awaitingSend) (hreceive : s.errChan.receive = some (none, chan)) :
      StepCase s .takeErr { s with call := .spawningReceiver, errChan := chan }
  | takeSendErr {err chan} (hcall : s.call = .awaitingSend)
      (hreceive : s.errChan.receive = some (some err, chan)) :
      StepCase s .takeErr { s with call := .closing (some err), errChan := chan }
  | takeReply {result chan} (hcall : s.call = .awaitingReply)
      (hreceive : s.errChan.receive = some (result, chan)) :
      StepCase s .takeErr { s with call := .closing result, errChan := chan }
  | closeConn {result} (hcall : s.call = .closing result) :
      StepCase s .closeConn { s with call := .returned result, connOpen := false }

variable {s t : Ping} {e : PingEvent} {events : List PingEvent}

/-- The cases exhaust the steps. -/
theorem Ping.Step.cases (h : Ping.Step s e t) : Ping.StepCase s e t := by
  cases e with
  | listenPacket err =>
    simp only [Computes, Ping.step] at h
    split at h <;> cases h
    · exact .listened ‹_›
    · exact .listenFailed ‹_›
  | resolveIPAddr err =>
    simp only [Computes, Ping.step] at h
    split at h <;> cases h
    · exact .resolved ‹_›
    · exact .resolveFailed ‹_›
  | spawnSender =>
    simp only [Computes, Ping.step] at h
    split at h <;> cases h
    exact .spawnSender ‹_›
  | write err =>
    simp only [Computes, Ping.step] at h
    split at h
    · split at h <;> cases h
      exact .write ‹_› ‹_›
    · cases h
  | senderSend =>
    simp only [Computes, Ping.step] at h
    split at h
    · split at h <;> cases h
      exact .senderSend ‹_› ‹_›
    · cases h
  | spawnReceiver =>
    simp only [Computes, Ping.step] at h
    split at h <;> cases h
    exact .spawnReceiver ‹_›
  | read reply =>
    simp only [Computes, Ping.step] at h
    split at h
    · split at h <;> cases h
      exact .read ‹_› ‹_›
    · cases h
  | receiverSend =>
    simp only [Computes, Ping.step] at h
    split at h
    · split at h <;> cases h
      exact .receiverSend ‹_› ‹_›
    · cases h
  | ctxDone err =>
    simp only [Computes, Ping.step] at h
    split at h <;> cases h
    · exact .ctxDone (Or.inl ‹_›)
    · exact .ctxDone (Or.inr ‹_›)
  | takeErr =>
    simp only [Computes, Ping.step] at h
    split at h <;> cases h
    · exact .takeSent ‹_› ‹_›
    · exact .takeSendErr ‹_› ‹_›
    · exact .takeReply ‹_› ‹_›
  | closeConn =>
    simp only [Computes, Ping.step] at h
    split at h <;> cases h
    exact .closeConn ‹_›

/-- Every case is a step. -/
theorem Ping.StepCase.step (h : Ping.StepCase s e t) : Ping.Step s e t := by
  cases h with
  | write hsender hconn => simp only [Computes, Ping.step, hsender, if_pos hconn]
  | read hreceiver hconn => simp only [Computes, Ping.step, hreceiver, if_pos hconn]
  | ctxDone hcall => rcases hcall with hcall | hcall <;> simp only [Computes, Ping.step, hcall]
  | _ => simp only [Computes, Ping.step, *]

/-- The value that a goroutine has still to send. -/
def WorkerPc.owed : WorkerPc → ℕ
  | .working | .sending _ => 1
  | _ => 0

/-- The values in the channel and on their way there. -/
def Ping.outstanding (s : Ping) : ℕ := s.errChan.buf.length + s.sender.owed + s.receiver.owed

/-- At most one value is outstanding, and none when a goroutine is about to be spawned. -/
structure Ping.Inv (s : Ping) : Prop where
  outstanding : s.outstanding ≤ 1
  quiet : s.call = .listening ∨ s.call = .resolving ∨ s.call = .spawningSender ∨
    s.call = .spawningReceiver → s.outstanding = 0
  opened : s.errChan.closed = false

/-- A send moves a value from a goroutine into the channel. -/
theorem length_of_send {chan chan' : Chan (Option GoError) 1} {result : Option GoError}
    (hsend : chan.send result = .sent chan') : chan'.buf.length = chan.buf.length + 1 := by
  rw [((Chan.send_eq_sent_iff _ _ _).mp hsend).2.2.1, List.length_append, List.length_singleton]

/-- A receive takes a value from the channel. -/
theorem length_of_receive {chan chan' : Chan (Option GoError) 1} {result : Option GoError}
    (hreceive : chan.receive = some (result, chan')) : chan.buf.length = chan'.buf.length + 1 := by
  rw [((Chan.receive_eq_some_iff _ _ _).mp hreceive).1, List.length_cons]

/-- Every step keeps the invariant. -/
theorem Ping.Inv.step (h : s.Inv) (hstep : Ping.Step s e t) : t.Inv := by
  obtain ⟨hone, hquiet, hopen⟩ := h
  unfold Ping.outstanding at hone hquiet
  cases hstep.cases with
  | listened hcall => exact ⟨hone, fun _ => hquiet (Or.inl hcall), hopen⟩
  | listenFailed => exact ⟨hone, (by rintro (h | h | h | h) <;> cases h), hopen⟩
  | resolved hcall => exact ⟨hone, fun _ => hquiet (Or.inr (Or.inl hcall)), hopen⟩
  | resolveFailed => exact ⟨hone, (by rintro (h | h | h | h) <;> cases h), hopen⟩
  | spawnSender hcall =>
    have hnone := hquiet (Or.inr (Or.inr (Or.inl hcall)))
    refine ⟨?_, (by rintro (h | h | h | h) <;> cases h), hopen⟩
    change s.errChan.buf.length + 1 + s.receiver.owed ≤ 1
    omega
  | write hsender =>
    rw [hsender] at hone hquiet
    exact ⟨hone, hquiet, hopen⟩
  | senderSend hsender hsend =>
    have hlength := length_of_send hsend
    rw [hsender] at hone hquiet
    simp only [WorkerPc.owed] at hone hquiet
    refine ⟨?_, fun hcall => ?_, ((Chan.send_eq_sent_iff _ _ _).mp hsend).2.2.2⟩
    · simp only [Ping.outstanding, WorkerPc.owed]
      omega
    · have := hquiet hcall
      omega
  | spawnReceiver hcall =>
    have hnone := hquiet (Or.inr (Or.inr (Or.inr hcall)))
    refine ⟨?_, (by rintro (h | h | h | h) <;> cases h), hopen⟩
    change s.errChan.buf.length + s.sender.owed + 1 ≤ 1
    omega
  | read hreceiver =>
    rw [hreceiver] at hone hquiet
    exact ⟨hone, hquiet, hopen⟩
  | receiverSend hreceiver hsend =>
    have hlength := length_of_send hsend
    rw [hreceiver] at hone hquiet
    simp only [WorkerPc.owed] at hone hquiet
    refine ⟨?_, fun hcall => ?_, ((Chan.send_eq_sent_iff _ _ _).mp hsend).2.2.2⟩
    · simp only [Ping.outstanding, WorkerPc.owed]
      omega
    · have := hquiet hcall
      omega
  | ctxDone => exact ⟨hone, (by rintro (h | h | h | h) <;> cases h), hopen⟩
  | takeSent _ hreceive =>
    -- The value taken was the one outstanding.
    have hlength := length_of_receive hreceive
    refine ⟨?_, fun _ => ?_, ((Chan.receive_eq_some_iff _ _ _).mp hreceive).2.trans hopen⟩ <;>
      simp only [Ping.outstanding] <;> omega
  | takeSendErr _ hreceive =>
    have hlength := length_of_receive hreceive
    refine ⟨?_, (by rintro (h | h | h | h) <;> cases h),
      ((Chan.receive_eq_some_iff _ _ _).mp hreceive).2.trans hopen⟩
    simp only [Ping.outstanding]
    omega
  | takeReply _ hreceive =>
    have hlength := length_of_receive hreceive
    refine ⟨?_, (by rintro (h | h | h | h) <;> cases h),
      ((Chan.receive_eq_some_iff _ _ _).mp hreceive).2.trans hopen⟩
    simp only [Ping.outstanding]
    omega
  | closeConn => exact ⟨hone, (by rintro (h | h | h | h) <;> cases h), hopen⟩

/-- The actions that are left to a goroutine. -/
def WorkerPc.potential : WorkerPc → ℕ
  | .working => 2
  | .sending _ => 1
  | _ => 0

/-- The actions that are left to the call, those of the goroutines it has still to spawn included. -/
def PingPc.potential : PingPc → ℕ
  | .listening => 11
  | .resolving => 10
  | .spawningSender => 9
  | .awaitingSend => 6
  | .spawningReceiver => 5
  | .awaitingReply => 2
  | .closing _ => 1
  | .returned _ => 0

/-- The actions that are left to a ping. -/
def Ping.potential (s : Ping) : ℕ := s.call.potential + s.sender.potential + s.receiver.potential

/-- Every step uses up an action. -/
theorem ping_pays : Pays Ping.Step Ping.Inv Ping.potential (fun _ => 0) where
  keeps _ _ _ h hstep := h.step hstep
  costs s e t h hstep := by
    unfold Ping.potential
    cases hstep.cases with
    | listened hcall | listenFailed hcall | resolved hcall | resolveFailed hcall | takeSent hcall _
    | takeSendErr hcall _ | takeReply hcall _ | closeConn hcall =>
      simp only [hcall, PingPc.potential]
      omega
    | spawnSender hcall | spawnReceiver hcall =>
      simp only [hcall, PingPc.potential, WorkerPc.potential]
      omega
    | write hworker | senderSend hworker | read hworker | receiverSend hworker =>
      simp only [hworker, WorkerPc.potential]
      omega
    | ctxDone hcall =>
      rcases hcall with hcall | hcall <;> simp only [hcall, PingPc.potential] <;> omega

/-- A goroutine whose send finds room in the channel is not left with it. -/
theorem Ping.Inv.exists_sent (h : s.Inv) (result : Option GoError) (hempty : s.errChan.buf.length = 0) :
    ∃ chan, s.errChan.send result = .sent chan := by
  by_contra hnone
  push Not at hnone
  have hfull := Chan.length_of_ne_sent h.opened hnone
  omega

/-- The goroutine is not running. -/
def WorkerPc.Gone (worker : WorkerPc) : Prop := worker = .notStarted ∨ worker = .done

/-- When nothing is left to do, the call has returned and both goroutines are gone. -/
theorem Ping.Inv.of_stuck (h : s.Inv) (hstuck : Stuck Ping.Step (fun _ => True) s) :
    (∃ result, s.call = .returned result) ∧ s.sender.Gone ∧ s.receiver.Gone := by
  have hnot {e : PingEvent} {t : Ping} (hcase : Ping.StepCase s e t) : False := hstuck e t trivial hcase.step
  have hone := h.outstanding
  unfold Ping.outstanding at hone
  refine ⟨?_, ?_, ?_⟩
  · cases hcall : s.call with
    | listening => exact (hnot (.listened hcall)).elim
    | resolving => exact (hnot (.resolved hcall)).elim
    | spawningSender => exact (hnot (.spawnSender hcall)).elim
    | awaitingSend => exact (hnot (e := .ctxDone eof) (.ctxDone (Or.inl hcall))).elim
    | spawningReceiver => exact (hnot (.spawnReceiver hcall)).elim
    | awaitingReply => exact (hnot (e := .ctxDone eof) (.ctxDone (Or.inr hcall))).elim
    | closing => exact (hnot (.closeConn hcall)).elim
    | returned result => exact ⟨result, rfl⟩
  · cases hsender : s.sender with
    | notStarted => exact Or.inl rfl
    | working => exact (hnot (e := .write (some eof)) (.write hsender (Or.inr rfl))).elim
    | sending result =>
      simp only [hsender, WorkerPc.owed] at hone
      obtain ⟨chan, hsend⟩ := h.exists_sent result (by omega)
      exact (hnot (.senderSend hsender hsend)).elim
    | done => exact Or.inr rfl
  · cases hreceiver : s.receiver with
    | notStarted => exact Or.inl rfl
    | working => exact (hnot (e := .read (.error eof)) (.read hreceiver (Or.inr nofun))).elim
    | sending result =>
      simp only [hreceiver, WorkerPc.owed] at hone
      obtain ⟨chan, hsend⟩ := h.exists_sent result (by omega)
      exact (hnot (.receiverSend hreceiver hsend)).elim
    | done => exact Or.inr rfl

/-- A new ping owes nothing. -/
theorem newPing_inv : newPing.Inv := ⟨Nat.zero_le _, fun _ => rfl, rfl⟩

/-- A ping takes at most eleven actions, can always be brought to its end, and at its end the call has
returned and neither goroutine is left behind. -/
theorem ping_ends (hrun : Run Ping.Step newPing events s) :
    events.length ≤ 11 ∧
      (∃ later t, Run Ping.Step s later t ∧ Stuck Ping.Step (fun _ => True) t) ∧
      (Stuck Ping.Step (fun _ => True) s →
        (∃ result, s.call = .returned result) ∧ s.sender.Gone ∧ s.receiver.Gone) := by
  have hinv := ping_pays.run newPing_inv hrun
  refine ⟨?_, ?_, hinv.of_stuck⟩
  · exact ping_pays.length_le_potential newPing_inv hrun
  · obtain ⟨later, t, hlater, -, hstuck⟩ := ping_pays.exists_stuck (fun _ _ => rfl) hinv
    exact ⟨later, t, hlater, hstuck⟩

/-- A ping whose context ends while it waits for the reply leaves its second goroutine to fail. -/
def expiredPingEvents : List PingEvent :=
  [.listenPacket none, .resolveIPAddr none, .spawnSender, .write none, .senderSend, .takeErr, .spawnReceiver,
    .ctxDone ⟨.deadlineExceeded, "context deadline exceeded"⟩, .closeConn,
    .read (.error (GoError.new "use of closed network connection")), .receiverSend]

/-- The reading goroutine of an expired ping ends, although nobody takes its error. -/
theorem expiredPing_ends : ∃ s, Run Ping.Step newPing expiredPingEvents s ∧
    s.errChan.buf.length = 1 ∧ s.receiver.Gone := by
  have hrun : ∃ s, Run Ping.Step newPing expiredPingEvents s ∧ s.errChan.buf.length = 1 ∧
      s.potential = 0 := ⟨_, run_of_replay expiredPingEvents rfl, rfl, rfl⟩
  obtain ⟨s, hs, hbuf, hspent⟩ := hrun
  have hinv := ping_pays.run newPing_inv hs
  have hstuck : Stuck Ping.Step (fun _ => True) s := fun e t _ hstep => by
    have := ping_pays.costs s e t hinv hstep
    omega
  exact ⟨s, hs, hbuf, ((ping_ends hs).2.2 hstuck).2.2⟩

/-- What a write returned. -/
def PingEvent.written : PingEvent → Option (Option GoError)
  | .write err => some err
  | _ => none

/-- What a read returned. -/
def PingEvent.received : PingEvent → Option (Except GoError IcmpMessage)
  | .read reply => some reply
  | _ => none

/-- The results of the writes. -/
def writes (events : List PingEvent) : List (Option GoError) := events.filterMap PingEvent.written

/-- The results of the reads. -/
def reads (events : List PingEvent) : List (Except GoError IcmpMessage) := events.filterMap PingEvent.received

/-- The results of the writes after one more event. -/
theorem writes_concat (events : List PingEvent) (e : PingEvent) :
    writes (events ++ [e]) = writes events ++ e.written.toList := by
  unfold writes
  rw [List.filterMap_append]
  cases h : e.written <;> simp [h]

/-- The results of the reads after one more event. -/
theorem reads_concat (events : List PingEvent) (e : PingEvent) :
    reads (events ++ [e]) = reads events ++ e.received.toList := by
  unfold reads
  rw [List.filterMap_append]
  cases h : e.received <;> simp [h]

/-- The request was written, once and without an error. -/
def Sent (events : List PingEvent) : Prop := writes events = [none]

/-- One message was read, an echo reply. -/
def Replied (events : List PingEvent) : Prop :=
  ∃ parsedMsg : IcmpMessage, reads events = [.ok parsedMsg] ∧ parsedMsg.type = icmpTypeEchoReply

/-- The receiving goroutine reports no error exactly on an echo reply. -/
theorem replyResult_eq_none_iff (reply : Except GoError IcmpMessage) :
    replyResult reply = none ↔ ∃ parsedMsg, reply = .ok parsedMsg ∧ parsedMsg.type = icmpTypeEchoReply := by
  cases reply with
  | error err => simp [replyResult]
  | ok parsedMsg => simp [replyResult]

/-- The call has not yet spawned the receiving goroutine. -/
def PingPc.early : PingPc → Bool
  | .listening | .resolving | .spawningSender | .awaitingSend | .spawningReceiver => true
  | _ => false

/-- The goroutines start in order, the second one after the first has reported. -/
structure Ping.Ordered (s : Ping) : Prop where
  sender : s.call = .listening ∨ s.call = .resolving ∨ s.call = .spawningSender → s.sender = .notStarted
  early : s.call.early → s.receiver = .notStarted
  late : s.call = .awaitingReply → s.receiver ≠ .notStarted
  served : s.receiver ≠ .notStarted → s.sender.owed = 0

/-- Every step keeps the goroutines in order. -/
theorem Ping.Ordered.step (h : s.Ordered) (hinv : s.Inv) (hstep : Ping.Step s e t) : t.Ordered := by
  obtain ⟨hsender, hearly, hlate, hserved⟩ := h
  cases hstep.cases with
  | listened hcall =>
    exact ⟨fun _ => hsender (Or.inl hcall), fun _ => hearly (by rw [hcall]; rfl), nofun, hserved⟩
  | listenFailed | resolveFailed | ctxDone | takeSendErr | takeReply | closeConn =>
    exact ⟨(by rintro (h | h | h) <;> cases h), nofun, nofun, hserved⟩
  | resolved hcall =>
    exact ⟨fun _ => hsender (Or.inr (Or.inl hcall)), fun _ => hearly (by rw [hcall]; rfl), nofun, hserved⟩
  | spawnSender hcall =>
    have hfresh := hearly (by rw [hcall]; rfl)
    exact ⟨(by rintro (h | h | h) <;> cases h), fun _ => hfresh, nofun, fun hne => (hne hfresh).elim⟩
  | write hworker =>
    refine ⟨fun hcall => ?_, hearly, hlate, fun hne => ?_⟩
    · rw [hsender hcall] at hworker
      cases hworker
    · have := hserved hne
      rw [hworker] at this
      cases this
  | senderSend hworker =>
    refine ⟨fun hcall => ?_, hearly, hlate, fun _ => rfl⟩
    rw [hsender hcall] at hworker
    cases hworker
  | spawnReceiver hcall =>
    refine ⟨(by rintro (h | h | h) <;> cases h), nofun, fun _ => nofun, fun _ => ?_⟩
    have hnone := hinv.quiet (Or.inr (Or.inr (Or.inr hcall)))
    unfold Ping.outstanding at hnone
    change s.sender.owed = 0
    omega
  | read hworker =>
    refine ⟨hsender, fun hcall => ?_, fun _ => nofun, fun _ => hserved (by rw [hworker]; nofun)⟩
    rw [hearly hcall] at hworker
    cases hworker
  | receiverSend hworker =>
    refine ⟨hsender, fun hcall => ?_, fun _ => nofun, fun _ => hserved (by rw [hworker]; nofun)⟩
    rw [hearly hcall] at hworker
    cases hworker
  | takeSent hcall =>
    exact ⟨(by rintro (h | h | h) <;> cases h), fun _ => hearly (by rw [hcall]; rfl), nofun, hserved⟩

/-- A success on its way to the caller stems from a written request, or from an echo reply after it. -/
structure Ping.Traced (events : List PingEvent) (s : Ping) : Prop where
  unwritten : s.sender = .notStarted ∨ s.sender = .working → writes events = []
  written : s.sender = .sending none → Sent events
  unread : s.receiver = .notStarted ∨ s.receiver = .working → reads events = []
  received : s.receiver = .sending none → Replied events
  sent : s.call = .spawningReceiver ∨ s.receiver ≠ .notStarted → Sent events
  firstTaken : none ∈ s.errChan.buf → s.receiver = .notStarted → Sent events
  secondTaken : none ∈ s.errChan.buf → s.receiver ≠ .notStarted → Replied events
  result : s.call = .closing none ∨ s.call = .returned none → Sent events ∧ Replied events

/-- An event that is neither a write nor a read leaves a traced ping traced. -/
theorem Ping.Traced.mono (h : s.Traced events) (hwritten : e.written = none) (hreceived : e.received = none) :
    s.Traced (events ++ [e]) := by
  have hwrites : writes (events ++ [e]) = writes events := by
    rw [writes_concat, hwritten, Option.toList_none, List.append_nil]
  have hreads : reads (events ++ [e]) = reads events := by
    rw [reads_concat, hreceived, Option.toList_none, List.append_nil]
  obtain ⟨h₁, h₂, h₃, h₄, h₅, h₆, h₇, h₈⟩ := h
  constructor <;> simp only [Sent, Replied, hwrites, hreads] <;> assumption

/-- An action of the call leaves a traced ping traced, when the call goes on or succeeds for a reason. -/
theorem Ping.Traced.ofCall (h : s.Traced events) (hsender : t.sender = s.sender)
    (hreceiver : t.receiver = s.receiver) (hbuf : t.errChan.buf ⊆ s.errChan.buf)
    (hspawn : t.call = .spawningReceiver → Sent events)
    (hresult : t.call = .closing none ∨ t.call = .returned none → Sent events ∧ Replied events) :
    t.Traced events where
  unwritten := hsender ▸ h.unwritten
  written := hsender ▸ h.written
  unread := hreceiver ▸ h.unread
  received := hreceiver ▸ h.received
  sent hor := hor.elim hspawn fun hne => h.sent (Or.inr (hreceiver ▸ hne))
  firstTaken hmem := hreceiver ▸ h.firstTaken (hbuf hmem)
  secondTaken hmem := hreceiver ▸ h.secondTaken (hbuf hmem)
  result := hresult

/-- While a goroutine owes a value, the channel is empty. -/
theorem Ping.Inv.buf_eq_nil (h : s.Inv) (howed : s.sender.owed = 1 ∨ s.receiver.owed = 1) :
    s.errChan.buf = [] := by
  have hone := h.outstanding
  unfold Ping.outstanding at hone
  exact List.eq_nil_of_length_eq_zero (by omega)

/-- While the first goroutine owes a value, the second one is neither there nor about to be spawned. -/
theorem Ping.Inv.not_second (h : s.Inv) (hordered : s.Ordered) (howed : s.sender.owed = 1) :
    s.call ≠ .spawningReceiver ∧ s.receiver = .notStarted := by
  constructor
  · intro hcall
    have hnone := h.quiet (Or.inr (Or.inr (Or.inr hcall)))
    unfold Ping.outstanding at hnone
    omega
  · by_contra hne
    have := hordered.served hne
    omega

/-- Every step keeps a ping traced. -/
theorem Ping.Traced.step (h : s.Traced events) (hinv : s.Inv) (hordered : s.Ordered) (hstep : Ping.Step s e t) :
    t.Traced (events ++ [e]) := by
  cases hstep.cases with
  | listened | listenFailed | resolved | resolveFailed | ctxDone =>
    exact (h.mono rfl rfl).ofCall rfl rfl (List.Subset.refl _) nofun (by rintro (h | h) <;> cases h)
  | spawnSender hcall =>
    have h' := h.mono (e := .spawnSender) rfl rfl
    have hfresh := hordered.early (by rw [hcall]; rfl)
    exact ⟨fun _ => h'.unwritten (Or.inl (hordered.sender (Or.inr (Or.inr hcall)))), nofun, h'.unread, h'.received,
      (fun hor => hor.elim nofun fun hne => (hne hfresh).elim), h'.firstTaken, h'.secondTaken,
      (by rintro (h | h) <;> cases h)⟩
  | @write err hworker =>
    have howed : s.sender.owed = 1 := by rw [hworker]; rfl
    have hnone : writes events = [] := h.unwritten (Or.inr hworker)
    have hwrites : writes (events ++ [.write err]) = [err] := by rw [writes_concat, hnone]; rfl
    have hreads : reads (events ++ [.write err]) = reads events := by
      rw [reads_concat]
      exact List.append_nil _
    obtain ⟨hcall, hfresh⟩ := hinv.not_second hordered howed
    have hempty (result : Option GoError) : result ∉ s.errChan.buf := by
      rw [hinv.buf_eq_nil (Or.inl howed)]
      exact List.not_mem_nil
    refine ⟨(by rintro (h | h) <;> cases h), fun hpc => ?_, fun hor => ?_, fun hpc => ?_,
      fun hor => hor.elim (fun hpc => (hcall hpc).elim) fun hne => (hne hfresh).elim,
      fun hmem => (hempty _ hmem).elim, fun hmem => (hempty _ hmem).elim, fun hor => ?_⟩
    · cases hpc
      exact hwrites
    · rw [hreads]
      exact h.unread hor
    · rw [show s.receiver = .notStarted from hfresh] at hpc
      cases hpc
    · -- A call that succeeds has seen the write, which is only made now.
      have hsent := (h.result hor).1
      rw [Sent, hnone] at hsent
      cases hsent
  | @senderSend result chan hworker hsend =>
    have h' := h.mono (e := .senderSend) rfl rfl
    have howed : s.sender.owed = 1 := by rw [hworker]; rfl
    obtain ⟨hcall, hfresh⟩ := hinv.not_second hordered howed
    refine ⟨(by rintro (h | h) <;> cases h), nofun, h'.unread, h'.received, h'.sent, fun hmem _ => ?_,
      fun _ hne => (hne hfresh).elim, h'.result⟩
    rw [((Chan.send_eq_sent_iff _ _ _).mp hsend).2.2.1, hinv.buf_eq_nil (Or.inl howed), List.nil_append,
      List.mem_singleton] at hmem
    exact h'.written (hmem ▸ hworker)
  | spawnReceiver hcall =>
    have h' := h.mono (e := .spawnReceiver) rfl rfl
    refine ⟨h'.unwritten, h'.written,
      fun _ => h'.unread (Or.inl (hordered.early (by rw [hcall]; rfl))), nofun,
      fun _ => h'.sent (Or.inl hcall), nofun, fun hmem _ => ?_, (by rintro (h | h) <;> cases h)⟩
    have hnone := hinv.quiet (Or.inr (Or.inr (Or.inr hcall)))
    unfold Ping.outstanding at hnone
    have hempty : s.errChan.buf = [] := List.eq_nil_of_length_eq_zero (by omega)
    exact (List.not_mem_nil (hempty ▸ hmem)).elim
  | @read reply hworker =>
    have howed : s.receiver.owed = 1 := by rw [hworker]; rfl
    have hnone : reads events = [] := h.unread (Or.inr hworker)
    have hreads : reads (events ++ [.read reply]) = [reply] := by rw [reads_concat, hnone]; rfl
    have hwrites : writes (events ++ [.read reply]) = writes events := by
      rw [writes_concat]
      exact List.append_nil _
    have hempty (result : Option GoError) : result ∉ s.errChan.buf := by
      rw [hinv.buf_eq_nil (Or.inr howed)]
      exact List.not_mem_nil
    have hsent : Sent events := h.sent (Or.inr (by rw [hworker]; nofun))
    refine ⟨?_, ?_, (by rintro (h | h) <;> cases h), fun hpc => ?_, fun _ => hwrites.trans hsent,
      fun hmem => (hempty _ hmem).elim, fun hmem => (hempty _ hmem).elim, fun hor => ?_⟩
    · rw [hwrites]
      exact h.unwritten
    · rw [Sent, hwrites]
      exact h.written
    · obtain ⟨parsedMsg, rfl, htype⟩ := (replyResult_eq_none_iff reply).mp (WorkerPc.sending.inj hpc)
      exact ⟨parsedMsg, hreads, htype⟩
    · obtain ⟨parsedMsg, hread, -⟩ := (h.result hor).2
      rw [hnone] at hread
      cases hread
  | @receiverSend result chan hworker hsend =>
    have h' := h.mono (e := .receiverSend) rfl rfl
    have hstarted : s.receiver ≠ .notStarted := by rw [hworker]; nofun
    refine ⟨h'.unwritten, h'.written, (by rintro (h | h) <;> cases h), nofun, fun _ => h'.sent (Or.inr hstarted),
      nofun, fun hmem _ => ?_, h'.result⟩
    rw [((Chan.send_eq_sent_iff _ _ _).mp hsend).2.2.1, List.mem_append, List.mem_singleton] at hmem
    rcases hmem with hmem | hmem
    · exact h'.secondTaken hmem hstarted
    · exact h'.received (hmem ▸ hworker)
  | takeSent hcall hreceive =>
    have h' := h.mono (e := .takeErr) rfl rfl
    have hbuf := ((Chan.receive_eq_some_iff _ _ _).mp hreceive).1
    have hsent := h'.firstTaken (hbuf ▸ List.mem_cons_self) (hordered.early (by rw [hcall]; rfl))
    exact h'.ofCall rfl rfl (hbuf ▸ List.subset_cons_self _ _) (fun _ => hsent) (by rintro (h | h) <;> cases h)
  | takeSendErr _ hreceive =>
    have hbuf := ((Chan.receive_eq_some_iff _ _ _).mp hreceive).1
    exact (h.mono rfl rfl).ofCall rfl rfl (hbuf ▸ List.subset_cons_self _ _) nofun
      (by rintro (h | h) <;> cases h)
  | takeReply hcall hreceive =>
    have h' := h.mono (e := .takeErr) rfl rfl
    have hbuf := ((Chan.receive_eq_some_iff _ _ _).mp hreceive).1
    have hstarted := hordered.late hcall
    refine h'.ofCall rfl rfl (hbuf ▸ List.subset_cons_self _ _) nofun ?_
    rintro (hpc | hpc) <;> cases hpc
    exact ⟨h'.sent (Or.inr hstarted), h'.secondTaken (hbuf ▸ List.mem_cons_self) hstarted⟩
  | closeConn hcall =>
    have h' := h.mono (e := .closeConn) rfl rfl
    refine h'.ofCall rfl rfl (List.Subset.refl _) nofun ?_
    rintro (hpc | hpc) <;> cases hpc
    exact h'.result (Or.inl hcall)

/-- In every run the goroutines start in order and a success is traced. -/
theorem run_traced (hrun : Run Ping.Step newPing events s) : s.Ordered ∧ s.Traced events := by
  induction hrun with
  | nil =>
    exact ⟨⟨fun _ => rfl, fun _ => rfl, nofun, fun hne => (hne rfl).elim⟩, fun _ => rfl, nofun, fun _ => rfl, nofun,
      fun hor => hor.elim nofun fun hne => (hne rfl).elim, nofun, nofun, by rintro (h | h) <;> cases h⟩
  | snoc hrun hlast ih =>
    have hinv := ping_pays.run newPing_inv hrun
    exact ⟨ih.1.step hinv hlast, ih.2.step hinv ih.1 hlast⟩

/-- The events of a ping that reads an answer in time. -/
def answeredPingEvents (parsedMsg : IcmpMessage) : List PingEvent :=
  [.listenPacket none, .resolveIPAddr none, .spawnSender, .write none, .senderSend, .takeErr, .spawnReceiver,
    .read (.ok parsedMsg), .receiverSend, .takeErr, .closeConn]

/-- An echo reply makes a ping succeed. -/
theorem exists_run_of_echoReply (parsedMsg : IcmpMessage) (htype : parsedMsg.type = icmpTypeEchoReply) :
    ∃ s, Run Ping.Step newPing (answeredPingEvents parsedMsg) s ∧ s.call = .returned none := by
  have hresult : replyResult (.ok parsedMsg) = none := (replyResult_eq_none_iff _).mpr ⟨parsedMsg, rfl, htype⟩
  have hread : Run Ping.Step newPing [.listenPacket none, .resolveIPAddr none, .spawnSender, .write none,
      .senderSend, .takeErr, .spawnReceiver, .read (.ok parsedMsg)]
      ⟨.awaitingReply, .done, .sending (replyResult (.ok parsedMsg)), .make, true⟩ := run_of_replay _ rfl
  rw [hresult] at hread
  have hrest : Run Ping.Step ⟨.awaitingReply, .done, .sending none, .make, true⟩
      [.receiverSend, .takeErr, .closeConn] ⟨.returned none, .done, .done, .make, false⟩ := run_of_replay _ rfl
  exact ⟨_, hread.append hrest, rfl⟩

/-- A ping can succeed with given results of its writes and reads exactly when the one write succeeded and
the one message read is an echo reply, wherever it comes from. -/
theorem ping_succeeds_iff (written : List (Option GoError)) (received : List (Except GoError IcmpMessage)) :
    (∃ events s, Run Ping.Step newPing events s ∧ s.call = .returned none ∧ writes events = written ∧
        reads events = received) ↔
      written = [none] ∧
        ∃ parsedMsg : IcmpMessage, received = [.ok parsedMsg] ∧ parsedMsg.type = icmpTypeEchoReply := by
  constructor
  · rintro ⟨events, s, hrun, hreturned, rfl, rfl⟩
    exact (run_traced hrun).2.result (Or.inr hreturned)
  · rintro ⟨rfl, parsedMsg, rfl, htype⟩
    obtain ⟨s, hrun, hreturned⟩ := exists_run_of_echoReply parsedMsg htype
    exact ⟨_, s, hrun, hreturned, rfl, rfl⟩

end GaleLB.Util
