import GaleLB.Common.Channel
import GaleLB.Common.Potential
import GaleLB.Util.MulticastDns

/-!
# The goroutines of a multicast DNS request

`sendAndReceiveMDNS` spawns a goroutine that writes the query, sets the read deadline, spawns
a goroutine that reads the response, and returns with whatever its `select` finds first. The
goroutines hand their results over on two channels of capacity one, and may outlive the
call. Reads and writes return sooner or later, because of the deadline and because the
socket is closed after the call.

Every interleaving returns what the sequential description returns for something that
happened in it, and for each choice of what the operations return, each outcome that can be
ready first is returned by some interleaving. An error that nobody takes stays in the
channel, and a second one has no room there: a goroutine is left behind for ever exactly
when the context ends the call and both the write and the read fail.
-/

namespace GaleLB.Util

open Channel Transition ByteBuffer LbNetwork

/-- Where the call is. -/
inductive CallPc where
  | spawningWriter
  | settingDeadline
  | spawningReader
  | selecting
  | returned (result : Except GoError (List Buffer))

/-- Where the writing goroutine is. -/
inductive WriterPc where
  | notStarted
  | writing
  | sending (err : GoError)
  | done

/-- Where the reading goroutine is. -/
inductive ReaderPc where
  | notStarted
  | reading
  | sendingErr (err : GoError)
  | sendingResp (ips : List Buffer)
  | done

/-- A request with its goroutines and channels. -/
structure Request where
  call : CallPc
  writer : WriterPc
  reader : ReaderPc
  errChan : Chan GoError 1
  respChan : Chan (List Buffer) 1

/-- A request that has just been made. -/
def newRequest : Request := ⟨.spawningWriter, .notStarted, .notStarted, .make, .make⟩

/-- The atomic actions of the call and of its goroutines, with what the network returns. -/
inductive RequestEvent where
  | spawnWriter
  | setDeadline (err : Option GoError)
  | spawnReader
  | write (err : Option GoError)
  | writerSend
  | read (result : Except GoError Buffer)
  | readerSend
  | ctxDone (err : GoError)
  | takeErr
  | takeResp

/-- What the writer does with the result of its write. -/
def afterWrite : Option GoError → WriterPc
  | some err => .sending err
  | none => .done

/-- What the reader makes of the result of its read. -/
def readOutcome : Except GoError Buffer → Except GoError (List Buffer)
  | .error err => .error err
  | .ok datagram => receiveMDNS datagram

/-- What the reader sends on which channel. -/
def afterRead (result : Except GoError Buffer) : ReaderPc :=
  match readOutcome result with
  | .error err => .sendingErr err
  | .ok ips => .sendingResp ips

/-- One event, where it is enabled; a send waits for room in its channel. -/
def Request.step (s : Request) : RequestEvent → Option Request
  | .spawnWriter =>
    match s.call with
    | .spawningWriter => some { s with call := .settingDeadline, writer := .writing }
    | _ => none
  | .setDeadline err =>
    match s.call, err with
    | .settingDeadline, none => some { s with call := .spawningReader }
    | .settingDeadline, some err => some { s with call := .returned (.error err) }
    | _, _ => none
  | .spawnReader =>
    match s.call with
    | .spawningReader => some { s with call := .selecting, reader := .reading }
    | _ => none
  | .write err =>
    match s.writer with
    | .writing => some { s with writer := afterWrite err }
    | _ => none
  | .writerSend =>
    match s.writer with
    | .sending err =>
      match s.errChan.send err with
      | .sent chan => some { s with writer := .done, errChan := chan }
      | _ => none
    | _ => none
  | .read result =>
    match s.reader with
    | .reading => some { s with reader := afterRead result }
    | _ => none
  | .readerSend =>
    match s.reader with
    | .sendingErr err =>
      match s.errChan.send err with
      | .sent chan => some { s with reader := .done, errChan := chan }
      | _ => none
    | .sendingResp ips =>
      match s.respChan.send ips with
      | .sent chan => some { s with reader := .done, respChan := chan }
      | _ => none
    | _ => none
  | .ctxDone err =>
    match s.call with
    | .selecting => some { s with call := .returned (.error err) }
    | _ => none
  | .takeErr =>
    match s.call, s.errChan.receive with
    | .selecting, some (err, chan) => some { s with call := .returned (.error err), errChan := chan }
    | _, _ => none
  | .takeResp =>
    match s.call, s.respChan.receive with
    | .selecting, some (ips, chan) => some { s with call := .returned (.ok ips), respChan := chan }
    | _, _ => none

/-- The steps of a request as a relation. -/
abbrev Request.Step : Request → RequestEvent → Request → Prop := Computes Request.step

/-- Everything that one event can do to a request. -/
inductive Request.StepCase (s : Request) : RequestEvent → Request → Prop
  | spawnWriter (hcall : s.call = .spawningWriter) :
      StepCase s .spawnWriter { s with call := .settingDeadline, writer := .writing }
  | deadlineSet (hcall : s.call = .settingDeadline) :
      StepCase s (.setDeadline none) { s with call := .spawningReader }
  | deadlineFailed {err} (hcall : s.call = .settingDeadline) :
      StepCase s (.setDeadline (some err)) { s with call := .returned (.error err) }
  | spawnReader (hcall : s.call = .spawningReader) :
      StepCase s .spawnReader { s with call := .selecting, reader := .reading }
  | write {err} (hwriter : s.writer = .writing) : StepCase s (.write err) { s with writer := afterWrite err }
  | writerSend {err chan} (hwriter : s.writer = .sending err) (hsend : s.errChan.send err = .sent chan) :
      StepCase s .writerSend { s with writer := .done, errChan := chan }
  | read {result} (hreader : s.reader = .reading) : StepCase s (.read result) { s with reader := afterRead result }
  | readerSendErr {err chan} (hreader : s.reader = .sendingErr err) (hsend : s.errChan.send err = .sent chan) :
      StepCase s .readerSend { s with reader := .done, errChan := chan }
  | readerSendResp {ips chan} (hreader : s.reader = .sendingResp ips) (hsend : s.respChan.send ips = .sent chan) :
      StepCase s .readerSend { s with reader := .done, respChan := chan }
  | ctxDone {err} (hcall : s.call = .selecting) :
      StepCase s (.ctxDone err) { s with call := .returned (.error err) }
  | takeErr {err chan} (hcall : s.call = .selecting) (hreceive : s.errChan.receive = some (err, chan)) :
      StepCase s .takeErr { s with call := .returned (.error err), errChan := chan }
  | takeResp {ips chan} (hcall : s.call = .selecting) (hreceive : s.respChan.receive = some (ips, chan)) :
      StepCase s .takeResp { s with call := .returned (.ok ips), respChan := chan }

variable {s t : Request} {e : RequestEvent} {events : List RequestEvent}

/-- The cases exhaust the steps. -/
theorem Request.Step.cases (h : Request.Step s e t) : Request.StepCase s e t := by
  cases e with
  | spawnWriter =>
    simp only [Computes, Request.step] at h
    split at h
    · cases h
      exact .spawnWriter ‹_›
    · cases h
  | setDeadline err =>
    simp only [Computes, Request.step] at h
    split at h
    · cases h
      exact .deadlineSet ‹_›
    · cases h
      exact .deadlineFailed ‹_›
    · cases h
  | spawnReader =>
    simp only [Computes, Request.step] at h
    split at h
    · cases h
      exact .spawnReader ‹_›
    · cases h
  | write err =>
    simp only [Computes, Request.step] at h
    split at h
    · cases h
      exact .write ‹_›
    · cases h
  | writerSend =>
    simp only [Computes, Request.step] at h
    split at h
    · split at h
      · cases h
        exact .writerSend ‹_› ‹_›
      · cases h
    · cases h
  | read result =>
    simp only [Computes, Request.step] at h
    split at h
    · cases h
      exact .read ‹_›
    · cases h
  | readerSend =>
    simp only [Computes, Request.step] at h
    split at h
    · split at h
      · cases h
        exact .readerSendErr ‹_› ‹_›
      · cases h
    · split at h
      · cases h
        exact .readerSendResp ‹_› ‹_›
      · cases h
    · cases h
  | ctxDone err =>
    simp only [Computes, Request.step] at h
    split at h
    · cases h
      exact .ctxDone ‹_›
    · cases h
  | takeErr =>
    simp only [Computes, Request.step] at h
    split at h
    · cases h
      exact .takeErr ‹_› ‹_›
    · cases h
  | takeResp =>
    simp only [Computes, Request.step] at h
    split at h
    · cases h
      exact .takeResp ‹_› ‹_›
    · cases h

/-- Every case is a step. -/
theorem Request.StepCase.step (h : Request.StepCase s e t) : Request.Step s e t := by
  cases h <;> simp only [Computes, Request.step, *]

/-- The result stems from something that happened: the deadline could not be set, the context was done,
the write failed, or the read returned. -/
inductive Cause (events : List RequestEvent) : Except GoError (List Buffer) → Prop
  | deadline {err} (h : .setDeadline (some err) ∈ events) : Cause events (.error err)
  | ctxDone {err} (h : .ctxDone err ∈ events) : Cause events (.error err)
  | write {err} (h : .write (some err) ∈ events) : Cause events (.error err)
  | read {result} (h : .read result ∈ events) : Cause events (readOutcome result)

/-- A cause stays one. -/
theorem Cause.mono {result : Except GoError (List Buffer)} (h : Cause events result) (e : RequestEvent) :
    Cause (events ++ [e]) result := by
  cases h with
  | deadline h => exact .deadline (List.mem_append_left _ h)
  | ctxDone h => exact .ctxDone (List.mem_append_left _ h)
  | write h => exact .write (List.mem_append_left _ h)
  | read h => exact .read (List.mem_append_left _ h)

/-- Whatever is on its way to the caller has a cause. -/
structure Request.Caused (events : List RequestEvent) (s : Request) : Prop where
  writer : ∀ err, s.writer = .sending err → Cause events (.error err)
  readerErr : ∀ err, s.reader = .sendingErr err → Cause events (.error err)
  readerResp : ∀ ips, s.reader = .sendingResp ips → Cause events (.ok ips)
  errChan : ∀ err ∈ s.errChan.buf, Cause events (.error err)
  respChan : ∀ ips ∈ s.respChan.buf, Cause events (.ok ips)
  call : ∀ result, s.call = .returned result → Cause events result

/-- More events leave everything caused. -/
theorem Request.Caused.mono (h : s.Caused events) (e : RequestEvent) : s.Caused (events ++ [e]) :=
  ⟨fun err hpc => (h.writer err hpc).mono e, fun err hpc => (h.readerErr err hpc).mono e,
    fun ips hpc => (h.readerResp ips hpc).mono e, fun err hmem => (h.errChan err hmem).mono e,
    fun ips hmem => (h.respChan ips hmem).mono e, fun result hpc => (h.call result hpc).mono e⟩

/-- Every step keeps everything caused. -/
theorem Request.Caused.step (h : s.Caused events) (hstep : Request.Step s e t) : t.Caused (events ++ [e]) := by
  have h' := h.mono e
  have hlast : e ∈ events ++ [e] := List.mem_append_right _ (List.mem_singleton_self e)
  cases hstep.cases with
  | spawnWriter => exact ⟨nofun, h'.readerErr, h'.readerResp, h'.errChan, h'.respChan, nofun⟩
  | deadlineSet => exact ⟨h'.writer, h'.readerErr, h'.readerResp, h'.errChan, h'.respChan, nofun⟩
  | deadlineFailed =>
    refine ⟨h'.writer, h'.readerErr, h'.readerResp, h'.errChan, h'.respChan, fun result hpc => ?_⟩
    cases hpc
    exact .deadline hlast
  | spawnReader => exact ⟨h'.writer, nofun, nofun, h'.errChan, h'.respChan, nofun⟩
  | @write err =>
    refine ⟨fun err' hpc => ?_, h'.readerErr, h'.readerResp, h'.errChan, h'.respChan, h'.call⟩
    cases err with
    | none => cases hpc
    | some err =>
      cases hpc
      exact .write hlast
  | @writerSend err chan hwriter hsend =>
    refine ⟨nofun, h'.readerErr, h'.readerResp, fun err' hmem => ?_, h'.respChan, h'.call⟩
    rw [((Chan.send_eq_sent_iff _ _ _).mp hsend).2.2.1, List.mem_append, List.mem_singleton] at hmem
    rcases hmem with hmem | rfl
    · exact h'.errChan err' hmem
    · exact h'.writer err' hwriter
  | @read result =>
    have hcause : Cause (events ++ [.read result]) (readOutcome result) := .read hlast
    refine ⟨h'.writer, fun err hpc => ?_, fun ips hpc => ?_, h'.errChan, h'.respChan, h'.call⟩
    · change afterRead result = .sendingErr err at hpc
      unfold afterRead at hpc
      split at hpc <;> cases hpc
      rename_i houtcome
      exact houtcome ▸ hcause
    · change afterRead result = .sendingResp ips at hpc
      unfold afterRead at hpc
      split at hpc <;> cases hpc
      rename_i houtcome
      exact houtcome ▸ hcause
  | @readerSendErr err chan hreader hsend =>
    refine ⟨h'.writer, nofun, nofun, fun err' hmem => ?_, h'.respChan, h'.call⟩
    rw [((Chan.send_eq_sent_iff _ _ _).mp hsend).2.2.1, List.mem_append, List.mem_singleton] at hmem
    rcases hmem with hmem | rfl
    · exact h'.errChan err' hmem
    · exact h'.readerErr err' hreader
  | @readerSendResp ips chan hreader hsend =>
    refine ⟨h'.writer, nofun, nofun, h'.errChan, fun ips' hmem => ?_, h'.call⟩
    rw [((Chan.send_eq_sent_iff _ _ _).mp hsend).2.2.1, List.mem_append, List.mem_singleton] at hmem
    rcases hmem with hmem | rfl
    · exact h'.respChan ips' hmem
    · exact h'.readerResp ips' hreader
  | ctxDone =>
    refine ⟨h'.writer, h'.readerErr, h'.readerResp, h'.errChan, h'.respChan, fun result hpc => ?_⟩
    cases hpc
    exact .ctxDone hlast
  | takeErr _ hreceive =>
    have hbuf := ((Chan.receive_eq_some_iff _ _ _).mp hreceive).1
    refine ⟨h'.writer, h'.readerErr, h'.readerResp, fun err hmem => ?_, h'.respChan, fun result hpc => ?_⟩
    · exact h'.errChan err (hbuf ▸ List.mem_cons_of_mem _ hmem)
    · cases hpc
      exact h'.errChan _ (hbuf ▸ List.mem_cons_self)
  | takeResp _ hreceive =>
    have hbuf := ((Chan.receive_eq_some_iff _ _ _).mp hreceive).1
    refine ⟨h'.writer, h'.readerErr, h'.readerResp, h'.errChan, fun ips hmem => ?_, fun result hpc => ?_⟩
    · exact h'.respChan ips (hbuf ▸ List.mem_cons_of_mem _ hmem)
    · cases hpc
      exact h'.respChan _ (hbuf ▸ List.mem_cons_self)

/-- In every run, whatever is on its way to the caller has a cause. -/
theorem run_caused (hrun : Run Request.Step newRequest events s) : s.Caused events := by
  induction hrun with
  | nil => exact ⟨nofun, nofun, nofun, nofun, nofun, nofun⟩
  | snoc _ hlast ih => exact ih.step hlast

/-- The event that makes an outcome ready. -/
def FirstReady.event : FirstReady → RequestEvent
  | .ctxDone err => .ctxDone err
  | .writeFailed err => .write (some err)
  | .readFailed err => .read (.error err)
  | .datagram bytes => .read (.ok bytes)

/-- The read that makes a result of the reader ready. -/
theorem exists_ready_of_read (result : Except GoError Buffer) (query : Buffer) :
    ∃ ready : FirstReady, ready.event = .read result ∧
      sendAndReceiveMDNS none (fun _ => ready) query = readOutcome result := by
  cases result with
  | error err => exact ⟨.readFailed err, rfl, rfl⟩
  | ok bytes => exact ⟨.datagram bytes, rfl, rfl⟩

/-- A caused result is that of the sequential description for a deadline or a first outcome that happened. -/
theorem Cause.sequential {result : Except GoError (List Buffer)} (h : Cause events result) (query : Buffer) :
    (∃ err, .setDeadline (some err) ∈ events ∧ result = .error err) ∨
      ∃ ready : FirstReady, ready.event ∈ events ∧ sendAndReceiveMDNS none (fun _ => ready) query = result := by
  cases h with
  | @deadline err hmem => exact Or.inl ⟨err, hmem, rfl⟩
  | @ctxDone err hmem => exact Or.inr ⟨.ctxDone err, hmem, rfl⟩
  | @write err hmem => exact Or.inr ⟨.writeFailed err, hmem, rfl⟩
  | @read result hmem =>
    obtain ⟨ready, hevent, hresult⟩ := exists_ready_of_read result query
    exact Or.inr ⟨ready, hevent ▸ hmem, hresult⟩

/-- A call that has returned has set the deadline, or it returned the error of setting it. -/
theorem run_deadline (hrun : Run Request.Step newRequest events s) :
    s.call = .spawningWriter ∨ s.call = .settingDeadline ∨ .setDeadline none ∈ events ∨
      ∃ err, .setDeadline (some err) ∈ events ∧ s.call = .returned (.error err) := by
  induction hrun with
  | nil => exact Or.inl rfl
  | @snoc events s t e hrun hlast ih =>
    have hmem : e ∈ events ++ [e] := List.mem_append_right _ (List.mem_singleton_self e)
    have hkept (hcall : t.call = s.call) : t.call = .spawningWriter ∨ t.call = .settingDeadline ∨
        .setDeadline none ∈ events ++ [e] ∨
          ∃ err, .setDeadline (some err) ∈ events ++ [e] ∧ t.call = .returned (.error err) := by
      rw [hcall]
      refine ih.imp_right (Or.imp_right (Or.imp (List.mem_append_left _) fun ⟨err, hfailed, hreturned⟩ => ?_))
      exact ⟨err, List.mem_append_left _ hfailed, hreturned⟩
    cases hlast.cases with
    | spawnWriter => exact Or.inr (Or.inl rfl)
    | deadlineSet => exact Or.inr (Or.inr (Or.inl hmem))
    | @deadlineFailed err => exact Or.inr (Or.inr (Or.inr ⟨err, hmem, rfl⟩))
    | write | writerSend | read | readerSendErr | readerSendResp => exact hkept rfl
    | spawnReader hcall | ctxDone hcall | takeErr hcall | takeResp hcall =>
      rw [hcall] at ih
      rcases ih with h | h | h | ⟨err, -, h⟩
      · cases h
      · cases h
      · exact Or.inr (Or.inr (Or.inl (List.mem_append_left _ h)))
      · cases h

/-- What the operations of one request return, as far as they are performed; the context has an error once
it is done. -/
structure Outcomes where
  deadline : Option GoError
  write : Option GoError
  read : Except GoError Buffer
  ctxErr : Option GoError

/-- An event returns what the outcomes say. -/
def Outcomes.Permits (outcomes : Outcomes) : RequestEvent → Prop
  | .setDeadline err => err = outcomes.deadline
  | .write err => err = outcomes.write
  | .read result => result = outcomes.read
  | .ctxDone err => some err = outcomes.ctxErr
  | _ => True

/-- What the reader makes of its read can be what the call returns. -/
theorem Outcomes.exists_run_of_read {outcomes : Outcomes} (hdeadline : outcomes.deadline = none) :
    ∃ events s, Run Request.Step newRequest events s ∧ (∀ e ∈ events, outcomes.Permits e) ∧
      .read outcomes.read ∈ events ∧ s.call = .returned (readOutcome outcomes.read) := by
  have hread : Run Request.Step newRequest [.spawnWriter, .setDeadline none, .spawnReader, .read outcomes.read]
      ⟨.selecting, .writing, afterRead outcomes.read, .make, .make⟩ := run_of_replay _ rfl
  cases houtcome : readOutcome outcomes.read with
  | error err =>
    have hreader : afterRead outcomes.read = .sendingErr err := by rw [afterRead, houtcome]
    rw [hreader] at hread
    refine ⟨_, _, hread.append (run_of_replay [.readerSend, .takeErr] rfl), ?_, by simp, rfl⟩
    simp [Outcomes.Permits, hdeadline]
  | ok ips =>
    have hreader : afterRead outcomes.read = .sendingResp ips := by rw [afterRead, houtcome]
    rw [hreader] at hread
    refine ⟨_, _, hread.append (run_of_replay [.readerSend, .takeResp] rfl), ?_, by simp, rfl⟩
    simp [Outcomes.Permits, hdeadline]

/-- Each outcome that can be ready first is what the call returns in some interleaving. -/
theorem Outcomes.exists_run {outcomes : Outcomes} {ready : FirstReady} (h : outcomes.Permits ready.event)
    (hdeadline : outcomes.deadline = none) (query : Buffer) :
    ∃ events s, Run Request.Step newRequest events s ∧ (∀ e ∈ events, outcomes.Permits e) ∧
      ready.event ∈ events ∧ s.call = .returned (sendAndReceiveMDNS none (fun _ => ready) query) := by
  cases ready with
  | ctxDone err =>
    refine ⟨_, _, run_of_replay [.spawnWriter, .setDeadline none, .spawnReader, .ctxDone err] rfl, ?_,
      by simp [FirstReady.event], rfl⟩
    have hctx : some err = outcomes.ctxErr := h
    simp [Outcomes.Permits, hdeadline, hctx]
  | writeFailed err =>
    refine ⟨_, _, run_of_replay [.spawnWriter, .setDeadline none, .spawnReader, .write (some err), .writerSend,
      .takeErr] rfl, ?_, by simp [FirstReady.event], rfl⟩
    have hwrite : some err = outcomes.write := h
    simp [Outcomes.Permits, hdeadline, hwrite]
  | readFailed err =>
    have hread : .error err = outcomes.read := h
    obtain ⟨events, s, hrun, hpermits, hmem, hreturned⟩ := Outcomes.exists_run_of_read hdeadline
    rw [← hread] at hmem hreturned
    exact ⟨events, s, hrun, hpermits, hmem, hreturned⟩
  | datagram bytes =>
    have hread : .ok bytes = outcomes.read := h
    obtain ⟨events, s, hrun, hpermits, hmem, hreturned⟩ := Outcomes.exists_run_of_read hdeadline
    rw [← hread] at hmem hreturned
    exact ⟨events, s, hrun, hpermits, hmem, hreturned⟩

/-- In every interleaving the call returns what the sequential description returns for the result of setting
the deadline in this run and, if it was set, for something ready first that happened in this run. Conversely,
whatever the operations return, each outcome that they permit to be ready first is returned by an interleaving
with these results in which it happened. -/
theorem request_refines_sequential (query : Buffer) :
    (∀ events s result, Run Request.Step newRequest events s → s.call = .returned result →
      ∃ deadline ready, .setDeadline deadline ∈ events ∧ (deadline = none → ready.event ∈ events) ∧
        sendAndReceiveMDNS deadline (fun _ => ready) query = result) ∧
    ∀ (outcomes : Outcomes) ready, outcomes.Permits ready.event →
      ∃ events s, Run Request.Step newRequest events s ∧ (∀ e ∈ events, outcomes.Permits e) ∧
        (outcomes.deadline = none → ready.event ∈ events) ∧
        s.call = .returned (sendAndReceiveMDNS outcomes.deadline (fun _ => ready) query) := by
  constructor
  · intro events s result hrun hreturned
    have hfailed (err : GoError) (hmem : .setDeadline (some err) ∈ events) (hresult : result = .error err) :
        ∃ deadline ready, .setDeadline deadline ∈ events ∧ (deadline = none → ready.event ∈ events) ∧
          sendAndReceiveMDNS deadline (fun _ => ready) query = result :=
      ⟨some err, .ctxDone err, hmem, nofun, hresult.symm⟩
    have hdeadline := run_deadline hrun
    rw [hreturned] at hdeadline
    rcases hdeadline with h | h | hset | ⟨err, hmem, h⟩
    · cases h
    · cases h
    · have hcause := (run_caused hrun).call result hreturned
      rcases hcause.sequential query with ⟨err, hmem, hresult⟩ | ⟨ready, hready, hresult⟩
      · exact hfailed err hmem hresult
      · exact ⟨none, ready, hset, fun _ => hready, hresult⟩
    · exact hfailed err hmem (CallPc.returned.inj h)
  · intro outcomes ready hready
    cases hdeadline : outcomes.deadline with
    | none =>
      obtain ⟨events, s, hrun, hpermits, hmem, hreturned⟩ := Outcomes.exists_run hready hdeadline query
      exact ⟨events, s, hrun, hpermits, fun _ => hmem, hreturned⟩
    | some err =>
      refine ⟨_, _, run_of_replay [.spawnWriter, .setDeadline (some err)] rfl, ?_, nofun, rfl⟩
      simp [Outcomes.Permits, hdeadline]

/-- The error that the writer is about to send. -/
def WriterPc.pending : WriterPc → ℕ
  | .sending _ => 1
  | _ => 0

/-- The write that is still to come. -/
def WriterPc.remaining : WriterPc → ℕ
  | .notStarted | .writing => 1
  | _ => 0

/-- The error that the reader is about to send. -/
def ReaderPc.pending : ReaderPc → ℕ
  | .sendingErr _ => 1
  | _ => 0

/-- The response that the reader is about to send. -/
def ReaderPc.responding : ReaderPc → ℕ
  | .sendingResp _ => 1
  | _ => 0

/-- The read that is still to come. -/
def ReaderPc.remaining : ReaderPc → ℕ
  | .notStarted | .reading => 1
  | _ => 0

/-- The call has returned. -/
def CallPc.returns : CallPc → ℕ
  | .returned _ => 1
  | _ => 0

/-- What the errors and the result of a request are counted by: failed writes, reads without and with an
address, and the four ways in which the call returns. -/
inductive Mark where
  | failedWrite
  | failedRead
  | goodRead
  | failedDeadline
  | ctxDone
  | tookErr
  | tookResp
deriving DecidableEq, Repr

/-- The mark of an event. -/
def RequestEvent.mark : RequestEvent → Option Mark
  | .write (some _) => some .failedWrite
  | .read result => some (if (readOutcome result).isOk then .goodRead else .failedRead)
  | .setDeadline (some _) => some .failedDeadline
  | .ctxDone _ => some .ctxDone
  | .takeErr => some .tookErr
  | .takeResp => some .tookResp
  | _ => none

/-- The number of events with a mark. -/
def marks (mark : Mark) (events : List RequestEvent) : ℕ := events.countP fun e => e.mark = some mark

/-- The number of marked events after one more event. -/
theorem marks_concat (mark : Mark) (events : List RequestEvent) (e : RequestEvent) :
    marks mark (events ++ [e]) = marks mark events + if e.mark = some mark then 1 else 0 := by
  unfold marks
  rw [List.countP_append, List.countP_singleton]
  simp only [decide_eq_true_eq]

/-- Every error is taken by the call, held by the channel or held back by a goroutine; there is one write
and one read, and the call returns once. -/
structure Request.Balance (events : List RequestEvent) (s : Request) : Prop where
  errors : s.errChan.buf.length + s.writer.pending + s.reader.pending + marks .tookErr events =
    marks .failedWrite events + marks .failedRead events
  responses : s.respChan.buf.length + s.reader.responding + marks .tookResp events = marks .goodRead events
  writes : marks .failedWrite events + s.writer.remaining ≤ 1
  reads : marks .failedRead events + marks .goodRead events + s.reader.remaining = 1
  returns : marks .failedDeadline events + marks .ctxDone events + marks .tookErr events + marks .tookResp events =
    s.call.returns

/-- The goroutines start with the call, and the channels stay open. -/
structure Request.Started (events : List RequestEvent) (s : Request) : Prop where
  writer : s.call = .spawningWriter → s.writer = .notStarted
  reader : s.call = .spawningWriter ∨ s.call = .settingDeadline ∨ s.call = .spawningReader →
    s.reader = .notStarted
  deadline : 0 < marks .failedDeadline events → s.reader = .notStarted
  opened : s.errChan.closed = false ∧ s.respChan.closed = false

/-- The reader is about to send what it made of its read. -/
theorem afterRead_counts (result : Except GoError Buffer) :
    (afterRead result).remaining = 0 ∧
      (afterRead result).pending = (if (readOutcome result).isOk then 0 else 1) ∧
      (afterRead result).responding = if (readOutcome result).isOk then 1 else 0 := by
  unfold afterRead
  cases readOutcome result <;> exact ⟨rfl, rfl, rfl⟩

/-- Every step keeps the balance. -/
theorem Request.Balance.step (h : s.Balance events) (hstarted : s.Started events) (hstep : Request.Step s e t) :
    t.Balance (events ++ [e]) := by
  obtain ⟨herrors, hresponses, hwrites, hreads, hreturns⟩ := h
  cases hstep.cases with
  | spawnWriter hcall =>
    rw [hstarted.writer hcall] at herrors hwrites
    rw [hcall] at hreturns
    constructor <;> simp only [marks_concat, RequestEvent.mark, reduceCtorEq, if_false, Nat.add_zero] <;> assumption
  | deadlineSet hcall =>
    rw [hcall] at hreturns
    constructor <;> simp only [marks_concat, RequestEvent.mark, reduceCtorEq, if_false, Nat.add_zero] <;> assumption
  | deadlineFailed hcall =>
    rw [hcall] at hreturns
    constructor <;> simp only [marks_concat, RequestEvent.mark, Option.some.injEq, reduceCtorEq, if_true, if_false,
      Nat.add_zero] <;>
      simp only [CallPc.returns] at hreturns ⊢ <;> omega
  | spawnReader hcall =>
    rw [hstarted.reader (Or.inr (Or.inr hcall))] at herrors hresponses hreads
    rw [hcall] at hreturns
    constructor <;> simp only [marks_concat, RequestEvent.mark, reduceCtorEq, if_false, Nat.add_zero] <;> assumption
  | @write err hwriter =>
    rw [hwriter] at herrors hwrites
    simp only [WriterPc.pending, WriterPc.remaining] at herrors hwrites
    cases err with
    | none =>
      constructor <;> simp only [marks_concat, RequestEvent.mark, reduceCtorEq, if_false, Nat.add_zero, afterWrite,
        WriterPc.pending, WriterPc.remaining] <;> omega
    | some err =>
      constructor <;> simp only [marks_concat, RequestEvent.mark, Option.some.injEq, reduceCtorEq, if_true, if_false,
        afterWrite, WriterPc.pending, WriterPc.remaining] <;> omega
  | writerSend hwriter hsend =>
    rw [hwriter] at herrors hwrites
    simp only [WriterPc.pending, WriterPc.remaining] at herrors hwrites
    have hbuf := congrArg List.length ((Chan.send_eq_sent_iff _ _ _).mp hsend).2.2.1
    rw [List.length_append, List.length_singleton] at hbuf
    constructor <;> simp only [marks_concat, RequestEvent.mark, reduceCtorEq, if_false, Nat.add_zero, WriterPc.pending,
      WriterPc.remaining] <;> omega
  | @read result hreader =>
    obtain ⟨hremaining, hpending, hresponding⟩ := afterRead_counts result
    rw [hreader] at herrors hresponses hreads
    simp only [ReaderPc.pending, ReaderPc.responding, ReaderPc.remaining] at herrors hresponses hreads
    cases hok : (readOutcome result).isOk with
    | true =>
      have hmark : (RequestEvent.read result).mark = some .goodRead := by rw [RequestEvent.mark, hok]; rfl
      simp only [hok, if_true] at hpending hresponding
      constructor <;> simp only [marks_concat, hmark, Option.some.injEq, reduceCtorEq, if_true, if_false] <;> omega
    | false =>
      have hmark : (RequestEvent.read result).mark = some .failedRead := by rw [RequestEvent.mark, hok]; rfl
      simp only [hok, Bool.false_eq_true, if_false] at hpending hresponding
      constructor <;> simp only [marks_concat, hmark, Option.some.injEq, reduceCtorEq, if_true, if_false] <;> omega
  | readerSendErr hreader hsend =>
    rw [hreader] at herrors hresponses hreads
    simp only [ReaderPc.pending, ReaderPc.responding, ReaderPc.remaining] at herrors hresponses hreads
    have hbuf := congrArg List.length ((Chan.send_eq_sent_iff _ _ _).mp hsend).2.2.1
    rw [List.length_append, List.length_singleton] at hbuf
    constructor <;> simp only [marks_concat, RequestEvent.mark, reduceCtorEq, if_false, Nat.add_zero, ReaderPc.pending,
      ReaderPc.responding, ReaderPc.remaining] <;> omega
  | readerSendResp hreader hsend =>
    rw [hreader] at herrors hresponses hreads
    simp only [ReaderPc.pending, ReaderPc.responding, ReaderPc.remaining] at herrors hresponses hreads
    have hbuf := congrArg List.length ((Chan.send_eq_sent_iff _ _ _).mp hsend).2.2.1
    rw [List.length_append, List.length_singleton] at hbuf
    constructor <;> simp only [marks_concat, RequestEvent.mark, reduceCtorEq, if_false, Nat.add_zero, ReaderPc.pending,
      ReaderPc.responding, ReaderPc.remaining] <;> omega
  | ctxDone hcall =>
    rw [hcall] at hreturns
    simp only [CallPc.returns] at hreturns
    constructor <;> simp only [marks_concat, RequestEvent.mark, Option.some.injEq, reduceCtorEq, if_true, if_false,
      CallPc.returns] <;> omega
  | takeErr hcall hreceive =>
    rw [hcall] at hreturns
    simp only [CallPc.returns] at hreturns
    have hbuf := congrArg List.length ((Chan.receive_eq_some_iff _ _ _).mp hreceive).1
    rw [List.length_cons] at hbuf
    constructor <;> simp only [marks_concat, RequestEvent.mark, Option.some.injEq, reduceCtorEq, if_true, if_false,
      CallPc.returns] <;> omega
  | takeResp hcall hreceive =>
    rw [hcall] at hreturns
    simp only [CallPc.returns] at hreturns
    have hbuf := congrArg List.length ((Chan.receive_eq_some_iff _ _ _).mp hreceive).1
    rw [List.length_cons] at hbuf
    constructor <;> simp only [marks_concat, RequestEvent.mark, Option.some.injEq, reduceCtorEq, if_true, if_false,
      CallPc.returns] <;> omega

/-- Every step keeps the goroutines started with the call. -/
theorem Request.Started.step (h : s.Started events) (hbalance : s.Balance events) (hstep : Request.Step s e t) :
    t.Started (events ++ [e]) := by
  have hdeadline (hmark : e.mark ≠ some .failedDeadline) (hpos : 0 < marks .failedDeadline (events ++ [e])) :
      s.reader = .notStarted := by
    rw [marks_concat, if_neg hmark] at hpos
    exact h.deadline hpos
  cases hstep.cases with
  | spawnWriter hcall =>
    exact ⟨nofun, fun _ => h.reader (Or.inl hcall), hdeadline nofun, h.opened⟩
  | deadlineSet hcall =>
    exact ⟨nofun, fun _ => h.reader (Or.inr (Or.inl hcall)), hdeadline nofun, h.opened⟩
  | deadlineFailed hcall =>
    exact ⟨nofun, (by rintro (h | h | h) <;> cases h),
      fun _ => h.reader (Or.inr (Or.inl hcall)), h.opened⟩
  | spawnReader hcall =>
    refine ⟨nofun, (by rintro (h | h | h) <;> cases h), fun hpos => ?_, h.opened⟩
    -- A call that goes on has set its deadline.
    have hreturns := hbalance.returns
    rw [hcall] at hreturns
    simp only [CallPc.returns] at hreturns
    rw [marks_concat, if_neg nofun] at hpos
    omega
  | @write err hwriter =>
    refine ⟨fun hcall => ?_, h.reader, hdeadline (by cases err <;> nofun), h.opened⟩
    rw [h.writer hcall] at hwriter
    cases hwriter
  | writerSend hwriter hsend =>
    obtain ⟨-, -, -, hopen⟩ := (Chan.send_eq_sent_iff _ _ _).mp hsend
    refine ⟨fun hcall => ?_, h.reader, hdeadline nofun, hopen, h.opened.2⟩
    rw [h.writer hcall] at hwriter
    cases hwriter
  | @read result hreader =>
    refine ⟨h.writer, fun hearly => ?_, fun hpos => ?_, h.opened⟩
    · rw [h.reader hearly] at hreader
      cases hreader
    · have hmark : (RequestEvent.read result).mark ≠ some .failedDeadline := by
        rw [RequestEvent.mark]
        split <;> nofun
      rw [hdeadline hmark hpos] at hreader
      cases hreader
  | readerSendErr hreader hsend =>
    obtain ⟨-, -, -, hopen⟩ := (Chan.send_eq_sent_iff _ _ _).mp hsend
    refine ⟨h.writer, fun hearly => ?_, fun hpos => ?_, hopen, h.opened.2⟩
    · rw [h.reader hearly] at hreader
      cases hreader
    · rw [hdeadline nofun hpos] at hreader
      cases hreader
  | readerSendResp hreader hsend =>
    obtain ⟨-, -, -, hopen⟩ := (Chan.send_eq_sent_iff _ _ _).mp hsend
    refine ⟨h.writer, fun hearly => ?_, fun hpos => ?_, h.opened.1, hopen⟩
    · rw [h.reader hearly] at hreader
      cases hreader
    · rw [hdeadline nofun hpos] at hreader
      cases hreader
  | ctxDone =>
    exact ⟨nofun, (by rintro (h | h | h) <;> cases h), hdeadline nofun, h.opened⟩
  | takeErr _ hreceive =>
    have hclosed := ((Chan.receive_eq_some_iff _ _ _).mp hreceive).2
    exact ⟨nofun, (by rintro (h | h | h) <;> cases h), hdeadline nofun,
      hclosed.trans h.opened.1, h.opened.2⟩
  | takeResp _ hreceive =>
    have hclosed := ((Chan.receive_eq_some_iff _ _ _).mp hreceive).2
    exact ⟨nofun, (by rintro (h | h | h) <;> cases h), hdeadline nofun, h.opened.1,
      hclosed.trans h.opened.2⟩

/-- The balance holds in every run. -/
theorem run_balance (hrun : Run Request.Step newRequest events s) : s.Balance events ∧ s.Started events := by
  induction hrun with
  | nil => exact ⟨⟨rfl, rfl, Nat.le_refl 1, rfl, rfl⟩, fun _ => rfl, fun _ => rfl, nofun, rfl, rfl⟩
  | snoc _ hlast ih => exact ⟨ih.1.step ih.2 hlast, ih.2.step ih.1 hlast⟩

/-- The actions that the call can still cause. -/
def CallPc.potential : CallPc → ℕ
  | .spawningWriter => 8
  | .settingDeadline => 5
  | .spawningReader => 4
  | .selecting => 1
  | .returned _ => 0

/-- The actions that the writer can still cause. -/
def WriterPc.potential : WriterPc → ℕ
  | .writing => 2
  | .sending _ => 1
  | _ => 0

/-- The actions that the reader can still cause. -/
def ReaderPc.potential : ReaderPc → ℕ
  | .reading => 2
  | .sendingErr _ | .sendingResp _ => 1
  | _ => 0

/-- The actions that a request can still cause. -/
def Request.potential (s : Request) : ℕ := s.call.potential + s.writer.potential + s.reader.potential

/-- Every action uses up a part of the work. -/
theorem Request.Step.potential (h : Request.Step s e t) : t.potential + 1 ≤ s.potential := by
  unfold Request.potential
  cases h.cases with
  | spawnWriter hcall | deadlineSet hcall | deadlineFailed hcall | spawnReader hcall | ctxDone hcall
  | takeErr hcall | takeResp hcall =>
    simp only [hcall, CallPc.potential, WriterPc.potential, ReaderPc.potential]
    omega
  | @write err hwriter =>
    cases err <;> simp only [hwriter, afterWrite, WriterPc.potential] <;> omega
  | writerSend hwriter =>
    simp only [hwriter, WriterPc.potential]
    omega
  | @read result hreader =>
    have hwork : (afterRead result).potential = 1 := by
      unfold afterRead
      split <;> rfl
    rw [hreader, hwork]
    simp only [ReaderPc.potential]
    omega
  | readerSendErr hreader | readerSendResp hreader =>
    simp only [hreader, ReaderPc.potential]
    omega

/-- The steps of a request are paid for. -/
theorem request_pays : Pays Request.Step (fun _ => True) Request.potential (fun _ => 0) :=
  ⟨fun _ _ _ _ _ => trivial, fun _ _ _ _ h => h.potential⟩

/-- A goroutine is at a send. -/
def Request.LeftBehind (s : Request) : Prop :=
  (∃ err, s.writer = .sending err) ∨ (∃ err, s.reader = .sendingErr err) ∨ ∃ ips, s.reader = .sendingResp ips

/-- A goroutine is at a send exactly when one is counted there. -/
theorem Request.leftBehind_iff : s.LeftBehind ↔ 0 < s.writer.pending + s.reader.pending + s.reader.responding := by
  unfold Request.LeftBehind
  cases s.writer <;> cases s.reader <;> simp [WriterPc.pending, ReaderPc.pending, ReaderPc.responding]

/-- An action of a kind is in the history exactly when its count is positive. -/
theorem marks_pos_iff (mark : Mark) (events : List RequestEvent) :
    0 < marks mark events ↔ ∃ e ∈ events, e.mark = some mark := by
  simp only [marks, List.countP_pos_iff, decide_eq_true_eq]

/-- The marked end of the context. -/
theorem mark_eq_ctxDone_iff : e.mark = some .ctxDone ↔ ∃ err, e = .ctxDone err := by
  unfold RequestEvent.mark
  split <;> simp_all
  split <;> nofun

/-- The marked failure of the write. -/
theorem mark_eq_failedWrite_iff : e.mark = some .failedWrite ↔ ∃ err, e = .write (some err) := by
  unfold RequestEvent.mark
  split <;> simp_all
  split <;> nofun

/-- The marked failure of the read. -/
theorem mark_eq_failedRead_iff :
    e.mark = some .failedRead ↔ ∃ result err, e = .read result ∧ readOutcome result = .error err := by
  unfold RequestEvent.mark
  split <;> simp_all
  rename_i result
  cases readOutcome result <;> simp [Except.isOk, Except.toBool]

section Stuck

variable (hstuck : Stuck Request.Step (fun _ => True) s)
include hstuck

/-- No case of the step applies to a request that is stuck. -/
theorem Request.no_case (hcase : Request.StepCase s e t) : False := hstuck e t trivial hcase.step

/-- A request that can do nothing more has returned: a call at the select can always find its context done. -/
theorem Request.returned_of_stuck : ∃ result, s.call = .returned result := by
  match hcall : s.call with
  | .spawningWriter => exact (Request.no_case hstuck (.spawnWriter hcall)).elim
  | .settingDeadline => exact (Request.no_case hstuck (.deadlineSet hcall)).elim
  | .spawningReader => exact (Request.no_case hstuck (.spawnReader hcall)).elim
  | .selecting =>
    have hdone : Request.StepCase s (.ctxDone eof) _ := .ctxDone hcall
    exact (Request.no_case hstuck hdone).elim
  | .returned result => exact ⟨result, rfl⟩

/-- A goroutine that is left with an error has found the channel full. -/
theorem Request.Started.full_of_pending (hstarted : s.Started events)
    (hpending : 0 < s.writer.pending + s.reader.pending) : s.errChan.buf.length = 1 := by
  by_cases hwriter : ∃ err, s.writer = .sending err
  · obtain ⟨err, hwriter⟩ := hwriter
    exact Chan.length_of_ne_sent hstarted.opened.1 fun _ hsend => Request.no_case hstuck (.writerSend hwriter hsend)
  · have hidle : s.writer.pending = 0 := by
      cases hw : s.writer with
      | sending err => exact absurd ⟨err, hw⟩ hwriter
      | notStarted | writing | done => rfl
    cases hreader : s.reader with
    | sendingErr err =>
      exact Chan.length_of_ne_sent hstarted.opened.1 fun _ hsend =>
        Request.no_case hstuck (.readerSendErr hreader hsend)
    | notStarted | reading | sendingResp | done =>
      rw [hidle, hreader] at hpending
      cases hpending

/-- No goroutine is left with a response: it is the only one that the channel ever gets. -/
theorem Request.Started.responding_eq_zero (hstarted : s.Started events) (hbalance : s.Balance events) :
    s.reader.responding = 0 := by
  cases hreader : s.reader with
  | sendingResp ips =>
    have hfull := Chan.length_of_ne_sent hstarted.opened.2 fun _ hsend =>
      Request.no_case hstuck (.readerSendResp hreader hsend)
    have hresponses := hbalance.responses
    have hreads := hbalance.reads
    rw [hreader] at hresponses
    simp only [ReaderPc.responding] at hresponses
    omega
  | notStarted | reading | sendingErr | done => rfl

/-- A goroutine is left behind exactly when the context has ended the call and both the write and the read
have failed. -/
theorem Request.Started.leftBehind_iff (hstarted : s.Started events) (hbalance : s.Balance events) :
    s.LeftBehind ↔ 0 < marks .ctxDone events ∧ 0 < marks .failedWrite events ∧ 0 < marks .failedRead events := by
  obtain ⟨result, hcall⟩ := Request.returned_of_stuck hstuck
  have herrors := hbalance.errors
  have hresponses := hbalance.responses
  have hwrites := hbalance.writes
  have hreads := hbalance.reads
  have hreturns : marks .failedDeadline events + marks .ctxDone events + marks .tookErr events +
      marks .tookResp events = 1 := by
    rw [hbalance.returns, hcall]
    rfl
  rw [Request.leftBehind_iff, hstarted.responding_eq_zero hstuck hbalance]
  constructor
  · intro hpending
    -- The channel holds one error and a goroutine another: both have failed, and the call took neither.
    have hfull := hstarted.full_of_pending hstuck hpending
    have hdeadline : marks .failedDeadline events = 0 := by
      by_contra hpos
      have hreader := hstarted.deadline (Nat.pos_of_ne_zero hpos)
      rw [hreader] at hreads
      simp only [ReaderPc.remaining] at hreads
      omega
    omega
  · rintro ⟨hdone, hwrite, hread⟩
    -- Two errors are made, none is taken, and the channel has room for one.
    have hbounded := s.errChan.bounded
    omega

end Stuck

/-- A request ends by itself: it takes at most eight actions, from every state it can be brought to its end,
and there the call has returned. A goroutine is then left behind for ever exactly when the context ended the
call and both the write of the query and the read of the response failed. -/
theorem request_goroutines (hrun : Run Request.Step newRequest events s) :
    events.length ≤ 8 ∧
      (∃ later t, Run Request.Step s later t ∧ Stuck Request.Step (fun _ => True) t) ∧
      (Stuck Request.Step (fun _ => True) s →
        (∃ result, s.call = .returned result) ∧
          (s.LeftBehind ↔
            (∃ err, RequestEvent.ctxDone err ∈ events) ∧ (∃ err, RequestEvent.write (some err) ∈ events) ∧
              ∃ result err, RequestEvent.read result ∈ events ∧ readOutcome result = .error err)) := by
  obtain ⟨hbalance, hstarted⟩ := run_balance hrun
  refine ⟨?_, ?_, fun hstuck => ⟨Request.returned_of_stuck hstuck, ?_⟩⟩
  · exact request_pays.length_le_potential trivial hrun
  · have hall : ∀ e : RequestEvent, True → 0 = 0 := fun _ _ => rfl
    obtain ⟨later, t, hlater, -, hend⟩ := request_pays.exists_stuck hall trivial
    exact ⟨later, t, hlater, hend⟩
  · rw [hstarted.leftBehind_iff hstuck hbalance]
    simp only [marks_pos_iff, mark_eq_ctxDone_iff, mark_eq_failedWrite_iff, mark_eq_failedRead_iff]
    constructor
    · rintro ⟨⟨_, hdone, err, rfl⟩, ⟨_, hwrite, err', rfl⟩, _, hread, result, err'', rfl, houtcome⟩
      exact ⟨⟨err, hdone⟩, ⟨err', hwrite⟩, result, err'', hread, houtcome⟩
    · rintro ⟨⟨err, hdone⟩, ⟨err', hwrite⟩, result, err'', hread, houtcome⟩
      exact ⟨⟨_, hdone, err, rfl⟩, ⟨_, hwrite, err', rfl⟩, _, hread, result, err'', rfl, houtcome⟩

/-- The actions of a request on an interface that is down, given up while the reader still waits. -/
def abandonedEvents : List RequestEvent :=
  [.spawnWriter, .setDeadline none, .spawnReader, .ctxDone (.new "context deadline exceeded"),
    .write (some (.new "sendto: network is unreachable")), .writerSend,
    .read (.error (.new "read udp4: i/o timeout"))]

/-- The reader of the abandoned request is left behind. -/
theorem abandoned_request_leaves_reader :
    ∃ s, Run Request.Step newRequest abandonedEvents s ∧ Stuck Request.Step (fun _ => True) s ∧ s.LeftBehind := by
  have hrun : ∃ s, Run Request.Step newRequest abandonedEvents s ∧
      s.call = .returned (.error (.new "context deadline exceeded")) ∧ s.writer = .done ∧
        (∃ err, s.reader = .sendingErr err) ∧ s.errChan.buf.length = 1 :=
    ⟨_, run_of_replay abandonedEvents rfl, rfl, rfl, ⟨_, rfl⟩, rfl⟩
  obtain ⟨s, hs, hcall, hwriter, ⟨err, hreader⟩, hfull⟩ := hrun
  have hstuck : Stuck Request.Step (fun _ => True) s := by
    intro e t _ hstep
    cases hstep.cases with
    | spawnWriter h | deadlineSet h | deadlineFailed h | spawnReader h | ctxDone h | takeErr h | takeResp h =>
      rw [hcall] at h
      cases h
    | write h | writerSend h =>
      rw [hwriter] at h
      cases h
    | read h | readerSendResp h =>
      rw [hreader] at h
      cases h
    | readerSendErr _ hsend =>
      have hroom := ((Chan.send_eq_sent_iff _ _ _).mp hsend).2.1
      omega
  refine ⟨s, hs, hstuck, ((request_goroutines hs).2.2 hstuck).2.mpr ⟨⟨.new "context deadline exceeded", ?_⟩,
    ⟨.new "sendto: network is unreachable", ?_⟩, .error (.new "read udp4: i/o timeout"), _, ?_, rfl⟩⟩ <;>
    simp [abandonedEvents]

end GaleLB.Util
