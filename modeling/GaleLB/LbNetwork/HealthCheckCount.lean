import GaleLB.LbNetwork.MessageFlow

/-!
# Which health checks are counted

The multiplexer reports a health check for every message whose status is neither
`NotServing` nor `ShuttingDown`. That includes the nil message that the listener forwards
next to a recoverable error, and messages with a status outside the enumeration. The
reported checks are bounded by the received serving messages, in every interleaving,
exactly when no such result precedes the end of the stream.
-/

namespace GaleLB.LbNetwork

open Channel Transition

/-- The event reports a health check to the registry. -/
def Event.isHealthCheck : Event → Bool
  | .reportNewHealthCheck => true
  | _ => false

/-- The number of health checks reported in a run. -/
def healthChecks (events : List Event) : ℕ := events.countP Event.isHealthCheck

/-- The result is a message with the status `Serving`. -/
def RecvResult.isServing : RecvResult → Bool
  | .message status => status = serving
  | .error _ => false

/-- The number of serving messages among received results. -/
def servings (results : List RecvResult) : ℕ := results.countP RecvResult.isServing

/-- The result ends the stream for the listener or for the multiplexer. -/
def RecvResult.terminal : RecvResult → Bool
  | .message status => status = shuttingDown
  | .error err => gRPCErrUnrecoverable err

/-- The result is a message with the status `Serving` or `NotServing`. -/
def RecvResult.genuine : RecvResult → Bool
  | .message status => status = serving || status = notServing
  | .error _ => false

/-- Before the stream ends, only messages with one of the two statuses are received. -/
def OnlyGenuine (results : List RecvResult) : Prop :=
  ∀ result ∈ results.takeWhile fun result => !result.terminal, result.genuine = true

instance (results : List RecvResult) : Decidable (OnlyGenuine results) :=
  inferInstanceAs (Decidable (∀ result ∈ _, _))

/-- The health checks that the multiplexer reports for messages taken in this order. -/
def counted (msgs : List HealthStatus) : ℕ :=
  (msgs.takeWhile fun msg => getStatus msg ≠ shuttingDown).countP fun msg => getStatus msg ≠ notServing

/-- The health check that the handler is about to report. -/
def HandlerPc.dueChecks : HandlerPc → ℕ
  | .reportingCheck => 1
  | _ => 0

/-- The first result decides, or is genuine and leaves the decision to the rest. -/
theorem onlyGenuine_cons (result : RecvResult) (results : List RecvResult) :
    OnlyGenuine (result :: results) ↔
      result.terminal = true ∨ result.genuine = true ∧ OnlyGenuine results := by
  unfold OnlyGenuine
  cases hterminal : result.terminal <;> simp [hterminal]

/-- Prefixes inherit the condition. -/
theorem OnlyGenuine.mono {results results' : List RecvResult} (h : OnlyGenuine results')
    (hinitial : results <+: results') : OnlyGenuine results := by
  induction results generalizing results' with
  | nil => exact nofun
  | cons result rest ih =>
    obtain ⟨tail, rfl⟩ := hinitial
    rw [List.cons_append, onlyGenuine_cons] at h
    rw [onlyGenuine_cons]
    rcases h with hterminal | ⟨hgenuine, hrest⟩
    · exact Or.inl hterminal
    · exact Or.inr ⟨hgenuine, ih hrest (List.prefix_append rest tail)⟩

/-- The first message is counted by its status. -/
theorem counted_cons (msg : HealthStatus) (msgs : List HealthStatus) :
    counted (msg :: msgs) = if getStatus msg = shuttingDown then 0
      else (if getStatus msg = notServing then 0 else 1) + counted msgs := by
  unfold counted
  by_cases hdown : getStatus msg = shuttingDown
  · rw [List.takeWhile_cons_of_neg (by simpa using hdown), if_pos hdown, List.countP_nil]
  · rw [List.takeWhile_cons_of_pos (by simpa using hdown), if_neg hdown, List.countP_cons, Nat.add_comm]
    congr 1
    by_cases hnot : getStatus msg = notServing <;> simp [hnot]

/-- More messages are counted at least as often. -/
theorem counted_mono {msgs msgs' : List HealthStatus} (h : msgs <+: msgs') :
    counted msgs ≤ counted msgs' := by
  induction msgs generalizing msgs' with
  | nil => exact Nat.zero_le _
  | cons msg rest ih =>
    obtain ⟨tail, rfl⟩ := h
    have hrest := ih (List.prefix_append rest tail)
    rw [List.cons_append, counted_cons, counted_cons]
    split
    · exact Nat.le_refl 0
    · exact Nat.add_le_add_left hrest _

/-- A message taken by a running multiplexer is counted when it makes a check due. -/
theorem counted_concat {msgs : List HealthStatus} (h : ∀ msg ∈ msgs, getStatus msg ≠ shuttingDown)
    (msg : HealthStatus) : counted (msgs ++ [msg]) = counted msgs + (afterMsg msg).dueChecks := by
  induction msgs with
  | nil =>
    rw [List.nil_append, counted_cons]
    unfold afterMsg
    by_cases hdown : getStatus msg = shuttingDown
    · rw [if_pos hdown, hdown]
      rfl
    · rw [if_neg hdown]
      by_cases hnot : getStatus msg = notServing
      · rw [if_pos hnot, if_pos hnot]
        rfl
      · rw [if_neg hnot, if_neg hnot, if_neg hdown]
        rfl
  | cons first rest ih =>
    have hfirst := h first List.mem_cons_self
    have hrest := ih fun m hm => h m (List.mem_cons_of_mem _ hm)
    rw [List.cons_append, counted_cons, counted_cons, if_neg hfirst, if_neg hfirst, hrest, Nat.add_assoc]

/-- The forwarded messages of a received result. -/
theorem forwarded_cons (result : RecvResult) (results : List RecvResult) :
    forwarded (result :: results) = if result.fatal then [] else result.req :: forwarded results := by
  unfold forwarded
  cases hfatal : result.fatal <;> simp [hfatal]

/-- Genuine results forward at most their serving messages. -/
theorem counted_forwarded_le {results : List RecvResult} (h : OnlyGenuine results) :
    counted (forwarded results) ≤ servings results := by
  induction results with
  | nil => exact Nat.le_refl 0
  | cons result rest ih =>
    rw [onlyGenuine_cons] at h
    rw [forwarded_cons, servings, List.countP_cons]
    cases result with
    | error err =>
      rcases h with hterminal | ⟨hgenuine, -⟩
      · rw [if_pos (show (RecvResult.error err).fatal = true from hterminal)]
        exact Nat.zero_le _
      · cases hgenuine
    | message status =>
      rw [if_neg (by nofun), counted_cons]
      rcases h with hterminal | ⟨hgenuine, hrest⟩
      · have hdown : getStatus (RecvResult.message status).req = shuttingDown := of_decide_eq_true hterminal
        rw [if_pos hdown]
        exact Nat.zero_le _
      · have hcount := ih hrest
        rw [servings] at hcount
        simp only [RecvResult.genuine, Bool.or_eq_true, decide_eq_true_eq] at hgenuine
        rcases hgenuine with rfl | rfl
        · change 1 + counted (forwarded rest) ≤ rest.countP RecvResult.isServing + 1
          omega
        · change 0 + counted (forwarded rest) ≤ rest.countP RecvResult.isServing + 0
          omega

/-- The reported and due health checks are those of the handled messages. -/
structure Counting (events : List Event) (s : Stream) : Prop where
  checks : healthChecks events + s.handler.dueChecks = counted (taken events)
  looping : s.handler.phase ≠ .left → ∀ msg ∈ taken events, getStatus msg ≠ shuttingDown

/-- The reported health checks after one more event. -/
theorem healthChecks_concat (events : List Event) (e : Event) :
    healthChecks (events ++ [e]) = healthChecks events + if e.isHealthCheck then 1 else 0 := by
  unfold healthChecks
  rw [List.countP_append, List.countP_singleton]

/-- Events that neither take a message nor report a check keep the count. -/
theorem Counting.of_silent {events : List Event} {s t : Stream} {e : Event} (h : Counting events s)
    (hcheck : e.isHealthCheck = false) (htaken : e.taken = none)
    (hdue : t.handler.dueChecks = s.handler.dueChecks)
    (hphase : t.handler.phase ≠ .left → s.handler.phase ≠ .left) : Counting (events ++ [e]) t := by
  constructor
  · rw [healthChecks_concat, taken_concat_of_none events htaken, hcheck, hdue]
    exact h.checks
  · rw [taken_concat_of_none events htaken]
    exact fun hleft => h.looping (hphase hleft)

/-- Every step keeps the count. -/
theorem Counting.step {events : List Event} {s t : Stream} {e : Event} (h : Counting events s)
    (hstep : Stream.Step s e t) : Counting (events ++ [e]) t := by
  cases hstep.cases with
  | setupDone hhandler | setupFailed hhandler | registerNode hhandler | spawnListener hhandler
  | timeout hhandler =>
    exact h.of_silent rfl rfl (by rw [hhandler]; rfl) (fun _ => by rw [hhandler]; nofun)
  | recv | sendLast | sendErr | panicLast | panicErr | sendMsg | panicMsg => exact h.of_silent rfl rfl rfl id
  | reportNodeFailure hhandler | multiplexerReturns hhandler | closeErrChan hhandler | closeMsgChan hhandler =>
    exact h.of_silent rfl rfl (by rw [hhandler]; rfl) (fun hleft => absurd rfl hleft)
  | @takeMsg msg chan hhandler hreceive =>
    have hlooping := h.looping (by rw [hhandler]; nofun)
    have hchecks := h.checks
    have hconcat : taken (events ++ [.takeMsg msg]) = taken events ++ [msg] := taken_concat events (.takeMsg msg)
    rw [hhandler] at hchecks
    constructor
    · rw [healthChecks_concat, hconcat, counted_concat hlooping, ← hchecks]
      rfl
    · intro hleft msg' hmem
      rw [hconcat, List.mem_append, List.mem_singleton] at hmem
      rcases hmem with hmem | rfl
      · exact hlooping msg' hmem
      · exact fun hdown => hleft ((afterMsg_left_iff msg').mpr hdown)
  | @takeErr err chan hhandler hreceive =>
    refine h.of_silent rfl rfl ?_ (fun _ => by rw [hhandler]; nofun)
    rw [hhandler]
    simp only [afterErr]
    split <;> rfl
  | reportNewHealthCheck hhandler =>
    have hchecks := h.checks
    rw [hhandler] at hchecks
    constructor
    · rw [healthChecks_concat, taken_concat_of_none events rfl]
      exact hchecks
    · rw [taken_concat_of_none events rfl]
      exact fun _ => h.looping (by rw [hhandler]; nofun)

/-- The count holds in every run. -/
theorem run_counting {events : List Event} {s : Stream} (hrun : Run Stream.Step newStream events s) :
    Counting events s := by
  induction hrun with
  | nil => exact ⟨rfl, nofun⟩
  | snoc _ hlast ih => exact ih.step hlast

/-- In every run, the reported checks are bounded by the count of what the received results forward. -/
theorem run_healthChecks_le {events : List Event} {s : Stream}
    (hrun : Run Stream.Step newStream events s) :
    healthChecks events ≤ counted (forwarded (received events)) := by
  have hchecks := (run_counting hrun).checks
  have hinitial : taken events <+: forwarded (received events) :=
    (List.prefix_append _ _).trans (run_flow hrun).buffered
  have hcount := counted_mono hinitial
  omega

/-- A stream between two rounds: both goroutines wait and the channels are empty. -/
def readyStream (nodeKey : String) : Stream := ⟨nodeKey, .selecting, .receiving, .make, .make⟩

/-- The events up to the first round. -/
def startEvents (nodeKey : String) : List Event :=
  [.setup (.tcp nodeKey) (.ok "") (.ok ""), .registerNode, .spawnListener]

/-- The events that receive a message, hand it over and handle it. -/
def messageEvents (status : ServiceStatus) : List Event :=
  [.recv (.message status), .sendMsg, .takeMsg (some status)]

/-- The events that receive an error and hand it over with the nil message. -/
def errorEvents (err : GoError) : List Event :=
  [.recv (.error err), .sendErr, .takeErr err, .sendMsg, .takeMsg none]

/-- A stream starts its rounds. -/
theorem run_start (nodeKey : String) :
    Run Stream.Step newStream (startEvents nodeKey) (readyStream nodeKey) :=
  run_of_replay _ rfl

/-- One round with a message. -/
theorem run_message (nodeKey : String) (status : ServiceStatus) :
    Run Stream.Step (readyStream nodeKey) (messageEvents status)
      { readyStream nodeKey with handler := afterMsg (some status) } := by
  apply Run.cons (Stream.StepCase.recv rfl rfl).step
  apply Run.cons (Stream.StepCase.sendMsg rfl rfl).step
  exact Run.single (Stream.StepCase.takeMsg rfl rfl).step

/-- One round with a recoverable error makes a health check due. -/
theorem run_error (nodeKey : String) {err : GoError} (h : gRPCErrUnrecoverable err = false) :
    Run Stream.Step (readyStream nodeKey) (errorEvents err)
      { readyStream nodeKey with handler := .reportingCheck } := by
  have hrecv : afterRecv (.error err) = .sendingErr err := by simp [afterRecv, h]
  have htake : afterErr err = .selecting := by simp [afterErr, h]
  apply Run.cons (Stream.StepCase.recv rfl rfl).step
  rw [hrecv]
  apply Run.cons (Stream.StepCase.sendErr rfl rfl).step
  apply Run.cons (Stream.StepCase.takeErr rfl rfl).step
  rw [htake]
  apply Run.cons (Stream.StepCase.sendMsg rfl rfl).step
  exact Run.single (Stream.StepCase.takeMsg rfl rfl).step

/-- The results received in consecutive runs. -/
theorem received_append (events events' : List Event) :
    received (events ++ events') = received events ++ received events' :=
  List.filterMap_append

/-- The health checks reported in consecutive runs. -/
theorem healthChecks_append (events events' : List Event) :
    healthChecks (events ++ events') = healthChecks events + healthChecks events' :=
  List.countP_append

/-- A due health check is reported, and the stream is ready again. -/
theorem step_reportNewHealthCheck (nodeKey : String) :
    Stream.Step { readyStream nodeKey with handler := .reportingCheck } .reportNewHealthCheck
      (readyStream nodeKey) :=
  (Stream.StepCase.reportNewHealthCheck rfl).step

/-- Genuine results can be handled round by round, with one check for every serving message. -/
theorem run_genuine (nodeKey : String) (results : List RecvResult)
    (h : ∀ result ∈ results, result.genuine = true) :
    ∃ events, Run Stream.Step (readyStream nodeKey) events (readyStream nodeKey) ∧
      received events = results ∧ healthChecks events = servings results := by
  induction results with
  | nil => exact ⟨[], Run.nil, rfl, rfl⟩
  | cons result rest ih =>
    obtain ⟨events, hrun, hreceived, hchecks⟩ := ih fun r hr => h r (List.mem_cons_of_mem _ hr)
    have hgenuine := h result List.mem_cons_self
    cases result with
    | error err => cases hgenuine
    | message status =>
      simp only [RecvResult.genuine, Bool.or_eq_true, decide_eq_true_eq] at hgenuine
      rcases hgenuine with rfl | rfl
      · have hround := ((run_message nodeKey serving).snoc (step_reportNewHealthCheck nodeKey)).append hrun
        refine ⟨_, hround, ?_, ?_⟩
        · rw [received_append, hreceived]
          rfl
        · rw [healthChecks_append, hchecks, servings, servings, List.countP_cons]
          exact Nat.add_comm _ _
      · have hround := (run_message nodeKey notServing).append hrun
        refine ⟨_, hround, ?_, ?_⟩
        · rw [received_append, hreceived]
          rfl
        · rw [healthChecks_append, hchecks, servings, servings, List.countP_cons]
          exact Nat.add_comm _ _

/-- A result that is neither genuine nor terminal can be reported as a health check. -/
theorem run_spurious (nodeKey : String) {result : RecvResult} (hterminal : result.terminal = false)
    (hgenuine : result.genuine = false) :
    ∃ events s, Run Stream.Step (readyStream nodeKey) events s ∧ received events = [result] ∧
      healthChecks events = 1 := by
  cases result with
  | error err =>
    exact ⟨_, _, (run_error nodeKey hterminal).snoc (step_reportNewHealthCheck nodeKey), rfl, rfl⟩
  | message status =>
    have hcheck : afterMsg (some status) = .reportingCheck := by
      simp only [RecvResult.genuine, Bool.or_eq_false_iff, decide_eq_false_iff_not] at hgenuine
      simp only [RecvResult.terminal, decide_eq_false_iff_not] at hterminal
      unfold afterMsg
      rw [if_neg (show getStatus (some status) ≠ notServing from hgenuine.2),
        if_neg (show getStatus (some status) ≠ shuttingDown from hterminal)]
    have hround := run_message nodeKey status
    rw [hcheck] at hround
    exact ⟨_, _, hround.snoc (step_reportNewHealthCheck nodeKey), rfl, rfl⟩

/-- Results that are not only genuine have a first spurious one, before the stream ends. -/
theorem exists_spurious {results : List RecvResult} (h : ¬ OnlyGenuine results) :
    ∃ before result after, results = before ++ result :: after ∧
      (∀ r ∈ before, r.genuine = true) ∧ result.terminal = false ∧ result.genuine = false := by
  induction results with
  | nil => exact absurd nofun h
  | cons result rest ih =>
    rw [onlyGenuine_cons, not_or, not_and, Bool.not_eq_true] at h
    by_cases hgenuine : result.genuine = true
    · obtain ⟨before, spurious, after, rfl, hbefore, hspurious⟩ := ih (h.2 hgenuine)
      refine ⟨result :: before, spurious, after, rfl, ?_, hspurious⟩
      exact List.forall_mem_cons.mpr ⟨hgenuine, hbefore⟩
    · exact ⟨[], result, rest, rfl, nofun, h.1, Bool.eq_false_iff.mpr hgenuine⟩

/-- A result that is not genuine is no serving message. -/
theorem isServing_eq_false {result : RecvResult} (h : result.genuine = false) :
    result.isServing = false := by
  cases result with
  | error err => rfl
  | message status =>
    simp only [RecvResult.genuine, Bool.or_eq_false_iff] at h
    exact h.1

/-- In every interleaving and at every point, the reported health checks are at most the serving
messages received so far, exactly when only genuine results are received before the stream ends. -/
theorem healthChecks_le_servings_iff (results : List RecvResult) :
    (∀ events s, Run Stream.Step newStream events s → received events <+: results →
      healthChecks events ≤ servings (received events)) ↔ OnlyGenuine results := by
  constructor
  · intro h
    by_contra hspurious
    obtain ⟨before, result, after, rfl, hbefore, hterminal, hgenuine⟩ := exists_spurious hspurious
    obtain ⟨events, hrun, hreceived, hchecks⟩ := run_genuine "" before hbefore
    obtain ⟨events', s, hrun', hreceived', hchecks'⟩ := run_spurious "" hterminal hgenuine
    have hall := ((run_start "").append hrun).append hrun'
    have hresults : received (startEvents "" ++ events ++ events') = before ++ [result] := by
      rw [received_append, received_append, hreceived, hreceived']
      rfl
    have hcount : healthChecks (startEvents "" ++ events ++ events') = servings before + 1 := by
      rw [healthChecks_append, healthChecks_append, hchecks, hchecks',
        show healthChecks (startEvents "") = 0 from rfl, Nat.zero_add]
    have hservings : servings (before ++ [result]) = servings before := by
      rw [servings, List.countP_append, List.countP_singleton, isServing_eq_false hgenuine]
      rfl
    have hle := h _ s hall (by rw [hresults]; exact ⟨after, by simp⟩)
    rw [hresults, hservings, hcount] at hle
    omega
  · intro hgenuine events s hrun hinitial
    exact (run_healthChecks_le hrun).trans (counted_forwarded_le (hgenuine.mono hinitial))

/-- The end of the stream is reported as a health check although no message was received. -/
theorem eof_counted_as_healthCheck :
    ∃ s, Run Stream.Step newStream
        (startEvents "192.168.0.100:41000" ++ errorEvents eof ++ [.reportNewHealthCheck]) s ∧
      servings (received (startEvents "192.168.0.100:41000" ++ errorEvents eof ++ [.reportNewHealthCheck])) <
        healthChecks (startEvents "192.168.0.100:41000" ++ errorEvents eof ++ [.reportNewHealthCheck]) :=
  ⟨_, ((run_start _).append (run_error _ rfl)).snoc (step_reportNewHealthCheck _), by decide⟩

end GaleLB.LbNetwork
