import GaleLB.System.Cluster
import Mathlib.Algebra.BigOperators.Group.Finset.Piecewise
import Mathlib.Algebra.Order.BigOperators.Group.Finset

/-!
# What the load balancers know about the nodes

The nodes only ever report `Serving`. A handler therefore never sees a shutdown message:
it returns an error or not at all, and a load balancer learns from the timeout alone that a
node has stopped. That timeout is what ends the load balancer itself, unless the listener
of the stream has returned before.

The health checks that a load balancer counts are bounded by the reports that were sent to
it and by the recoverable errors of its receives. After a `Stop` at most one more report of
each loop is counted. Once all its streams have ended, the registry of a load balancer does
not change any more, however long the nodes go on reporting, until a node opens a new
connection to it; a `Start` call opens one also if it fails before it launches the loop.
-/

namespace GaleLB.System

open Transition LbNetwork NodeNetwork

variable {targets : ℕ → Targets} {events before after : List ClusterEvent} {c c' u : Cluster}

section Serving

/-- A handler returns nil because of a shutdown message. -/
theorem run_shutdown_of_nil {events : List LbNetwork.Event} {s : Stream}
    (hrun : Run Stream.Step newStream events s) (hnil : s.handler.result = some none) :
    ∃ msg ∈ taken events, getStatus msg = shuttingDown := by
  induction hrun with
  | nil => cases hnil
  | @snoc events s t e hrun hlast ih =>
    by_cases hleft : s.handler.phase = .left
    · obtain ⟨htaken, -, hresult⟩ := hlast.of_left hleft
      rw [taken_concat_of_none events htaken]
      exact ih (hresult.symm.trans hnil)
    · cases hlast.leaves hleft (HandlerPc.phase_of_result hnil) with
      | setupFailed | timeout => cases hnil
      | @shutdown msg chan hstatus => exact ⟨msg, by simp [taken_concat, Event.taken], hstatus⟩
      | @failed err chan herr =>
        have hfailure : (afterErr err).result = some none := hnil
        rw [afterErr, if_pos herr] at hfailure
        cases hfailure

/-- All messages that a listener forwards have the status `Serving`, also the nil messages. -/
theorem run_serving (hrun : Run Cluster.Step (newCluster targets) events c) (conn : Connection)
    {msg : HealthStatus} (hmsg : msg ∈ forwarded (received (streamEvents conn events))) :
    getStatus msg = serving := by
  obtain ⟨result, hresult, rfl⟩ := List.mem_map.mp hmsg
  have hreceived := (List.takeWhile_prefix _).subset hresult
  cases result with
  | error err => rfl
  | message status =>
    have hmessage : some status ∈ receivedMessages (streamEvents conn events) :=
      List.mem_filterMap.mpr ⟨_, hreceived, rfl⟩
    have hdelivered := List.mem_append_left ((c.transit conn).map some) hmessage
    rw [run_delivery hrun conn] at hdelivered
    exact Option.some.inj (List.eq_of_mem_replicate hdelivered)

/-- No handler takes a shutdown message. -/
theorem run_taken_serving (hrun : Run Cluster.Step (newCluster targets) events c) (conn : Connection)
    {msg : HealthStatus} (hmsg : msg ∈ taken (streamEvents conn events)) : getStatus msg = serving := by
  have hflow := (run_flow (run_streamOf hrun conn)).buffered
  exact run_serving hrun conn (hflow.subset (List.mem_append_left _ hmsg))

/-- In every run of the cluster, every handler that has returned has returned an error. -/
theorem handlers_return_errors (hrun : Run Cluster.Step (newCluster targets) events c) (conn : Connection)
    {result : Option GoError} (hreturned : (c.streamOf conn).handler = .returned result) :
    ∃ err, result = some err := by
  cases result with
  | some err => exact ⟨err, rfl⟩
  | none =>
    have hnil : (c.streamOf conn).handler.result = some none := by rw [hreturned]; rfl
    obtain ⟨msg, hmsg, hstatus⟩ := run_shutdown_of_nil (run_streamOf hrun conn) hnil
    rw [run_taken_serving hrun conn hmsg] at hstatus
    cases hstatus

/-- The load balancer of a cluster with one node. -/
def soleServer : String := "10.0.0.1:7070"

/-- The connection of the only loop. -/
def soleConnection : Connection := ⟨0, 0, soleServer⟩

/-- An event of the only stream. -/
def atSole (event : LbNetwork.Event) (nodeKey : String) : ClusterEvent := .manager soleServer ⟨0, event, nodeKey, 0⟩

/-- The node starts and the load balancer accepts its connection. -/
def connectEvents : List ClusterEvent :=
  [.node 0 (.startGuard 0) false, .node 0 (.assignCtx 0 soleTargets.entries) false,
    .node 0 (.launch 0 .started) false, atSole (.setup (.tcp sampleKey) (.ok "") (.ok "")) "",
    atSole .registerNode sampleKey, atSole .spawnListener sampleKey]

/-- A report is received and counted. -/
def countEvents : List ClusterEvent :=
  [atSole (.recv (.message serving)) sampleKey, atSole .sendMsg sampleKey,
    atSole (.takeMsg (some serving)) sampleKey, atSole .reportNewHealthCheck sampleKey]

/-- The load balancer times out. -/
def timeoutEvents : List ClusterEvent :=
  [atSole .timeout sampleKey, atSole .reportNodeFailure sampleKey, atSole .multiplexerReturns sampleKey,
    atSole .closeErrChan sampleKey, atSole .closeMsgChan sampleKey]

/-- The handler of a stream that timed out has returned an error. -/
theorem timedOut_returns_error :
    ∃ c result, Run Cluster.Step (newCluster fun _ => soleTargets) (connectEvents ++ timeoutEvents) c ∧
      (c.streamOf soleConnection).handler = .returned result ∧ ∃ err, result = some err := by
  have hrun : ∃ c result, Run Cluster.Step (newCluster fun _ => soleTargets) (connectEvents ++ timeoutEvents) c ∧
      (c.streamOf soleConnection).handler = .returned result := ⟨_, _, run_of_replay _ rfl, rfl⟩
  obtain ⟨c, result, hs, hreturned⟩ := hrun
  exact ⟨c, result, hs, hreturned, handlers_return_errors hs soleConnection hreturned⟩

end Serving

section Counting

/-- The result is an error after which the stream goes on. -/
def recoverable : RecvResult → Bool
  | .message _ => false
  | .error err => !gRPCErrUnrecoverable err

/-- The number of recoverable errors that a stream received. -/
def recoverableErrors (events : List LbNetwork.Event) : ℕ := (received events).countP recoverable

/-- The listener forwards a message for each message and for each recoverable error. -/
theorem length_forwarded_le (results : List RecvResult) :
    (forwarded results).length ≤ (results.filterMap RecvResult.message?).length + results.countP recoverable := by
  induction results with
  | nil => exact Nat.le_refl 0
  | cons result results ih =>
    rw [forwarded_cons]
    cases result with
    | message status =>
      change (forwarded results).length + 1 ≤ (results.filterMap RecvResult.message?).length + 1 +
        results.countP recoverable
      omega
    | error err =>
      change _ ≤ (results.filterMap RecvResult.message?).length + _
      rw [List.countP_cons]
      cases hfatal : gRPCErrUnrecoverable err with
      | true =>
        have hover : (RecvResult.error err).fatal = true := hfatal
        rw [if_pos hover]
        exact Nat.zero_le _
      | false =>
        have hon : (RecvResult.error err).fatal = false := hfatal
        have hrecoverable : recoverable (.error err) = true := by rw [recoverable, hfatal]; rfl
        rw [hon, hrecoverable, if_neg Bool.false_ne_true, if_pos rfl, List.length_cons]
        omega

/-- At most the messages and the recoverable errors of a stream are counted. -/
theorem run_healthChecks_le_received {events : List LbNetwork.Event} {s : Stream}
    (hrun : Run Stream.Step newStream events s) :
    healthChecks events ≤ (receivedMessages events).length + recoverableErrors events := by
  have hcounted := run_healthChecks_le hrun
  have hforwarded := length_forwarded_le (received events)
  have hsome : counted (forwarded (received events)) ≤ (forwarded (received events)).length :=
    (List.countP_le_length).trans (List.takeWhile_prefix _).length_le
  exact hcounted.trans (hsome.trans hforwarded)

/-- In every run of the cluster, the health checks of a connection that were counted, and the reports in
transit, are bounded by the reports that were sent and the recoverable errors. -/
theorem run_checks_le_reports (hrun : Run Cluster.Step (newCluster targets) events c) (conn : Connection) :
    healthChecks (streamEvents conn events) + (c.transit conn).length ≤
      reports conn events + recoverableErrors (streamEvents conn events) := by
  have hreceived := run_healthChecks_le_received (run_streamOf hrun conn)
  have hdelivered := congrArg List.length (run_delivery hrun conn)
  rw [List.length_append, List.length_map, List.length_replicate] at hdelivered
  omega

/-- The streams that reported health checks under a node key. -/
def reporters (key : String) (labels : List Label) : Finset ℕ :=
  ((labels.filter (Label.isCheck key)).map Label.stream).toFinset

/-- A stream counts the health checks that it reports. -/
theorem healthChecks_eventsOf_cons (id : ℕ) (l : Label) (labels : List Label) :
    healthChecks (eventsOf id (l :: labels)) =
      healthChecks (eventsOf id labels) + if id = l.stream ∧ l.event.isHealthCheck then 1 else 0 := by
  unfold eventsOf healthChecks
  rw [List.filterMap_cons]
  by_cases hstream : l.stream = id
  · simp only [hstream, if_true, List.countP_cons, true_and]
  · simp only [hstream, Ne.symm hstream, false_and, if_false, Nat.add_zero]

/-- Every health check under a key is one of the streams that report under it. -/
theorem countP_isCheck_le (key : String) (labels : List Label) (streams : Finset ℕ)
    (h : reporters key labels ⊆ streams) :
    labels.countP (Label.isCheck key) ≤ ∑ id ∈ streams, healthChecks (eventsOf id labels) := by
  induction labels with
  | nil => exact Nat.zero_le _
  | cons l labels ih =>
    simp only [healthChecks_eventsOf_cons, Finset.sum_add_distrib]
    rw [List.countP_cons]
    by_cases hcheck : l.isCheck key = true
    · have hreporters : reporters key (l :: labels) = insert l.stream (reporters key labels) := by
        unfold reporters
        rw [List.filter_cons_of_pos hcheck, List.map_cons, List.toFinset_cons]
      rw [hreporters] at h
      obtain ⟨hstream, hrest⟩ := Finset.insert_subset_iff.mp h
      have hevent : l.event.isHealthCheck = true := by
        rw [(Label.event_of_check (of_decide_eq_true hcheck)).1]
        rfl
      have hearlier := ih hrest
      simp only [hcheck, hevent, and_true, if_true, Finset.sum_ite_eq', if_pos hstream]
      exact Nat.add_le_add_right hearlier 1
    · have hreporters : reporters key (l :: labels) = reporters key labels := by
        unfold reporters
        rw [List.filter_cons_of_neg hcheck]
      rw [hreporters] at h
      rw [if_neg hcheck]
      exact (ih h).trans (Nat.le_add_right _ _)

/-- In every run of the cluster, the counter of a load balancer under a node key is at most the number of
reports that were sent, and of recoverable errors, on the connections whose streams report under the key. -/
theorem counter_le_reports (hrun : Run Cluster.Step (newCluster targets) events c) (server key : String) :
    ((c.managers server).registry.counter key).toNat ≤
      ∑ stream ∈ reporters key (serverLabels server events),
        (reports (connectionOf server stream) events +
          recoverableErrors (streamEvents (connectionOf server stream) events)) := by
  have hcounter := run_counter (run_manager hrun server) key
  have hsince : checksSinceFailure key (serverLabels server events) ≤
      (serverLabels server events).countP (Label.isCheck key) :=
    (List.rtakeWhile_suffix _ _).sublist.countP_le
  calc ((c.managers server).registry.counter key).toNat
      = checksSinceFailure key (serverLabels server events) % 2 ^ 64 := by rw [hcounter, UInt64.toNat_ofNat']
    _ ≤ (serverLabels server events).countP (Label.isCheck key) := (Nat.mod_le _ _).trans hsince
    _ ≤ ∑ stream ∈ reporters key (serverLabels server events),
          healthChecks (eventsOf stream (serverLabels server events)) :=
        countP_isCheck_le key _ _ (Finset.Subset.refl _)
    _ ≤ _ := by
        apply Finset.sum_le_sum
        intro stream _
        have hconn := run_checks_le_reports hrun (connectionOf server stream)
        have hstream := ((eq_connectionOf_iff _ server stream).mp rfl).2
        have hevents : eventsOf stream (serverLabels server events) =
            streamEvents (connectionOf server stream) events := by
          rw [streamEvents_eq_eventsOf, ← hstream]
          rfl
        rw [hevents]
        omega

/-- The node reports once. -/
def reportEvents : List ClusterEvent :=
  [.node 0 (.check 0 soleServer) false, .node 0 (.report 0 soleServer) true]

/-- After one report the counter is one. -/
theorem reported_counter :
    ∃ c, Run Cluster.Step (newCluster fun _ => soleTargets) (connectEvents ++ reportEvents ++ countEvents) c ∧
      (c.managers soleServer).registry.counter sampleKey = 1 ∧
      ((c.managers soleServer).registry.counter sampleKey).toNat ≤
        ∑ stream ∈ reporters sampleKey (serverLabels soleServer (connectEvents ++ reportEvents ++ countEvents)),
          (reports (connectionOf soleServer stream) (connectEvents ++ reportEvents ++ countEvents) +
            recoverableErrors (streamEvents (connectionOf soleServer stream)
              (connectEvents ++ reportEvents ++ countEvents))) := by
  have hrun : ∃ c,
      Run Cluster.Step (newCluster fun _ => soleTargets) (connectEvents ++ reportEvents ++ countEvents) c ∧
      (c.managers soleServer).registry.counter sampleKey = 1 := ⟨_, run_of_replay _ rfl, rfl⟩
  obtain ⟨c, hs, hcounter⟩ := hrun
  exact ⟨c, hs, hcounter, counter_le_reports hs soleServer sampleKey⟩

end Counting

section Stopping

/-- The report that a loop is about to send. -/
def dueReports : LoopPc → ℕ
  | .reporting => 1
  | _ => 0

/-- A settled loop sends the report that is due, and makes no other one due. -/
theorem settled_reports_step {d d' : Dispatcher} {e : NodeNetwork.Event} {call : CallId} {key : String}
    (h : d.Settled call key) (hinv : d.Inv) (hstep : Dispatcher.Step d e d') :
    (if e = .report call key then 1 else 0) + dueReports (d'.loops (call, key)) ≤
      dueReports (d.loops (call, key)) := by
  cases hstep.cases with
  | refused | passed | assignCtx | launchFailed | wait | finish | stopped =>
    rw [if_neg (by nofun), Nat.zero_add]
    exact Nat.le_refl _
  | stopRefused => rw [if_neg (by nofun), Nat.zero_add]
  | @launched call' entry rest outcome hpc houtcome =>
    have hne : (call, key) ≠ (call', entry.1) := by
      intro hsame
      exact h.launched (hsame ▸ (hinv.pending call' _ hpc).2 entry List.mem_cons_self |>.2)
    rw [if_neg (by nofun), Nat.zero_add, Dispatcher.launch_loops_of_ne d rest hne]
  | @checkPassed call' key' hpc hlive =>
    have hne : (call, key) ≠ (call', key') := by
      rintro ⟨⟩
      exact h.not_passes ⟨hpc, hlive⟩
    rw [if_neg (by nofun), Nat.zero_add, Dispatcher.setLoop_loops_of_ne d _ hne]
  | @checkExited call' key' hpc hlive =>
    rw [if_neg (by nofun), Nat.zero_add]
    by_cases hsame : (call, key) = (call', key')
    · cases hsame
      rw [Dispatcher.setLoop_loops_self]
      exact Nat.zero_le _
    · rw [Dispatcher.setLoop_loops_of_ne d _ hsame]
  | @report call' key' hpc =>
    by_cases hsame : (call, key) = (call', key')
    · cases hsame
      rw [if_pos rfl, Dispatcher.setLoop_loops_self, hpc]
      exact Nat.le_refl _
    · have hne : NodeNetwork.Event.report call' key' ≠ .report call key := by
        rintro ⟨⟩
        exact hsame rfl
      rw [if_neg hne, Nat.zero_add, Dispatcher.setLoop_loops_of_ne d _ hsame]

/-- Every run keeps the invariant of a dispatcher. -/
theorem dispatcher_inv_run {d d' : Dispatcher} {events : List NodeNetwork.Event} (h : d.Inv)
    (hrun : Run Dispatcher.Step d events d') : d'.Inv := by
  induction hrun with
  | nil => exact h
  | snoc _ hlast ih => exact ih.step hlast

/-- A settled loop sends at most the report that is due, if contexts are assigned alone. -/
theorem settled_reports_run {d d' : Dispatcher} {events : List NodeNetwork.Event} {call : CallId} {key : String}
    (h : d.Settled call key) (hinv : d.Inv) (hrun : Run (Restrict Dispatcher.Step AssignsAlone) d events d') :
    events.count (.report call key) + dueReports (d'.loops (call, key)) ≤ dueReports (d.loops (call, key)) := by
  induction hrun with
  | nil => simp
  | @snoc events t u e hrun hlast ih =>
    have hinv' := dispatcher_inv_run hinv hrun.unrestrict
    have hstep := settled_reports_step (run_settled h hinv hrun) hinv' hlast.1
    rw [List.count_append, List.count_singleton]
    simp only [beq_iff_eq]
    omega

/-- Contexts are assigned alone at every node. -/
def AllAssignAlone (c : Cluster) (e : ClusterEvent) : Prop :=
  ∀ id event, e.ofNode id = some event → AssignsAlone (c.nodes id) event

/-- A run of the cluster with contexts assigned alone is such a run of each node. -/
theorem run_node_alone (hrun : Run (Restrict Cluster.Step AllAssignAlone) c events c') (id : ℕ) :
    Run (Restrict Dispatcher.Step AssignsAlone) (c.nodes id) (nodeEvents id events) (c'.nodes id) :=
  hrun.project (fun c => c.nodes id) (ClusterEvent.ofNode id)
    (fun _ _ _ _ hstep hevent => ⟨hstep.1.ofNode hevent, hstep.2 id _ hevent⟩)
    fun _ _ _ hstep hevent => hstep.1.nodes_eq hevent

/-- A report on a connection is an event of its loop. -/
theorem ClusterEvent.ofNode_of_sends {e : ClusterEvent} {conn : Connection} (h : e.sends = some conn) :
    e.ofNode conn.node = some (.report conn.call conn.server) := by
  cases e with
  | manager => cases h
  | node id event sent =>
    cases event with
    | report call key =>
      cases sent with
      | true =>
        cases h
        exact if_pos rfl
      | false => cases h
    | _ => cases h

/-- The reports sent on a connection are reports of its loop. -/
theorem reports_le_count (conn : Connection) (events : List ClusterEvent) :
    reports conn events ≤ (nodeEvents conn.node events).count (.report conn.call conn.server) := by
  induction events with
  | nil => exact Nat.le_refl 0
  | cons e events ih =>
    unfold reports nodeEvents at *
    rw [List.countP_cons]
    by_cases hsends : e.sends = some conn
    · rw [List.filterMap_cons_some (ClusterEvent.ofNode_of_sends hsends), List.count_cons_self,
        if_pos (decide_eq_true hsends)]
      omega
    · rw [if_neg (fun h => hsends (of_decide_eq_true h)), List.filterMap_cons]
      split
      · exact ih
      · exact ih.trans List.count_le_count_cons

/-- When every context is assigned alone: of a loop that was launched before a successful `Stop` of its
node, a load balancer counts at most the reports sent before it and the one that was due, and the
recoverable errors. -/
theorem checks_bounded_after_stop (conn : Connection) {sent : Bool}
    (hbefore : Run (Restrict Cluster.Step AllAssignAlone) (newCluster targets) before c)
    (hlaunched : (c.nodes conn.node).loops (conn.call, conn.server) ≠ .notStarted)
    (hstop : (c.nodes conn.node).stop.1 = .returned none)
    (hstopped : Cluster.Step c (.node conn.node .stop sent) c')
    (hafter : Run (Restrict Cluster.Step AllAssignAlone) c' after u) :
    healthChecks (streamEvents conn (before ++ .node conn.node .stop sent :: after)) ≤
      reports conn before + dueReports ((c.nodes conn.node).loops (conn.call, conn.server)) +
        recoverableErrors (streamEvents conn (before ++ .node conn.node .stop sent :: after)) := by
  have hnode : c'.nodes conn.node = (c.nodes conn.node).stop.2 :=
    (Option.some.inj (hstopped.ofNode (if_pos rfl))).symm
  have hsettled := Dispatcher.settled_of_stop hstop hlaunched
  rw [← hnode] at hsettled
  have hinv : (c.nodes conn.node).Inv := NodeNetwork.run_inv (run_node hbefore.unrestrict conn.node)
  have hinv' : (c'.nodes conn.node).Inv := hinv.step (hstopped.ofNode (if_pos rfl))
  have hloops : (c'.nodes conn.node).loops = (c.nodes conn.node).loops := by
    rw [hnode]
    unfold Dispatcher.stop
    split <;> rfl
  have hlater := settled_reports_run hsettled hinv' (run_node_alone hafter conn.node)
  have hsent := reports_le_count conn after
  have hrun : Run Cluster.Step (newCluster targets) (before ++ .node conn.node .stop sent :: after) u :=
    hbefore.unrestrict.append (Run.cons hstopped hafter.unrestrict)
  have hchecks := run_checks_le_reports hrun conn
  have hreports : reports conn (before ++ .node conn.node .stop sent :: after) =
      reports conn before + reports conn after := by
    unfold reports
    rw [List.countP_append, List.countP_cons_of_neg (by nofun)]
  rw [hloops] at hlater
  omega

/-- The event assigns no context. -/
def AssignsNothing : ClusterEvent → Prop
  | .node _ (.assignCtx _ _) _ => False
  | _ => True

/-- Runs that assign no context assign it alone. -/
theorem run_alone_of_nothing (hrun : Run Cluster.Step c events c') (h : ∀ e ∈ events, AssignsNothing e) :
    Run (Restrict Cluster.Step AllAssignAlone) c events c' := by
  refine (hrun.restrict h).mono fun c e c' hstep => ⟨hstep.1, ?_⟩
  intro id event hevent
  cases e with
  | manager => cases hevent
  | node id' event' sent =>
    obtain ⟨-, hsame⟩ := Option.ite_none_right_eq_some.mp hevent
    cases hsame
    cases event with
    | assignCtx => exact False.elim hstep.2
    | _ => trivial

/-- The node reports once, and its second report is due. -/
def dueEvents : List ClusterEvent :=
  connectEvents ++ reportEvents ++ countEvents ++ [.node 0 (.check 0 soleServer) false]

/-- The due report is sent and counted. -/
def lastEvents : List ClusterEvent := .node 0 (.report 0 soleServer) true :: countEvents

/-- Of a node that is stopped when its second report is due, both reports are counted. -/
theorem stopped_node_checks :
    ∃ c, Run (Restrict Cluster.Step AllAssignAlone) (newCluster fun _ => soleTargets) dueEvents c ∧
      healthChecks (streamEvents soleConnection (dueEvents ++ .node 0 .stop false :: lastEvents)) = 2 ∧
      healthChecks (streamEvents soleConnection (dueEvents ++ .node 0 .stop false :: lastEvents)) ≤
        reports soleConnection dueEvents + dueReports ((c.nodes 0).loops (0, soleServer)) +
          recoverableErrors (streamEvents soleConnection (dueEvents ++ .node 0 .stop false :: lastEvents)) := by
  have hstart : ∃ c, Run (Restrict Cluster.Step AllAssignAlone) (newCluster fun _ => soleTargets)
      (dueEvents.take 2) c ∧ ∃ c' u v, Run Cluster.Step c (dueEvents.drop 2) c' ∧
        Cluster.Step c' (.node 0 .stop false) u ∧ Run Cluster.Step u lastEvents v ∧
        (c'.nodes 0).loops (0, soleServer) ≠ .notStarted ∧ (c'.nodes 0).stop.1 = .returned none := by
    refine ⟨_, Run.cons ⟨rfl, ?_⟩ (Run.single ⟨rfl, ?_⟩), _, _, _, run_of_replay _ rfl, rfl, run_of_replay _ rfl,
      nofun, rfl⟩
    · intro id event hevent
      obtain ⟨rfl, hsame⟩ := Option.ite_none_right_eq_some.mp hevent
      cases hsame
      trivial
    · intro id event hevent
      obtain ⟨rfl, hsame⟩ := Option.ite_none_right_eq_some.mp hevent
      cases hsame
      refine ⟨fun _ _ => rfl, fun call' rest hne hpc => ?_⟩
      exact absurd ((Function.update_of_ne hne _ _).symm.trans hpc) nofun
  obtain ⟨c, hstart, c', u, v, hbefore, hstopped, hafter, hlaunched, hstop⟩ := hstart
  have hquiet : ∀ e ∈ dueEvents.drop 2, AssignsNothing e := by
    simp [dueEvents, connectEvents, reportEvents, countEvents, atSole, AssignsNothing]
  have hquiet' : ∀ e ∈ lastEvents, AssignsNothing e := by
    simp [lastEvents, countEvents, atSole, AssignsNothing]
  have hdue : Run (Restrict Cluster.Step AllAssignAlone) (newCluster fun _ => soleTargets) dueEvents c' :=
    hstart.append (run_alone_of_nothing hbefore hquiet)
  exact ⟨c', hdue, rfl, checks_bounded_after_stop soleConnection hdue hlaunched hstop hstopped
    (run_alone_of_nothing hafter hquiet')⟩

end Stopping

section Reconnection

/-- Opened connections stay opened. -/
theorem Cluster.Step.opened_mono {e : ClusterEvent} {conn : Connection} (h : Cluster.Step c e c')
    (hopened : c.opened conn = true) : c'.opened conn = true := by
  cases h.cases with
  | node =>
    rw [Cluster.afterNode_opened, hopened]
    exact Bool.or_true _
  | manager => exact hopened

/-- Opened connections stay opened throughout. -/
theorem run_opened_mono {conn : Connection} (hrun : Run Cluster.Step c events c')
    (hopened : c.opened conn = true) : c'.opened conn = true := by
  induction hrun with
  | nil => exact hopened
  | snoc _ hlast ih => exact hlast.opened_mono ih

/-- A new stream starts with the setup of its handler. -/
theorem setup_of_newStream {e : LbNetwork.Event} {t : Stream} (h : Stream.Step newStream e t) :
    ∃ peer arpCache arpCall, e = .setup peer arpCache arpCall := by
  cases h.cases with
  | setupDone | setupFailed => exact ⟨_, _, _, rfl⟩
  | takeMsg hhandler | takeErr hhandler | registerNode hhandler | spawnListener hhandler | timeout hhandler
  | reportNewHealthCheck hhandler | reportNodeFailure hhandler | multiplexerReturns hhandler
  | closeErrChan hhandler | closeMsgChan hhandler => cases hhandler
  | recv hlistener | sendLast hlistener | sendErr hlistener | panicLast hlistener | panicErr hlistener
  | sendMsg hlistener | panicMsg hlistener => cases hlistener

/-- A step of a new stream needs its connection to be open. -/
theorem opened_of_permits {conn : Connection} {label : Label} (hpermits : c.permits conn.server label = true)
    (hstream : label.stream = conn.stream)
    (hsetup : ∃ peer arpCache arpCall, label.event = .setup peer arpCache arpCall) : c.opened conn = true := by
  obtain ⟨peer, arpCache, arpCall, hevent⟩ := hsetup
  have hopened := (Bool.and_eq_true_iff.mp hpermits).2
  rw [hevent] at hopened
  have hconn := (eq_connectionOf_iff conn conn.server label.stream).mpr ⟨rfl, hstream⟩
  rw [hconn]
  exact hopened

/-- A connection that is not open has no stream yet. -/
theorem run_newStream (hrun : Run Cluster.Step (newCluster targets) events c) {conn : Connection}
    (hclosed : c.opened conn = false) : c.streamOf conn = newStream := by
  induction hrun with
  | nil => rfl
  | @snoc events c c' e hrun hlast ih =>
    have hclosed' : c.opened conn = false := by
      by_contra hopened
      rw [hlast.opened_mono (Bool.not_eq_false _ ▸ hopened)] at hclosed
      cases hclosed
    cases hevent : e.ofStream conn with
    | none =>
      rw [hlast.streamOf_eq hevent]
      exact ih hclosed'
    | some event =>
      obtain ⟨⟨label, rfl, hstream, rfl, hpermits⟩, hstep⟩ := hlast.ofStream hevent
      rw [ih hclosed'] at hstep
      have hopened := opened_of_permits hpermits hstream (setup_of_newStream hstep)
      rw [hopened] at hclosed'
      cases hclosed'

/-- A handler that has returned stays so and calls the registry no more. -/
theorem silent_of_returned {s t : Stream} {e : LbNetwork.Event} {result : Option GoError}
    (h : Stream.Step s e t) (hreturned : s.handler = .returned result) :
    t.handler = .returned result ∧ ∀ nodeKey now, e.registryCall nodeKey now = none := by
  cases h.cases with
  | setupDone hhandler | setupFailed hhandler | registerNode hhandler | spawnListener hhandler
  | takeMsg hhandler | takeErr hhandler | timeout hhandler | reportNewHealthCheck hhandler
  | reportNodeFailure hhandler | multiplexerReturns hhandler | closeErrChan hhandler | closeMsgChan hhandler =>
    rw [hreturned] at hhandler
    cases hhandler
  | recv | sendLast | sendErr | panicLast | panicErr | sendMsg | panicMsg => exact ⟨hreturned, fun _ _ => rfl⟩

/-- All opened connections of a load balancer are over for it. -/
def Cluster.Abandoned (c : Cluster) (server : String) : Prop :=
  ∀ conn, conn.server = server → c.opened conn = true → ∃ result, (c.streamOf conn).handler = .returned result

/-- A step that opens no connection to an abandoned load balancer leaves it so, and its registry alone. -/
theorem Cluster.Abandoned.step {server : String} {e : ClusterEvent} (h : c.Abandoned server)
    (hunopened : ∀ conn, c.opened conn = false → c.streamOf conn = newStream) (hstep : Cluster.Step c e c')
    (hsame : ∀ conn, conn.server = server → c'.opened conn = true → c.opened conn = true) :
    c'.Abandoned server ∧ (c'.managers server).registry = (c.managers server).registry := by
  constructor
  · intro conn hserver hopened
    obtain ⟨result, hreturned⟩ := h conn hserver (hsame conn hserver hopened)
    cases hevent : e.ofStream conn with
    | none => exact ⟨result, by rw [hstep.streamOf_eq hevent, hreturned]⟩
    | some event => exact ⟨result, (silent_of_returned (hstep.ofStream hevent).2 hreturned).1⟩
  · cases hlabel : e.atServer server with
    | none => rw [hstep.managers_eq hlabel]
    | some label =>
      obtain ⟨hpermits, hmanager⟩ := hstep.atServer hlabel
      have hstream := ((eq_connectionOf_iff _ server label.stream).mp rfl).2
      have hmoved := hmanager.facts.stream
      have hopened : c.opened (connectionOf server label.stream) = true := by
        by_contra hclosed
        have hnew := hunopened _ (Bool.not_eq_true _ ▸ hclosed)
        unfold Cluster.streamOf at hnew
        rw [← hstream] at hnew
        have hnew' : (c.managers server).streams label.stream = newStream := hnew
        rw [hnew'] at hmoved
        exact hclosed (opened_of_permits hpermits hstream (setup_of_newStream hmoved))
      obtain ⟨result, hreturned⟩ := h (connectionOf server label.stream) rfl hopened
      unfold Cluster.streamOf at hreturned
      rw [← hstream] at hreturned
      exact hmanager.facts.silent ((silent_of_returned hmoved hreturned).2 _ _)

/-- Once all connections to a load balancer are over for it, its registry does not change in any
continuation that opens no new one, whatever the nodes report. -/
theorem no_reconnection {server : String} (hbefore : Run Cluster.Step (newCluster targets) before c)
    (habandoned : c.Abandoned server) (hafter : Run Cluster.Step c after u)
    (hsame : ∀ conn, conn.server = server → u.opened conn = true → c.opened conn = true) :
    u.Abandoned server ∧ (u.managers server).registry = (c.managers server).registry := by
  induction hafter with
  | nil => exact ⟨habandoned, rfl⟩
  | @snoc after t u e hafter hlast ih =>
    obtain ⟨habandoned', hregistry⟩ :=
      ih fun conn hserver hopened => hsame conn hserver (hlast.opened_mono hopened)
    have hunopened (conn : Connection) (hclosed : t.opened conn = false) : t.streamOf conn = newStream :=
      run_newStream (hbefore.append hafter) hclosed
    obtain ⟨hlater, hkept⟩ := habandoned'.step hunopened hlast fun conn hserver hopened =>
      run_opened_mono hafter (hsame conn hserver hopened)
    exact ⟨hlater, hkept.trans hregistry⟩

/-- The node goes on reporting after the load balancer has timed out, and its counter stays zero. -/
theorem reports_after_timeout :
    ∃ c u, Run Cluster.Step (newCluster fun _ => soleTargets) (connectEvents ++ timeoutEvents) c ∧
      Run Cluster.Step c (reportEvents ++ reportEvents) u ∧ c.Abandoned soleServer ∧
      reports soleConnection (reportEvents ++ reportEvents) = 2 ∧
      (u.managers soleServer).registry.continuousHealthChecks sampleKey = some 0 := by
  have hruns : ∃ c u, Run Cluster.Step (newCluster fun _ => soleTargets) (connectEvents ++ timeoutEvents) c ∧
      Run Cluster.Step c (reportEvents ++ reportEvents) u ∧
      (∀ conn, c.opened conn = true → conn = soleConnection) ∧ (∀ conn, u.opened conn = c.opened conn) ∧
      (∃ result, (c.streamOf soleConnection).handler = .returned result) ∧
      (c.managers soleServer).registry.continuousHealthChecks sampleKey = some 0 := by
    refine ⟨_, _, run_of_replay _ rfl, run_of_replay _ rfl, fun conn hopened => ?_, fun conn => rfl, ⟨_, rfl⟩, rfl⟩
    change (decide (some soleConnection = some conn) || false) = true at hopened
    rw [Bool.or_false, decide_eq_true_eq, Option.some.injEq] at hopened
    exact hopened.symm
  obtain ⟨c, u, hbefore, hafter, hopened, hsame, hreturned, hcounter⟩ := hruns
  have habandoned : c.Abandoned soleServer := by
    intro conn _ hconn
    rw [hopened conn hconn]
    exact hreturned
  have hkept := no_reconnection hbefore habandoned hafter fun conn _ hconn => (hsame conn).symm.trans hconn
  exact ⟨c, u, hbefore, hafter, habandoned, rfl, by rw [hkept.2]; exact hcounter⟩

end Reconnection

end GaleLB.System
