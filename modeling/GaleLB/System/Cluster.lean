import GaleLB.LbNetwork.HealthAccounting
import GaleLB.NodeNetwork.StopFinality
import Mathlib.Data.Nat.Pairing

/-!
# Nodes and load balancers together

Every node runs a dispatcher and every load balancer a node manager. A launch that creates
its client opens a connection to the load balancer under the key of the target, which is
the text that the client dials. A report that is sent travels on the connection of its
loop, and the stream that serves the connection receives what travels on it in order.
Receives may fail at any time.

A load balancer is a single process: the panic of one listener ends it with all its
streams. The nodes and the load balancers otherwise move at will, so a run of the cluster
is any interleaving of their runs that respects the connections.
-/

namespace GaleLB.System

open Transition LbNetwork NodeNetwork

/-- The health stream of a loop: its node, the `Start` call that launched it, and the load balancer. -/
structure Connection where
  node : ℕ
  call : CallId
  server : String
deriving DecidableEq, Repr

/-- The number of the stream that serves a connection at its load balancer. -/
def Connection.stream (conn : Connection) : ℕ := Nat.pair conn.node conn.call

/-- The connection that a stream of a load balancer serves. -/
def connectionOf (server : String) (stream : ℕ) : Connection := ⟨stream.unpair.1, stream.unpair.2, server⟩

/-- A connection is served by one stream of its load balancer. -/
theorem eq_connectionOf_iff (conn : Connection) (server : String) (stream : ℕ) :
    conn = connectionOf server stream ↔ server = conn.server ∧ stream = conn.stream := by
  constructor
  · rintro rfl
    exact ⟨rfl, (Nat.pair_unpair stream).symm⟩
  · rintro ⟨rfl, rfl⟩
    unfold connectionOf Connection.stream
    rw [Nat.unpair_pair]

/-- The nodes, the load balancers under the texts that are dialed, and the connections between them with
the messages in transit. -/
structure Cluster where
  nodes : ℕ → Dispatcher
  managers : String → Manager
  crashed : String → Bool
  opened : Connection → Bool
  transit : Connection → List ServiceStatus

/-- A cluster before anything has happened. -/
def newCluster (targets : ℕ → Targets) : Cluster where
  nodes id := newDispatcher (targets id)
  managers := fun _ => newManager
  crashed := fun _ => false
  opened := fun _ => false
  transit := fun _ => []

/-- The events of the nodes, with the success of the send if it is a report, and of the load balancers. -/
inductive ClusterEvent where
  | node (id : ℕ) (event : NodeNetwork.Event) (sent : Bool)
  | manager (server : String) (label : Label)

/-- The connection that an event of a node opens: the client has been created when its configuration is
fetched. -/
def openedBy (id : ℕ) (d : Dispatcher) : NodeNetwork.Event → Option Connection
  | .launch _ (.clientFailed _) => none
  | .launch call _ =>
    match d.starts call with
    | .launching (entry :: _) => some ⟨id, call, entry.1⟩
    | _ => none
  | _ => none

/-- The connection on which an event of a cluster sends a report. -/
def ClusterEvent.sends : ClusterEvent → Option Connection
  | .node id (.report call key) true => some ⟨id, call, key⟩
  | _ => none

/-- The message that an event of a stream receives. -/
def arrival : LbNetwork.Event → Option ServiceStatus
  | .recv (.message status) => some status
  | _ => none

/-- The cluster after an event of a node. -/
@[simps] def Cluster.afterNode (c : Cluster) (id : ℕ) (event : NodeNetwork.Event) (sent : Bool) (d : Dispatcher) :
    Cluster :=
  { c with
    nodes := Function.update c.nodes id d
    opened := fun conn => decide (openedBy id (c.nodes id) event = some conn) || c.opened conn
    transit := fun conn =>
      if (ClusterEvent.node id event sent).sends = some conn then c.transit conn ++ [serving]
      else c.transit conn }

/-- A load balancer may do what its connections permit, unless it has crashed: a handler starts with the
connection, and the next message in transit is received. -/
def Cluster.permits (c : Cluster) (server : String) (label : Label) : Bool :=
  !c.crashed server && match label.event with
    | .setup _ _ _ => c.opened (connectionOf server label.stream)
    | .recv (.message status) => (c.transit (connectionOf server label.stream)).head? = some status
    | _ => true

/-- The cluster after an event of a load balancer. -/
@[simps] def Cluster.afterManager (c : Cluster) (server : String) (label : Label) (m : Manager) : Cluster :=
  { c with
    managers := Function.update c.managers server m
    crashed := Function.update c.crashed server (decide ((m.streams label.stream).listener = .panicked))
    transit := fun conn =>
      if conn = connectionOf server label.stream ∧ (arrival label.event).isSome then (c.transit conn).tail
      else c.transit conn }

/-- One event, where it is enabled. -/
def Cluster.step (c : Cluster) : ClusterEvent → Option Cluster
  | .node id event sent => ((c.nodes id).step event).map (c.afterNode id event sent)
  | .manager server label =>
    if c.permits server label then ((c.managers server).step label).map (c.afterManager server label) else none

/-- The steps of a cluster as a relation. -/
abbrev Cluster.Step : Cluster → ClusterEvent → Cluster → Prop := Computes Cluster.step

/-- Everything that one event can do to a cluster. -/
inductive Cluster.StepCase (c : Cluster) : ClusterEvent → Cluster → Prop
  | node {id event sent d} (hstep : Dispatcher.Step (c.nodes id) event d) :
      StepCase c (.node id event sent) (c.afterNode id event sent d)
  | manager {server label m} (hpermits : c.permits server label = true)
      (hstep : Manager.Step (c.managers server) label m) :
      StepCase c (.manager server label) (c.afterManager server label m)

variable {c c' : Cluster} {e : ClusterEvent}

/-- The cases exhaust the steps. -/
theorem Cluster.Step.cases (h : Cluster.Step c e c') : Cluster.StepCase c e c' := by
  cases e with
  | node id event sent =>
    obtain ⟨d, hstep, rfl⟩ := Option.map_eq_some_iff.mp h
    exact .node hstep
  | manager server label =>
    change (if _ then _ else none) = some c' at h
    split at h
    · obtain ⟨m, hstep, rfl⟩ := Option.map_eq_some_iff.mp h
      exact .manager ‹_› hstep
    · cases h

/-- The event of one node. -/
def ClusterEvent.ofNode (id : ℕ) : ClusterEvent → Option NodeNetwork.Event
  | .node id' event _ => if id' = id then some event else none
  | .manager _ _ => none

/-- The labelled event of one load balancer. -/
def ClusterEvent.atServer (server : String) : ClusterEvent → Option Label
  | .node _ _ _ => none
  | .manager server' label => if server' = server then some label else none

/-- The events of one node in a history of the cluster. -/
def nodeEvents (id : ℕ) (events : List ClusterEvent) : List NodeNetwork.Event :=
  events.filterMap (ClusterEvent.ofNode id)

/-- The labelled events of one load balancer in a history of the cluster. -/
def serverLabels (server : String) (events : List ClusterEvent) : List Label :=
  events.filterMap (ClusterEvent.atServer server)

/-- The event of the stream that serves a connection. -/
def ClusterEvent.ofStream (conn : Connection) : ClusterEvent → Option LbNetwork.Event
  | .node _ _ _ => none
  | .manager server label => if conn = connectionOf server label.stream then some label.event else none

/-- The events of the stream that serves a connection. -/
def streamEvents (conn : Connection) (events : List ClusterEvent) : List LbNetwork.Event :=
  events.filterMap (ClusterEvent.ofStream conn)

/-- The stream that serves a connection. -/
def Cluster.streamOf (c : Cluster) (conn : Connection) : Stream :=
  (c.managers conn.server).streams conn.stream

/-- A step that concerns a node is a step of its dispatcher. -/
theorem Cluster.Step.ofNode {id : ℕ} {event : NodeNetwork.Event} (h : Cluster.Step c e c')
    (hevent : e.ofNode id = some event) : Dispatcher.Step (c.nodes id) event (c'.nodes id) := by
  cases h.cases with
  | @node id' event' sent d hstep =>
    obtain ⟨rfl, hsame⟩ := Option.ite_none_right_eq_some.mp hevent
    cases hsame
    rw [Cluster.afterNode_nodes, Function.update_self]
    exact hstep
  | manager => cases hevent

/-- The other steps leave the node alone. -/
theorem Cluster.Step.nodes_eq {id : ℕ} (h : Cluster.Step c e c') (hevent : e.ofNode id = none) :
    c'.nodes id = c.nodes id := by
  cases h.cases with
  | @node id' event' sent d hstep =>
    have hne : id' ≠ id := by
      rintro rfl
      rw [ClusterEvent.ofNode, if_pos rfl] at hevent
      cases hevent
    exact Function.update_of_ne hne.symm d c.nodes
  | manager => rfl

/-- A step that concerns a load balancer is a permitted step of its node manager. -/
theorem Cluster.Step.atServer {server : String} {label : Label} (h : Cluster.Step c e c')
    (hlabel : e.atServer server = some label) :
    c.permits server label = true ∧ Manager.Step (c.managers server) label (c'.managers server) := by
  cases h.cases with
  | node => cases hlabel
  | @manager server' label' m hpermits hstep =>
    obtain ⟨rfl, hsame⟩ := Option.ite_none_right_eq_some.mp hlabel
    cases hsame
    rw [Cluster.afterManager_managers, Function.update_self]
    exact ⟨hpermits, hstep⟩

/-- The other steps leave the load balancer alone. -/
theorem Cluster.Step.managers_eq {server : String} (h : Cluster.Step c e c') (hlabel : e.atServer server = none) :
    c'.managers server = c.managers server := by
  cases h.cases with
  | node => rfl
  | @manager server' label' m hpermits hstep =>
    have hne : server' ≠ server := by
      rintro rfl
      rw [ClusterEvent.atServer, if_pos rfl] at hlabel
      cases hlabel
    exact Function.update_of_ne hne.symm m c.managers

variable {targets : ℕ → Targets} {events : List ClusterEvent}

/-- A run of the cluster is a run of each node. -/
theorem run_node (hrun : Run Cluster.Step c events c') (id : ℕ) :
    Run Dispatcher.Step (c.nodes id) (nodeEvents id events) (c'.nodes id) :=
  hrun.project (fun c => c.nodes id) (ClusterEvent.ofNode id) (fun _ _ _ _ hstep hevent => hstep.ofNode hevent)
    fun _ _ _ hstep hevent => hstep.nodes_eq hevent

/-- A run of the cluster is a run of each load balancer. -/
theorem run_manager (hrun : Run Cluster.Step c events c') (server : String) :
    Run Manager.Step (c.managers server) (serverLabels server events) (c'.managers server) :=
  hrun.project (fun c => c.managers server) (ClusterEvent.atServer server)
    (fun _ _ _ _ hstep hlabel => (hstep.atServer hlabel).2) fun _ _ _ hstep hlabel => hstep.managers_eq hlabel

/-- A step of the stream that serves a connection is a permitted step of its load balancer. -/
theorem Cluster.Step.ofStream {conn : Connection} {event : LbNetwork.Event} (h : Cluster.Step c e c')
    (hevent : e.ofStream conn = some event) :
    (∃ label, e = .manager conn.server label ∧ label.stream = conn.stream ∧ label.event = event ∧
      c.permits conn.server label = true) ∧ Stream.Step (c.streamOf conn) event (c'.streamOf conn) := by
  cases e with
  | node => cases hevent
  | manager server label =>
    obtain ⟨hconn, hsame⟩ := Option.ite_none_right_eq_some.mp hevent
    cases hsame
    obtain ⟨rfl, hstream⟩ := (eq_connectionOf_iff conn server label.stream).mp hconn
    obtain ⟨hpermits, hstep⟩ := h.atServer (if_pos rfl)
    refine ⟨⟨label, rfl, hstream, rfl, hpermits⟩, ?_⟩
    have hmoved := hstep.facts.stream
    rw [hstream] at hmoved
    exact hmoved

/-- A load balancer has crashed after a step of a stream if the listener of the stream has panicked. -/
theorem Cluster.Step.crashed_ofStream {conn : Connection} {event : LbNetwork.Event} (h : Cluster.Step c e c')
    (hevent : e.ofStream conn = some event) :
    c'.crashed conn.server = decide ((c'.streamOf conn).listener = .panicked) := by
  cases h.cases with
  | node => cases hevent
  | @manager server label m hpermits hstep =>
    obtain ⟨hconn, -⟩ := Option.ite_none_right_eq_some.mp hevent
    obtain ⟨rfl, hstream⟩ := (eq_connectionOf_iff conn server label.stream).mp hconn
    rw [Cluster.streamOf, Cluster.afterManager_crashed, Cluster.afterManager_managers, Function.update_self,
      Function.update_self, hstream]

/-- The other steps leave the stream alone. -/
theorem Cluster.Step.streamOf_eq {conn : Connection} (h : Cluster.Step c e c') (hevent : e.ofStream conn = none) :
    c'.streamOf conn = c.streamOf conn := by
  unfold Cluster.streamOf
  cases hlabel : e.atServer conn.server with
  | none => rw [h.managers_eq hlabel]
  | some label =>
    cases e with
    | node => cases hlabel
    | manager server label' =>
      obtain ⟨rfl, hsame⟩ := Option.ite_none_right_eq_some.mp hlabel
      cases hsame
      apply (h.atServer hlabel).2.facts.others
      intro hstream
      have hconn := (eq_connectionOf_iff conn conn.server label.stream).mpr ⟨rfl, hstream.symm⟩
      rw [ClusterEvent.ofStream, if_pos hconn] at hevent
      cases hevent

/-- A run of the cluster is a run of the stream that serves a connection. -/
theorem run_streamOf (hrun : Run Cluster.Step (newCluster targets) events c) (conn : Connection) :
    Run Stream.Step newStream (streamEvents conn events) (c.streamOf conn) :=
  hrun.project (fun c => c.streamOf conn) (ClusterEvent.ofStream conn)
    (fun _ _ _ _ hstep hevent => (hstep.ofStream hevent).2) fun _ _ _ hstep hevent => hstep.streamOf_eq hevent

/-- The events of a stream after one more event. -/
theorem streamEvents_concat (conn : Connection) (events : List ClusterEvent) (e : ClusterEvent) :
    streamEvents conn (events ++ [e]) = streamEvents conn events ++ (e.ofStream conn).toList := by
  unfold streamEvents
  rw [List.filterMap_append, List.filterMap_cons, List.filterMap_nil]
  cases e.ofStream conn <;> rfl

/-- The events of a stream are its events at the load balancer. -/
theorem streamEvents_eq_eventsOf (conn : Connection) (events : List ClusterEvent) :
    streamEvents conn events = eventsOf conn.stream (serverLabels conn.server events) := by
  unfold streamEvents eventsOf serverLabels
  rw [List.filterMap_filterMap]
  congr 1
  funext e
  cases e with
  | node => rfl
  | manager server label =>
    simp only [ClusterEvent.ofStream, ClusterEvent.atServer, eq_connectionOf_iff]
    by_cases hserver : server = conn.server <;> simp [hserver]

/-- The number of reports that were sent on a connection. -/
def reports (conn : Connection) (events : List ClusterEvent) : ℕ :=
  events.countP fun e => e.sends = some conn

/-- The reports after one more event. -/
theorem reports_concat (conn : Connection) (events : List ClusterEvent) (e : ClusterEvent) :
    reports conn (events ++ [e]) = reports conn events + if e.sends = some conn then 1 else 0 := by
  unfold reports
  rw [List.countP_append, List.countP_singleton]
  simp only [decide_eq_true_eq]

/-- The messages of a stream are its arrivals. -/
theorem receivedMessages_concat_arrival (events : List LbNetwork.Event) (e : LbNetwork.Event) :
    receivedMessages (events ++ [e]) = receivedMessages events ++ ((arrival e).map some).toList := by
  rw [receivedMessages_concat]
  congr 1
  cases e with
  | recv result => cases result <;> rfl
  | _ => rfl

/-- A received message was the first one in transit. -/
theorem Cluster.transit_of_permits {server : String} {label : Label} {status : ServiceStatus}
    (h : c.permits server label = true) (harrival : arrival label.event = some status) :
    ∃ rest, c.transit (connectionOf server label.stream) = status :: rest := by
  obtain ⟨stream, event, nodeKey, now⟩ := label
  cases event with
  | recv result =>
    cases result with
    | message status' =>
      cases harrival
      have hhead := (Bool.and_eq_true_iff.mp h).2
      exact List.head?_eq_some_iff.mp (of_decide_eq_true hhead)
    | error err => cases harrival
  | _ => cases harrival

/-- In every run of the cluster, what a stream has received and what is in transit to it are the reports
that were sent to it, and all of them say `Serving`. -/
theorem run_delivery (hrun : Run Cluster.Step (newCluster targets) events c) (conn : Connection) :
    receivedMessages (streamEvents conn events) ++ (c.transit conn).map some =
      List.replicate (reports conn events) (some serving) := by
  induction hrun with
  | nil => rfl
  | @snoc events c c' e hrun hlast ih =>
    rw [reports_concat, streamEvents_concat]
    cases hlast.cases with
    | @node id event sent d hstep =>
      rw [Cluster.afterNode_transit]
      change receivedMessages (_ ++ []) ++ _ = _
      rw [List.append_nil]
      split
      · rw [List.map_append, ← List.append_assoc, ih, List.replicate_succ']
        rfl
      · exact ih
    | @manager server label m hpermits hstep =>
      rw [Cluster.afterManager_transit]
      change _ = List.replicate (reports conn events) (some serving)
      by_cases hconn : conn = connectionOf server label.stream
      · have hevent : (ClusterEvent.manager server label).ofStream conn = some label.event := if_pos hconn
        rw [hevent, Option.toList_some, receivedMessages_concat_arrival]
        cases harrival : arrival label.event with
        | none =>
          rw [if_neg (fun h => Bool.false_ne_true h.2)]
          simpa only [Option.map_none, Option.toList_none, List.append_nil] using ih
        | some status =>
          -- The received message moves from the queue to the history of the stream.
          obtain ⟨rest, htransit⟩ := Cluster.transit_of_permits hpermits harrival
          rw [← hconn] at htransit
          rw [if_pos ⟨hconn, rfl⟩, htransit, ← ih, htransit]
          simp
      · have hevent : (ClusterEvent.manager server label).ofStream conn = none := if_neg hconn
        rw [hevent, Option.toList_none, List.append_nil, if_neg (fun h => hconn h.1)]
        exact ih

end GaleLB.System
