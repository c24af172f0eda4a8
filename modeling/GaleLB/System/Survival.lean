import GaleLB.System.HealthReporting

/-!
# When a load balancer survives

The handler of a stream that times out returns and closes the channels of its listener. The
cancelled stream then wakes the listener up, which sends on a closed channel, and the panic
ends the load balancer with all its other streams. No other message of a node makes a
handler give up. A load balancer survives in all runs of the cluster in which its streams
time out only after their listeners have returned.
-/

namespace GaleLB.System

open Transition LbNetwork NodeNetwork

variable {targets : ℕ → Targets} {events : List ClusterEvent} {c : Cluster}

/-- A stream of a load balancer times out only after its listener has returned. -/
def TimesOutLate (server : String) (c : Cluster) (e : ClusterEvent) : Prop :=
  ∀ label, e.atServer server = some label → label.event = .timeout →
    ((c.managers server).streams label.stream).listener = .returned

/-- A load balancer crashes by the panic of one of its listeners. -/
theorem run_panicked_of_crashed (hrun : Run Cluster.Step (newCluster targets) events c) {server : String}
    (hcrashed : c.crashed server = true) :
    ∃ conn, conn.server = server ∧ (c.streamOf conn).listener = .panicked := by
  induction hrun with
  | nil => cases hcrashed
  | @snoc events c c' e hrun hlast ih =>
    cases hlast.cases with
    | node => exact ih hcrashed
    | @manager server' label m hpermits hstep =>
      by_cases hserver : server' = server
      · subst hserver
        have hevent : (ClusterEvent.manager server' label).ofStream (connectionOf server' label.stream) =
          some label.event := if_pos rfl
        exact ⟨_, rfl, of_decide_eq_true ((hlast.crashed_ofStream hevent).symm.trans hcrashed)⟩
      · rw [Cluster.afterManager_crashed, Function.update_of_ne (Ne.symm hserver)] at hcrashed
        obtain ⟨conn, rfl, hpanicked⟩ := ih hcrashed
        have hother : (ClusterEvent.manager server' label).ofStream conn = none :=
          if_neg fun hconn => hserver ((eq_connectionOf_iff _ _ _).mp hconn).1
        exact ⟨conn, rfl, (hlast.streamOf_eq hother) ▸ hpanicked⟩

/-- The streams of a load balancer that times out late stay quiet. -/
theorem run_quiet_streams {server : String}
    (hrun : Run (Restrict Cluster.Step (TimesOutLate server)) (newCluster targets) events c) {conn : Connection}
    (hserver : conn.server = server) : (c.streamOf conn).Quiet := by
  induction hrun with
  | nil => exact ⟨nofun, fun hleft => Or.inl rfl⟩
  | @snoc events c c' e hrun hlast ih =>
    cases hevent : e.ofStream conn with
    | none =>
      rw [hlast.1.streamOf_eq hevent]
      exact ih
    | some event =>
      obtain ⟨⟨label, rfl, hstream, rfl, -⟩, hstep⟩ := hlast.1.ofStream hevent
      apply ih.step (LbNetwork.run_inv (run_streamOf hrun.unrestrict conn)) hstep
      intro hgivesUp
      cases hlabel : label.event with
      | timeout =>
        have hlate := hlast.2 label (if_pos hserver) hlabel
        rw [hstream, ← hserver] at hlate
        exact hlate
      | takeMsg msg =>
        -- A taken message says `Serving`, so the handler does not give up because of it.
        have hrun' := hrun.unrestrict.snoc hlast.1
        have hmem : msg ∈ taken (streamEvents conn (events ++ [.manager conn.server label])) := by
          rw [streamEvents_concat, hevent, hlabel, Option.toList_some, taken_concat]
          exact List.mem_append_right _ (List.mem_singleton_self msg)
        have hshutdown : getStatus msg = shuttingDown := by
          rw [hlabel] at hgivesUp
          exact hgivesUp
        rw [run_taken_serving hrun' conn hmem] at hshutdown
        cases hshutdown
      | _ =>
        rw [hlabel] at hgivesUp
        exact absurd hgivesUp id

/-- The event needs nothing from the connection. -/
def Unconnected : LbNetwork.Event → Prop
  | .setup _ _ _ => False
  | .recv (.message _) => False
  | _ => True

/-- A load balancer that has not crashed permits the events that need nothing from the connection. -/
theorem Cluster.permits_of_unconnected {server : String} {label : Label} (h : Unconnected label.event)
    (hcrashed : c.crashed server = false) : c.permits server label = true := by
  unfold Cluster.permits
  rw [hcrashed]
  obtain ⟨stream, event, nodeKey, now⟩ := label
  cases event with
  | setup => exact absurd h id
  | recv result =>
    cases result with
    | message status => exact absurd h id
    | error err => rfl
  | _ => rfl

/-- The steps of a stream that need nothing from the connection, up to a panic. -/
abbrev UnconnectedStep : Stream → LbNetwork.Event → Stream → Prop :=
  Restrict Stream.Step fun s e => Unconnected e ∧ s.listener ≠ .panicked

/-- A step of a stream is a step of the node manager. -/
theorem exists_manager_step {m : Manager} {id : ℕ} {e : LbNetwork.Event} {t : Stream}
    (hstep : Stream.Step (m.streams id) e t) :
    ∃ m', Manager.Step m ⟨id, e, (m.streams id).nodeKey, 0⟩ m' ∧ m'.streams id = t := by
  have hnext : (m.streams id).step e = some t := hstep
  have henabled : (m.step ⟨id, e, (m.streams id).nodeKey, 0⟩).isSome = true := by
    simp only [Manager.step, if_true, hnext, Option.bind_eq_bind, Option.bind_some, Option.isSome_some]
  obtain ⟨m', hmanager⟩ := Option.isSome_iff_exists.mp henabled
  have hstream := (Manager.Step.facts hmanager).stream
  exact ⟨m', hmanager, Option.some.inj (hstream.symm.trans hnext)⟩

/-- Such a step of a stream is a step of the cluster. -/
theorem exists_step_of_stream {conn : Connection} {e : LbNetwork.Event} {t : Stream}
    (hstep : UnconnectedStep (c.streamOf conn) e t)
    (hcrashed : c.crashed conn.server = decide ((c.streamOf conn).listener = .panicked)) :
    ∃ e' c', Cluster.Step c e' c' ∧ c'.streamOf conn = t ∧
      c'.crashed conn.server = decide (t.listener = .panicked) := by
  obtain ⟨hstep, hunconnected, hrunning⟩ := hstep
  rw [decide_eq_false hrunning] at hcrashed
  obtain ⟨m, hmanager, hstream⟩ := exists_manager_step hstep
  have hpermits : c.permits conn.server ⟨conn.stream, e, (c.streamOf conn).nodeKey, 0⟩ = true :=
    Cluster.permits_of_unconnected hunconnected hcrashed
  refine ⟨.manager conn.server ⟨conn.stream, e, (c.streamOf conn).nodeKey, 0⟩,
    c.afterManager conn.server ⟨conn.stream, e, (c.streamOf conn).nodeKey, 0⟩ m, ?_, ?_, ?_⟩
  · exact (if_pos hpermits).trans (Option.map_eq_some_iff.mpr ⟨m, hmanager, rfl⟩)
  · rw [Cluster.streamOf, Cluster.afterManager_managers, Function.update_self]
    exact hstream
  · rw [Cluster.afterManager_crashed, Function.update_self]
    simp only [hstream]

/-- Such a run of a stream is a run of the cluster. -/
theorem exists_run_of_stream {conn : Connection} {later : List LbNetwork.Event} {t : Stream}
    (hrun : Run UnconnectedStep (c.streamOf conn) later t)
    (hcrashed : c.crashed conn.server = decide ((c.streamOf conn).listener = .panicked)) :
    ∃ events c', Run Cluster.Step c events c' ∧ c'.streamOf conn = t ∧
      c'.crashed conn.server = decide (t.listener = .panicked) := by
  generalize hstart : c.streamOf conn = s at hrun
  induction hrun with
  | nil => exact ⟨[], c, Run.nil, hstart, hstart ▸ hcrashed⟩
  | snoc _ hlast ih =>
    obtain ⟨events, c', hrun, rfl, hcrashed'⟩ := ih
    obtain ⟨e', c'', hstep, hstream, hcrashed''⟩ := exists_step_of_stream hlast hcrashed'
    exact ⟨_, c'', hrun.snoc hstep, hstream, hcrashed''⟩

/-- A step that panics needs nothing from the connection. -/
theorem unconnected_of_panicked {s t : Stream} {e : LbNetwork.Event} (h : Stream.Step s e t)
    (hrunning : s.listener ≠ .panicked) (hpanicked : t.listener = .panicked) : Unconnected e := by
  cases h.cases with
  | setupDone | setupFailed => exact absurd hpanicked hrunning
  | @recv result => exact absurd hpanicked (ListenerPc.ne_of_sends (afterRecv_sends result)).2.2.2
  | _ => trivial

/-- A listener at a send on closed channels panics without its connection. -/
theorem exists_panic_of_sends {s : Stream} (hsends : s.listener.sendsErr = true ∨ s.listener.sendsMsg = true)
    (herr : s.errChan.closed = true) (hmsg : s.msgChan.closed = true) :
    ∃ later u, Run UnconnectedStep s later u ∧ u.listener = .panicked := by
  obtain ⟨e, hpanic⟩ := panics_of_closed hsends herr hmsg
  have hrunning := (ListenerPc.ne_of_sends hsends).2.2.2
  exact ⟨[e], _, Run.single ⟨hpanic, unconnected_of_panicked hpanic hrunning rfl, hrunning⟩, rfl⟩

/-- A listener that outlives its handler panics without its connection. -/
theorem exists_panic_of_returned {s : Stream} {result : Option GoError} (hhandler : s.handler = .returned result)
    (herr : s.errChan.closed = true) (hmsg : s.msgChan.closed = true) (hstarted : s.listener ≠ .notStarted)
    (hrunning : s.listener ≠ .returned) :
    ∃ later u, Run UnconnectedStep s later u ∧ u.listener = .panicked := by
  cases hlistener : s.listener with
  | notStarted => exact absurd hlistener hstarted
  | returned => exact absurd hlistener hrunning
  | panicked => exact ⟨[], s, Run.nil, hlistener⟩
  | sendingLast | sendingErr => exact exists_panic_of_sends (Or.inl (by rw [hlistener]; rfl)) herr hmsg
  | sendingMsg => exact exists_panic_of_sends (Or.inr (by rw [hlistener]; rfl)) herr hmsg
  | receiving =>
    -- gRPC cancels the stream of a handler that has returned, which wakes the listener up.
    have hrecv : Stream.Step s (.recv (.error canceledErr)) { s with listener := afterRecv (.error canceledErr) } :=
      (Stream.StepCase.recv hlistener (by rw [hhandler]; rfl)).step
    have hcanceled : ∃ later u, Run UnconnectedStep { s with listener := afterRecv (.error canceledErr) } later u ∧
        u.listener = .panicked := exists_panic_of_sends (afterRecv_sends (.error canceledErr)) herr hmsg
    obtain ⟨later, u, hlater, hpanicked⟩ := hcanceled
    exact ⟨_, u, Run.cons ⟨hrecv, trivial, by rw [hlistener]; nofun⟩ hlater, hpanicked⟩

/-- A stream that times out while its listener runs can end in a panic without its connection. -/
theorem exists_panic_of_timeout {s t : Stream} (hinv : s.Inv) (hstep : Stream.Step s .timeout t)
    (hrunning : s.listener ≠ .returned) : ∃ later u, Run UnconnectedStep t later u ∧ u.listener = .panicked := by
  cases hstep.cases with
  | timeout hhandler =>
    by_cases hpanicked : s.listener = .panicked
    · exact ⟨[], _, Run.nil, hpanicked⟩
    have hstarted : s.listener ≠ .notStarted := hinv.looping (by rw [hhandler]; rfl)
    have hreturn : Run UnconnectedStep { s with handler := .reportingFailure (timeoutErr s.nodeKey) }
        [.reportNodeFailure, .multiplexerReturns, .closeErrChan, .closeMsgChan]
        { s with errChan := s.errChan.close, msgChan := s.msgChan.close,
                 handler := .returned (some (timeoutErr s.nodeKey)) } :=
      Run.cons ⟨(Stream.StepCase.reportNodeFailure rfl).step, trivial, hpanicked⟩
        (Run.cons ⟨(Stream.StepCase.multiplexerReturns rfl).step, trivial, hpanicked⟩
          (Run.cons ⟨(Stream.StepCase.closeErrChan rfl).step, trivial, hpanicked⟩
            (Run.single ⟨(Stream.StepCase.closeMsgChan rfl).step, trivial, hpanicked⟩)))
    have hoverdue : ∃ later u, Run UnconnectedStep
        { s with errChan := s.errChan.close, msgChan := s.msgChan.close,
                 handler := .returned (some (timeoutErr s.nodeKey)) } later u ∧ u.listener = .panicked :=
      exists_panic_of_returned rfl rfl rfl hstarted hrunning
    obtain ⟨later, u, hlater, hu⟩ := hoverdue
    exact ⟨_, u, hreturn.append hlater, hu⟩

/-- In every run of the cluster in which the streams of a load balancer time out late, it does not crash,
and every other timeout can be continued to its crash. -/
theorem load_balancer_survives (targets : ℕ → Targets) (server : String) :
    (∀ events c, Run (Restrict Cluster.Step (TimesOutLate server)) (newCluster targets) events c →
      c.crashed server = false) ∧
    ∀ events c e c', Run Cluster.Step (newCluster targets) events c → Cluster.Step c e c' →
      ¬ TimesOutLate server c e → ∃ later u, Run Cluster.Step c' later u ∧ u.crashed server = true := by
  constructor
  · intro events c hrun
    by_contra hcrashed
    obtain ⟨conn, hserver, hpanicked⟩ := run_panicked_of_crashed hrun.unrestrict (Bool.not_eq_false _ ▸ hcrashed)
    exact (run_quiet_streams hrun hserver).unpanicked hpanicked
  · intro events c e c' hrun hstep hearly
    unfold TimesOutLate at hearly
    push Not at hearly
    obtain ⟨label, hlabel, htimeout, hrunning⟩ := hearly
    cases e with
    | node => cases hlabel
    | manager server' label' =>
      obtain ⟨rfl, hsame⟩ := Option.ite_none_right_eq_some.mp hlabel
      cases hsame
      have hevent : (ClusterEvent.manager server' label).ofStream (connectionOf server' label.stream) =
        some .timeout := htimeout ▸ if_pos rfl
      have hstream := ((eq_connectionOf_iff _ server' label.stream).mp rfl).2
      rw [hstream] at hrunning
      have hinv := LbNetwork.run_inv (run_streamOf hrun (connectionOf server' label.stream))
      obtain ⟨later, t, hlater, hpanicked⟩ :=
        exists_panic_of_timeout hinv (hstep.ofStream hevent).2 hrunning
      obtain ⟨events', u, hcluster, -, hcrashed⟩ := exists_run_of_stream hlater (hstep.crashed_ofStream hevent)
      exact ⟨events', u, hcluster, hcrashed.trans (decide_eq_true hpanicked)⟩

end GaleLB.System
