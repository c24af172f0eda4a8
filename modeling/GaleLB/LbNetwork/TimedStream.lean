import GaleLB.Common.LastWrite
import GaleLB.Common.TimedHistory
import GaleLB.Config.HealthParameters
import GaleLB.LbNetwork.HealthCheckCount
import GaleLB.LbNetwork.Registry

/-!
# Health streams with their timer

The timer of the multiplexer is started before its first select, and stopped and started
again after every reported health check. Messages that are not counted and recoverable
errors leave it running. The timeout can be taken once the timer has run for the
configured time. Forgetting the times leaves an ordinary run of the stream.

A node reports with half of that time as its period. If the delays of a report on its way
to the registry, together with the irregularity of the reports, stay below half of the
configured time, then the multiplexer never takes the timeout. This is for streams on which
only `Serving` and `NotServing` messages arrive: other results are counted too, and could
take the place of a report that is late.
-/

namespace GaleLB.LbNetwork

open Channel Transition LastWrite TimedHistory Config

/-- An event of the stream, or the start of the timer. -/
inductive TimedAction where
  | act (e : Event)
  | arm

/-- A stream with the time and, while the timer runs, the time at which it fires. -/
structure TimedStream where
  stream : Stream
  now : Time
  timer : Option Time

/-- A stream whose handler has just been called. -/
def newTimedStream : TimedStream := ⟨newStream, 0, none⟩

/-- The select needs a running timer, and its timeout a timer that has fired. -/
def TimedStream.allows (s : TimedStream) (time : Time) : Event → Bool
  | .takeMsg _ | .takeErr _ => s.timer.isSome
  | .timeout => s.timer.any (· ≤ time)
  | _ => true

/-- The timer after an event: it is stopped after a reported health check. -/
def TimedStream.timerAfter (s : TimedStream) : Event → Option Time
  | .reportNewHealthCheck => none
  | _ => s.timer

/-- One action at its time, where it is enabled. -/
def TimedStream.step (checksTimeout : ℕ) (s : TimedStream) (e : Stamped TimedAction) : Option TimedStream :=
  if s.now ≤ e.time then
    match e.action with
    | .act event =>
      if s.allows e.time event then
        (s.stream.step event).map fun stream => ⟨stream, e.time, s.timerAfter event⟩
      else none
    | .arm =>
      if s.stream.handler = .selecting ∧ s.timer = none then
        some ⟨s.stream, e.time, some (e.time + checksTimeout)⟩
      else none
  else none

/-- The steps of a stream with its timer as a relation. -/
abbrev TimedStream.Step (checksTimeout : ℕ) : TimedStream → Stamped TimedAction → TimedStream → Prop :=
  Computes (TimedStream.step checksTimeout)

variable {checksTimeout : ℕ} {events : List (Stamped TimedAction)} {s t : TimedStream}

/-- Everything that one action can do to a stream with its timer. -/
inductive TimedStream.StepCase (checksTimeout : ℕ) (s : TimedStream) : Stamped TimedAction → TimedStream → Prop
  | act {time event stream} (hnow : s.now ≤ time) (hallows : s.allows time event = true)
      (hstep : Stream.Step s.stream event stream) :
      StepCase checksTimeout s ⟨time, .act event⟩ ⟨stream, time, s.timerAfter event⟩
  | arm {time} (hnow : s.now ≤ time) (hhandler : s.stream.handler = .selecting) (htimer : s.timer = none) :
      StepCase checksTimeout s ⟨time, .arm⟩ ⟨s.stream, time, some (time + checksTimeout)⟩

/-- The cases exhaust the steps. -/
theorem TimedStream.Step.cases {e : Stamped TimedAction} (h : TimedStream.Step checksTimeout s e t) :
    TimedStream.StepCase checksTimeout s e t := by
  change s.step checksTimeout e = some t at h
  obtain ⟨time, action⟩ := e
  unfold TimedStream.step at h
  by_cases hnow : s.now ≤ time
  · rw [if_pos hnow] at h
    cases action with
    | act event =>
      by_cases hallows : s.allows time event = true
      · dsimp only at h
        rw [if_pos hallows, Option.map_eq_some_iff] at h
        obtain ⟨stream, hstep, rfl⟩ := h
        exact .act hnow hallows hstep
      · dsimp only at h
        rw [if_neg hallows] at h
        cases h
    | arm =>
      simp only [Option.ite_none_right_eq_some, Option.some.injEq] at h
      obtain ⟨⟨hhandler, htimer⟩, rfl⟩ := h
      exact .arm hnow hhandler htimer
  · rw [if_neg hnow] at h
    cases h

/-- Every case is a step. -/
theorem TimedStream.StepCase.step {e : Stamped TimedAction} (h : TimedStream.StepCase checksTimeout s e t) :
    TimedStream.Step checksTimeout s e t := by
  change s.step checksTimeout e = some t
  cases h with
  | @act time event stream hnow hallows hstep =>
    have hsome : s.stream.step event = some stream := hstep
    simp only [TimedStream.step, hnow, hallows, hsome, if_true, Option.map_some]
  | arm hnow hhandler htimer => simp only [TimedStream.step, hnow, hhandler, htimer, and_self, if_true]

/-- Time does not go back. -/
theorem timedStream_forward : Forward (TimedStream.Step checksTimeout) TimedStream.now := by
  constructor
  · intro s e t h
    cases h.cases with
    | act hnow => exact hnow
    | arm hnow => exact hnow
  · intro s e t h
    cases h.cases with
    | act => rfl
    | arm => rfl

/-- The event of the stream, without its time. -/
def untimed (e : Stamped TimedAction) : Option Event :=
  match e.action with
  | .act event => some event
  | .arm => none

/-- The events of the stream in a history, without their times. -/
def streamEvents (events : List (Stamped TimedAction)) : List Event := events.filterMap untimed

/-- The events of the stream after one more action. -/
theorem streamEvents_concat (events : List (Stamped TimedAction)) (e : Stamped TimedAction) :
    streamEvents (events ++ [e]) = streamEvents events ++ (untimed e).toList := by
  unfold streamEvents
  rw [List.filterMap_append, List.filterMap_cons, List.filterMap_nil]
  cases untimed e <;> rfl

/-- Forgetting the times leaves a run of the stream. -/
theorem run_stream_of_timed (hrun : Run (TimedStream.Step checksTimeout) newTimedStream events s) :
    Run Stream.Step newStream (streamEvents events) s.stream := by
  induction hrun with
  | nil => exact Run.nil
  | @snoc events s t e _ hlast ih =>
    rw [streamEvents_concat]
    cases hlast.cases with
    | act _ _ hstep => exact ih.snoc hstep
    | arm =>
      change Run Stream.Step newStream (streamEvents events ++ []) s.stream
      rw [List.append_nil]
      exact ih

/-- The action starts or stops the timer. -/
def movesTimer (e : Stamped TimedAction) : Bool :=
  match e.action with
  | .arm | .act .reportNewHealthCheck => true
  | _ => false

/-- What an action that moves the timer leaves. -/
def timerSet (checksTimeout : ℕ) (e : Stamped TimedAction) : Option Time :=
  match e.action with
  | .arm => some (e.time + checksTimeout)
  | .act _ => none

/-- The timer is what the last action that moves it leaves. -/
theorem run_timer (hrun : Run (TimedStream.Step checksTimeout) newTimedStream events s) :
    s.timer = (lastMatch movesTimer events).bind (timerSet checksTimeout) := by
  have hlookup := lookup_run (I := fun _ => True) (fun (s : TimedStream) (_ : Unit) => s.timer)
    (fun _ => movesTimer) (timerSet checksTimeout) (fun _ _ _ _ _ => trivial) ?_ trivial hrun ()
  · rw [hlookup.2]
    cases lastMatch movesTimer events <;> rfl
  · intro s e t _ hstep _
    cases hstep.cases with
    | @act time event => cases event <;> rfl
    | arm => rfl

/-- The timer runs from the last time it was started, and nothing moved it since. -/
theorem run_timer_eq_some_iff (hrun : Run (TimedStream.Step checksTimeout) newTimedStream events s)
    (deadline : Time) :
    s.timer = some deadline ↔ ∃ before started after, events = before ++ ⟨started, .arm⟩ :: after ∧
      (∀ e ∈ after, movesTimer e = false) ∧ deadline = started + checksTimeout := by
  rw [run_timer hrun, Option.bind_eq_some_iff]
  constructor
  · rintro ⟨⟨started, action⟩, hlast, hset⟩
    obtain ⟨before, after, hsplit, -, hafter⟩ := (lastMatch_eq_some_iff _ _ _).mp hlast
    cases action with
    | act event => cases hset
    | arm => exact ⟨before, started, after, hsplit, hafter, (Option.some.inj hset).symm⟩
  · rintro ⟨before, started, after, hsplit, hafter, rfl⟩
    exact ⟨⟨started, .arm⟩, (lastMatch_eq_some_iff _ _ _).mpr ⟨before, after, hsplit, rfl, hafter⟩, rfl⟩

/-- In every run the timeout can be taken at a time exactly when the handler is in its select, and the
timer was started the configured time before, with no health check reported since. -/
theorem timeout_enabled_iff (hrun : Run (TimedStream.Step checksTimeout) newTimedStream events s)
    (time : Time) (hnow : s.now ≤ time) :
    (∃ t, TimedStream.Step checksTimeout s ⟨time, .act .timeout⟩ t) ↔
      s.stream.handler = .selecting ∧ ∃ before started after, events = before ++ ⟨started, .arm⟩ :: after ∧
        (∀ e ∈ after, movesTimer e = false) ∧ started + checksTimeout ≤ time := by
  constructor
  · rintro ⟨t, hstep⟩
    cases hstep.cases with
    | act _ hallows hstream =>
      cases hstream.cases with
      | timeout hhandler =>
        unfold TimedStream.allows at hallows
        cases htimer : s.timer with
        | none =>
          rw [htimer] at hallows
          cases hallows
        | some deadline =>
          rw [htimer] at hallows
          obtain ⟨before, started, after, hsplit, hafter, rfl⟩ := (run_timer_eq_some_iff hrun _).mp htimer
          exact ⟨hhandler, before, started, after, hsplit, hafter, of_decide_eq_true hallows⟩
  · rintro ⟨hhandler, before, started, after, hsplit, hafter, hfired⟩
    have htimer := (run_timer_eq_some_iff hrun _).mpr ⟨before, started, after, hsplit, hafter, rfl⟩
    have hallows : s.allows time .timeout = true := by
      unfold TimedStream.allows
      rw [htimer]
      exact decide_eq_true hfired
    exact ⟨_, (TimedStream.StepCase.act hnow hallows (Stream.StepCase.timeout hhandler).step).step⟩

/-- A node connects and stays silent. -/
def silentEvents : List (Stamped TimedAction) :=
  [⟨0, .act (.setup (.tcp "192.168.0.100:41000") (.ok "") (.ok ""))⟩, ⟨1, .act .registerNode⟩,
    ⟨2, .act .spawnListener⟩, ⟨3, .arm⟩]

/-- A node that stays silent for the configured time can be timed out, and not before. -/
theorem silentEvents_time_out :
    ∃ s, Run (TimedStream.Step 10) newTimedStream silentEvents s ∧
      (∃ t, TimedStream.Step 10 s ⟨13, .act .timeout⟩ t) ∧ ¬ ∃ t, TimedStream.Step 10 s ⟨12, .act .timeout⟩ t := by
  have hrun : ∃ s, Run (TimedStream.Step 10) newTimedStream silentEvents s ∧ s.now = 3 ∧
      s.stream.handler = .selecting ∧ s.timer = some 13 := ⟨_, run_of_replay silentEvents rfl, rfl, rfl, rfl⟩
  obtain ⟨s, hs, hnow, hhandler, htimer⟩ := hrun
  obtain ⟨before, started, after, hsplit, hafter, hstarted⟩ := (run_timer_eq_some_iff hs 13).mp htimer
  refine ⟨s, hs, (timeout_enabled_iff hs 13 (by rw [hnow]; decide)).mpr ?_, ?_⟩
  · exact ⟨hhandler, before, started, after, hsplit, hafter, Nat.le_of_eq hstarted.symm⟩
  · intro hearly
    obtain ⟨-, before', started', after', hsplit', hafter', hfired⟩ :=
      (timeout_enabled_iff hs 12 (by rw [hnow]; decide)).mp hearly
    have htimer' := (run_timer_eq_some_iff hs _).mpr ⟨before', started', after', hsplit', hafter', rfl⟩
    rw [htimer] at htimer'
    have hsame : 13 = started' + 10 := Option.some.inj htimer'
    omega

/-- The action receives a message with the status `Serving`. -/
def receivesServing (e : Stamped TimedAction) : Bool :=
  match e.action with
  | .act (.recv result) => result.isServing
  | _ => false

/-- The action starts the timer. -/
def startsTimer (e : Stamped TimedAction) : Bool :=
  match e.action with
  | .arm => true
  | _ => false

/-- While the timer is in use, the last serving message, or the last start of the timer, is never longer
ago than `gap`. -/
def Regular (gap : ℕ) : List (Stamped TimedAction) → Prop :=
  AtEvery fun before e => before.any startsTimer = true →
    ∃ earlier ∈ before, (receivesServing earlier = true ∨ startsTimer earlier = true) ∧
      e.time ≤ earlier.time + gap

/-- At a time, as many health checks have been reported as serving messages have been received longer
ago than `latency`. -/
def Attentive (latency : ℕ) (events : List (Stamped TimedAction)) (time : Time) : Prop :=
  events.countP (fun e => receivesServing e && decide (e.time + latency < time)) ≤
    healthChecks (streamEvents events)

/-- The serving messages of a history. -/
theorem servings_received (events : List (Stamped TimedAction)) :
    servings (received (streamEvents events)) = events.countP receivesServing := by
  induction events with
  | nil => rfl
  | cons e rest ih =>
    obtain ⟨time, action⟩ := e
    rw [List.countP_cons, ← ih]
    cases action with
    | arm => rfl
    | act event =>
      cases event with
      | recv result => exact List.countP_cons
      | _ => rfl

/-- Actions that leave the timer alone report no health check. -/
theorem healthChecks_eq_zero {events : List (Stamped TimedAction)} (h : ∀ e ∈ events, movesTimer e = false) :
    healthChecks (streamEvents events) = 0 := by
  unfold healthChecks
  rw [List.countP_eq_zero]
  intro event hmem
  obtain ⟨⟨time, action⟩, hstamped, haction⟩ := List.mem_filterMap.mp hmem
  have hquiet := h _ hstamped
  cases action with
  | arm => cases haction
  | act event' =>
    cases haction
    cases event with
    | reportNewHealthCheck => cases hquiet
    | _ => nofun

/-- The timer is not started in between. -/
theorem startsTimer_of_quiet {e : Stamped TimedAction} (h : movesTimer e = false) : startsTimer e = false := by
  obtain ⟨time, action⟩ := e
  cases action with
  | arm => cases h
  | act => rfl

/-- The health checks reported up to a point of a run are at most the serving messages received up to it,
if only genuine results are received. -/
theorem run_healthChecks_le_servings {before after : List (Stamped TimedAction)}
    (hrun : Run (TimedStream.Step checksTimeout) newTimedStream (before ++ after) s)
    (hgenuine : OnlyGenuine (received (streamEvents (before ++ after)))) :
    healthChecks (streamEvents before) ≤ before.countP receivesServing := by
  obtain ⟨middle, hbefore, -⟩ := hrun.split
  have hinitial : received (streamEvents before) <+: received (streamEvents (before ++ after)) := by
    unfold streamEvents
    rw [List.filterMap_append, received_append]
    exact List.prefix_append _ _
  calc healthChecks (streamEvents before)
    _ ≤ counted (forwarded (received (streamEvents before))) := run_healthChecks_le (run_stream_of_timed hbefore)
    _ ≤ servings (received (streamEvents before)) := counted_forwarded_le (hgenuine.mono hinitial)
    _ = before.countP receivesServing := servings_received before

/-- In a regular history the next action after a start of the timer, with no serving message in between,
follows within the gap. -/
theorem Regular.time_le {gap started : ℕ} {before between : List (Stamped TimedAction)} {e : Stamped TimedAction}
    (h : Regular gap events) (hinitial : before ++ ⟨started, .arm⟩ :: between ++ [e] <+: events)
    (hbefore : ∀ x ∈ before, x.time ≤ started)
    (hbetween : ∀ x ∈ between, receivesServing x = false ∧ startsTimer x = false) :
    e.time ≤ started + gap := by
  obtain ⟨earlier, hmem, hkind, hrecent⟩ := h _ e hinitial (by simp [startsTimer])
  have hearlier : earlier.time ≤ started := by
    rcases List.mem_append.mp hmem with hmem | hmem
    · exact hbefore earlier hmem
    · rcases List.mem_cons.mp hmem with rfl | hmem
      · exact Nat.le_refl _
      · rw [(hbetween earlier hmem).1, (hbetween earlier hmem).2] at hkind
        exact absurd hkind (by decide)
  omega

/-- While serving messages arrive regularly and are reported in time, the timeout is not taken. -/
theorem timeout_not_taken {gap latency time : ℕ}
    (hrun : Run (TimedStream.Step checksTimeout) newTimedStream events s)
    (hgenuine : OnlyGenuine (received (streamEvents events)))
    (hregular : Regular gap (events ++ [⟨time, .act .timeout⟩])) (hattentive : Attentive latency events time)
    (hbudget : gap + latency < checksTimeout) :
    ¬ TimedStream.Step checksTimeout s ⟨time, .act .timeout⟩ t := by
  intro hstep
  have hnow := timedStream_forward.le _ _ _ hstep
  obtain ⟨-, before, started, after, rfl, hquiet, hfired⟩ := (timeout_enabled_iff hrun time hnow).mp ⟨t, hstep⟩
  have hbefore : ∀ e ∈ before, e.time ≤ started :=
    timedStream_forward.atEvery hrun before ⟨started, .arm⟩ ⟨after, by simp⟩
  cases hfirst : after.find? receivesServing with
  | none =>
    -- Nothing arrived since the timer was started, although the gap is shorter than the timeout.
    have hsilent : ∀ e ∈ after, receivesServing e = false ∧ startsTimer e = false := fun e he =>
      ⟨Bool.eq_false_iff.mpr (List.find?_eq_none.mp hfirst e he), startsTimer_of_quiet (hquiet e he)⟩
    have hgap := hregular.time_le (List.prefix_refl _) hbefore hsilent
    dsimp only at hgap
    omega
  | some first =>
    -- The first message since then arrived within the gap, so by now it would have been reported.
    obtain ⟨hserving, between, rest, rfl, hbetween⟩ := List.find?_eq_some_iff_append.mp hfirst
    have hsilent : ∀ e ∈ between, receivesServing e = false ∧ startsTimer e = false := fun e he =>
      ⟨by simpa using hbetween e he, startsTimer_of_quiet (hquiet e (List.mem_append_left _ he))⟩
    have hinitial : before ++ ⟨started, .arm⟩ :: between ++ [first] <+:
        before ++ ⟨started, .arm⟩ :: (between ++ first :: rest) ++ [⟨time, .act .timeout⟩] :=
      ⟨rest ++ [⟨time, .act .timeout⟩], by simp⟩
    have hgap := hregular.time_le hinitial hbefore hsilent
    have hchecks := run_healthChecks_le_servings hrun hgenuine
    have hreported : healthChecks (streamEvents (before ++ ⟨started, .arm⟩ :: (between ++ first :: rest))) =
        healthChecks (streamEvents before) := by
      have happend : streamEvents (before ++ ⟨started, .arm⟩ :: (between ++ first :: rest)) =
          streamEvents before ++ streamEvents (between ++ first :: rest) := List.filterMap_append
      rw [happend, healthChecks_append, healthChecks_eq_zero hquiet, Nat.add_zero]
    have hdue : before.countP (fun e => receivesServing e && decide (e.time + latency < time)) =
        before.countP receivesServing := by
      refine List.countP_congr fun e he => ?_
      have hold : e.time + latency < time := by
        have hle := hbefore e he
        omega
      simp [hold]
    unfold Attentive at hattentive
    rw [hreported, List.countP_append, hdue, List.countP_cons, List.countP_append, List.countP_cons,
      hserving, Bool.true_and, decide_eq_true (by omega : first.time + latency < time), if_pos rfl] at hattentive
    omega

/-- The configured timeout, as the time that the timer runs. -/
def timerTime (nodeHealth : NodeHealth) : ℕ := (timerDuration nodeHealth).toInt.toNat

/-- The time between two reports of a node. -/
def periodTime (nodeHealth : NodeHealth) : ℕ := (healthPeriod (getConfig nodeHealth)).toInt.toNat

/-- For every configuration whose parameters agree, and while only genuine results are received: the timeout is
not taken while the reports of a node arrive with its period, up to a jitter, and are counted up to a latency,
if both together stay below half of the configured timeout. -/
theorem punctual_node_not_timed_out {nodeHealth : NodeHealth} (hagree : ParametersAgree nodeHealth)
    {jitter latency time : ℕ} (hbudget : 2 * (jitter + latency) < timerTime nodeHealth)
    (hrun : Run (TimedStream.Step (timerTime nodeHealth)) newTimedStream events s)
    (hgenuine : OnlyGenuine (received (streamEvents events)))
    (hregular : Regular (periodTime nodeHealth + jitter) (events ++ [⟨time, .act .timeout⟩]))
    (hattentive : Attentive latency events time) :
    ¬ TimedStream.Step (timerTime nodeHealth) s ⟨time, .act .timeout⟩ t := by
  have hhalf := hagree.two_periods_le
  apply timeout_not_taken hrun hgenuine hregular hattentive
  unfold timerTime periodTime at *
  omega

instance (gap : ℕ) (events : List (Stamped TimedAction)) : Decidable (Regular gap events) :=
  inferInstanceAs (Decidable (AtEvery _ _))

instance (latency : ℕ) (events : List (Stamped TimedAction)) (time : Time) :
    Decidable (Attentive latency events time) :=
  inferInstanceAs (Decidable (_ ≤ _))

/-- A node connects, and its first report arrives after one period of the default configuration. -/
def punctualEvents : List (Stamped TimedAction) :=
  [⟨0, .act (.setup (.tcp "192.168.0.100:41000") (.ok "") (.ok ""))⟩, ⟨0, .act .registerNode⟩,
    ⟨0, .act .spawnListener⟩, ⟨0, .arm⟩, ⟨5000000000, .act (.recv (.message serving))⟩,
    ⟨5000001000, .act .sendMsg⟩, ⟨5000002000, .act (.takeMsg (some serving))⟩,
    ⟨5000003000, .act .reportNewHealthCheck⟩, ⟨5000004000, .arm⟩]

/-- Eleven seconds after it connected, with a jitter and a latency of two seconds each, the node is not
timed out. -/
theorem punctualEvents_not_timed_out :
    ∃ s, Run (TimedStream.Step (timerTime newNodeHealth)) newTimedStream punctualEvents s ∧
      ¬ ∃ t, TimedStream.Step (timerTime newNodeHealth) s ⟨11000000000, .act .timeout⟩ t := by
  have hagree : ParametersAgree newNodeHealth := ⟨rfl, rfl, rfl, rfl, by decide +kernel, by decide +kernel⟩
  have hrun : ∃ s, Run (TimedStream.Step (timerTime newNodeHealth)) newTimedStream punctualEvents s :=
    ⟨_, run_of_replay punctualEvents rfl⟩
  obtain ⟨s, hs⟩ := hrun
  refine ⟨s, hs, ?_⟩
  rintro ⟨t, hstep⟩
  have hbudget : 2 * (2000000000 + 2000000000) < timerTime newNodeHealth := by decide +kernel
  exact punctual_node_not_timed_out hagree hbudget hs (by decide +kernel) (by decide +kernel)
    (by decide +kernel) hstep

end GaleLB.LbNetwork
