import GaleLB.LbNetwork.ChannelSafety
import GaleLB.LbNetwork.NodeManager
import GaleLB.Util.Hosts

/-!
# The process of a load balancer

The main goroutine executes the root command, whose function sets the configuration. A call
for help returns without running this function, and then the first use of the configuration
panics. Otherwise the main goroutine creates the query API, and starts the gRPC server of the
node manager. This call looks the private interface up, listens and serves. It returns only if
serving ends without an error, for which the gRPC server must have been stopped, and nothing
stops it: `Stop` of the node manager's server does nothing. So the query API, which comes next,
is never started, and the process ends by a fatal error or by a panic.
-/

namespace GaleLB.LbNetwork

open Transition Util

/-- The options of the private interface. -/
structure PrivateInterface where
  nodePort : ℤ
  apiPort : ℤ
  netIfacePrivate : String
deriving DecidableEq, Repr

/-- The address of a port of the load balancer. -/
def listenAddress (ip : String) (port : ℤ) : String := ip ++ ":" ++ toString port

/-- How a process ends. -/
inductive ProcessEnd where
  | fatal (message : String)
  | panicked
  | returned
deriving DecidableEq, Repr

/-- How the root command returns: with an error, without having run its function, or after its function has
set the configuration. -/
inductive CommandOutcome where
  | failed (err : GoError)
  | notRun
  | ran
deriving DecidableEq, Repr

/-- Where the main goroutine is: it executes the root command, creates the API, looks up the interface of
the node manager, listens, serves, launches the API, runs its deferred function, or is at its end. -/
inductive MainPc where
  | executing
  | creatingAPI
  | starting
  | listening (ip : String)
  | serving (address : String)
  | started
  | stopping
  | exited (reason : ProcessEnd)
deriving DecidableEq, Repr

/-- The goroutine of the query API. -/
inductive ApiPc where
  | notStarted
  | starting
  | serving
  | returned
deriving DecidableEq, Repr

/-- The process of a load balancer; `grpcStopped` says whether the gRPC server was told to stop. -/
structure LbProcess where
  main : MainPc
  apiAddr : String
  api : ApiPc
  grpcStopped : Bool
  manager : Manager

/-- A process that has just been started. -/
def newLbProcess : LbProcess := ⟨.executing, "", .notStarted, false, newManager⟩

/-- The actions of the main goroutine with what the system answers, a call of the server's `Stop`, an event of
a health stream, and the goroutine of the query API with its requests. -/
inductive LbEvent where
  | execute (outcome : CommandOutcome)
  | newAPI (interfaceByName : String → Except GoError NetInterface)
  | lookup (interfaceByName : String → Except GoError NetInterface)
  | listen (err : Option GoError)
  | serveReturns (err : Option GoError)
  | launchAPI
  | deferredStop
  | serverStop
  | handler (label : Label)
  | apiListens (err : Option GoError)
  | getNodes (code : ℕ)

/-- The process has not ended. -/
def MainPc.alive : MainPc → Bool
  | .exited _ => false
  | _ => true

/-- The server has got its listening socket. -/
def MainPc.accepting : MainPc → Bool
  | .serving _ | .started | .stopping => true
  | _ => false

/-- The main goroutine after `Execute`; without a configuration its next statement panics. -/
def CommandOutcome.next : CommandOutcome → MainPc
  | .failed err => .exited (.fatal ("error executing command: " ++ err.text))
  | .notRun => .exited .panicked
  | .ran => .creatingAPI

/-- The main goroutine after `LoadBalancerAPI.New`. -/
def LbProcess.newAPI (cfg : PrivateInterface) (p : LbProcess)
    (interfaceByName : String → Except GoError NetInterface) : LbProcess :=
  match getIPv4FromInterface interfaceByName cfg.netIfacePrivate with
  | .ok ip => { p with main := .starting, apiAddr := listenAddress ip cfg.apiPort }
  | .error err =>
    { p with main := .exited (.fatal
      ("failed to get IPv4 address from interface " ++ cfg.netIfacePrivate ++ ": " ++ err.text)) }

/-- The main goroutine after the lookup in `Server.Start`. -/
def LbProcess.lookup (cfg : PrivateInterface) (p : LbProcess)
    (interfaceByName : String → Except GoError NetInterface) : LbProcess :=
  match getIPv4FromInterface interfaceByName cfg.netIfacePrivate with
  | .ok ip => { p with main := .listening ip }
  | .error err =>
    { p with main := .exited (.fatal ("Failed to get IPv4 from docker network interface: " ++ err.text)) }

/-- The process after an event of a health stream: the panic of a listener ends it. -/
def LbProcess.handle (p : LbProcess) (label : Label) (m : Manager) : LbProcess :=
  { p with
    manager := m
    main := if (m.streams label.stream).listener = .panicked then .exited .panicked else p.main }

/-- One event, where it is enabled. -/
def LbProcess.step (cfg : PrivateInterface) (p : LbProcess) : LbEvent → Option LbProcess
  | .execute outcome => if p.main = .executing then some { p with main := outcome.next } else none
  | .newAPI interfaceByName => if p.main = .creatingAPI then some (p.newAPI cfg interfaceByName) else none
  | .lookup interfaceByName => if p.main = .starting then some (p.lookup cfg interfaceByName) else none
  | .listen err =>
    match p.main with
    | .listening ip =>
      match err with
      | none => some { p with main := .serving (listenAddress ip cfg.nodePort) }
      | some err => some { p with main := .exited (.fatal ("Failed to listen: " ++ err.text)) }
    | _ => none
  | .serveReturns err =>
    match p.main with
    | .serving _ =>
      match err with
      -- Serving ends without an error only after the gRPC server was told to stop.
      | none => if p.grpcStopped then some { p with main := .started } else none
      | some err => some { p with main := .exited (.fatal ("Failed to serve: " ++ err.text)) }
    | _ => none
  | .launchAPI => if p.main = .started then some { p with main := .stopping, api := .starting } else none
  | .deferredStop => if p.main = .stopping then some { p with main := .exited .returned, api := .returned } else none
  -- The body of `Server.Stop` is empty.
  | .serverStop => if p.main.alive then some p else none
  | .handler label => if p.main.accepting then (p.manager.step label).map (p.handle label) else none
  | .apiListens err =>
    if p.main.alive ∧ p.api = .starting then some { p with api := if err = none then .serving else .returned }
    else none
  | .getNodes code => if p.main.alive ∧ p.api = .serving ∧ code = 200 then some p else none

/-- The steps of a process as a relation. -/
abbrev LbProcess.Step (cfg : PrivateInterface) : LbProcess → LbEvent → LbProcess → Prop :=
  Computes (LbProcess.step cfg)

/-- Everything that one event can do to a process. -/
inductive LbProcess.StepCase (cfg : PrivateInterface) (p : LbProcess) : LbEvent → LbProcess → Prop
  | execute {outcome : CommandOutcome} (hmain : p.main = .executing) :
      StepCase cfg p (.execute outcome) { p with main := outcome.next }
  | newAPI {interfaceByName} (hmain : p.main = .creatingAPI) :
      StepCase cfg p (.newAPI interfaceByName) (p.newAPI cfg interfaceByName)
  | lookup {interfaceByName} (hmain : p.main = .starting) :
      StepCase cfg p (.lookup interfaceByName) (p.lookup cfg interfaceByName)
  | listens {ip} (hmain : p.main = .listening ip) :
      StepCase cfg p (.listen none) { p with main := .serving (listenAddress ip cfg.nodePort) }
  | listenFails {err : GoError} {ip} (hmain : p.main = .listening ip) :
      StepCase cfg p (.listen (some err)) { p with main := .exited (.fatal ("Failed to listen: " ++ err.text)) }
  | serveEnds {address} (hmain : p.main = .serving address) (hstopped : p.grpcStopped = true) :
      StepCase cfg p (.serveReturns none) { p with main := .started }
  | serveFails {err : GoError} {address} (hmain : p.main = .serving address) :
      StepCase cfg p (.serveReturns (some err)) { p with main := .exited (.fatal ("Failed to serve: " ++ err.text)) }
  | launchAPI (hmain : p.main = .started) :
      StepCase cfg p .launchAPI { p with main := .stopping, api := .starting }
  | deferredStop (hmain : p.main = .stopping) :
      StepCase cfg p .deferredStop { p with main := .exited .returned, api := .returned }
  | serverStop (halive : p.main.alive = true) : StepCase cfg p .serverStop p
  | handler {label m} (haccepting : p.main.accepting = true) (hstep : Manager.Step p.manager label m) :
      StepCase cfg p (.handler label) (p.handle label m)
  | apiListens {err} (halive : p.main.alive = true) (hapi : p.api = .starting) :
      StepCase cfg p (.apiListens err) { p with api := if err = none then .serving else .returned }
  | getNodes (halive : p.main.alive = true) (hapi : p.api = .serving) : StepCase cfg p (.getNodes 200) p

variable {cfg : PrivateInterface} {p q : LbProcess} {e : LbEvent} {events : List LbEvent}

/-- The cases exhaust the steps. -/
theorem LbProcess.Step.cases (h : LbProcess.Step cfg p e q) : LbProcess.StepCase cfg p e q := by
  cases e with
  | execute outcome =>
    obtain ⟨hmain, hsome⟩ := Option.ite_none_right_eq_some.mp h
    cases hsome
    exact .execute hmain
  | newAPI interfaceByName =>
    obtain ⟨hmain, hsome⟩ := Option.ite_none_right_eq_some.mp h
    cases hsome
    exact .newAPI hmain
  | lookup interfaceByName =>
    obtain ⟨hmain, hsome⟩ := Option.ite_none_right_eq_some.mp h
    cases hsome
    exact .lookup hmain
  | listen err =>
    simp only [Computes, LbProcess.step] at h
    split at h
    · cases err with
      | none =>
        cases h
        exact .listens ‹_›
      | some err =>
        cases h
        exact .listenFails ‹_›
    · cases h
  | serveReturns err =>
    simp only [Computes, LbProcess.step] at h
    split at h
    · cases err with
      | none =>
        obtain ⟨hstopped, hsome⟩ := Option.ite_none_right_eq_some.mp h
        cases hsome
        exact .serveEnds ‹_› hstopped
      | some err =>
        cases h
        exact .serveFails ‹_›
    · cases h
  | launchAPI =>
    obtain ⟨hmain, hsome⟩ := Option.ite_none_right_eq_some.mp h
    cases hsome
    exact .launchAPI hmain
  | deferredStop =>
    obtain ⟨hmain, hsome⟩ := Option.ite_none_right_eq_some.mp h
    cases hsome
    exact .deferredStop hmain
  | serverStop =>
    obtain ⟨halive, hsome⟩ := Option.ite_none_right_eq_some.mp h
    cases hsome
    exact .serverStop halive
  | handler label =>
    obtain ⟨haccepting, hsome⟩ := Option.ite_none_right_eq_some.mp h
    obtain ⟨m, hstep, rfl⟩ := Option.map_eq_some_iff.mp hsome
    exact .handler haccepting hstep
  | apiListens err =>
    obtain ⟨⟨halive, hapi⟩, hsome⟩ := Option.ite_none_right_eq_some.mp h
    cases hsome
    exact .apiListens halive hapi
  | getNodes code =>
    obtain ⟨⟨halive, hapi, rfl⟩, hsome⟩ := Option.ite_none_right_eq_some.mp h
    cases hsome
    exact .getNodes halive hapi

/-- The address on which the node manager is served, or will be: that of the private interface. -/
def FoundIn (cfg : PrivateInterface) (events : List LbEvent) (ip : String) : Prop :=
  ∃ interfaceByName, .lookup interfaceByName ∈ events ∧
    getIPv4FromInterface interfaceByName cfg.netIfacePrivate = .ok ip

/-- What holds of a process after its events: the API has not been started, the main goroutine has not got
behind its call of `Start`, it listens on the private interface, and it ends by an error or a panic. -/
structure LbProcess.Inv (cfg : PrivateInterface) (events : List LbEvent) (p : LbProcess) : Prop where
  api : p.api = .notStarted
  grpcStopped : p.grpcStopped = false
  main : p.main ≠ .started ∧ p.main ≠ .stopping
  listening : ∀ ip, p.main = .listening ip → FoundIn cfg events ip
  serving : ∀ address, p.main = .serving address →
    ∃ ip, FoundIn cfg events ip ∧ address = listenAddress ip cfg.nodePort
  ended : ∀ reason, p.main = .exited reason →
    (∃ message, reason = .fatal message) ∨
      reason = .panicked ∧ (.execute .notRun ∈ events ∨ ∃ id, (p.manager.streams id).listener = .panicked)

/-- An address that was found stays found. -/
theorem FoundIn.concat {ip : String} (h : FoundIn cfg events ip) (e : LbEvent) : FoundIn cfg (events ++ [e]) ip := by
  obtain ⟨interfaceByName, hmem, hip⟩ := h
  exact ⟨interfaceByName, List.mem_append_left _ hmem, hip⟩

/-- The invariant after an event that changes nothing. -/
theorem LbProcess.Inv.concat (h : p.Inv cfg events) (e : LbEvent) : p.Inv cfg (events ++ [e]) where
  api := h.api
  grpcStopped := h.grpcStopped
  main := h.main
  listening ip hip := (h.listening ip hip).concat e
  serving address haddress :=
    let ⟨ip, hfound, hsame⟩ := h.serving address haddress
    ⟨ip, hfound.concat e, hsame⟩
  ended reason hreason := (h.ended reason hreason).imp_right fun ⟨hpanic, hcause⟩ =>
    ⟨hpanic, hcause.imp_left (List.mem_append_left _)⟩

/-- The invariant after an event of the main goroutine that does not start the API. -/
theorem LbProcess.Inv.moveMain (h : p.Inv cfg events) {main : MainPc} {apiAddr : String}
    (hmain : main ≠ .started ∧ main ≠ .stopping)
    (hlistening : ∀ ip, main = .listening ip → FoundIn cfg (events ++ [e]) ip)
    (hserving : ∀ address, main = .serving address →
      ∃ ip, FoundIn cfg (events ++ [e]) ip ∧ address = listenAddress ip cfg.nodePort)
    (hended : ∀ reason, main = .exited reason → ∃ message, reason = .fatal message) :
    LbProcess.Inv cfg (events ++ [e]) { p with main := main, apiAddr := apiAddr } where
  api := h.api
  grpcStopped := h.grpcStopped
  main := hmain
  listening := hlistening
  serving := hserving
  ended reason hreason := Or.inl (hended reason hreason)

/-- Every step keeps the invariant. -/
theorem LbProcess.Inv.step (h : p.Inv cfg events) (hstep : LbProcess.Step cfg p e q) : q.Inv cfg (events ++ [e]) := by
  cases hstep.cases with
  | @execute outcome hmain =>
    have hlast : LbEvent.execute outcome ∈ events ++ [.execute outcome] :=
      List.mem_append_right _ List.mem_cons_self
    cases outcome with
    | failed err =>
      exact h.moveMain ⟨nofun, nofun⟩ nofun nofun fun reason hreason => ⟨_, (MainPc.exited.inj hreason).symm⟩
    | ran => exact h.moveMain ⟨nofun, nofun⟩ nofun nofun nofun
    | notRun =>
      refine ⟨h.api, h.grpcStopped, ⟨nofun, nofun⟩, nofun, nofun, fun reason hreason => ?_⟩
      exact Or.inr ⟨(MainPc.exited.inj hreason).symm, Or.inl hlast⟩
  | newAPI hmain =>
    unfold LbProcess.newAPI
    split
    · exact h.moveMain (by decide) nofun nofun nofun
    · exact h.moveMain ⟨nofun, nofun⟩ nofun nofun fun reason hreason => ⟨_, (MainPc.exited.inj hreason).symm⟩
  | lookup hmain =>
    unfold LbProcess.lookup
    split
    case h_1 ip hip =>
      refine h.moveMain ⟨nofun, nofun⟩ (fun ip' hip' => ?_) nofun nofun
      cases hip'
      exact ⟨_, List.mem_append_right _ (List.mem_singleton_self _), hip⟩
    case h_2 =>
      exact h.moveMain ⟨nofun, nofun⟩ nofun nofun fun reason hreason => ⟨_, (MainPc.exited.inj hreason).symm⟩
  | listens hmain =>
    refine h.moveMain ⟨nofun, nofun⟩ nofun (fun address haddress => ?_) nofun
    exact ⟨_, (h.listening _ hmain).concat _, (MainPc.serving.inj haddress).symm⟩
  | listenFails hmain | serveFails hmain =>
    exact h.moveMain ⟨nofun, nofun⟩ nofun nofun fun reason hreason => ⟨_, (MainPc.exited.inj hreason).symm⟩
  | serveEnds _ hstopped => exact absurd hstopped (by rw [h.grpcStopped]; decide)
  | launchAPI hmain => exact absurd hmain h.main.1
  | deferredStop hmain => exact absurd hmain h.main.2
  | serverStop => exact h.concat _
  | handler haccepting hmanager =>
    rename_i label m
    have hkept := h.concat (.handler label)
    unfold LbProcess.handle
    by_cases hpanicked : (m.streams label.stream).listener = .panicked
    · simp only [if_pos hpanicked]
      refine ⟨h.api, h.grpcStopped, ⟨nofun, nofun⟩, nofun, nofun, fun reason hreason => ?_⟩
      exact Or.inr ⟨(MainPc.exited.inj hreason).symm, Or.inr ⟨label.stream, hpanicked⟩⟩
    · simp only [if_neg hpanicked]
      refine ⟨h.api, h.grpcStopped, h.main, hkept.listening, hkept.serving, fun reason hreason => ?_⟩
      rw [show p.main = .exited reason from hreason] at haccepting
      cases haccepting
  | apiListens _ hapi | getNodes _ hapi =>
    rw [h.api] at hapi
    cases hapi

/-- The invariant holds in every run. -/
theorem run_lbProcess_inv (hrun : Run (LbProcess.Step cfg) newLbProcess events p) : p.Inv cfg events := by
  induction hrun with
  | nil => exact ⟨rfl, rfl, by decide, nofun, nofun, nofun⟩
  | snoc _ hstep ih => exact ih.step hstep

/-- No request to the query API is ever answered. -/
theorem run_getNodes_notMem (hrun : Run (LbProcess.Step cfg) newLbProcess events p) (code : ℕ) :
    .getNodes code ∉ events := by
  induction hrun with
  | nil => exact List.not_mem_nil
  | snoc hrun hstep ih =>
    intro hmem
    rcases List.mem_append.mp hmem with hearlier | hlast
    · exact ih hearlier
    · cases List.mem_singleton.mp hlast
      cases hstep.cases with
      | getNodes _ hapi =>
        rw [(run_lbProcess_inv hrun).api] at hapi
        cases hapi

/-- The event of the node manager. -/
def LbEvent.ofManager : LbEvent → Option Label
  | .handler label => some label
  | _ => none

/-- A step that concerns the node manager is one of its steps. -/
theorem LbProcess.Step.ofManager {label : Label} (h : LbProcess.Step cfg p e q) (hevent : e.ofManager = some label) :
    Manager.Step p.manager label q.manager := by
  cases h.cases with
  | handler _ hstep =>
    cases hevent
    exact hstep
  | _ => cases hevent

/-- The other steps leave the node manager alone. -/
theorem LbProcess.Step.manager_eq (h : LbProcess.Step cfg p e q) (hevent : e.ofManager = none) :
    q.manager = p.manager := by
  cases h.cases with
  | handler => cases hevent
  | newAPI => unfold LbProcess.newAPI; split <;> rfl
  | lookup => unfold LbProcess.lookup; split <;> rfl
  | _ => rfl

/-- A run of the process is a run of its node manager. -/
theorem run_lbProcess_manager (hrun : Run (LbProcess.Step cfg) p events q) :
    Run Manager.Step p.manager (events.filterMap LbEvent.ofManager) q.manager :=
  hrun.project LbProcess.manager LbEvent.ofManager (fun _ _ _ _ h => h.ofManager) fun _ _ _ h => h.manager_eq

/-- The handler of some stream has given up before its listener returned. -/
def GaveUpEarly (labels : List Label) : Prop :=
  ∃ id before e s, before ++ [e] <+: eventsOf id labels ∧ Run Stream.Step newStream before s ∧ ¬ GivesUpLate s e

/-- A listener panics only if the handler of its stream has given up early. -/
theorem gaveUpEarly_of_panicked {labels : List Label} {m : Manager} (hrun : Run Manager.Step newManager labels m)
    {id : ℕ} (hpanicked : (m.streams id).listener = .panicked) : GaveUpEarly labels := by
  rcases (run_stream hrun id).restrict_or_exists with hlate | ⟨before, e, s, hinitial, hbefore, hearly⟩
  · exact absurd hpanicked (run_quiet hlate).unpanicked
  · exact ⟨id, before, e, s, hinitial, hbefore, hearly⟩

/-- In every run of a load balancer its query API is not started and answers no request, the node manager is
served on the first IPv4 address of the private interface, and the process ends by a fatal error, by a panic
because its command was not run, or by a panic after the handler of some stream gave up early. -/
theorem loadBalancer_lifecycle (hrun : Run (LbProcess.Step cfg) newLbProcess events p) :
    (p.api = .notStarted ∧ ∀ code, .getNodes code ∉ events) ∧
    (∀ address, p.main = .serving address →
      ∃ ip, FoundIn cfg events ip ∧ address = listenAddress ip cfg.nodePort) ∧
    ∀ reason, p.main = .exited reason →
      (∃ message, reason = .fatal message) ∨
        reason = .panicked ∧
          (.execute .notRun ∈ events ∨ GaveUpEarly (events.filterMap LbEvent.ofManager)) := by
  have hinv := run_lbProcess_inv hrun
  refine ⟨⟨hinv.api, run_getNodes_notMem hrun⟩, hinv.serving, fun reason hreason => ?_⟩
  rcases hinv.ended reason hreason with hfatal | ⟨hpanic, hcause⟩
  · exact Or.inl hfatal
  · refine Or.inr ⟨hpanic, hcause.imp_right fun ⟨id, hpanicked⟩ => ?_⟩
    exact gaveUpEarly_of_panicked (run_lbProcess_manager hrun) hpanicked

/-- An interface with an address of IPv6 and one of IPv4. -/
def sampleInterface (_ : String) : Except GoError NetInterface :=
  .ok ⟨.ok [.ipNet [0xfe, 0x80, 0, 0, 0, 0, 0, 0, 0, 0, 0, 0, 0, 0, 0, 1], .ipNet [192, 168, 0, 10]]⟩

/-- A load balancer that serves a node which connects and stays silent. -/
def silentNodeRun : List LbEvent :=
  [.execute .ran, .newAPI sampleInterface, .lookup sampleInterface, .listen none] ++
    (silentNodeEvents.take 1).map (fun e => .handler ⟨0, e, "", 0⟩) ++
    (silentNodeEvents.drop 1).map fun e => .handler ⟨0, e, "192.168.0.100:41000", 0⟩

/-- The silent node makes the load balancer panic. -/
theorem silentNodeRun_panics :
    ∃ p, Run (LbProcess.Step ⟨7070, 5555, "eth1"⟩) newLbProcess silentNodeRun p ∧ p.main = .exited .panicked ∧
      GaveUpEarly (silentNodeRun.filterMap LbEvent.ofManager) := by
  have hrun : ∃ p, Run (LbProcess.Step ⟨7070, 5555, "eth1"⟩) newLbProcess silentNodeRun p ∧
      p.main = .exited .panicked := ⟨_, run_of_replay silentNodeRun rfl, rfl⟩
  obtain ⟨p, hp, hmain⟩ := hrun
  obtain ⟨-, -, hended⟩ := loadBalancer_lifecycle hp
  rcases hended _ hmain with ⟨message, hfatal⟩ | ⟨-, hnotRun | hearly⟩
  · cases hfatal
  · simp [silentNodeRun, silentNodeEvents] at hnotRun
  · exact ⟨p, hp, hmain, hearly⟩

end GaleLB.LbNetwork
