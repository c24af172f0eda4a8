import GaleLB.Common.NetAddress
import GaleLB.Config.NodeConfig
import GaleLB.NodeNetwork.StatusTruth
import GaleLB.Util.MulticastDns

/-!
# The load balancers that a node reports to

The configured addresses become the targets of the dispatcher. An address without an IP
is resolved, and its first IP is taken. The targets are kept in a map under their texts.
The port follows the last colon of such a text and has none itself, so different targets
have different texts, also when an IP contains colons, and none is lost in the map.

The text of a target is also what its client dials. There a host with colons must stand in
brackets, which the text does not have: the client dials the configured address exactly
when the IP is written with dots.
-/

namespace GaleLB.NodeNetwork

open NetAddress TextFields ByteBuffer Config LbNetwork Util Transition

/-- `util.IsValidIP`. -/
def isValidIP (input : String) : Bool := (parseIP input.toList).isSome

/-- The address that `NewClient` dials. -/
def remoteServer (ip : String) (port : ℤ) : String := ip ++ ":" ++ toString port

/-- The characters of an address to dial. -/
theorem toList_remoteServer (ip : String) (port : ℤ) :
    (remoteServer ip port).toList = ip.toList ++ ':' :: (toString port).toList := by
  unfold remoteServer
  rw [String.toList_append, String.toList_append, List.append_assoc]
  rfl

/-- The text of a port has neither colons nor brackets. -/
theorem port_char {port : ℤ} {c : Char} (h : c ∈ (toString port).toList) : c ≠ ':' ∧ c ≠ '[' ∧ c ≠ ']' := by
  refine ⟨?_, ?_, ?_⟩ <;>
  · rintro rfl
    exact absurd (mem_toString_int h) (by decide)

/-- The address that is dialed for a valid IP is split at its last colon, or rejected if the IP has one. -/
theorem splitHostPort_remoteServer {ip : String} (hvalid : isValidIP ip = true) (port : ℤ) :
    splitHostPort (remoteServer ip port).toList =
      if ':' ∈ ip.toList then .error .tooManyColons else .ok (ip.toList, (toString port).toList) := by
  obtain ⟨bytes, hbytes⟩ := Option.isSome_iff_exists.mp hvalid
  have hchars := isAddressChar_of_parseIP hbytes
  have hopen : '[' ∉ ip.toList := fun h => absurd (hchars _ h) (by decide)
  have hclose : ']' ∉ ip.toList := fun h => absurd (hchars _ h) (by decide)
  rw [toList_remoteServer]
  exact splitHostPort_append hopen hclose fun c => port_char

/-- For every valid IP and every port, the dialed address is split into that IP and that port exactly
when the IP is written with dots. -/
theorem remoteServer_splits_iff {ip : String} (hvalid : isValidIP ip = true) (port : ℤ) :
    splitHostPort (remoteServer ip port).toList = .ok (ip.toList, (toString port).toList) ↔
      (parseIPv4 ip.toList).isSome = true := by
  obtain ⟨bytes, hbytes⟩ := Option.isSome_iff_exists.mp hvalid
  rw [← colon_notMem_iff_of_parseIP hbytes, splitHostPort_remoteServer hvalid]
  by_cases hcolon : ':' ∈ ip.toList
  · rw [if_pos hcolon]
    exact iff_of_false nofun (not_not_intro hcolon)
  · rw [if_neg hcolon]
    exact iff_of_true rfl hcolon

/-- The address of a load balancer with an IPv4 address is dialed as configured. -/
theorem remoteServer_splits_ipv4 :
    isValidIP "192.168.0.10" = true ∧ splitHostPort (remoteServer "192.168.0.10" 7070).toList =
      .ok ("192.168.0.10".toList, (toString (7070 : ℤ)).toList) := by
  have hvalid : isValidIP "192.168.0.10" = true := by decide +kernel
  exact ⟨hvalid, (remoteServer_splits_iff hvalid 7070).mpr (by decide +kernel)⟩

/-- The address of a load balancer with an IPv6 address is rejected. -/
theorem remoteServer_rejects_ipv6 :
    isValidIP "fd00::10" = true ∧
      splitHostPort (remoteServer "fd00::10" 7070).toList = .error .tooManyColons ∧
      splitHostPort (remoteServer "fd00::10" 7070).toList ≠
        .ok ("fd00::10".toList, (toString (7070 : ℤ)).toList) := by
  have hvalid : isValidIP "fd00::10" = true := by decide +kernel
  rw [splitHostPort_remoteServer hvalid, if_pos (by decide +kernel)]
  exact ⟨hvalid, rfl, nofun⟩

/-- The client of a target dials its text. -/
theorem remoteServer_eq_string (t : Target) : remoteServer t.ip t.port = t.string := rfl

/-- Different targets have different texts. -/
theorem Target.string_inj {t t' : Target} (h : t.string = t'.string) : t = t' := by
  have hlist : t.ip.toList ++ ':' :: (toString t.port).toList =
      t'.ip.toList ++ ':' :: (toString t'.port).toList := by
    rw [← toList_remoteServer, ← toList_remoteServer, remoteServer_eq_string, remoteServer_eq_string, h]
  have hcolon : ∀ port : ℤ, ':' ∉ (toString port).toList := fun port hmem => (port_char hmem).1 rfl
  obtain ⟨hip, hport⟩ := append_cons_inj_last (hcolon _) (hcolon _) hlist
  obtain ⟨ip, port⟩ := t
  obtain ⟨ip', port'⟩ := t'
  rw [Target.mk.injEq]
  exact ⟨String.toList_injective hip, toString_int_inj (String.toList_injective hport)⟩

/-- The empty map of targets. -/
def noTargets : Targets := ⟨[], List.nodup_nil⟩

/-- Store a target under a key, in place of the one that is there. -/
def Targets.assign (targets : Targets) (key : String) (target : Target) : Targets where
  entries := (key, target) :: targets.entries.filter fun entry => entry.1 ≠ key
  nodup := by
    rw [List.map_cons, List.nodup_cons]
    constructor
    · intro hmem
      obtain ⟨entry, hentry, hkey⟩ := List.mem_map.mp hmem
      rw [List.mem_filter, decide_eq_true_eq] at hentry
      exact hentry.2 hkey
    · exact targets.nodup.sublist (List.filter_sublist.map Prod.fst)

/-- The entries after a target was stored. -/
theorem Targets.mem_assign (targets : Targets) (key : String) (target : Target) (entry : String × Target) :
    entry ∈ (targets.assign key target).entries ↔
      entry = (key, target) ∨ entry ∈ targets.entries ∧ entry.1 ≠ key := by
  unfold Targets.assign
  rw [List.mem_cons, List.mem_filter, decide_eq_true_eq]

section Retrieve

variable {IP : Type*} (string : IP → String) (resolve : String → Except GoError (List IP))

/-- Resolve a host name by multicast DNS or by DNS, depending on its top level domain. -/
def resolveHostname (mdns dns : String → Except GoError (List IP)) (host : String) :
    Except GoError (List IP) :=
  if isMultiCastDNS host.toUTF8.toList then
    match mdns host with
    | .error err => .error (.wrap ("failed to resolve multicast DNS " ++ host) err)
    | .ok ips => .ok ips
  else
    match dns host with
    | .error err => .error (.wrap ("failed to resolve hostname from configuration " ++ host) err)
    | .ok ips => .ok ips

/-- The IP of an address: its own, or the first one of its host name. -/
def addressIP (address : Address) : Except GoError String :=
  if address.ip = "" ∧ address.hostname ≠ "" then
    match resolve address.hostname with
    | .error err => .error (.wrap ("failed to resolve hostname " ++ address.hostname) err)
    | .ok [] => .error (.new ("no IP addresses found for hostname: " ++ address.hostname))
    | .ok (first :: _) => .ok (string first)
  else .ok address.ip

/-- One iteration of the loop of `retrieveIPAndPorts`, up to the map. -/
def retrieveTarget (idx : ℕ) (address : Address) : Except GoError Target :=
  if address.port = 0 then .error (.new ("port at config index " ++ toString idx ++ " is not set"))
  else if address.ip = "" ∧ address.hostname = "" then
    .error (.new ("invalid address configuration, IP nor hostname is defined for index " ++ toString idx))
  else
    match addressIP string resolve address with
    | .error err => .error err
    | .ok ip => .ok ⟨ip, address.port⟩

/-- The loop of `retrieveIPAndPorts`, from an index on and with the targets so far. -/
def retrieveIPAndPortsFrom (idx : ℕ) (targets : Targets) : List Address → Except GoError Targets
  | [] => .ok targets
  | address :: rest =>
    match retrieveTarget string resolve idx address with
    | .error err => .error err
    | .ok target => retrieveIPAndPortsFrom (idx + 1) (targets.assign target.string target) rest

/-- The targets of a list of configured addresses. -/
def retrieveIPAndPorts (addresses : List Address) : Except GoError Targets :=
  retrieveIPAndPortsFrom string resolve 0 noTargets addresses

/-- An address has a port, and an IP or a host name that is resolved to some IP. -/
def Usable (address : Address) : Prop :=
  address.port ≠ 0 ∧
    (address.ip ≠ "" ∨ address.hostname ≠ "" ∧ ∃ ips, resolve address.hostname = .ok ips ∧ ips ≠ [])

/-- The pair of an IP and a port that an address stands for: its own IP, or else the first resolved one. -/
inductive StandsFor (address : Address) : Target → Prop
  | ip (h : address.ip ≠ "") : StandsFor address ⟨address.ip, address.port⟩
  | hostname (first : IP) (rest : List IP) (h : address.ip = "")
      (hresolve : resolve address.hostname = .ok (first :: rest)) :
      StandsFor address ⟨string first, address.port⟩

variable {string resolve}

/-- A host name is resolved to what the resolver for its top level domain finds. -/
theorem resolveHostname_eq_ok_iff {mdns dns : String → Except GoError (List IP)} {host : String} {ips : List IP} :
    resolveHostname mdns dns host = .ok ips ↔
      (if isMultiCastDNS host.toUTF8.toList then mdns host else dns host) = .ok ips := by
  unfold resolveHostname
  by_cases hlocal : isMultiCastDNS host.toUTF8.toList = true
  · rw [if_pos hlocal, if_pos hlocal]
    cases mdns host with
    | error err => exact iff_of_false nofun nofun
    | ok ips => rfl
  · rw [if_neg hlocal, if_neg hlocal]
    cases dns host with
    | error err => exact iff_of_false nofun nofun
    | ok ips => rfl

/-- The loop body succeeds exactly on the usable addresses, with the pair they stand for. -/
theorem retrieveTarget_eq_ok_iff (idx : ℕ) (address : Address) (target : Target) :
    retrieveTarget string resolve idx address = .ok target ↔
      Usable resolve address ∧ StandsFor string resolve address target := by
  unfold retrieveTarget
  by_cases hport : address.port = 0
  · rw [if_pos hport]
    exact iff_of_false nofun fun h => h.1.1 hport
  rw [if_neg hport]
  by_cases hip : address.ip = ""
  · by_cases hhost : address.hostname = ""
    · rw [if_pos ⟨hip, hhost⟩]
      exact iff_of_false nofun fun h => h.1.2.elim (fun h => h hip) fun h => h.1 hhost
    · rw [if_neg fun h => hhost h.2, addressIP, if_pos ⟨hip, hhost⟩]
      constructor
      · intro h
        match hresolve : resolve address.hostname with
        | .error err =>
          rw [hresolve] at h
          cases h
        | .ok [] =>
          rw [hresolve] at h
          cases h
        | .ok (first :: rest) =>
          rw [hresolve] at h
          cases h
          exact ⟨⟨hport, Or.inr ⟨hhost, _, hresolve, nofun⟩⟩, .hostname first rest hip hresolve⟩
      · rintro ⟨-, hstands⟩
        cases hstands with
        | ip h => exact absurd hip h
        | hostname first rest _ hresolve => rw [hresolve]
  · rw [if_neg fun h => hip h.1, addressIP, if_neg fun h => hip h.1]
    constructor
    · intro h
      cases h
      exact ⟨⟨hport, Or.inl hip⟩, .ip hip⟩
    · rintro ⟨-, hstands⟩
      cases hstands with
      | ip => rfl
      | hostname first rest h _ => exact absurd h hip

/-- An address stands for one pair only. -/
theorem StandsFor.unique {address : Address} {target target' : Target}
    (h : StandsFor string resolve address target) (h' : StandsFor string resolve address target') :
    target = target' := by
  cases h with
  | ip hip =>
    cases h' with
    | ip => rfl
    | hostname first rest hempty _ => exact absurd hempty hip
  | hostname first rest hempty hresolve =>
    cases h' with
    | ip hip => exact absurd hempty hip
    | hostname first' rest' _ hresolve' =>
      rw [hresolve] at hresolve'
      cases hresolve'
      rfl

/-- A `.local` name without an IP stands for the first IP in the answer to its multicast query. -/
theorem standsFor_multicast_iff {string : Buffer → String} {dns : String → Except GoError (List Buffer)}
    {listen group deadline : Option GoError} {network : Buffer → FirstReady} {address : Address}
    (hip : address.ip = "") (hlocal : isMultiCastDNS address.hostname.toUTF8.toList = true) (target : Target) :
    StandsFor string (resolveHostname
        (fun host => resolveMulticastDNS listen group deadline network host.toUTF8.toList) dns) address target ↔
      (listen = none ∧ group = none ∧ deadline = none) ∧ ∃ host datagram first rest,
        address.hostname.toUTF8.toList = host ++ localTopLevel ∧
        network (constructMDNSQuery host) = .datagram datagram ∧
        receiveMDNS datagram = .ok (first :: rest) ∧ target = ⟨string first, address.port⟩ := by
  have hresolve : ∀ ips, resolveHostname
      (fun host => resolveMulticastDNS listen group deadline network host.toUTF8.toList) dns
        address.hostname = .ok ips ↔
      (listen = none ∧ group = none ∧ deadline = none) ∧ ∃ host datagram,
        address.hostname.toUTF8.toList = host ++ localTopLevel ∧
        network (constructMDNSQuery host) = .datagram datagram ∧ receiveMDNS datagram = .ok ips := by
    intro ips
    rw [resolveHostname_eq_ok_iff, if_pos hlocal]
    exact resolveMulticastDNS_eq_ok_iff
  constructor
  · intro h
    cases h with
    | ip hne => exact absurd hip hne
    | hostname first rest _ hfound =>
      obtain ⟨hsocket, host, datagram, hhost, hanswer, hreceive⟩ := (hresolve _).mp hfound
      exact ⟨hsocket, host, datagram, first, rest, hhost, hanswer, hreceive, rfl⟩
  · rintro ⟨hsocket, host, datagram, first, rest, hhost, hanswer, hreceive, rfl⟩
    exact .hostname first rest hip ((hresolve _).mpr ⟨hsocket, host, datagram, hhost, hanswer, hreceive⟩)

/-- A usable address stands for some pair. -/
theorem Usable.exists_standsFor {address : Address} (h : Usable resolve address) :
    ∃ target, StandsFor string resolve address target := by
  by_cases hip : address.ip = ""
  · obtain ⟨-, ips, hresolve, hne⟩ := h.2.resolve_left fun hne => hne hip
    obtain ⟨first, rest, rfl⟩ := List.exists_cons_of_ne_nil hne
    exact ⟨_, .hostname first rest hip hresolve⟩
  · exact ⟨_, .ip hip⟩

/-- The loop succeeds exactly when all its addresses are usable. -/
theorem exists_retrieveIPAndPortsFrom_iff (idx : ℕ) (targets : Targets) (addresses : List Address) :
    (∃ result, retrieveIPAndPortsFrom string resolve idx targets addresses = .ok result) ↔
      ∀ address ∈ addresses, Usable resolve address := by
  induction addresses generalizing idx targets with
  | nil => exact iff_of_true ⟨targets, rfl⟩ fun _ h => absurd h List.not_mem_nil
  | cons address rest ih =>
    rw [List.forall_mem_cons, retrieveIPAndPortsFrom]
    cases htarget : retrieveTarget string resolve idx address with
    | error err =>
      refine iff_of_false (by rintro ⟨result, ⟨⟩⟩) ?_
      rintro ⟨husable, -⟩
      obtain ⟨target, hstands⟩ : ∃ target, StandsFor string resolve address target :=
        husable.exists_standsFor
      rw [(retrieveTarget_eq_ok_iff idx address target).mpr ⟨husable, hstands⟩] at htarget
      cases htarget
    | ok target =>
      rw [and_iff_right ((retrieveTarget_eq_ok_iff idx address target).mp htarget).1]
      exact ih (idx + 1) (targets.assign target.string target)

/-- The loop keeps the targets so far and adds the pairs of its addresses, all under their texts. -/
theorem mem_retrieveIPAndPortsFrom {idx : ℕ} {targets result : Targets} {addresses : List Address}
    (h : retrieveIPAndPortsFrom string resolve idx targets addresses = .ok result)
    (hkeys : ∀ entry ∈ targets.entries, entry.1 = entry.2.string) (entry : String × Target) :
    entry ∈ result.entries ↔ entry.1 = entry.2.string ∧
      (entry ∈ targets.entries ∨ ∃ address ∈ addresses, StandsFor string resolve address entry.2) := by
  induction addresses generalizing idx targets with
  | nil =>
    cases h
    constructor
    · intro hmem
      exact ⟨hkeys entry hmem, Or.inl hmem⟩
    · rintro ⟨-, hmem | ⟨address, hmem, -⟩⟩
      · exact hmem
      · exact absurd hmem List.not_mem_nil
  | cons address rest ih =>
    rw [retrieveIPAndPortsFrom] at h
    cases htarget : retrieveTarget string resolve idx address with
    | error err =>
      rw [htarget] at h
      cases h
    | ok target =>
      rw [htarget] at h
      have hstands := ((retrieveTarget_eq_ok_iff idx address target).mp htarget).2
      have hkeys' : ∀ entry ∈ (targets.assign target.string target).entries, entry.1 = entry.2.string := by
        intro entry hmem
        rcases (targets.mem_assign _ _ _).mp hmem with rfl | ⟨hold, -⟩
        · rfl
        · exact hkeys entry hold
      rw [ih h hkeys', targets.mem_assign, List.exists_mem_cons_iff]
      refine and_congr_right fun hkey => ?_
      by_cases htext : entry.2 = target
      · refine iff_of_true (Or.inl (Or.inl ?_)) (Or.inr (Or.inl (htext ▸ hstands)))
        rw [← htext, ← hkey]
      · -- Another target has another text, so nothing was overwritten.
        have hother : entry.1 ≠ target.string := fun hsame => htext (Target.string_inj (hkey ▸ hsame))
        have hnew : entry ≠ (target.string, target) := fun hsame => htext (congrArg Prod.snd hsame)
        have hnot : ¬ StandsFor string resolve address entry.2 := fun hsame => htext (hsame.unique hstands)
        rw [or_iff_right hnew, and_iff_left hother, or_iff_right hnot]

/-- The retrieved targets are the pairs that the addresses stand for, under their texts. -/
theorem mem_retrieveIPAndPorts {targets : Targets} {addresses : List Address}
    (h : retrieveIPAndPorts string resolve addresses = .ok targets) (entry : String × Target) :
    entry ∈ targets.entries ↔
      entry.1 = entry.2.string ∧ ∃ address ∈ addresses, StandsFor string resolve address entry.2 := by
  rw [mem_retrieveIPAndPortsFrom h fun entry hentry => absurd hentry List.not_mem_nil]
  exact and_congr_right fun _ => or_iff_right List.not_mem_nil

/-- For every list of addresses and every resolver: the targets are retrieved exactly when every address is
usable. They are then the pairs that the addresses stand for, each under its own text, and different pairs
have different texts. -/
theorem retrieveIPAndPorts_exact (string : IP → String) (resolve : String → Except GoError (List IP))
    (addresses : List Address) :
    ((∃ targets, retrieveIPAndPorts string resolve addresses = .ok targets) ↔
      ∀ address ∈ addresses, address.port ≠ 0 ∧
        (address.ip ≠ "" ∨ address.hostname ≠ "" ∧ ∃ ips, resolve address.hostname = .ok ips ∧ ips ≠ [])) ∧
    (∀ targets, retrieveIPAndPorts string resolve addresses = .ok targets →
      (∀ target, (∃ key, (key, target) ∈ targets.entries) ↔
        ∃ address ∈ addresses, StandsFor string resolve address target) ∧
      ∀ entry ∈ targets.entries, entry.1 = entry.2.string) ∧
    ∀ target target' : Target, target ≠ target' → target.string ≠ target'.string := by
  refine ⟨exists_retrieveIPAndPortsFrom_iff 0 noTargets addresses, ?_, fun _ _ => mt Target.string_inj⟩
  intro targets h
  constructor
  · intro target
    constructor
    · rintro ⟨key, hentry⟩
      exact ((mem_retrieveIPAndPorts h _).mp hentry).2
    · intro hstands
      exact ⟨target.string, (mem_retrieveIPAndPorts h _).mpr ⟨rfl, hstands⟩⟩
  · intro entry hentry
    exact ((mem_retrieveIPAndPorts h entry).mp hentry).1

/-- A configuration with an IPv6 address, and with a host name that is resolved to two IPs. -/
def sampleAddresses : List Address := [⟨"", "fd00::10", 7070⟩, ⟨"lb-0.local", "", 7070⟩]

/-- A resolver that finds two IPs for every host name. -/
def sampleResolve (_ : String) : Except GoError (List String) := .ok ["192.168.0.10", "192.168.0.11"]

/-- Both load balancers of the configuration are retrieved. -/
theorem retrieveIPAndPorts_sample :
    ∃ targets, retrieveIPAndPorts id sampleResolve sampleAddresses = .ok targets ∧
      (∃ key, (key, ⟨"fd00::10", 7070⟩) ∈ targets.entries) ∧
      ∃ key, (key, ⟨"192.168.0.10", 7070⟩) ∈ targets.entries := by
  obtain ⟨hsuccess, hexact, -⟩ := retrieveIPAndPorts_exact id sampleResolve sampleAddresses
  have husable : ∀ address ∈ sampleAddresses, Usable sampleResolve address := by
    intro address hmem
    rcases List.mem_cons.mp hmem with rfl | hmem
    · exact ⟨by decide, Or.inl (by decide)⟩
    · rw [List.mem_singleton.mp hmem]
      exact ⟨by decide, Or.inr ⟨by decide, _, rfl, nofun⟩⟩
  obtain ⟨targets, htargets⟩ := hsuccess.mpr husable
  refine ⟨targets, htargets, ?_, ?_⟩
  · exact ((hexact targets htargets).1 _).mpr ⟨_, List.mem_cons_self, .ip (by decide)⟩
  · exact ((hexact targets htargets).1 _).mpr
      ⟨_, List.mem_cons_of_mem _ List.mem_cons_self, .hostname "192.168.0.10" ["192.168.0.11"] rfl rfl⟩

/-- In every run of a dispatcher with retrieved targets, the reports of each loop go to the pair that one of
the configured addresses stands for, at the text that its client dials. -/
theorem run_reports_configured {targets : Targets} {addresses : List Address} {events : List Event} {d : Dispatcher}
    (h : retrieveIPAndPorts string resolve addresses = .ok targets)
    (hrun : Run Dispatcher.Step (newDispatcher targets) events d) {call : CallId} {key : String}
    (hstarted : d.loops (call, key) ≠ .notStarted) :
    ∃ address ∈ addresses, ∃ target, StandsFor string resolve address target ∧
      key = remoteServer target.ip target.port := by
  have hkey := (run_inv hrun).known call key hstarted
  rw [run_targets hrun] at hkey
  obtain ⟨entry, hentry, rfl⟩ := List.mem_map.mp hkey
  obtain ⟨htext, address, haddress, hstands⟩ := (mem_retrieveIPAndPorts h entry).mp hentry
  exact ⟨address, haddress, entry.2, hstands, htext⟩

end Retrieve

end GaleLB.NodeNetwork
