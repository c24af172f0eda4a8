import GaleLB.LbNetwork.LbProcess
import GaleLB.NodeNetwork.Targets

/-!
# How a node finds its load balancer

A node dials the text of a target, and a load balancer listens on the text of the first IPv4
address of its private interface with its node port. A target is configured by an IP, or by a
host name that is resolved by multicast DNS or by the resolver of the system; the text of the
first IP that was found denotes this IP.

Where the client library connects to is a parameter. It is assumed that a dotted IP with a
port leads to this IP and this port; nothing is assumed of a text with colons in its IP, which
the library reads in its own way. Several texts denote one IP, but only one of them is dotted.
So a target with a dotted IP leads to a load balancer exactly when the node dials the text on
which the load balancer listens.
-/

namespace GaleLB.System

open NetAddress ByteBuffer Config LbNetwork NodeNetwork Util TextFields Transition

/-- What the network answers when a node resolves its host names: the errors of the socket of multicast DNS
and the first outcome of a query there, the errors of dialing the DNS servers and what the system looks up. -/
structure Resolution where
  listen : Option GoError
  group : Option GoError
  deadline : Option GoError
  network : Buffer → FirstReady
  dial : String → ℕ → String → Option GoError
  lookup : String → ℕ → Except GoError (List String)

/-- The DNS server of a node. -/
def nodeDNSServer : String := "127.0.0.1:53"

/-- The IPs that a node finds for a host name. -/
def Resolution.resolve (r : Resolution) : String → Except GoError (List Buffer) :=
  resolveHostname (fun host => resolveMulticastDNS r.listen r.group r.deadline r.network host.toUTF8.toList)
    fun host => resolveDNSServers (r.dial host) (r.lookup host) host [nodeDNSServer]

/-- The port is one that can be connected to. -/
def ValidPort (port : ℤ) : Prop := 1 ≤ port ∧ port ≤ 65535

/-- The target has an IP without colons and a port that can be connected to. -/
structure Plain (target : Target) : Prop where
  ip : ':' ∉ target.ip.toList
  port : ValidPort target.port

/-- What is assumed of the client library, where `reaches` says to which IP and port the client of a text
connects: the text of a plain target leads to the IP that it denotes and to its port, and nowhere else. -/
def DialsPlainTargets (reaches : String → List ℕ → ℤ → Prop) : Prop :=
  ∀ target ip, Plain target → parseIP target.ip.toList = some ip →
    ∀ ip' port, reaches (remoteServer target.ip target.port) ip' port ↔ ip' = ip ∧ port = target.port

variable {r : Resolution} {interfaceByName : String → Except GoError NetInterface} {ifaceName lbIP : String}
  {reaches : String → List ℕ → ℤ → Prop}

/-- Multicast DNS finds addresses of sixteen bytes. -/
theorem length_of_receiveMDNS {datagram : Buffer} {ips : List Buffer} (h : receiveMDNS datagram = .ok ips) :
    ∀ ip ∈ ips, ip.length = 16 := by
  simp only [receiveMDNS] at h
  split_ifs at h
  cases h
  intro ip hip
  cases List.mem_singleton.mp hip
  rfl

/-- DNS finds addresses of sixteen bytes. -/
theorem length_of_resolveDNS {dial : Option GoError} {lookup : Except GoError (List String)} {hostname : String}
    {ips : List Buffer} (h : resolveDNS dial lookup hostname = .ok ips) : ∀ ip ∈ ips, ip.length = 16 := by
  obtain ⟨-, texts, -, -, rfl⟩ := resolveDNS_eq_ok_iff.mp h
  intro ip hip
  obtain ⟨text, -, htext⟩ := List.mem_filterMap.mp hip
  exact (netParseIP_eq_some htext).1

/-- A node finds addresses of sixteen bytes. -/
theorem Resolution.length_eq {host : String} {ips : List Buffer} (h : r.resolve host = .ok ips) :
    ∀ ip ∈ ips, ip.length = 16 := by
  have hfound := resolveHostname_eq_ok_iff.mp h
  split_ifs at hfound
  · obtain ⟨-, _, datagram, -, -, hreceive⟩ := resolveMulticastDNS_eq_ok_iff.mp hfound
    exact length_of_receiveMDNS hreceive
  · obtain ⟨before, resolver, after, -, hok, -⟩ := resolveDNSFrom_eq_ok_iff.mp hfound
    exact length_of_resolveDNS hok

/-- Sixteen bytes are an address as they are. -/
theorem to16_ipBytes {ip : Buffer} (h : ip.length = 16) : to16 (ipBytes ip) = ipBytes ip := by
  rw [to16, length_ipBytes, if_neg (by omega)]

/-- The targets that an address stands for, by its own IP or by its host name. -/
theorem standsFor_iff {address : Address} {target : Target} :
    StandsFor netIPString r.resolve address target ↔ target.port = address.port ∧
      (address.ip ≠ "" ∧ target.ip = address.ip ∨ address.ip = "" ∧
        ∃ first rest, r.resolve address.hostname = .ok (first :: rest) ∧ target.ip = netIPString first) := by
  constructor
  · rintro (hne | ⟨first, rest, hempty, hresolve⟩)
    · exact ⟨rfl, Or.inl ⟨hne, rfl⟩⟩
    · exact ⟨rfl, Or.inr ⟨hempty, first, rest, hresolve, rfl⟩⟩
  · obtain ⟨ip, port⟩ := target
    rintro ⟨rfl, ⟨hne, rfl⟩ | ⟨hempty, first, rest, hresolve, rfl⟩⟩
    · exact .ip hne
    · exact .hostname first rest hempty hresolve

/-- The text of an IP that was found for a host name denotes this IP. -/
theorem parseIP_of_resolve {host : String} {first : Buffer} {rest : List Buffer}
    (h : r.resolve host = .ok (first :: rest)) :
    parseIP (netIPString first).toList = some (ipBytes first) := by
  have hlength := Resolution.length_eq h first List.mem_cons_self
  rw [parseIP_netIPString (Or.inr hlength), to16_ipBytes hlength]

/-- The IP of a target is valid if a configured one is. -/
theorem isValidIP_of_standsFor {address : Address} {target : Target}
    (hvalid : address.ip ≠ "" → isValidIP address.ip = true)
    (h : StandsFor netIPString r.resolve address target) : isValidIP target.ip = true := by
  obtain ⟨-, ⟨hne, hip⟩ | ⟨-, first, rest, hresolve, hip⟩⟩ := standsFor_iff.mp h
  · rw [hip]
    exact hvalid hne
  · rw [hip]
    exact Option.isSome_iff_exists.mpr ⟨_, parseIP_of_resolve hresolve⟩

/-- The IP of the private interface is written with dots. -/
theorem parseIP_of_interface (h : getIPv4FromInterface interfaceByName ifaceName = .ok lbIP) :
    ∃ bytes, parseIP lbIP.toList = some bytes ∧ lbIP.toList = ipString bytes ∧ ':' ∉ lbIP.toList := by
  obtain ⟨addrs, before, addr, after, p4, -, -, -, hp4, rfl⟩ := getIPv4FromInterface_eq_ok_iff.mp h
  have hlength := (to4_eq_some hp4).2.2.2
  have htext : (netIPString addr.ip).toList = ipString (ipBytes addr.ip) := String.toList_ofList
  refine ⟨to16 (ipBytes addr.ip), ?_, ?_, ?_⟩
  · rw [htext]
    exact parseIP_ipString hlength (ipBytes_lt addr.ip)
  · rw [htext, ipString_to16]
  · rw [htext]
    exact colon_notMem_ipString hp4 (ipBytes_lt addr.ip)

/-- A client that dials a plain target with a valid IP reaches the load balancer exactly when it dials the text
on which the load balancer listens. -/
theorem DialsPlainTargets.reaches_iff (h : DialsPlainTargets reaches) {target : Target} (hplain : Plain target)
    (hvalid : isValidIP target.ip = true) {nodePort : ℤ} {bytes : List ℕ} (hparse : parseIP lbIP.toList = some bytes)
    (htext : lbIP.toList = ipString bytes) :
    reaches (remoteServer target.ip target.port) bytes nodePort ↔
      remoteServer target.ip target.port = listenAddress lbIP nodePort := by
  obtain ⟨ip, hip⟩ := Option.isSome_iff_exists.mp hvalid
  rw [h target ip hplain hip]
  constructor
  · rintro ⟨rfl, rfl⟩
    have hsame : target.ip = lbIP :=
      String.toList_injective ((eq_ipString_of_parseIP hip hplain.ip).trans htext.symm)
    rw [hsame]
    rfl
  · intro hserver
    have hsame : target = ⟨lbIP, nodePort⟩ := Target.string_inj hserver
    rw [hsame] at hip ⊢
    exact ⟨Option.some.inj (hparse.symm.trans hip), rfl⟩

/-- The addresses that stand for the target on which a load balancer listens. -/
theorem standsFor_interface_iff {bytes : List ℕ} (hparse : parseIP lbIP.toList = some bytes)
    (htext : lbIP.toList = ipString bytes) {address : Address} {nodePort : ℤ} :
    StandsFor netIPString r.resolve address ⟨lbIP, nodePort⟩ ↔ address.port = nodePort ∧
      (address.ip = lbIP ∨ address.ip = "" ∧
        ∃ first rest, r.resolve address.hostname = .ok (first :: rest) ∧ ipBytes first = bytes) := by
  rw [standsFor_iff, eq_comm (a := nodePort)]
  refine and_congr_right fun _ => or_congr ?_ (and_congr_right fun _ => ?_)
  · rw [eq_comm (a := lbIP)]
    refine and_iff_right_of_imp fun hip hempty => ?_
    rw [← hip, hempty] at hparse
    cases hparse
  · refine exists₂_congr fun first rest => and_congr_right fun hresolve => ?_
    constructor
    · intro hip
      have hdenotes := parseIP_of_resolve hresolve
      rw [← hip, hparse, Option.some.injEq] at hdenotes
      exact hdenotes.symm
    · rintro rfl
      refine String.toList_injective ?_
      rw [htext, netIPString, String.toList_ofList]

/-- A node has a plain target that leads to the IP of an interface exactly when some address of its
configuration has the port, and the IP in its own text or as the first IP of its host name. -/
theorem reaches_interface_iff (hdials : DialsPlainTargets reaches) {nodePort : ℤ} (hport : ValidPort nodePort)
    (hlb : getIPv4FromInterface interfaceByName ifaceName = .ok lbIP) {addresses : List Address} {targets : Targets}
    (hnode : retrieveIPAndPorts netIPString r.resolve addresses = .ok targets)
    (hvalid : ∀ address ∈ addresses, address.ip ≠ "" → isValidIP address.ip = true) :
    ∃ bytes, parseIP lbIP.toList = some bytes ∧
      (∀ entry ∈ targets.entries, Plain entry.2 →
        (reaches entry.1 bytes nodePort ↔ entry.1 = listenAddress lbIP nodePort)) ∧
      ((∃ entry ∈ targets.entries, Plain entry.2 ∧ reaches entry.1 bytes nodePort) ↔
        ∃ address ∈ addresses, address.port = nodePort ∧
          (address.ip = lbIP ∨ address.ip = "" ∧
            ∃ first rest, r.resolve address.hostname = .ok (first :: rest) ∧ ipBytes first = bytes)) := by
  obtain ⟨bytes, hparse, htext, hcolon⟩ := parseIP_of_interface hlb
  have hiff : ∀ entry ∈ targets.entries, Plain entry.2 →
      (reaches entry.1 bytes nodePort ↔ entry.1 = listenAddress lbIP nodePort) := by
    intro entry hentry hplain
    obtain ⟨hkey, address, haddress, hstands⟩ := (mem_retrieveIPAndPorts hnode entry).mp hentry
    have hip := isValidIP_of_standsFor (hvalid address haddress) hstands
    rw [hkey]
    exact hdials.reaches_iff hplain hip hparse htext
  refine ⟨bytes, hparse, hiff, ?_⟩
  simp only [← standsFor_interface_iff hparse htext]
  constructor
  · rintro ⟨entry, hentry, hplain, hreaches⟩
    obtain ⟨hkey, address, haddress, hstands⟩ := (mem_retrieveIPAndPorts hnode entry).mp hentry
    have htarget : entry.2 = ⟨lbIP, nodePort⟩ :=
      Target.string_inj (hkey.symm.trans ((hiff entry hentry hplain).mp hreaches))
    exact ⟨address, haddress, htarget ▸ hstands⟩
  · rintro ⟨address, haddress, hstands⟩
    have hentry : (listenAddress lbIP nodePort, ⟨lbIP, nodePort⟩) ∈ targets.entries :=
      (mem_retrieveIPAndPorts hnode _).mpr ⟨rfl, address, haddress, hstands⟩
    have hplain : Plain ⟨lbIP, nodePort⟩ := ⟨hcolon, hport⟩
    exact ⟨_, hentry, hplain, (hiff _ hentry hplain).mpr rfl⟩

/-- For every load balancer that serves on a valid port, for every node whose configured IPs are valid, and for
every client library that connects as assumed: a plain target of the node leads to the load balancer exactly
when the node dials the text on which the load balancer listens, and there is such a target exactly when some
address of the configuration has the node port, and the IP of the private interface in its own text or as the
first IP of its host name. -/
theorem node_reaches_loadBalancer_iff (hdials : DialsPlainTargets reaches) {cfg : PrivateInterface}
    (hport : ValidPort cfg.nodePort) {events : List LbEvent} {p : LbProcess} {server : String}
    (hrun : Run (LbProcess.Step cfg) newLbProcess events p) (hserving : p.main = .serving server)
    {addresses : List Address} {targets : Targets}
    (hnode : retrieveIPAndPorts netIPString r.resolve addresses = .ok targets)
    (hvalid : ∀ address ∈ addresses, address.ip ≠ "" → isValidIP address.ip = true) :
    ∃ lbIP bytes, FoundIn cfg events lbIP ∧ parseIP lbIP.toList = some bytes ∧
      (∀ entry ∈ targets.entries, Plain entry.2 → (reaches entry.1 bytes cfg.nodePort ↔ entry.1 = server)) ∧
      ((∃ entry ∈ targets.entries, Plain entry.2 ∧ reaches entry.1 bytes cfg.nodePort) ↔
        ∃ address ∈ addresses, address.port = cfg.nodePort ∧
          (address.ip = lbIP ∨ address.ip = "" ∧
            ∃ first rest, r.resolve address.hostname = .ok (first :: rest) ∧ ipBytes first = bytes)) := by
  obtain ⟨lbIP, hfound, rfl⟩ := (run_lbProcess_inv hrun).serving server hserving
  obtain ⟨interfaceByName, hlookup, hlb⟩ := hfound
  obtain ⟨bytes, hparse, hiff, hexists⟩ := reaches_interface_iff hdials hport hlb hnode hvalid
  exact ⟨lbIP, bytes, ⟨interfaceByName, hlookup, hlb⟩, hparse, hiff, hexists⟩

/-- A network in which every multicast query is answered by the address of the sample interface. -/
def sampleResolution : Resolution where
  listen := none
  group := none
  deadline := none
  network _ := .datagram (List.replicate 24 0 ++ [192, 168, 0, 10])
  dial _ _ _ := none
  lookup _ _ := .ok ["fe80::1%eth0", "192.168.0.11"]

/-- The name of the load balancer is resolved to the address of the sample interface. -/
theorem resolve_sampleResolution : sampleResolution.resolve "lb-0.local" = .ok [netIPv4 192 168 0 10] := by
  decide +kernel

/-- A client library that connects to plain targets and to nothing else. -/
def sampleDialer (server : String) (ip : List ℕ) (port : ℤ) : Prop :=
  ∃ target, Plain target ∧ server = remoteServer target.ip target.port ∧
    parseIP target.ip.toList = some ip ∧ port = target.port

/-- The sample library connects as assumed. -/
theorem sampleDialer_dials : DialsPlainTargets sampleDialer := by
  intro target ip hplain hip ip' port
  constructor
  · rintro ⟨other, -, hserver, hother, hport⟩
    obtain rfl : target = other := Target.string_inj hserver
    exact ⟨Option.some.inj (hother.symm.trans hip), hport⟩
  · rintro ⟨rfl, rfl⟩
    exact ⟨target, hplain, rfl, hip, rfl⟩

/-- A load balancer that listens on the sample interface. -/
def listeningEvents : List LbEvent := [.execute .ran, .newAPI sampleInterface, .lookup sampleInterface, .listen none]

/-- A node that is given the name of its load balancer reaches it. -/
theorem localName_reaches :
    ∃ p targets, Run (LbProcess.Step ⟨7070, 5555, "eth1"⟩) newLbProcess listeningEvents p ∧
      retrieveIPAndPorts netIPString sampleResolution.resolve [⟨"lb-0.local", "", 7070⟩] = .ok targets ∧
      ∃ entry ∈ targets.entries, p.main = .serving entry.1 := by
  have hrun : ∃ p, Run (LbProcess.Step ⟨7070, 5555, "eth1"⟩) newLbProcess listeningEvents p ∧
      p.main = .serving "192.168.0.10:7070" := ⟨_, run_of_replay _ rfl, rfl⟩
  have husable : ∀ address ∈ [Address.mk "lb-0.local" "" 7070], Usable sampleResolution.resolve address := by
    intro address haddress
    rw [List.mem_singleton.mp haddress]
    exact ⟨by decide, Or.inr ⟨by decide, _, resolve_sampleResolution, nofun⟩⟩
  obtain ⟨p, hp, hserving⟩ := hrun
  obtain ⟨targets, htargets⟩ := (exists_retrieveIPAndPortsFrom_iff 0 noTargets _).mpr husable
  obtain ⟨lbIP, bytes, ⟨interfaceByName, hlookup, hip⟩, hparse, hiff, hexists⟩ :=
    node_reaches_loadBalancer_iff sampleDialer_dials ⟨by decide, by decide⟩ hp hserving htargets (by decide)
  have hsample : interfaceByName = sampleInterface := by simpa [listeningEvents] using hlookup
  have hlbIP : lbIP = "192.168.0.10" := by
    rw [hsample] at hip
    exact (Except.ok.inj hip).symm
  have hbytes : ipBytes (netIPv4 192 168 0 10) = bytes := by
    rw [hlbIP] at hparse
    exact (Option.some.inj hparse).symm ▸ rfl
  obtain ⟨entry, hentry, hplain, hreaches⟩ := hexists.mpr
    ⟨_, List.mem_cons_self, rfl, Or.inr ⟨rfl, _, _, resolve_sampleResolution, hbytes⟩⟩
  refine ⟨p, targets, hp, htargets, entry, hentry, ?_⟩
  rw [hserving, (hiff entry hentry hplain).mp hreaches]

end GaleLB.System
