import GaleLB.Common.IpText
import GaleLB.Util.MulticastDns

/-!
# Addresses of interfaces and of host names

The load balancer takes the first address of its interface that has or embeds four bytes.

A host name is looked up by the resolver of the system. The DNS servers of a request are
only dialed before: a server decides whether there is an answer, and not which one. Answers
that are no IP are dropped, so a lookup can succeed without an IP.

The text of an IP denotes it, whether the IP comes from an interface, from an answer of DNS
or from one of multicast DNS.
-/

namespace GaleLB.Util

open ByteBuffer LbNetwork NetAddress

/-- The values of the bytes of an IP. -/
def ipBytes (ip : Buffer) : List ℕ := ip.map UInt8.toNat

/-- `net.IP.String`. -/
def netIPString (ip : Buffer) : String := String.ofList (ipString (ipBytes ip))

/-- `net.ParseIP`. -/
def netParseIP (s : String) : Option Buffer := (parseIP s.toList).map (List.map UInt8.ofNat)

/-- The address of an interface: a network, an IP, or something else. -/
inductive InterfaceAddr where
  | ipNet (ip : Buffer)
  | ipAddr (ip : Buffer)
  | other
deriving DecidableEq, Repr

/-- The IP of an address, empty if it has none. -/
def InterfaceAddr.ip : InterfaceAddr → Buffer
  | .ipNet ip => ip
  | .ipAddr ip => ip
  | .other => []

/-- A network interface, with the addresses that it reports. -/
structure NetInterface where
  addrs : Except GoError (List InterfaceAddr)

/-- The text of the first address of an interface that has or embeds four bytes. -/
def getIPv4FromInterface (interfaceByName : String → Except GoError NetInterface) (ifaceName : String) :
    Except GoError String :=
  match interfaceByName ifaceName with
  | .error err => .error err
  | .ok iface =>
    match iface.addrs with
    | .error err => .error err
    | .ok addrs =>
      match addrs.find? fun addr => (NetAddress.to4 (ipBytes addr.ip)).isSome with
      | some addr => .ok (netIPString addr.ip)
      | none => .error (.new "no valid IPv4 address found")

/-- Look a host name up after its DNS server was dialed; `dial` and `lookup` are the outcomes of both. -/
def resolveDNS (dial : Option GoError) (lookup : Except GoError (List String)) (hostname : String) :
    Except GoError (List Buffer) :=
  match dial with
  | some err => .error (.wrap "failed to dial DNS server" err)
  | none =>
    match lookup with
    | .error err => .error (.wrap "failed to resolve IP from hostname" err)
    | .ok ipsString =>
      if ipsString = [] then .error (.new ("no IP addresses found for hostname: " ++ hostname))
      else .ok (ipsString.filterMap netParseIP)

/-- The loop of `ResolveDNS`, from an attempt on. The lookup does not depend on the DNS server. -/
def resolveDNSFrom (dial : ℕ → String → Option GoError) (lookup : ℕ → Except GoError (List String))
    (hostname : String) (attempt : ℕ) : List String → Except GoError (List Buffer)
  | [] => .error (.new ("failed to resolve hostname: " ++ hostname))
  | resolver :: rest =>
    match resolveDNS (dial attempt resolver) (lookup attempt) hostname with
    | .ok ips => .ok ips
    | .error _ => resolveDNSFrom dial lookup hostname (attempt + 1) rest

/-- The DNS server that is used if none is given. -/
def defaultCloudFlareDNSResolver : String := "1.1.1.1:53"

/-- `ResolveDNS`: one attempt for each of the given DNS servers, up to the first answer. -/
def resolveDNSServers (dial : ℕ → String → Option GoError) (lookup : ℕ → Except GoError (List String))
    (hostname : String) (dnsServer : List String) : Except GoError (List Buffer) :=
  resolveDNSFrom dial lookup hostname 0 (if dnsServer.length = 0 then [defaultCloudFlareDNSResolver] else dnsServer)

/-- The number of bytes of an IP. -/
theorem length_ipBytes (ip : Buffer) : (ipBytes ip).length = ip.length := List.length_map _

/-- Bytes are less than 256. -/
theorem ipBytes_lt (ip : Buffer) : ∀ b ∈ ipBytes ip, b < 256 := by
  intro b hb
  obtain ⟨byte, -, rfl⟩ := List.mem_map.mp hb
  exact byte.toNat_lt

/-- The text of an IP denotes it. -/
theorem parseIP_netIPString {ip : Buffer} (hlength : ip.length = 4 ∨ ip.length = 16) :
    parseIP (netIPString ip).toList = some (to16 (ipBytes ip)) := by
  rw [← length_ipBytes] at hlength
  rw [netIPString, String.toList_ofList]
  exact parseIP_ipString hlength (ipBytes_lt ip)

/-- A text that is parsed denotes the sixteen bytes that it is parsed to. -/
theorem netParseIP_eq_some {s : String} {ip : Buffer} (h : netParseIP s = some ip) :
    ip.length = 16 ∧ parseIP s.toList = some (ipBytes ip) := by
  obtain ⟨bytes, hbytes, rfl⟩ := Option.map_eq_some_iff.mp h
  obtain ⟨hlength, hlt⟩ := parseIP_bytes hbytes
  refine ⟨by rw [List.length_map, hlength], ?_⟩
  have hsame : ipBytes (bytes.map UInt8.ofNat) = bytes := by
    rw [ipBytes, List.map_map]
    exact (List.map_congr_left fun b hb => UInt8.toNat_ofNat_of_lt' (hlt b hb)).trans (List.map_id bytes)
  rw [hsame, hbytes]

/-- The load balancer finds the first of the addresses of its interface that has or embeds four bytes. -/
theorem getIPv4FromInterface_eq_ok_iff {interfaceByName : String → Except GoError NetInterface}
    {ifaceName text : String} :
    getIPv4FromInterface interfaceByName ifaceName = .ok text ↔
      ∃ addrs before addr after p4, interfaceByName ifaceName = .ok ⟨.ok addrs⟩ ∧
        addrs = before ++ addr :: after ∧ (∀ a ∈ before, NetAddress.to4 (ipBytes a.ip) = none) ∧
        NetAddress.to4 (ipBytes addr.ip) = some p4 ∧ text = netIPString addr.ip := by
  unfold getIPv4FromInterface
  constructor
  · intro h
    split at h
    case h_1 => cases h
    case h_2 iface hiface =>
      split at h
      case h_1 => cases h
      case h_2 addrs haddrs =>
        split at h
        case h_1 addr hfind =>
          cases h
          obtain ⟨hfour, before, after, rfl, hbefore⟩ := List.find?_eq_some_iff_append.mp hfind
          obtain ⟨p4, hp4⟩ := Option.isSome_iff_exists.mp hfour
          obtain ⟨found⟩ := iface
          subst haddrs
          refine ⟨_, before, addr, after, p4, hiface, rfl, fun a ha => ?_, hp4, rfl⟩
          simpa using hbefore a ha
        case h_2 => cases h
  · rintro ⟨addrs, before, addr, after, p4, hiface, rfl, hbefore, hp4, rfl⟩
    have hfind : (before ++ addr :: after).find? (fun a => (NetAddress.to4 (ipBytes a.ip)).isSome) = some addr := by
      rw [List.find?_eq_some_iff_append]
      exact ⟨by rw [hp4]; rfl, before, after, rfl, fun a ha => by rw [hbefore a ha]; rfl⟩
    rw [hiface]
    dsimp only
    rw [hfind]

/-- An attempt succeeds exactly when its DNS server was dialed and the lookup found texts; the IPs are those
of the texts that denote one. -/
theorem resolveDNS_eq_ok_iff {dial : Option GoError} {lookup : Except GoError (List String)} {hostname : String}
    {ips : List Buffer} :
    resolveDNS dial lookup hostname = .ok ips ↔
      dial = none ∧ ∃ texts, lookup = .ok texts ∧ texts ≠ [] ∧ ips = texts.filterMap netParseIP := by
  unfold resolveDNS
  constructor
  · intro h
    split at h
    case h_1 => cases h
    case h_2 =>
      split at h
      case h_1 => cases h
      case h_2 texts =>
        split_ifs at h with hempty
        cases h
        exact ⟨rfl, texts, rfl, hempty, rfl⟩
  · rintro ⟨rfl, texts, rfl, hne, rfl⟩
    exact if_neg hne

/-- The loop succeeds exactly with the first attempt that does. -/
theorem resolveDNSFrom_eq_ok_iff {dial : ℕ → String → Option GoError} {lookup : ℕ → Except GoError (List String)}
    {hostname : String} {attempt : ℕ} {servers : List String} {ips : List Buffer} :
    resolveDNSFrom dial lookup hostname attempt servers = .ok ips ↔
      ∃ before resolver after, servers = before ++ resolver :: after ∧
        resolveDNS (dial (attempt + before.length) resolver) (lookup (attempt + before.length)) hostname = .ok ips ∧
        ∀ i server, before[i]? = some server →
          ∃ err, resolveDNS (dial (attempt + i) server) (lookup (attempt + i)) hostname = .error err := by
  induction servers generalizing attempt with
  | nil =>
    refine iff_of_false nofun ?_
    rintro ⟨before, resolver, after, hservers, -⟩
    exact absurd hservers.symm (List.append_ne_nil_of_right_ne_nil before (List.cons_ne_nil resolver after))
  | cons server rest ih =>
    rw [resolveDNSFrom]
    cases hfirst : resolveDNS (dial attempt server) (lookup attempt) hostname with
    | ok found =>
      constructor
      · rintro ⟨⟩
        exact ⟨[], server, rest, rfl, hfirst, nofun⟩
      · rintro ⟨before, resolver, after, hservers, hok, hfailed⟩
        cases before with
        | nil =>
          cases hservers
          exact hfirst.symm.trans hok
        | cons server' before =>
          cases hservers
          obtain ⟨err, herr⟩ := hfailed 0 server rfl
          rw [Nat.add_zero, hfirst] at herr
          cases herr
    | error err =>
      dsimp only
      rw [ih]
      constructor
      · rintro ⟨before, resolver, after, rfl, hok, hfailed⟩
        refine ⟨server :: before, resolver, after, rfl, ?_, ?_⟩
        · rwa [List.length_cons, Nat.add_comm before.length, ← Nat.add_assoc]
        · intro i server' hserver
          cases i with
          | zero =>
            cases hserver
            exact ⟨err, hfirst⟩
          | succ i =>
            rw [Nat.add_comm i, ← Nat.add_assoc]
            exact hfailed i server' hserver
      · rintro ⟨before, resolver, after, hservers, hok, hfailed⟩
        cases before with
        | nil =>
          cases hservers
          rw [List.length_nil, Nat.add_zero, hfirst] at hok
          cases hok
        | cons server' before =>
          cases hservers
          rw [List.length_cons, Nat.add_comm before.length, ← Nat.add_assoc] at hok
          refine ⟨before, resolver, after, rfl, hok, ?_⟩
          intro i server' hserver
          rw [Nat.add_assoc, Nat.add_comm 1]
          exact hfailed (i + 1) server' hserver

end GaleLB.Util
