import GaleLB.Common.DnsMessage
import GaleLB.LbNetwork.HealthStream

/-!
# Resolving names by multicast DNS

The query holds one question, for the host name without its top level domain and that
domain. The host name becomes a single label: its dots are not separators, so the question
asks for the given name just when there is one label before the top level domain.

The response is not parsed. Its last four bytes are the address, so the answer is right
just when the message ends in the data of one of its address records.
-/

namespace GaleLB.Util

open ByteBuffer DnsMessage LbNetwork

/-- The bytes of a text of ASCII characters. -/
def ascii (s : String) : Buffer := s.toList.map fun c => UInt8.ofNat c.toNat

/-- The top level domain of multicast DNS. -/
def defaultMDNSTopLevelDomain : Buffer := ascii "local"

/-- The size of the buffer for a response. -/
abbrev defaultMDNSResponseBuffer : ℕ := 512

/-- The byte between the labels of a host name. -/
abbrev dot : UInt8 := 46

/-- The suffix of the host names that multicast DNS resolves. -/
def localTopLevel : Buffer := dot :: defaultMDNSTopLevelDomain

/-- Whether a host name ends in the top level domain. -/
def isMultiCastDNS (hostname : Buffer) : Bool := localTopLevel.isSuffixOf hostname

/-- `strings.TrimSuffix`. -/
def trimSuffix (s suffix : Buffer) : Buffer :=
  if suffix.isSuffixOf s then s.take (s.length - suffix.length) else s

/-- Check the top level domain of a host name and cut it off. -/
def normalizeMDNSHostname (hostname : Buffer) : Except GoError Buffer :=
  if !isMultiCastDNS hostname then
    .error (.new ("domains in mDNS must use ." ++ ".local" ++ " top level hostname"))
  else .ok (trimSuffix hostname localTopLevel)

/-- The header of a query: transaction, flags, and the counts of the question and the three sections. -/
def mdnsPacketHeader : Buffer :=
  encode16 0 ++ encode16 0 ++ encode16 1 ++ encode16 0 ++ encode16 0 ++ encode16 0

/-- The type of a question for an IPv4 address. -/
abbrev mdnsPacketTypeA : ℕ := 1

/-- The class of the Internet. -/
abbrev mdnsPacketClassIN : ℕ := 1

/-- The query for a host name without its top level domain; a length is cut to its low byte. -/
def constructMDNSQuery (host : Buffer) : Buffer :=
  let query := [host, defaultMDNSTopLevelDomain].foldl
    (fun query part => query ++ [UInt8.ofNat part.length] ++ part) mdnsPacketHeader
  query ++ [0] ++ encode16 mdnsPacketTypeA ++ encode16 mdnsPacketClassIN

/-- `net.IPv4`: the address in its form of 16 bytes. -/
def netIPv4 (a b c d : UInt8) : Buffer := List.replicate 10 0 ++ [255, 255, a, b, c, d]

/-- `To4`: the last four bytes of an address in its form of 16 bytes. -/
def to4 (ip : Buffer) : Buffer := ip.drop 12

/-- What the receiving goroutine makes of a datagram, of which it reads as much as its buffer holds. -/
def receiveMDNS (datagram : Buffer) : Except GoError (List Buffer) :=
  let buffer := datagram.take defaultMDNSResponseBuffer
  let n := buffer.length
  if n < 12 + 16 then .error (.new ("invalid mDNS response length " ++ toString n))
  else
    .ok [netIPv4 (buffer.getD (n - 4) 0) (buffer.getD (n - 3) 0) (buffer.getD (n - 2) 0) (buffer.getD (n - 1) 0)]

/-- What the `select` of a request finds ready first. -/
inductive FirstReady where
  | ctxDone (err : GoError)
  | writeFailed (err : GoError)
  | readFailed (err : GoError)
  | datagram (bytes : Buffer)
deriving DecidableEq, Repr

/-- Send a query and wait for the first outcome; `deadline` is the error of setting the read deadline. -/
def sendAndReceiveMDNS (deadline : Option GoError) (network : Buffer → FirstReady) (query : Buffer) :
    Except GoError (List Buffer) :=
  match deadline with
  | some err => .error err
  | none =>
    match network query with
    | .ctxDone err => .error err
    | .writeFailed err => .error err
    | .readFailed err => .error err
    | .datagram bytes => receiveMDNS bytes

/-- Resolve a host name; `listen` and `resolve` are the errors of opening the socket and of the resolver's
address. -/
def resolveMulticastDNS (listen resolve deadline : Option GoError) (network : Buffer → FirstReady)
    (hostname : Buffer) : Except GoError (List Buffer) :=
  match normalizeMDNSHostname hostname with
  | .error err => .error err
  | .ok host =>
    match listen with
    | some err => .error err
    | none =>
      match resolve with
      | some err => .error err
      | none => sendAndReceiveMDNS deadline network (constructMDNSQuery host)

/-- The labels of a host name. -/
def dotLabels (hostname : Buffer) : Name := hostname.splitOn dot

/-- The accepted host names are those with the top level domain, which is cut off. -/
theorem normalizeMDNSHostname_eq_ok_iff {hostname host : Buffer} :
    normalizeMDNSHostname hostname = .ok host ↔ hostname = host ++ localTopLevel := by
  unfold normalizeMDNSHostname isMultiCastDNS trimSuffix
  by_cases hsuffix : localTopLevel.isSuffixOf hostname = true
  · obtain ⟨rest, rfl⟩ := List.isSuffixOf_iff_suffix.mp hsuffix
    rw [hsuffix, if_pos rfl, List.length_append, Nat.add_sub_cancel, List.take_left, List.append_left_inj]
    change Except.ok rest = Except.ok host ↔ rest = host
    rw [Except.ok.injEq]
  · constructor
    · intro h
      rw [Bool.not_eq_true] at hsuffix
      rw [hsuffix] at h
      cases h
    · rintro rfl
      exact absurd (List.isSuffixOf_iff_suffix.mpr (List.suffix_append host localTopLevel)) hsuffix

/-- A name is resolved exactly when it has the top level domain, the socket is set up, and the first
outcome of the query for the rest of the name is a datagram that the receiver accepts. -/
theorem resolveMulticastDNS_eq_ok_iff {listen resolve deadline : Option GoError} {network : Buffer → FirstReady}
    {hostname : Buffer} {ips : List Buffer} :
    resolveMulticastDNS listen resolve deadline network hostname = .ok ips ↔
      (listen = none ∧ resolve = none ∧ deadline = none) ∧ ∃ host datagram, hostname = host ++ localTopLevel ∧
        network (constructMDNSQuery host) = .datagram datagram ∧ receiveMDNS datagram = .ok ips := by
  simp only [← normalizeMDNSHostname_eq_ok_iff]
  unfold resolveMulticastDNS sendAndReceiveMDNS
  cases hhost : normalizeMDNSHostname hostname with
  | error err => simp
  | ok host =>
    cases listen with
    | some err => simp
    | none =>
      cases resolve with
      | some err => simp
      | none =>
        cases deadline with
        | some err => simp
        | none => cases hfirst : network (constructMDNSQuery host) <;> simp [hfirst]

/-- The labels of an accepted host name. -/
theorem dotLabels_append_localTopLevel (host : Buffer) :
    dotLabels (host ++ localTopLevel) = dotLabels host ++ [defaultMDNSTopLevelDomain] := by
  unfold dotLabels localTopLevel
  rw [List.splitOn_eq_splitOnP, List.splitOnP_append_cons (p := (· == dot)) host _ (beq_self_eq_true dot)]
  rfl

/-- The query is its header, the name of the host and the top level domain as two labels, type and class. -/
theorem constructMDNSQuery_eq (host : Buffer) :
    constructMDNSQuery host = mdnsPacketHeader ++ (encodeName [host, defaultMDNSTopLevelDomain] ++
      (encode16 mdnsPacketTypeA ++ encode16 mdnsPacketClassIN)) := by
  unfold constructMDNSQuery encodeName
  simp

/-- The question of a query is for a name, and the query ends with the type and class behind it. -/
def AsksFor (query : Buffer) (labels : Name) : Prop :=
  ∃ next, scanName query (query.length + 1) 12 = some ⟨labels, none, next⟩ ∧
    query.drop next = encode16 mdnsPacketTypeA ++ encode16 mdnsPacketClassIN

/-- A host name that fits a label is asked for as one. -/
theorem scanName_constructMDNSQuery {host : Buffer} (hpos : 1 ≤ host.length) (hle : host.length ≤ 63) :
    scanName (constructMDNSQuery host) ((constructMDNSQuery host).length + 1) 12 =
      some ⟨[host, defaultMDNSTopLevelDomain], none,
        12 + (encodeName [host, defaultMDNSTopLevelDomain]).length⟩ := by
  have hvalid : ValidLabels [host, defaultMDNSTopLevelDomain] := by
    intro label hlabel
    rcases List.mem_pair.mp hlabel with rfl | rfl
    · exact ⟨hpos, hle⟩
    · decide
  rw [constructMDNSQuery_eq]
  apply scanName_encodeName hvalid mdnsPacketHeader
  simp only [List.length_append, List.length_cons, List.length_nil, mdnsPacketHeader, encode16]
  omega

/-- The first octet of the question is the length of the host name modulo 256. -/
theorem byte_constructMDNSQuery (host : Buffer) : byte (constructMDNSQuery host) 12 = host.length % 256 := by
  have hquery : constructMDNSQuery host = mdnsPacketHeader ++ UInt8.ofNat host.length ::
      (host ++ encodeName [defaultMDNSTopLevelDomain] ++
        (encode16 mdnsPacketTypeA ++ encode16 mdnsPacketClassIN)) := by
    rw [constructMDNSQuery_eq]
    unfold encodeName
    simp
  rw [hquery]
  exact (byte_append_cons mdnsPacketHeader _ _).trans UInt8.toNat_ofNat'

/-- The query asks for the host name as one label if it fits one, and for no name otherwise: a larger length
octet is read as a pointer or not at all. -/
theorem asksFor_constructMDNSQuery_iff {host : Buffer} (hpos : 1 ≤ host.length) (hshort : host.length < 256)
    (labels : Name) :
    AsksFor (constructMDNSQuery host) labels ↔
      host.length ≤ 63 ∧ labels = [host, defaultMDNSTopLevelDomain] := by
  constructor
  · rintro ⟨next, hscan, -⟩
    by_cases hle : host.length ≤ 63
    · rw [scanName_constructMDNSQuery hpos hle, Option.some.injEq, ScannedName.mk.injEq] at hscan
      exact ⟨hle, hscan.1.symm⟩
    · have hoctet : 63 < byte (constructMDNSQuery host) 12 := by
        rw [byte_constructMDNSQuery, Nat.mod_eq_of_lt hshort]
        omega
      exact absurd rfl (scanName_pointer hscan hoctet)
  · rintro ⟨hle, rfl⟩
    refine ⟨_, scanName_constructMDNSQuery hpos hle, ?_⟩
    rw [constructMDNSQuery_eq, ← List.append_assoc]
    apply List.drop_left'
    rw [List.length_append]
    rfl

/-- A host name with one label is that label. -/
theorem dotLabels_eq_singleton_iff (host : Buffer) : dotLabels host = [host] ↔ (dotLabels host).length = 1 := by
  constructor
  · intro h
    rw [h]
    rfl
  · intro h
    obtain ⟨label, hlabel⟩ := List.length_eq_one_iff.mp h
    have hjoin : [dot].intercalate (dotLabels host) = host := List.intercalate_splitOn dot
    rw [hlabel, List.intercalate_singleton] at hjoin
    rw [hlabel, hjoin]

/-- The query asks for the given name just when the name has one label before the top level domain. -/
theorem constructMDNSQuery_asksFor_iff {hostname host : Buffer}
    (haccepted : normalizeMDNSHostname hostname = .ok host) (hvalid : ValidLabels (dotLabels hostname))
    (hlength : wireLength (dotLabels hostname) ≤ 255) :
    AsksFor (constructMDNSQuery host) (dotLabels hostname) ↔ (dotLabels hostname).length = 2 := by
  have hname := normalizeMDNSHostname_eq_ok_iff.mp haccepted
  subst hname
  have hshort : host.length < 256 := by
    unfold dotLabels at hlength
    rw [wireLength_splitOn, List.length_append] at hlength
    omega
  rw [dotLabels_append_localTopLevel] at hvalid ⊢
  have hpos : 1 ≤ host.length := by
    -- An empty host name has an empty label.
    cases host with
    | nil => exact absurd (hvalid [] (List.mem_append_left _ (List.mem_singleton.mpr rfl))).1 (by decide)
    | cons b rest => exact Nat.le_add_left 1 _
  have hlabel : dotLabels host = [host] → host.length ≤ 63 := by
    intro h
    rw [h] at hvalid
    exact (hvalid host (List.mem_append_left _ (List.mem_singleton.mpr rfl))).2
  calc AsksFor (constructMDNSQuery host) (dotLabels host ++ [defaultMDNSTopLevelDomain])
      ↔ host.length ≤ 63 ∧ dotLabels host ++ [defaultMDNSTopLevelDomain] = [host] ++ [defaultMDNSTopLevelDomain] :=
        asksFor_constructMDNSQuery_iff hpos hshort _
    _ ↔ dotLabels host = [host] := by
        rw [List.append_left_inj]
        exact ⟨fun h => h.2, fun h => ⟨hlabel h, h⟩⟩
    _ ↔ (dotLabels host).length = 1 := dotLabels_eq_singleton_iff host
    _ ↔ (dotLabels host ++ [defaultMDNSTopLevelDomain]).length = 2 := by
        rw [List.length_append, List.length_singleton]
        omega

/-- A load balancer's name is asked for as given. -/
theorem constructMDNSQuery_asksFor_lb :
    normalizeMDNSHostname (ascii "lb-0.local") = .ok (ascii "lb-0") ∧
      AsksFor (constructMDNSQuery (ascii "lb-0")) (dotLabels (ascii "lb-0.local")) := by
  have haccepted : normalizeMDNSHostname (ascii "lb-0.local") = .ok (ascii "lb-0") := by decide
  have hvalid : ValidLabels (dotLabels (ascii "lb-0.local")) := by
    unfold ValidLabels
    decide
  exact ⟨haccepted, (constructMDNSQuery_asksFor_iff haccepted hvalid (by decide)).mpr (by decide)⟩

/-- A name of three labels is accepted, but the query asks for a name of two, the first with a dot in it. -/
theorem constructMDNSQuery_joins_labels :
    normalizeMDNSHostname (ascii "lb.rack.local") = .ok (ascii "lb.rack") ∧
      dotLabels (ascii "lb.rack.local") = [ascii "lb", ascii "rack", ascii "local"] ∧
      scanName (constructMDNSQuery (ascii "lb.rack")) ((constructMDNSQuery (ascii "lb.rack")).length + 1) 12 =
        some ⟨[ascii "lb.rack", ascii "local"], none, 27⟩ ∧
      ¬ AsksFor (constructMDNSQuery (ascii "lb.rack")) (dotLabels (ascii "lb.rack.local")) := by
  have hscan : scanName (constructMDNSQuery (ascii "lb.rack")) ((constructMDNSQuery (ascii "lb.rack")).length + 1) 12 =
      some ⟨[ascii "lb.rack", ascii "local"], none, 27⟩ := by decide
  refine ⟨by decide, by decide, hscan, ?_⟩
  rintro ⟨next, hasks, -⟩
  rw [hscan, Option.some.injEq, ScannedName.mk.injEq] at hasks
  exact absurd hasks.1 (by decide)

/-- A datagram is a well-formed response: it is decoded, and the data of its address records are addresses. -/
structure WellFormedResponse (datagram : Buffer) (m : Message) : Prop where
  decoded : decode datagram = some m
  response : m.isResponse = true
  addresses : ∀ r ∈ m.records, r.isA = true → r.rdata.length = 4

/-- The result is the address of an address record among the answers, or an error if there is none. -/
def AnswersRequest (m : Message) (result : Except GoError (List Buffer)) : Prop :=
  if m.answers.any ResourceRecord.isA then
    ∃ ip, result = .ok [ip] ∧ ∃ r ∈ m.answers, r.isA = true ∧ to4 ip = r.rdata
  else ∃ err, result = .error err

/-- The last record of a message ends in the address of an address record among the answers. -/
def EndsInAddress (m : Message) : Prop :=
  ∃ last, m.records.getLast? = some last ∧ ∃ r ∈ m.answers, r.isA = true ∧ lastFour last.trailer = r.rdata

/-- The last four bytes of a long enough buffer, one by one. -/
theorem lastFour_eq_getD {b : Buffer} (h : 4 ≤ b.length) :
    lastFour b = [b.getD (b.length - 4) 0, b.getD (b.length - 3) 0, b.getD (b.length - 2) 0,
      b.getD (b.length - 1) 0] := by
  have hget : ∀ {i : ℕ}, i < b.length → b.drop i = b.getD i 0 :: b.drop (i + 1) := by
    intro i hi
    rw [List.drop_eq_getElem_cons hi, List.getD_eq_getElem _ _ hi]
  unfold lastFour
  rw [hget (by omega), show b.length - 4 + 1 = b.length - 3 by omega, hget (by omega),
    show b.length - 3 + 1 = b.length - 2 by omega, hget (by omega), show b.length - 2 + 1 = b.length - 1 by omega,
    hget (by omega), show b.length - 1 + 1 = b.length by omega, List.drop_length]

/-- A short datagram is an error. -/
theorem receiveMDNS_of_lt {datagram : Buffer} (h : datagram.length < 28) :
    ∃ err, receiveMDNS datagram = .error err := by
  unfold receiveMDNS
  dsimp only
  rw [if_pos (by rw [List.length_take]; omega)]
  exact ⟨_, rfl⟩

/-- Any longer datagram that fits the buffer gives its last four bytes. -/
theorem receiveMDNS_of_le {datagram : Buffer} (h : 28 ≤ datagram.length) (hfits : datagram.length ≤ 512) :
    ∃ ip, receiveMDNS datagram = .ok [ip] ∧ to4 ip = lastFour datagram := by
  unfold receiveMDNS
  dsimp only
  rw [List.take_of_length_le hfits, if_neg (by omega)]
  exact ⟨_, rfl, (lastFour_eq_getD (by omega)).symm⟩

/-- An address answers a request when it is one of an address record among the answers. -/
theorem answersRequest_ok_iff (m : Message) (ip : Buffer) :
    AnswersRequest m (.ok [ip]) ↔ ∃ r ∈ m.answers, r.isA = true ∧ to4 ip = r.rdata := by
  unfold AnswersRequest
  by_cases hany : m.answers.any ResourceRecord.isA = true
  · rw [if_pos hany]
    constructor
    · rintro ⟨ip', hip, h⟩
      cases hip
      exact h
    · intro h
      exact ⟨ip, rfl, h⟩
  · rw [if_neg hany]
    constructor
    · rintro ⟨err, herr⟩
      cases herr
    · rintro ⟨r, hr, hisA, -⟩
      exact absurd (List.any_eq_true.mpr ⟨r, hr, hisA⟩) hany

/-- An error answers a request when there is no address record among the answers. -/
theorem answersRequest_error_iff (m : Message) (err : GoError) :
    AnswersRequest m (.error err) ↔ ¬ m.answers.any ResourceRecord.isA = true := by
  unfold AnswersRequest
  by_cases hany : m.answers.any ResourceRecord.isA = true
  · rw [if_pos hany]
    constructor
    · rintro ⟨ip, hip, -⟩
      cases hip
    · exact absurd hany
  · rw [if_neg hany]
    exact ⟨fun _ => hany, fun _ => ⟨err, rfl⟩⟩

/-- The last record of a message gives the last bytes of its datagram. -/
theorem endsInAddress_iff {datagram : Buffer} {m : Message} (h : decode datagram = some m) :
    EndsInAddress m ↔ ∃ r ∈ m.answers, r.isA = true ∧ lastFour datagram = r.rdata := by
  constructor
  · rintro ⟨last, hlast, haddress⟩
    rw [decode_lastFour h hlast]
    exact haddress
  · rintro ⟨r, hr, haddress⟩
    have hlast := List.getLast?_eq_some_getLast (List.ne_nil_of_mem (List.mem_of_mem_take hr))
    rw [decode_lastFour h hlast] at haddress
    exact ⟨_, hlast, r, hr, haddress⟩

/-- A message that ends in the address of an answer has one. -/
theorem EndsInAddress.any {m : Message} (h : EndsInAddress m) : m.answers.any ResourceRecord.isA = true := by
  obtain ⟨last, -, r, hr, hisA, -⟩ := h
  exact List.any_eq_true.mpr ⟨r, hr, hisA⟩

/-- A received response is answered as it should be just when it ends in the address of one of its answers,
or has no such answer and is too short to be read. -/
theorem sendAndReceiveMDNS_answers_iff {datagram : Buffer} {m : Message} (hformed : WellFormedResponse datagram m)
    (hfits : datagram.length ≤ 512) {network : Buffer → FirstReady} {query : Buffer}
    (hreceived : network query = .datagram datagram) :
    AnswersRequest m (sendAndReceiveMDNS none network query) ↔
      if m.answers.any ResourceRecord.isA then 28 ≤ datagram.length ∧ EndsInAddress m else datagram.length < 28 := by
  have hresult : sendAndReceiveMDNS none network query = receiveMDNS datagram := by
    unfold sendAndReceiveMDNS
    rw [hreceived]
  rw [hresult]
  by_cases hlong : 28 ≤ datagram.length
  · obtain ⟨ip, hip, hbytes⟩ := receiveMDNS_of_le hlong hfits
    rw [hip, answersRequest_ok_iff, hbytes, ← endsInAddress_iff hformed.decoded]
    by_cases hany : m.answers.any ResourceRecord.isA = true
    · rw [if_pos hany, and_iff_right hlong]
    · rw [if_neg hany, iff_false_right (Nat.not_lt.mpr hlong)]
      exact fun hends => hany hends.any
  · obtain ⟨err, herr⟩ := receiveMDNS_of_lt (Nat.not_le.mp hlong)
    rw [herr, answersRequest_error_iff]
    by_cases hany : m.answers.any ResourceRecord.isA = true
    · rw [if_pos hany, iff_false_left (not_not_intro hany)]
      exact fun h => hlong h.1
    · rw [if_neg hany, iff_true_left hany]
      exact Nat.not_le.mp hlong

/-- The address record of a load balancer. -/
def lbRecord : ResourceRecord :=
  ⟨[ascii "lb-0", ascii "local"], 1, 0x8001, 120, [192, 168, 0, 10]⟩

/-- A record with the IPv6 address of the same load balancer. -/
def lbRecord6 : ResourceRecord :=
  ⟨[ascii "lb-0", ascii "local"], 28, 0x8001, 120, [0xfd, 0, 0, 0, 0, 0, 0, 0, 0, 0, 0, 0, 0, 0, 0, 1]⟩

/-- The header of a response with one answer and some additional records. -/
def responseHeader (additional : ℕ) : Buffer :=
  encode16 0 ++ encode16 0x8400 ++ encode16 0 ++ encode16 1 ++ encode16 0 ++ encode16 additional

/-- The bytes of the address record. -/
def lbAnswer : Buffer := encodeName lbRecord.name ++ encode16 1 ++ encode16 0x8001 ++ lbRecord.trailer

/-- A response with the address record alone. -/
def plainResponse : Buffer := responseHeader 0 ++ lbAnswer

/-- A response with the IPv6 address as an additional record, whose name points to that of the answer. -/
def dualStackResponse : Buffer :=
  responseHeader 1 ++ lbAnswer ++ (encode16 0xC00C ++ encode16 28 ++ encode16 0x8001 ++ lbRecord6.trailer)

/-- The response with the address record alone is answered as it should be. -/
theorem sendAndReceiveMDNS_plainResponse :
    WellFormedResponse plainResponse ⟨0x8400, [], 1, [lbRecord]⟩ ∧
      AnswersRequest ⟨0x8400, [], 1, [lbRecord]⟩
        (sendAndReceiveMDNS none (fun _ => .datagram plainResponse) (constructMDNSQuery (ascii "lb-0"))) := by
  have hformed : WellFormedResponse plainResponse ⟨0x8400, [], 1, [lbRecord]⟩ := ⟨by decide +kernel, rfl, by decide⟩
  have hends : EndsInAddress ⟨0x8400, [], 1, [lbRecord]⟩ :=
    ⟨lbRecord, rfl, lbRecord, List.mem_singleton.mpr rfl, rfl, rfl⟩
  exact ⟨hformed, (sendAndReceiveMDNS_answers_iff hformed (by decide) rfl).mpr ⟨by decide, hends⟩⟩

/-- With the IPv6 address behind the answer, the end of that address is returned: 0.0.0.1 for 192.168.0.10. -/
theorem sendAndReceiveMDNS_dualStackResponse :
    WellFormedResponse dualStackResponse ⟨0x8400, [], 1, [lbRecord, lbRecord6]⟩ ∧ dualStackResponse.length ≤ 512 ∧
      sendAndReceiveMDNS none (fun _ => .datagram dualStackResponse) (constructMDNSQuery (ascii "lb-0")) =
        .ok [netIPv4 0 0 0 1] ∧
      ¬ AnswersRequest ⟨0x8400, [], 1, [lbRecord, lbRecord6]⟩
        (sendAndReceiveMDNS none (fun _ => .datagram dualStackResponse) (constructMDNSQuery (ascii "lb-0"))) := by
  have hresult : sendAndReceiveMDNS none (fun _ => .datagram dualStackResponse) (constructMDNSQuery (ascii "lb-0")) =
      .ok [netIPv4 0 0 0 1] := rfl
  refine ⟨⟨by decide +kernel, rfl, by decide⟩, by decide, hresult, ?_⟩
  rw [hresult]
  rintro ⟨ip, hip, r, hr, -, haddress⟩
  cases hip
  cases List.mem_singleton.mp hr
  exact absurd haddress (by decide)

end GaleLB.Util
