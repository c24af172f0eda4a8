import GaleLB.Common.ByteBuffer
import GaleLB.Common.OnesComplement
import Mathlib.Logic.Function.Basic

/-!
# The packet programs of the router

The two traffic-control programs work in place on a frame that starts with its Ethernet
header. Network-order fields are read as the numbers their bytes spell, so the
conversions between host and network order are the identity here. Every access is
checked against the frame: a program that reads or writes outside of it yields `none`.

The kernel helpers update the 16-bit word at a byte offset counted from the start of
the frame. The programs pass them offsets counted from the start of a header. The kernel
compares the keys of the connection-tracking map byte by byte; here they are compared by
their five members, and the padding bytes behind the last one are left out.
-/

namespace GaleLB.Routing

open ByteBuffer OnesComplement

/-- The bytes of a socket buffer, starting with the Ethernet header. -/
abbrev Frame := Buffer

/-- The address of the backend, 192.168.0.112. -/
def backendIp : UInt32 := 0xC0A80070

/-- The address of the load balancer, 192.168.0.242. -/
def lbIp : UInt32 := 0xC0A800F2

/-- The protocol number of TCP. -/
def ipprotoTcp : UInt8 := 6

/-- The destination port of client traffic. -/
def targetPort : UInt16 := 8080

/-- The Ethernet type of IPv4. -/
def ethPIp : UInt16 := 0x0800

/-- `sizeof(struct ethhdr)`. -/
abbrev ethhdrSize : ℕ := 14

/-- `offsetof(struct ethhdr, h_proto)`. -/
abbrev ethhdrProto : ℕ := 12

/-- `sizeof(struct iphdr)`. -/
abbrev iphdrSize : ℕ := 20

/-- `offsetof(struct iphdr, protocol)`. -/
abbrev iphdrProtocol : ℕ := 9

/-- `offsetof(struct iphdr, check)`. -/
abbrev iphdrCheck : ℕ := 10

/-- `offsetof(struct iphdr, saddr)`. -/
abbrev iphdrSaddr : ℕ := 12

/-- `offsetof(struct iphdr, daddr)`. -/
abbrev iphdrDaddr : ℕ := 16

/-- `sizeof(struct tcphdr)`. -/
abbrev tcphdrSize : ℕ := 20

/-- `offsetof(struct tcphdr, source)`. -/
abbrev tcphdrSource : ℕ := 0

/-- `offsetof(struct tcphdr, dest)`. -/
abbrev tcphdrDest : ℕ := 2

/-- `offsetof(struct tcphdr, check)`. -/
abbrev tcphdrCheck : ℕ := 16

/-- The key of a tracked connection. -/
structure ConnTuple where
  srcIp : UInt32
  dstIp : UInt32
  srcPort : UInt16
  dstPort : UInt16
  protocol : UInt8
deriving DecidableEq, Repr

/-- The connection-tracking map, from a tuple to an original source address. -/
abbrev ConntrackMap := ConnTuple → Option UInt32

/-- Insert or overwrite an entry. -/
def bpfMapUpdateElem (conntrack : ConntrackMap) (key : ConnTuple) (value : UInt32) : ConntrackMap :=
  Function.update conntrack key (some value)

/-- Look an entry up. -/
def bpfMapLookupElem (conntrack : ConntrackMap) (key : ConnTuple) : Option UInt32 :=
  conntrack key

/-- Kernel helper: update the checksum word at `offset` for a field that changes from `old` to `new`. -/
def bpfL3CsumReplace (skb : Frame) (offset : ℕ) (old new : UInt32) : Option Frame := do
  let sum ← load16 skb offset
  store16 skb offset (UInt16.ofNat (csumReplace4 sum.toNat old.toNat new.toNat))

/-- Kernel helper: the same update, called for a checksum that also covers a pseudo header. -/
def bpfL4CsumReplace (skb : Frame) (offset : ℕ) (old new : UInt32) : Option Frame := do
  let sum ← load16 skb offset
  store16 skb offset (UInt16.ofNat (csumReplace4 sum.toNat old.toNat new.toNat))

/-- The offsets at which `parse_headers` finds the three headers. -/
structure Headers where
  eth : ℕ
  ip : ℕ
  tcp : ℕ
deriving DecidableEq, Repr

/-- Locate the Ethernet, IPv4 and TCP headers; `some none` is the return value 0. -/
def parseHeaders (skb : Frame) : Option (Option Headers) :=
  let eth := 0
  let ip := eth + ethhdrSize
  let tcp := ip + iphdrSize
  if ip > skb.length then some none else do
    let hProto ← load16 skb (eth + ethhdrProto)
    if hProto ≠ ethPIp then some none else
      if tcp > skb.length then some none else do
        let protocol ← load8 skb (ip + iphdrProtocol)
        if protocol ≠ ipprotoTcp then some none else
          if tcp + tcphdrSize > skb.length then some none else
            some (some ⟨eth, ip, tcp⟩)

/-- The action a program returns; both programs let every packet pass. -/
inductive TcAction where
  | ok
deriving DecidableEq, Repr

/-- What a program leaves behind: its action, the frame and the map. -/
structure Outcome where
  action : TcAction
  skb : Frame
  conntrack : ConntrackMap

/-- Both checksum updates for the address field at `field`, whose new value is read from the frame. -/
def replaceChecksums (skb : Frame) (field : ℕ) (old : UInt32) : Option Frame := do
  let skb ← bpfL3CsumReplace skb iphdrCheck old (← load32 skb field)
  bpfL4CsumReplace skb tcphdrCheck old (← load32 skb field)

/-- Ingress: remember the client and redirect its traffic to the backend. -/
def dnatProg (skb : Frame) (conntrack : ConntrackMap) : Option Outcome := do
  match ← parseHeaders skb with
  | none => some ⟨.ok, skb, conntrack⟩
  | some h =>
    if (← load16 skb (h.tcp + tcphdrDest)) ≠ targetPort then some ⟨.ok, skb, conntrack⟩ else
      let tuple : ConnTuple :=
        { srcIp := ← load32 skb (h.ip + iphdrSaddr)
          dstIp := ← load32 skb (h.ip + iphdrDaddr)
          srcPort := ← load16 skb (h.tcp + tcphdrSource)
          dstPort := ← load16 skb (h.tcp + tcphdrDest)
          protocol := ← load8 skb (h.ip + iphdrProtocol) }
      let origIp ← load32 skb (h.ip + iphdrSaddr)
      let conntrack := bpfMapUpdateElem conntrack tuple origIp
      let oldDaddr ← load32 skb (h.ip + iphdrDaddr)
      let oldSaddr ← load32 skb (h.ip + iphdrSaddr)
      let skb ← store32 skb (h.ip + iphdrDaddr) backendIp
      let skb ← store32 skb (h.ip + iphdrSaddr) lbIp
      let skb ← replaceChecksums skb (h.ip + iphdrDaddr) oldDaddr
      let skb ← replaceChecksums skb (h.ip + iphdrSaddr) oldSaddr
      some ⟨.ok, skb, conntrack⟩

/-- Egress: look the reversed tuple up and restore the original source address. -/
def snatProg (skb : Frame) (conntrack : ConntrackMap) : Option Outcome := do
  match ← parseHeaders skb with
  | none => some ⟨.ok, skb, conntrack⟩
  | some h =>
    let revTuple : ConnTuple :=
      { srcIp := ← load32 skb (h.ip + iphdrDaddr)
        dstIp := ← load32 skb (h.ip + iphdrSaddr)
        srcPort := ← load16 skb (h.tcp + tcphdrDest)
        dstPort := ← load16 skb (h.tcp + tcphdrSource)
        protocol := ← load8 skb (h.ip + iphdrProtocol) }
    match bpfMapLookupElem conntrack revTuple with
    | none => some ⟨.ok, skb, conntrack⟩
    | some origIp =>
      let oldSaddr ← load32 skb (h.ip + iphdrSaddr)
      let skb ← store32 skb (h.ip + iphdrSaddr) origIp
      let skb ← replaceChecksums skb (h.ip + iphdrSaddr) oldSaddr
      some ⟨.ok, skb, conntrack⟩

end GaleLB.Routing
