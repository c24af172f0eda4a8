import GaleLB.Common.LastWrite
import GaleLB.Routing.NatRoundTrip

/-!
# Connections through the translation

The first part compares the connections of two clients after translation: both addresses
have become constants, so only the source ports are left to tell them apart.

The second part follows the connection-tracking map over any sequence of frames, with
evictions anywhere in between. Every entry was written by an ingress frame with the
tuple of its key, and its value is the source address of that tuple. The egress program
looks frames up under the reversed tuple, so the address it finds is always the
destination of the frame it rewrites.
-/

namespace GaleLB.Routing

open ByteBuffer Transition LastWrite

/-- The connection of a client: its address and port, and the address it contacted. -/
def clientConnection (skb : Frame) : UInt32 × UInt16 × UInt32 :=
  (saddr skb, sourcePort skb, daddr skb)

/-- The source and destination of a frame, with their ports. -/
def addressTuple (skb : Frame) : UInt32 × UInt16 × UInt32 × UInt16 :=
  (saddr skb, sourcePort skb, daddr skb, destPort skb)

/-- Ingress translation replaces both addresses by constants and keeps the ports. -/
theorem addressTuple_dnatFrame (skb : Frame) (hlen : 34 ≤ skb.length) :
    addressTuple (dnatFrame skb) = (lbIp, sourcePort skb, backendIp, destPort skb) := by
  obtain ⟨hsaddr, hdaddr⟩ := dnatFrame_addresses skb hlen
  have hbyte := (dnatFrame_rewrites skb hlen).byte_eq
  have hports : ∀ j, 34 ≤ j → word (dnatFrame skb) j = word skb j := fun j hj => by
    rw [word, word, hbyte j (by omega), hbyte (j + 1) (by omega)]
  unfold addressTuple saddr daddr sourcePort destPort field32 field16
  rw [hsaddr, hdaddr, hports 34 (by omega), hports 36 (by omega), UInt32.ofNat_toNat,
    UInt32.ofNat_toNat]

/-- The connections of two clients stay distinguishable exactly when the clients use different
source ports. -/
theorem translated_connections_ne_iff (skb₁ skb₂ : Frame) (conntrack₁ conntrack₂ : ConntrackMap)
    (hparsed₁ : Parsed skb₁) (hport₁ : destPort skb₁ = targetPort)
    (hparsed₂ : Parsed skb₂) (hport₂ : destPort skb₂ = targetPort) :
    ∃ outcome₁ outcome₂, dnatProg skb₁ conntrack₁ = some outcome₁ ∧
      dnatProg skb₂ conntrack₂ = some outcome₂ ∧
      ((clientConnection skb₁ ≠ clientConnection skb₂ →
          addressTuple outcome₁.skb ≠ addressTuple outcome₂.skb) ↔
        (clientConnection skb₁ ≠ clientConnection skb₂ → sourcePort skb₁ ≠ sourcePort skb₂)) := by
  refine ⟨_, _, by rw [dnatProg_eq, if_pos ⟨hparsed₁, hport₁⟩],
    by rw [dnatProg_eq, if_pos ⟨hparsed₂, hport₂⟩], imp_congr_right fun _ => ?_⟩
  dsimp only
  rw [addressTuple_dnatFrame skb₁ (by have := hparsed₁.1; omega),
    addressTuple_dnatFrame skb₂ (by have := hparsed₂.1; omega), hport₁, hport₂]
  simp

/-- A request of a second client, 10.0.0.8, from the source port of the first one. -/
def secondClientFrame : Frame :=
  [2, 0, 0, 0, 0, 1, 2, 0, 0, 0, 0, 2, 8, 0,
   69, 0, 0, 40, 0, 1, 64, 0, 64, 6, 111, 45, 10, 0, 0, 8, 192, 168, 0, 242,
   156, 64, 31, 144, 0, 0, 0, 1, 0, 0, 0, 0, 80, 2, 250, 240, 45, 126, 0, 0]

/-- A request of the second client from another source port. -/
def otherPortFrame : Frame :=
  [2, 0, 0, 0, 0, 1, 2, 0, 0, 0, 0, 2, 8, 0,
   69, 0, 0, 40, 0, 1, 64, 0, 64, 6, 111, 45, 10, 0, 0, 8, 192, 168, 0, 242,
   156, 65, 31, 144, 0, 0, 0, 1, 0, 0, 0, 0, 80, 2, 250, 240, 45, 125, 0, 0]

/-- Two clients with different source ports stay apart. -/
theorem translated_connections_ne_of_port :
    clientConnection clientFrame ≠ clientConnection otherPortFrame ∧
      ∃ outcome₁ outcome₂, dnatProg clientFrame (fun _ => none) = some outcome₁ ∧
        dnatProg otherPortFrame (fun _ => none) = some outcome₂ ∧
        addressTuple outcome₁.skb ≠ addressTuple outcome₂.skb := by
  have hne : clientConnection clientFrame ≠ clientConnection otherPortFrame := by decide
  obtain ⟨outcome₁, outcome₂, hdnat₁, hdnat₂, hiff⟩ := translated_connections_ne_iff clientFrame
    otherPortFrame (fun _ => none) (fun _ => none) (by decide) (by decide) (by decide) (by decide)
  exact ⟨hne, outcome₁, outcome₂, hdnat₁, hdnat₂, hiff.mpr (fun _ => by decide) hne⟩

/-- Two clients with the same source port become one connection for the backend. -/
theorem translated_connections_clash :
    clientConnection clientFrame ≠ clientConnection secondClientFrame ∧
      ∃ outcome₁ outcome₂, dnatProg clientFrame (fun _ => none) = some outcome₁ ∧
        dnatProg secondClientFrame outcome₁.conntrack = some outcome₂ ∧
        addressTuple outcome₁.skb = addressTuple outcome₂.skb := by
  refine ⟨by decide, _, _, by rw [dnatProg_eq, if_pos (by decide)],
    by rw [dnatProg_eq, if_pos (by decide)], ?_⟩
  dsimp only
  rw [addressTuple_dnatFrame clientFrame (by decide), addressTuple_dnatFrame secondClientFrame (by decide)]
  decide

/-- What can happen to the connection-tracking map. -/
inductive PacketEvent where
  | ingress (skb : Frame)
  | egress (skb : Frame)
  | evict (tuple : ConnTuple)
deriving DecidableEq, Repr

/-- The map after an event: a program ran on a frame, or an entry was evicted. -/
def packetStep (conntrack : ConntrackMap) : PacketEvent → Option ConntrackMap
  | .ingress skb => (dnatProg skb conntrack).map Outcome.conntrack
  | .egress skb => (snatProg skb conntrack).map Outcome.conntrack
  -- The map is an LRU hash, which may drop any entry at any time.
  | .evict tuple => some (Function.update conntrack tuple none)

/-- The map without entries. -/
def emptyConntrack : ConntrackMap := fun _ => none

/-- Whether an event writes or deletes the entry of a tuple. -/
def PacketEvent.touches (tuple : ConnTuple) : PacketEvent → Bool
  | .ingress skb => decide (Parsed skb ∧ destPort skb = targetPort ∧ forwardTuple skb = tuple)
  | .egress _ => false
  | .evict evicted => decide (evicted = tuple)

/-- What an event leaves in the entry it touches. -/
def PacketEvent.write : PacketEvent → Option UInt32
  | .ingress skb => some (saddr skb)
  | .egress _ => none
  | .evict _ => none

/-- The egress program never changes the map. -/
theorem snatProg_conntrack (skb : Frame) (conntrack : ConntrackMap) :
    ∃ outcome, snatProg skb conntrack = some outcome ∧ outcome.conntrack = conntrack := by
  rw [snatProg_eq]
  refine ⟨_, rfl, ?_⟩
  by_cases hparsed : Parsed skb
  · rw [if_pos hparsed]
    cases conntrack (reverseTuple skb) <;> rfl
  · rw [if_neg hparsed]

/-- A frame that the egress program changes is parsed and tracked under its reversed tuple. -/
theorem snatProg_of_ne {skb : Frame} {conntrack : ConntrackMap} {outcome : Outcome}
    (h : snatProg skb conntrack = some outcome) (hne : outcome.skb ≠ skb) :
    Parsed skb ∧ ∃ origIp, conntrack (reverseTuple skb) = some origIp ∧
      outcome.skb = snatFrame skb origIp := by
  rw [snatProg_eq, Option.some.injEq] at h
  subst h
  by_cases hparsed : Parsed skb
  · rw [if_pos hparsed] at hne ⊢
    cases htracked : conntrack (reverseTuple skb) with
    | none =>
      rw [htracked] at hne
      exact absurd rfl hne
    | some origIp => exact ⟨hparsed, origIp, rfl, rfl⟩
  · rw [if_neg hparsed] at hne
    exact absurd rfl hne

/-- An event changes the entries it touches and no others. -/
theorem packetStep_lookup {conntrack conntrack' : ConntrackMap} {event : PacketEvent}
    (h : Computes packetStep conntrack event conntrack') (tuple : ConnTuple) :
    conntrack' tuple = if event.touches tuple then event.write else conntrack tuple := by
  cases event with
  | ingress skb =>
    obtain ⟨outcome, hdnat, rfl⟩ := Option.map_eq_some_iff.mp h
    rw [dnatProg_eq, Option.some.injEq] at hdnat
    subst hdnat
    simp only [PacketEvent.touches, PacketEvent.write, decide_eq_true_eq]
    by_cases hrewritten : Parsed skb ∧ destPort skb = targetPort
    · rw [if_pos hrewritten]
      by_cases htuple : forwardTuple skb = tuple
      · rw [if_pos ⟨hrewritten.1, hrewritten.2, htuple⟩, ← htuple]
        exact Function.update_self _ _ _
      · rw [if_neg fun h => htuple h.2.2]
        exact Function.update_of_ne (Ne.symm htuple) _ _
    · rw [if_neg hrewritten, if_neg fun h => hrewritten ⟨h.1, h.2.1⟩]
  | egress skb =>
    obtain ⟨outcome, hsnat, rfl⟩ := Option.map_eq_some_iff.mp h
    obtain ⟨outcome', hsnat', hconntrack⟩ := snatProg_conntrack skb conntrack
    obtain rfl : outcome = outcome' := Option.some.inj (hsnat.symm.trans hsnat')
    rw [hconntrack]
    rfl
  | evict evicted =>
    obtain rfl : Function.update conntrack evicted none = conntrack' := Option.some.inj h
    simp only [PacketEvent.touches, PacketEvent.write, decide_eq_true_eq]
    by_cases htuple : evicted = tuple
    · rw [if_pos htuple, htuple, Function.update_self]
    · rw [if_neg htuple, Function.update_of_ne (Ne.symm htuple)]

variable {events : List PacketEvent} {conntrack : ConntrackMap}

/-- Every entry was written by an ingress frame with the tuple of the entry, and holds the source
address of that tuple. -/
theorem run_conntrack_entry (hrun : Run (Computes packetStep) emptyConntrack events conntrack)
    {tuple : ConnTuple} {origIp : UInt32} (h : conntrack tuple = some origIp) :
    ∃ skb, .ingress skb ∈ events ∧ Parsed skb ∧ destPort skb = targetPort ∧
      forwardTuple skb = tuple ∧ origIp = tuple.srcIp := by
  obtain ⟨-, hlookup⟩ := lookup_run (I := fun _ => True) (fun (conntrack : ConntrackMap) tuple =>
    conntrack tuple) PacketEvent.touches PacketEvent.write (fun _ _ _ _ _ => trivial)
    (fun _ _ _ _ hstep => packetStep_lookup hstep) trivial hrun tuple
  rw [h] at hlookup
  cases hlast : lastMatch (PacketEvent.touches tuple) events with
  | none =>
    rw [hlast] at hlookup
    cases hlookup
  | some event =>
    have htouches := lastMatch_satisfies hlast
    have hmem := mem_of_lastMatch hlast
    rw [hlast] at hlookup
    cases event with
    | ingress skb =>
      obtain ⟨hparsed, hport, htuple⟩ := of_decide_eq_true htouches
      refine ⟨skb, hmem, hparsed, hport, htuple, ?_⟩
      rw [← htuple]
      exact Option.some.inj hlookup
    | egress skb => cases hlookup
    | evict evicted => cases hlookup

/-- Over every sequence of frames and evictions, the egress program leaves the map alone and changes
only frames from the target port whose exact reversal was processed on ingress before. -/
theorem snatProg_provenance (hrun : Run (Computes packetStep) emptyConntrack events conntrack)
    (skb : Frame) :
    ∃ outcome, snatProg skb conntrack = some outcome ∧ outcome.conntrack = conntrack ∧
      (outcome.skb ≠ skb → Parsed skb ∧ sourcePort skb = targetPort ∧
        ∃ earlier, .ingress earlier ∈ events ∧ Parsed earlier ∧
          saddr earlier = daddr skb ∧ daddr earlier = saddr skb ∧
          sourcePort earlier = destPort skb ∧ destPort earlier = sourcePort skb) := by
  obtain ⟨outcome, hsnat, hconntrack⟩ := snatProg_conntrack skb conntrack
  refine ⟨outcome, hsnat, hconntrack, fun hne => ?_⟩
  obtain ⟨hparsed, origIp, htracked, -⟩ := snatProg_of_ne hsnat hne
  obtain ⟨earlier, hmem, hparsed', hport, htuple, -⟩ := run_conntrack_entry hrun htracked
  obtain ⟨hsaddr, hdaddr, hsource, hdest, -⟩ := ConnTuple.mk.inj htuple
  exact ⟨hparsed, hdest.symm.trans hport, earlier, hmem, hparsed', hsaddr, hdaddr, hsource, hdest⟩

/-- A reply that carries the addresses of the client's request reversed. -/
def reversedReply : Frame :=
  [2, 0, 0, 0, 0, 1, 2, 0, 0, 0, 0, 2, 8, 0,
   69, 0, 0, 40, 0, 1, 64, 0, 64, 6, 111, 46, 192, 168, 0, 242, 10, 0, 0, 7,
   31, 144, 156, 64, 0, 0, 0, 1, 0, 0, 0, 2, 80, 18, 250, 240, 45, 109, 0, 0]

/-- The map after the client's request. -/
def clientConntrack : ConntrackMap :=
  bpfMapUpdateElem emptyConntrack (forwardTuple clientFrame) (saddr clientFrame)

/-- The request of the client produces that map. -/
theorem run_clientConntrack :
    Run (Computes packetStep) emptyConntrack [.ingress clientFrame] clientConntrack := by
  apply Run.single
  change (dnatProg clientFrame emptyConntrack).map Outcome.conntrack = some clientConntrack
  rw [dnatProg_eq, if_pos (by decide)]
  rfl

/-- The reversed reply is changed on egress. -/
theorem snatProg_reversedReply :
    ∃ outcome, snatProg reversedReply clientConntrack = some outcome ∧
      outcome.skb = snatFrame reversedReply 0x0A000007 ∧ outcome.skb ≠ reversedReply := by
  have htracked : clientConntrack (reverseTuple reversedReply) = some 0x0A000007 := by decide
  refine ⟨_, by rw [snatProg_eq, if_pos (by decide), htracked], rfl, ?_⟩
  decide

/-- The egress program changes the reversed reply after the client's request went in. -/
theorem snatProg_reversedReply_provenance :
    ∃ outcome, snatProg reversedReply clientConntrack = some outcome ∧
      outcome.skb ≠ reversedReply ∧ outcome.conntrack = clientConntrack ∧
      ∃ earlier, PacketEvent.ingress earlier ∈ [PacketEvent.ingress clientFrame] ∧
        saddr earlier = daddr reversedReply ∧ daddr earlier = saddr reversedReply := by
  obtain ⟨outcome, hsnat, -, hne⟩ := snatProg_reversedReply
  obtain ⟨outcome', hsnat', hconntrack, hprovenance⟩ :=
    snatProg_provenance run_clientConntrack reversedReply
  obtain rfl : outcome = outcome' := Option.some.inj (hsnat.symm.trans hsnat')
  obtain ⟨-, -, earlier, hmem, -, hsaddr, hdaddr, -, -⟩ := hprovenance hne
  exact ⟨outcome, hsnat, hne, hconntrack, earlier, hmem, hsaddr, hdaddr⟩

/-- Over every sequence of frames and evictions, each frame that the egress program rewrites leaves it
with its destination address in both places. -/
theorem snatProg_reflects (hrun : Run (Computes packetStep) emptyConntrack events conntrack)
    {skb : Frame} {outcome : Outcome} (hsnat : snatProg skb conntrack = some outcome)
    (hrewritten : outcome.skb ≠ skb) :
    saddr outcome.skb = daddr skb ∧ daddr outcome.skb = daddr skb := by
  obtain ⟨hparsed, origIp, htracked, hframe⟩ := snatProg_of_ne hsnat hrewritten
  obtain ⟨-, -, -, -, -, horigIp⟩ := run_conntrack_entry hrun htracked
  have hlen : 34 ≤ skb.length := by have := hparsed.1; omega
  rw [hframe, saddr_snatFrame skb origIp hlen, daddr_snatFrame skb origIp hlen]
  exact ⟨horigIp, rfl⟩

/-- The rewritten reply to the client has the client's address in both places. -/
theorem snatProg_reflects_reversedReply :
    ∃ outcome, snatProg reversedReply clientConntrack = some outcome ∧
      saddr outcome.skb = 0x0A000007 ∧ daddr outcome.skb = 0x0A000007 := by
  obtain ⟨outcome, hsnat, -, hne⟩ := snatProg_reversedReply
  exact ⟨outcome, hsnat, snatProg_reflects run_clientConntrack hsnat hne⟩

/-- A reply from the load balancer to the client becomes a packet from the client to itself. -/
theorem reversedReply_reflected :
    Run (Computes packetStep) emptyConntrack [.ingress clientFrame] clientConntrack ∧
      saddr reversedReply ≠ daddr reversedReply ∧
      ∃ outcome, snatProg reversedReply clientConntrack = some outcome ∧
        outcome.skb ≠ reversedReply ∧ saddr outcome.skb = daddr outcome.skb := by
  obtain ⟨outcome, hsnat, hframe, hne⟩ := snatProg_reversedReply
  refine ⟨run_clientConntrack, by decide, outcome, hsnat, hne, ?_⟩
  rw [hframe]
  decide

end GaleLB.Routing
