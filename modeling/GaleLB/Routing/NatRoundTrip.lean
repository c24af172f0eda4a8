import GaleLB.Routing.PacketRewrite

/-!
# The address translation round trip

The ingress program keys the connection-tracking map by the tuple before translation,
while a reply carries the translated addresses. The egress program writes the address it
finds over the source of the reply and leaves the destination alone. The client and the
address it contacted are therefore restored only when the client is the load balancer
itself and the map already held the contacted address under the translated tuple.
-/

namespace GaleLB.Routing

open ByteBuffer

/-- A reply of the backend to a rewritten frame. -/
structure IsReply (skb reply : Frame) : Prop where
  parsed : Parsed reply
  source : saddr reply = backendIp
  sourcePort_eq : sourcePort reply = targetPort
  dest : daddr reply = lbIp
  destPort_eq : destPort reply = sourcePort skb

instance (skb reply : Frame) : Decidable (IsReply skb reply) :=
  decidable_of_iff (Parsed reply ∧ saddr reply = backendIp ∧ sourcePort reply = targetPort ∧
      daddr reply = lbIp ∧ destPort reply = sourcePort skb)
    ⟨fun h => ⟨h.1, h.2.1, h.2.2.1, h.2.2.2.1, h.2.2.2.2⟩,
      fun h => ⟨h.parsed, h.source, h.sourcePort_eq, h.dest, h.destPort_eq⟩⟩

/-- The tuple that the replies to a rewritten frame are looked up under. -/
def replyTuple (skb : Frame) : ConnTuple :=
  ⟨lbIp, backendIp, sourcePort skb, targetPort, ipprotoTcp⟩

/-- A translated reply goes back to the client, from the address that the client contacted. -/
def Restores (skb translated : Frame) : Prop :=
  daddr translated = saddr skb ∧ saddr translated = daddr skb

/-- A reply is looked up under the translated tuple. -/
theorem reverseTuple_of_isReply {skb reply : Frame} (h : IsReply skb reply) :
    reverseTuple reply = replyTuple skb := by
  unfold reverseTuple replyTuple
  rw [h.dest, h.source, h.destPort_eq, h.sourcePort_eq, h.parsed.2.2]

/-- The ingress program writes the translated tuple only for its own address and the backend's. -/
theorem replyTuple_eq_forwardTuple_iff {skb : Frame} (hparsed : Parsed skb)
    (hport : destPort skb = targetPort) :
    replyTuple skb = forwardTuple skb ↔ saddr skb = lbIp ∧ daddr skb = backendIp := by
  unfold replyTuple forwardTuple
  rw [hport, hparsed.2.2, ConnTuple.mk.injEq]
  constructor
  · intro h
    exact ⟨h.1.symm, h.2.1.symm⟩
  · intro h
    exact ⟨h.1.symm, h.2.symm, rfl, rfl, rfl⟩

/-- The egress program sets the source address of a frame. -/
theorem saddr_snatFrame (skb : Frame) (origIp : UInt32) (hlen : 34 ≤ skb.length) :
    saddr (snatFrame skb origIp) = origIp := by
  apply UInt32.toNat_inj.mp
  rw [saddr, field32_toNat]
  exact (snatFrame_addresses skb origIp hlen).1

/-- The egress program keeps the destination address of a frame. -/
theorem daddr_snatFrame (skb : Frame) (origIp : UInt32) (hlen : 34 ≤ skb.length) :
    daddr (snatFrame skb origIp) = daddr skb := by
  apply UInt32.toNat_inj.mp
  rw [daddr, daddr, field32_toNat, field32_toNat]
  exact (snatFrame_addresses skb origIp hlen).2

/-- The two addresses of the load balancer's network differ. -/
theorem backendIp_ne_lbIp : backendIp ≠ lbIp := by decide

/-- Translating a reply restores the client's view exactly when the tracked address does. -/
theorem snatProg_reply {skb reply : Frame} (conntrack : ConntrackMap) (h : IsReply skb reply) :
    ∃ outcome, snatProg reply conntrack = some outcome ∧
      (Restores skb outcome.skb ↔ saddr skb = lbIp ∧
        (conntrack (replyTuple skb)).getD backendIp = daddr skb) := by
  have hlen : 34 ≤ reply.length := by have := h.parsed.1; omega
  rw [snatProg_eq, if_pos h.parsed, reverseTuple_of_isReply h]
  refine ⟨_, rfl, ?_⟩
  cases htracked : conntrack (replyTuple skb) with
  | none =>
    change daddr reply = saddr skb ∧ saddr reply = daddr skb ↔ _
    rw [h.dest, h.source, eq_comm]
    rfl
  | some origIp =>
    change daddr (snatFrame reply origIp) = saddr skb ∧ saddr (snatFrame reply origIp) = daddr skb ↔ _
    rw [daddr_snatFrame reply origIp hlen, saddr_snatFrame reply origIp hlen, h.dest, eq_comm]
    rfl

/-- In the state the ingress program leaves, translating any reply restores the client's view exactly
when the client is the load balancer, did not contact the backend, and the contacted address was
already tracked under the translated tuple. -/
theorem nat_roundTrip_iff (skb reply : Frame) (conntrack : ConntrackMap) (hparsed : Parsed skb)
    (hport : destPort skb = targetPort) (hreply : IsReply skb reply) :
    ∃ rewritten translated, dnatProg skb conntrack = some rewritten ∧
      snatProg reply rewritten.conntrack = some translated ∧
      (Restores skb translated.skb ↔ saddr skb = lbIp ∧ daddr skb ≠ backendIp ∧
        conntrack (replyTuple skb) = some (daddr skb)) := by
  obtain ⟨translated, htranslated, hrestores⟩ :=
    snatProg_reply (bpfMapUpdateElem conntrack (forwardTuple skb) (saddr skb)) hreply
  refine ⟨_, translated, by rw [dnatProg_eq, if_pos ⟨hparsed, hport⟩], htranslated, ?_⟩
  rw [hrestores]
  apply and_congr_right
  intro hclient
  have hkey := replyTuple_eq_forwardTuple_iff hparsed hport
  unfold bpfMapUpdateElem
  by_cases hbackend : daddr skb = backendIp
  · rw [hkey.mpr ⟨hclient, hbackend⟩, Function.update_self, hclient, hbackend]
    simp [Ne.symm backendIp_ne_lbIp]
  · rw [Function.update_of_ne fun h => hbackend (hkey.mp h).2]
    cases conntrack (replyTuple skb) with
    | none => simp [Ne.symm hbackend, hbackend]
    | some tracked => simp [hbackend]

/-- A connection request of the client 10.0.0.7 to port 8080 of the load balancer. -/
def clientFrame : Frame :=
  [2, 0, 0, 0, 0, 1, 2, 0, 0, 0, 0, 2, 8, 0,
   69, 0, 0, 40, 0, 1, 64, 0, 64, 6, 111, 46, 10, 0, 0, 7, 192, 168, 0, 242,
   156, 64, 31, 144, 0, 0, 0, 1, 0, 0, 0, 0, 80, 2, 250, 240, 45, 127, 0, 0]

/-- The backend's answer to the rewritten request. -/
def backendReply : Frame :=
  [2, 0, 0, 0, 0, 1, 2, 0, 0, 0, 0, 2, 8, 0,
   69, 0, 0, 40, 0, 1, 64, 0, 64, 6, 184, 28, 192, 168, 0, 112, 192, 168, 0, 242,
   31, 144, 156, 64, 0, 0, 0, 1, 0, 0, 0, 2, 80, 18, 250, 240, 118, 91, 0, 0]

/-- A connection request of the load balancer itself to port 8080 of 192.168.0.50. -/
def hairpinFrame : Frame :=
  [2, 0, 0, 0, 0, 1, 2, 0, 0, 0, 0, 2, 8, 0,
   69, 0, 0, 40, 0, 1, 64, 0, 64, 6, 184, 90, 192, 168, 0, 242, 192, 168, 0, 50,
   156, 64, 31, 144, 0, 0, 0, 1, 0, 0, 0, 0, 80, 2, 250, 240, 118, 171, 0, 0]

/-- A round trip that restores the addresses: the map already tracks 192.168.0.50. -/
theorem nat_roundTrip_hairpin :
    IsReply hairpinFrame backendReply ∧
      ∃ rewritten translated, dnatProg hairpinFrame (fun _ => some 0xC0A80032) = some rewritten ∧
        snatProg backendReply rewritten.conntrack = some translated ∧
        Restores hairpinFrame translated.skb := by
  have hreply : IsReply hairpinFrame backendReply := by decide
  obtain ⟨rewritten, translated, hdnat, hsnat, hiff⟩ := nat_roundTrip_iff hairpinFrame backendReply
    (fun _ => some 0xC0A80032) (by decide) (by decide) hreply
  exact ⟨hreply, rewritten, translated, hdnat, hsnat, hiff.mpr (by decide)⟩

/-- The reply to an ordinary client is not sent back to that client. -/
theorem nat_roundTrip_fails :
    Parsed clientFrame ∧ destPort clientFrame = targetPort ∧ IsReply clientFrame backendReply ∧
      ∃ rewritten translated, dnatProg clientFrame (fun _ => none) = some rewritten ∧
        snatProg backendReply rewritten.conntrack = some translated ∧
        ¬ Restores clientFrame translated.skb := by
  have hreply : IsReply clientFrame backendReply := by decide
  have hclient : saddr clientFrame ≠ lbIp := by decide
  obtain ⟨translated, hsnat, hrestores⟩ := snatProg_reply
    (bpfMapUpdateElem (fun _ => none) (forwardTuple clientFrame) (saddr clientFrame)) hreply
  refine ⟨by decide, by decide, hreply, _, translated, dnatProg_eq _ _, ?_, ?_⟩
  · rw [if_pos (by decide)]
    exact hsnat
  · intro h
    exact hclient (hrestores.mp h).1

end GaleLB.Routing
