import GaleLB.Routing.NatRoundTrip

/-!
# The checksums of rewritten frames

A frame is valid when its IPv4 header and its TCP segment under the pseudo header each
sum to all ones. The packet programs change addresses but compensate in the total length
and not in a checksum field. The header checksum covers the total length, so it survives
every rewrite. The TCP checksum covers the segment that the total length delimits, and it
survives only when the shifted length still delimits a segment with the same residue.
-/

namespace GaleLB.Routing

open ByteBuffer OnesComplement

/-- The length of the IPv4 header in bytes. -/
def headerLength (skb : Frame) : ℕ := 4 * (byte skb 14 % 16)

/-- The total length field of the IPv4 header. -/
def totalLength (skb : Frame) : ℕ := word skb 16

/-- The words of the IPv4 header. -/
def headerWords (skb : Frame) : List ℕ :=
  (List.range (headerLength skb / 2)).map fun k => word skb (14 + 2 * k)

/-- One word of a segment; an odd last byte is padded with zero. -/
def segmentWord (skb : Frame) (length k : ℕ) : ℕ :=
  256 * byte skb (14 + headerLength skb + 2 * k) +
    if 2 * k + 1 < length then byte skb (14 + headerLength skb + 2 * k + 1) else 0

/-- The words of a segment of the given length that starts behind the IPv4 header. -/
def segmentWords (skb : Frame) (length : ℕ) : List ℕ :=
  (List.range ((length + 1) / 2)).map (segmentWord skb length)

/-- The words of the pseudo header: addresses, protocol and segment length. -/
def pseudoHeaderWords (skb : Frame) (length : ℕ) : List ℕ :=
  [word skb 26, word skb 28, word skb 30, word skb 32, byte skb 23, length]

/-- The words that the TCP checksum covers, when the segment has the given length. -/
def tcpWords (skb : Frame) (length : ℕ) : List ℕ :=
  pseudoHeaderWords skb length ++ segmentWords skb length

/-- The IPv4 header is complete and sums to all ones. -/
def IpChecksumValid (skb : Frame) : Prop :=
  20 ≤ headerLength skb ∧ 14 + headerLength skb ≤ skb.length ∧ sum16 (headerWords skb) = 65535

instance (skb : Frame) : Decidable (IpChecksumValid skb) := inferInstanceAs (Decidable (_ ∧ _ ∧ _))

/-- The TCP segment is complete and sums to all ones with its pseudo header. -/
def TcpChecksumValid (skb : Frame) : Prop :=
  headerLength skb + 20 ≤ totalLength skb ∧ 14 + totalLength skb ≤ skb.length ∧
    sum16 (tcpWords skb (totalLength skb - headerLength skb)) = 65535

instance (skb : Frame) : Decidable (TcpChecksumValid skb) := inferInstanceAs (Decidable (_ ∧ _ ∧ _))

/-- Both checksums of a frame are valid. -/
def ChecksumsValid (skb : Frame) : Prop :=
  IpChecksumValid skb ∧ TcpChecksumValid skb

instance (skb : Frame) : Decidable (ChecksumsValid skb) := inferInstanceAs (Decidable (_ ∧ _))

/-- The total length that replaces the original one delimits a segment with the same residue. -/
def LengthShiftHarmless (skb : Frame) (old new : ℕ) : Prop :=
  ∃ length < 65535, length + new ≡ totalLength skb + old [MOD 65535] ∧
    headerLength skb + 20 ≤ length ∧ 14 + length ≤ skb.length ∧
    (segmentWords skb (length - headerLength skb)).sum ≡
      (segmentWords skb (totalLength skb - headerLength skb)).sum [MOD 65535]

/-- Header words are 16-bit words. -/
theorem headerWords_lt (skb : Frame) : ∀ w ∈ headerWords skb, w < 65536 := by
  intro w hw
  obtain ⟨k, -, rfl⟩ := List.mem_map.mp hw
  exact word_lt skb _

/-- Segment words are 16-bit words. -/
theorem segmentWords_lt (skb : Frame) (length : ℕ) : ∀ w ∈ segmentWords skb length, w < 65536 := by
  intro w hw
  obtain ⟨k, -, rfl⟩ := List.mem_map.mp hw
  have hhigh := byte_lt skb (14 + headerLength skb + 2 * k)
  have hlow := byte_lt skb (14 + headerLength skb + 2 * k + 1)
  unfold segmentWord
  split <;> omega

/-- A complete header sums as its ten fixed words and its options. -/
theorem headerWords_sum (skb : Frame) (h : 20 ≤ headerLength skb) :
    (headerWords skb).sum = word skb 14 + word skb 16 + word skb 18 + word skb 20 + word skb 22 +
      word skb 24 + word skb 26 + word skb 28 + word skb 30 + word skb 32 +
      ((List.range (headerLength skb / 2 - 10)).map fun k => word skb (34 + 2 * k)).sum := by
  have hsplit : headerLength skb / 2 = 10 + (headerLength skb / 2 - 10) := by omega
  unfold headerWords
  rw [hsplit, List.range_add, List.map_append, List.sum_append, List.map_map, Nat.add_sub_cancel_left]
  have hfixed : ((List.range 10).map fun k => word skb (14 + 2 * k)).sum = word skb 14 + word skb 16 +
      word skb 18 + word skb 20 + word skb 22 + word skb 24 + word skb 26 + word skb 28 + word skb 30 +
      word skb 32 := by
    change word skb 14 + (word skb 16 + (word skb 18 + (word skb 20 + (word skb 22 + (word skb 24 +
      (word skb 26 + (word skb 28 + (word skb 30 + (word skb 32 + 0))))))))) = _
    omega
  have hoptions : ((fun k => word skb (14 + 2 * k)) ∘ fun k => 10 + k) =
      fun k => word skb (34 + 2 * k) := by
    funext k
    change word skb (14 + 2 * (10 + k)) = word skb (34 + 2 * k)
    rw [show 14 + 2 * (10 + k) = 34 + 2 * k by omega]
  rw [hfixed, hoptions]

section Rewritten

variable {skb skb' : Frame} {old new : ℕ}

/-- A rewrite keeps every word outside the patched words and the addresses. -/
theorem Rewrites.word_eq (h : Rewrites skb skb' old new) {j : ℕ}
    (hj : 12 ≤ j ∧ j < 15 ∨ 18 ≤ j ∧ j < 25 ∨ 34 ≤ j) : word skb' j = word skb j := by
  unfold word
  rw [h.byte_eq j (by omega), h.byte_eq (j + 1) (by omega)]

/-- A rewrite keeps the header length. -/
theorem Rewrites.headerLength_eq (h : Rewrites skb skb' old new) :
    headerLength skb' = headerLength skb := by
  unfold headerLength
  rw [h.byte_eq 14 (by omega)]

/-- A rewrite keeps the bytes behind the header. -/
theorem Rewrites.segmentWords_eq (h : Rewrites skb skb' old new) (hheader : 20 ≤ headerLength skb)
    (length : ℕ) : segmentWords skb' length = segmentWords skb length := by
  apply List.map_congr_left
  intro k _
  unfold segmentWord
  rw [h.headerLength_eq, h.byte_eq _ (by omega), h.byte_eq (_ + 1) (by omega)]

/-- The words of the addresses change by the difference of the address sums. -/
theorem Rewrites.address_words (h : Rewrites skb skb' old new) :
    word skb' 26 + word skb' 28 + word skb' 30 + word skb' 32 + old ≡
      word skb 26 + word skb 28 + word skb 30 + word skb 32 + new [MOD 65535] := by
  have hsum := h.addresses
  simp only [dword, Nat.reduceAdd] at hsum
  unfold Nat.ModEq
  omega

/-- The header sum keeps its residue: the total length compensates the addresses. -/
theorem Rewrites.headerWords_modEq (h : Rewrites skb skb' old new) (hheader : 20 ≤ headerLength skb) :
    (headerWords skb').sum ≡ (headerWords skb).sum [MOD 65535] := by
  have haddress := h.address_words
  have hlength := h.length_shift
  have hoptions : ((List.range (headerLength skb / 2 - 10)).map fun k => word skb' (34 + 2 * k)) =
      (List.range (headerLength skb / 2 - 10)).map fun k => word skb (34 + 2 * k) :=
    List.map_congr_left fun k _ => h.word_eq (by omega)
  rw [headerWords_sum skb hheader, headerWords_sum skb' (by rw [h.headerLength_eq]; exact hheader),
    h.headerLength_eq, hoptions, h.word_eq (j := 14) (by omega), h.word_eq (j := 18) (by omega),
    h.word_eq (j := 20) (by omega), h.word_eq (j := 22) (by omega), h.word_eq (j := 24) (by omega)]
  unfold Nat.ModEq at haddress hlength ⊢
  omega

/-- A complete header does not sum to zero. -/
theorem headerWords_sum_ne_zero (skb : Frame) (h : 20 ≤ headerLength skb) :
    (headerWords skb).sum ≠ 0 := by
  rw [headerWords_sum skb h]
  unfold headerLength at h
  have hword : word skb 14 ≠ 0 := by
    unfold word
    omega
  omega

/-- A rewrite keeps the header checksum valid. -/
theorem Rewrites.ipChecksumValid (h : Rewrites skb skb' old new) (hvalid : IpChecksumValid skb) :
    IpChecksumValid skb' := by
  obtain ⟨hheader, hfit, hsum⟩ := hvalid
  have hheader' : 20 ≤ headerLength skb' := by rw [h.headerLength_eq]; exact hheader
  refine ⟨hheader', by rw [h.headerLength_eq, h.length_eq]; exact hfit, ?_⟩
  rw [sum16_eq_allOnes_iff _ (headerWords_lt skb) (headerWords_sum_ne_zero skb hheader)] at hsum
  rw [sum16_eq_allOnes_iff _ (headerWords_lt skb') (headerWords_sum_ne_zero skb' hheader')]
  exact (h.headerWords_modEq hheader).trans hsum

/-- The sum that the TCP checksum covers, field by field. -/
theorem tcpWords_sum (skb : Frame) (length : ℕ) :
    (tcpWords skb length).sum = word skb 26 + word skb 28 + word skb 30 + word skb 32 + byte skb 23 +
      length + (segmentWords skb length).sum := by
  simp only [tcpWords, pseudoHeaderWords, List.sum_append, List.sum_cons, List.sum_nil]
  omega

/-- With a nonzero protocol, the TCP words sum to all ones exactly when their residue is zero. -/
theorem sum16_tcpWords_iff (skb : Frame) {length : ℕ} (hlength : length < 65536)
    (hprotocol : byte skb 23 ≠ 0) :
    sum16 (tcpWords skb length) = 65535 ↔ (tcpWords skb length).sum ≡ 0 [MOD 65535] := by
  apply sum16_eq_allOnes_iff
  · intro w hw
    rcases List.mem_append.mp hw with hpseudo | hsegment
    · have hbyte := byte_lt skb 23
      simp only [pseudoHeaderWords, List.mem_cons, List.not_mem_nil, or_false] at hpseudo
      rcases hpseudo with rfl | rfl | rfl | rfl | rfl | rfl
      · exact word_lt skb 26
      · exact word_lt skb 28
      · exact word_lt skb 30
      · exact word_lt skb 32
      · omega
      · exact hlength
    · exact segmentWords_lt skb length w hsegment
  · rw [tcpWords_sum]
    omega

/-- A rewrite keeps the TCP checksum valid exactly when the shift of the total length is harmless. -/
theorem Rewrites.tcpChecksumValid_iff (h : Rewrites skb skb' old new) (hheader : 20 ≤ headerLength skb)
    (hvalid : TcpChecksumValid skb) (hprotocol : byte skb 23 ≠ 0) :
    TcpChecksumValid skb' ↔ LengthShiftHarmless skb old new := by
  obtain ⟨hroom, hfit, hsum⟩ := hvalid
  have hlt : totalLength skb < 65536 := word_lt skb 16
  have hlt' : totalLength skb' < 65535 := h.length_lt
  have hshift : totalLength skb' + new ≡ totalLength skb + old [MOD 65535] := h.length_shift
  have haddress := h.address_words
  have hbyte : byte skb' 23 = byte skb 23 := h.byte_eq 23 (by omega)
  have hsum : (tcpWords skb (totalLength skb - headerLength skb)).sum ≡ 0 [MOD 65535] :=
    (sum16_tcpWords_iff skb (by omega) hprotocol).mp hsum
  have hlt'' : totalLength skb' - headerLength skb < 65536 := by omega
  have hsum' := sum16_tcpWords_iff skb' hlt'' (by rw [hbyte]; exact hprotocol)
  rw [tcpWords_sum] at hsum
  rw [tcpWords_sum, hbyte, h.segmentWords_eq hheader] at hsum'
  unfold Nat.ModEq at hshift haddress hsum hsum'
  unfold TcpChecksumValid LengthShiftHarmless Nat.ModEq
  rw [h.headerLength_eq, h.length_eq]
  constructor
  · intro hvalid'
    obtain ⟨hroom', hfit', hall⟩ := hvalid'
    have hzero := hsum'.mp hall
    exact ⟨totalLength skb', hlt', hshift, hroom', hfit', by omega⟩
  · intro hharmless
    obtain ⟨length, hless, hresidue, hroom', hfit', hsegment⟩ := hharmless
    have hsame : length = totalLength skb' := by omega
    subst hsame
    exact ⟨hroom', hfit', hsum'.mpr (by omega)⟩

/-- A rewrite of a valid parsed frame yields a valid frame exactly when the shift is harmless. -/
theorem Rewrites.checksumsValid_iff (h : Rewrites skb skb' old new) (hparsed : Parsed skb)
    (hvalid : ChecksumsValid skb) : ChecksumsValid skb' ↔ LengthShiftHarmless skb old new := by
  have hprotocol : byte skb 23 ≠ 0 := by
    have hbyte := congrArg UInt8.toNat hparsed.2.2
    rw [field8_toNat] at hbyte
    rw [hbyte]
    decide
  rw [← h.tcpChecksumValid_iff hvalid.1.1 hvalid.2 hprotocol]
  exact and_iff_right (h.ipChecksumValid hvalid.1)

end Rewritten

/-- Rewriting a valid frame keeps its checksums valid exactly when the shift of the total length is
harmless, for the two addresses that the ingress program replaces and for the one that the egress
program replaces. -/
theorem rewritten_checksums_iff (skb : Frame) (conntrack : ConntrackMap) (hparsed : Parsed skb)
    (hvalid : ChecksumsValid skb) :
    (destPort skb = targetPort → ∃ outcome, dnatProg skb conntrack = some outcome ∧
      (ChecksumsValid outcome.skb ↔ LengthShiftHarmless skb ((daddr skb).toNat + (saddr skb).toNat)
        (backendIp.toNat + lbIp.toNat))) ∧
    (∀ origIp, conntrack (reverseTuple skb) = some origIp →
      ∃ outcome, snatProg skb conntrack = some outcome ∧
        (ChecksumsValid outcome.skb ↔
          LengthShiftHarmless skb (saddr skb).toNat origIp.toNat)) := by
  have hlen : 34 ≤ skb.length := by have := hparsed.1; omega
  constructor
  · intro hport
    refine ⟨_, by rw [dnatProg_eq, if_pos ⟨hparsed, hport⟩], ?_⟩
    dsimp only
    rw [daddr, saddr, field32_toNat, field32_toNat]
    exact (dnatFrame_rewrites skb hlen).checksumsValid_iff hparsed hvalid
  · intro origIp htracked
    refine ⟨_, by rw [snatProg_eq, if_pos hparsed, htracked], ?_⟩
    rw [saddr, field32_toNat]
    exact (snatFrame_rewrites skb origIp hlen).checksumsValid_iff hparsed hvalid

/-- A request of the backend's own host to port 8080 of the load balancer. -/
def backendFrame : Frame :=
  [2, 0, 0, 0, 0, 1, 2, 0, 0, 0, 0, 2, 8, 0,
   69, 0, 0, 40, 0, 1, 64, 0, 64, 6, 184, 28, 192, 168, 0, 112, 192, 168, 0, 242,
   156, 64, 31, 144, 0, 0, 0, 1, 0, 0, 0, 0, 80, 2, 250, 240, 118, 109, 0, 0]

/-- A frame that stays valid: the replaced addresses have the same sum. -/
theorem backendFrame_checksums :
    (∃ outcome, dnatProg backendFrame (fun _ => some backendIp) = some outcome ∧
      ChecksumsValid outcome.skb) ∧
    ∃ outcome, snatProg backendFrame (fun _ => some backendIp) = some outcome ∧
      ChecksumsValid outcome.skb := by
  have h := rewritten_checksums_iff backendFrame (fun _ => some backendIp) (by decide) (by decide)
  obtain ⟨rewritten, hdnat, hiff⟩ := h.1 (by decide)
  obtain ⟨translated, hsnat, hiff'⟩ := h.2 backendIp rfl
  have hlength : totalLength backendFrame = 40 := by decide
  refine ⟨⟨rewritten, hdnat, hiff.mpr ?_⟩, translated, hsnat, hiff'.mpr ?_⟩
  · exact ⟨40, by decide, by decide, by decide, by decide, by rw [hlength]⟩
  · exact ⟨40, by decide, by decide, by decide, by decide, by rw [hlength]⟩

/-- Both programs break a checksum of an ordinary frame of a client's connection. -/
theorem clientFrame_checksums :
    (Parsed clientFrame ∧ ChecksumsValid clientFrame ∧
      ∃ outcome, dnatProg clientFrame (fun _ => none) = some outcome ∧
        ¬ ChecksumsValid outcome.skb) ∧
    Parsed backendReply ∧ ChecksumsValid backendReply ∧
      ∃ outcome, snatProg backendReply (fun _ => some (saddr clientFrame)) = some outcome ∧
        ¬ ChecksumsValid outcome.skb := by
  refine ⟨⟨by decide, by decide, _, dnatProg_eq _ _, ?_⟩, by decide, by decide, _, snatProg_eq _ _, ?_⟩
  · rw [if_pos (by decide)]
    decide
  · rw [if_pos (by decide)]
    decide

end GaleLB.Routing
