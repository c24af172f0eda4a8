import GaleLB.Routing.Checksums

/-!
# The frame format and what the programs make of it

The IPv4 header has a variable length and may belong to a fragment. `parse_headers`
assumes a header of 20 bytes that starts an unfragmented packet, and looks at neither the
length nor the fragment offset. It is right exactly on the frames for which that holds,
and on those it rejects. Its bound checks do cover every access of both programs.

The checksum helpers take offsets from the start of the frame, but are given offsets from
the start of a header. A rewrite therefore touches two words that it must not touch, and
leaves them as they were only when the addresses change by a multiple of `65535`.
-/

namespace GaleLB.Routing

open ByteBuffer OnesComplement

/-- The fragment offset of the IPv4 header. -/
def fragmentOffset (skb : Frame) : ℕ := word skb 20 % 8192

/-- The offset of the TCP header. -/
def tcpOffset (skb : Frame) : ℕ := 14 + headerLength skb

/-- The frame holds an Ethernet header of type IPv4, a complete IPv4 header of an unfragmented TCP
packet or of its first fragment, and a TCP header without its options. -/
structure HoldsTcpHeader (skb : Frame) : Prop where
  ethernet : ethhdrSize ≤ skb.length
  etherType : field16 skb 12 = ethPIp
  ip : ethhdrSize + headerLength skb ≤ skb.length
  headerLength_ge : 20 ≤ headerLength skb
  protocol : field8 skb 23 = ipprotoTcp
  unfragmented : fragmentOffset skb = 0
  tcp : tcpOffset skb + tcphdrSize ≤ skb.length

/-- `parse_headers` stays in the frame, accepts exactly the frames that hold a TCP header, and points
to that header. -/
def FindsTcpHeader (skb : Frame) : Prop :=
  ∃ result, parseHeaders skb = some result ∧ (result ≠ none ↔ HoldsTcpHeader skb) ∧
    ∀ headers, result = some headers → headers.tcp = tcpOffset skb

/-- Every frame with a TCP header is parsed. -/
theorem HoldsTcpHeader.parsed {skb : Frame} (h : HoldsTcpHeader skb) : Parsed skb := by
  have hlength := h.headerLength_ge
  have htcp := h.tcp
  unfold tcpOffset tcphdrSize at htcp
  exact ⟨by omega, h.etherType, h.protocol⟩

/-- A parsed frame holds a TCP header where `parse_headers` points to exactly when its IPv4 header has
no options and it is not a later fragment. -/
theorem holdsTcpHeader_at_iff {skb : Frame} (h : Parsed skb) :
    HoldsTcpHeader skb ∧ tcpOffset skb = 34 ↔ byte skb 14 % 16 = 5 ∧ fragmentOffset skb = 0 := by
  obtain ⟨hlen, htype, hprotocol⟩ := h
  constructor
  · rintro ⟨hholds, hoffset⟩
    refine ⟨?_, hholds.unfragmented⟩
    unfold tcpOffset headerLength at hoffset
    omega
  · rintro ⟨hihl, hfragment⟩
    have hheader : headerLength skb = 20 := by
      unfold headerLength
      rw [hihl]
    have hoffset : tcpOffset skb = 34 := by
      unfold tcpOffset
      rw [hheader]
    refine ⟨⟨?_, htype, ?_, ?_, hprotocol, hfragment, ?_⟩, hoffset⟩
    · unfold ethhdrSize
      omega
    · rw [hheader]
      unfold ethhdrSize
      omega
    · rw [hheader]
    · rw [hoffset]
      unfold tcphdrSize
      omega

/-- On every frame `parse_headers` finds the TCP header exactly when a frame that is long enough and
says that it carries TCP over IPv4 has no IPv4 options and is not a later fragment. -/
theorem findsTcpHeader_iff (skb : Frame) :
    FindsTcpHeader skb ↔ (54 ≤ skb.length ∧ field16 skb 12 = ethPIp ∧ field8 skb 23 = ipprotoTcp →
      byte skb 14 % 16 = 5 ∧ fragmentOffset skb = 0) := by
  change _ ↔ (Parsed skb → _)
  unfold FindsTcpHeader
  rw [parseHeaders_eq]
  by_cases hparsed : Parsed skb
  · rw [if_pos hparsed, forall_prop_of_true hparsed, ← holdsTcpHeader_at_iff hparsed]
    constructor
    · rintro ⟨result, hresult, haccepts, hpoints⟩
      cases hresult
      exact ⟨haccepts.mp nofun, (hpoints _ rfl).symm⟩
    · rintro ⟨hholds, hoffset⟩
      refine ⟨_, rfl, iff_of_true nofun hholds, ?_⟩
      intro headers hheaders
      cases hheaders
      exact hoffset.symm
  · rw [if_neg hparsed]
    refine iff_of_true ⟨none, rfl, ?_, nofun⟩ fun h => absurd h hparsed
    exact iff_of_false (fun h => h rfl) fun h => hparsed h.parsed

/-- The connection request of 10.0.0.7 with a router-alert option in its IPv4 header. -/
def optionsFrame : Frame :=
  [2, 0, 0, 0, 0, 1, 2, 0, 0, 0, 0, 2, 8, 0,
   70, 0, 0, 44, 0, 1, 64, 0, 64, 6, 218, 37, 10, 0, 0, 7, 192, 168, 0, 242, 148, 4, 0, 0,
   156, 64, 31, 144, 0, 0, 0, 1, 0, 0, 0, 0, 80, 2, 250, 240, 45, 127, 0, 0]

/-- With an option, `parse_headers` points into the option and misses the destination port 8080. -/
theorem optionsFrame_misparsed :
    HoldsTcpHeader optionsFrame ∧ field16 optionsFrame (tcpOffset optionsFrame + tcphdrDest) = targetPort ∧
      parseHeaders optionsFrame = some (some ⟨0, 14, 34⟩) ∧ tcpOffset optionsFrame = 38 ∧
      ¬ FindsTcpHeader optionsFrame := by
  have hparse : parseHeaders optionsFrame = some (some ⟨0, 14, 34⟩) := by decide
  refine ⟨⟨by decide, by decide, by decide, by decide, by decide, by decide, by decide⟩, by decide, hparse,
    by decide, ?_⟩
  rintro ⟨result, hresult, -, hpoints⟩
  rw [hparse] at hresult
  cases hresult
  exact absurd (hpoints _ rfl) (by decide)

/-- For every frame and every map, parsing and both programs make all their accesses inside the frame, and
they leave the frame and the map alone unless the frame is parsed, by the ingress program also unless its
destination port is the target port. -/
theorem programs_stay_in_frame (skb : Frame) (conntrack : ConntrackMap) :
    parseHeaders skb ≠ none ∧
    (∃ outcome, dnatProg skb conntrack = some outcome ∧
      (skb.length < 54 ∨ field16 skb 12 ≠ ethPIp ∨ field8 skb 23 ≠ ipprotoTcp ∨ destPort skb ≠ targetPort →
        outcome.skb = skb ∧ outcome.conntrack = conntrack)) ∧
    ∃ outcome, snatProg skb conntrack = some outcome ∧
      (skb.length < 54 ∨ field16 skb 12 ≠ ethPIp ∨ field8 skb 23 ≠ ipprotoTcp →
        outcome.skb = skb ∧ outcome.conntrack = conntrack) := by
  rw [parseHeaders_eq, dnatProg_eq, snatProg_eq]
  refine ⟨Option.some_ne_none _, ⟨_, rfl, ?_⟩, ⟨_, rfl, ?_⟩⟩
  · intro hother
    rw [if_neg]
    · exact ⟨rfl, rfl⟩
    · rintro ⟨⟨hlen, htype, hprotocol⟩, hport⟩
      rcases hother with h | h | h | h
      · omega
      · exact h htype
      · exact h hprotocol
      · exact h hport
  · intro hother
    rw [if_neg]
    · exact ⟨rfl, rfl⟩
    · rintro ⟨hlen, htype, hprotocol⟩
      rcases hother with h | h | h
      · omega
      · exact h htype
      · exact h hprotocol

/-- A request that is cut one byte short passes the ingress program unchanged. -/
theorem truncated_clientFrame_unchanged :
    (clientFrame.take 53).length < 54 ∧ ∃ outcome, dnatProg (clientFrame.take 53) (fun _ => none) = some outcome ∧
      outcome.skb = clientFrame.take 53 := by
  have hshort : (clientFrame.take 53).length < 54 := by decide
  obtain ⟨-, ⟨outcome, hprog, hunchanged⟩, -⟩ := programs_stay_in_frame (clientFrame.take 53) (fun _ => none)
  exact ⟨hshort, outcome, hprog, (hunchanged (Or.inl hshort)).1⟩

/-- The frame keeps its length and every byte outside the given offsets. -/
def UnchangedOutside (offsets : List ℕ) (skb skb' : Frame) : Prop :=
  skb'.length = skb.length ∧ ∀ j, j ∉ offsets → byte skb' j = byte skb j

/-- The offsets of the IPv4 header checksum and of the TCP checksum. -/
def checksumOffsets (skb : Frame) : List ℕ :=
  [24, 25, tcpOffset skb + tcphdrCheck, tcpOffset skb + tcphdrCheck + 1]

/-- The offsets that the ingress program may write: both addresses and both checksums. -/
def dnatOffsets (skb : Frame) : List ℕ := List.range' 26 8 ++ checksumOffsets skb

/-- The offsets that the egress program may write: the source address and both checksums. -/
def snatOffsets (skb : Frame) : List ℕ := List.range' 26 4 ++ checksumOffsets skb

/-- The two words that the helpers rewrite survive when address fields of sum `old` become `new`. -/
def WordsSurvive (skb : Frame) (old new : ℕ) : Prop :=
  word skb 10 ≠ 65535 ∧ word skb 16 ≠ 65535 ∧ old ≡ new [MOD 65535]

/-- No checksum lies in the patched words. -/
theorem notMem_checksumOffsets (skb : Frame) {j : ℕ} (hj : j < 18) : j ∉ checksumOffsets skb := by
  unfold checksumOffsets tcpOffset tcphdrCheck
  simp only [List.mem_cons, List.not_mem_nil, or_false]
  omega

/-- Words are equal exactly when their two bytes are. -/
theorem word_eq_iff (skb skb' : Frame) (i : ℕ) :
    word skb' i = word skb i ↔ byte skb' i = byte skb i ∧ byte skb' (i + 1) = byte skb (i + 1) := by
  have h1 := byte_lt skb (i + 1)
  have h2 := byte_lt skb' (i + 1)
  unfold word
  omega

/-- If only the patched words can differ outside some offsets, the bytes outside of these are unchanged
exactly when both words are. -/
theorem unchangedOutside_iff {skb skb' : Frame} {offsets : List ℕ} (hlength : skb'.length = skb.length)
    (hoffsets : ∀ j < 18, j ∉ offsets)
    (hbytes : ∀ j, j ∉ offsets → j < 10 ∨ 12 ≤ j ∧ j < 16 ∨ 18 ≤ j → byte skb' j = byte skb j) :
    UnchangedOutside offsets skb skb' ↔ word skb' 10 = word skb 10 ∧ word skb' 16 = word skb 16 := by
  rw [word_eq_iff, word_eq_iff]
  constructor
  · rintro ⟨-, h⟩
    exact ⟨⟨h 10 (hoffsets 10 (by omega)), h 11 (hoffsets 11 (by omega))⟩,
      h 16 (hoffsets 16 (by omega)), h 17 (hoffsets 17 (by omega))⟩
  · rintro ⟨⟨h10, h11⟩, h16, h17⟩
    refine ⟨hlength, fun j hj => ?_⟩
    by_cases hpatched : j < 10 ∨ 12 ≤ j ∧ j < 16 ∨ 18 ≤ j
    · exact hbytes j hj hpatched
    · obtain rfl | rfl | rfl | rfl : j = 10 ∨ j = 11 ∨ j = 16 ∨ j = 17 := by omega
      · exact h10
      · exact h11
      · exact h16
      · exact h17

/-- A frame in which only `n` bytes of addresses were written, and the patched words shifted by the
difference of their sums, is changed only there and in its checksums exactly when the words survive. -/
theorem unchangedOutside_addresses_iff {skb skb' : Frame} {n old new : ℕ} (hlength : skb'.length = skb.length)
    (hbytes : ∀ j, j < 10 ∨ 12 ≤ j ∧ j < 16 ∨ 18 ≤ j ∧ j < 26 ∨ 26 + n ≤ j → byte skb' j = byte skb j)
    (hshift : ∀ i, i = 10 ∨ i = 16 →
      word skb' i < 65535 ∧ word skb' i + new ≡ word skb i + old [MOD 65535]) :
    UnchangedOutside (List.range' 26 n ++ checksumOffsets skb) skb skb' ↔ WordsSurvive skb old new := by
  obtain ⟨hlt10, hshift10⟩ := hshift 10 (Or.inl rfl)
  obtain ⟨hlt16, hshift16⟩ := hshift 16 (Or.inr rfl)
  rw [unchangedOutside_iff hlength, shifted_eq_iff (word_lt skb 10) hlt10 hshift10,
    shifted_eq_iff (word_lt skb 16) hlt16 hshift16]
  · rw [← and_and_right, and_assoc]
    rfl
  · intro j hj hmem
    rw [List.mem_append, List.mem_range'_1] at hmem
    exact hmem.elim (by omega) (notMem_checksumOffsets skb hj)
  · intro j hmem hj
    rw [List.mem_append, List.mem_range'_1] at hmem
    exact hbytes j (by omega)

/-- The ingress program touches only what it must exactly when the two patched words survive. -/
theorem unchangedOutside_dnatFrame (skb : Frame) (hlen : 34 ≤ skb.length) :
    UnchangedOutside (dnatOffsets skb) skb (dnatFrame skb) ↔
      WordsSurvive skb (dword skb 30 + dword skb 26) (backendIp.toNat + lbIp.toNat) :=
  unchangedOutside_addresses_iff (dnatFrame_rewrites skb hlen).length_eq (fun _ => byte_dnatFrame skb hlen)
    fun _ => dnatFrame_shift skb hlen

/-- The egress program touches only what it must exactly when the two patched words survive. -/
theorem unchangedOutside_snatFrame (skb : Frame) (origIp : UInt32) (hlen : 34 ≤ skb.length) :
    UnchangedOutside (snatOffsets skb) skb (snatFrame skb origIp) ↔
      WordsSurvive skb (dword skb 26) origIp.toNat :=
  unchangedOutside_addresses_iff (snatFrame_rewrites skb origIp hlen).length_eq
    (fun _ => byte_snatFrame skb origIp hlen) fun _ => snatFrame_shift skb origIp hlen

/-- A frame that passes is unchanged everywhere. -/
theorem unchangedOutside_refl (offsets : List ℕ) (skb : Frame) : UnchangedOutside offsets skb skb :=
  ⟨rfl, fun _ _ => rfl⟩

/-- For every frame and every map, each program returns and touches only what it must, exactly when
the two patched words survive the rewrite, if there is one. -/
theorem rewriting_unchangedOutside_iff (skb : Frame) (conntrack : ConntrackMap) :
    ((∃ outcome, dnatProg skb conntrack = some outcome ∧
        UnchangedOutside (dnatOffsets skb) skb outcome.skb) ↔
      (Parsed skb ∧ destPort skb = targetPort →
        WordsSurvive skb (dword skb 30 + dword skb 26) (backendIp.toNat + lbIp.toNat))) ∧
    ((∃ outcome, snatProg skb conntrack = some outcome ∧
        UnchangedOutside (snatOffsets skb) skb outcome.skb) ↔
      (Parsed skb → ∀ origIp, conntrack (reverseTuple skb) = some origIp →
        WordsSurvive skb (dword skb 26) origIp.toNat)) := by
  rw [dnatProg_eq, snatProg_eq]
  simp only [Option.some.injEq, exists_eq_left']
  constructor
  · by_cases hrewrite : Parsed skb ∧ destPort skb = targetPort
    · have hlen := hrewrite.1.1
      rw [if_pos hrewrite, forall_prop_of_true hrewrite]
      dsimp only
      exact unchangedOutside_dnatFrame skb (by omega)
    · rw [if_neg hrewrite]
      exact iff_of_true (unchangedOutside_refl _ skb) fun h => absurd h hrewrite
  · by_cases hparsed : Parsed skb
    · have hlen := hparsed.1
      rw [if_pos hparsed, forall_prop_of_true hparsed]
      cases htracked : conntrack (reverseTuple skb) with
      | none => exact iff_of_true (unchangedOutside_refl _ skb) nofun
      | some origIp =>
        simp only [Option.some.injEq, forall_eq']
        exact unchangedOutside_snatFrame skb origIp (by omega)
    · rw [if_neg hparsed]
      exact iff_of_true (unchangedOutside_refl _ skb) fun h => absurd h hparsed

/-- The request of an ordinary client leaves with another source hardware address and another total
length. -/
theorem clientFrame_corrupted :
    ∃ outcome, dnatProg clientFrame (fun _ => none) = some outcome ∧
      word clientFrame 16 = 40 ∧ word outcome.skb 16 = 18710 ∧
      ¬ UnchangedOutside (dnatOffsets clientFrame) clientFrame outcome.skb := by
  have hlength : word (dnatFrame clientFrame) 16 = 18710 := by decide
  refine ⟨_, (dnatProg_eq _ _).trans (congrArg some (if_pos (by decide))), rfl, hlength, ?_⟩
  rintro ⟨-, h⟩
  have hsame := (word_eq_iff _ _ 16).mpr ⟨h 16 (by decide), h 17 (by decide)⟩
  rw [hlength] at hsame
  exact absurd hsame (by decide)

end GaleLB.Routing
