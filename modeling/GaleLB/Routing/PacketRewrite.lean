import GaleLB.Routing.PacketPrograms

/-!
# What the packet programs compute

Each program is total: it never leaves the frame, and its outcome is given in closed
form. A rewrite stores the new addresses and then patches two 16-bit words, at byte
offsets 10 and 16 of the frame. These lie in the source hardware address and in the total
length of the IPv4 header, not in the checksum fields at offsets 24 and 50.
-/

namespace GaleLB.Routing

open ByteBuffer OnesComplement

/-- The source address of the IPv4 header. -/
def saddr (skb : Frame) : UInt32 := field32 skb 26

/-- The destination address of the IPv4 header. -/
def daddr (skb : Frame) : UInt32 := field32 skb 30

/-- The source port, where the programs read it. -/
def sourcePort (skb : Frame) : UInt16 := field16 skb 34

/-- The destination port, where the programs read it. -/
def destPort (skb : Frame) : UInt16 := field16 skb 36

/-- A frame that `parse_headers` accepts. -/
def Parsed (skb : Frame) : Prop :=
  54 ≤ skb.length ∧ field16 skb 12 = ethPIp ∧ field8 skb 23 = ipprotoTcp

instance (skb : Frame) : Decidable (Parsed skb) := inferInstanceAs (Decidable (_ ∧ _ ∧ _))

/-- Header parsing stays in the frame and accepts exactly the parsed frames. -/
theorem parseHeaders_eq (skb : Frame) :
    parseHeaders skb = some (if Parsed skb then some ⟨0, 14, 34⟩ else none) := by
  change (if 14 > skb.length then some none else (load16 skb 12).bind fun hProto =>
    if hProto ≠ ethPIp then some none else if 34 > skb.length then some none else
      (load8 skb 23).bind fun protocol => if protocol ≠ ipprotoTcp then some none else
        if 54 > skb.length then some none else some (some (Headers.mk 0 14 34))) = _
  by_cases h14 : 14 > skb.length
  · rw [if_pos h14, if_neg fun h : Parsed skb => by have := h.1; omega]
  rw [if_neg h14, load16_eq (by omega), Option.bind_some]
  by_cases hproto : field16 skb 12 = ethPIp
  · rw [if_neg (not_not.mpr hproto)]
    by_cases h34 : 34 > skb.length
    · rw [if_pos h34, if_neg fun h : Parsed skb => by have := h.1; omega]
    rw [if_neg h34, load8_eq (by omega), Option.bind_some]
    by_cases htcp : field8 skb 23 = ipprotoTcp
    · rw [if_neg (not_not.mpr htcp)]
      by_cases h54 : 54 > skb.length
      · rw [if_pos h54, if_neg fun h : Parsed skb => by have := h.1; omega]
      · rw [if_neg h54, if_pos (show Parsed skb from ⟨by omega, hproto, htcp⟩)]
    · rw [if_pos htcp, if_neg fun h : Parsed skb => htcp h.2.2]
  · rw [if_pos hproto, if_neg fun h : Parsed skb => hproto h.2.1]

/-- The two words that the checksum helpers rewrite. -/
def patchWords (skb : Frame) (old new : ℕ) : Frame :=
  setWord (setWord skb 10 (csumReplace4 (word skb 10) old new)) 16
    (csumReplace4 (word skb 16) old new)

@[simp] theorem patchWords_length (skb : Frame) (old new : ℕ) :
    (patchWords skb old new).length = skb.length := by
  simp [patchWords]

/-- Updated checksum words are 16-bit words. -/
theorem csumReplace4_word_lt (skb : Frame) (i : ℕ) {old new : ℕ} (hold : old < 4294967296)
    (hnew : new < 4294967296) : csumReplace4 (word skb i) old new < 65536 := by
  have h := (csumReplace4_spec (word_lt skb i) hold hnew).1
  omega

/-- Patching leaves every byte outside the two words alone. -/
theorem byte_patchWords (skb : Frame) {old new j : ℕ} (hlen : 18 ≤ skb.length)
    (hold : old < 4294967296) (hnew : new < 4294967296) (hj : j < 10 ∨ 12 ≤ j ∧ j < 16 ∨ 18 ≤ j) :
    byte (patchWords skb old new) j = byte skb j := by
  unfold patchWords
  rw [byte_setWord _ _ _ _ (by simp; omega) (csumReplace4_word_lt skb 16 hold hnew),
    byte_setWord _ _ _ _ (by omega) (csumReplace4_word_lt skb 10 hold hnew),
    if_neg (by omega), if_neg (by omega), if_neg (by omega), if_neg (by omega)]

/-- Patching updates both words for the changed field. -/
theorem word_patchWords (skb : Frame) {old new i : ℕ} (hlen : 18 ≤ skb.length)
    (hold : old < 4294967296) (hnew : new < 4294967296) (hi : i = 10 ∨ i = 16) :
    word (patchWords skb old new) i = csumReplace4 (word skb i) old new := by
  have h10 := csumReplace4_word_lt skb 10 hold hnew
  have h16 := csumReplace4_word_lt skb 16 hold hnew
  unfold patchWords
  rcases hi with rfl | rfl
  · rw [word_setWord_of_disjoint _ _ _ _ (by simp; omega) h16 (by omega),
      word_setWord_self _ _ _ (by omega) h10]
  · exact word_setWord_self _ _ _ (by simp; omega) h16

/-- Patching leaves double words behind the two words alone. -/
theorem dword_patchWords (skb : Frame) {old new j : ℕ} (hlen : 18 ≤ skb.length)
    (hold : old < 4294967296) (hnew : new < 4294967296) (hj : 18 ≤ j) :
    dword (patchWords skb old new) j = dword skb j := by
  unfold dword word
  simp only [byte_patchWords skb hlen hold hnew (show j < 10 ∨ 12 ≤ j ∧ j < 16 ∨ 18 ≤ j by omega),
    byte_patchWords skb hlen hold hnew (show j + 1 < 10 ∨ 12 ≤ j + 1 ∧ j + 1 < 16 ∨ 18 ≤ j + 1 by omega),
    byte_patchWords skb hlen hold hnew (show j + 2 < 10 ∨ 12 ≤ j + 2 ∧ j + 2 < 16 ∨ 18 ≤ j + 2 by omega),
    byte_patchWords skb hlen hold hnew
      (show j + 2 + 1 < 10 ∨ 12 ≤ j + 2 + 1 ∧ j + 2 + 1 < 16 ∨ 18 ≤ j + 2 + 1 by omega)]

/-- The helper calls for one address field succeed and patch the two words. -/
theorem replaceChecksums_eq (skb : Frame) (field : ℕ) (old : UInt32) (hfield : 18 ≤ field)
    (hfit : field + 4 ≤ skb.length) :
    replaceChecksums skb field old = some (patchWords skb old.toNat (dword skb field)) := by
  have hold := old.toNat_lt
  have hnew := dword_lt skb field
  have h10 := csumReplace4_word_lt skb 10 hold hnew
  have h16 := csumReplace4_word_lt skb 16 hold hnew
  have hsum10 : (UInt16.ofNat (csumReplace4 (word skb 10) old.toNat (dword skb field))).toNat =
      csumReplace4 (word skb 10) old.toNat (dword skb field) := UInt16.toNat_ofNat_of_lt h10
  have hsum16 : (UInt16.ofNat (csumReplace4 (word skb 16) old.toNat (dword skb field))).toNat =
      csumReplace4 (word skb 16) old.toNat (dword skb field) := UInt16.toNat_ofNat_of_lt h16
  have hword := word_setWord_of_disjoint skb 10 16 _ (by omega) h10 (by omega)
  have hdword := dword_setWord_of_disjoint skb 10 field _ (by omega) h10 (by omega)
  change ((load32 skb field).bind fun new => ((load16 skb 10).bind fun sum =>
    store16 skb 10 (UInt16.ofNat (csumReplace4 sum.toNat old.toNat new.toNat))).bind fun skb =>
      (load32 skb field).bind fun new => (load16 skb 16).bind fun sum =>
        store16 skb 16 (UInt16.ofNat (csumReplace4 sum.toNat old.toNat new.toNat))) = _
  rw [load32_eq hfit, load16_eq (by omega)]
  simp only [Option.bind_some, field16_toNat, field32_toNat]
  rw [store16_eq (by omega), Option.bind_some, hsum10, load32_eq (by simpa using hfit),
    load16_eq (by simp; omega)]
  simp only [Option.bind_some, field16_toNat, field32_toNat, hword, hdword]
  rw [store16_eq (by simp; omega), hsum16]
  rfl

/-- The frame that leaves the ingress program after a rewrite. -/
def dnatFrame (skb : Frame) : Frame :=
  patchWords (patchWords (setDword (setDword skb 30 backendIp.toNat) 26 lbIp.toNat)
    (dword skb 30) backendIp.toNat) (dword skb 26) lbIp.toNat

/-- The frame that leaves the egress program after a rewrite. -/
def snatFrame (skb : Frame) (origIp : UInt32) : Frame :=
  patchWords (setDword skb 26 origIp.toNat) (dword skb 26) origIp.toNat

/-- The stores of the ingress program, read back. -/
theorem dword_dnat_stores (skb : Frame) (hlen : 34 ≤ skb.length) :
    dword (setDword (setDword skb 30 backendIp.toNat) 26 lbIp.toNat) 30 = backendIp.toNat ∧
      dword (setDword (setDword skb 30 backendIp.toNat) 26 lbIp.toNat) 26 = lbIp.toNat := by
  constructor
  · rw [dword_setDword_of_disjoint _ _ _ _ (by simp; omega) lbIp.toNat_lt (by omega),
      dword_setDword_self _ _ _ (by omega) backendIp.toNat_lt]
  · exact dword_setDword_self _ _ _ (by simp; omega) lbIp.toNat_lt

/-- The checksum calls of the ingress program produce its final frame. -/
theorem replaceChecksums_dnat (skb : Frame) (hlen : 34 ≤ skb.length) :
    ((replaceChecksums (setDword (setDword skb 30 backendIp.toNat) 26 lbIp.toNat) 30 (daddr skb)).bind
      fun skb' => replaceChecksums skb' 26 (saddr skb)) = some (dnatFrame skb) := by
  obtain ⟨hdaddr, hsaddr⟩ := dword_dnat_stores skb hlen
  rw [replaceChecksums_eq _ _ _ (by omega) (by simp; omega), Option.bind_some,
    replaceChecksums_eq _ _ _ (by omega) (by simp; omega), hdaddr, daddr, field32_toNat,
    dword_patchWords _ (by simp; omega) (dword_lt skb 30) backendIp.toNat_lt (by omega), hsaddr,
    saddr, field32_toNat]
  rfl

/-- The tuple under which the ingress program remembers a frame. -/
def forwardTuple (skb : Frame) : ConnTuple :=
  ⟨saddr skb, daddr skb, sourcePort skb, destPort skb, field8 skb 23⟩

/-- The tuple under which the egress program looks a frame up. -/
def reverseTuple (skb : Frame) : ConnTuple :=
  ⟨daddr skb, saddr skb, destPort skb, sourcePort skb, field8 skb 23⟩

/-- The field loads of a parsed frame succeed. -/
theorem loads_of_parsed {skb : Frame} (h : Parsed skb) :
    load16 skb (34 + tcphdrDest) = some (destPort skb) ∧
      load16 skb (34 + tcphdrSource) = some (sourcePort skb) ∧
      load32 skb (14 + iphdrSaddr) = some (saddr skb) ∧
      load32 skb (14 + iphdrDaddr) = some (daddr skb) ∧
      load8 skb (14 + iphdrProtocol) = some (field8 skb 23) := by
  have hlen := h.1
  exact ⟨load16_eq (show 36 + 2 ≤ skb.length by omega), load16_eq (show 34 + 2 ≤ skb.length by omega),
    load32_eq (show 26 + 4 ≤ skb.length by omega), load32_eq (show 30 + 4 ≤ skb.length by omega),
    load8_eq (show 23 + 1 ≤ skb.length by omega)⟩

/-- The ingress program rewrites parsed frames for the target port and passes the others. -/
theorem dnatProg_eq (skb : Frame) (conntrack : ConntrackMap) :
    dnatProg skb conntrack = some
      (if Parsed skb ∧ destPort skb = targetPort then
        ⟨.ok, dnatFrame skb, bpfMapUpdateElem conntrack (forwardTuple skb) (saddr skb)⟩
      else ⟨.ok, skb, conntrack⟩) := by
  unfold dnatProg
  rw [parseHeaders_eq]
  by_cases hparsed : Parsed skb
  · obtain ⟨hdest, hsource, hsaddr, hdaddr, hprotocol⟩ := loads_of_parsed hparsed
    have hlen := hparsed.1
    rw [if_pos hparsed]
    change ((load16 skb (34 + tcphdrDest)).bind fun port => if port ≠ targetPort then _ else _) = _
    rw [hdest, Option.bind_some]
    by_cases hport : destPort skb = targetPort
    · have hstore : store32 skb (14 + iphdrDaddr) backendIp = some (setDword skb 30 backendIp.toNat) :=
        store32_eq (show 30 + 4 ≤ skb.length by omega)
      have hstore' : store32 (setDword skb 30 backendIp.toNat) (14 + iphdrSaddr) lbIp =
          some (setDword (setDword skb 30 backendIp.toNat) 26 lbIp.toNat) :=
        store32_eq (show 26 + 4 ≤ (setDword skb 30 backendIp.toNat).length by simp; omega)
      rw [if_neg (not_not.mpr hport), if_pos ⟨hparsed, hport⟩]
      simp only [hsource, hsaddr, hdaddr, hprotocol, Option.bind_eq_bind, Option.bind_some]
      rw [hstore, Option.bind_some, hstore', Option.bind_some, ← Option.bind_assoc]
      have hchecksums := replaceChecksums_dnat skb (by omega)
      change ((replaceChecksums _ 30 _).bind fun skb' => replaceChecksums skb' 26 _).bind _ = _
      rw [hchecksums]
      rfl
    · rw [if_pos hport, if_neg fun h => hport h.2]
  · rw [if_neg hparsed, if_neg fun h => hparsed h.1]
    rfl

/-- The egress program rewrites parsed frames whose reversed tuple is tracked and passes the others. -/
theorem snatProg_eq (skb : Frame) (conntrack : ConntrackMap) :
    snatProg skb conntrack = some
      (if Parsed skb then
        match conntrack (reverseTuple skb) with
        | none => ⟨.ok, skb, conntrack⟩
        | some origIp => ⟨.ok, snatFrame skb origIp, conntrack⟩
      else ⟨.ok, skb, conntrack⟩) := by
  unfold snatProg
  rw [parseHeaders_eq]
  by_cases hparsed : Parsed skb
  · obtain ⟨hdest, hsource, hsaddr, hdaddr, hprotocol⟩ := loads_of_parsed hparsed
    have hlen := hparsed.1
    simp only [hparsed, if_true, Option.bind_eq_bind, Option.bind_some, hdest, hsource, hsaddr,
      hdaddr, hprotocol]
    change (match conntrack (reverseTuple skb) with | none => _ | some origIp => _) = _
    cases conntrack (reverseTuple skb) with
    | none => rfl
    | some origIp =>
      have hstore : store32 skb (14 + iphdrSaddr) origIp = some (setDword skb 26 origIp.toNat) :=
        store32_eq (show 26 + 4 ≤ skb.length by omega)
      have hchecksums : replaceChecksums (setDword skb 26 origIp.toNat) 26 (saddr skb) =
          some (snatFrame skb origIp) := by
        rw [replaceChecksums_eq _ _ _ (by omega) (by simp; omega),
          dword_setDword_self _ _ _ (by omega) origIp.toNat_lt, saddr, field32_toNat]
        rfl
      change ((store32 skb (14 + iphdrSaddr) origIp).bind fun skb' =>
        (replaceChecksums skb' 26 (saddr skb)).bind _) = _
      rw [hstore, Option.bind_some, hchecksums]
      rfl
  · rw [if_neg hparsed, if_neg hparsed]
    rfl

/-- How a rewritten frame relates to the original, when address fields of numeric sum `old` are
replaced by fields of sum `new`. -/
structure Rewrites (skb skb' : Frame) (old new : ℕ) : Prop where
  length_eq : skb'.length = skb.length
  addresses : dword skb' 26 + dword skb' 30 + old = dword skb 26 + dword skb 30 + new
  length_lt : word skb' 16 < 65535
  length_shift : word skb' 16 + new ≡ word skb 16 + old [MOD 65535]
  byte_eq : ∀ j, j < 10 ∨ 12 ≤ j ∧ j < 16 ∨ 18 ≤ j ∧ j < 26 ∨ 34 ≤ j → byte skb' j = byte skb j

/-- The addresses of a frame that left the ingress program. -/
theorem dnatFrame_addresses (skb : Frame) (hlen : 34 ≤ skb.length) :
    dword (dnatFrame skb) 26 = lbIp.toNat ∧ dword (dnatFrame skb) 30 = backendIp.toNat := by
  obtain ⟨hdaddr, hsaddr⟩ := dword_dnat_stores skb hlen
  unfold dnatFrame
  constructor
  · rw [dword_patchWords _ (by simp; omega) (dword_lt skb 26) lbIp.toNat_lt (by omega),
      dword_patchWords _ (by simp; omega) (dword_lt skb 30) backendIp.toNat_lt (by omega), hsaddr]
  · rw [dword_patchWords _ (by simp; omega) (dword_lt skb 26) lbIp.toNat_lt (by omega),
      dword_patchWords _ (by simp; omega) (dword_lt skb 30) backendIp.toNat_lt (by omega), hdaddr]

/-- The addresses of a frame that left the egress program. -/
theorem snatFrame_addresses (skb : Frame) (origIp : UInt32) (hlen : 34 ≤ skb.length) :
    dword (snatFrame skb origIp) 26 = origIp.toNat ∧ dword (snatFrame skb origIp) 30 = dword skb 30 := by
  unfold snatFrame
  constructor
  · rw [dword_patchWords _ (by simp; omega) (dword_lt skb 26) origIp.toNat_lt (by omega),
      dword_setDword_self _ _ _ (by omega) origIp.toNat_lt]
  · rw [dword_patchWords _ (by simp; omega) (dword_lt skb 26) origIp.toNat_lt (by omega),
      dword_setDword_of_disjoint _ _ _ _ (by omega) origIp.toNat_lt (by omega)]

/-- The ingress program updates both patched words for the two addresses. -/
theorem word_dnatFrame (skb : Frame) (hlen : 34 ≤ skb.length) {i : ℕ} (hi : i = 10 ∨ i = 16) :
    word (dnatFrame skb) i = csumReplace4 (csumReplace4 (word skb i) (dword skb 30) backendIp.toNat)
      (dword skb 26) lbIp.toNat := by
  unfold dnatFrame
  rw [word_patchWords _ (by simp; omega) (dword_lt skb 26) lbIp.toNat_lt hi,
    word_patchWords _ (by simp; omega) (dword_lt skb 30) backendIp.toNat_lt hi,
    word_setDword_of_disjoint _ _ _ _ (by simp; omega) lbIp.toNat_lt (by omega),
    word_setDword_of_disjoint _ _ _ _ (by omega) backendIp.toNat_lt (by omega)]

/-- The egress program updates both patched words for the source address. -/
theorem word_snatFrame (skb : Frame) (origIp : UInt32) (hlen : 34 ≤ skb.length) {i : ℕ}
    (hi : i = 10 ∨ i = 16) :
    word (snatFrame skb origIp) i = csumReplace4 (word skb i) (dword skb 26) origIp.toNat := by
  unfold snatFrame
  rw [word_patchWords _ (by simp; omega) (dword_lt skb 26) origIp.toNat_lt hi,
    word_setDword_of_disjoint _ _ _ _ (by omega) origIp.toNat_lt (by omega)]

/-- The ingress program keeps the bytes outside the patched words and the addresses. -/
theorem byte_dnatFrame (skb : Frame) (hlen : 34 ≤ skb.length) {j : ℕ}
    (hj : j < 10 ∨ 12 ≤ j ∧ j < 16 ∨ 18 ≤ j ∧ j < 26 ∨ 34 ≤ j) :
    byte (dnatFrame skb) j = byte skb j := by
  unfold dnatFrame
  rw [byte_patchWords _ (by simp; omega) (dword_lt skb 26) lbIp.toNat_lt (by omega),
    byte_patchWords _ (by simp; omega) (dword_lt skb 30) backendIp.toNat_lt (by omega),
    byte_setDword_of_disjoint _ _ _ _ (by simp; omega) lbIp.toNat_lt (by omega),
    byte_setDword_of_disjoint _ _ _ _ (by omega) backendIp.toNat_lt (by omega)]

/-- The egress program keeps the bytes outside the patched words and the source address. -/
theorem byte_snatFrame (skb : Frame) (origIp : UInt32) (hlen : 34 ≤ skb.length) {j : ℕ}
    (hj : j < 10 ∨ 12 ≤ j ∧ j < 16 ∨ 18 ≤ j ∧ j < 26 ∨ 30 ≤ j) :
    byte (snatFrame skb origIp) j = byte skb j := by
  unfold snatFrame
  rw [byte_patchWords _ (by simp; omega) (dword_lt skb 26) origIp.toNat_lt (by omega),
    byte_setDword_of_disjoint _ _ _ _ (by omega) origIp.toNat_lt (by omega)]

/-- The ingress program shifts both patched words by the difference of the address sums. -/
theorem dnatFrame_shift (skb : Frame) (hlen : 34 ≤ skb.length) {i : ℕ} (hi : i = 10 ∨ i = 16) :
    word (dnatFrame skb) i < 65535 ∧ word (dnatFrame skb) i + (backendIp.toNat + lbIp.toNat) ≡
      word skb i + (dword skb 30 + dword skb 26) [MOD 65535] := by
  rw [word_dnatFrame skb hlen hi]
  exact csumReplace4_twice (word_lt skb i) (dword_lt skb 30) backendIp.toNat_lt (dword_lt skb 26) lbIp.toNat_lt

/-- The egress program shifts both patched words by the difference of the source addresses. -/
theorem snatFrame_shift (skb : Frame) (origIp : UInt32) (hlen : 34 ≤ skb.length) {i : ℕ}
    (hi : i = 10 ∨ i = 16) :
    word (snatFrame skb origIp) i < 65535 ∧ word (snatFrame skb origIp) i + origIp.toNat ≡
      word skb i + dword skb 26 [MOD 65535] := by
  rw [word_snatFrame skb origIp hlen hi]
  exact csumReplace4_spec (word_lt skb i) (dword_lt skb 26) origIp.toNat_lt

/-- The ingress program replaces both addresses. -/
theorem dnatFrame_rewrites (skb : Frame) (hlen : 34 ≤ skb.length) :
    Rewrites skb (dnatFrame skb) (dword skb 30 + dword skb 26) (backendIp.toNat + lbIp.toNat) := by
  obtain ⟨hsaddr, hdaddr⟩ := dnatFrame_addresses skb hlen
  obtain ⟨hlt, hshift⟩ := dnatFrame_shift skb hlen (Or.inr rfl)
  exact ⟨by simp [dnatFrame], by omega, hlt, hshift, fun j hj => byte_dnatFrame skb hlen hj⟩

/-- The egress program replaces the source address. -/
theorem snatFrame_rewrites (skb : Frame) (origIp : UInt32) (hlen : 34 ≤ skb.length) :
    Rewrites skb (snatFrame skb origIp) (dword skb 26) origIp.toNat := by
  obtain ⟨hsaddr, hdaddr⟩ := snatFrame_addresses skb origIp hlen
  obtain ⟨hlt, hshift⟩ := snatFrame_shift skb origIp hlen (Or.inr rfl)
  exact ⟨by simp [snatFrame], by omega, hlt, hshift, fun j hj => byte_snatFrame skb origIp hlen (by omega)⟩

end GaleLB.Routing
