import GaleLB.Routing.RingLookup
import GaleLB.Routing.RingOwnership

/-!
# Two load balancers with the same live nodes

When no two nodes of a history share a hash, the map is determined by the set of live
nodes. Two histories with the same live nodes then differ only in the zero entries that
remain in a slice without removals. The lookups agree unless exactly one of the two
slices still has them and the request falls on one.
-/

namespace GaleLB.Routing

open Transition CyclicSearch LastWrite

variable {hasher : Hasher} {numVirtualNodes : ℤ} {calls calls₁ calls₂ : List Call} {r r₁ r₂ : Ring}

/-- No two different nodes of a history share a virtual hash. -/
def DistinctPoints (hasher : Hasher) (numVirtualNodes : ℤ) (calls : List Call) : Prop :=
  ∀ call ∈ calls, ∀ call' ∈ calls, call.node ≠ call'.node →
    ∀ hash ∈ virtualHashes hasher numVirtualNodes call.node,
      hash ∉ virtualHashes hasher numVirtualNodes call'.node

/-- Distinctness is decided by going through the calls and their virtual hashes. -/
instance : Decidable (DistinctPoints hasher numVirtualNodes calls) :=
  have : ∀ call call' : Call, Decidable (∀ hash ∈ virtualHashes hasher numVirtualNodes call.node,
      hash ∉ virtualHashes hasher numVirtualNodes call'.node) := fun _ _ => List.decidableBAll _ _
  have : ∀ call : Call, Decidable (∀ call' ∈ calls, call.node ≠ call'.node →
      ∀ hash ∈ virtualHashes hasher numVirtualNodes call.node,
        hash ∉ virtualHashes hasher numVirtualNodes call'.node) := fun _ => List.decidableBAll _ _
  List.decidableBAll _ _

/-- Without shared hashes every live node owns all of its points. -/
theorem run_ownsAllPoints_of_distinct (hrun : Run Ring.Step (newRing hasher numVirtualNodes) calls r)
    (hdistinct : DistinctPoints hasher numVirtualNodes calls) :
    OwnsAllPoints hasher numVirtualNodes calls r := by
  refine (run_ownsAllPoints_iff hrun).mpr ?_
  rintro node - before after rfl hafter call hcall hash htouch
  exact hdistinct call (by simp [hcall]) (.addNode node) (by simp) (hafter call hcall) hash htouch

/-- Maps that hold exactly the points of the same live nodes are equal. -/
theorem nodes_eq_of_ownsAllPoints (howns₁ : OwnsAllPoints hasher numVirtualNodes calls₁ r₁)
    (howns₂ : OwnsAllPoints hasher numVirtualNodes calls₂ r₂)
    (hlive : ∀ node, Live calls₁ node ↔ Live calls₂ node) : r₁.nodes = r₂.nodes := by
  refine Finmap.ext_lookup fun hash => Option.ext fun node => ?_
  rw [howns₁ hash node, howns₂ hash node, hlive node]

/-- Sorted slices with the same members, over the same map, answer alike. -/
theorem Ring.getNode_congr (hsorted₁ : r₁.ring.SortedLE) (hsorted₂ : r₂.ring.SortedLE)
    (hhasher : r₁.hasher = r₂.hasher) (hnodes : r₁.nodes = r₂.nodes)
    (hmem : ∀ hash, hash ∈ r₁.ring ↔ hash ∈ r₂.ring) (key : List UInt8) :
    r₁.getNode key = r₂.getNode key := by
  by_cases hne : r₁.ring = []
  · have hne₂ : r₂.ring = [] := List.eq_nil_iff_forall_not_mem.mpr fun hash hhash => by
      simpa [hne] using (hmem hash).mpr hhash
    rw [(Ring.getNode_eq_none_iff hsorted₁ key).mpr hne, (Ring.getNode_eq_none_iff hsorted₂ key).mpr hne₂]
  · obtain ⟨k, hk⟩ := Ring.exists_isCyclicSucc hsorted₁ hne (r₁.hasher key)
    have hk₂ := hk.congr hmem
    rw [hhasher] at hk₂
    rw [Ring.getNode_of_isCyclicSucc hsorted₁ hk, Ring.getNode_of_isCyclicSucc hsorted₂ hk₂, hnodes]

/-- A slice with leftover zeros agrees with one holding exactly the keys of the same map when the
request avoids the zeros, zero is a key, or the least key belongs to the zero address. -/
theorem Ring.getNode_leftover_iff (hsorted₁ : r₁.ring.SortedLE) (hsorted₂ : r₂.ring.SortedLE)
    (hhasher : r₁.hasher = r₂.hasher) (hnodes : r₁.nodes = r₂.nodes)
    (hmem₁ : ∀ hash, hash ∈ r₁.ring ↔ hash ∈ r₂.nodes ∨ hash = 0)
    (hmem₂ : ∀ hash, hash ∈ r₂.ring ↔ hash ∈ r₂.nodes) (hne : ∃ hash, hash ∈ r₂.nodes)
    (key : List UInt8) :
    r₁.getNode key = r₂.getNode key ↔
      (r₂.hasher key ≠ 0 ∧ ∃ hash, hash ∈ r₂.nodes ∧ r₂.hasher key ≤ hash) ∨ 0 ∈ r₂.nodes ∨
      ∃ hash node, r₂.nodes.lookup hash = some node ∧ (∀ hash', hash' ∈ r₂.nodes → hash ≤ hash') ∧
        node.ip = 0 ∧ node.port = 0 := by
  obtain ⟨point, hpoint⟩ := hne
  obtain ⟨k, hk⟩ := Ring.exists_isCyclicSucc hsorted₂
    (List.ne_nil_of_mem ((hmem₂ point).mpr hpoint)) (r₂.hasher key)
  obtain ⟨owner, howner⟩ := Finmap.mem_iff.mp ((hmem₂ k).mp hk.1)
  have hget₂ := Ring.getNode_of_isCyclicSucc hsorted₂ hk
  by_cases hzero : 0 ∈ r₂.nodes
  · refine iff_of_true (Ring.getNode_congr hsorted₁ hsorted₂ hhasher hnodes (fun hash => ?_) key)
      (Or.inr (Or.inl hzero))
    rw [hmem₁, hmem₂]
    exact or_iff_left_of_imp fun h => h ▸ hzero
  by_cases habove : r₂.hasher key ≠ 0 ∧ ∃ hash, hash ∈ r₂.nodes ∧ r₂.hasher key ≤ hash
  · refine iff_of_true ?_ (Or.inl habove)
    have hk₁ : IsCyclicSucc (· ∈ r₁.ring) (r₁.hasher key) k := by
      rw [hhasher]
      exact ((hk.congr hmem₂).with_bottom zero_le_hash habove.1 habove.2).congr fun hash => (hmem₁ hash).symm
    rw [hget₂, Ring.getNode_of_isCyclicSucc hsorted₁ hk₁, hnodes]
  · have hwrap : r₂.hasher key = 0 ∨ ∀ hash, hash ∈ r₂.nodes → hash < r₂.hasher key := by
      by_cases hkey : r₂.hasher key = 0
      · exact Or.inl hkey
      · exact Or.inr fun hash hmem => not_le.mp fun hle => habove ⟨hkey, hash, hmem, hle⟩
    have hget₁ : r₁.getNode key = some (addrToString AddrKey.zero) := by
      have hk₁ : IsCyclicSucc (· ∈ r₁.ring) (r₁.hasher key) 0 := by
        rw [hhasher]
        exact (isCyclicSucc_bottom zero_le_hash hwrap).congr fun hash => (hmem₁ hash).symm
      rw [Ring.getNode_of_isCyclicSucc hsorted₁ hk₁, hnodes, Finmap.lookup_eq_none.mpr hzero]
      rfl
    have hleast := (hk.congr hmem₂).least_of_wrap zero_le_hash hwrap
    rw [hget₁, hget₂, howner, Option.getD_some, Option.some.injEq, addrToString_eq_iff,
      or_iff_right habove, or_iff_right hzero]
    constructor
    · rintro ⟨hip, hport⟩
      exact ⟨k, owner, howner, hleast, hip.symm, hport.symm⟩
    · rintro ⟨hash, node, hnode, hmin, hip, hport⟩
      have hkhash : k = hash := le_antisymm (hleast hash (Finmap.mem_of_lookup_eq_some hnode))
        (hmin k ((hmem₂ k).mp hk.1))
      subst hkhash
      obtain rfl : owner = node := Option.some.inj (howner.symm.trans hnode)
      exact ⟨hip.symm, hport.symm⟩

/-- The condition under which two histories with the same live nodes route a key alike.

Both or neither contain a removal, or the key avoids the zero entries of the slice without
removals, or a live node owns the zero point, or the least point belongs to the zero address. -/
def LookupsAgree (hasher : Hasher) (numVirtualNodes : ℤ) (calls₁ calls₂ : List Call)
    (key : List UInt8) : Prop :=
  calls₁.any Call.isRemoval = calls₂.any Call.isRemoval ∨
    (hasher key ≠ 0 ∧ ∃ node, Live calls₁ node ∧
      ∃ hash ∈ virtualHashes hasher numVirtualNodes node, hasher key ≤ hash) ∨
    (∃ node, Live calls₁ node ∧ 0 ∈ virtualHashes hasher numVirtualNodes node) ∨
    ∃ node, Live calls₁ node ∧ node.ip = 0 ∧ node.port = 0 ∧
      ∃ hash ∈ virtualHashes hasher numVirtualNodes node, ∀ other, Live calls₁ other →
        ∀ hash' ∈ virtualHashes hasher numVirtualNodes other, hash ≤ hash'

/-- A node has a point when the number of virtual nodes is positive. -/
theorem exists_mem_virtualHashes (hasher : Hasher) (hpos : 1 ≤ numVirtualNodes) (node : AddrKey) :
    ∃ hash, hash ∈ virtualHashes hasher numVirtualNodes node := by
  refine ⟨hasher (stringBytes (virtualNode node 0)), List.mem_map.mpr ⟨0, ?_, rfl⟩⟩
  rw [List.mem_range]
  omega

/-- The disagreement of a rebuilt slice with one that never was, in terms of the live nodes. -/
theorem run_getNode_leftover_iff (hpos : 1 ≤ numVirtualNodes)
    (hrun₁ : Run Ring.Step (newRing hasher numVirtualNodes) calls₁ r₁)
    (hrun₂ : Run Ring.Step (newRing hasher numVirtualNodes) calls₂ r₂)
    (howns : OwnsAllPoints hasher numVirtualNodes calls r₂) (hnodes : r₁.nodes = r₂.nodes)
    (hne : ∃ node, Live calls node) (hadds : calls₁.any Call.isRemoval = false)
    (hremoval : calls₂.any Call.isRemoval = true) (key : List UInt8) :
    r₁.getNode key = r₂.getNode key ↔
      (hasher key ≠ 0 ∧ ∃ node, Live calls node ∧
        ∃ hash ∈ virtualHashes hasher numVirtualNodes node, hasher key ≤ hash) ∨
      (∃ node, Live calls node ∧ 0 ∈ virtualHashes hasher numVirtualNodes node) ∨
      ∃ node, Live calls node ∧ node.ip = 0 ∧ node.port = 0 ∧
        ∃ hash ∈ virtualHashes hasher numVirtualNodes node, ∀ other, Live calls other →
          ∀ hash' ∈ virtualHashes hasher numVirtualNodes other, hash ≤ hash' := by
  have hmem : ∀ hash, hash ∈ r₂.nodes ↔
      ∃ node, Live calls node ∧ hash ∈ virtualHashes hasher numVirtualNodes node := fun hash => by
    simp only [Finmap.mem_iff, howns hash]
  have hexists : ∃ hash, hash ∈ r₂.nodes := by
    obtain ⟨node, hlive⟩ := hne
    obtain ⟨hash, hhash⟩ := exists_mem_virtualHashes hasher hpos node
    exact ⟨hash, (hmem hash).mpr ⟨node, hlive, hhash⟩⟩
  rw [Ring.getNode_leftover_iff (run_sorted hrun₁) (run_sorted hrun₂)
    ((run_hasher hrun₁).trans (run_hasher hrun₂).symm) hnodes
    (fun hash => by rw [run_mem_ring hrun₁, hnodes]; simp [hadds])
    (fun hash => by rw [run_mem_ring hrun₂]; simp [hremoval]) hexists key, run_hasher hrun₂, hmem 0]
  refine or_congr (and_congr_right fun _ => ?_) (or_congr Iff.rfl ?_)
  · constructor
    · rintro ⟨hash, hhash, hle⟩
      obtain ⟨node, hlive, hpoint⟩ := (hmem hash).mp hhash
      exact ⟨node, hlive, hash, hpoint, hle⟩
    · rintro ⟨node, hlive, hash, hpoint, hle⟩
      exact ⟨hash, (hmem hash).mpr ⟨node, hlive, hpoint⟩, hle⟩
  · constructor
    · rintro ⟨hash, node, hnode, hmin, hip, hport⟩
      obtain ⟨hlive, hpoint⟩ := (howns hash node).mp hnode
      exact ⟨node, hlive, hip, hport, hash, hpoint, fun other hother hash' hhash' =>
        hmin hash' ((hmem hash').mpr ⟨other, hother, hhash'⟩)⟩
    · rintro ⟨node, hlive, hip, hport, hash, hpoint, hmin⟩
      refine ⟨hash, node, (howns hash node).mpr ⟨hlive, hpoint⟩, fun hash' hhash' => ?_, hip, hport⟩
      obtain ⟨other, hother, hpoint'⟩ := (hmem hash').mp hhash'
      exact hmin other hother hash' hpoint'

/-- Two histories without shared hashes and with the same live nodes route a key alike exactly
under the stated condition. -/
theorem getNode_history_independent_iff (hpos : 1 ≤ numVirtualNodes)
    (hrun₁ : Run Ring.Step (newRing hasher numVirtualNodes) calls₁ r₁)
    (hrun₂ : Run Ring.Step (newRing hasher numVirtualNodes) calls₂ r₂)
    (hdistinct₁ : DistinctPoints hasher numVirtualNodes calls₁)
    (hdistinct₂ : DistinctPoints hasher numVirtualNodes calls₂)
    (hlive : ∀ node, Live calls₁ node ↔ Live calls₂ node) (hne : ∃ node, Live calls₁ node)
    (key : List UInt8) :
    r₁.getNode key = r₂.getNode key ↔ LookupsAgree hasher numVirtualNodes calls₁ calls₂ key := by
  have howns₁ := run_ownsAllPoints_of_distinct hrun₁ hdistinct₁
  have howns₂ := run_ownsAllPoints_of_distinct hrun₂ hdistinct₂
  have hnodes := nodes_eq_of_ownsAllPoints howns₁ howns₂ hlive
  have howns : OwnsAllPoints hasher numVirtualNodes calls₁ r₂ := fun hash node => by
    rw [howns₂ hash node, hlive node]
  unfold LookupsAgree
  cases hremoval₁ : calls₁.any Call.isRemoval <;> cases hremoval₂ : calls₂.any Call.isRemoval
  · refine iff_of_true (Ring.getNode_congr (run_sorted hrun₁) (run_sorted hrun₂)
      ((run_hasher hrun₁).trans (run_hasher hrun₂).symm) hnodes (fun hash => ?_) key) (Or.inl rfl)
    rw [run_mem_ring hrun₁, run_mem_ring hrun₂, hnodes, hremoval₁, hremoval₂]
  · rw [or_iff_right Bool.false_ne_true]
    exact run_getNode_leftover_iff hpos hrun₁ hrun₂ howns hnodes hne hremoval₁ hremoval₂ key
  · rw [or_iff_right Bool.true_eq_false.mp, eq_comm]
    exact run_getNode_leftover_iff hpos hrun₂ hrun₁ howns₁ hnodes.symm hne hremoval₂ hremoval₁ key
  · refine iff_of_true (Ring.getNode_congr (run_sorted hrun₁) (run_sorted hrun₂)
      ((run_hasher hrun₁).trans (run_hasher hrun₂).symm) hnodes (fun hash => ?_) key) (Or.inl rfl)
    rw [run_mem_ring hrun₁, run_mem_ring hrun₂, hnodes, hremoval₁, hremoval₂]

/-- Both histories end with the sample backend as the only live node. -/
theorem live_rebuiltCalls (node : AddrKey) :
    Live [.addNode sampleNode] node ↔ Live rebuiltCalls node := by
  have hsingle : Live [.addNode sampleNode] node ↔ sampleNode = node ∨ Live [] node :=
    live_concat_addNode [] sampleNode node
  rw [hsingle, rebuiltCalls_eq_concat]
  simp only [live_concat_addNode, live_concat_removeNode, not_live_nil, or_false, ne_eq]
  constructor
  · exact Or.inl
  · rintro (h | ⟨hne, heq⟩)
    · exact h
    · exact absurd heq hne

/-- A key below the point of the live backend is routed alike by both histories. -/
theorem getNode_agree_below :
    ((newRing crc32Hasher 1).addNode sampleNode).getNode (stringBytes "client-2") =
      rebuiltRing.getNode (stringBytes "client-2") := by
  have hrun : Run Ring.Step (newRing crc32Hasher 1) [.addNode sampleNode]
      ((newRing crc32Hasher 1).addNode sampleNode) := Run.single (Ring.Step.addNode _ sampleNode)
  refine (getNode_history_independent_iff le_rfl hrun run_rebuiltRing (by decide +kernel)
    (by decide +kernel) live_rebuiltCalls ⟨sampleNode, by decide⟩ _).mpr ?_
  refine Or.inr (Or.inl ⟨by decide +kernel, sampleNode, by decide, 2903089360, ?_, by decide +kernel⟩)
  simp [virtualHashes_sampleNode]

/-- A key above the point of the live backend is routed to it only by the rebuilt ring. -/
theorem getNode_disagree_above :
    Run Ring.Step (newRing crc32Hasher 1) [.addNode sampleNode]
        ((newRing crc32Hasher 1).addNode sampleNode) ∧
      Run Ring.Step (newRing crc32Hasher 1) rebuiltCalls rebuiltRing ∧
      DistinctPoints crc32Hasher 1 [.addNode sampleNode] ∧ DistinctPoints crc32Hasher 1 rebuiltCalls ∧
      (∀ node, Live [.addNode sampleNode] node ↔ Live rebuiltCalls node) ∧
      Live [.addNode sampleNode] sampleNode ∧
      ((newRing crc32Hasher 1).addNode sampleNode).getNode (stringBytes "client-1") ≠
        rebuiltRing.getNode (stringBytes "client-1") := by
  refine ⟨Run.single (Ring.Step.addNode _ sampleNode), run_rebuiltRing, by decide +kernel,
    by decide +kernel, live_rebuiltCalls, by decide, ?_⟩
  have hpoint : ∃ hash node, lastTouch crc32Hasher 1 hash rebuiltCalls = some (.addNode node) :=
    ⟨2903089360, sampleNode, by decide +kernel⟩
  obtain ⟨node, hlive, hget⟩ := (run_routes_after_removal run_rebuiltRing rfl _).mpr hpoint
  obtain rfl : node = sampleNode := by
    simpa using (live_iff_mem_of_no_removal rfl node).mp ((live_rebuiltCalls node).mpr hlive)
  rw [sampleNode_getNode_above, hget]
  decide +kernel

end GaleLB.Routing
