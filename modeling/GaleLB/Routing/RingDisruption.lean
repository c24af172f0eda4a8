import GaleLB.Routing.RingAgreement

/-!
# What a membership change moves

The consistent-hashing specification routes a hash to the owner of its cyclic successor
among the keys of the map. A rebuilt ring implements it. Adding a node only inserts its
own points, so a key either keeps its successor or falls on one of them. Removing a node
that owns its points only deletes them, so every other successor stays where it was.
-/

namespace GaleLB.Routing

open Transition CyclicSearch LastWrite

/-- The specification of a lookup: the owner of the least key at or above the hash, or of the
least key of all when there is none. -/
def RoutesTo (nodes : Finmap fun _ : UInt32 => AddrKey) (hash : UInt32) (node : AddrKey) : Prop :=
  ∃ k, IsCyclicSucc (· ∈ nodes) hash k ∧ nodes.lookup k = some node

variable {hasher : Hasher} {numVirtualNodes : ℤ} {calls : List Call} {r r' : Ring}

/-- A rebuilt ring answers with the node that the specification routes the hash to. -/
theorem run_getNode_of_routesTo (hrun : Run Ring.Step (newRing hasher numVirtualNodes) calls r)
    (hremoval : calls.any Call.isRemoval = true) {key : List UInt8} {node : AddrKey}
    (h : RoutesTo r.nodes (hasher key) node) : r.getNode key = some (addrToString node) := by
  obtain ⟨k, hk, hnode⟩ := h
  rw [← run_hasher hrun] at hk
  rw [Ring.getNode_of_isCyclicSucc (run_sorted hrun)
    (hk.congr fun hash => (run_mem_ring_of_removal hrun hremoval hash).symm), hnode]
  rfl

/-- On a rebuilt ring with a point left, the specification routes every hash. -/
theorem run_exists_routesTo (hrun : Run Ring.Step (newRing hasher numVirtualNodes) calls r)
    (hremoval : calls.any Call.isRemoval = true) (hne : r.ring ≠ []) (hash : UInt32) :
    ∃ node, RoutesTo r.nodes hash node := by
  obtain ⟨k, hk⟩ := Ring.exists_isCyclicSucc (run_sorted hrun) hne hash
  have hk' := hk.congr (run_mem_ring_of_removal hrun hremoval)
  obtain ⟨node, hnode⟩ := Finmap.mem_iff.mp hk'.1
  exact ⟨node, k, hk', hnode⟩

/-- The point of the sample backend is on the rebuilt ring. -/
theorem mem_nodes_rebuiltRing : 2903089360 ∈ rebuiltRing.nodes :=
  (run_mem_nodes_iff run_rebuiltRing _).mpr ⟨sampleNode, by decide +kernel⟩

/-- Over every history the slice is sorted and holds the keys of the map; after a removal it
holds nothing else, and every lookup returns the node that the specification routes to. -/
theorem getNode_refines_consistentHashing
    (hrun : Run Ring.Step (newRing hasher numVirtualNodes) calls r) :
    r.ring.SortedLE ∧ (∀ hash, hash ∈ r.nodes → hash ∈ r.ring) ∧
      (calls.any Call.isRemoval = true → (∀ hash, hash ∈ r.ring → hash ∈ r.nodes) ∧
        ∀ key : List UInt8, (∃ hash, hash ∈ r.nodes) →
          ∃ node, RoutesTo r.nodes (hasher key) node ∧ r.getNode key = some (addrToString node)) := by
  refine ⟨run_sorted hrun, fun hash hmem => (run_mem_ring hrun hash).mpr (Or.inl hmem), ?_⟩
  intro hremoval
  have hmem := run_mem_ring_of_removal hrun hremoval
  refine ⟨fun hash => (hmem hash).mp, ?_⟩
  rintro key ⟨point, hpoint⟩
  have hne : r.ring ≠ [] := List.ne_nil_of_mem ((hmem point).mpr hpoint)
  obtain ⟨node, hnode⟩ := run_exists_routesTo hrun hremoval hne (hasher key)
  exact ⟨node, hnode, run_getNode_of_routesTo hrun hremoval hnode⟩

/-- The rebuilt ring routes a key above its only point as the specification says. -/
theorem getNode_rebuiltRing_refines :
    ∃ node, RoutesTo rebuiltRing.nodes (crc32Hasher (stringBytes "client-1")) node ∧
      rebuiltRing.getNode (stringBytes "client-1") = some (addrToString node) :=
  ((getNode_refines_consistentHashing run_rebuiltRing).2.2 rfl).2 _
    ⟨2903089360, mem_nodes_rebuiltRing⟩

/-- Adding a node keeps the answer of every key or takes the key over; no key moves between two
nodes that were there before. -/
theorem getNode_addNode_minimal (hrun : Run Ring.Step (newRing hasher numVirtualNodes) calls r)
    (hne : r.ring ≠ []) (node : AddrKey) (key : List UInt8) :
    ∃ before after, r.getNode key = some before ∧ (r.addNode node).getNode key = some after ∧
      (after = before ∨ after = addrToString node) := by
  have hstep := Ring.Step.addNode r node
  obtain ⟨k₀, hk₀⟩ := Ring.exists_isCyclicSucc (run_sorted hrun) hne (r.hasher key)
  have hne' : (r.addNode node).ring ≠ [] :=
    List.ne_nil_of_mem ((r.mem_ring_addNode node k₀).mpr (Or.inl hk₀.1))
  obtain ⟨k, hk⟩ := Ring.exists_isCyclicSucc hstep.sorted hne' (r.hasher key)
  have hget := Ring.getNode_of_isCyclicSucc hstep.sorted (hstep.parameters.1.symm ▸ hk)
  have hlookup := hstep.lookup k
  refine ⟨_, _, Ring.getNode_of_isCyclicSucc (run_sorted hrun) hk₀, hget, ?_⟩
  by_cases hhash : k ∈ r.hashes node
  · rw [hlookup, Call.node_addNode, if_pos hhash]
    exact Or.inr rfl
  · -- The new successor is an old point, so it was the successor before the others joined.
    have hmem : k ∈ r.ring := ((r.mem_ring_addNode node k).mp hk.1).resolve_right hhash
    have hold := hk.subset (fun x hx => (r.mem_ring_addNode node x).mpr (Or.inl hx)) hmem
    rw [hlookup, Call.node_addNode, if_neg hhash, hold.unique hk₀]
    exact Or.inl rfl

/-- The other backend joins the rebuilt ring and moves a key only to itself. -/
theorem getNode_rebuiltRing_addNode :
    ∃ before after, rebuiltRing.getNode (stringBytes "client-1") = some before ∧
      (rebuiltRing.addNode otherNode).getNode (stringBytes "client-1") = some after ∧
      (after = before ∨ after = addrToString otherNode) :=
  getNode_addNode_minimal run_rebuiltRing
    (List.ne_nil_of_mem ((run_mem_ring_of_removal run_rebuiltRing rfl _).mpr mem_nodes_rebuiltRing))
    otherNode (stringBytes "client-1")

/-- Removing a node that owns its points keeps the entries of every other node. -/
theorem Ring.Step.lookup_removeNode {node : AddrKey} (hstep : Ring.Step r (.removeNode node) r')
    (hown : ∀ hash ∈ r.hashes node, r.nodes.lookup hash = none ∨ r.nodes.lookup hash = some node)
    {hash : UInt32} {owner : AddrKey} (hne : owner ≠ node) (h : r.nodes.lookup hash = some owner) :
    r'.nodes.lookup hash = some owner := by
  have hhash : hash ∉ r.hashes node := by
    intro hmem
    rcases hown hash hmem with hnone | hsome
    · simp [h] at hnone
    · exact hne (Option.some.inj (h.symm.trans hsome))
  rw [hstep.lookup hash, Call.node_removeNode, if_neg hhash, h]

/-- A removal adds no key to the map. -/
theorem Ring.Step.mem_of_mem_removeNode {node : AddrKey} (hstep : Ring.Step r (.removeNode node) r')
    {hash : UInt32} (h : hash ∈ r'.nodes) : hash ∈ r.nodes := by
  obtain ⟨owner, howner⟩ := Finmap.mem_iff.mp h
  rw [hstep.lookup hash, Call.node_removeNode] at howner
  by_cases hhash : hash ∈ r.hashes node
  · simp [hhash] at howner
  · rw [if_neg hhash] at howner
    exact Finmap.mem_of_lookup_eq_some howner

/-- On a rebuilt ring, removing a node that owns its points completes and leaves the answer of
every key that was not routed to it. -/
theorem getNode_removeNode_minimal (hrun : Run Ring.Step (newRing hasher numVirtualNodes) calls r)
    (hremoval : calls.any Call.isRemoval = true) {node : AddrKey}
    (hown : ∀ hash ∈ virtualHashes hasher numVirtualNodes node,
      r.nodes.lookup hash = none ∨ r.nodes.lookup hash = some node)
    {key : List UInt8} {answer : String} (hanswer : r.getNode key = some answer)
    (hne : answer ≠ addrToString node) :
    (∃ r', Ring.Step r (.removeNode node) r') ∧
      ∀ r', Ring.Step r (.removeNode node) r' → r'.getNode key = some answer := by
  refine ⟨r.exists_step_removeNode node, fun r' hstep => ?_⟩
  have hring : r.ring ≠ [] := by
    intro hnil
    rw [(Ring.getNode_eq_none_iff (run_sorted hrun) key).mpr hnil] at hanswer
    cases hanswer
  obtain ⟨owner, k, hk, howner⟩ := run_exists_routesTo hrun hremoval hring (hasher key)
  have hold := run_getNode_of_routesTo hrun hremoval ⟨k, hk, howner⟩
  have hanswer_eq : answer = addrToString owner := Option.some.inj (hanswer.symm.trans hold)
  have hother : owner ≠ node := by
    rintro rfl
    exact hne hanswer_eq
  rw [← run_hasher hrun, ← run_numVirtualNodes hrun] at hown
  have howner' := hstep.lookup_removeNode hown hother howner
  have hk' := hk.subset (fun _ => hstep.mem_of_mem_removeNode) (Finmap.mem_of_lookup_eq_some howner')
  rw [hanswer_eq]
  exact run_getNode_of_routesTo (hrun.snoc hstep) (by simp) ⟨k, hk', howner'⟩

/-- The rebuilt ring after the other backend joined it again. -/
def joinedRing : Ring := rebuiltRing.addNode otherNode

/-- The history of the joined ring. -/
def joinedCalls : List Call := rebuiltCalls ++ [.addNode otherNode]

/-- The joined ring is reached by its history. -/
theorem run_joinedRing : Run Ring.Step (newRing crc32Hasher 1) joinedCalls joinedRing :=
  run_rebuiltRing.snoc (Ring.Step.addNode rebuiltRing otherNode)

/-- The point of the other backend on a ring with one virtual node per backend. -/
theorem virtualHashes_otherNode : virtualHashes crc32Hasher 1 otherNode = [1638113358] := by
  decide +kernel

/-- A hash between the two points of the joined ring belongs to the sample backend. -/
theorem routesTo_joinedRing :
    RoutesTo joinedRing.nodes (crc32Hasher (stringBytes "client-2")) sampleNode := by
  have hlookup : joinedRing.nodes.lookup 2903089360 = some sampleNode :=
    (run_lookup_eq_some_iff run_joinedRing _ _).mpr (by decide +kernel)
  refine ⟨2903089360, ⟨Finmap.mem_of_lookup_eq_some hlookup, Or.inl ⟨by decide +kernel, ?_⟩⟩, hlookup⟩
  intro hash hmem hle
  obtain ⟨node, hnode⟩ := (run_mem_nodes_iff run_joinedRing hash).mp hmem
  have hhash := mem_virtualHashes_of_lastTouch hnode
  have hadd := mem_of_lastTouch hnode
  have hcases : node = otherNode ∨ node = sampleNode := by
    simpa [joinedCalls, rebuiltCalls, or_comm] using hadd
  rcases hcases with rfl | rfl
  · rw [Call.node_addNode, virtualHashes_otherNode, List.mem_singleton] at hhash
    rw [hhash] at hle
    exact absurd hle (by decide +kernel)
  · rw [Call.node_addNode, virtualHashes_sampleNode, List.mem_singleton] at hhash
    exact hhash.symm.le

/-- The other backend leaves the joined ring, and a key of the sample backend stays with it. -/
theorem getNode_joinedRing_removeNode :
    joinedRing.getNode (stringBytes "client-2") = some (addrToString sampleNode) ∧
      (∃ r', Ring.Step joinedRing (.removeNode otherNode) r') ∧
      ∀ r', Ring.Step joinedRing (.removeNode otherNode) r' →
        r'.getNode (stringBytes "client-2") = some (addrToString sampleNode) := by
  have hget := run_getNode_of_routesTo run_joinedRing rfl routesTo_joinedRing
  refine ⟨hget, getNode_removeNode_minimal run_joinedRing rfl ?_ hget (by decide +kernel)⟩
  intro hash hhash
  rw [virtualHashes_otherNode, List.mem_singleton] at hhash
  rw [hhash]
  exact Or.inr ((run_lookup_eq_some_iff run_joinedRing _ _).mpr (by decide +kernel))

end GaleLB.Routing
