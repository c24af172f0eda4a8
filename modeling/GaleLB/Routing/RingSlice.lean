import GaleLB.Routing.RingDisruption
import Mathlib.Algebra.Order.BigOperators.Group.Finset

/-!
# The slice of the ring against its map

A removal brings the slice back to its canonical form, the increasing list of the keys of
the map, so its result does not depend on the order in which the map is iterated.
Removals therefore repeat without effect and commute.

An addition only appends. Adding a node that owns its points changes no lookup, because a
lookup depends on the members of the slice and not on their number, but it lengthens the
slice by one entry per virtual node. The entries stay until the next removal.
-/

namespace GaleLB.Routing

open Transition CyclicSearch LastWrite

variable {hasher : Hasher} {numVirtualNodes : ℤ} {calls : List Call} {r r' : Ring}

/-- The slice is the strictly increasing list of the keys of the map. -/
def Ring.Canonical (r : Ring) : Prop :=
  r.ring.SortedLT ∧ ∀ hash, hash ∈ r.ring ↔ hash ∈ r.nodes

/-- A removal leaves the slice canonical, whatever the order of the iteration. -/
theorem Ring.Step.canonical_removeNode {node : AddrKey} (h : Ring.Step r (.removeNode node) r') :
    r'.Canonical := by
  have hsorted := h.sorted
  cases h with
  | removeNode _ iteration horder =>
    refine ⟨List.sortedLT_iff_nodup_and_sortedLE.mpr ⟨?_, hsorted⟩, r.mem_ring_removeNode node iteration horder⟩
    exact (List.mergeSort_perm iteration _).nodup_iff.mpr horder.1

/-- A canonical ring is determined by its parameters and its map. -/
theorem Ring.Canonical.ext (h : r.Canonical) (h' : r'.Canonical) (hhasher : r.hasher = r'.hasher)
    (hnum : r.numVirtualNodes = r'.numVirtualNodes)
    (hlookup : ∀ hash, r.nodes.lookup hash = r'.nodes.lookup hash) : r = r' := by
  have hnodes : r.nodes = r'.nodes := Finmap.ext_lookup hlookup
  have hring : r.ring = r'.ring := by
    apply h.1.eq_of_mem_iff h'.1
    intro hash
    rw [h.2, h'.2, hnodes]
  obtain ⟨ring, nodes, num, hasher⟩ := r
  obtain ⟨ring', nodes', num', hasher'⟩ := r'
  simp only [Ring.mk.injEq]
  exact ⟨hring, hnodes, hnum, hhasher⟩

/-- No call changes the hashes of a node. -/
theorem Ring.Step.hashes_eq {call : Call} (h : Ring.Step r call r') (node : AddrKey) :
    r'.hashes node = r.hashes node := by
  unfold Ring.hashes
  rw [h.parameters.1, h.parameters.2]

/-- The map after two removals has lost the hashes of both nodes. -/
theorem Ring.Step.lookup_removeNode_twice {a b : AddrKey} {ra rab : Ring}
    (ha : Ring.Step r (.removeNode a) ra) (hb : Ring.Step ra (.removeNode b) rab) (hash : UInt32) :
    rab.nodes.lookup hash =
      if hash ∈ r.hashes a ∨ hash ∈ r.hashes b then none else r.nodes.lookup hash := by
  rw [hb.lookup, ha.lookup, ha.hashes_eq, Call.node_removeNode, Call.node_removeNode]
  by_cases hmem : hash ∈ r.hashes b
  · rw [if_pos hmem, if_pos (Or.inr hmem)]
    rfl
  · rw [if_neg hmem]
    by_cases hmem' : hash ∈ r.hashes a
    · rw [if_pos hmem', if_pos (Or.inl hmem')]
      rfl
    · rw [if_neg hmem', if_neg fun h => h.elim hmem' hmem]

/-- From every ring and for every iteration order, a removal completes with the increasing list of the
keys of the map as its slice, and none of the hashes of its node is a key. Removing a node again changes
nothing, and the removals of two nodes may be exchanged. -/
theorem removeNode_canonical_commutes (r : Ring) (a b : AddrKey) :
    (∃ ra, Ring.Step r (.removeNode a) ra) ∧
    (∀ ra, Ring.Step r (.removeNode a) ra →
      ra.ring.SortedLT ∧ (∀ hash, hash ∈ ra.ring ↔ hash ∈ ra.nodes) ∧ ∀ hash ∈ r.hashes a, hash ∉ ra.nodes) ∧
    (∀ ra raa, Ring.Step r (.removeNode a) ra → Ring.Step ra (.removeNode a) raa → raa = ra) ∧
    ∀ ra rab rb rba, Ring.Step r (.removeNode a) ra → Ring.Step ra (.removeNode b) rab →
      Ring.Step r (.removeNode b) rb → Ring.Step rb (.removeNode a) rba → rab = rba := by
  refine ⟨r.exists_step_removeNode a, ?_, ?_, ?_⟩
  · intro ra ha
    refine ⟨ha.canonical_removeNode.1, ha.canonical_removeNode.2, ?_⟩
    intro hash hmem
    rw [← Finmap.lookup_eq_none, ha.lookup, Call.node_removeNode, if_pos hmem]
    rfl
  · intro ra raa ha haa
    apply haa.canonical_removeNode.ext ha.canonical_removeNode haa.parameters.1 haa.parameters.2
    intro hash
    rw [ha.lookup_removeNode_twice haa, ha.lookup]
    simp only [or_self]
    rfl
  · intro ra rab rb rba ha hab hb hba
    apply hab.canonical_removeNode.ext hba.canonical_removeNode
    · rw [hab.parameters.1, ha.parameters.1, hba.parameters.1, hb.parameters.1]
    · rw [hab.parameters.2, ha.parameters.2, hba.parameters.2, hb.parameters.2]
    · intro hash
      rw [ha.lookup_removeNode_twice hab, hb.lookup_removeNode_twice hba]
      simp only [or_comm]

/-- Removing the two backends of a reached ring in either order gives the same ring. -/
theorem removeNode_joinedRing_commutes :
    ∃ ra rab rb rba, Ring.Step joinedRing (.removeNode sampleNode) ra ∧
      Ring.Step ra (.removeNode otherNode) rab ∧ Ring.Step joinedRing (.removeNode otherNode) rb ∧
      Ring.Step rb (.removeNode sampleNode) rba ∧ ra.ring.SortedLT ∧ rab = rba := by
  obtain ⟨ra, ha⟩ := joinedRing.exists_step_removeNode sampleNode
  obtain ⟨rab, hab⟩ := ra.exists_step_removeNode otherNode
  obtain ⟨rb, hb⟩ := joinedRing.exists_step_removeNode otherNode
  obtain ⟨rba, hba⟩ := rb.exists_step_removeNode sampleNode
  obtain ⟨-, hcanonical, -, hcommute⟩ := removeNode_canonical_commutes joinedRing sampleNode otherNode
  exact ⟨ra, rab, rb, rba, ha, hab, hb, hba, (hcanonical ra ha).1, hcommute ra rab rb rba ha hab hb hba⟩

/-- The hashes of a node in a reached ring. -/
theorem run_hashes (hrun : Run Ring.Step (newRing hasher numVirtualNodes) calls r) (node : AddrKey) :
    r.hashes node = virtualHashes hasher numVirtualNodes node := by
  rw [Ring.hashes, run_hasher hrun, run_numVirtualNodes hrun]

/-- Adding a node that owns each of its points leaves the map as it was. -/
theorem Ring.nodes_addNode_of_owned (r : Ring) {node : AddrKey}
    (hown : ∀ hash ∈ r.hashes node, r.nodes.lookup hash = some node) : (r.addNode node).nodes = r.nodes := by
  apply Finmap.ext_lookup
  intro hash
  rw [(Ring.Step.addNode r node).lookup, Call.node_addNode]
  by_cases hmem : hash ∈ r.hashes node
  · rw [if_pos hmem, hown hash hmem]
    rfl
  · rw [if_neg hmem]

/-- In every reached ring, adding a node that owns each of its points changes no lookup. -/
theorem getNode_addNode_of_owned (hrun : Run Ring.Step (newRing hasher numVirtualNodes) calls r)
    {node : AddrKey}
    (hown : ∀ hash ∈ virtualHashes hasher numVirtualNodes node, r.nodes.lookup hash = some node)
    (key : List UInt8) : (r.addNode node).getNode key = r.getNode key := by
  have hstep := Ring.Step.addNode r node
  rw [← run_hashes hrun] at hown
  apply Ring.getNode_congr hstep.sorted (run_sorted hrun) hstep.parameters.1 (r.nodes_addNode_of_owned hown)
  intro hash
  rw [r.mem_ring_addNode]
  constructor
  · rintro (hmem | hmem)
    · exact hmem
    · exact (run_mem_ring hrun hash).mpr (Or.inl (Finmap.mem_of_lookup_eq_some (hown hash hmem)))
  · exact Or.inl

/-- The point of the sample backend on the rebuilt ring is its own. -/
theorem lookup_rebuiltRing :
    ∀ hash ∈ virtualHashes crc32Hasher 1 sampleNode, rebuiltRing.nodes.lookup hash = some sampleNode := by
  intro hash hmem
  rw [virtualHashes_sampleNode, List.mem_singleton] at hmem
  rw [hmem]
  exact (run_lookup_eq_some_iff run_rebuiltRing _ _).mpr (by decide +kernel)

/-- Adding the sample backend to the rebuilt ring again keeps a request where it was. -/
theorem getNode_rebuiltRing_readded :
    (rebuiltRing.addNode sampleNode).getNode (stringBytes "client-1") =
      rebuiltRing.getNode (stringBytes "client-1") :=
  getNode_addNode_of_owned run_rebuiltRing lookup_rebuiltRing (stringBytes "client-1")

/-- An addition appends the hashes of its node, up to the order of the slice. -/
theorem Ring.ring_addNode_perm (r : Ring) (node : AddrKey) :
    (r.addNode node).ring.Perm (r.ring ++ r.hashes node) := by
  obtain ⟨-, -, hring, -⟩ := foldl_addVirtualNode node r.virtualIndices r
  change (sortRing (r.virtualIndices.foldl (Ring.addVirtualNode node) r).ring).Perm _
  rw [hring]
  exact List.mergeSort_perm _ _

/-- An addition lengthens the slice by the number of virtual nodes. -/
theorem Ring.length_ring_addNode (r : Ring) (node : AddrKey) :
    (r.addNode node).ring.length = r.ring.length + r.numVirtualNodes.toNat := by
  rw [(r.ring_addNode_perm node).length_eq, List.length_append, Ring.hashes, virtualHashes, List.length_map,
    List.length_range]

/-- An addition keeps the slice free of duplicates when its hashes are distinct and not there yet. -/
theorem Ring.nodup_ring_addNode_iff (r : Ring) (node : AddrKey) :
    (r.addNode node).ring.Nodup ↔
      r.ring.Nodup ∧ (r.hashes node).Nodup ∧ ∀ hash ∈ r.hashes node, hash ∉ r.ring := by
  rw [(r.ring_addNode_perm node).nodup_iff, List.nodup_append']
  refine and_congr_right fun _ => and_congr_right fun _ => ?_
  constructor
  · intro h hash hmem hring
    exact h hring hmem
  · intro h hash hring hmem
    exact h hash hmem hring

/-- The nodes that are live after a history. -/
def liveNodes (calls : List Call) : Finset AddrKey :=
  (calls.map Call.node).toFinset.filter (Live calls)

/-- The slice holds each hash once; it is as long as the map has keys, and has no more entries than the
live nodes have virtual nodes. -/
def Ring.Compact (calls : List Call) (r : Ring) : Prop :=
  r.ring.Nodup ∧ r.ring.length = r.nodes.keys.card ∧
    r.ring.length ≤ r.numVirtualNodes.toNat * (liveNodes calls).card

/-- Every addition since the last removal found the points of its node pairwise distinct, and each of
them last touched by a removal or not at all. -/
def FreshAdditions (hasher : Hasher) (numVirtualNodes : ℤ) (calls : List Call) : Prop :=
  ∀ before node after, calls = before ++ .addNode node :: after → after.any Call.isRemoval = false →
    (virtualHashes hasher numVirtualNodes node).Nodup ∧
      ∀ hash ∈ virtualHashes hasher numVirtualNodes node,
        ∀ owner, lastTouch hasher numVirtualNodes hash before ≠ some (.addNode owner)

/-- No addition is left to check right after a removal. -/
theorem freshAdditions_concat_removeNode (hasher : Hasher) (numVirtualNodes : ℤ) (calls : List Call)
    (node : AddrKey) : FreshAdditions hasher numVirtualNodes (calls ++ [.removeNode node]) := by
  intro before added after hsplit hafter
  have hlast : (before ++ .addNode added :: after).getLast? = some (.removeNode node) := by
    rw [← hsplit, List.getLast?_concat]
  rw [List.getLast?_append_cons, List.getLast?_cons] at hlast
  cases hend : after.getLast? with
  | none =>
    rw [hend] at hlast
    cases hlast
  | some call =>
    rw [hend] at hlast
    cases hlast
    have hremoval := List.any_eq_false.mp hafter _ (List.mem_of_getLast? hend)
    exact absurd rfl hremoval

/-- An addition is checked against the history before it. -/
theorem freshAdditions_concat_addNode (hasher : Hasher) (numVirtualNodes : ℤ) (calls : List Call)
    (node : AddrKey) :
    FreshAdditions hasher numVirtualNodes (calls ++ [.addNode node]) ↔
      FreshAdditions hasher numVirtualNodes calls ∧ (virtualHashes hasher numVirtualNodes node).Nodup ∧
        ∀ hash ∈ virtualHashes hasher numVirtualNodes node,
          ∀ owner, lastTouch hasher numVirtualNodes hash calls ≠ some (.addNode owner) := by
  constructor
  · intro h
    constructor
    · intro before added after hsplit hafter
      apply h before added (after ++ [.addNode node])
      · rw [hsplit, List.append_assoc, List.cons_append]
      · rw [List.any_append, hafter]
        rfl
    · exact h calls node [] rfl rfl
  · rintro ⟨hcalls, hnode⟩ before added after hsplit hafter
    rcases List.eq_nil_or_concat after with rfl | ⟨start, last, rfl⟩
    · obtain ⟨hbefore, hlast⟩ := List.append_inj' hsplit rfl
      cases hlast
      rw [← hbefore]
      exact hnode
    · rw [List.concat_eq_append] at hsplit hafter
      rw [← List.cons_append, ← List.append_assoc] at hsplit
      obtain ⟨hstart, -⟩ := List.append_inj' hsplit rfl
      rw [List.any_append, Bool.or_eq_false_iff] at hafter
      exact hcalls before added start hstart hafter.1

/-- The slice of a rebuilt ring has no duplicates exactly when every addition since was fresh. -/
theorem run_nodup_ring_iff (hrun : Run Ring.Step (newRing hasher numVirtualNodes) calls r)
    (hremoval : calls.any Call.isRemoval = true) :
    r.ring.Nodup ↔ FreshAdditions hasher numVirtualNodes calls := by
  induction hrun with
  | nil => cases hremoval
  | @snoc calls r r' call hrun hlast ih =>
    cases call with
    | removeNode node =>
      exact iff_of_true hlast.canonical_removeNode.1.nodup
        (freshAdditions_concat_removeNode hasher numVirtualNodes calls node)
    | addNode node =>
      have hremoval' : calls.any Call.isRemoval = true := by simpa using hremoval
      cases hlast
      rw [r.nodup_ring_addNode_iff, freshAdditions_concat_addNode, ih hremoval', run_hashes hrun]
      refine and_congr_right fun _ => and_congr_right fun _ => forall₂_congr fun hash _ => ?_
      rw [run_mem_ring_of_removal hrun hremoval', run_mem_nodes_iff hrun, not_exists]

/-- The map has at most one key per virtual node of a live node. -/
theorem run_card_keys_le (hrun : Run Ring.Step (newRing hasher numVirtualNodes) calls r) :
    r.nodes.keys.card ≤ numVirtualNodes.toNat * (liveNodes calls).card := by
  have hsubset : r.nodes.keys ⊆
      (liveNodes calls).biUnion fun node => (virtualHashes hasher numVirtualNodes node).toFinset := by
    intro hash hmem
    rw [Finmap.mem_keys, run_mem_nodes_iff hrun] at hmem
    obtain ⟨node, hlast⟩ := hmem
    have hcall : node ∈ calls.map Call.node := List.mem_map.mpr ⟨_, mem_of_lastTouch hlast, rfl⟩
    have hlive : node ∈ liveNodes calls := by
      rw [liveNodes, Finset.mem_filter, List.mem_toFinset]
      exact ⟨hcall, live_of_lastTouch hlast⟩
    have hhash := mem_virtualHashes_of_lastTouch hlast
    rw [Call.node_addNode] at hhash
    rw [Finset.mem_biUnion]
    exact ⟨node, hlive, List.mem_toFinset.mpr hhash⟩
  calc r.nodes.keys.card
      ≤ _ := Finset.card_le_card hsubset
    _ ≤ (liveNodes calls).card * numVirtualNodes.toNat := by
        apply Finset.card_biUnion_le_card_mul
        intro node _
        refine (List.toFinset_card_le _).trans_eq ?_
        rw [virtualHashes, List.length_map, List.length_range]
    _ = numVirtualNodes.toNat * (liveNodes calls).card := Nat.mul_comm _ _

/-- Over every history with a removal, the slice holds no duplicates and keeps its bound exactly when
every addition since the last removal was fresh. -/
theorem ring_compact_iff (hrun : Run Ring.Step (newRing hasher numVirtualNodes) calls r)
    (hremoval : calls.any Call.isRemoval = true) :
    r.Compact calls ↔ FreshAdditions hasher numVirtualNodes calls := by
  rw [← run_nodup_ring_iff hrun hremoval]
  constructor
  · intro h
    exact h.1
  · intro hnodup
    have hkeys : r.ring.toFinset = r.nodes.keys := by
      ext hash
      rw [List.mem_toFinset, Finmap.mem_keys, run_mem_ring_of_removal hrun hremoval]
    have hlength : r.ring.length = r.nodes.keys.card := by
      rw [← hkeys, List.toFinset_card_of_nodup hnodup]
    refine ⟨hnodup, hlength, ?_⟩
    rw [hlength, run_numVirtualNodes hrun]
    exact run_card_keys_le hrun

/-- The slice of the rebuilt ring holds one entry for its one backend. -/
theorem rebuiltRing_compact : rebuiltRing.Compact rebuiltCalls := by
  refine (ring_compact_iff run_rebuiltRing rfl).mpr ?_
  rw [rebuiltCalls_eq_concat, freshAdditions_concat_addNode, virtualHashes_sampleNode]
  refine ⟨freshAdditions_concat_removeNode _ _ _ _, List.nodup_singleton _, ?_⟩
  intro hash hmem owner
  have huntouched : lastTouch crc32Hasher 1 2903089360 [.addNode otherNode, .removeNode otherNode] = none := by
    decide +kernel
  rw [List.mem_singleton.mp hmem]
  exact huntouched.symm ▸ nofun

/-- Adding the backend again gives the slice a second entry for a point that the map holds once. -/
theorem readded_not_compact :
    Run Ring.Step (newRing crc32Hasher 1) (rebuiltCalls ++ [.addNode sampleNode]) (rebuiltRing.addNode sampleNode) ∧
      (rebuiltRing.addNode sampleNode).ring.length = rebuiltRing.ring.length + 1 ∧
      (rebuiltRing.addNode sampleNode).nodes = rebuiltRing.nodes ∧
      ¬ (rebuiltRing.addNode sampleNode).Compact (rebuiltCalls ++ [.addNode sampleNode]) := by
  have hhashes := run_hashes run_rebuiltRing sampleNode
  refine ⟨run_rebuiltRing.snoc (Ring.Step.addNode rebuiltRing sampleNode), ?_, ?_, ?_⟩
  · rw [Ring.length_ring_addNode, run_numVirtualNodes run_rebuiltRing]
    rfl
  · apply Ring.nodes_addNode_of_owned
    rw [hhashes]
    exact lookup_rebuiltRing
  · rintro ⟨hnodup, -⟩
    have hfresh := ((rebuiltRing.nodup_ring_addNode_iff sampleNode).mp hnodup).2.2 2903089360
    rw [hhashes, virtualHashes_sampleNode, run_mem_ring_of_removal run_rebuiltRing rfl] at hfresh
    exact hfresh (List.mem_singleton.mpr rfl) mem_nodes_rebuiltRing

/-- Additions of a node that owns its points lengthen the slice without bound and leave the map alone. -/
theorem run_readditions (node : AddrKey) (n : ℕ) (hown : ∀ hash ∈ r.hashes node, r.nodes.lookup hash = some node) :
    ∃ r', Run Ring.Step r (List.replicate n (.addNode node)) r' ∧
      r'.ring.length = r.ring.length + n * r.numVirtualNodes.toNat ∧ r'.nodes = r.nodes := by
  induction n generalizing r with
  | zero => exact ⟨r, Run.nil, by simp, rfl⟩
  | succ n ih =>
    have hstep := Ring.Step.addNode r node
    have hnodes := r.nodes_addNode_of_owned hown
    have hown' : ∀ hash ∈ (r.addNode node).hashes node, (r.addNode node).nodes.lookup hash = some node := by
      rw [hstep.hashes_eq, hnodes]
      exact hown
    obtain ⟨r', hrun, hlength, hnodes'⟩ := ih hown'
    refine ⟨r', Run.cons hstep hrun, ?_, hnodes'.trans hnodes⟩
    rw [hlength, r.length_ring_addNode, hstep.parameters.2, Nat.succ_mul]
    omega

end GaleLB.Routing
