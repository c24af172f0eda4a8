import GaleLB.Routing.RingHistory
import GaleLB.Routing.Hashing

/-!
# Where a request key is routed

On a sorted slice the lookup returns the owner of the cyclic successor of the request
hash. Owned successors belong to live nodes. The remaining answers come from two
places: the zero entries of a slice that was never rebuilt, and an empty slice.
-/

namespace GaleLB.Routing

open Transition CyclicSearch LastWrite

/-- The lookup indexes the slice at the wrapped search result. -/
theorem Ring.getNode_eq (r : Ring) (key : List UInt8) :
    r.getNode key = r.ring[wrapIndex r.ring (r.hasher key) 0]?.map fun h =>
      addrToString ((r.nodes.lookup h).getD AddrKey.zero) := rfl

/-- On a sorted slice the lookup answers with the owner of the cyclic successor. -/
theorem Ring.getNode_of_isCyclicSucc {r : Ring} (hsorted : r.ring.SortedLE) {key : List UInt8}
    {k : UInt32} (hk : IsCyclicSucc (· ∈ r.ring) (r.hasher key) k) :
    r.getNode key = some (addrToString ((r.nodes.lookup k).getD AddrKey.zero)) := by
  have hne : r.ring ≠ [] := List.ne_nil_of_mem hk.1
  obtain ⟨k', hget, hk'⟩ := wrapIndex_isCyclicSucc r.ring hsorted (r.hasher key) 0 hne
  rw [r.getNode_eq, hget, hk'.unique hk]
  rfl

/-- The lookup panics exactly on an empty slice. -/
theorem Ring.getNode_eq_none_iff {r : Ring} (hsorted : r.ring.SortedLE) (key : List UInt8) :
    r.getNode key = none ↔ r.ring = [] := by
  constructor
  · intro h
    by_contra hne
    obtain ⟨k, -, hk⟩ := wrapIndex_isCyclicSucc r.ring hsorted (r.hasher key) 0 hne
    rw [Ring.getNode_of_isCyclicSucc hsorted hk] at h
    cases h
  · intro h
    rw [r.getNode_eq, h]
    rfl

/-- The lookup does not panic exactly when its index lies within the slice. -/
theorem Ring.getNode_ne_none_iff (r : Ring) (key : List UInt8) :
    r.getNode key ≠ none ↔ wrapIndex r.ring (r.hasher key) 0 < r.ring.length := by
  rw [r.getNode_eq, ne_eq, Option.map_eq_none_iff, List.getElem?_eq_none_iff, not_le]

/-- Some key of a nonempty slice is the cyclic successor of a request hash. -/
theorem Ring.exists_isCyclicSucc {r : Ring} (hsorted : r.ring.SortedLE) (hne : r.ring ≠ [])
    (hash : UInt32) : ∃ k, IsCyclicSucc (· ∈ r.ring) hash k := by
  obtain ⟨k, -, hk⟩ := wrapIndex_isCyclicSucc r.ring hsorted hash 0 hne
  exact ⟨k, hk⟩

/-- No hash is below zero. -/
theorem zero_le_hash (hash : UInt32) : (0 : UInt32) ≤ hash := by
  simp [UInt32.le_iff_toNat_le]

variable {hasher : Hasher} {numVirtualNodes : ℤ} {calls : List Call} {r : Ring}

/-- A hash is a key of the map exactly when the last call touching it was an addition. -/
theorem run_mem_nodes_iff (hrun : Run Ring.Step (newRing hasher numVirtualNodes) calls r)
    (hash : UInt32) :
    hash ∈ r.nodes ↔ ∃ node, lastTouch hasher numVirtualNodes hash calls = some (.addNode node) := by
  simp only [Finmap.mem_iff, run_lookup_eq_some_iff hrun]

/-- The slice is empty exactly when it was rebuilt and no hash was last touched by an addition. -/
theorem run_ring_eq_nil_iff (hrun : Run Ring.Step (newRing hasher numVirtualNodes) calls r) :
    r.ring = [] ↔ calls.any Call.isRemoval = true ∧
      ∀ hash node, lastTouch hasher numVirtualNodes hash calls ≠ some (.addNode node) := by
  rw [List.eq_nil_iff_forall_not_mem]
  constructor
  · intro h
    constructor
    · by_contra hadds
      exact h 0 ((run_mem_ring hrun 0).mpr (Or.inr ⟨Bool.eq_false_iff.mpr hadds, rfl⟩))
    · intro hash node hlast
      exact h hash ((run_mem_ring hrun hash).mpr (Or.inl ((run_mem_nodes_iff hrun hash).mpr ⟨node, hlast⟩)))
  · rintro ⟨hremoval, hnone⟩ hash hmem
    rw [run_mem_ring_of_removal hrun hremoval, run_mem_nodes_iff hrun] at hmem
    obtain ⟨node, hlast⟩ := hmem
    exact hnone hash node hlast

/-- Without removals every touched hash is a key of the map. -/
theorem run_mem_nodes_of_no_removal
    (hrun : Run Ring.Step (newRing hasher numVirtualNodes) calls r)
    (hadds : calls.any Call.isRemoval = false) (hash : UInt32) :
    hash ∈ r.nodes ↔
      ∃ node, .addNode node ∈ calls ∧ hash ∈ virtualHashes hasher numVirtualNodes node := by
  rw [run_mem_nodes_iff hrun]
  constructor
  · rintro ⟨node, h⟩
    have hhash := mem_virtualHashes_of_lastTouch h
    exact ⟨node, mem_of_lastTouch h, hhash⟩
  · rintro ⟨node, hmem, hhash⟩
    cases hlast : lastTouch hasher numVirtualNodes hash calls with
    | none =>
      have huntouched := (lastMatch_eq_none_iff _ _).mp hlast _ hmem
      simp [touches, hhash] at huntouched
    | some call =>
      cases call with
      | addNode node' => exact ⟨node', rfl⟩
      | removeNode node' =>
        have hremoval := List.any_eq_false.mp hadds _ (mem_of_lastTouch hlast)
        simp at hremoval

/-- A successor that the map owns belongs to a live node. -/
theorem run_getNode_of_owned (hrun : Run Ring.Step (newRing hasher numVirtualNodes) calls r)
    {key : List UInt8} {k : UInt32} (hk : IsCyclicSucc (· ∈ r.ring) (hasher key) k)
    (hmem : k ∈ r.nodes) : ∃ node, Live calls node ∧ r.getNode key = some (addrToString node) := by
  obtain ⟨node, hnode⟩ := Finmap.mem_iff.mp hmem
  refine ⟨node, live_of_lastTouch ((run_lookup_eq_some_iff hrun k node).mp hnode), ?_⟩
  rw [← run_hasher hrun] at hk
  rw [Ring.getNode_of_isCyclicSucc (run_sorted hrun) hk, hnode]
  rfl

/-- A slice that was never rebuilt answers a key without a point above it from its zero entries. -/
theorem run_getNode_of_wrap (hrun : Run Ring.Step (newRing hasher numVirtualNodes) calls r)
    (hadds : calls.any Call.isRemoval = false) {key : List UInt8}
    (hwrap : hasher key = 0 ∨ ∀ hash, hash ∈ r.nodes → hash < hasher key) :
    r.getNode key = some (addrToString ((r.nodes.lookup 0).getD AddrKey.zero)) := by
  apply Ring.getNode_of_isCyclicSucc (run_sorted hrun)
  rw [run_hasher hrun]
  refine (isCyclicSucc_bottom zero_le_hash hwrap).congr fun hash => ?_
  rw [run_mem_ring hrun]
  simp [hadds]

/-- A slice that was never rebuilt finds an owned point above a nonzero request hash. -/
theorem run_getNode_of_above (hrun : Run Ring.Step (newRing hasher numVirtualNodes) calls r)
    {key : List UInt8} (hne : hasher key ≠ 0) {hash : UInt32} (hmem : hash ∈ r.nodes)
    (hle : hasher key ≤ hash) : ∃ node, Live calls node ∧ r.getNode key = some (addrToString node) := by
  have hring : hash ∈ r.ring := (run_mem_ring hrun hash).mpr (Or.inl hmem)
  obtain ⟨k, hk⟩ := Ring.exists_isCyclicSucc (run_sorted hrun) (List.ne_nil_of_mem hring) (hasher key)
  refine run_getNode_of_owned hrun hk ?_
  rcases (run_mem_ring hrun k).mp hk.1 with hkmem | ⟨-, rfl⟩
  · exact hkmem
  · rcases hk.2 with ⟨hle0, -⟩ | ⟨hall, -⟩
    · exact absurd (le_antisymm hle0 (zero_le_hash _)) hne
    · exact absurd (hall hash hring) (not_lt.mpr hle)

/-- Without removals the live nodes are exactly the added ones. -/
theorem live_iff_mem_of_no_removal (hadds : calls.any Call.isRemoval = false) (node : AddrKey) :
    Live calls node ↔ .addNode node ∈ calls := by
  constructor
  · intro h
    unfold Live at h
    exact mem_of_lastMatch h
  · intro hmem
    unfold Live
    cases hlast : lastMatch (fun call => decide (call.node = node)) calls with
    | none =>
      have hother := (lastMatch_eq_none_iff _ _).mp hlast _ hmem
      simp at hother
    | some call =>
      have hsat := lastMatch_satisfies hlast
      have hnode : call.node = node := by simpa using hsat
      have hremoval := List.any_eq_false.mp hadds _ (mem_of_lastMatch hlast)
      cases call with
      | addNode node' => simpa using hnode
      | removeNode node' => simp at hremoval

/-- The answer prints a live node, and no address other than that of a live node. -/
def RoutesToLive (calls : List Call) (answer : Option String) : Prop :=
  (∃ node, Live calls node ∧ answer = some (addrToString node)) ∧
    ∀ node, answer = some (addrToString node) →
      ∃ live, Live calls live ∧ live.ip = node.ip ∧ live.port = node.port

/-- Printing a live node is enough: the printed text determines address and port. -/
theorem routesToLive_iff (answer : Option String) :
    RoutesToLive calls answer ↔ ∃ node, Live calls node ∧ answer = some (addrToString node) := by
  refine ⟨fun h => h.1, fun h => ⟨h, ?_⟩⟩
  obtain ⟨live, hlive, rfl⟩ := h
  intro node hnode
  exact ⟨live, hlive, (addrToString_eq_iff live node).mp (Option.some.inj hnode)⟩

/-- The condition on a history and a request key under which the key reaches a live node.

After a removal some hash must still belong to the node that was added there last. Before
any removal the slice holds zero entries: the request hash must have an added point at or
above it and differ from zero, unless an added node owns the zero point or prints like the
zero address. -/
def ReachesLiveNode (hasher : Hasher) (numVirtualNodes : ℤ) (calls : List Call)
    (key : List UInt8) : Prop :=
  if calls.any Call.isRemoval then
    ∃ hash node, lastTouch hasher numVirtualNodes hash calls = some (.addNode node)
  else
    (hasher key ≠ 0 ∧ ∃ node, .addNode node ∈ calls ∧
      ∃ hash ∈ virtualHashes hasher numVirtualNodes node, hasher key ≤ hash) ∨
    ∃ node, .addNode node ∈ calls ∧
      (0 ∈ virtualHashes hasher numVirtualNodes node ∨ (node.ip = 0 ∧ node.port = 0))

/-- After a removal a key reaches a live node exactly when some point is left. -/
theorem run_routes_after_removal (hrun : Run Ring.Step (newRing hasher numVirtualNodes) calls r)
    (hremoval : calls.any Call.isRemoval = true) (key : List UInt8) :
    (∃ node, Live calls node ∧ r.getNode key = some (addrToString node)) ↔
      ∃ hash node, lastTouch hasher numVirtualNodes hash calls = some (.addNode node) := by
  have hnil := run_ring_eq_nil_iff hrun
  constructor
  · rintro ⟨node, -, hget⟩
    by_contra hnone
    have hempty := hnil.mpr ⟨hremoval, fun hash node hlast => hnone ⟨hash, node, hlast⟩⟩
    rw [(Ring.getNode_eq_none_iff (run_sorted hrun) key).mpr hempty] at hget
    cases hget
  · rintro ⟨hash, node, hlast⟩
    have hne : r.ring ≠ [] := fun hempty => (hnil.mp hempty).2 hash node hlast
    obtain ⟨k, hk⟩ := Ring.exists_isCyclicSucc (run_sorted hrun) hne (hasher key)
    exact run_getNode_of_owned hrun hk ((run_mem_ring_of_removal hrun hremoval k).mp hk.1)

/-- Before any removal a key reaches a live node exactly when it avoids the unowned zeros. -/
theorem run_routes_before_removal (hrun : Run Ring.Step (newRing hasher numVirtualNodes) calls r)
    (hadds : calls.any Call.isRemoval = false) (key : List UInt8) :
    (∃ node, Live calls node ∧ r.getNode key = some (addrToString node)) ↔
      (hasher key ≠ 0 ∧ ∃ node, .addNode node ∈ calls ∧
        ∃ hash ∈ virtualHashes hasher numVirtualNodes node, hasher key ≤ hash) ∨
      ∃ node, .addNode node ∈ calls ∧
        (0 ∈ virtualHashes hasher numVirtualNodes node ∨ (node.ip = 0 ∧ node.port = 0)) := by
  have hnodes := run_mem_nodes_of_no_removal hrun hadds
  by_cases habove : hasher key ≠ 0 ∧ ∃ node, .addNode node ∈ calls ∧
      ∃ hash ∈ virtualHashes hasher numVirtualNodes node, hasher key ≤ hash
  · refine iff_of_true ?_ (Or.inl habove)
    obtain ⟨hne, node, hadd, hash, hhash, hle⟩ := habove
    exact run_getNode_of_above hrun hne ((hnodes hash).mpr ⟨node, hadd, hhash⟩) hle
  · have hwrap : hasher key = 0 ∨ ∀ hash, hash ∈ r.nodes → hash < hasher key := by
      by_cases hzero : hasher key = 0
      · exact Or.inl hzero
      · refine Or.inr fun hash hmem => not_le.mp fun hle => habove ⟨hzero, ?_⟩
        obtain ⟨node, hadd, hhash⟩ := (hnodes hash).mp hmem
        exact ⟨node, hadd, hash, hhash, hle⟩
    rw [run_getNode_of_wrap hrun hadds hwrap, or_iff_right habove]
    simp only [live_iff_mem_of_no_removal hadds]
    cases howner : r.nodes.lookup 0 with
    | none =>
      have hzero : ∀ node, .addNode node ∈ calls → 0 ∉ virtualHashes hasher numVirtualNodes node :=
        fun node hadd hhash => Finmap.lookup_eq_none.mp howner ((hnodes 0).mpr ⟨node, hadd, hhash⟩)
      constructor
      · rintro ⟨node, hadd, hprint⟩
        have heq := (addrToString_eq_iff AddrKey.zero node).mp (Option.some.inj hprint)
        exact ⟨node, hadd, Or.inr ⟨heq.1.symm, heq.2.symm⟩⟩
      · rintro ⟨node, hadd, hhash | ⟨hip, hport⟩⟩
        · exact absurd hhash (hzero node hadd)
        · exact ⟨node, hadd, congrArg some ((addrToString_eq_iff _ node).mpr ⟨hip.symm, hport.symm⟩)⟩
    | some owner =>
      obtain ⟨node, hadd, hhash⟩ := (hnodes 0).mp (Finmap.mem_of_lookup_eq_some howner)
      have hlive : Live calls owner := live_of_lastTouch ((run_lookup_eq_some_iff hrun 0 owner).mp howner)
      exact iff_of_true ⟨owner, (live_iff_mem_of_no_removal hadds owner).mp hlive, rfl⟩
        ⟨node, hadd, Or.inl hhash⟩

/-- Over every history of calls and every request key: if a node is live, the key is routed to
a live node exactly under the stated condition. -/
theorem getNode_routesToLive_iff (hrun : Run Ring.Step (newRing hasher numVirtualNodes) calls r)
    (key : List UInt8) :
    ((∃ node, Live calls node) → RoutesToLive calls (r.getNode key)) ↔
      ((∃ node, Live calls node) → ReachesLiveNode hasher numVirtualNodes calls key) := by
  refine imp_congr_right fun _ => ?_
  rw [routesToLive_iff, ReachesLiveNode]
  cases hremoval : calls.any Call.isRemoval with
  | true => exact run_routes_after_removal hrun hremoval key
  | false => exact run_routes_before_removal hrun hremoval key

/-- Over every history of calls and every request key, the lookup indexes the slice within its bounds
exactly when no node was ever removed or some hash was last touched by an addition. -/
theorem getNode_index_lt_iff (hrun : Run Ring.Step (newRing hasher numVirtualNodes) calls r)
    (key : List UInt8) :
    wrapIndex r.ring (r.hasher key) 0 < r.ring.length ↔
      (calls.any Call.isRemoval = true →
        ∃ hash node, lastTouch hasher numVirtualNodes hash calls = some (.addNode node)) := by
  rw [← r.getNode_ne_none_iff, ne_eq, Ring.getNode_eq_none_iff (run_sorted hrun), run_ring_eq_nil_iff hrun]
  push Not
  rfl

/-- A backend at 192.168.0.100:8080. -/
def sampleNode : AddrKey := ⟨3232235620, 8080, 0⟩

/-- The only point of the sample backend on a ring with one virtual node per backend. -/
theorem virtualHashes_sampleNode : virtualHashes crc32Hasher 1 sampleNode = [2903089360] := by
  decide +kernel

/-- A request hash below the only point is routed to its backend. -/
theorem getNode_sampleNode_routed :
    RoutesToLive [.addNode sampleNode]
      (((newRing crc32Hasher 1).addNode sampleNode).getNode (stringBytes "client-2")) := by
  have hrun : Run Ring.Step (newRing crc32Hasher 1) [.addNode sampleNode] _ :=
    Run.single (Ring.Step.addNode _ sampleNode)
  refine (getNode_routesToLive_iff hrun (stringBytes "client-2")).mpr (fun _ => ?_)
    ⟨sampleNode, by decide⟩
  refine Or.inl ⟨by decide +kernel, sampleNode, by simp, 2903089360, ?_, by decide +kernel⟩
  simp [virtualHashes_sampleNode]

/-- A second backend at 192.168.0.101:8080. -/
def otherNode : AddrKey := ⟨3232235621, 8080, 0⟩

/-- A ring that held the other backend for a while, then received the sample backend. -/
def rebuiltRing : Ring :=
  (((newRing crc32Hasher 1).addNode otherNode).removeNode otherNode []).addNode sampleNode

/-- The history of the rebuilt ring. -/
def rebuiltCalls : List Call := [.addNode otherNode, .removeNode otherNode, .addNode sampleNode]

/-- The history of the rebuilt ring, call after call. -/
theorem rebuiltCalls_eq_concat :
    rebuiltCalls = [] ++ [.addNode otherNode] ++ [.removeNode otherNode] ++ [.addNode sampleNode] := rfl

/-- Deleting the only node that a new ring received empties its map. -/
theorem nodes_removeVirtualNodes_addNode (hasher : Hasher) (numVirtualNodes : ℤ) (node : AddrKey) :
    (((newRing hasher numVirtualNodes).addNode node).removeVirtualNodes node).nodes = ∅ := by
  have hadd := Ring.Step.addNode (newRing hasher numVirtualNodes) node
  have hhashes : ((newRing hasher numVirtualNodes).addNode node).hashes node =
      (newRing hasher numVirtualNodes).hashes node := by
    rw [Ring.hashes, Ring.hashes, hadd.parameters.1, hadd.parameters.2]
  refine Finmap.ext_lookup fun hash => ?_
  rw [Ring.lookup_removeVirtualNodes, hadd.lookup hash, hhashes, Finmap.lookup_empty]
  by_cases hhash : hash ∈ (newRing hasher numVirtualNodes).hashes node
  · rw [if_pos hhash]
  · rw [if_neg hhash, Call.node_addNode, if_neg hhash]
    exact Finmap.lookup_empty hash

/-- The rebuilt ring is reached by its history. -/
theorem run_rebuiltRing : Run Ring.Step (newRing crc32Hasher 1) rebuiltCalls rebuiltRing := by
  have horder : MapIteration
      (((newRing crc32Hasher 1).addNode otherNode).removeVirtualNodes otherNode).nodes [] := by
    rw [nodes_removeVirtualNodes_addNode]
    exact ⟨List.nodup_nil, fun hash => iff_of_false List.not_mem_nil Finmap.notMem_empty⟩
  have hadd := Ring.Step.addNode (newRing crc32Hasher 1) otherNode
  have hremove := Ring.Step.removeNode ((newRing crc32Hasher 1).addNode otherNode) otherNode [] horder
  exact Run.cons hadd (Run.cons hremove (Run.single (Ring.Step.addNode _ sampleNode)))

/-- On the rebuilt ring, after a removal, every lookup stays within the slice. -/
theorem getNode_rebuiltRing_index_lt :
    rebuiltCalls.any Call.isRemoval = true ∧
      wrapIndex rebuiltRing.ring (rebuiltRing.hasher (stringBytes "client-2")) 0 < rebuiltRing.ring.length :=
  ⟨rfl, (getNode_index_lt_iff run_rebuiltRing _).mpr fun _ => ⟨2903089360, sampleNode, by decide +kernel⟩⟩

/-- A ring that loses its only backend panics on the next request. -/
theorem getNode_emptied_panics :
    ∃ r, Run Ring.Step (newRing crc32Hasher 1) [.addNode sampleNode, .removeNode sampleNode] r ∧
      r.getNode (stringBytes "client-2") = none ∧
      ¬ wrapIndex r.ring (r.hasher (stringBytes "client-2")) 0 < r.ring.length := by
  have hadd : Run Ring.Step (newRing crc32Hasher 1) [.addNode sampleNode] _ :=
    Run.single (Ring.Step.addNode _ sampleNode)
  have hnone : ∀ hash node, lastTouch crc32Hasher 1 hash [.addNode sampleNode, .removeNode sampleNode] ≠
      some (.addNode node) := by
    intro hash node hlast
    have hlive := live_of_lastTouch hlast
    rw [← List.singleton_append, live_concat_removeNode, ← List.nil_append [_], live_concat_addNode] at hlive
    exact hlive.2.elim hlive.1 (not_live_nil node)
  obtain ⟨r, hstep⟩ := Ring.exists_step_removeNode ((newRing crc32Hasher 1).addNode sampleNode) sampleNode
  have hrun := hadd.snoc hstep
  have hpanic := (Ring.getNode_eq_none_iff (run_sorted hrun) (stringBytes "client-2")).mpr
    ((run_ring_eq_nil_iff hrun).mpr ⟨rfl, hnone⟩)
  refine ⟨r, hrun, hpanic, ?_⟩
  rw [← r.getNode_ne_none_iff]
  exact not_not.mpr hpanic

/-- The sample backend alone on a ring that was never rebuilt does not catch a hash above its point. -/
theorem sampleNode_getNode_above :
    ((newRing crc32Hasher 1).addNode sampleNode).getNode (stringBytes "client-1") = some "0:0" := by
  have hrun : Run Ring.Step (newRing crc32Hasher 1) [.addNode sampleNode]
      ((newRing crc32Hasher 1).addNode sampleNode) :=
    Run.single (Ring.Step.addNode _ sampleNode)
  have hpoint : ∀ hash, hash ∈ ((newRing crc32Hasher 1).addNode sampleNode).nodes →
      hash = 2903089360 := by
    intro hash hmem
    obtain ⟨node, hadd, hhash⟩ := (run_mem_nodes_of_no_removal hrun rfl hash).mp hmem
    obtain rfl : node = sampleNode := by simpa using hadd
    simpa [virtualHashes_sampleNode] using hhash
  rw [run_getNode_of_wrap hrun rfl (Or.inr fun hash hmem => ?_)]
  · rw [Finmap.lookup_eq_none.mpr fun hmem => absurd (hpoint 0 hmem) (by decide)]
    decide +kernel
  · rw [hpoint hash hmem]
    decide +kernel

/-- A request hash above the only point is routed to the zero address, which was never added. -/
theorem getNode_sampleNode_zero :
    Run Ring.Step (newRing crc32Hasher 1) [.addNode sampleNode]
        ((newRing crc32Hasher 1).addNode sampleNode) ∧
      Live [.addNode sampleNode] sampleNode ∧
      ((newRing crc32Hasher 1).addNode sampleNode).getNode (stringBytes "client-1") = some "0:0" ∧
      ¬ RoutesToLive [.addNode sampleNode]
        (((newRing crc32Hasher 1).addNode sampleNode).getNode (stringBytes "client-1")) := by
  refine ⟨Run.single (Ring.Step.addNode _ sampleNode), by decide, sampleNode_getNode_above, ?_⟩
  rw [sampleNode_getNode_above, routesToLive_iff]
  rintro ⟨node, hlive, hprint⟩
  obtain rfl : node = sampleNode := by
    simpa using (live_iff_mem_of_no_removal rfl node).mp hlive
  exact absurd hprint (by decide +kernel)

end GaleLB.Routing
