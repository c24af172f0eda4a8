import GaleLB.Routing.LoadShare

/-!
# How many keys a membership change moves

On a ring that was rebuilt, a node that joins takes over the keys that fall on its points and
no others, and a node that leaves gives up the keys that it had and no others. With the
production hash function the number of keys that change their answer is therefore known
exactly: it is the share of the node, on the ring that has the node.
-/

namespace GaleLB.Routing

open Transition CyclicSearch

variable {hasher : Hasher} {numVirtualNodes : ℤ} {calls : List Call} {r r' : Ring} {node : AddrKey}

/-- On a rebuilt ring with a point left, every key is answered with a live node. -/
theorem run_exists_live_answer (hrun : Run Ring.Step (newRing hasher numVirtualNodes) calls r)
    (hremoval : calls.any Call.isRemoval = true) (hne : r.ring ≠ []) (key : List UInt8) :
    ∃ owner, Live calls owner ∧ r.getNode key = some (addrToString owner) := by
  obtain ⟨owner, k, hk, howner⟩ := run_exists_routesTo hrun hremoval hne (hasher key)
  exact ⟨owner, (run_live_of_lookup hrun howner).1, run_getNode_of_routesTo hrun hremoval ⟨k, hk, howner⟩⟩

/-- A ring with entries has entries after a node joined. -/
theorem Ring.ring_addNode_ne_nil (r : Ring) (hne : r.ring ≠ []) (node : AddrKey) : (r.addNode node).ring ≠ [] := by
  obtain ⟨hash, hmem⟩ := List.exists_mem_of_ne_nil r.ring hne
  exact List.ne_nil_of_mem ((r.mem_ring_addNode node hash).mpr (Or.inl hmem))

/-- A key that does not fall on a point of the node that joins is routed as before. -/
theorem routesTo_of_addNode {hash : UInt32} {owner : AddrKey} (h : RoutesTo (r.addNode node).nodes hash owner)
    (hother : owner ≠ node) : RoutesTo r.nodes hash owner := by
  obtain ⟨k, hk, howner⟩ := h
  have hlookup := fun x => (Ring.Step.addNode r node).lookup x
  have hold : r.nodes.lookup k = some owner := by
    rw [hlookup, Call.node_addNode] at howner
    split_ifs at howner with hhash
    · exact absurd (Option.some.inj howner).symm hother
    · exact howner
  have hsub : ∀ x, x ∈ r.nodes → x ∈ (r.addNode node).nodes := by
    intro x hx
    obtain ⟨owner', howner'⟩ := Finmap.mem_iff.mp hx
    rw [Finmap.mem_iff, hlookup]
    split_ifs
    · exact ⟨_, rfl⟩
    · exact ⟨owner', howner'⟩
  exact ⟨k, hk.subset hsub (Finmap.mem_of_lookup_eq_some hold), hold⟩

/-- When a node joins a rebuilt ring, the keys that change their answer are those that the node takes over. -/
theorem getNode_addNode_ne_iff (hrun : Run Ring.Step (newRing hasher numVirtualNodes) calls r)
    (hremoval : calls.any Call.isRemoval = true) (hne : r.ring ≠ [])
    (hnew : ∀ other, Live calls other → addrToString other ≠ addrToString node) (key : List UInt8) :
    (r.addNode node).getNode key ≠ r.getNode key ↔ (r.addNode node).getNode key = some (addrToString node) := by
  have hjoined := hrun.snoc (Ring.Step.addNode r node)
  have hne' : (r.addNode node).ring ≠ [] := r.ring_addNode_ne_nil hne node
  have hremoval' : (calls ++ [Call.addNode node]).any Call.isRemoval = true := by
    rw [List.any_append, hremoval]
    rfl
  obtain ⟨owner, hroutes⟩ := run_exists_routesTo hjoined hremoval' hne' (hasher key)
  have hafter := run_getNode_of_routesTo hjoined hremoval' hroutes
  constructor
  · intro hmoved
    by_contra hnot
    have hother : owner ≠ node := by
      rintro rfl
      exact hnot hafter
    exact hmoved (hafter.trans (run_getNode_of_routesTo hrun hremoval (routesTo_of_addNode hroutes hother)).symm)
  · intro htaken hsame
    obtain ⟨old, hlive, hbefore⟩ := run_exists_live_answer hrun hremoval hne key
    rw [htaken, hbefore, Option.some.injEq] at hsame
    exact hnew old hlive hsame.symm

/-- When a node leaves a rebuilt ring, the keys that change their answer are those that the node had. -/
theorem getNode_removeNode_ne_iff (hrun : Run Ring.Step (newRing hasher numVirtualNodes) calls r)
    (hremoval : calls.any Call.isRemoval = true) (hne : r.ring ≠ [])
    (hown : ∀ hash ∈ virtualHashes hasher numVirtualNodes node,
      r.nodes.lookup hash = none ∨ r.nodes.lookup hash = some node)
    (hothers : ∀ other, Live calls other → other ≠ node → addrToString other ≠ addrToString node)
    (hstep : Ring.Step r (.removeNode node) r') (key : List UInt8) :
    r'.getNode key ≠ r.getNode key ↔ r.getNode key = some (addrToString node) := by
  have hleft := hrun.snoc hstep
  have hremoval' : (calls ++ [Call.removeNode node]).any Call.isRemoval = true := by
    rw [List.any_append, hremoval]
    rfl
  obtain ⟨owner, k, hk, howner⟩ := run_exists_routesTo hrun hremoval hne (hasher key)
  have hbefore := run_getNode_of_routesTo hrun hremoval ⟨k, hk, howner⟩
  constructor
  · intro hmoved
    by_contra hnot
    have hother : owner ≠ node := by
      rintro rfl
      exact hnot hbefore
    rw [← run_hasher hrun, ← run_numVirtualNodes hrun] at hown
    have howner' := hstep.lookup_removeNode hown hother howner
    have hk' := hk.subset (fun _ => hstep.mem_of_mem_removeNode) (Finmap.mem_of_lookup_eq_some howner')
    exact hmoved ((run_getNode_of_routesTo hleft hremoval' ⟨k, hk', howner'⟩).trans hbefore.symm)
  · intro hhad hsame
    have hne' : r'.ring ≠ [] := by
      intro hnil
      rw [(Ring.getNode_eq_none_iff (run_sorted hleft) key).mpr hnil, hhad] at hsame
      cases hsame
    obtain ⟨next, hlive, hafter⟩ := run_exists_live_answer hleft hremoval' hne' key
    obtain ⟨hother, hlive'⟩ := (live_concat_removeNode calls node next).mp hlive
    rw [hafter, hhad, Option.some.injEq] at hsame
    exact hothers next hlive' hother.symm hsame

/-- When a node joins a rebuilt ring, then of all keys with four bytes left open as many change their answer as
there are hashes on the arcs in front of the entries of the new node. -/
theorem join_reroutes_share (hrun : Run Ring.Step (newRing crc32Hasher numVirtualNodes) calls r)
    (hremoval : calls.any Call.isRemoval = true) (hne : r.ring ≠ [])
    (hnew : ∀ other, Live calls other → addrToString other ≠ addrToString node) (before after : List UInt8) :
    {w : List UInt8 | w.length = 4 ∧
      (r.addNode node).getNode (before ++ w ++ after) ≠ r.getNode (before ++ w ++ after)}.ncard =
    ∑ i ∈ Finset.range (r.addNode node).ring.length with (r.addNode node).answerAt i = addrToString node,
      arc position (r.addNode node).ring 0 i := by
  have hjoined := hrun.snoc (Ring.Step.addNode r node)
  have hne' : (r.addNode node).ring ≠ [] := r.ring_addNode_ne_nil hne node
  simp only [getNode_addNode_ne_iff hrun hremoval hne hnew]
  rw [ncard_answered hjoined hne']
  exact ncard_wrapIndex_of position (run_sorted hjoined) hne' fun i =>
    (r.addNode node).answerAt i = addrToString node

/-- The other backend takes over the hashes up to its point and those behind the point of the sample backend. -/
theorem join_reroutes_rebuiltRing :
    {w : List UInt8 | w.length = 4 ∧
      (rebuiltRing.addNode otherNode).getNode ([] ++ w ++ []) ≠ rebuiltRing.getNode ([] ++ w ++ [])}.ncard =
    2 ^ 32 - (2903089360 - 1638113358) := by
  have hnew : ∀ other, Live rebuiltCalls other → addrToString other ≠ addrToString otherNode := by
    intro other hlive
    rw [rebuiltCalls_eq_concat] at hlive
    simp only [live_concat_addNode, live_concat_removeNode, not_live_nil, or_false, ne_eq] at hlive
    obtain rfl | ⟨hne, heq⟩ := hlive
    · exact addrToString_otherNode_ne.symm
    · exact absurd heq hne
  have hne : rebuiltRing.ring ≠ [] :=
    List.ne_nil_of_mem ((run_mem_ring_of_removal run_rebuiltRing (by decide) _).mpr mem_nodes_rebuiltRing)
  rw [join_reroutes_share run_rebuiltRing (by decide) hne hnew]
  change ∑ i ∈ Finset.range joinedRing.ring.length with joinedRing.answerAt i = addrToString otherNode,
    arc position joinedRing.ring 0 i = _
  rw [ring_joinedRing, Finset.sum_filter]
  change ∑ i ∈ Finset.range 2, _ = _
  rw [Finset.sum_range_succ, Finset.sum_range_one, answerAt_joinedRing_zero, answerAt_joinedRing_one,
    if_pos rfl, if_neg addrToString_otherNode_ne.symm]
  rfl

/-- When a node that owns its points leaves a rebuilt ring, then of all keys with four bytes left open as many
change their answer as there were hashes on the arcs in front of the entries of the node. -/
theorem leave_reroutes_share (hrun : Run Ring.Step (newRing crc32Hasher numVirtualNodes) calls r)
    (hremoval : calls.any Call.isRemoval = true) (hne : r.ring ≠ [])
    (hown : ∀ hash ∈ virtualHashes crc32Hasher numVirtualNodes node,
      r.nodes.lookup hash = none ∨ r.nodes.lookup hash = some node)
    (hothers : ∀ other, Live calls other → other ≠ node → addrToString other ≠ addrToString node)
    (hstep : Ring.Step r (.removeNode node) r') (before after : List UInt8) :
    {w : List UInt8 | w.length = 4 ∧
      r'.getNode (before ++ w ++ after) ≠ r.getNode (before ++ w ++ after)}.ncard =
    ∑ i ∈ Finset.range r.ring.length with r.answerAt i = addrToString node, arc position r.ring 0 i := by
  simp only [getNode_removeNode_ne_iff hrun hremoval hne hown hothers hstep]
  rw [ncard_answered hrun hne]
  exact ncard_wrapIndex_of position (run_sorted hrun) hne fun i => r.answerAt i = addrToString node

/-- The other backend gives up what it took over. -/
theorem leave_reroutes_joinedRing :
    ∃ r', Ring.Step joinedRing (.removeNode otherNode) r' ∧
      {w : List UInt8 | w.length = 4 ∧ r'.getNode ([] ++ w ++ []) ≠ joinedRing.getNode ([] ++ w ++ [])}.ncard =
        2 ^ 32 - (2903089360 - 1638113358) := by
  obtain ⟨r', hstep⟩ := joinedRing.exists_step_removeNode otherNode
  have hown : ∀ hash ∈ virtualHashes crc32Hasher 1 otherNode,
      joinedRing.nodes.lookup hash = none ∨ joinedRing.nodes.lookup hash = some otherNode := by
    rw [virtualHashes_otherNode]
    intro hash hmem
    rw [List.mem_singleton.mp hmem]
    exact Or.inr ((run_lookup_eq_some_iff run_joinedRing _ _).mpr (by decide +kernel))
  have hothers : ∀ other, Live joinedCalls other → other ≠ otherNode →
      addrToString other ≠ addrToString otherNode := by
    intro other hlive hne
    rw [joinedCalls, rebuiltCalls_eq_concat] at hlive
    simp only [live_concat_addNode, live_concat_removeNode, not_live_nil, or_false, ne_eq] at hlive
    obtain rfl | rfl | ⟨hne', heq⟩ := hlive
    · exact absurd rfl hne
    · exact addrToString_otherNode_ne.symm
    · exact absurd heq hne'
  refine ⟨r', hstep, ?_⟩
  rw [leave_reroutes_share run_joinedRing (by decide) ring_joinedRing_ne_nil hown hothers hstep, ring_joinedRing,
    Finset.sum_filter]
  change ∑ i ∈ Finset.range 2, _ = _
  rw [Finset.sum_range_succ, Finset.sum_range_one, answerAt_joinedRing_zero, answerAt_joinedRing_one,
    if_pos rfl, if_neg addrToString_otherNode_ne.symm]
  rfl

end GaleLB.Routing
