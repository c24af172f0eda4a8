import GaleLB.Common.LastWrite
import GaleLB.Routing.Ring

/-!
# The ring after an arbitrary history of calls

Every call touches exactly the virtual hashes of its node: adding writes the node
there, removing deletes. The map is therefore described by the last call touching each
hash. The slice holds the same hashes, except that it keeps its initial zero entries
until the first removal rebuilds it.
-/

namespace GaleLB.Routing

open Transition CyclicSearch LastWrite

/-- The hashes a call on `node` touches in a given ring. -/
def Ring.hashes (r : Ring) (node : AddrKey) : List UInt32 :=
  virtualHashes r.hasher r.numVirtualNodes node

/-- The insertion loop keeps the parameters, appends every hash and overwrites the map there. -/
theorem foldl_addVirtualNode (node : AddrKey) (indices : List ℕ) (r : Ring) :
    let r' := indices.foldl (Ring.addVirtualNode node) r
    r'.hasher = r.hasher ∧ r'.numVirtualNodes = r.numVirtualNodes ∧
      r'.ring = r.ring ++ indices.map (r.virtualHash node) ∧
      ∀ h, r'.nodes.lookup h =
        if h ∈ indices.map (r.virtualHash node) then some node else r.nodes.lookup h := by
  induction indices generalizing r with
  | nil => simp
  | cons i rest ih =>
    obtain ⟨hhasher, hnum, hring, hnodes⟩ := ih (r.addVirtualNode node i)
    refine ⟨hhasher, hnum, ?_, ?_⟩
    · rw [List.foldl_cons, hring]
      simp [Ring.addVirtualNode, Ring.virtualHash]
    · intro h
      rw [List.foldl_cons, hnodes h]
      change (if h ∈ rest.map (r.virtualHash node) then some node
        else (r.nodes.insert (r.virtualHash node i) node).lookup h) = _
      by_cases hrest : h ∈ rest.map (r.virtualHash node)
      · simp only [List.map_cons, List.mem_cons, hrest, or_true, if_true]
      · by_cases hi : h = r.virtualHash node i
        · subst hi
          simp [hrest]
        · rw [Finmap.lookup_insert_of_ne _ hi]
          simp only [hrest, if_false, List.map_cons, List.mem_cons, hi, or_false]

/-- The deletion loop keeps the parameters and clears the map at every hash. -/
theorem foldl_removeVirtualNode (node : AddrKey) (indices : List ℕ) (r : Ring) :
    let r' := indices.foldl (Ring.removeVirtualNode node) r
    r'.hasher = r.hasher ∧ r'.numVirtualNodes = r.numVirtualNodes ∧
      ∀ h, r'.nodes.lookup h =
        if h ∈ indices.map (r.virtualHash node) then none else r.nodes.lookup h := by
  induction indices generalizing r with
  | nil => simp
  | cons i rest ih =>
    obtain ⟨hhasher, hnum, hnodes⟩ := ih (r.removeVirtualNode node i)
    refine ⟨hhasher, hnum, ?_⟩
    intro h
    rw [List.foldl_cons, hnodes h]
    change (if h ∈ rest.map (r.virtualHash node) then none
      else (r.nodes.erase (r.virtualHash node i)).lookup h) = _
    by_cases hrest : h ∈ rest.map (r.virtualHash node)
    · simp only [List.map_cons, List.mem_cons, hrest, or_true, if_true]
    · by_cases hi : h = r.virtualHash node i
      · subst hi
        simp [hrest]
      · rw [Finmap.lookup_erase_ne hi]
        simp only [hrest, if_false, List.map_cons, List.mem_cons, hi, or_false]

/-- The deletions of a removal clear exactly the hashes of the node. -/
theorem Ring.lookup_removeVirtualNodes (r : Ring) (node : AddrKey) (hash : UInt32) :
    (r.removeVirtualNodes node).nodes.lookup hash =
      if hash ∈ r.hashes node then none else r.nodes.lookup hash := by
  obtain ⟨-, -, hnodes⟩ := foldl_removeVirtualNode node r.virtualIndices r
  exact hnodes hash

/-- Sorting keeps the members of a slice. -/
theorem mem_sortRing (ring : List UInt32) (h : UInt32) : h ∈ sortRing ring ↔ h ∈ ring :=
  (List.mergeSort_perm ring _).mem_iff

/-- Sorting produces a nondecreasing slice. -/
theorem sortRing_sorted (ring : List UInt32) : (sortRing ring).SortedLE :=
  List.sortedLE_mergeSort

/-- No call changes the hash function or the number of virtual nodes. -/
theorem Ring.Step.parameters {r r' : Ring} {call : Call} (h : Ring.Step r call r') :
    r'.hasher = r.hasher ∧ r'.numVirtualNodes = r.numVirtualNodes := by
  cases h with
  | addNode node =>
    obtain ⟨hhasher, hnum, -, -⟩ := foldl_addVirtualNode node r.virtualIndices r
    exact ⟨hhasher, hnum⟩
  | removeNode node iteration _ =>
    obtain ⟨hhasher, hnum, -⟩ := foldl_removeVirtualNode node r.virtualIndices r
    exact ⟨hhasher, hnum⟩

/-- A call writes its owner at the hashes of its node and leaves the rest of the map alone. -/
theorem Ring.Step.lookup {r r' : Ring} {call : Call} (h : Ring.Step r call r') (hash : UInt32) :
    r'.nodes.lookup hash =
      if hash ∈ r.hashes call.node then call.owner else r.nodes.lookup hash := by
  cases h with
  | addNode node =>
    obtain ⟨-, -, -, hnodes⟩ := foldl_addVirtualNode node r.virtualIndices r
    exact hnodes hash
  | removeNode node iteration _ => exact r.lookup_removeVirtualNodes node hash

/-- A call leaves the slice sorted. -/
theorem Ring.Step.sorted {r r' : Ring} {call : Call} (h : Ring.Step r call r') :
    r'.ring.SortedLE := by
  cases h <;> exact sortRing_sorted _

/-- After adding, the slice has gained the hashes of the node. -/
theorem Ring.mem_ring_addNode (r : Ring) (node : AddrKey) (hash : UInt32) :
    hash ∈ (r.addNode node).ring ↔ hash ∈ r.ring ∨ hash ∈ r.hashes node := by
  obtain ⟨-, -, hring, -⟩ := foldl_addVirtualNode node r.virtualIndices r
  change hash ∈ sortRing (r.virtualIndices.foldl (Ring.addVirtualNode node) r).ring ↔ _
  rw [mem_sortRing, hring, List.mem_append]
  rfl

/-- After removing, the slice holds exactly the keys of the map. -/
theorem Ring.mem_ring_removeNode (r : Ring) (node : AddrKey) (iteration : List UInt32)
    (h : MapIteration (r.removeVirtualNodes node).nodes iteration) (hash : UInt32) :
    hash ∈ (r.removeNode node iteration).ring ↔ hash ∈ (r.removeNode node iteration).nodes := by
  change hash ∈ sortRing iteration ↔ hash ∈ (r.removeVirtualNodes node).nodes
  rw [mem_sortRing]
  exact h.2 hash

/-- Every map can be iterated, so a removal always completes. -/
theorem Ring.exists_step_removeNode (r : Ring) (node : AddrKey) :
    ∃ r', Ring.Step r (.removeNode node) r' := by
  refine ⟨_, Ring.Step.removeNode r node (r.removeVirtualNodes node).nodes.keys.toList ?_⟩
  exact ⟨Finset.nodup_toList _, fun hash => by rw [Finset.mem_toList, Finmap.mem_keys]⟩

/-- A node is live when the last call about it added it. -/
def Live (calls : List Call) (node : AddrKey) : Prop :=
  lastMatch (fun call => decide (call.node = node)) calls = some (.addNode node)

instance (calls : List Call) (node : AddrKey) : Decidable (Live calls node) :=
  inferInstanceAs (Decidable (_ = _))

/-- No node is live before the first call. -/
theorem not_live_nil (node : AddrKey) : ¬ Live [] node := by
  simp [Live]

/-- Adding a node makes it live and keeps the others. -/
theorem live_concat_addNode (calls : List Call) (added node : AddrKey) :
    Live (calls ++ [.addNode added]) node ↔ added = node ∨ Live calls node := by
  unfold Live
  rw [lastMatch_concat]
  by_cases h : added = node
  · simp [h]
  · simp [h]

/-- Removing a node ends its life and keeps the others. -/
theorem live_concat_removeNode (calls : List Call) (removed node : AddrKey) :
    Live (calls ++ [.removeNode removed]) node ↔ removed ≠ node ∧ Live calls node := by
  unfold Live
  rw [lastMatch_concat]
  by_cases h : removed = node
  · simp [h]
  · simp [h]

/-- Whether a call touches a hash. -/
def touches (hasher : Hasher) (numVirtualNodes : ℤ) (hash : UInt32) (call : Call) : Bool :=
  decide (hash ∈ virtualHashes hasher numVirtualNodes call.node)

/-- A call touches the hashes of its node. -/
theorem touches_iff (hasher : Hasher) (numVirtualNodes : ℤ) (hash : UInt32) (call : Call) :
    touches hasher numVirtualNodes hash call = true ↔
      hash ∈ virtualHashes hasher numVirtualNodes call.node :=
  decide_eq_true_iff

/-- The last call of a history that wrote or deleted the map entry of a hash. -/
def lastTouch (hasher : Hasher) (numVirtualNodes : ℤ) (hash : UInt32) (calls : List Call) :
    Option Call :=
  lastMatch (touches hasher numVirtualNodes hash) calls

variable {hasher : Hasher} {numVirtualNodes : ℤ} {calls : List Call} {r : Ring}

/-- Runs keep the parameters of the ring, and its map is the last-write map of the history. -/
theorem run_parameters_lookup (hrun : Run Ring.Step (newRing hasher numVirtualNodes) calls r)
    (hash : UInt32) :
    (r.hasher = hasher ∧ r.numVirtualNodes = numVirtualNodes) ∧
      r.nodes.lookup hash = (lastTouch hasher numVirtualNodes hash calls).bind Call.owner := by
  have hlookup := lookup_run (I := fun r : Ring => r.hasher = hasher ∧ r.numVirtualNodes = numVirtualNodes)
    (fun r h => r.nodes.lookup h) (touches hasher numVirtualNodes) Call.owner
    (fun s e t hs hst => ⟨hst.parameters.1.trans hs.1, hst.parameters.2.trans hs.2⟩)
    (fun s e t hs hst k => by
      rw [hst.lookup k, Ring.hashes, hs.1, hs.2]
      simp [touches]) ⟨rfl, rfl⟩ hrun hash
  refine ⟨hlookup.1, hlookup.2.trans ?_⟩
  unfold lastTouch
  cases lastMatch (touches hasher numVirtualNodes hash) calls with
  | none => exact Finmap.lookup_empty hash
  | some call => rfl

/-- The map of a reached ring, read off the history. -/
theorem run_lookup (hrun : Run Ring.Step (newRing hasher numVirtualNodes) calls r) (hash : UInt32) :
    r.nodes.lookup hash = (lastTouch hasher numVirtualNodes hash calls).bind Call.owner :=
  (run_parameters_lookup hrun hash).2

/-- The hash function of a reached ring. -/
theorem run_hasher (hrun : Run Ring.Step (newRing hasher numVirtualNodes) calls r) :
    r.hasher = hasher :=
  (run_parameters_lookup hrun 0).1.1

/-- The number of virtual nodes of a reached ring. -/
theorem run_numVirtualNodes (hrun : Run Ring.Step (newRing hasher numVirtualNodes) calls r) :
    r.numVirtualNodes = numVirtualNodes :=
  (run_parameters_lookup hrun 0).1.2

/-- A hash is owned by a node exactly when the last call touching it added that node. -/
theorem run_lookup_eq_some_iff (hrun : Run Ring.Step (newRing hasher numVirtualNodes) calls r)
    (hash : UInt32) (node : AddrKey) :
    r.nodes.lookup hash = some node ↔
      lastTouch hasher numVirtualNodes hash calls = some (.addNode node) := by
  rw [run_lookup hrun]
  cases lastTouch hasher numVirtualNodes hash calls with
  | none => simp
  | some call => cases call <;> simp

/-- The slice of every reached ring is sorted. -/
theorem run_sorted (hrun : Run Ring.Step (newRing hasher numVirtualNodes) calls r) :
    r.ring.SortedLE := by
  cases hrun with
  | nil => exact List.sortedLE_replicate _
  | snoc _ hlast => exact hlast.sorted

/-- The slice holds the keys of the map, and zero until the first removal. -/
theorem run_mem_ring (hrun : Run Ring.Step (newRing hasher numVirtualNodes) calls r) (hash : UInt32) :
    hash ∈ r.ring ↔ hash ∈ r.nodes ∨ (calls.any Call.isRemoval = false ∧ hash = 0) := by
  induction hrun with
  | nil =>
    have hempty : hash ∉ (newRing hasher numVirtualNodes).nodes := Finmap.notMem_empty
    change hash ∈ List.replicate maxNumberVirtualNodeEntries 0 ↔ _
    rw [List.mem_replicate]
    simp [hempty, maxNumberVirtualNodeEntries]
  | @snoc calls r r' call hrun hlast ih =>
    have hmem : hash ∈ r'.nodes ↔ (r'.nodes.lookup hash).isSome := Finmap.lookup_isSome.symm
    have hmem' : hash ∈ r.nodes ↔ (r.nodes.lookup hash).isSome := Finmap.lookup_isSome.symm
    have hlookup := hlast.lookup hash
    cases hlast with
    | addNode node =>
      rw [Ring.mem_ring_addNode, ih, hmem, hlookup, hmem']
      by_cases hhash : hash ∈ r.hashes node
      · simp [hhash]
      · simp [hhash]
    | removeNode node iteration h =>
      rw [Ring.mem_ring_removeNode r node iteration h]
      simp

/-- After a removal the slice holds exactly the keys of the map. -/
theorem run_mem_ring_of_removal (hrun : Run Ring.Step (newRing hasher numVirtualNodes) calls r)
    (hremoval : calls.any Call.isRemoval = true) (hash : UInt32) :
    hash ∈ r.ring ↔ hash ∈ r.nodes := by
  simp [run_mem_ring hrun hash, hremoval]

/-- The last call touching a hash is a call of the history. -/
theorem mem_of_lastTouch {hash : UInt32} {call : Call}
    (h : lastTouch hasher numVirtualNodes hash calls = some call) : call ∈ calls := by
  unfold lastTouch at h
  exact mem_of_lastMatch h

/-- The last call touching a hash has it among the hashes of its node. -/
theorem mem_virtualHashes_of_lastTouch {hash : UInt32} {call : Call}
    (h : lastTouch hasher numVirtualNodes hash calls = some call) :
    hash ∈ virtualHashes hasher numVirtualNodes call.node := by
  exact (touches_iff hasher numVirtualNodes hash call).mp (lastMatch_satisfies h)

/-- Whoever wrote a hash last is live: removing it later would have touched the hash again. -/
theorem live_of_lastTouch {hash : UInt32} {node : AddrKey}
    (h : lastTouch hasher numVirtualNodes hash calls = some (.addNode node)) : Live calls node := by
  have hhash := mem_virtualHashes_of_lastTouch h
  refine lastMatch_of_imp h (by simp) ?_
  intro call hcall
  have hnode : call.node = node := by simpa using hcall
  rw [touches_iff, hnode]
  exact hhash

end GaleLB.Routing
