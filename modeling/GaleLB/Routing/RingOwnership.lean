import GaleLB.Routing.RingHistory
import GaleLB.Routing.Hashing

/-!
# Which node owns which point

The map is keyed by hash alone. A live node owns all of its points exactly when no call
made after its last addition concerns another node that shares a hash with it: adding
such a node overwrites the shared point, removing it deletes the point. With the
production hash function such pairs of nodes exist.
-/

namespace GaleLB.Routing

open Transition LastWrite

variable {hasher : Hasher} {numVirtualNodes : ℤ} {calls : List Call} {r r' : Ring}

/-- After the last addition of `node` no call touches one of its points. -/
def Undisturbed (hasher : Hasher) (numVirtualNodes : ℤ) (calls : List Call) (node : AddrKey) : Prop :=
  ∀ before after, calls = before ++ .addNode node :: after → (∀ call ∈ after, call.node ≠ node) →
    ∀ call ∈ after, ∀ hash ∈ virtualHashes hasher numVirtualNodes call.node,
      hash ∉ virtualHashes hasher numVirtualNodes node

/-- The map holds every point of every live node under its owner, and nothing else. -/
def OwnsAllPoints (hasher : Hasher) (numVirtualNodes : ℤ) (calls : List Call) (r : Ring) : Prop :=
  ∀ hash node, r.nodes.lookup hash = some node ↔
    Live calls node ∧ hash ∈ virtualHashes hasher numVirtualNodes node

/-- Whatever the map holds is a point of a live node. -/
theorem run_live_of_lookup (hrun : Run Ring.Step (newRing hasher numVirtualNodes) calls r)
    {hash : UInt32} {node : AddrKey} (h : r.nodes.lookup hash = some node) :
    Live calls node ∧ hash ∈ virtualHashes hasher numVirtualNodes node := by
  have hlast := (run_lookup_eq_some_iff hrun hash node).mp h
  have hhash := mem_virtualHashes_of_lastTouch hlast
  exact ⟨live_of_lastTouch hlast, hhash⟩

/-- The last call about a live node is its last addition. -/
theorem Live.split {node : AddrKey} (h : Live calls node) :
    ∃ before after, calls = before ++ .addNode node :: after ∧ ∀ call ∈ after, call.node ≠ node := by
  unfold Live at h
  obtain ⟨before, after, hcalls, -, hafter⟩ := (lastMatch_eq_some_iff _ _ _).mp h
  exact ⟨before, after, hcalls, fun call hcall => by simpa using hafter call hcall⟩

/-- An undisturbed live node is the last writer of each of its points. -/
theorem lastTouch_of_undisturbed {node : AddrKey} {hash : UInt32} (hlive : Live calls node)
    (hquiet : Undisturbed hasher numVirtualNodes calls node)
    (hhash : hash ∈ virtualHashes hasher numVirtualNodes node) :
    lastTouch hasher numVirtualNodes hash calls = some (.addNode node) := by
  obtain ⟨before, after, rfl, hafter⟩ := hlive.split
  have hquiet := hquiet before after rfl hafter
  refine (lastMatch_eq_some_iff _ _ _).mpr ⟨before, after, rfl, (touches_iff ..).mpr hhash, ?_⟩
  intro call hcall
  rw [← Bool.not_eq_true, touches_iff]
  exact fun htouch => hquiet call hcall hash htouch hhash

/-- A node that is the last writer of each of its points was not disturbed. -/
theorem undisturbed_of_lastTouch {node : AddrKey}
    (hlast : ∀ hash ∈ virtualHashes hasher numVirtualNodes node,
      lastTouch hasher numVirtualNodes hash calls = some (.addNode node)) :
    Undisturbed hasher numVirtualNodes calls node := by
  rintro before after rfl hafter call hcall hash htouch hhash
  have hsplit : before ++ .addNode node :: after = (before ++ [.addNode node]) ++ after := by simp
  have hlater := hlast hash hhash
  rw [lastTouch, hsplit, lastMatch_append_of_mem _ hcall ((touches_iff ..).mpr htouch)] at hlater
  exact hafter _ (mem_of_lastMatch hlater) rfl

/-- Every live node owns all of its points exactly when none was disturbed. -/
theorem run_ownsAllPoints_iff (hrun : Run Ring.Step (newRing hasher numVirtualNodes) calls r) :
    OwnsAllPoints hasher numVirtualNodes calls r ↔
      ∀ node, Live calls node → Undisturbed hasher numVirtualNodes calls node := by
  constructor
  · intro howns node hlive
    refine undisturbed_of_lastTouch fun hash hhash => ?_
    exact (run_lookup_eq_some_iff hrun hash node).mp ((howns hash node).mpr ⟨hlive, hhash⟩)
  · intro hquiet hash node
    refine ⟨run_live_of_lookup hrun, fun ⟨hlive, hhash⟩ => ?_⟩
    exact (run_lookup_eq_some_iff hrun hash node).mpr
      (lastTouch_of_undisturbed hlive (hquiet node hlive) hhash)

/-- A call takes no point from another node exactly when it touches none of its points. -/
theorem Ring.Step.keeps_points_iff {call : Call} (h : Ring.Step r call r') {node : AddrKey}
    (hne : call.node ≠ node) :
    (∀ hash, r.nodes.lookup hash = some node → r'.nodes.lookup hash = some node) ↔
      ∀ hash, r.nodes.lookup hash = some node → hash ∉ r.hashes call.node := by
  refine forall_congr' fun hash => imp_congr_right fun howned => ?_
  rw [h.lookup hash]
  by_cases htouch : hash ∈ r.hashes call.node
  · have howner : call.owner ≠ some node := by
      cases call with
      | addNode node' => simpa using hne
      | removeNode node' => simp
    simp [htouch, howner]
  · simp [htouch, howned]

/-- Over every run with the production hash function: the map is exactly the points of the
live nodes when no live node was disturbed, and a further call takes a point from another
node exactly when it touches a point that node owns. -/
theorem crc32_ownership_iff
    (hrun : Run Ring.Step (newRing crc32Hasher numVirtualNodes) calls r) :
    (OwnsAllPoints crc32Hasher numVirtualNodes calls r ↔
      ∀ node, Live calls node → Undisturbed crc32Hasher numVirtualNodes calls node) ∧
    ∀ call r', Ring.Step r call r' → ∀ node, call.node ≠ node →
      ((∀ hash, r.nodes.lookup hash = some node → r'.nodes.lookup hash = some node) ↔
        ∀ hash, r.nodes.lookup hash = some node →
          hash ∉ virtualHashes crc32Hasher numVirtualNodes call.node) := by
  refine ⟨run_ownsAllPoints_iff hrun, fun call r' hstep node hne => ?_⟩
  have hkeeps := hstep.keeps_points_iff hne
  rwa [Ring.hashes, run_hasher hrun, run_numVirtualNodes hrun] at hkeeps

/-- A backend at 192.168.209.121:6014. -/
def leftNode : AddrKey := ⟨3232289145, 6014, 0⟩

/-- A backend at 192.168.29.233:7439, whose first virtual node collides with that of `leftNode`. -/
def rightNode : AddrKey := ⟨3232243177, 7439, 0⟩

/-- The two backends share the only point they have on a ring with one virtual node each. -/
theorem virtualHashes_collide : virtualHashes crc32Hasher 1 leftNode = [1336704168] ∧
    virtualHashes crc32Hasher 1 rightNode = [1336704168] := by
  decide +kernel

/-- Alone on the ring the left backend owns its point; adding the right backend takes it away. -/
theorem crc32_ownership_collision :
    OwnsAllPoints crc32Hasher 1 [.addNode leftNode] ((newRing crc32Hasher 1).addNode leftNode) ∧
      ¬ ∀ hash, ((newRing crc32Hasher 1).addNode leftNode).nodes.lookup hash = some leftNode →
        (((newRing crc32Hasher 1).addNode leftNode).addNode rightNode).nodes.lookup hash =
          some leftNode := by
  have hrun : Run Ring.Step (newRing crc32Hasher 1) [.addNode leftNode]
      ((newRing crc32Hasher 1).addNode leftNode) := Run.single (Ring.Step.addNode _ leftNode)
  obtain ⟨howns, hkeeps⟩ := crc32_ownership_iff hrun
  have hall := howns.mpr <| by
    intro node _ before after hcalls _ call hcall
    have hlength := congrArg List.length hcalls
    have hpos := List.length_pos_of_mem hcall
    simp only [List.length_append, List.length_cons, List.length_nil] at hlength
    omega
  refine ⟨hall, fun hkept => ?_⟩
  have htouched := (hkeeps _ _ (Ring.Step.addNode _ rightNode) leftNode (by decide)).mp hkept
  refine htouched 1336704168 ((hall _ _).mpr ⟨by decide, ?_⟩) ?_
  · simp [virtualHashes_collide.1]
  · simp [virtualHashes_collide.2]

/-- With both backends live, the left one owns none of its points. -/
theorem crc32_ownership_fails :
    Run Ring.Step (newRing crc32Hasher 1) [.addNode leftNode, .addNode rightNode]
        (((newRing crc32Hasher 1).addNode leftNode).addNode rightNode) ∧
      ¬ OwnsAllPoints crc32Hasher 1 [.addNode leftNode, .addNode rightNode]
        (((newRing crc32Hasher 1).addNode leftNode).addNode rightNode) := by
  have hleft := Ring.Step.addNode (newRing crc32Hasher 1) leftNode
  have hright := Ring.Step.addNode ((newRing crc32Hasher 1).addNode leftNode) rightNode
  refine ⟨(Run.single hleft).snoc hright, fun howns => ?_⟩
  have hlost := (howns 1336704168 leftNode).mpr
    ⟨by decide, by simp [virtualHashes_collide.1]⟩
  have htouch : (1336704168 : UInt32) ∈ ((newRing crc32Hasher 1).addNode leftNode).hashes rightNode := by
    rw [Ring.hashes, hleft.parameters.1, hleft.parameters.2]
    change _ ∈ virtualHashes crc32Hasher 1 rightNode
    simp [virtualHashes_collide.2]
  rw [hright.lookup, Call.node_addNode, if_pos htouch] at hlost
  exact absurd hlost (by decide)

end GaleLB.Routing
