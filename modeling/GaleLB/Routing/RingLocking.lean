import GaleLB.Common.GuardedObject
import GaleLB.Routing.RingLookup

/-!
# Concurrent calls on the ring

Nodes join and leave while requests are being routed. `addNode` and `removeNode` hold the
lock of the ring for writing, through their loops and until the slice is sorted; `getNode`
holds it for reading, through its binary search. The calls are cut here into the steps
between which other goroutines may run: every iteration of a loop, and within `addNode` the
two updates of an iteration.

The lock makes them atomic. Whatever the interleaving, the ring goes through the states of
the calls one after the other, so everything that holds after every sequence of calls holds
for concurrent ones, and each lookup answers from one of those states.
-/

namespace GaleLB.Routing

open Transition Locking CyclicSearch

/-- The calls on a ring. -/
inductive RingOp where
  | addNode (node : AddrKey)
  | removeNode (node : AddrKey)
  | getNode (requestKey : List UInt8)
deriving DecidableEq

/-- What a call returns; a lookup that panics answers `none`. -/
inductive RingResult where
  | done
  | answer (node : Option String)
deriving DecidableEq, Repr

/-- Where a call is. -/
inductive RingPc where
  | appending (node : AddrKey) (i : ℕ)
  | mapping (node : AddrKey) (i : ℕ) (hash : UInt32)
  | deleting (node : AddrKey) (i : ℕ)
  | rebuilding
  | hashing (requestKey : List UInt8)
  | searching (hash : UInt32) (i j : ℕ)
  | indexing (i : ℕ)
  | finished (result : RingResult)
deriving DecidableEq

/-- How a call takes the lock. -/
def RingOp.mode : RingOp → Mode
  | .getNode _ => .read
  | _ => .write

/-- Where a call begins. -/
def RingOp.start : RingOp → RingPc
  | .addNode node => .appending node 0
  | .removeNode node => .deleting node 0
  | .getNode requestKey => .hashing requestKey

/-- The call as a change of the ring. -/
def RingOp.call : RingOp → Option Call
  | .addNode node => some (.addNode node)
  | .removeNode node => some (.removeNode node)
  | .getNode _ => none

/-- One step of a call. The input is the key that the `range` over the map visits next. -/
def Ring.micro : RingPc × Ring → Option UInt32 → Option (RingPc × Ring)
  | (.appending node i, r), none =>
    if i < r.numVirtualNodes.toNat then
      some (.mapping node i (r.virtualHash node i), { r with ring := r.ring ++ [r.virtualHash node i] })
    else some (.finished .done, { r with ring := sortRing r.ring })
  | (.mapping node i hash, r), none =>
    some (.appending node (i + 1), { r with nodes := r.nodes.insert hash node })
  | (.deleting node i, r), none =>
    if i < r.numVirtualNodes.toNat then some (.deleting node (i + 1), Ring.removeVirtualNode node r i)
    else some (.rebuilding, { r with ring := [] })
  | (.rebuilding, r), some hash =>
    if hash ∈ r.nodes ∧ hash ∉ r.ring then some (.rebuilding, { r with ring := r.ring ++ [hash] }) else none
  | (.rebuilding, r), none =>
    -- The loop is over when it has visited every key.
    if r.nodes.keys ⊆ r.ring.toFinset then
      some (.finished .done, { r with ring := sortRing r.ring })
    else none
  | (.hashing requestKey, r), none => some (.searching (r.hasher requestKey) 0 r.ring.length, r)
  | (.searching hash i j, r), none =>
    if i < j then
      let h := (i + j) / 2
      if hash ≤ r.ring.getD h 0 then some (.searching hash i h, r) else some (.searching hash (h + 1) j, r)
    else some (.indexing (if i = r.ring.length then 0 else i), r)
  | (.indexing i, r), none =>
    some (.finished (.answer (r.ring[i]?.map fun h => addrToString ((r.nodes.lookup h).getD AddrKey.zero))), r)
  | _, _ => none

/-- What a call returns once it is finished. -/
def RingPc.result : RingPc → Option RingResult
  | .finished result => some result
  | _ => none

/-- The calls on a ring as programs behind its lock. -/
def ringProgram : Program Ring RingOp RingPc (Option UInt32) RingResult where
  mode := RingOp.mode
  start := RingOp.start
  micro := Ring.micro
  result := RingPc.result

/-- The test of the binary search. -/
def Ring.reaches (r : Ring) (hash : UInt32) (i : ℕ) : Bool := decide (hash ≤ r.ring.getD i 0)

/-- Where a call can be, and what it has made of the ring, after it started on `r` and nobody interfered. -/
inductive Ring.Progress (r : Ring) : RingOp → RingPc → Ring → Prop
  | appending (node : AddrKey) (i : ℕ) (hi : i ≤ r.numVirtualNodes.toNat) :
      Progress r (.addNode node) (.appending node i) ((List.range i).foldl (Ring.addVirtualNode node) r)
  | mapping (node : AddrKey) (i : ℕ) (t : Ring) (hi : i < r.numVirtualNodes.toNat)
      (ht : t = (List.range i).foldl (Ring.addVirtualNode node) r) :
      Progress r (.addNode node) (.mapping node i (t.virtualHash node i))
        { t with ring := t.ring ++ [t.virtualHash node i] }
  | added (node : AddrKey) : Progress r (.addNode node) (.finished .done) (r.addNode node)
  | deleting (node : AddrKey) (i : ℕ) (hi : i ≤ r.numVirtualNodes.toNat) :
      Progress r (.removeNode node) (.deleting node i) ((List.range i).foldl (Ring.removeVirtualNode node) r)
  | rebuilding (node : AddrKey) (visited : List UInt32) (hnodup : visited.Nodup)
      (hmem : ∀ hash ∈ visited, hash ∈ (r.removeVirtualNodes node).nodes) :
      Progress r (.removeNode node) .rebuilding { r.removeVirtualNodes node with ring := visited }
  | removed (node : AddrKey) (iteration : List UInt32)
      (h : MapIteration (r.removeVirtualNodes node).nodes iteration) :
      Progress r (.removeNode node) (.finished .done) (r.removeNode node iteration)
  | hashing (key : List UInt8) : Progress r (.getNode key) (.hashing key) r
  | searching (key : List UInt8) (i j : ℕ)
      (h : searchLoop (r.reaches (r.hasher key)) i j = search r.ring.length (r.reaches (r.hasher key))) :
      Progress r (.getNode key) (.searching (r.hasher key) i j) r
  | indexing (key : List UInt8) : Progress r (.getNode key) (.indexing (wrapIndex r.ring (r.hasher key) 0)) r
  | answered (key : List UInt8) : Progress r (.getNode key) (.finished (.answer (r.getNode key))) r

/-- A step of a call makes progress. -/
theorem Ring.Progress.micro {r t u : Ring} {op : RingOp} {pc pc' : RingPc} {input : Option UInt32}
    (h : Ring.Progress r op pc t) (hmicro : Ring.micro (pc, t) input = some (pc', u)) :
    Ring.Progress r op pc' u := by
  cases h with
  | appending node i hi =>
    cases input with
    | some hash => cases hmicro
    | none =>
      obtain ⟨-, hnum, -, -⟩ := foldl_addVirtualNode node (List.range i) r
      simp only [Ring.micro] at hmicro
      split at hmicro
      case isTrue hloop =>
        cases hmicro
        exact .mapping node i _ (hnum ▸ hloop) rfl
      case isFalse hloop =>
        cases hmicro
        rw [hnum] at hloop
        obtain rfl := Nat.le_antisymm hi (Nat.le_of_not_lt hloop)
        exact .added node
  | mapping node i t hi ht =>
    cases input with
    | some hash => cases hmicro
    | none =>
      have hnext : (List.range (i + 1)).foldl (Ring.addVirtualNode node) r = Ring.addVirtualNode node t i := by
        rw [List.range_succ, List.foldl_append, ← ht]
        rfl
      cases hmicro
      change Ring.Progress r _ _ (Ring.addVirtualNode node t i)
      rw [← hnext]
      exact .appending node (i + 1) hi
  | added node => cases input <;> cases hmicro
  | deleting node i hi =>
    cases input with
    | some hash => cases hmicro
    | none =>
      obtain ⟨-, hnum, -⟩ := foldl_removeVirtualNode node (List.range i) r
      simp only [Ring.micro] at hmicro
      split at hmicro
      case isTrue hloop =>
        cases hmicro
        have hnext : (List.range (i + 1)).foldl (Ring.removeVirtualNode node) r =
            Ring.removeVirtualNode node ((List.range i).foldl (Ring.removeVirtualNode node) r) i := by
          rw [List.range_succ, List.foldl_append]
          rfl
        rw [← hnext]
        exact .deleting node (i + 1) (hnum ▸ hloop)
      case isFalse hloop =>
        cases hmicro
        rw [hnum] at hloop
        obtain rfl := Nat.le_antisymm hi (Nat.le_of_not_lt hloop)
        exact .rebuilding node [] List.nodup_nil nofun
  | rebuilding node visited hnodup hmem =>
    cases input with
    | some hash =>
      obtain ⟨⟨hkey, hfresh⟩, heq⟩ := Option.ite_none_right_eq_some.mp hmicro
      cases heq
      have hnodup' : (visited ++ [hash]).Nodup := by
        rw [← List.concat_eq_append]
        exact hnodup.concat hfresh
      refine .rebuilding node (visited ++ [hash]) hnodup' fun hash' hmem' => ?_
      rcases List.mem_append.mp hmem' with hold | hnew
      · exact hmem hash' hold
      · rw [List.mem_singleton.mp hnew]
        exact hkey
    | none =>
      obtain ⟨hall, heq⟩ := Option.ite_none_right_eq_some.mp hmicro
      cases heq
      refine .removed node visited ⟨hnodup, fun hash => ⟨hmem hash, fun hkey => ?_⟩⟩
      exact List.mem_toFinset.mp (hall (Finmap.mem_keys.mpr hkey))
  | removed node iteration h => cases input <;> cases hmicro
  | hashing key =>
    cases input with
    | some hash => cases hmicro
    | none =>
      cases hmicro
      exact .searching key 0 _ rfl
  | searching key i j h =>
    cases input with
    | some hash => cases hmicro
    | none =>
      rw [searchLoop] at h
      simp only [Ring.micro] at hmicro
      split at hmicro
      case isTrue hloop =>
        rw [if_pos hloop] at h
        simp only [Ring.reaches, decide_eq_true_eq] at h
        split at hmicro
        case isTrue htest =>
          cases hmicro
          rw [if_pos htest] at h
          exact .searching key i _ h
        case isFalse htest =>
          cases hmicro
          rw [if_neg htest] at h
          exact .searching key _ j h
      case isFalse hloop =>
        cases hmicro
        rw [if_neg hloop] at h
        have hindex : (if i = r.ring.length then 0 else i) = wrapIndex r.ring (r.hasher key) 0 := by
          rw [h]
          rfl
        rw [hindex]
        exact .indexing key
  | indexing key =>
    cases input with
    | some hash => cases hmicro
    | none =>
      cases hmicro
      exact .answered key
  | answered key => cases input <;> cases hmicro

/-- The state of a call on a ring that nobody else uses. -/
theorem run_ring_progress {r t : Ring} {op : RingOp} {pc : RingPc} {inputs : List (Option UInt32)}
    (hrun : Run ringProgram.Body (op.start, r) inputs (pc, t)) : Ring.Progress r op pc t := by
  generalize hend : (pc, t) = last at hrun
  induction hrun generalizing pc t with
  | nil =>
    cases hend
    cases op with
    | addNode node => exact .appending node 0 (Nat.zero_le _)
    | removeNode node => exact .deleting node 0 (Nat.zero_le _)
    | getNode key => exact .hashing key
  | @snoc inputs x y input _ hlast ih =>
    cases hend
    exact (ih rfl).micro hlast

/-- Lookups leave the ring as it is. -/
theorem ringProgram_readsOnly : ringProgram.ReadsOnly := by
  intro op r inputs pc t hmode hrun
  cases run_ring_progress hrun with
  | appending | mapping | added | deleting | rebuilding | removed => cases hmode
  | hashing | searching | indexing | answered => rfl

/-- A call carried out in one piece: a change of the ring is a step of the sequential model, and a lookup
answers as there. -/
theorem exec_ring {r t : Ring} {op : RingOp} {result : RingResult} (h : ringProgram.Exec r (op, result) t) :
    (∀ call, op.call = some call → Ring.Step r call t) ∧
      ∀ key, op = .getNode key → t = r ∧ result = .answer (r.getNode key) := by
  obtain ⟨inputs, pc, hrun, hresult⟩ := h
  cases run_ring_progress hrun with
  | appending | mapping | deleting | rebuilding | hashing | searching | indexing => cases hresult
  | added node =>
    refine ⟨fun call hcall => ?_, nofun⟩
    cases hcall
    exact .addNode r node
  | removed node iteration horder =>
    refine ⟨fun call hcall => ?_, nofun⟩
    cases hcall
    exact .removeNode r node iteration horder
  | answered key =>
    refine ⟨nofun, fun key' hkey => ?_⟩
    cases hkey
    cases hresult
    exact ⟨rfl, rfl⟩

/-- The steps that a call still has to take. -/
def RingPc.potential : RingPc × Ring → ℕ
  | (.appending _ i, r) => 2 * (r.numVirtualNodes.toNat - i) + 1
  | (.mapping _ i _, r) => 2 * (r.numVirtualNodes.toNat - (i + 1)) + 2
  | (.deleting _ i, r) => (r.numVirtualNodes.toNat - i) + r.nodes.keys.card + 2
  | (.rebuilding, r) => (r.nodes.keys.filter (· ∉ r.ring)).card + 1
  | (.hashing _, r) => r.ring.length + 3
  | (.searching _ i j, _) => (j - i) + 2
  | (.indexing _, _) => 1
  | (.finished _, _) => 0

/-- Every step of a call brings it closer to its end. -/
theorem ringProgram_pays : Pays ringProgram.Body (fun _ => True) RingPc.potential fun _ => 0 := by
  refine ⟨fun _ _ _ _ _ => trivial, ?_⟩
  rintro ⟨pc, r⟩ input ⟨pc', t⟩ - hmicro
  change Ring.micro (pc, r) input = some (pc', t) at hmicro
  cases pc with
  | appending node i =>
    cases input with
    | some hash => cases hmicro
    | none =>
      simp only [Ring.micro] at hmicro
      split at hmicro <;> cases hmicro <;> simp only [RingPc.potential] <;> omega
  | mapping node i hash =>
    cases input with
    | some hash => cases hmicro
    | none =>
      cases hmicro
      simp only [RingPc.potential]
      omega
  | deleting node i =>
    cases input with
    | some hash => cases hmicro
    | none =>
      simp only [Ring.micro] at hmicro
      split at hmicro
      · cases hmicro
        have hkeys : (r.nodes.erase (r.virtualHash node i)).keys.card ≤ r.nodes.keys.card := by
          rw [Finmap.keys_erase]
          exact Finset.card_erase_le
        simp only [RingPc.potential, Ring.removeVirtualNode]
        omega
      · cases hmicro
        simp only [RingPc.potential, List.not_mem_nil, not_false_eq_true, Finset.filter_true]
        omega
  | rebuilding =>
    cases input with
    | some hash =>
      obtain ⟨⟨hkey, hfresh⟩, heq⟩ := Option.ite_none_right_eq_some.mp hmicro
      cases heq
      -- The visited key is no longer among those to visit.
      have hvisit : r.nodes.keys.filter (· ∉ r.ring ++ [hash]) ⊂ r.nodes.keys.filter (· ∉ r.ring) := by
        have hsub : r.nodes.keys.filter (· ∉ r.ring ++ [hash]) ⊆ r.nodes.keys.filter (· ∉ r.ring) :=
          Finset.monotone_filter_right _ fun hash' _ hnot hmem => hnot (List.mem_append_left _ hmem)
        refine (Finset.ssubset_iff_of_subset hsub).mpr ⟨hash, ?_, ?_⟩
        · exact Finset.mem_filter.mpr ⟨Finmap.mem_keys.mpr hkey, hfresh⟩
        · exact fun hmem => (Finset.mem_filter.mp hmem).2 (List.mem_append_right _ List.mem_cons_self)
      have hcard := Finset.card_lt_card hvisit
      simp only [RingPc.potential]
      omega
    | none =>
      obtain ⟨-, heq⟩ := Option.ite_none_right_eq_some.mp hmicro
      cases heq
      simp only [RingPc.potential]
      omega
  | hashing key =>
    cases input with
    | some hash => cases hmicro
    | none =>
      cases hmicro
      simp only [RingPc.potential]
      omega
  | searching hash i j =>
    cases input with
    | some hash => cases hmicro
    | none =>
      simp only [Ring.micro] at hmicro
      split at hmicro
      · split at hmicro <;> cases hmicro <;> simp only [RingPc.potential] <;> omega
      · cases hmicro
        simp only [RingPc.potential]
        omega
  | indexing i =>
    cases input with
    | some hash => cases hmicro
    | none =>
      cases hmicro
      exact Nat.le_refl 1
  | finished result => cases input <;> cases hmicro

/-- A call that can take no step is finished. -/
theorem ringProgram_result (x : RingPc × Ring) (h : Stuck ringProgram.Body (fun _ => True) x) :
    (ringProgram.result x.1).isSome := by
  obtain ⟨pc, r⟩ := x
  have hno (input : Option UInt32) : Ring.micro (pc, r) input = none :=
    Option.eq_none_iff_forall_ne_some.mpr fun y => h input y trivial
  cases pc with
  | finished result => rfl
  | appending node i | deleting node i | searching hash i j =>
    have hnone := hno none
    simp only [Ring.micro] at hnone
    split at hnone <;> (try split at hnone) <;> cases hnone
  | mapping node i hash | hashing key | indexing i => cases hno none
  | rebuilding =>
    have hend := hno none
    by_cases hall : r.nodes.keys ⊆ r.ring.toFinset
    · rw [Ring.micro, if_pos hall] at hend
      cases hend
    · obtain ⟨hash, hkey, hnew⟩ := Finset.not_subset.mp hall
      have hfresh : hash ∉ r.ring := fun hmem => hnew (List.mem_toFinset.mpr hmem)
      have hvisit := hno (some hash)
      rw [Ring.micro, if_pos ⟨Finmap.mem_keys.mp hkey, hfresh⟩] at hvisit
      cases hvisit

/-- The call that an action finishes, if it changes the ring. -/
def finishedCall {T : Type*} (e : Action T RingOp (Option UInt32) RingResult) : Option Call :=
  e.finished.bind fun finished => finished.1.call

/-- Calls carried out one after the other are a run of the sequential model. -/
theorem run_step_of_exec {r t : Ring} {finished : List (RingOp × RingResult)}
    (h : Run ringProgram.Exec r finished t) : Run Ring.Step r (finished.filterMap fun f => f.1.call) t := by
  refine h.project id _ (fun r f t call hexec hcall => (exec_ring hexec).1 call hcall) ?_
  rintro r ⟨op, result⟩ t hexec hcall
  cases op with
  | addNode node | removeNode node => cases hcall
  | getNode key => exact ((exec_ring hexec).2 key rfl).1

/-- Concurrent calls on a ring amount to sequential ones. Whatever the interleaving of the steps of any number
of goroutines, the finished changes, in the order in which they gave the lock back, are a run of the sequential
model, which ends in the ring itself whenever no change is under way. Every finished lookup answers as the ring
at its place in that run does. A goroutine that holds the lock can always finish its call by itself. -/
theorem ring_linearizable {T : Type*} [DecidableEq T] {hasher : Hasher} {numVirtualNodes : ℤ}
    {events : List (Action T RingOp (Option UInt32) RingResult)} {s : Guarded T Ring RingOp RingPc}
    (hrun : Run ringProgram.Step (initial (newRing hasher numVirtualNodes)) events s) :
    (∃ r, Run Ring.Step (newRing hasher numVirtualNodes) (events.filterMap finishedCall) r ∧
        (s.Quiet → s.object = r) ∧
        ∀ before t key result after, events = before ++ .unlock t (.getNode key) result :: after →
          ∃ r', Run Ring.Step (newRing hasher numVirtualNodes) (before.filterMap finishedCall) r' ∧
            Run Ring.Step r' (after.filterMap finishedCall) r ∧ result = .answer (r'.getNode key)) ∧
      ∀ t op pc, s.threads t = .inside op pc → ∃ (inputs : List (Option UInt32)) (result : RingResult)
        (u : Guarded T Ring RingOp RingPc),
          Run ringProgram.Step s (inputs.map (.micro t) ++ [.unlock t op result]) u := by
  obtain ⟨-, r, hexec, hprogress⟩ := linearizable ringProgram_readsOnly hrun
  refine ⟨⟨r, ?_, hprogress.quiet, ?_⟩, fun t op pc => exists_unlock ringProgram_pays ringProgram_result⟩
  · have hseq := run_step_of_exec hexec
    rwa [List.filterMap_filterMap] at hseq
  · rintro before t key result after rfl
    have hfinished : (Action.unlock t (.getNode key) result :: after).filterMap Action.finished =
        (.getNode key, result) :: after.filterMap Action.finished := rfl
    rw [List.filterMap_append, hfinished] at hexec
    obtain ⟨r', hbefore, hrest⟩ := hexec.split
    obtain ⟨r'', hlookup, hafter⟩ := hrest.uncons
    obtain ⟨rfl, hanswer⟩ := (exec_ring hlookup).2 key rfl
    have hseq := run_step_of_exec hbefore
    have hseq' := run_step_of_exec hafter
    rw [List.filterMap_filterMap] at hseq hseq'
    exact ⟨r'', hseq, hseq', hanswer⟩

/-- The steps of two goroutines: one removes a node while the other waits with a lookup. -/
def leavingEvents : List (Action Bool RingOp (Option UInt32) RingResult) :=
  [.call false (.removeNode sampleNode), .call true (.getNode []), .lock false (.removeNode sampleNode),
    .micro false none, .micro false none, .micro false none, .unlock false (.removeNode sampleNode) .done,
    .lock true (.getNode [])]

/-- The waiting lookup begins on the ring that the removal has left. -/
theorem leaving_then_lookup :
    ∃ s r, Run ringProgram.Step (initial (newRing crc32Hasher 1)) leavingEvents s ∧
      Run Ring.Step (newRing crc32Hasher 1) [.removeNode sampleNode] r ∧ s.object = r := by
  have hrun : ∃ s, Run ringProgram.Step (initial (newRing crc32Hasher 1)) leavingEvents s ∧
      s.holders = [(true, .read)] := ⟨_, run_of_replay leavingEvents rfl, rfl⟩
  obtain ⟨s, hs, hholders⟩ := hrun
  obtain ⟨⟨r, hseq, hquiet, -⟩, -⟩ := ring_linearizable hs
  refine ⟨s, r, hs, hseq, hquiet fun t hmem => ?_⟩
  rw [hholders, List.mem_singleton] at hmem
  cases hmem

end GaleLB.Routing
