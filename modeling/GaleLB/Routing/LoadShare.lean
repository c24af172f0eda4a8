import GaleLB.Common.Crc
import GaleLB.Common.CyclicArcs
import GaleLB.Routing.RingDisruption
import GaleLB.Routing.RingSlice
import Mathlib.Data.Vector.Basic
import Mathlib.SetTheory.Cardinal.Finite

/-!
# How much of the load a node gets

The production hash function is a cyclic redundancy check of 32 bits. Keys of the same
length that differ only within four consecutive bytes have different hashes, so the hashes
of the keys with four bytes left open, such as those of all client addresses, fill the
circle exactly once. A node therefore gets as many of these keys as the arcs in front of
its points have hashes: the ring decides the load, and the hash function adds no skew.

The points of one node do not collide either, as long as their indices have one digit.
-/

namespace GaleLB.Routing

open Transition CyclicSearch

/-- One bit of a table entry moves the register down. -/
theorem toBitVec_tableBit (poly crc : UInt32) :
    (tableBit poly crc).toBitVec = Crc.shift poly.toBitVec crc.toBitVec := by
  have hlow : (crc &&& 1 = 1) ↔ crc.toBitVec.getLsbD 0 = true := by
    rw [← UInt32.toBitVec_inj, UInt32.toBitVec_and]
    change crc.toBitVec &&& 1#32 = 1#32 ↔ _
    rw [BitVec.and_one_eq_setWidth_ofBool_getLsbD]
    cases crc.toBitVec.getLsbD 0 <;> decide
  unfold tableBit Crc.shift
  by_cases h : crc &&& 1 = 1
  · rw [if_pos h, if_pos (hlow.mp h)]
    simp
  · rw [if_neg h, if_neg (hlow.not.mp h)]
    simp

/-- A table entry moves the register of a byte down by eight bits. -/
theorem toBitVec_tableEntry (poly : UInt32) (i : UInt8) :
    (tableEntry poly i).toBitVec = (Crc.shift poly.toBitVec)^[8] (i.toBitVec.setWidth 32) := by
  have hiterate (k : ℕ) (crc : UInt32) :
      ((tableBit poly)^[k] crc).toBitVec = (Crc.shift poly.toBitVec)^[k] crc.toBitVec := by
    induction k generalizing crc with
    | zero => rfl
    | succ k ih => rw [Function.iterate_succ_apply, Function.iterate_succ_apply, ih, toBitVec_tableBit]
  rw [tableEntry, hiterate]
  rfl

/-- A register with a byte added consists of its low byte, as the table sees it, and of the rest. -/
theorem register_split (x : BitVec 32) (v : BitVec 8) :
    x ^^^ v.setWidth 32 = (x.setWidth 8 ^^^ v).setWidth 32 ^^^ ((x >>> 8) <<< 8) := by
  refine BitVec.eq_of_getLsbD_eq fun i hi => ?_
  simp only [BitVec.getLsbD_xor, BitVec.getLsbD_setWidth, BitVec.getLsbD_shiftLeft, BitVec.getLsbD_ushiftRight, hi,
    decide_true, Bool.true_and]
  by_cases hlow : i < 8
  · simp [hlow]
  · have hbyte : v.getLsbD i = false := BitVec.getLsbD_of_ge v i (by omega)
    rw [hbyte, show 8 + (i - 8) = i by omega]
    simp [hlow]

/-- A byte advances the register as it is absorbed by the check. -/
theorem toBitVec_updateByte (crc : UInt32) (v : UInt8) :
    (updateByte crc v).toBitVec = Crc.absorb ieee.toBitVec crc.toBitVec v.toBitVec := by
  have hrest : (Crc.shift ieee.toBitVec)^[8] ((crc.toBitVec >>> 8) <<< 8) = crc.toBitVec >>> 8 :=
    Crc.iterate_shift_shiftLeft _ 8 fun i hi => by
      rw [BitVec.getLsbD_ushiftRight]
      exact BitVec.getLsbD_of_ge _ _ (by omega)
  rw [updateByte, Crc.absorb, register_split, Crc.iterate_shift_xor, hrest, UInt32.toBitVec_xor, toBitVec_tableEntry,
    UInt8.toBitVec_xor]
  simp

/-- The hash of a key is the complemented check of its bytes. -/
theorem toBitVec_crc32Hasher (key : List UInt8) :
    (crc32Hasher key).toBitVec =
      ~~~ (key.map UInt8.toBitVec).foldl (Crc.absorb ieee.toBitVec) (~~~ 0#32) := by
  have hfold (crc : UInt32) : (key.foldl updateByte crc).toBitVec =
      (key.map UInt8.toBitVec).foldl (Crc.absorb ieee.toBitVec) crc.toBitVec := by
    induction key generalizing crc with
    | nil => rfl
    | cons v key ih => rw [List.foldl_cons, ih, toBitVec_updateByte, List.map_cons, List.foldl_cons]
  rw [crc32Hasher, checksumIEEE, UInt32.toBitVec_not, hfold]
  rfl

/-- Keys of the same length that differ only within four consecutive bytes have different hashes. -/
theorem crc32Hasher_window_inj (before after : List UInt8) {w w' : List UInt8} (hlength : w.length = w'.length)
    (hw : w.length ≤ 4) : crc32Hasher (before ++ w ++ after) = crc32Hasher (before ++ w' ++ after) ↔ w = w' := by
  constructor
  · intro h
    have hbits := congrArg UInt32.toBitVec h
    simp only [toBitVec_crc32Hasher, BitVec.not_inj, List.map_append] at hbits
    have hpoly : ieee.toBitVec.getLsbD (32 - 1) = true := by decide
    have hlength' : (w.map UInt8.toBitVec).length = (w'.map UInt8.toBitVec).length := by
      rw [List.length_map, List.length_map, hlength]
    have hw' : 8 * (w.map UInt8.toBitVec).length ≤ 32 := by
      rw [List.length_map]
      omega
    have hsame := Crc.window_injective hpoly hlength' hw' hbits
    exact List.map_injective_iff.mpr (fun a b => UInt8.toBitVec_inj.mp) hsame
  · rintro rfl
    rfl

/-- The place of a hash on the circle. -/
def position : UInt32 ≃o Fin UInt32.size where
  toFun := UInt32.toFin
  invFun := UInt32.ofFin
  left_inv _ := rfl
  right_inv _ := rfl
  map_rel_iff' := Iff.rfl

/-- There are as many hashes as ways to fill four bytes. -/
theorem card_windows : Nat.card (List.Vector UInt8 4) = Nat.card UInt32 := by
  have hbyte : Nat.card UInt8 = 256 :=
    (Nat.card_congr ⟨UInt8.toFin, UInt8.ofFin, fun _ => rfl, fun _ => rfl⟩).trans (Nat.card_fin 256)
  rw [Nat.card_congr (Equiv.vectorEquivFin UInt8 4), Nat.card_fun, Nat.card_fin, hbyte,
    Nat.card_congr position.toEquiv,
    Nat.card_fin]
  rfl

/-- With four bytes of a key left open, every hash is taken exactly once. -/
theorem crc32Hasher_bijOn (before after : List UInt8) :
    Set.BijOn (fun w => crc32Hasher (before ++ w ++ after)) {w | w.length = 4} Set.univ := by
  have hinjective : Function.Injective fun w : List.Vector UInt8 4 => crc32Hasher (before ++ w.1 ++ after) :=
    fun w w' h => Subtype.ext ((crc32Hasher_window_inj before after (w.2.trans w'.2.symm) w.2.le).mp h)
  have : Finite UInt32 := Finite.of_equiv _ position.symm.toEquiv
  obtain ⟨-, hsurjective⟩ := (Nat.bijective_iff_injective_and_card _).mpr ⟨hinjective, card_windows⟩
  refine ⟨fun _ _ => Set.mem_univ _, fun w hw w' hw' h => ?_, fun hash _ => ?_⟩
  · exact (crc32Hasher_window_inj before after (hw.trans hw'.symm) hw.le).mp h
  · obtain ⟨w, hw⟩ := hsurjective hash
    exact ⟨w.1, w.2, hw⟩

/-- As many keys with four bytes left open have a hash with a property as there are such hashes. -/
theorem ncard_windows (before after : List UInt8) (Q : UInt32 → Prop) :
    {w : List UInt8 | w.length = 4 ∧ Q (crc32Hasher (before ++ w ++ after))}.ncard = {hash | Q hash}.ncard := by
  have hopen := (crc32Hasher_bijOn before after).subset_right (Set.subset_univ {hash | Q hash})
  rw [← hopen.ncard_eq]
  rfl

/-- The answer of a lookup that ends at an index of the slice. -/
def Ring.answerAt (r : Ring) (i : ℕ) : String :=
  addrToString ((r.nodes.lookup (r.ring.getD i 0)).getD AddrKey.zero)

/-- A lookup in a sorted slice with entries answers for the index at which its search ends. -/
theorem Ring.getNode_eq_answerAt {r : Ring} (hsorted : r.ring.SortedLE) (hne : r.ring ≠ []) (key : List UInt8) :
    r.getNode key = some (r.answerAt (wrapIndex r.ring (r.hasher key) 0)) := by
  obtain ⟨k, hget, -⟩ := wrapIndex_isCyclicSucc r.ring hsorted (r.hasher key) 0 hne
  rw [r.getNode_eq, Ring.answerAt, List.getD_eq_getElem?_getD, hget]
  rfl

variable {numVirtualNodes : ℤ} {calls : List Call} {r : Ring}

/-- The keys that are answered with a node, and the hashes whose search ends at one of its entries. -/
theorem ncard_answered (hrun : Run Ring.Step (newRing crc32Hasher numVirtualNodes) calls r) (hne : r.ring ≠ [])
    (before after : List UInt8) (answer : String) :
    {w : List UInt8 | w.length = 4 ∧ r.getNode (before ++ w ++ after) = some answer}.ncard =
      {hash | r.answerAt (wrapIndex r.ring hash 0) = answer}.ncard := by
  rw [← ncard_windows before after fun hash => r.answerAt (wrapIndex r.ring hash 0) = answer]
  simp only [Ring.getNode_eq_answerAt (run_sorted hrun) hne, run_hasher hrun, Option.some.injEq]

/-- The share of every node: on every ring with entries that calls on an empty one can lead to, and for all
keys with four bytes left open, as many keys are answered with a node as there are hashes on the arcs in front
of the entries of that node. -/
theorem load_share (hrun : Run Ring.Step (newRing crc32Hasher numVirtualNodes) calls r) (hne : r.ring ≠ [])
    (before after : List UInt8) (answer : String) :
    {w : List UInt8 | w.length = 4 ∧ r.getNode (before ++ w ++ after) = some answer}.ncard =
      ∑ i ∈ Finset.range r.ring.length with r.answerAt i = answer, arc position r.ring 0 i := by
  rw [ncard_answered hrun hne]
  exact ncard_wrapIndex_of position (run_sorted hrun) hne fun i => r.answerAt i = answer

/-- The slice of the joined ring holds the points of its two backends. -/
theorem ring_joinedRing : joinedRing.ring = [1638113358, 2903089360] := by
  have hsample : rebuiltRing.ring.Perm [2903089360] := by
    have hadded := (((newRing crc32Hasher 1).addNode otherNode).removeNode otherNode []).ring_addNode_perm sampleNode
    have hempty : (((newRing crc32Hasher 1).addNode otherNode).removeNode otherNode []).ring = [] :=
      List.mergeSort_nil
    have hhashes : (((newRing crc32Hasher 1).addNode otherNode).removeNode otherNode []).hashes sampleNode =
        [2903089360] := virtualHashes_sampleNode
    rwa [hempty, hhashes] at hadded
  have hjoined : joinedRing.ring.Perm (rebuiltRing.ring ++ [1638113358]) := by
    have hadded := rebuiltRing.ring_addNode_perm otherNode
    rwa [Ring.hashes, run_hasher run_rebuiltRing, run_numVirtualNodes run_rebuiltRing,
      virtualHashes_otherNode] at hadded
  have hperm : joinedRing.ring.Perm [1638113358, 2903089360] :=
    (hjoined.trans (hsample.append_right _)).trans (List.Perm.swap _ _ _)
  exact hperm.eq_of_sortedLE (run_sorted run_joinedRing) (by decide +kernel)

/-- The joined ring has entries. -/
theorem ring_joinedRing_ne_nil : joinedRing.ring ≠ [] := by
  rw [ring_joinedRing]
  nofun

/-- The first entry of the joined ring belongs to the other backend. -/
theorem answerAt_joinedRing_zero : joinedRing.answerAt 0 = addrToString otherNode := by
  have howner : joinedRing.nodes.lookup 1638113358 = some otherNode :=
    (run_lookup_eq_some_iff run_joinedRing _ _).mpr (by decide +kernel)
  rw [Ring.answerAt, ring_joinedRing, List.getD_cons_zero, howner]
  rfl

/-- The second entry of the joined ring belongs to the sample backend. -/
theorem answerAt_joinedRing_one : joinedRing.answerAt 1 = addrToString sampleNode := by
  have howner : joinedRing.nodes.lookup 2903089360 = some sampleNode :=
    (run_lookup_eq_some_iff run_joinedRing _ _).mpr (by decide +kernel)
  rw [Ring.answerAt, ring_joinedRing, List.getD_cons_succ, List.getD_cons_zero, howner]
  rfl

/-- The two backends have different texts. -/
theorem addrToString_otherNode_ne : addrToString otherNode ≠ addrToString sampleNode := by decide +kernel

/-- The sample backend of the joined ring gets the addresses whose hash lies between the point of the other
backend and its own. -/
theorem load_share_joinedRing :
    {w : List UInt8 | w.length = 4 ∧ joinedRing.getNode ([] ++ w ++ []) =
      some (addrToString sampleNode)}.ncard = 2903089360 - 1638113358 := by
  rw [load_share run_joinedRing ring_joinedRing_ne_nil, ring_joinedRing, Finset.sum_filter]
  change ∑ i ∈ Finset.range 2, _ = _
  rw [Finset.sum_range_succ, Finset.sum_range_one, answerAt_joinedRing_zero, answerAt_joinedRing_one,
    if_neg addrToString_otherNode_ne, if_pos rfl]
  rfl

/-- The bytes of an array in order. -/
theorem toList_eq_data (bytes : ByteArray) : bytes.toList = bytes.data.toList := by
  have hloop (k : ℕ) : ∀ i collected, bytes.size - i = k →
      ByteArray.toList.loop bytes i collected = collected.reverse ++ bytes.data.toList.drop i := by
    induction k with
    | zero =>
      intro i collected hk
      have hend : bytes.data.toList.length ≤ i := by
        rw [Array.length_toList]
        exact Nat.le_of_sub_eq_zero hk
      rw [ByteArray.toList.loop, if_neg (by omega), List.drop_eq_nil_of_le hend, List.append_nil]
    | succ k ih =>
      intro i collected hk
      have hsize : i < bytes.data.size := by
        change i < bytes.size
        omega
      have hi : i < bytes.data.toList.length := by rwa [Array.length_toList]
      have hget : bytes.get! i = bytes.data.toList[i] := by
        change bytes.data[i]! = _
        rw [getElem!_pos bytes.data i hsize, Array.getElem_toList]
      rw [ByteArray.toList.loop, if_pos (by omega), ih (i + 1) _ (by omega), List.reverse_cons, List.append_assoc,
        List.singleton_append, List.drop_eq_getElem_cons hi, hget]
  exact hloop bytes.size 0 [] rfl

/-- The bytes of a concatenation. -/
theorem stringBytes_append (s s' : String) : stringBytes (s ++ s') = stringBytes s ++ stringBytes s' := by
  unfold stringBytes
  rw [String.toUTF8_eq_toByteArray, String.toByteArray_append, toList_eq_data, ByteArray.toList_data_append,
    toList_eq_data, toList_eq_data]
  rfl

/-- One digit is printed as one byte. -/
theorem length_stringBytes_digit : ∀ i < 10, (stringBytes (toString i)).length = 1 := by decide +kernel

/-- Different digits are printed differently. -/
theorem stringBytes_digit_inj :
    ∀ i < 10, ∀ j < 10, stringBytes (toString i) = stringBytes (toString j) → i = j := by decide +kernel

/-- The points of a node do not collide as long as their indices have one digit. -/
theorem virtualHashes_nodup {numVirtualNodes : ℤ} (hcount : numVirtualNodes ≤ 10) (node : AddrKey) :
    (virtualHashes crc32Hasher numVirtualNodes node).Nodup := by
  refine List.Nodup.map_on (fun i hi j hj h => ?_) List.nodup_range
  have hi' : i < 10 := by
    rw [List.mem_range] at hi
    omega
  have hj' : j < 10 := by
    rw [List.mem_range] at hj
    omega
  simp only [virtualNode, stringBytes_append] at h
  have hwindow := (crc32Hasher_window_inj (stringBytes (addrToString node) ++ stringBytes "-") []
    ((length_stringBytes_digit i hi').trans (length_stringBytes_digit j hj').symm)
    (by rw [length_stringBytes_digit i hi']; decide)).mp (by simpa using h)
  exact stringBytes_digit_inj i hi' j hj' hwindow

/-- The five points of the sample backend are distinct. -/
theorem virtualHashes_nodup_sampleNode : (virtualHashes crc32Hasher 5 sampleNode).Nodup :=
  virtualHashes_nodup (by decide) sampleNode

end GaleLB.Routing
