import GaleLB.Common.Transition
import GaleLB.Common.CyclicSearch
import GaleLB.Common.TextFields
import Mathlib.Data.Finmap
import Mathlib.Data.UInt

/-!
# The consistent-hashing ring

The ring keeps a sorted slice of virtual-node hashes and a map from hash to node,
updated by two separate rules. Adding appends one hash per virtual node and overwrites
the map; removing deletes from the map and rebuilds the slice from its keys, in the
order in which the map happens to be iterated. A new ring starts from a slice of zero
entries that no map entry backs.

Lookups index the slice after a wrapped binary search. An index outside the slice is a
run-time panic, represented by `none`.
-/

namespace GaleLB.Routing

open Transition CyclicSearch

/-- Hashes are compared as unsigned integers. -/
instance linearOrderUInt32 : LinearOrder UInt32 where
  le_refl := UInt32.le_refl
  le_trans _ _ _ := UInt32.le_trans
  le_antisymm _ _ := UInt32.le_antisymm
  le_total := UInt32.le_total
  lt_iff_le_not_ge a b := by simp [UInt32.le_iff_toNat_le, UInt32.lt_iff_toNat_lt]; omega
  toDecidableLE := inferInstance
  toDecidableLT := inferInstance

/-- `common.AddrKey`: the address of a node, padded to the layout of its C counterpart. -/
structure AddrKey where
  ip : UInt32
  port : UInt16
  pad : UInt16
deriving DecidableEq, Repr

/-- The zero value of `AddrKey`, read from a map at an absent key. -/
def AddrKey.zero : AddrKey := ⟨0, 0, 0⟩

/-- A hash function on byte strings. -/
abbrev Hasher := List UInt8 → UInt32

/-- The bytes of a string, as converted by `[]byte(s)`. -/
def stringBytes (s : String) : List UInt8 := s.toUTF8.toList

/-- `"%d:%d"` of the address and the port; the padding is not printed. -/
def addrToString (addr : AddrKey) : String :=
  toString addr.ip.toNat ++ ":" ++ toString addr.port.toNat

/-- The printed name of the `i`-th virtual node. -/
def virtualNode (node : AddrKey) (i : ℕ) : String :=
  addrToString node ++ "-" ++ toString i

/-- The length of the slice allocated for an empty ring. -/
def maxNumberVirtualNodeEntries : ℕ := 8192

/-- The ring with its slice of hashes and its hash-to-node map. -/
structure Ring where
  ring : List UInt32
  nodes : Finmap fun _ : UInt32 => AddrKey
  numVirtualNodes : ℤ
  hasher : Hasher

/-- Allocate a ring: the slice already has its full length, filled with zeros. -/
def newRing (hasher : Hasher) (numVirtualNodes : ℤ) : Ring where
  ring := List.replicate maxNumberVirtualNodeEntries 0
  nodes := ∅
  numVirtualNodes := numVirtualNodes
  hasher := hasher

/-- The indices of `range ch.numVirtualNodes`; a negative count has none. -/
def Ring.virtualIndices (r : Ring) : List ℕ := List.range r.numVirtualNodes.toNat

/-- The position of the `i`-th virtual node of `node`. -/
def Ring.virtualHash (r : Ring) (node : AddrKey) (i : ℕ) : UInt32 :=
  r.hasher (stringBytes (virtualNode node i))

/-- Sort a slice of hashes in nondecreasing order. -/
def sortRing (ring : List UInt32) : List UInt32 := ring.mergeSort (· ≤ ·)

/-- One iteration of the loop of `addNode`. -/
def Ring.addVirtualNode (node : AddrKey) (r : Ring) (i : ℕ) : Ring :=
  { r with
    ring := r.ring ++ [r.virtualHash node i]
    nodes := r.nodes.insert (r.virtualHash node i) node }

/-- Insert every virtual node, then sort the slice. -/
def Ring.addNode (r : Ring) (node : AddrKey) : Ring :=
  let r' := r.virtualIndices.foldl (Ring.addVirtualNode node) r
  { r' with ring := sortRing r'.ring }

/-- One iteration of the loop of `removeNode`. -/
def Ring.removeVirtualNode (node : AddrKey) (r : Ring) (i : ℕ) : Ring :=
  { r with nodes := r.nodes.erase (r.virtualHash node i) }

/-- The ring after the deletions of `removeNode`, before its slice is rebuilt. -/
def Ring.removeVirtualNodes (r : Ring) (node : AddrKey) : Ring :=
  r.virtualIndices.foldl (Ring.removeVirtualNode node) r

/-- Delete every virtual node, then rebuild the slice from the keys as iterated. -/
def Ring.removeNode (r : Ring) (node : AddrKey) (iteration : List UInt32) : Ring :=
  { r.removeVirtualNodes node with ring := sortRing ([] ++ iteration) }

/-- Any order in which a `range` loop may visit the keys of a map. -/
def MapIteration (nodes : Finmap fun _ : UInt32 => AddrKey) (iteration : List UInt32) : Prop :=
  iteration.Nodup ∧ ∀ hash, hash ∈ iteration ↔ hash ∈ nodes

/-- Route a request key to the node owning the first hash at or after it, or panic. -/
def Ring.getNode (r : Ring) (requestKey : List UInt8) : Option String :=
  let hash := r.hasher requestKey
  let i := search r.ring.length fun i => decide (hash ≤ r.ring.getD i 0)
  let i := if i = r.ring.length then 0 else i
  r.ring[i]?.map fun h => addrToString ((r.nodes.lookup h).getD AddrKey.zero)

/-- A call that changes the ring. -/
inductive Call where
  | addNode (node : AddrKey)
  | removeNode (node : AddrKey)
deriving DecidableEq, Repr

/-- The node a call is about. -/
def Call.node : Call → AddrKey
  | .addNode node => node
  | .removeNode node => node

/-- The node a call writes at the hashes it touches. -/
def Call.owner : Call → Option AddrKey
  | .addNode node => some node
  | .removeNode _ => none

/-- Whether a call is a removal, hence rebuilds the slice. -/
def Call.isRemoval : Call → Bool
  | .addNode _ => false
  | .removeNode _ => true

@[simp] theorem Call.node_addNode (node : AddrKey) : (Call.addNode node).node = node := rfl

@[simp] theorem Call.node_removeNode (node : AddrKey) : (Call.removeNode node).node = node := rfl

@[simp] theorem Call.owner_addNode (node : AddrKey) : (Call.addNode node).owner = some node := rfl

@[simp] theorem Call.owner_removeNode (node : AddrKey) : (Call.removeNode node).owner = none := rfl

@[simp] theorem Call.isRemoval_addNode (node : AddrKey) : (Call.addNode node).isRemoval = false := rfl

@[simp] theorem Call.isRemoval_removeNode (node : AddrKey) : (Call.removeNode node).isRemoval = true := rfl

/-- One call on a ring, for any iteration order of the rebuild. -/
inductive Ring.Step : Ring → Call → Ring → Prop
  | addNode (r : Ring) (node : AddrKey) : Step r (.addNode node) (r.addNode node)
  | removeNode (r : Ring) (node : AddrKey) (iteration : List UInt32)
      (h : MapIteration (r.removeVirtualNodes node).nodes iteration) :
      Step r (.removeNode node) (r.removeNode node iteration)

/-- The hashes of all virtual nodes of a node. -/
def virtualHashes (hasher : Hasher) (numVirtualNodes : ℤ) (node : AddrKey) : List UInt32 :=
  (List.range numVirtualNodes.toNat).map fun i => hasher (stringBytes (virtualNode node i))

/-- Nodes print alike exactly when they agree on address and port. -/
theorem addrToString_eq_iff (a b : AddrKey) :
    addrToString a = addrToString b ↔ a.ip = b.ip ∧ a.port = b.port := by
  constructor
  · intro h
    have hchars : Nat.toDigits 10 a.ip.toNat ++ ':' :: Nat.toDigits 10 a.port.toNat =
        Nat.toDigits 10 b.ip.toNat ++ ':' :: Nat.toDigits 10 b.port.toNat := by
      have h' := congrArg String.toList h
      simpa [addrToString, String.toList_append] using h'
    have hcolon : ∀ n, ':' ∉ Nat.toDigits 10 n :=
      fun n hmem => absurd (TextFields.isDigit_of_mem_decimal hmem) (by decide)
    obtain ⟨hip, -, hport⟩ := (List.append_cons_inj_of_notMem (hcolon _) (hcolon _)).mp hchars
    exact ⟨UInt32.toNat_inj.mp (TextFields.toDigits_inj hip), UInt16.toNat_inj.mp (TextFields.toDigits_inj hport)⟩
  · rintro ⟨hip, hport⟩
    rw [addrToString, addrToString, hip, hport]

end GaleLB.Routing
