import GaleLB.Common.CyclicSearch
import Mathlib.Algebra.BigOperators.Group.Finset.Basic
import Mathlib.Algebra.Order.BigOperators.Group.Finset
import Mathlib.Data.Set.Card
import Mathlib.Order.Interval.Set.Disjoint
import Mathlib.Order.Interval.Set.OrderIso
import Mathlib.Order.Interval.Finset.Fin
import Mathlib.Order.Interval.Finset.Nat

/-!
# Arcs of a circle of keys

The entries of a sorted list cut a circle of `N` keys into arcs: a wrapped search ends at an
entry for exactly the keys after the entry before it, up to the entry itself. The first
entry takes the keys after the last one as well. Of equal entries the first takes all the
keys and the others take none.
-/

namespace CyclicSearch

variable {A : Type*} [LinearOrder A] {l : List A} {h fallback : A} {i N : ℕ}

/-- The entries of a sorted list in order of their indices. -/
theorem getD_le_getD (hsorted : l.SortedLE) {j : ℕ} (hij : i ≤ j) (hj : j < l.length) :
    l.getD i fallback ≤ l.getD j fallback := by
  rw [List.getD_eq_getElem _ _ (hij.trans_lt hj), List.getD_eq_getElem _ _ hj]
  exact hsorted.getElem_le_getElem_of_le hij

/-- The search in a sorted list separates the entries below the key from the others. -/
theorem search_getD_spec (hsorted : l.SortedLE) (h fallback : A) :
    let s := search l.length fun i => decide (h ≤ l.getD i fallback)
    s ≤ l.length ∧ (∀ k < s, l.getD k fallback < h) ∧ ∀ k, s ≤ k → k < l.length → h ≤ l.getD k fallback := by
  have hmono : ∀ a b, a ≤ b → b < l.length →
      decide (h ≤ l.getD a fallback) = true → decide (h ≤ l.getD b fallback) = true := by
    intro a b hab hb ha
    rw [decide_eq_true_eq] at ha ⊢
    exact ha.trans (getD_le_getD hsorted hab hb)
  obtain ⟨hbound, hbelow, habove⟩ := search_spec hmono
  exact ⟨hbound, fun k hk => not_le.mp (decide_eq_false_iff_not.mp (hbelow k hk)),
    fun k hk hkl => decide_eq_true_eq.mp (habove k hk hkl)⟩

/-- A wrapped search ends after the first entry for the keys between two entries. -/
theorem wrapIndex_eq_succ_iff (hsorted : l.SortedLE) :
    wrapIndex l h fallback = i + 1 ↔
      i + 1 < l.length ∧ l.getD i fallback < h ∧ h ≤ l.getD (i + 1) fallback := by
  obtain ⟨hbound, hbelow, habove⟩ := search_getD_spec hsorted h fallback
  unfold wrapIndex
  dsimp only
  generalize search l.length (fun i => decide (h ≤ l.getD i fallback)) = s at hbound hbelow habove
  constructor
  · intro hindex
    split at hindex
    case isTrue => cases hindex
    case isFalse hs =>
      subst hindex
      have hlt := lt_of_le_of_ne hbound hs
      exact ⟨hlt, hbelow i (Nat.lt_succ_self i), habove (i + 1) le_rfl hlt⟩
  · rintro ⟨hlt, hlow, hhigh⟩
    have hge : i < s := by
      by_contra hle
      exact not_le.mpr hlow (habove i (not_lt.mp hle) (by omega))
    have hle : s ≤ i + 1 := by
      by_contra hgt
      exact not_le.mpr (hbelow (i + 1) (not_le.mp hgt)) hhigh
    rw [if_neg (by omega)]
    omega

/-- A wrapped search ends at the first entry for the keys up to it and for those after the last entry. -/
theorem wrapIndex_eq_zero_iff (hsorted : l.SortedLE) (hne : l ≠ []) :
    wrapIndex l h fallback = 0 ↔ h ≤ l.getD 0 fallback ∨ l.getD (l.length - 1) fallback < h := by
  have hpos : 0 < l.length := List.length_pos_iff.mpr hne
  obtain ⟨hbound, hbelow, habove⟩ := search_getD_spec hsorted h fallback
  unfold wrapIndex
  dsimp only
  generalize search l.length (fun i => decide (h ≤ l.getD i fallback)) = s at hbound hbelow habove
  constructor
  · intro hindex
    split at hindex
    case isTrue hs => exact Or.inr (hbelow _ (by omega))
    case isFalse => exact Or.inl (habove 0 hindex.le hpos)
  · rintro (hfirst | hlast)
    · have hs : s = 0 := by
        by_contra hs
        exact not_le.mpr (hbelow 0 (Nat.pos_of_ne_zero hs)) hfirst
      rw [hs, ite_self]
    · rw [if_pos]
      by_contra hs
      exact not_le.mpr hlast (habove _ (by omega) (by omega))

/-- The number of keys between an entry and the one before it, around the circle for the first entry. -/
def arc (position : A → Fin N) (l : List A) (fallback : A) : ℕ → ℕ
  | 0 => position (l.getD 0 fallback) + N - position (l.getD (l.length - 1) fallback)
  | i + 1 => position (l.getD (i + 1) fallback) - position (l.getD i fallback)

/-- A wrapped search ends at an entry for as many keys as its arc has. -/
theorem ncard_wrapIndex (position : A ≃o Fin N) (hsorted : l.SortedLE) (hi : i < l.length) :
    {h | wrapIndex l h fallback = i}.ncard = arc position l fallback i := by
  rw [← Set.ncard_image_of_injective _ position.injective]
  cases i with
  | zero =>
    have hne : l ≠ [] := List.ne_nil_of_length_pos hi
    simp only [wrapIndex_eq_zero_iff hsorted hne]
    change (position '' (Set.Iic _ ∪ Set.Ioi _)).ncard = _
    have hle : position (l.getD 0 fallback) ≤ position (l.getD (l.length - 1) fallback) :=
      position.monotone (getD_le_getD hsorted (Nat.zero_le _) (by omega))
    have hdisjoint : Disjoint (Set.Iic (position (l.getD 0 fallback)))
        (Set.Ioi (position (l.getD (l.length - 1) fallback))) :=
      Set.Iic_disjoint_Ioi hle
    rw [Set.image_union, position.image_Iic, position.image_Ioi, Set.ncard_union_eq hdisjoint, ← Finset.coe_Iic,
      ← Finset.coe_Ioi, Set.ncard_coe_finset, Set.ncard_coe_finset, Fin.card_Iic, Fin.card_Ioi]
    have hlast := (position (l.getD (l.length - 1) fallback)).isLt
    simp only [arc]
    omega
  | succ i =>
    simp only [wrapIndex_eq_succ_iff hsorted, hi, true_and]
    change (position '' Set.Ioc _ _).ncard = _
    rw [position.image_Ioc, ← Finset.coe_Ioc, Set.ncard_coe_finset, Fin.card_Ioc]
    rfl

/-- The keys whose search ends at one of several entries are as many as the arcs of these entries have
together. -/
theorem ncard_wrapIndex_of (position : A ≃o Fin N) (hsorted : l.SortedLE) (hne : l ≠ []) (good : ℕ → Prop)
    [DecidablePred good] :
    {h | good (wrapIndex l h fallback)}.ncard =
      ∑ i ∈ Finset.range l.length with good i, arc position l fallback i := by
  let _ : Fintype A := Fintype.ofEquiv _ position.symm.toEquiv
  have hmaps : Set.MapsTo (fun h => wrapIndex l h fallback)
      (Finset.univ.filter fun h => good (wrapIndex l h fallback)) ((Finset.range l.length).filter good) := by
    intro h hgood
    obtain ⟨k, hget, -⟩ := wrapIndex_isCyclicSucc l hsorted h fallback hne
    have hlt := (List.getElem?_eq_some_iff.mp hget).1
    simpa [hlt] using hgood
  have hcount := Finset.card_eq_sum_card_fiberwise hmaps
  rw [Set.ncard_eq_toFinset_card', Set.toFinset_ofPred, hcount]
  refine Finset.sum_congr rfl fun i hi => ?_
  obtain ⟨hlt, hgood⟩ := Finset.mem_filter.mp hi
  rw [← ncard_wrapIndex position hsorted (Finset.mem_range.mp hlt), Set.ncard_eq_toFinset_card',
    Set.toFinset_ofPred,
    Finset.filter_filter]
  refine congrArg Finset.card (Finset.filter_congr fun h _ => ⟨And.right, fun hindex => ⟨?_, hindex⟩⟩)
  rwa [hindex]

end CyclicSearch
