import Mathlib.Order.Basic
import Mathlib.Data.List.Sort
import Mathlib.Data.List.GetD

/-!
# Binary search and cyclic successors

`search` is the half-interval loop that finds the first index satisfying a monotone
test. On a sorted list, searching for the first entry at or above a key and wrapping
to the first entry when there is none selects the cyclic successor of the key. The
successor depends only on the set of entries, not on their multiplicities.
-/

namespace CyclicSearch

/-- The interval loop: `[i, j)` still contains the first index satisfying `f`. -/
def searchLoop (f : ℕ → Bool) (i j : ℕ) : ℕ :=
  if i < j then
    let h := (i + j) / 2
    if f h then searchLoop f i h else searchLoop f (h + 1) j
  else i
termination_by j - i

/-- The first index below `n` that satisfies `f`, or `n` when there is none. -/
def search (n : ℕ) (f : ℕ → Bool) : ℕ :=
  searchLoop f 0 n

/-- The loop keeps every index below its interval failing and every index above it passing. -/
theorem searchLoop_spec {n : ℕ} {f : ℕ → Bool}
    (hmono : ∀ a b, a ≤ b → b < n → f a = true → f b = true) (i j : ℕ)
    (hij : i ≤ j) (hjn : j ≤ n) (hbelow : ∀ k < i, f k = false)
    (habove : ∀ k, j ≤ k → k < n → f k = true) :
    searchLoop f i j ≤ n ∧ (∀ k < searchLoop f i j, f k = false) ∧
      ∀ k, searchLoop f i j ≤ k → k < n → f k = true := by
  fun_induction searchLoop f i j with
  | case1 i j hlt h hf ih =>
    exact ih (by omega) (by omega) hbelow fun k hk hkn => hmono h k hk hkn hf
  | case2 i j hlt h hf ih =>
    refine ih (by omega) hjn (fun k hk => ?_) habove
    cases hfk : f k with
    | false => rfl
    | true => exact absurd (hmono k h (by omega) (by omega) hfk) hf
  | case3 i j hge =>
    have hji : j = i := by omega
    subst hji
    exact ⟨hjn, hbelow, habove⟩

/-- A monotone test is false before the search result and true from it on. -/
theorem search_spec {n : ℕ} {f : ℕ → Bool}
    (hmono : ∀ a b, a ≤ b → b < n → f a = true → f b = true) :
    search n f ≤ n ∧ (∀ k < search n f, f k = false) ∧
      ∀ k, search n f ≤ k → k < n → f k = true :=
  searchLoop_spec hmono 0 n (Nat.zero_le n) le_rfl (by simp) (fun k hk hkn => by omega)

variable {A : Type*} [LinearOrder A]

/-- `k` is the least member at or above `h`, or the least member of all when none is. -/
def IsCyclicSucc (members : A → Prop) (h k : A) : Prop :=
  members k ∧ ((h ≤ k ∧ ∀ x, members x → h ≤ x → k ≤ x) ∨
    ((∀ x, members x → x < h) ∧ ∀ x, members x → k ≤ x))

/-- A key has at most one cyclic successor. -/
theorem IsCyclicSucc.unique {members : A → Prop} {h k k' : A}
    (hk : IsCyclicSucc members h k) (hk' : IsCyclicSucc members h k') : k = k' := by
  obtain ⟨hmem, hcase⟩ := hk
  obtain ⟨hmem', hcase'⟩ := hk'
  rcases hcase with ⟨hle, hleast⟩ | ⟨hall, hleast⟩ <;>
    rcases hcase' with ⟨hle', hleast'⟩ | ⟨hall', hleast'⟩
  · exact le_antisymm (hleast k' hmem' hle') (hleast' k hmem hle)
  · exact absurd (hall' k hmem) (not_lt.mpr hle)
  · exact absurd (hall k' hmem') (not_lt.mpr hle')
  · exact le_antisymm (hleast k' hmem') (hleast' k hmem)

/-- The successor is determined by the set of members. -/
theorem IsCyclicSucc.congr {members members' : A → Prop} {h k : A}
    (hk : IsCyclicSucc members h k) (heq : ∀ x, members x ↔ members' x) :
    IsCyclicSucc members' h k := by
  have hfun : members = members' := funext fun x => propext (heq x)
  rwa [← hfun]

/-- A successor stays the successor among any of the members that include it. -/
theorem IsCyclicSucc.subset {members members' : A → Prop} {h k : A}
    (hk : IsCyclicSucc members h k) (hsub : ∀ x, members' x → members x) (hmem : members' k) :
    IsCyclicSucc members' h k := by
  obtain ⟨-, ⟨hle, hleast⟩ | ⟨hall, hleast⟩⟩ := hk
  · exact ⟨hmem, Or.inl ⟨hle, fun x hx => hleast x (hsub x hx)⟩⟩
  · exact ⟨hmem, Or.inr ⟨fun x hx => hall x (hsub x hx), fun x hx => hleast x (hsub x hx)⟩⟩

/-- The successor of a key that is least, or has no member at or above it, is the least member. -/
theorem IsCyclicSucc.least_of_wrap {members : A → Prop} {b h k : A} (hb : ∀ x, b ≤ x)
    (hk : IsCyclicSucc members h k) (hwrap : h = b ∨ ∀ x, members x → x < h) :
    ∀ x, members x → k ≤ x := by
  intro x hx
  obtain ⟨hmem, ⟨hle, hleast⟩ | ⟨-, hleast⟩⟩ := hk
  · rcases hwrap with rfl | hall
    · exact hleast x hx (hb x)
    · exact absurd (hall k hmem) (not_lt.mpr hle)
  · exact hleast x hx

/-- A least element that joins the members does not change a successor found above `h`. -/
theorem IsCyclicSucc.with_bottom {members : A → Prop} {b h k : A} (hb : ∀ x, b ≤ x)
    (hk : IsCyclicSucc members h k) (hne : h ≠ b) (habove : ∃ x, members x ∧ h ≤ x) :
    IsCyclicSucc (fun x => members x ∨ x = b) h k := by
  obtain ⟨hmem, ⟨hle, hleast⟩ | ⟨hall, -⟩⟩ := hk
  · refine ⟨Or.inl hmem, Or.inl ⟨hle, ?_⟩⟩
    rintro x (hx | rfl) hhx
    · exact hleast x hx hhx
    · exact absurd (le_antisymm hhx (hb h)) hne
  · obtain ⟨x, hx, hhx⟩ := habove
    exact absurd (hall x hx) (not_lt.mpr hhx)

/-- A least element that joins the members catches every key without a member above it. -/
theorem isCyclicSucc_bottom {members : A → Prop} {b h : A} (hb : ∀ x, b ≤ x)
    (hwrap : h = b ∨ ∀ x, members x → x < h) :
    IsCyclicSucc (fun x => members x ∨ x = b) h b := by
  refine ⟨Or.inr rfl, ?_⟩
  by_cases hhb : h = b
  · exact Or.inl ⟨hhb.le, fun x _ _ => hb x⟩
  · refine Or.inr ⟨?_, fun x _ => hb x⟩
    rintro x (hx | rfl)
    · exact hwrap.resolve_left hhb x hx
    · exact lt_of_le_of_ne (hb h) (Ne.symm hhb)

/-- Search for the first entry at or above `h`, wrapping to index zero. -/
def wrapIndex (l : List A) (h fallback : A) : ℕ :=
  let i := search l.length fun i => decide (h ≤ l.getD i fallback)
  if i = l.length then 0 else i

/-- On a sorted list the wrapped search never leaves the list and lands on the cyclic successor. -/
theorem wrapIndex_isCyclicSucc (l : List A) (hsorted : l.SortedLE) (h fallback : A)
    (hne : l ≠ []) :
    ∃ k, l[wrapIndex l h fallback]? = some k ∧ IsCyclicSucc (· ∈ l) h k := by
  have hget : ∀ i (hi : i < l.length), l.getD i fallback = l[i] := fun i hi =>
    List.getD_eq_getElem l fallback hi
  have hle : ∀ a b (hab : a ≤ b) (hb : b < l.length), l[a] ≤ l[b] := fun a b hab hb =>
    hsorted.getElem_le_getElem_of_le hab
  have hmono : ∀ a b, a ≤ b → b < l.length →
      decide (h ≤ l.getD a fallback) = true → decide (h ≤ l.getD b fallback) = true := by
    intro a b hab hb ha
    rw [decide_eq_true_eq, hget _ (by omega)] at ha
    rw [decide_eq_true_eq, hget _ hb]
    exact ha.trans (hle a b hab hb)
  obtain ⟨hbound, hbelow, habove⟩ := search_spec hmono
  unfold wrapIndex
  dsimp only
  generalize search l.length (fun i => decide (h ≤ l.getD i fallback)) = i at hbound hbelow habove
  split
  · rename_i hi
    have hpos : 0 < l.length := List.length_pos_iff.mpr hne
    refine ⟨l[0], List.getElem?_eq_getElem hpos, List.getElem_mem hpos, Or.inr ⟨?_, ?_⟩⟩
    · intro x hx
      obtain ⟨k, hk, rfl⟩ := List.getElem_of_mem hx
      have hfalse := hbelow k (by omega)
      rw [decide_eq_false_iff_not, hget _ hk] at hfalse
      exact not_le.mp hfalse
    · intro x hx
      obtain ⟨k, hk, rfl⟩ := List.getElem_of_mem hx
      exact hle 0 k (Nat.zero_le k) hk
  · rename_i hi
    have hlt : i < l.length := by omega
    refine ⟨l[i], List.getElem?_eq_getElem hlt, List.getElem_mem hlt, Or.inl ⟨?_, ?_⟩⟩
    · simpa only [decide_eq_true_eq, hget i hlt] using habove i le_rfl hlt
    · intro x hx hhx
      obtain ⟨k, hk, rfl⟩ := List.getElem_of_mem hx
      rcases Nat.lt_or_ge k i with hki | hki
      · have hfalse := hbelow k hki
        rw [decide_eq_false_iff_not, hget _ hk] at hfalse
        exact absurd hhx hfalse
      · exact hle i k hki hk

end CyclicSearch
