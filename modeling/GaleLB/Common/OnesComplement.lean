import Mathlib.Data.Nat.ModEq
import Mathlib.Algebra.BigOperators.Group.List.Basic
import Mathlib.Tactic.NormNum

/-!
# Ones' complement checksums

Sixteen-bit sums with end-around carry, and the incremental update of a checksum word
when a 32-bit field of the summed data changes. Both are arithmetic modulo `65535`, in
which zero has two representations. The sum of data that is not all zero is `65535`
exactly when its ordinary sum is a multiple of `65535`; the incremental update never
produces the representation `65535`.
-/

namespace OnesComplement

/-- Add two 16-bit words with end-around carry. -/
def add16 (a b : ℕ) : ℕ :=
  if a + b < 65536 then a + b else a + b - 65535

/-- The ones' complement sum of 16-bit words. -/
def sum16 (words : List ℕ) : ℕ :=
  words.foldr add16 0

/-- End-around carry preserves the residue. -/
theorem add16_modEq (a b : ℕ) : add16 a b ≡ a + b [MOD 65535] := by
  unfold add16 Nat.ModEq
  split <;> omega

/-- The sum of words has the residue of the ordinary sum. -/
theorem sum16_modEq (words : List ℕ) : sum16 words ≡ words.sum [MOD 65535] := by
  induction words with
  | nil => rfl
  | cons w rest ih =>
    rw [List.sum_cons]
    exact (add16_modEq w (sum16 rest)).trans (Nat.ModEq.add_left w ih)

/-- The sum of 16-bit words is a 16-bit word. -/
theorem sum16_le (words : List ℕ) (hwords : ∀ w ∈ words, w < 65536) : sum16 words ≤ 65535 := by
  induction words with
  | nil => exact Nat.zero_le _
  | cons w rest ih =>
    have hw : w < 65536 := hwords w List.mem_cons_self
    have hrest := ih fun x hx => hwords x (List.mem_cons_of_mem _ hx)
    change add16 w (sum16 rest) ≤ 65535
    unfold add16
    split <;> omega

/-- Only zero words sum to the representation zero. -/
theorem sum16_eq_zero_iff (words : List ℕ) : sum16 words = 0 ↔ words.sum = 0 := by
  induction words with
  | nil => simp [sum16]
  | cons w rest ih =>
    change add16 w (sum16 rest) = 0 ↔ _
    rw [List.sum_cons, Nat.add_eq_zero_iff, ← ih]
    unfold add16
    split <;> omega

/-- Data that is not all zero sums to all ones exactly when its ordinary sum is a multiple
of `65535`. -/
theorem sum16_eq_allOnes_iff (words : List ℕ) (hwords : ∀ w ∈ words, w < 65536)
    (hne : words.sum ≠ 0) : sum16 words = 65535 ↔ words.sum ≡ 0 [MOD 65535] := by
  have hle := sum16_le words hwords
  have hpos : sum16 words ≠ 0 := fun h => hne ((sum16_eq_zero_iff words).mp h)
  have hmod := sum16_modEq words
  unfold Nat.ModEq at *
  omega

/-- Add two 32-bit partial sums with end-around carry. -/
def csumAdd (a b : ℕ) : ℕ :=
  if a + b < 4294967296 then a + b else a + b - 4294967295

/-- Fold a 32-bit partial sum to 16 bits and complement it. -/
def csumFold (csum : ℕ) : ℕ :=
  let sum := csum % 65536 + csum / 65536
  let sum := sum % 65536 + sum / 65536
  65535 - sum

/-- Update a checksum for a 32-bit field that changes from `old` to `new`. -/
def csumReplace4 (sum old new : ℕ) : ℕ :=
  csumFold (csumAdd (csumAdd (4294967295 - sum) (4294967295 - old)) new)

/-- Partial sums stay within 32 bits, keep their residue and never return to zero. -/
theorem csumAdd_spec {a b : ℕ} (ha : a < 4294967296) (hpos : 0 < a) (hb : b < 4294967296) :
    csumAdd a b < 4294967296 ∧ 0 < csumAdd a b ∧ csumAdd a b % 65535 = (a + b) % 65535 := by
  unfold csumAdd
  split <;> omega

/-- Folding complements the residue into the range below `65535`. -/
theorem csumFold_spec {csum : ℕ} (hlt : csum < 4294967296) (hpos : 0 < csum) :
    csumFold csum < 65535 ∧ (csumFold csum + csum) % 65535 = 0 := by
  unfold csumFold
  dsimp only
  omega

/-- The update keeps the sum of checksum and field, and its result is below `65535`. -/
theorem csumReplace4_spec {sum old new : ℕ} (hsum : sum < 65536) (hold : old < 4294967296)
    (hnew : new < 4294967296) :
    csumReplace4 sum old new < 65535 ∧
      csumReplace4 sum old new + new ≡ sum + old [MOD 65535] := by
  have hfirst := csumAdd_spec (a := 4294967295 - sum) (b := 4294967295 - old) (by omega) (by omega)
    (by omega)
  have hsecond := csumAdd_spec (b := new) hfirst.1 hfirst.2.1 hnew
  have hfold := csumFold_spec hsecond.1 hsecond.2.1
  refine ⟨hfold.1, ?_⟩
  unfold csumReplace4 Nat.ModEq
  omega

/-- Two successive updates account for both changed fields. -/
theorem csumReplace4_twice {sum old new old' new' : ℕ} (hsum : sum < 65536)
    (hold : old < 4294967296) (hnew : new < 4294967296) (hold' : old' < 4294967296)
    (hnew' : new' < 4294967296) :
    csumReplace4 (csumReplace4 sum old new) old' new' < 65535 ∧
      csumReplace4 (csumReplace4 sum old new) old' new' + (new + new') ≡ sum + (old + old') [MOD 65535] := by
  have hfirst := csumReplace4_spec hsum hold hnew
  have hmiddle : csumReplace4 sum old new < 65536 := by omega
  have hsecond := csumReplace4_spec hmiddle hold' hnew'
  refine ⟨hsecond.1, ?_⟩
  have h1 := hfirst.2
  have h2 := hsecond.2
  unfold Nat.ModEq at *
  omega

/-- A word that is shifted by the difference of two numbers into the range below `65535` stays as it
is exactly when the numbers agree modulo `65535` and it is not the second representation of zero. -/
theorem shifted_eq_iff {sum sum' old new : ℕ} (hsum : sum < 65536) (hlt : sum' < 65535)
    (hshift : sum' + new ≡ sum + old [MOD 65535]) :
    sum' = sum ↔ sum ≠ 65535 ∧ old ≡ new [MOD 65535] := by
  unfold Nat.ModEq at *
  omega

end OnesComplement
