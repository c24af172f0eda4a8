import Mathlib.Logic.Function.Iterate
import Mathlib.Data.List.Basic

/-!
# Cyclic redundancy checks

A register of `n` bits moves down bit by bit; a bit that falls out brings a polynomial in.
The moves are linear and, for a polynomial with its top bit set, injective. A byte is added
to the low end of the register before eight moves, so bytes that together fit into the
register can be added at once.

Hence two messages of the same length that differ only within a window no wider than the
register have different checks.
-/

namespace Crc

variable {n : ℕ} (poly : BitVec n)

/-- Move the register down by one bit. -/
def shift (x : BitVec n) : BitVec n :=
  if x.getLsbD 0 then (x >>> 1) ^^^ poly else x >>> 1

/-- Add a byte and move the register down by its eight bits. -/
def absorb (x : BitVec n) (b : BitVec 8) : BitVec n := (shift poly)^[8] (x ^^^ b.setWidth n)

/-- The bytes of a window, the first one lowest. -/
def word : List (BitVec 8) → BitVec n
  | [] => 0#n
  | b :: w => b.setWidth n ^^^ (word w <<< 8)

/-- A move is linear. -/
theorem shift_xor (x y : BitVec n) : shift poly (x ^^^ y) = shift poly x ^^^ shift poly y := by
  unfold shift
  rw [BitVec.getLsbD_xor, BitVec.ushiftRight_xor_distrib]
  cases x.getLsbD 0 <;> cases y.getLsbD 0
  · rfl
  · simp [BitVec.xor_assoc]
  · simp only [Bool.xor_false, if_true, Bool.false_eq_true, if_false]
    rw [BitVec.xor_assoc, BitVec.xor_comm _ poly, ← BitVec.xor_assoc]
  · -- The polynomial comes in twice and cancels.
    simp only [Bool.xor_self, Bool.false_eq_true, if_false, if_true]
    rw [BitVec.xor_assoc, BitVec.xor_comm _ poly, ← BitVec.xor_assoc poly poly, BitVec.xor_self, BitVec.zero_xor]

/-- Several moves are linear. -/
theorem iterate_shift_xor (k : ℕ) (x y : BitVec n) :
    (shift poly)^[k] (x ^^^ y) = (shift poly)^[k] x ^^^ (shift poly)^[k] y := by
  induction k generalizing x y with
  | zero => rfl
  | succ k ih => rw [Function.iterate_succ_apply, Function.iterate_succ_apply, Function.iterate_succ_apply,
      shift_xor, ih]

/-- A move undoes a move up that loses no bit. -/
theorem shift_shiftLeft {x : BitVec n} (h : ∀ i, n ≤ i + 1 → x.getLsbD i = false) : shift poly (x <<< 1) = x := by
  have hlow : (x <<< 1).getLsbD 0 = false := by simp
  rw [shift, hlow, if_neg Bool.false_ne_true]
  refine BitVec.eq_of_getLsbD_eq fun i hi => ?_
  rw [BitVec.getLsbD_ushiftRight, BitVec.getLsbD_shiftLeft]
  by_cases htop : n ≤ i + 1
  · rw [h i htop]
    simp
    omega
  · simp
    omega

/-- Several moves undo as many moves up that lose no bit. -/
theorem iterate_shift_shiftLeft {x : BitVec n} (k : ℕ) (h : ∀ i, n ≤ i + k → x.getLsbD i = false) :
    (shift poly)^[k] (x <<< k) = x := by
  induction k with
  | zero => simp
  | succ k ih =>
    rw [Function.iterate_succ_apply, BitVec.shiftLeft_add, shift_shiftLeft]
    · exact ih fun i hi => h i (by omega)
    · intro i hi
      rw [BitVec.getLsbD_shiftLeft]
      by_cases hk : i < k
      · simp [hk]
      · rw [h (i - k) (by omega), Bool.and_false]

/-- For a polynomial with its top bit set, only zero moves down to zero. -/
theorem shift_eq_zero {poly : BitVec n} (hpoly : poly.getLsbD (n - 1) = true) {x : BitVec n}
    (h : shift poly x = 0#n) : x = 0#n := by
  unfold shift at h
  cases hlow : x.getLsbD 0 with
  | true =>
    rw [hlow, if_pos rfl, BitVec.xor_eq_zero_iff] at h
    -- The polynomial would have come in at the top, where the moved register is empty.
    rw [← h, BitVec.getLsbD_ushiftRight] at hpoly
    have hbound := BitVec.lt_of_getLsbD hpoly
    omega
  | false =>
    rw [hlow, if_neg Bool.false_ne_true] at h
    refine BitVec.eq_of_getLsbD_eq fun i _ => ?_
    rw [BitVec.getLsbD_zero]
    cases i with
    | zero => exact hlow
    | succ i =>
      have hbit := congrArg (fun y => y.getLsbD i) h
      simpa [BitVec.getLsbD_ushiftRight, Nat.add_comm] using hbit

/-- For a polynomial with its top bit set, moves are injective. -/
theorem iterate_shift_injective {poly : BitVec n} (hpoly : poly.getLsbD (n - 1) = true) (k : ℕ) :
    Function.Injective (shift poly)^[k] := by
  refine Function.Injective.iterate (fun x y h => ?_) k
  rw [← BitVec.xor_eq_zero_iff]
  refine shift_eq_zero hpoly ?_
  rw [shift_xor, h, BitVec.xor_self]

/-- A window has no bits beyond its bytes. -/
theorem getLsbD_word (w : List (BitVec 8)) {i : ℕ} (hi : 8 * w.length ≤ i) :
    (word w : BitVec n).getLsbD i = false := by
  induction w generalizing i with
  | nil => exact BitVec.getLsbD_zero
  | cons b w ih =>
    rw [List.length_cons] at hi
    have hrest := ih (i := i - 8) (by omega)
    have hbyte : b.getLsbD i = false := BitVec.getLsbD_of_ge b i (by omega)
    rw [word, BitVec.getLsbD_xor, BitVec.getLsbD_setWidth, BitVec.getLsbD_shiftLeft, hrest, hbyte]
    simp

/-- The bytes of a window that fits into the register can be added at once. -/
theorem foldl_absorb (w : List (BitVec 8)) (hw : 8 * w.length ≤ n) (x : BitVec n) :
    w.foldl (absorb poly) x = (shift poly)^[8 * w.length] (x ^^^ word w) := by
  induction w generalizing x with
  | nil => simp [word]
  | cons b w ih =>
    rw [List.length_cons] at hw ⊢
    have hword : (shift poly)^[8] (word w <<< 8) = word w :=
      iterate_shift_shiftLeft poly 8 fun i hi => getLsbD_word w (by omega)
    rw [List.foldl_cons, ih (by omega), absorb, Nat.mul_succ, Function.iterate_add_apply, word, ← BitVec.xor_assoc,
      iterate_shift_xor poly 8 _ (word w <<< 8), hword]

/-- Windows of the same length that fit into the register are told apart by it. -/
theorem word_injective {w w' : List (BitVec 8)} (hlength : w.length = w'.length) (hw : 8 * w.length ≤ n)
    (h : (word w : BitVec n) = word w') : w = w' := by
  induction w generalizing w' with
  | nil => exact (List.length_eq_zero_iff.mp hlength.symm).symm
  | cons b w ih =>
    cases w' with
    | nil => cases hlength
    | cons b' w' =>
      rw [List.length_cons] at hw
      have hlength' : w.length = w'.length := Nat.succ.inj hlength
      have hbit (i : ℕ) : (word (b :: w) : BitVec n).getLsbD i = (word (b' :: w') : BitVec n).getLsbD i := by
        rw [h]
      simp only [word, BitVec.getLsbD_xor, BitVec.getLsbD_setWidth, BitVec.getLsbD_shiftLeft] at hbit
      congr 1
      · refine BitVec.eq_of_getLsbD_eq fun i hi => ?_
        have hlow := hbit i
        simpa [hi, show i < n by omega] using hlow
      · refine ih hlength' (by omega) (BitVec.eq_of_getLsbD_eq fun i hi => ?_)
        by_cases htop : 8 * w.length ≤ i
        · rw [getLsbD_word w htop, getLsbD_word w' (hlength' ▸ htop)]
        · have hhigh := hbit (i + 8)
          simpa [show i + 8 < n by omega, show ¬ i + 8 < 8 by omega] using hhigh

/-- For a polynomial with its top bit set, bytes are absorbed injectively. -/
theorem foldl_absorb_injective {poly : BitVec n} (hpoly : poly.getLsbD (n - 1) = true) (w : List (BitVec 8)) :
    Function.Injective fun x => w.foldl (absorb poly) x := by
  induction w with
  | nil => exact Function.injective_id
  | cons b w ih =>
    intro x y h
    exact (BitVec.xor_left_inj _).mp (iterate_shift_injective hpoly 8 (ih h))

/-- Messages that differ only within a window no wider than the register have different checks. -/
theorem window_injective {poly : BitVec n} (hpoly : poly.getLsbD (n - 1) = true) {x : BitVec n}
    {before w w' after : List (BitVec 8)} (hlength : w.length = w'.length) (hw : 8 * w.length ≤ n)
    (h : (before ++ w ++ after).foldl (absorb poly) x = (before ++ w' ++ after).foldl (absorb poly) x) :
    w = w' := by
  simp only [List.foldl_append] at h
  have hwindow := foldl_absorb_injective hpoly after h
  rw [foldl_absorb poly w hw, foldl_absorb poly w' (hlength ▸ hw), hlength] at hwindow
  have hsum := iterate_shift_injective hpoly _ hwindow
  exact word_injective hlength hw ((BitVec.xor_right_inj _).mp hsum)

end Crc
