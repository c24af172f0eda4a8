import Mathlib.Data.Int.Notation
import Mathlib.Data.List.Basic

/-!
# Pieces, fields, lines and numbers of a text

A text over any alphabet is cut at separators. `splitN` stops after a number of pieces and
keeps the rest of the text in the last one. `fields` are the nonempty pieces between
separators, so that a gap of any width counts once. `lines` are the pieces between line
ends, without the empty piece behind a final line end. Decimal texts consist of digits,
behind a minus sign for negative numbers, and determine their number.
-/

namespace TextFields

variable {α : Type*}

/-- Cut a text at its first separators into at most `n` pieces; the last piece keeps the rest. -/
def splitN [DecidableEq α] (sep : α) : ℕ → List α → List (List α)
  | 0, _ => []
  | 1, text => [text]
  | n + 2, text =>
    match text.dropWhile (· ≠ sep) with
    | [] => [text]
    | _ :: rest => text.takeWhile (· ≠ sep) :: splitN sep (n + 1) rest

/-- The text before the first separator is a piece. -/
theorem splitN_append_cons [DecidableEq α] {sep : α} {piece : List α} (h : sep ∉ piece) (n : ℕ)
    (rest : List α) : splitN sep (n + 2) (piece ++ sep :: rest) = piece :: splitN sep (n + 1) rest := by
  have hpiece : ∀ a ∈ piece, decide (a ≠ sep) = true := fun a ha => decide_eq_true fun hsep => h (hsep ▸ ha)
  have hdrop : (sep :: rest).dropWhile (· ≠ sep) = sep :: rest := List.dropWhile_cons_of_neg (by simp)
  have htake : (sep :: rest).takeWhile (· ≠ sep) = [] := List.takeWhile_cons_of_neg (by simp)
  rw [splitN, List.dropWhile_append_of_pos hpiece, List.takeWhile_append_of_pos hpiece, hdrop, htake,
    List.append_nil]

/-- The nonempty pieces between separators. -/
def fields (isSpace : α → Bool) (text : List α) : List (List α) :=
  (text.splitOnP isSpace).filter fun piece => !piece.isEmpty

/-- A text that can be a field: it is not empty and contains no separator. -/
def IsField (isSpace : α → Bool) (word : List α) : Prop :=
  word ≠ [] ∧ ∀ a ∈ word, isSpace a = false

instance [DecidableEq α] (isSpace : α → Bool) (word : List α) : Decidable (IsField isSpace word) :=
  inferInstanceAs (Decidable (_ ∧ _))

/-- Write words one after the other, with a gap of at least one separator before each further one. -/
def writeFields (sep : α) (first : List α) (others : List (ℕ × List α)) : List α :=
  first ++ others.flatMap fun other => List.replicate (other.1 + 1) sep ++ other.2

section Fields

variable {isSpace : α → Bool}

/-- A separator separates the fields before it from those behind it. -/
theorem fields_append_cons (text rest : List α) {sep : α} (h : isSpace sep = true) :
    fields isSpace (text ++ sep :: rest) = fields isSpace text ++ fields isSpace rest := by
  unfold fields
  rw [List.splitOnP_append_cons text rest h, List.filter_append]

/-- A field on its own. -/
theorem fields_word {word : List α} (h : IsField isSpace word) : fields isSpace word = [word] := by
  unfold fields
  rw [List.splitOnP_eq_singleton h.2, List.filter_cons_of_pos (by simp [h.1]), List.filter_nil]

/-- Separators in front of a text do not matter. -/
theorem fields_replicate_append (n : ℕ) {sep : α} (h : isSpace sep = true) (text : List α) :
    fields isSpace (List.replicate n sep ++ text) = fields isSpace text := by
  induction n with
  | zero => rfl
  | succ n ih =>
    have hcons := fields_append_cons [] (List.replicate n sep ++ text) h
    rw [List.nil_append] at hcons
    rw [List.replicate_succ, List.cons_append, hcons, ih]
    rfl

/-- Words that are written with gaps between them are read back. -/
theorem fields_writeFields {sep : α} (hsep : isSpace sep = true) {first : List α}
    {others : List (ℕ × List α)} (hfirst : IsField isSpace first)
    (hothers : ∀ other ∈ others, IsField isSpace other.2) :
    fields isSpace (writeFields sep first others) = first :: others.map Prod.snd := by
  induction others generalizing first with
  | nil =>
    unfold writeFields
    rw [List.flatMap_nil, List.append_nil, fields_word hfirst, List.map_nil]
  | cons other others ih =>
    rw [List.forall_mem_cons] at hothers
    have hline : writeFields sep first (other :: others) =
        first ++ sep :: (List.replicate other.1 sep ++ writeFields sep other.2 others) := by
      unfold writeFields
      rw [List.flatMap_cons, List.replicate_succ, List.cons_append, List.cons_append, List.append_assoc]
    rw [hline, fields_append_cons _ _ hsep, fields_word hfirst, fields_replicate_append _ hsep,
      ih hothers.1 hothers.2]
    rfl

/-- A written line consists of separators and of letters of its words. -/
theorem mem_writeFields {sep : α} {first : List α} {others : List (ℕ × List α)}
    (hfirst : IsField isSpace first) (hothers : ∀ other ∈ others, IsField isSpace other.2) {a : α}
    (ha : a ∈ writeFields sep first others) : a = sep ∨ isSpace a = false := by
  rcases List.mem_append.mp ha with hmem | hmem
  · exact Or.inr (hfirst.2 a hmem)
  · obtain ⟨other, hother, hmem⟩ := List.mem_flatMap.mp hmem
    rcases List.mem_append.mp hmem with hsep | hword
    · exact Or.inl (List.eq_of_mem_replicate hsep)
    · exact Or.inr ((hothers other hother).2 a hword)

end Fields

/-- The lines of a text without their ends; the last line need not have one. -/
def lines (isEnd : α → Bool) (text : List α) : List (List α) :=
  if (text.splitOnP isEnd).getLast?.any List.isEmpty then (text.splitOnP isEnd).dropLast
  else text.splitOnP isEnd

/-- Lines that are written out with an end each are read back. -/
theorem lines_flatMap {isEnd : α → Bool} {newline : α} (hend : isEnd newline = true)
    (texts : List (List α)) (h : ∀ text ∈ texts, ∀ a ∈ text, isEnd a = false) :
    lines isEnd (texts.flatMap fun text => text ++ [newline]) = texts := by
  have hsplit : (texts.flatMap fun text => text ++ [newline]).splitOnP isEnd = texts ++ [[]] := by
    induction texts with
    | nil => rfl
    | cons text rest ih =>
      rw [List.forall_mem_cons] at h
      rw [List.flatMap_cons, List.append_assoc, List.singleton_append,
        List.splitOnP_append_cons_of_forall_mem h.1 newline hend, ih h.2]
      rfl
  unfold lines
  rw [hsplit, List.getLast?_concat, List.dropLast_concat]
  rfl

/-- The text of an integer: its digits, behind a minus sign if it is negative. -/
theorem toList_toString_int (n : ℤ) :
    (toString n).toList = if 0 ≤ n then Nat.toDigits 10 n.toNat else '-' :: Nat.toDigits 10 (-n).toNat := by
  rw [Int.toString_eq_repr, Int.repr_eq_if]
  by_cases hn : 0 ≤ n
  · rw [if_pos hn, if_pos hn, Nat.repr_eq_ofList_toDigits, String.toList_ofList]
  · rw [if_neg hn, if_neg hn, String.toList_append, Nat.repr_eq_ofList_toDigits, String.toList_ofList,
      String.toList_ofList]
    rfl

/-- Decimal digits are digits. -/
theorem isDigit_of_mem_decimal {n : ℕ} {c : Char} (h : c ∈ Nat.toDigits 10 n) : c.isDigit = true :=
  Nat.isDigit_of_mem_toDigits (by decide) (by decide) h

/-- The text of an integer consists of digits and the minus sign. -/
theorem mem_toString_int {n : ℤ} {c : Char} (h : c ∈ (toString n).toList) : c.isDigit = true ∨ c = '-' := by
  rw [toList_toString_int] at h
  by_cases hn : 0 ≤ n
  · rw [if_pos hn] at h
    exact Or.inl (isDigit_of_mem_decimal h)
  · rw [if_neg hn, List.mem_cons] at h
    rcases h with h | h
    · exact Or.inr h
    · exact Or.inl (isDigit_of_mem_decimal h)

/-- Decimal digits determine their number. -/
theorem toDigits_inj {m n : ℕ} (h : Nat.toDigits 10 m = Nat.toDigits 10 n) : m = n := by
  rw [← Nat.ofDigitChars_ten_toDigits (n := m), h, Nat.ofDigitChars_ten_toDigits]

/-- The text of a number does not start with a minus sign. -/
theorem toDigits_ne_minus (n : ℕ) (rest : List Char) : Nat.toDigits 10 n ≠ '-' :: rest := by
  intro h
  have hdigit := isDigit_of_mem_decimal (n := n) (h ▸ List.mem_cons_self)
  exact absurd hdigit (by decide)

/-- The text of an integer determines it. -/
theorem toString_int_inj {m n : ℤ} (h : toString m = toString n) : m = n := by
  have hlist := congrArg String.toList h
  rw [toList_toString_int, toList_toString_int] at hlist
  by_cases hm : 0 ≤ m
  · by_cases hn : 0 ≤ n
    · rw [if_pos hm, if_pos hn] at hlist
      have hdigits := toDigits_inj hlist
      omega
    · rw [if_pos hm, if_neg hn] at hlist
      exact absurd hlist (toDigits_ne_minus _ _)
  · by_cases hn : 0 ≤ n
    · rw [if_neg hm, if_pos hn] at hlist
      exact absurd hlist.symm (toDigits_ne_minus _ _)
    · rw [if_neg hm, if_neg hn, List.cons.injEq] at hlist
      have hdigits := toDigits_inj hlist.2
      omega

end TextFields
