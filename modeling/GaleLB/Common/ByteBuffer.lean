import Mathlib.Data.List.GetD
import Mathlib.Tactic.NormNum

/-!
# Big-endian fields of a byte buffer

Bytes, 16-bit words and 32-bit double words are read and written at byte offsets, most
significant byte first. Checked loads and stores fail outside the buffer. A store
changes exactly the bytes of its field, so a load either overlaps it exactly or is
unaffected by it.
-/

namespace ByteBuffer

/-- A buffer of bytes. -/
abbrev Buffer := List UInt8

/-- The value of a byte, zero outside the buffer. -/
def byte (b : Buffer) (i : ℕ) : ℕ := (b.getD i 0).toNat

/-- The 16-bit word at an offset. -/
def word (b : Buffer) (i : ℕ) : ℕ := 256 * byte b i + byte b (i + 1)

/-- The 32-bit double word at an offset. -/
def dword (b : Buffer) (i : ℕ) : ℕ := 65536 * word b i + word b (i + 2)

/-- Overwrite the two bytes of a word. -/
def setWord (b : Buffer) (i v : ℕ) : Buffer :=
  (b.set i (UInt8.ofNat (v / 256))).set (i + 1) (UInt8.ofNat (v % 256))

/-- Overwrite the four bytes of a double word. -/
def setDword (b : Buffer) (i v : ℕ) : Buffer :=
  setWord (setWord b i (v / 65536)) (i + 2) (v % 65536)

/-- The 8-bit field at an offset. -/
def field8 (b : Buffer) (i : ℕ) : UInt8 := UInt8.ofNat (byte b i)

/-- The 16-bit field at an offset. -/
def field16 (b : Buffer) (i : ℕ) : UInt16 := UInt16.ofNat (word b i)

/-- The 32-bit field at an offset. -/
def field32 (b : Buffer) (i : ℕ) : UInt32 := UInt32.ofNat (dword b i)

/-- Load a byte, failing outside the buffer. -/
def load8 (b : Buffer) (i : ℕ) : Option UInt8 :=
  if i + 1 ≤ b.length then some (field8 b i) else none

/-- Load a word, failing outside the buffer. -/
def load16 (b : Buffer) (i : ℕ) : Option UInt16 :=
  if i + 2 ≤ b.length then some (field16 b i) else none

/-- Load a double word, failing outside the buffer. -/
def load32 (b : Buffer) (i : ℕ) : Option UInt32 :=
  if i + 4 ≤ b.length then some (field32 b i) else none

/-- Store a word, failing outside the buffer. -/
def store16 (b : Buffer) (i : ℕ) (v : UInt16) : Option Buffer :=
  if i + 2 ≤ b.length then some (setWord b i v.toNat) else none

/-- Store a double word, failing outside the buffer. -/
def store32 (b : Buffer) (i : ℕ) (v : UInt32) : Option Buffer :=
  if i + 4 ≤ b.length then some (setDword b i v.toNat) else none

/-- The two bytes of a word. -/
def encode16 (v : ℕ) : Buffer := [UInt8.ofNat (v / 256), UInt8.ofNat (v % 256)]

/-- The four bytes of a double word. -/
def encode32 (v : ℕ) : Buffer := encode16 (v / 65536) ++ encode16 (v % 65536)

/-- Bytes are below 256. -/
theorem byte_lt (b : Buffer) (i : ℕ) : byte b i < 256 := UInt8.toNat_lt _

/-- Words are below `65536`. -/
theorem word_lt (b : Buffer) (i : ℕ) : word b i < 65536 := by
  have h1 := byte_lt b i
  have h2 := byte_lt b (i + 1)
  unfold word
  omega

/-- Double words fit 32 bits. -/
theorem dword_lt (b : Buffer) (i : ℕ) : dword b i < 4294967296 := by
  have h1 := word_lt b i
  have h2 := word_lt b (i + 2)
  unfold dword
  omega

@[simp] theorem field8_toNat (b : Buffer) (i : ℕ) : (field8 b i).toNat = byte b i :=
  UInt8.toNat_ofNat_of_lt (byte_lt b i)

@[simp] theorem field16_toNat (b : Buffer) (i : ℕ) : (field16 b i).toNat = word b i :=
  UInt16.toNat_ofNat_of_lt (word_lt b i)

@[simp] theorem field32_toNat (b : Buffer) (i : ℕ) : (field32 b i).toNat = dword b i :=
  UInt32.toNat_ofNat_of_lt (dword_lt b i)

/-- A byte inside the buffer is loaded. -/
theorem load8_eq {b : Buffer} {i : ℕ} (h : i + 1 ≤ b.length) : load8 b i = some (field8 b i) := if_pos h

/-- A word inside the buffer is loaded. -/
theorem load16_eq {b : Buffer} {i : ℕ} (h : i + 2 ≤ b.length) : load16 b i = some (field16 b i) := if_pos h

/-- A double word inside the buffer is loaded. -/
theorem load32_eq {b : Buffer} {i : ℕ} (h : i + 4 ≤ b.length) : load32 b i = some (field32 b i) := if_pos h

/-- A word inside the buffer is stored. -/
theorem store16_eq {b : Buffer} {i : ℕ} {v : UInt16} (h : i + 2 ≤ b.length) :
    store16 b i v = some (setWord b i v.toNat) := if_pos h

/-- A double word inside the buffer is stored. -/
theorem store32_eq {b : Buffer} {i : ℕ} {v : UInt32} (h : i + 4 ≤ b.length) :
    store32 b i v = some (setDword b i v.toNat) := if_pos h

@[simp] theorem setWord_length (b : Buffer) (i v : ℕ) : (setWord b i v).length = b.length := by
  simp [setWord]

@[simp] theorem setDword_length (b : Buffer) (i v : ℕ) : (setDword b i v).length = b.length := by
  simp [setDword]

/-- A single overwritten byte. -/
theorem byte_set (b : Buffer) (i j : ℕ) (v : UInt8) (hi : i < b.length) :
    byte (b.set i v) j = if j = i then v.toNat else byte b j := by
  unfold byte
  rw [List.getD_eq_getElem?_getD, List.getD_eq_getElem?_getD, List.getElem?_set]
  by_cases hij : j = i
  · subst hij
    simp [hi]
  · simp [hij, Ne.symm hij]

/-- A stored word changes its two bytes and no other. -/
theorem byte_setWord (b : Buffer) (i j v : ℕ) (hi : i + 2 ≤ b.length) (hv : v < 65536) :
    byte (setWord b i v) j =
      if j = i then v / 256 else if j = i + 1 then v % 256 else byte b j := by
  have hhigh : (UInt8.ofNat (v / 256)).toNat = v / 256 := UInt8.toNat_ofNat_of_lt (by
    simp only [UInt8.size]; omega)
  have hlow : (UInt8.ofNat (v % 256)).toNat = v % 256 := UInt8.toNat_ofNat_of_lt (by
    simp only [UInt8.size]; omega)
  unfold setWord
  rw [byte_set _ _ _ _ (by simp; omega), byte_set _ _ _ _ (by omega), hhigh, hlow]
  split <;> split <;> first | rfl | omega

/-- A stored word is read back. -/
theorem word_setWord_self (b : Buffer) (i v : ℕ) (hi : i + 2 ≤ b.length) (hv : v < 65536) :
    word (setWord b i v) i = v := by
  unfold word
  rw [byte_setWord b i i v hi hv, byte_setWord b i (i + 1) v hi hv, if_pos rfl, if_neg (by omega),
    if_pos rfl]
  omega

/-- A word elsewhere is unaffected by a stored word. -/
theorem word_setWord_of_disjoint (b : Buffer) (i j v : ℕ) (hi : i + 2 ≤ b.length) (hv : v < 65536)
    (hij : j + 2 ≤ i ∨ i + 2 ≤ j) : word (setWord b i v) j = word b j := by
  unfold word
  rw [byte_setWord b i j v hi hv, byte_setWord b i (j + 1) v hi hv, if_neg (by omega),
    if_neg (by omega), if_neg (by omega), if_neg (by omega)]

/-- A stored double word changes its four bytes and no other. -/
theorem byte_setDword_of_disjoint (b : Buffer) (i j v : ℕ) (hi : i + 4 ≤ b.length)
    (hv : v < 4294967296) (hij : j < i ∨ i + 4 ≤ j) : byte (setDword b i v) j = byte b j := by
  unfold setDword
  rw [byte_setWord _ _ _ _ (by simp; omega) (by omega), byte_setWord _ _ _ _ (by omega) (by omega),
    if_neg (by omega), if_neg (by omega), if_neg (by omega), if_neg (by omega)]

/-- A stored double word is read back by its two words. -/
theorem word_setDword_self (b : Buffer) (i v : ℕ) (hi : i + 4 ≤ b.length) (hv : v < 4294967296) :
    word (setDword b i v) i = v / 65536 ∧ word (setDword b i v) (i + 2) = v % 65536 := by
  unfold setDword
  constructor
  · rw [word_setWord_of_disjoint _ _ _ _ (by simp; omega) (by omega) (by omega),
      word_setWord_self _ _ _ (by omega) (by omega)]
  · exact word_setWord_self _ _ _ (by simp; omega) (by omega)

/-- A word elsewhere is unaffected by a stored double word. -/
theorem word_setDword_of_disjoint (b : Buffer) (i j v : ℕ) (hi : i + 4 ≤ b.length)
    (hv : v < 4294967296) (hij : j + 2 ≤ i ∨ i + 4 ≤ j) : word (setDword b i v) j = word b j := by
  unfold word
  rw [byte_setDword_of_disjoint b i j v hi hv (by omega),
    byte_setDword_of_disjoint b i (j + 1) v hi hv (by omega)]

/-- A stored double word is read back. -/
theorem dword_setDword_self (b : Buffer) (i v : ℕ) (hi : i + 4 ≤ b.length) (hv : v < 4294967296) :
    dword (setDword b i v) i = v := by
  have hwords := word_setDword_self b i v hi hv
  unfold dword
  rw [hwords.1, hwords.2]
  omega

/-- A double word elsewhere is unaffected by a stored double word. -/
theorem dword_setDword_of_disjoint (b : Buffer) (i j v : ℕ) (hi : i + 4 ≤ b.length)
    (hv : v < 4294967296) (hij : j + 4 ≤ i ∨ i + 4 ≤ j) : dword (setDword b i v) j = dword b j := by
  unfold dword
  rw [word_setDword_of_disjoint b i j v hi hv (by omega),
    word_setDword_of_disjoint b i (j + 2) v hi hv (by omega)]

/-- A double word elsewhere is unaffected by a stored word. -/
theorem dword_setWord_of_disjoint (b : Buffer) (i j v : ℕ) (hi : i + 2 ≤ b.length) (hv : v < 65536)
    (hij : j + 4 ≤ i ∨ i + 2 ≤ j) : dword (setWord b i v) j = dword b j := by
  unfold dword
  rw [word_setWord_of_disjoint b i j v hi hv (by omega),
    word_setWord_of_disjoint b i (j + 2) v hi hv (by omega)]

/-- The byte at an offset and the bytes behind it. -/
theorem drop_eq_byte {b : Buffer} {i : ℕ} (h : i < b.length) :
    b.drop i = UInt8.ofNat (byte b i) :: b.drop (i + 1) := by
  have hbyte : UInt8.ofNat (byte b i) = b[i] := by
    unfold byte
    rw [UInt8.ofNat_toNat, List.getD_eq_getElem?_getD, List.getElem?_eq_getElem h, Option.getD_some]
  rw [hbyte, List.drop_eq_getElem_cons h]

/-- The word at an offset and the bytes behind it. -/
theorem drop_eq_encode16 {b : Buffer} {i : ℕ} (h : i + 2 ≤ b.length) :
    b.drop i = encode16 (word b i) ++ b.drop (i + 2) := by
  have hlow := byte_lt b (i + 1)
  have hdiv : word b i / 256 = byte b i := by
    unfold word
    omega
  have hmod : word b i % 256 = byte b (i + 1) := by
    unfold word
    omega
  rw [drop_eq_byte (by omega), drop_eq_byte (i := i + 1) (by omega), encode16, hdiv, hmod]
  rfl

/-- The double word at an offset and the bytes behind it. -/
theorem drop_eq_encode32 {b : Buffer} {i : ℕ} (h : i + 4 ≤ b.length) :
    b.drop i = encode32 (dword b i) ++ b.drop (i + 4) := by
  have hlow := word_lt b (i + 2)
  have hdiv : dword b i / 65536 = word b i := by
    unfold dword
    omega
  have hmod : dword b i % 65536 = word b (i + 2) := by
    unfold dword
    omega
  rw [drop_eq_encode16 (by omega), drop_eq_encode16 (i := i + 2) (by omega), encode32, hdiv, hmod,
    List.append_assoc]

end ByteBuffer
