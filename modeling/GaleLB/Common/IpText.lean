import GaleLB.Common.NetAddress
import GaleLB.Common.TextFields
import Mathlib.Data.Nat.Digits.Defs

/-!
# Writing IP addresses

An IP address of four bytes is written as four decimal fields with dots, and so is one of
sixteen bytes that embeds four. Other addresses of sixteen bytes are written as hexadecimal
groups with colons, where the first longest run of at least two zero groups becomes `::`.

What is written is read back as the same address. Every accepted text denotes sixteen bytes, and
among the texts without colons there is one for each address.
-/

namespace NetAddress

/-- Decimal fields with dots. -/
def dotted (fields : List ℕ) : List Char := ['.'].intercalate (fields.map (Nat.toDigits 10))

/-- Hexadecimal groups with colons. -/
def coloned (groups : List ℕ) : List Char := [':'].intercalate (groups.map (Nat.toDigits 16))

/-- The number of zero groups from an index on. -/
def zeroRun (groups : List ℕ) (i : ℕ) : ℕ := ((groups.drop i).takeWhile (· = 0)).length

/-- Where the first longest run of at least two zero groups starts and ends. -/
def longestZeros (groups : List ℕ) : Option (ℕ × ℕ) :=
  (List.range 8).foldl (fun longest i =>
    let l := zeroRun groups i
    if 2 ≤ l ∧ (longest.map fun run => run.2 - run.1).getD 0 < l then some (i, i + l) else longest) none

/-- Eight groups, with the longest run of zeros left out. -/
def string6 (groups : List ℕ) : List Char :=
  match longestZeros groups with
  | none => coloned groups
  | some (zeroStart, zeroEnd) => coloned (groups.take zeroStart) ++ ':' :: ':' :: coloned (groups.drop zeroEnd)

/-- The groups of two bytes each. -/
def groupsOf : List ℕ → List ℕ
  | a :: b :: rest => (256 * a + b) :: groupsOf rest
  | _ => []

/-- The two bytes of every group. -/
def bytesOf (groups : List ℕ) : List ℕ := groups.flatMap fun g => [g / 256, g % 256]

/-- The first twelve bytes of an address that embeds one of four bytes. -/
def embedding : List ℕ := List.replicate 10 0 ++ [255, 255]

/-- The four bytes of an address, if it has or embeds them. -/
def to4 (ip : List ℕ) : Option (List ℕ) :=
  if ip.length = 4 then some ip
  else if ip.length = 16 ∧ ip.take 12 = embedding then some (ip.drop 12)
  else none

/-- The sixteen bytes of an address. -/
def to16 (ip : List ℕ) : List ℕ := if ip.length = 4 then embedding ++ ip else ip

/-- The text of an address; one that has neither four nor sixteen bytes is written byte by byte. -/
def ipString (ip : List ℕ) : List Char :=
  if ip = [] then "<nil>".toList
  else if ip.length ≠ 4 ∧ ip.length ≠ 16 then
    '?' :: ip.flatMap fun b => [Nat.digitChar (b / 16), Nat.digitChar (b % 16)]
  else
    match to4 ip with
    | some p4 => dotted p4
    | none => string6 (groupsOf ip)

/-- A digit goes into the current field. -/
theorem ipv4Loop_digit {fields : List ℕ} {val digLen d : ℕ} (hd : d < 10) (hzero : ¬ (digLen = 1 ∧ val = 0))
    (hle : val * 10 + d ≤ 255) (rest : List Char) :
    ipv4Loop fields val digLen (d.digitChar :: rest) = ipv4Loop fields (val * 10 + d) (digLen + 1) rest := by
  have hdigit : d.digitChar.isDigit = true :=
    Nat.isDigit_of_mem_toDigits (b := 10) (n := d) (by decide) (by decide)
      (by rw [Nat.toDigits_of_lt_base hd]; exact List.mem_singleton_self _)
  rw [ipv4Loop, if_pos hdigit, if_neg hzero, Nat.toNat_digitChar_sub_48_of_lt_ten hd, if_neg (by omega)]

/-- The digits of a byte are read as one field. -/
theorem ipv4Loop_toDigits {fields : List ℕ} (n : ℕ) (hn : n ≤ 255) (rest : List Char) :
    ipv4Loop fields 0 0 (Nat.toDigits 10 n ++ rest) = ipv4Loop fields n (Nat.toDigits 10 n).length rest := by
  induction n using Nat.strongRecOn generalizing rest with
  | ind n ih =>
    rcases Nat.lt_or_ge n 10 with hlt | hge
    · rw [Nat.toDigits_of_lt_base hlt, List.singleton_append, ipv4Loop_digit hlt (by omega) (by omega)]
      simp
    · rw [Nat.toDigits_of_base_le (by decide) hge, List.append_assoc, List.singleton_append,
        ih (n / 10) (by omega) (by omega), ipv4Loop_digit (Nat.mod_lt n (by decide)) (by omega) (by omega)]
      rw [show n / 10 * 10 + n % 10 = n by omega, List.length_append, List.length_singleton]

/-- Fields behind a field are read back. -/
theorem ipv4Loop_fields {fields : List ℕ} {n digLen : ℕ} (hdigits : digLen ≠ 0) (rest : List ℕ)
    (hbytes : ∀ b ∈ rest, b < 256) (hcount : fields.length + rest.length = 3) :
    ipv4Loop fields n digLen (rest.flatMap fun b => '.' :: Nat.toDigits 10 b) = some (fields ++ n :: rest) := by
  induction rest generalizing fields n digLen with
  | nil =>
    rw [List.length_nil] at hcount
    rw [List.flatMap_nil, ipv4Loop, if_neg (by omega)]
  | cons b rest ih =>
    rw [List.length_cons] at hcount
    have hb := hbytes b List.mem_cons_self
    have hne (text : List Char) : Nat.toDigits 10 b ++ text ≠ [] := by simp [Nat.toDigits_ne_nil]
    have hlength : (Nat.toDigits 10 b).length ≠ 0 := by simp [Nat.toDigits_ne_nil]
    rw [List.flatMap_cons, List.cons_append, ipv4Loop, if_neg (by decide), if_pos rfl,
      if_neg (not_or.mpr ⟨hdigits, hne _⟩), if_neg (by omega), ipv4Loop_toDigits b (by omega),
      ih hlength (fun c hc => hbytes c (List.mem_cons_of_mem _ hc)) (by simp; omega)]
    simp

/-- The first piece of a text, and each further one behind a separator. -/
theorem intercalate_cons {α : Type*} (sep : α) (piece : List α) (pieces : List (List α)) :
    [sep].intercalate (piece :: pieces) = piece ++ pieces.flatMap (sep :: ·) := by
  induction pieces generalizing piece with
  | nil => simp
  | cons next pieces ih =>
    rw [List.intercalate_cons_cons, ih, List.flatMap_cons, List.append_assoc]
    rfl

/-- The text of decimal fields, field by field. -/
theorem dotted_cons (field : ℕ) (rest : List ℕ) :
    dotted (field :: rest) = Nat.toDigits 10 field ++ rest.flatMap fun b => '.' :: Nat.toDigits 10 b := by
  rw [dotted, List.map_cons, intercalate_cons, List.flatMap_map]

/-- Four bytes that are written with dots are read back. -/
theorem parseIPv4_dotted {fields : List ℕ} (hlength : fields.length = 4) (hbytes : ∀ b ∈ fields, b < 256) :
    parseIPv4 (dotted fields) = some fields := by
  cases fields with
  | nil => cases hlength
  | cons field rest =>
    rw [List.forall_mem_cons] at hbytes
    have hdigits : (Nat.toDigits 10 field).length ≠ 0 := by simp [Nat.toDigits_ne_nil]
    rw [parseIPv4, dotted_cons, ipv4Loop_toDigits field (by omega),
      ipv4Loop_fields hdigits rest hbytes.2 (by simpa using hlength), List.nil_append]

/-- The digits of a group are hexadecimal digits with their values. -/
theorem hexDigit_digitChar : ∀ d < 16, isHexDigit (Nat.digitChar d) = true ∧ hexValue (Nat.digitChar d) = d := by
  decide

/-- A group is written in hexadecimal digits. -/
theorem isHexDigit_of_mem_toDigits {n : ℕ} {c : Char} (h : c ∈ Nat.toDigits 16 n) : isHexDigit c = true := by
  induction n using Nat.strongRecOn with
  | ind n ih =>
    rcases Nat.lt_or_ge n 16 with hlt | hge
    · rw [Nat.toDigits_of_lt_base hlt, List.mem_singleton] at h
      rw [h]
      exact (hexDigit_digitChar n hlt).1
    · rw [Nat.toDigits_of_base_le (by decide) hge, List.mem_append, List.mem_singleton] at h
      rcases h with h | rfl
      · exact ih (n / 16) (by omega) h
      · exact (hexDigit_digitChar _ (Nat.mod_lt n (by decide))).1

/-- The digits of a group have its value. -/
theorem groupValue_toDigits (n : ℕ) : groupValue (Nat.toDigits 16 n) = n := by
  induction n using Nat.strongRecOn with
  | ind n ih =>
    rcases Nat.lt_or_ge n 16 with hlt | hge
    · rw [Nat.toDigits_of_lt_base hlt, groupValue, List.foldl_cons, List.foldl_nil, (hexDigit_digitChar n hlt).2]
      omega
    · have hmod := Nat.mod_lt n (show 16 > 0 by decide)
      have hfront := ih (n / 16) (by omega)
      rw [groupValue] at hfront ⊢
      rw [Nat.toDigits_of_base_le (by decide) hge, List.foldl_append, hfront, List.foldl_cons, List.foldl_nil,
        (hexDigit_digitChar _ hmod).2]
      omega

section Groups

variable {n g : ℕ} {bytes : List ℕ} {ellipsis : Option ℕ} {rest : List Char}

/-- The digits of a group end at a colon or with the text. -/
theorem span_group (g : ℕ) {rest : List Char} (hrest : rest = [] ∨ rest.head? = some ':') :
    (Nat.toDigits 16 g ++ rest).takeWhile isHexDigit = Nat.toDigits 16 g ∧
      (Nat.toDigits 16 g ++ rest).dropWhile isHexDigit = rest := by
  have hdigits : ∀ c ∈ Nat.toDigits 16 g, isHexDigit c = true := fun c => isHexDigit_of_mem_toDigits
  have hcolon : isHexDigit ':' = false := by decide
  rw [List.takeWhile_append_of_pos hdigits, List.dropWhile_append_of_pos hdigits]
  rcases hrest with rfl | hhead
  · simp
  · obtain ⟨rest, rfl⟩ := List.head?_eq_some_iff.mp hhead
    rw [List.takeWhile_cons_of_neg (by rw [hcolon]; decide), List.dropWhile_cons_of_neg (by rw [hcolon]; decide),
      List.append_nil]
    exact ⟨rfl, rfl⟩

/-- A group has one to four digits. -/
theorem group_digits (hg : g < 65536) : ¬ (Nat.toDigits 16 g = [] ∨ 4 < (Nat.toDigits 16 g).length) := by
  have hlength := Nat.toDigits_length 16 g 4 (by decide) (by omega)
  exact not_or.mpr ⟨Nat.toDigits_ne_nil, by omega⟩

/-- A group at the end of a text. -/
theorem ipv6Loop_last (hg : g < 65536) :
    ipv6Loop (n + 1) bytes ellipsis (Nat.toDigits 16 g) = some (bytes ++ [g / 256, g % 256], ellipsis) := by
  obtain ⟨htake, hdrop⟩ := span_group g (Or.inl rfl)
  rw [List.append_nil] at htake hdrop
  rw [ipv6Loop, htake, hdrop, groupValue_toDigits]
  exact if_neg (group_digits hg)

/-- A group before another one. -/
theorem ipv6Loop_next (hg : g < 65536) {d : Char} (hd : d ≠ ':') :
    ipv6Loop (n + 1) bytes ellipsis (Nat.toDigits 16 g ++ ':' :: d :: rest) =
      ipv6Loop n (bytes ++ [g / 256, g % 256]) ellipsis (d :: rest) := by
  obtain ⟨htake, hdrop⟩ := span_group g (show ':' :: d :: rest = [] ∨ _ from Or.inr rfl)
  rw [ipv6Loop, htake, hdrop, groupValue_toDigits]
  refine (if_neg (group_digits hg)).trans ?_
  dsimp only
  rw [if_neg (by decide), if_pos rfl, if_neg hd]

/-- A group before the zeros that are left out. -/
theorem ipv6Loop_colons (hg : g < 65536) :
    ipv6Loop (n + 1) bytes none (Nat.toDigits 16 g ++ ':' :: ':' :: rest) =
      if rest = [] then some (bytes ++ [g / 256, g % 256], some (bytes ++ [g / 256, g % 256]).length)
      else ipv6Loop n (bytes ++ [g / 256, g % 256]) (some (bytes ++ [g / 256, g % 256]).length) rest := by
  obtain ⟨htake, hdrop⟩ := span_group g (show ':' :: ':' :: rest = [] ∨ _ from Or.inr rfl)
  rw [ipv6Loop, htake, hdrop, groupValue_toDigits]
  refine (if_neg (group_digits hg)).trans ?_
  dsimp only
  rw [if_neg (by decide), if_pos rfl, if_pos rfl, if_neg (by simp)]

end Groups

/-- The text of groups, group by group. -/
theorem coloned_cons (g : ℕ) (groups : List ℕ) :
    coloned (g :: groups) = Nat.toDigits 16 g ++ groups.flatMap fun g => ':' :: Nat.toDigits 16 g := by
  rw [coloned, List.map_cons, intercalate_cons, List.flatMap_map]

/-- A text of groups starts with a digit. -/
theorem exists_coloned_cons (g : ℕ) (groups : List ℕ) :
    ∃ d rest, coloned (g :: groups) = d :: rest ∧ isHexDigit d = true := by
  match hdigits : Nat.toDigits 16 g with
  | [] => exact absurd hdigits Nat.toDigits_ne_nil
  | d :: digits =>
    have hd : isHexDigit d = true := by
      refine isHexDigit_of_mem_toDigits (n := g) ?_
      rw [hdigits]
      exact List.mem_cons_self
    exact ⟨d, _, by rw [coloned_cons, hdigits, List.cons_append], hd⟩

/-- Digits are no colons. -/
theorem ne_colon_of_isHexDigit {d : Char} (h : isHexDigit d = true) : d ≠ ':' := by
  rintro rfl
  exact absurd h (by decide)

/-- Groups that are written with colons are read back. -/
theorem ipv6Loop_coloned {n : ℕ} {bytes : List ℕ} {ellipsis : Option ℕ} (g : ℕ) (groups : List ℕ)
    (hgroups : ∀ g' ∈ g :: groups, g' < 65536) (hcount : groups.length ≤ n) :
    ipv6Loop (n + 1) bytes ellipsis (coloned (g :: groups)) = some (bytes ++ bytesOf (g :: groups), ellipsis) := by
  induction groups generalizing n bytes g with
  | nil =>
    rw [coloned_cons, List.flatMap_nil, List.append_nil, ipv6Loop_last (hgroups g List.mem_cons_self)]
    rfl
  | cons g' groups ih =>
    obtain ⟨n, rfl⟩ : ∃ m, n = m + 1 := ⟨n - 1, by rw [List.length_cons] at hcount; omega⟩
    obtain ⟨d, rest, htext, hd⟩ := exists_coloned_cons g' groups
    have hrest : (g' :: groups).flatMap (fun g => ':' :: Nat.toDigits 16 g) = ':' :: coloned (g' :: groups) := by
      rw [coloned_cons]
      rfl
    rw [coloned_cons, hrest, htext, ipv6Loop_next (hgroups g List.mem_cons_self) (ne_colon_of_isHexDigit hd),
      ← htext, ih g' (fun x hx => hgroups x (List.mem_cons_of_mem _ hx)) (by simpa using hcount)]
    simp [bytesOf]

/-- Groups around the zeros that are left out are read back. -/
theorem ipv6Loop_ellipsis {n : ℕ} {bytes : List ℕ} (g : ℕ) (groups after : List ℕ)
    (hgroups : ∀ g' ∈ g :: groups, g' < 65536) (hafter : ∀ g' ∈ after, g' < 65536)
    (hcount : groups.length + after.length ≤ n) :
    ipv6Loop (n + 1) bytes none (coloned (g :: groups) ++ ':' :: ':' :: coloned after) =
      some (bytes ++ bytesOf (g :: groups) ++ bytesOf after, some (bytes ++ bytesOf (g :: groups)).length) := by
  induction groups generalizing n bytes g with
  | nil =>
    have hg := hgroups g List.mem_cons_self
    rw [coloned_cons, List.flatMap_nil, List.append_nil, ipv6Loop_colons hg]
    cases after with
    | nil => simp [coloned, bytesOf]
    | cons a after =>
      obtain ⟨n, rfl⟩ : ∃ m, n = m + 1 := ⟨n - 1, by rw [List.length_cons] at hcount; omega⟩
      obtain ⟨d, rest, htext, -⟩ := exists_coloned_cons a after
      rw [if_neg (by rw [htext]; nofun), ipv6Loop_coloned a after hafter (by simpa using hcount)]
      rfl
  | cons g' groups ih =>
    obtain ⟨n, rfl⟩ : ∃ m, n = m + 1 := ⟨n - 1, by rw [List.length_cons] at hcount; omega⟩
    obtain ⟨d, rest, htext, hd⟩ := exists_coloned_cons g' groups
    have hrest : (g' :: groups).flatMap (fun g => ':' :: Nat.toDigits 16 g) = ':' :: coloned (g' :: groups) := by
      rw [coloned_cons]
      rfl
    have hnext : ipv6Loop (n + 1) (bytes ++ [g / 256, g % 256]) none
        (coloned (g' :: groups) ++ ':' :: ':' :: coloned after) = _ :=
      ih g' (fun x hx => hgroups x (List.mem_cons_of_mem _ hx)) (by rw [List.length_cons] at hcount; omega)
    rw [htext, List.cons_append] at hnext
    rw [coloned_cons, hrest, htext, List.append_assoc, List.cons_append, List.cons_append,
      ipv6Loop_next (hgroups g List.mem_cons_self) (ne_colon_of_isHexDigit hd), hnext]
    simp [bytesOf]

/-- The zeros from an index on. -/
theorem take_zeroRun (groups : List ℕ) (i : ℕ) :
    (groups.drop i).take (zeroRun groups i) = List.replicate (zeroRun groups i) 0 ∧
      i + zeroRun groups i ≤ max i groups.length := by
  have hall : ∀ g ∈ (groups.drop i).takeWhile (· = 0), g = 0 := fun g hg => by
    simpa using List.mem_takeWhile_imp hg
  constructor
  · rw [zeroRun, ← List.prefix_iff_eq_take.mp (List.takeWhile_prefix _)]
    exact List.eq_replicate_of_mem hall
  · have hle := (List.takeWhile_prefix (fun g : ℕ => decide (g = 0)) (l := groups.drop i)).length_le
    rw [List.length_drop] at hle
    unfold zeroRun
    omega

/-- The run of zeros that is left out consists of zeros. -/
theorem longestZeros_spec {groups : List ℕ} (hlength : groups.length = 8) {zeroStart zeroEnd : ℕ}
    (h : longestZeros groups = some (zeroStart, zeroEnd)) :
    zeroStart < zeroEnd ∧ zeroEnd ≤ 8 ∧
      groups = groups.take zeroStart ++ List.replicate (zeroEnd - zeroStart) 0 ++ groups.drop zeroEnd := by
  -- Every run that the loop keeps starts at an index it has visited and has as many zeros as were counted there.
  have hloop (indices : List ℕ) (hindices : ∀ i ∈ indices, i < 8) : ∀ longest : Option (ℕ × ℕ),
      (∀ run ∈ longest, run.1 < 8 ∧ run.2 = run.1 + zeroRun groups run.1 ∧ 2 ≤ zeroRun groups run.1) →
      ∀ run ∈ indices.foldl (fun longest i =>
        let l := zeroRun groups i
        if 2 ≤ l ∧ (longest.map fun run => run.2 - run.1).getD 0 < l then some (i, i + l) else longest) longest,
        run.1 < 8 ∧ run.2 = run.1 + zeroRun groups run.1 ∧ 2 ≤ zeroRun groups run.1 := by
    induction indices with
    | nil => exact fun _ hlongest => hlongest
    | cons i indices ih =>
      intro longest hlongest
      rw [List.forall_mem_cons] at hindices
      refine ih hindices.2 _ ?_
      dsimp only
      split
      case isTrue hlonger =>
        intro run hrun
        cases hrun
        exact ⟨hindices.1, rfl, hlonger.1⟩
      case isFalse => exact hlongest
  obtain ⟨hstart, hend, htwo⟩ := hloop (List.range 8) (fun i => List.mem_range.mp) none nofun _ h
  obtain ⟨hzeros, hle⟩ := take_zeroRun groups zeroStart
  dsimp only at hend htwo hstart
  refine ⟨by omega, by omega, ?_⟩
  have hsplit := List.take_append_drop (zeroRun groups zeroStart) (groups.drop zeroStart)
  rw [hzeros, List.drop_drop] at hsplit
  rw [hend, Nat.add_sub_cancel_left, List.append_assoc, hsplit, List.take_append_drop]

/-- The number of bytes of groups. -/
theorem length_bytesOf (groups : List ℕ) : (bytesOf groups).length = 2 * groups.length := by
  induction groups with
  | nil => rfl
  | cons g groups ih =>
    change (bytesOf groups).length + 2 = _
    rw [ih, List.length_cons]
    omega

/-- The bytes of groups one after the other. -/
theorem bytesOf_append (groups groups' : List ℕ) :
    bytesOf (groups ++ groups') = bytesOf groups ++ bytesOf groups' :=
  List.flatMap_append

/-- Zero groups have zero bytes. -/
theorem bytesOf_replicate (k : ℕ) : bytesOf (List.replicate k 0) = List.replicate (2 * k) 0 := by
  induction k with
  | zero => rfl
  | succ k ih =>
    rw [List.replicate_succ, Nat.mul_succ, List.replicate_succ, List.replicate_succ, ← ih]
    rfl

/-- The zeros that were left out are put back. -/
theorem expandEllipsis_groups {before after : List ℕ} {k : ℕ} (hk : 0 < k)
    (hlength : (before ++ List.replicate k 0 ++ after).length = 8) :
    expandEllipsis (bytesOf before ++ bytesOf after, some (bytesOf before).length) =
      some (bytesOf (before ++ List.replicate k 0 ++ after)) := by
  rw [List.length_append, List.length_append, List.length_replicate] at hlength
  have hbytes : (bytesOf before ++ bytesOf after).length = 16 - 2 * k := by
    rw [List.length_append, length_bytesOf, length_bytesOf]
    omega
  unfold expandEllipsis
  dsimp only
  rw [if_pos (by omega), hbytes, List.take_left, List.drop_left, bytesOf_append, bytesOf_append, bytesOf_replicate,
    show 16 - (16 - 2 * k) = 2 * k by omega]

/-- A text that starts with a digit does not start with colons. -/
theorem take_two_ne {d : Char} (hd : isHexDigit d = true) (rest : List Char) : (d :: rest).take 2 ≠ [':', ':'] := by
  intro h
  exact ne_colon_of_isHexDigit hd (List.cons.inj h).1

/-- Eight groups are read back. -/
theorem ipv6Bytes_string6 {groups : List ℕ} (hlength : groups.length = 8) (hgroups : ∀ g ∈ groups, g < 65536) :
    ipv6Bytes (string6 groups) = some (bytesOf groups) := by
  unfold string6
  match hzeros : longestZeros groups with
  | none =>
    obtain ⟨g, rest, rfl⟩ : ∃ g rest, groups = g :: rest := List.exists_cons_of_length_pos (by omega)
    obtain ⟨d, text, htext, hd⟩ := exists_coloned_cons g rest
    have hloop : ipv6Loop 8 [] none (coloned (g :: rest)) = some ([] ++ bytesOf (g :: rest), none) :=
      ipv6Loop_coloned g rest hgroups (by rw [List.length_cons] at hlength; omega)
    have hbytes : (bytesOf (g :: rest)).length = 16 := by rw [length_bytesOf, hlength]
    unfold ipv6Bytes
    dsimp only
    rw [if_neg (htext ▸ take_two_ne hd text), hloop, List.nil_append, Option.bind_some, expandEllipsis]
    exact if_neg (by rw [hbytes]; decide)
  | some (zeroStart, zeroEnd) =>
    obtain ⟨hlt, hle, hsplit⟩ := longestZeros_spec hlength hzeros
    have hpos : 0 < zeroEnd - zeroStart := by omega
    have hafter : ∀ g ∈ groups.drop zeroEnd, g < 65536 := fun g hg => hgroups g (List.mem_of_mem_drop hg)
    have hbefore : ∀ g ∈ groups.take zeroStart, g < 65536 := fun g hg => hgroups g (List.mem_of_mem_take hg)
    rw [hsplit] at hlength
    dsimp only
    conv_rhs => rw [hsplit]
    generalize groups.take zeroStart = before at hlength hbefore
    generalize groups.drop zeroEnd = after at hlength hafter
    rw [← expandEllipsis_groups hpos hlength]
    rw [List.length_append, List.length_append, List.length_replicate] at hlength
    unfold ipv6Bytes
    cases before with
    | nil =>
      refine (if_pos rfl).trans ?_
      cases after with
      | nil => rfl
      | cons a rest =>
        obtain ⟨d, text, htext, -⟩ := exists_coloned_cons a rest
        have hloop : ipv6Loop 8 [] (some 0) (coloned (a :: rest)) = some ([] ++ bytesOf (a :: rest), some 0) :=
          ipv6Loop_coloned a rest hafter (by rw [List.length_cons] at hlength; omega)
        change (if coloned (a :: rest) = [] then _ else (ipv6Loop 8 [] (some 0) (coloned (a :: rest))).bind _) = _
        rw [if_neg (by rw [htext]; nofun), hloop]
        rfl
    | cons g rest =>
      obtain ⟨d, text, htext, hd⟩ := exists_coloned_cons g rest
      have hloop : ipv6Loop 8 [] none (coloned (g :: rest) ++ ':' :: ':' :: coloned after) =
          some ([] ++ bytesOf (g :: rest) ++ bytesOf after, some ([] ++ bytesOf (g :: rest)).length) :=
        ipv6Loop_ellipsis g rest after hbefore hafter (by rw [List.length_cons] at hlength; omega)
      rw [if_neg (by rw [htext]; exact take_two_ne hd _), hloop, List.nil_append, Option.bind_some]

/-- Bytes are put together to groups and taken apart again. -/
theorem bytesOf_groupsOf {k : ℕ} {ip : List ℕ} (hlength : ip.length = 2 * k) (hbytes : ∀ b ∈ ip, b < 256) :
    bytesOf (groupsOf ip) = ip ∧ (groupsOf ip).length = k ∧ ∀ g ∈ groupsOf ip, g < 65536 := by
  induction k generalizing ip with
  | zero =>
    rw [List.length_eq_zero_iff.mp hlength]
    exact ⟨rfl, rfl, nofun⟩
  | succ k ih =>
    match ip with
    | [] => cases hlength
    | [_] =>
      rw [List.length_singleton] at hlength
      omega
    | a :: b :: rest =>
      rw [List.forall_mem_cons, List.forall_mem_cons] at hbytes
      obtain ⟨ha, hb, hrest⟩ := hbytes
      obtain ⟨hback, hcount, hgroups⟩ := ih (by simpa [Nat.mul_succ] using hlength) hrest
      refine ⟨?_, ?_, ?_⟩
      · change [(256 * a + b) / 256, (256 * a + b) % 256] ++ bytesOf (groupsOf rest) = _
        rw [hback, show (256 * a + b) / 256 = a by omega, show (256 * a + b) % 256 = b by omega]
        rfl
      · rw [groupsOf, List.length_cons, hcount]
      · rw [groupsOf, List.forall_mem_cons]
        exact ⟨by omega, hgroups⟩

/-- The characters of the text of eight groups. -/
theorem mem_string6 {groups : List ℕ} {c : Char} (h : c ∈ string6 groups) : isHexDigit c = true ∨ c = ':' := by
  have hcoloned (groups : List ℕ) : ∀ c ∈ coloned groups, isHexDigit c = true ∨ c = ':' := by
    cases groups with
    | nil => exact nofun
    | cons g groups =>
      intro c hc
      rw [coloned_cons, List.mem_append, List.mem_flatMap] at hc
      rcases hc with hc | ⟨g', -, hc⟩
      · exact Or.inl (isHexDigit_of_mem_toDigits hc)
      · rcases List.mem_cons.mp hc with rfl | hc
        · exact Or.inr rfl
        · exact Or.inl (isHexDigit_of_mem_toDigits hc)
  unfold string6 at h
  split at h
  · exact hcoloned _ c h
  · simp only [List.mem_append, List.mem_cons] at h
    rcases h with h | rfl | rfl | h
    · exact hcoloned _ c h
    · exact Or.inr rfl
    · exact Or.inr rfl
    · exact hcoloned _ c h

/-- A text of eight groups has a colon. -/
theorem colon_mem_string6 {groups : List ℕ} (hlength : groups.length = 8) : ':' ∈ string6 groups := by
  unfold string6
  split
  · match groups with
    | [] | [_] => simp at hlength
    | g :: g' :: rest =>
      rw [coloned_cons]
      simp
  · simp

/-- Four bytes with dots are read as an address that embeds them. -/
theorem parseIP_dotted {fields : List ℕ} (hlength : fields.length = 4) (hbytes : ∀ b ∈ fields, b < 256) :
    parseIP (dotted fields) = some (embedding ++ fields) := by
  have hfind : (dotted fields).find? (fun c => c = '.' || c = ':' || c = '%') = some '.' := by
    match fields with
    | [] | [_] => simp at hlength
    | field :: next :: rest =>
      have hdigits : (Nat.toDigits 10 field).find? (fun c => c = '.' || c = ':' || c = '%') = none := by
        rw [List.find?_eq_none]
        intro c hc hseparator
        have hdigit := TextFields.isDigit_of_mem_decimal hc
        simp only [Bool.or_eq_true, decide_eq_true_eq] at hseparator
        rcases hseparator with (rfl | rfl) | rfl <;> exact absurd hdigit (by decide)
      rw [dotted_cons, List.find?_append, hdigits]
      rfl
  rw [parseIP, hfind]
  rw [parseIPv4_dotted hlength hbytes]
  rfl

/-- Eight groups with colons are read as the address with their bytes. -/
theorem parseIP_string6 {groups : List ℕ} (hlength : groups.length = 8) (hgroups : ∀ g ∈ groups, g < 65536) :
    parseIP (string6 groups) = some (bytesOf groups) := by
  have hpercent : '%' ∉ string6 groups := fun hmem => by
    rcases mem_string6 hmem with hdigit | hcolon
    · exact absurd hdigit (by decide)
    · exact absurd hcolon (by decide)
  have hall : ∀ c ∈ string6 groups, decide (c ≠ '%') = true := fun c hc => by
    rw [decide_eq_true_eq]
    rintro rfl
    exact hpercent hc
  have hfind : (string6 groups).find? (fun c => c = '.' || c = ':' || c = '%') = some ':' := by
    match h : (string6 groups).find? (fun c => c = '.' || c = ':' || c = '%') with
    | none =>
      have hnone := List.find?_eq_none.mp h ':' (colon_mem_string6 hlength)
      exact absurd rfl hnone
    | some c =>
      have hseparator := List.find?_some h
      rcases mem_string6 (List.mem_of_find?_eq_some h) with hdigit | rfl
      · simp only [Bool.or_eq_true, decide_eq_true_eq] at hseparator
        rcases hseparator with (rfl | rfl) | rfl <;> exact absurd hdigit (by decide)
      · rfl
  rw [parseIP, hfind]
  rw [parseIPv6, List.dropWhile_eq_nil_iff.mpr hall, List.takeWhile_eq_self_iff.mpr hall,
    ipv6Bytes_string6 hlength hgroups]
  simp [hpercent]

/-- The four bytes of an address that has or embeds them. -/
theorem to4_eq_some {ip p4 : List ℕ} (h : to4 ip = some p4) :
    p4.length = 4 ∧ p4 ⊆ ip ∧ to16 ip = embedding ++ p4 ∧ (ip.length = 4 ∨ ip.length = 16) := by
  unfold to4 at h
  unfold to16
  split_ifs at h with hfour hembeds
  · cases h
    exact ⟨hfour, List.Subset.refl ip, if_pos hfour, Or.inl hfour⟩
  · cases h
    refine ⟨by rw [List.length_drop, hembeds.1], List.drop_subset 12 ip, ?_, Or.inr hembeds.1⟩
    rw [if_neg hfour, ← hembeds.2, List.take_append_drop]

/-- Four bytes are found in the address that embeds them. -/
theorem to4_embedding {p4 : List ℕ} (hlength : p4.length = 4) : to4 (embedding ++ p4) = some p4 := by
  have hsixteen : (embedding ++ p4).length = 16 := by rw [List.length_append, hlength]; rfl
  unfold to4
  rw [if_neg (by omega), if_pos ⟨hsixteen, List.take_left' rfl⟩]
  exact congrArg some (List.drop_left' rfl)

/-- An address that has or embeds four bytes is written with dots. -/
theorem ipString_of_to4 {ip p4 : List ℕ} (h : to4 ip = some p4) : ipString ip = dotted p4 := by
  have hlength := (to4_eq_some h).2.2.2
  have hne : ip ≠ [] := by
    rintro rfl
    rcases hlength with h | h <;> cases h
  rw [ipString, if_neg hne, if_neg (by omega), h]

/-- The text of an address of four or sixteen bytes is read as that address. -/
theorem parseIP_ipString {ip : List ℕ} (hlength : ip.length = 4 ∨ ip.length = 16) (hbytes : ∀ b ∈ ip, b < 256) :
    parseIP (ipString ip) = some (to16 ip) := by
  cases hto4 : to4 ip with
  | some p4 =>
    obtain ⟨hfour, hsubset, hto16, -⟩ := to4_eq_some hto4
    rw [ipString_of_to4 hto4, hto16]
    exact parseIP_dotted hfour fun b hb => hbytes b (hsubset hb)
  | none =>
    have hfour : ip.length ≠ 4 := fun h => by rw [to4, if_pos h] at hto4; cases hto4
    have hsixteen : ip.length = 16 := hlength.resolve_left hfour
    have hne : ip ≠ [] := by
      rintro rfl
      cases hsixteen
    obtain ⟨hback, hcount, hgroups⟩ := bytesOf_groupsOf (k := 8) hsixteen hbytes
    rw [ipString, if_neg hne, if_neg (by omega), hto4, to16, if_neg hfour]
    exact (parseIP_string6 hcount hgroups).trans (congrArg some hback)

/-- The text of an address does not depend on whether it has or embeds its four bytes. -/
theorem ipString_to16 (ip : List ℕ) : ipString (to16 ip) = ipString ip := by
  by_cases hfour : ip.length = 4
  · rw [to16, if_pos hfour, ipString_of_to4 (to4_embedding hfour), ipString_of_to4 (if_pos hfour)]
  · rw [to16, if_neg hfour]

/-- Decimal fields are four bytes. -/
theorem ipv4Loop_bytes {fields : List ℕ} {val digLen : ℕ} {s : List Char} {result : List ℕ}
    (h : ipv4Loop fields val digLen s = some result) (hfields : ∀ b ∈ fields, b < 256) (hval : val < 256)
    (hcount : fields.length ≤ 3) : result.length = 4 ∧ ∀ b ∈ result, b < 256 := by
  induction s generalizing fields val digLen with
  | nil =>
    rw [ipv4Loop] at h
    split_ifs at h with hshort
    cases h
    refine ⟨by rw [List.length_append, List.length_singleton]; omega, ?_⟩
    rw [List.forall_mem_append, List.forall_mem_singleton]
    exact ⟨hfields, hval⟩
  | cons c rest ih =>
    rw [ipv4Loop] at h
    split_ifs at h with hdigit hzero hlarge hdot hend hthree
    · exact ih h hfields (by omega) hcount
    · refine ih h ?_ (by decide) (by rw [List.length_append, List.length_singleton]; omega)
      rw [List.forall_mem_append, List.forall_mem_singleton]
      exact ⟨hfields, hval⟩

/-- Four decimal fields are four bytes. -/
theorem parseIPv4_bytes {s : List Char} {fields : List ℕ} (h : parseIPv4 s = some fields) :
    fields.length = 4 ∧ ∀ b ∈ fields, b < 256 := ipv4Loop_bytes h nofun (by decide) (by decide)

/-- A hexadecimal digit has a value below sixteen. -/
theorem hexValue_lt {c : Char} (h : isHexDigit c = true) : hexValue c < 16 := by
  have hle {a b : Char} (hab : a ≤ b) : a.toNat ≤ b.toNat := UInt32.le_iff_toNat_le.mp hab
  unfold hexValue
  simp only [isHexDigit, Bool.or_eq_true, Bool.and_eq_true, decide_eq_true_eq] at h
  split_ifs with hdigit hlower
  · rw [Char.isDigit, Bool.and_eq_true, decide_eq_true_eq, decide_eq_true_eq] at hdigit
    have hnine : c.toNat ≤ 57 := UInt32.le_iff_toNat_le.mp hdigit.2
    omega
  · have hf : c.toNat ≤ 102 := hle hlower.2
    omega
  · rcases h with (h | h) | h
    · exact absurd h hdigit
    · exact absurd h hlower
    · have hF : c.toNat ≤ 70 := hle h.2
      omega

/-- Digits add one hexadecimal place each. -/
theorem foldl_hexValue_lt (digits : List Char) (hdigits : ∀ c ∈ digits, isHexDigit c = true) {k acc : ℕ}
    (hacc : acc < 16 ^ k) : digits.foldl (fun acc c => acc * 16 + hexValue c) acc < 16 ^ (k + digits.length) := by
  induction digits generalizing k acc with
  | nil => exact hacc
  | cons c rest ih =>
    rw [List.forall_mem_cons] at hdigits
    have hc := hexValue_lt hdigits.1
    have hnext : acc * 16 + hexValue c < 16 ^ (k + 1) := by
      rw [Nat.pow_succ]
      omega
    have hrest := ih hdigits.2 hnext
    rwa [Nat.add_assoc, Nat.add_comm 1] at hrest

/-- A group of at most four digits is a pair of bytes. -/
theorem groupValue_lt {digits : List Char} (hdigits : ∀ c ∈ digits, isHexDigit c = true)
    (hlength : digits.length ≤ 4) :
    groupValue digits < 65536 := by
  have hlt : groupValue digits < 16 ^ (0 + digits.length) := foldl_hexValue_lt digits hdigits (by decide)
  have hpow : 16 ^ (0 + digits.length) ≤ 16 ^ 4 := Nat.pow_le_pow_right (by decide) (by omega)
  exact hlt.trans_le hpow

/-- A further group adds two bytes. -/
theorem append_group {bytes : List ℕ} {s : List Char} (hbytes : ∀ b ∈ bytes, b < 256)
    (hdigits : ¬ (s.takeWhile isHexDigit = [] ∨ 4 < (s.takeWhile isHexDigit).length)) :
    ∀ b ∈ bytes ++ [groupValue (s.takeWhile isHexDigit) / 256, groupValue (s.takeWhile isHexDigit) % 256],
      b < 256 := by
  have hgroup := groupValue_lt (fun c hc => List.mem_takeWhile_imp hc) (not_lt.mp (not_or.mp hdigits).2)
  rw [List.forall_mem_append, List.forall_mem_cons, List.forall_mem_singleton]
  exact ⟨hbytes, by omega, by omega⟩

/-- A further group leaves room for the groups that may still follow. -/
theorem append_group_count {bytes : List ℕ} {n hi lo : ℕ} (hcount : bytes.length + 2 * (n + 1) ≤ 16) :
    (bytes ++ [hi, lo]).length + 2 * n ≤ 16 := by
  rw [List.length_append, List.length_cons, List.length_singleton]
  omega

/-- Hexadecimal groups are pairs of bytes, at most sixteen of them. -/
theorem ipv6Loop_bytes {n : ℕ} {bytes : List ℕ} {ellipsis : Option ℕ} {s : List Char}
    {result : List ℕ × Option ℕ} (h : ipv6Loop n bytes ellipsis s = some result) (hbytes : ∀ b ∈ bytes, b < 256)
    (hcount : bytes.length + 2 * n ≤ 16) : result.1.length ≤ 16 ∧ ∀ b ∈ result.1, b < 256 := by
  fun_induction ipv6Loop n bytes ellipsis s with
  | case1 =>
    cases h
    exact ⟨by omega, hbytes⟩
  | case2 | case3 | case5 | case6 | case8 | case9 | case13 => cases h
  | case4 _ _ _ _ _ _ hdigits | case10 _ _ _ _ _ _ hdigits =>
    cases h
    exact ⟨(Nat.le_add_right _ _).trans (append_group_count hcount), append_group hbytes hdigits⟩
  | case7 n bytes ellipsis s =>
    obtain ⟨fields, hfields, rfl⟩ := Option.map_eq_some_iff.mp h
    obtain ⟨hfour, hlt⟩ := parseIPv4_bytes hfields
    refine ⟨by rw [List.length_append]; omega, ?_⟩
    rw [List.forall_mem_append]
    exact ⟨hbytes, hlt⟩
  | case11 _ _ _ _ _ _ hdigits _ _ _ _ _ ih | case12 _ _ _ _ _ _ hdigits _ _ _ _ _ ih =>
    exact ih h (append_group hbytes hdigits) (append_group_count hcount)

/-- A run of zeros fills up to sixteen bytes. -/
theorem expandEllipsis_bytes {parsed : List ℕ × Option ℕ} {bytes : List ℕ}
    (h : expandEllipsis parsed = some bytes) (hlength : parsed.1.length ≤ 16) (hbytes : ∀ b ∈ parsed.1, b < 256) :
    bytes.length = 16 ∧ ∀ b ∈ bytes, b < 256 := by
  unfold expandEllipsis at h
  split at h
  · split_ifs at h with hshort
    cases h
    exact ⟨by omega, hbytes⟩
  · split_ifs at h with hshort
    cases h
    rename_i place _
    refine ⟨?_, ?_⟩
    · have hparts := congrArg List.length (List.take_append_drop place parsed.1)
      rw [List.length_append] at hparts
      rw [List.length_append, List.length_append, List.length_replicate]
      omega
    · rw [List.forall_mem_append, List.forall_mem_append]
      refine ⟨⟨fun b hb => hbytes b (List.mem_of_mem_take hb), fun b hb => ?_⟩,
        fun b hb => hbytes b (List.mem_of_mem_drop hb)⟩
      rw [List.eq_of_mem_replicate hb]
      decide

/-- An accepted text denotes sixteen bytes. -/
theorem parseIP_bytes {s : List Char} {bytes : List ℕ} (h : parseIP s = some bytes) :
    bytes.length = 16 ∧ ∀ b ∈ bytes, b < 256 := by
  unfold parseIP at h
  split at h
  · obtain ⟨fields, hfields, rfl⟩ := Option.map_eq_some_iff.mp h
    obtain ⟨hfour, hlt⟩ := parseIPv4_bytes hfields
    refine ⟨by simp [hfour], ?_⟩
    rw [List.forall_mem_append]
    exact ⟨by decide, hlt⟩
  · obtain ⟨parsed, hparsed, hzone⟩ := Option.bind_eq_some_iff.mp h
    split_ifs at hzone
    cases hzone
    simp only [parseIPv6] at hparsed
    split_ifs at hparsed
    obtain ⟨bytes, hgroups, rfl⟩ := Option.map_eq_some_iff.mp hparsed
    unfold ipv6Bytes at hgroups
    split_ifs at hgroups
    · cases hgroups
      exact ⟨rfl, fun b hb => by rw [List.eq_of_mem_replicate hb]; decide⟩
    · obtain ⟨loop, hloop, hexpand⟩ := Option.bind_eq_some_iff.mp hgroups
      obtain ⟨hle, hlt⟩ := ipv6Loop_bytes hloop nofun (by decide)
      exact expandEllipsis_bytes hexpand hle hlt
    · obtain ⟨loop, hloop, hexpand⟩ := Option.bind_eq_some_iff.mp hgroups
      obtain ⟨hle, hlt⟩ := ipv6Loop_bytes hloop nofun (by decide)
      exact expandEllipsis_bytes hexpand hle hlt
  · cases h

/-- The characters that were read of the current field. -/
def fieldText (val digLen : ℕ) : List Char := if digLen = 0 then [] else Nat.toDigits 10 val

/-- A decimal digit is the digit of its value. -/
theorem toDigits_of_isDigit {c : Char} (h : c.isDigit = true) :
    c.toNat - 48 < 10 ∧ Nat.toDigits 10 (c.toNat - 48) = [c] := by
  have hrange : 48 ≤ c.toNat ∧ c.toNat ≤ 57 := by
    unfold Char.isDigit at h
    rw [Bool.and_eq_true, decide_eq_true_eq, decide_eq_true_eq] at h
    exact h
  have hlt : c.toNat - 48 < 10 := by omega
  refine ⟨hlt, ?_⟩
  rw [Nat.toDigits_of_lt_base hlt, List.singleton_inj, ← Char.toNat_inj, Nat.toNat_digitChar_of_lt_ten hlt]
  omega

/-- A digit continues the current field, unless the field is a zero. -/
theorem fieldText_digit {val digLen : ℕ} {c : Char} (hdigit : c.isDigit = true) (hzero : val = 0 ↔ digLen = 0) :
    fieldText (val * 10 + (c.toNat - 48)) (digLen + 1) = fieldText val digLen ++ [c] := by
  obtain ⟨hlt, hchar⟩ := toDigits_of_isDigit hdigit
  unfold fieldText
  rw [if_neg (Nat.succ_ne_zero digLen)]
  by_cases hstart : digLen = 0
  · rw [if_pos hstart, hzero.mpr hstart, Nat.zero_mul, Nat.zero_add, hchar, List.nil_append]
  · have hpos : 0 < val := Nat.pos_of_ne_zero fun h => hstart (hzero.mp h)
    rw [if_neg hstart, Nat.mul_comm, ← Nat.toDigits_append_toDigits (by decide) hpos hlt, hchar]

/-- What is read as decimal fields is the text of these fields: a field has no leading zeros. -/
theorem ipv4Loop_eq_dotted {fields result : List ℕ} {val digLen : ℕ} {s : List Char}
    (h : ipv4Loop fields val digLen s = some result) (hstart : digLen = 0 → val = 0 ∧ s ≠ [])
    (hzero : val = 0 → digLen ≤ 1) :
    ∃ field rest, result = fields ++ field :: rest ∧ fieldText val digLen ++ s = dotted (field :: rest) := by
  fun_induction ipv4Loop fields val digLen s with
  | case1 => cases h
  | case2 fields val digLen hcount =>
    cases h
    have hne : digLen ≠ 0 := fun h => (hstart h).2 rfl
    refine ⟨val, [], rfl, ?_⟩
    rw [fieldText, if_neg hne, dotted_cons, List.flatMap_nil]
  | case3 | case4 | case6 | case7 | case9 => cases h
  | case5 fields val digLen c rest hdigit hleading hle ih =>
    have hsame : val = 0 ↔ digLen = 0 :=
      ⟨fun h => by have := hzero h; omega, fun h => (hstart h).1⟩
    obtain ⟨field, rest', hresult, htext⟩ := ih h nofun (by omega)
    refine ⟨field, rest', hresult, ?_⟩
    rw [← htext, fieldText_digit hdigit hsame, List.append_assoc, List.singleton_append]
  | case8 fields val digLen rest hsome hcount _ ih =>
    obtain ⟨hne, hrest⟩ := not_or.mp hsome
    obtain ⟨field, rest', hresult, htext⟩ := ih h (fun _ => ⟨rfl, hrest⟩) (fun _ => Nat.zero_le 1)
    refine ⟨val, field :: rest', by rw [hresult, List.append_assoc, List.singleton_append], ?_⟩
    rw [fieldText, if_pos rfl, List.nil_append] at htext
    rw [fieldText, if_neg hne, dotted_cons, htext, List.flatMap_cons, dotted_cons]
    rfl

/-- There is one text for four decimal fields. -/
theorem eq_dotted_of_parseIPv4 {s : List Char} {fields : List ℕ} (h : parseIPv4 s = some fields) :
    s = dotted fields := by
  have hne : s ≠ [] := by
    rintro rfl
    cases h
  obtain ⟨field, rest, rfl, htext⟩ := ipv4Loop_eq_dotted h (fun _ => ⟨rfl, hne⟩) (fun _ => Nat.zero_le 1)
  exact htext

/-- An accepted address without colons is the text of its bytes. -/
theorem eq_ipString_of_parseIP {s : List Char} {bytes : List ℕ} (h : parseIP s = some bytes) (hcolon : ':' ∉ s) :
    s = ipString bytes := by
  obtain ⟨fields, hfields⟩ := Option.isSome_iff_exists.mp ((colon_notMem_iff_of_parseIP h).mp hcolon)
  obtain ⟨hlength, hbytes⟩ := parseIPv4_bytes hfields
  rw [eq_dotted_of_parseIPv4 hfields, parseIP_dotted hlength hbytes, Option.some.injEq] at h
  rw [← h, ipString_of_to4 (to4_embedding hlength)]
  exact eq_dotted_of_parseIPv4 hfields

/-- The text of an address that has or embeds four bytes has no colon. -/
theorem colon_notMem_ipString {ip p4 : List ℕ} (h : to4 ip = some p4) (hbytes : ∀ b ∈ ip, b < 256) :
    ':' ∉ ipString ip := by
  obtain ⟨hfour, hsubset, -, -⟩ := to4_eq_some h
  rw [ipString_of_to4 h]
  exact colon_notMem_of_parseIPv4 (parseIPv4_dotted hfour fun b hb => hbytes b (hsubset hb))

end NetAddress
