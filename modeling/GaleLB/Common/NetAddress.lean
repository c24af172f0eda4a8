import Mathlib.Data.List.TakeWhile

/-!
# Texts of network addresses

An address to dial is a host and a port behind the last colon. A host with colons of its
own must stand in brackets; without them the text is rejected.

An IP address is written as four decimal fields with dots, or as hexadecimal groups with
colons, of which `::` abbreviates a run of zeros and the last two may be written with dots.
The first dot or colon of a text decides how it is read. An accepted text consists of digits,
dots and colons, so it has no brackets, and it has a colon exactly in the second form.
-/

namespace NetAddress

/-- The reasons for rejecting an address to dial. -/
inductive AddrError where
  | missingPort
  | tooManyColons
  | missingBracket
  | unexpectedOpen
  | unexpectedClose
deriving DecidableEq, Repr

/-- The index of the first occurrence of a character. -/
def indexByte (s : List Char) (c : Char) : Option ℕ := s.findIdx? (· = c)

/-- The index of the last occurrence of a character. -/
def lastIndexByte (s : List Char) (c : Char) : Option ℕ :=
  (s.reverse.findIdx? (· = c)).map fun k => s.length - 1 - k

/-- The checks and the result once the host is known: `i` is the index of the last colon, and no bracket
is expected behind the indices `j` and `k`. -/
def finishSplit (hostport host : List Char) (i j k : ℕ) : Except AddrError (List Char × List Char) :=
  if '[' ∈ hostport.drop j then .error .unexpectedOpen
  else if ']' ∈ hostport.drop k then .error .unexpectedClose
  else .ok (host, hostport.drop (i + 1))

/-- Split an address to dial into its host and its port. -/
def splitHostPort (hostport : List Char) : Except AddrError (List Char × List Char) :=
  match lastIndexByte hostport ':' with
  | none => .error .missingPort
  | some i =>
    if hostport.head? = some '[' then
      match indexByte hostport ']' with
      | none => .error .missingBracket
      | some close =>
        if close + 1 = hostport.length then .error .missingPort
        else if close + 1 = i then finishSplit hostport ((hostport.take close).drop 1) i 1 (close + 1)
        else if hostport[close + 1]? = some ':' then .error .tooManyColons
        else .error .missingPort
    else
      if ':' ∈ hostport.take i then .error .tooManyColons
      else finishSplit hostport (hostport.take i) i 0 0

/-- The loop over a text of decimal fields: the fields so far, the value and the number of digits of the
current field. -/
def ipv4Loop (fields : List ℕ) (val digLen : ℕ) : List Char → Option (List ℕ)
  | [] => if fields.length < 3 then none else some (fields ++ [val])
  | c :: rest =>
    if c.isDigit then
      if digLen = 1 ∧ val = 0 then none
      else if 255 < val * 10 + (c.toNat - 48) then none
      else ipv4Loop fields (val * 10 + (c.toNat - 48)) (digLen + 1) rest
    else if c = '.' then
      if digLen = 0 ∨ rest = [] then none
      else if fields.length = 3 then none
      else ipv4Loop (fields ++ [val]) 0 0 rest
    else none

/-- Read four decimal fields with dots. -/
def parseIPv4 (s : List Char) : Option (List ℕ) := ipv4Loop [] 0 0 s

/-- The hexadecimal digits. -/
def isHexDigit (c : Char) : Bool := c.isDigit || ('a' ≤ c && c ≤ 'f') || ('A' ≤ c && c ≤ 'F')

/-- The value of a hexadecimal digit. -/
def hexValue (c : Char) : ℕ :=
  if c.isDigit then c.toNat - 48 else if 'a' ≤ c ∧ c ≤ 'f' then c.toNat - 97 + 10 else c.toNat - 65 + 10

/-- The value of a hexadecimal group. -/
def groupValue (digits : List Char) : ℕ := digits.foldl (fun acc c => acc * 16 + hexValue c) 0

/-- The loop over hexadecimal groups, of which at most the given number may follow: the bytes so far and
the place of the `::` among them. -/
def ipv6Loop : ℕ → List ℕ → Option ℕ → List Char → Option (List ℕ × Option ℕ)
  | 0, bytes, ellipsis, s => if s = [] then some (bytes, ellipsis) else none
  | n + 1, bytes, ellipsis, s =>
    let digits := s.takeWhile isHexDigit
    let bytes' := bytes ++ [groupValue digits / 256, groupValue digits % 256]
    if digits = [] ∨ 4 < digits.length then none
    else
      match s.dropWhile isHexDigit with
      | [] => some (bytes', ellipsis)
      | c :: rest =>
        if c = '.' then
          if ellipsis = none ∧ bytes.length ≠ 12 then none
          else if 16 < bytes.length + 4 then none
          else (parseIPv4 s).map fun fields => (bytes ++ fields, ellipsis)
        else if c = ':' then
          match rest with
          | [] => none
          | d :: rest' =>
            if d = ':' then
              if ellipsis ≠ none then none
              else if rest' = [] then some (bytes', some bytes'.length)
              else ipv6Loop n bytes' (some bytes'.length) rest'
            else ipv6Loop n bytes' ellipsis rest
        else none

/-- Put the zeros of the `::` into the bytes; without one there must be sixteen of them. -/
def expandEllipsis (parsed : List ℕ × Option ℕ) : Option (List ℕ) :=
  match parsed.2 with
  | none => if parsed.1.length < 16 then none else some parsed.1
  | some place =>
    if parsed.1.length < 16 then
      some (parsed.1.take place ++ List.replicate (16 - parsed.1.length) 0 ++ parsed.1.drop place)
    else none

/-- Read hexadecimal groups, without a zone. -/
def ipv6Bytes (s : List Char) : Option (List ℕ) :=
  if s.take 2 = [':', ':'] then
    if s.drop 2 = [] then some (List.replicate 16 0)
    else (ipv6Loop 8 [] (some 0) (s.drop 2)).bind expandEllipsis
  else (ipv6Loop 8 [] none s).bind expandEllipsis

/-- Read hexadecimal groups and the zone behind a percent sign, which must not be empty. -/
def parseIPv6 (input : List Char) : Option (List ℕ × List Char) :=
  let zone := (input.dropWhile (· ≠ '%')).drop 1
  if '%' ∈ input ∧ zone = [] then none
  else (ipv6Bytes (input.takeWhile (· ≠ '%'))).map fun bytes => (bytes, zone)

/-- Read an IP address without a zone, as sixteen bytes. -/
def parseIP (s : List Char) : Option (List ℕ) :=
  match s.find? fun c => c = '.' || c = ':' || c = '%' with
  | some '.' => (parseIPv4 s).map fun fields => List.replicate 10 0 ++ [255, 255] ++ fields
  | some ':' => (parseIPv6 s).bind fun parsed => if parsed.2 = [] then some parsed.1 else none
  | _ => none

/-- The characters of IP addresses. -/
def isAddressChar (c : Char) : Bool := isHexDigit c || c = '.' || c = ':'

/-- The index of a separator behind which there is none. -/
theorem lastIndexByte_append_cons (before : List Char) {after : List Char} {c : Char} (h : c ∉ after) :
    lastIndexByte (before ++ c :: after) c = some before.length := by
  have hafter : after.reverse.findIdx? (· = c) = none := by
    rw [List.findIdx?_eq_none_iff]
    intro d hd
    rw [decide_eq_false_iff_not]
    rintro rfl
    exact h (List.mem_reverse.mp hd)
  unfold lastIndexByte
  rw [List.reverse_append, List.reverse_cons, List.append_assoc, List.findIdx?_append, hafter]
  simp only [List.singleton_append, List.findIdx?_cons, decide_true, if_true, Option.map_some, Option.none_or,
    List.length_append, List.length_cons, List.length_reverse, Option.some.injEq]
  omega

/-- The last separator of a text divides it in one way. -/
theorem append_cons_inj_last {before before' after after' : List Char} {c : Char} (h : c ∉ after) (h' : c ∉ after')
    (heq : before ++ c :: after = before' ++ c :: after') : before = before' ∧ after = after' := by
  have hlength : some before.length = some before'.length := by
    rw [← lastIndexByte_append_cons before h, heq, lastIndexByte_append_cons before' h']
  obtain ⟨hbefore, hafter⟩ := List.append_inj heq (Option.some.inj hlength)
  exact ⟨hbefore, (List.cons.inj hafter).2⟩

/-- A host without brackets is split from its port if it has no colon, and rejected otherwise. -/
theorem splitHostPort_append {host port : List Char} (hopen : '[' ∉ host) (hclose : ']' ∉ host)
    (hport : ∀ c ∈ port, c ≠ ':' ∧ c ≠ '[' ∧ c ≠ ']') :
    splitHostPort (host ++ ':' :: port) =
      if ':' ∈ host then .error .tooManyColons else .ok (host, port) := by
  have hcolon : ':' ∉ port := fun h => (hport _ h).1 rfl
  have hhead : (host ++ ':' :: port).head? ≠ some '[' := by
    cases host with
    | nil => simp
    | cons c rest =>
      intro h
      cases h
      exact hopen List.mem_cons_self
  have hopen' : '[' ∉ (host ++ ':' :: port).drop 0 := by
    have hnone : '[' ∉ port := fun h => (hport _ h).2.1 rfl
    simp [hopen, hnone]
  have hclose' : ']' ∉ (host ++ ':' :: port).drop 0 := by
    have hnone : ']' ∉ port := fun h => (hport _ h).2.2 rfl
    simp [hclose, hnone]
  have hafter : (host ++ ':' :: port).drop (host.length + 1) = port := by
    rw [← List.drop_drop, List.drop_left]
    rfl
  unfold splitHostPort
  rw [lastIndexByte_append_cons host hcolon]
  dsimp only
  rw [if_neg hhead, List.take_left, finishSplit, if_neg hopen', if_neg hclose', hafter]

/-- A text of decimal fields consists of digits and dots. -/
theorem mem_of_ipv4Loop {fields : List ℕ} {val digLen : ℕ} {s : List Char} {result : List ℕ}
    (h : ipv4Loop fields val digLen s = some result) : ∀ c ∈ s, c.isDigit = true ∨ c = '.' := by
  induction s generalizing fields val digLen with
  | nil => exact fun c hc => absurd hc List.not_mem_nil
  | cons c rest ih =>
    rw [ipv4Loop] at h
    rw [List.forall_mem_cons]
    by_cases hdigit : c.isDigit = true
    · rw [if_pos hdigit] at h
      split_ifs at h
      exact ⟨Or.inl hdigit, ih h⟩
    · rw [if_neg hdigit] at h
      by_cases hdot : c = '.'
      · rw [if_pos hdot] at h
        split_ifs at h
        exact ⟨Or.inr hdot, ih h⟩
      · rw [if_neg hdot] at h
        cases h

/-- Four decimal fields have no colon. -/
theorem colon_notMem_of_parseIPv4 {s : List Char} {fields : List ℕ} (h : parseIPv4 s = some fields) : ':' ∉ s := by
  intro hmem
  rcases mem_of_ipv4Loop h ':' hmem with hdigit | hdot
  · exact absurd hdigit (by decide)
  · exact absurd hdot (by decide)

/-- Four decimal fields consist of characters of addresses. -/
theorem isAddressChar_of_parseIPv4 {s : List Char} {fields : List ℕ} (h : parseIPv4 s = some fields) :
    ∀ c ∈ s, isAddressChar c = true := by
  intro c hc
  unfold isAddressChar isHexDigit
  rcases mem_of_ipv4Loop h c hc with hdigit | rfl
  · simp [hdigit]
  · rfl

/-- Two colons are characters of addresses. -/
theorem isAddressChar_colons : ∀ c ∈ [':', ':'], isAddressChar c = true := by
  rw [List.forall_mem_cons, List.forall_mem_singleton]
  exact ⟨rfl, rfl⟩

/-- What follows the digits of a group: nothing, the dot of decimal fields, or a colon or two, with further
groups behind them unless two colons end the text. -/
theorem ipv6Loop_succ {n : ℕ} {bytes : List ℕ} {ellipsis : Option ℕ} {s : List Char} {result : List ℕ × Option ℕ}
    (h : ipv6Loop (n + 1) bytes ellipsis s = some result) :
    s.dropWhile isHexDigit = [] ∨ (∃ fields, parseIPv4 s = some fields) ∨ s.dropWhile isHexDigit = [':', ':'] ∨
      ∃ bytes' ellipsis' rest, ipv6Loop n bytes' ellipsis' rest = some result ∧
        (s.dropWhile isHexDigit = ':' :: rest ∨ s.dropWhile isHexDigit = ':' :: ':' :: rest) := by
  by_cases hgroup : s.takeWhile isHexDigit = [] ∨ 4 < (s.takeWhile isHexDigit).length
  · rw [ipv6Loop, if_pos hgroup] at h
    cases h
  rw [ipv6Loop, if_neg hgroup] at h
  match hs : s.dropWhile isHexDigit with
  | [] => exact Or.inl rfl
  | c :: rest =>
    rw [hs] at h
    dsimp only at h
    by_cases hdot : c = '.'
    · rw [if_pos hdot] at h
      split_ifs at h
      obtain ⟨fields, hfields, -⟩ := Option.map_eq_some_iff.mp h
      exact Or.inr (Or.inl ⟨fields, hfields⟩)
    rw [if_neg hdot] at h
    by_cases hcolon : c = ':'
    · rw [if_pos hcolon] at h
      rw [hcolon]
      match rest with
      | [] => cases h
      | d :: rest' =>
        dsimp only at h
        by_cases hsecond : d = ':'
        · rw [if_pos hsecond] at h
          rw [hsecond]
          split_ifs at h with hellipsis hend
          · exact Or.inr (Or.inr (Or.inl (by rw [hend])))
          · exact Or.inr (Or.inr (Or.inr ⟨_, _, rest', h, Or.inr rfl⟩))
        · rw [if_neg hsecond] at h
          exact Or.inr (Or.inr (Or.inr ⟨_, _, d :: rest', h, Or.inl rfl⟩))
    · rw [if_neg hcolon] at h
      cases h

/-- Hexadecimal groups consist of characters of addresses. -/
theorem isAddressChar_of_ipv6Loop {n : ℕ} {bytes : List ℕ} {ellipsis : Option ℕ} {s : List Char}
    {result : List ℕ × Option ℕ} (h : ipv6Loop n bytes ellipsis s = some result) :
    ∀ c ∈ s, isAddressChar c = true := by
  induction n generalizing bytes ellipsis s with
  | zero =>
    rw [ipv6Loop] at h
    split_ifs at h with hs
    rw [hs]
    exact fun c hc => absurd hc List.not_mem_nil
  | succ n ih =>
    have hrest : (∀ c ∈ s.dropWhile isHexDigit, isAddressChar c = true) → ∀ c ∈ s, isAddressChar c = true := by
      intro hdrop c hc
      rw [← List.takeWhile_append_dropWhile (p := isHexDigit) (l := s), List.mem_append] at hc
      rcases hc with hc | hc
      · unfold isAddressChar
        rw [List.mem_takeWhile_imp hc]
        rfl
      · exact hdrop c hc
    rcases ipv6Loop_succ h with hs | ⟨fields, hfields⟩ | hs | ⟨bytes', ellipsis', rest, hloop, hs | hs⟩
    · apply hrest
      rw [hs]
      exact fun c hc => absurd hc List.not_mem_nil
    · exact isAddressChar_of_parseIPv4 hfields
    · apply hrest
      rw [hs]
      exact isAddressChar_colons
    · apply hrest
      rw [hs, List.forall_mem_cons]
      exact ⟨rfl, ih hloop⟩
    · apply hrest
      rw [hs, List.forall_mem_cons, List.forall_mem_cons]
      exact ⟨rfl, rfl, ih hloop⟩

/-- A text without a zone that is read as groups consists of characters of addresses. -/
theorem isAddressChar_of_ipv6Bytes {s : List Char} {bytes : List ℕ} (h : ipv6Bytes s = some bytes) :
    ∀ c ∈ s, isAddressChar c = true := by
  unfold ipv6Bytes at h
  split_ifs at h with hleading hend
  · rw [← List.take_append_drop 2 s, hleading, hend]
    exact isAddressChar_colons
  · obtain ⟨parsed, hparsed, -⟩ := Option.bind_eq_some_iff.mp h
    intro c hc
    rw [← List.take_append_drop 2 s, hleading, List.mem_append] at hc
    rcases hc with hc | hc
    · exact isAddressChar_colons c hc
    · exact isAddressChar_of_ipv6Loop hparsed c hc
  · obtain ⟨parsed, hparsed, -⟩ := Option.bind_eq_some_iff.mp h
    exact isAddressChar_of_ipv6Loop hparsed

/-- An accepted address consists of hexadecimal digits, dots and colons. -/
theorem isAddressChar_of_parseIP {s : List Char} {bytes : List ℕ} (h : parseIP s = some bytes) :
    ∀ c ∈ s, isAddressChar c = true := by
  unfold parseIP at h
  split at h
  · obtain ⟨fields, hfields, -⟩ := Option.map_eq_some_iff.mp h
    exact isAddressChar_of_parseIPv4 hfields
  · obtain ⟨parsed, hparsed, hzone⟩ := Option.bind_eq_some_iff.mp h
    unfold parseIPv6 at hparsed
    dsimp only at hparsed
    split_ifs at hparsed with hpercent
    obtain ⟨bytes', hbytes, rfl⟩ := Option.map_eq_some_iff.mp hparsed
    split_ifs at hzone with hempty
    have hnone : '%' ∉ s := fun hmem => hpercent ⟨hmem, hempty⟩
    have hall : s.takeWhile (· ≠ '%') = s := by
      rw [List.takeWhile_eq_self_iff]
      intro c hc
      rw [decide_eq_true_eq]
      rintro rfl
      exact hnone hc
    rw [hall] at hbytes
    exact isAddressChar_of_ipv6Bytes hbytes
  · cases h

/-- An accepted address has no colon exactly when it is four decimal fields. -/
theorem colon_notMem_iff_of_parseIP {s : List Char} {bytes : List ℕ} (h : parseIP s = some bytes) :
    ':' ∉ s ↔ (parseIPv4 s).isSome = true := by
  constructor
  · intro hcolon
    unfold parseIP at h
    split at h
    · obtain ⟨fields, hfields, -⟩ := Option.map_eq_some_iff.mp h
      rw [hfields]
      rfl
    · next hfirst => exact absurd (List.mem_of_find?_eq_some hfirst) hcolon
    · cases h
  · intro hsome
    obtain ⟨fields, hfields⟩ := Option.isSome_iff_exists.mp hsome
    exact colon_notMem_of_parseIPv4 hfields

end NetAddress
