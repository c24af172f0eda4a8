import GaleLB.Common.ByteBuffer

/-!
# The format of DNS messages

A name is a sequence of labels, each behind its length octet, and ends at a zero octet or
at a pointer to an earlier name. A message has a header with four counts, followed by its
questions and by the resource records of three sections, with nothing behind them.

Plain names are decoded back from their encoding. The last record of a message ends the
message, so the last bytes of a message are those of that record.
-/

namespace DnsMessage

open ByteBuffer

/-- A domain name, as its list of labels. -/
abbrev Name := List Buffer

/-- The labels of a name have between 1 and 63 bytes. -/
def ValidLabels (labels : Name) : Prop := ∀ label ∈ labels, 1 ≤ label.length ∧ label.length ≤ 63

/-- The number of bytes of a name without pointers. -/
def wireLength (labels : Name) : ℕ := (labels.map fun label => label.length + 1).sum + 1

/-- The bytes of a name without pointers; a length octet is the length modulo 256. -/
def encodeName (labels : Name) : Buffer :=
  labels.flatMap (fun label => UInt8.ofNat label.length :: label) ++ [0]

/-- The bytes of a buffer from an offset on, at most `n` of them. -/
def slice (b : Buffer) (i n : ℕ) : Buffer := (b.drop i).take n

/-- The labels up to the end of a name, the pointer at its end, and the offset behind it. -/
structure ScannedName where
  labels : Name
  pointer : Option ℕ
  next : ℕ
deriving DecidableEq, Repr

/-- A name with one more label in front. -/
def ScannedName.cons (label : Buffer) (name : ScannedName) : ScannedName :=
  { name with labels := label :: name.labels }

/-- Read labels from an offset on until the name ends; the first argument bounds their number. -/
def scanName (msg : Buffer) : ℕ → ℕ → Option ScannedName
  | 0, _ => none
  | fuel + 1, offset =>
    if msg.length ≤ offset then none
    else if byte msg offset = 0 then some ⟨[], none, offset + 1⟩
    else if byte msg offset ≤ 63 then
      if offset + 1 + byte msg offset ≤ msg.length then
        (scanName msg fuel (offset + 1 + byte msg offset)).map
          (ScannedName.cons (slice msg (offset + 1) (byte msg offset)))
      else none
    else if 192 ≤ byte msg offset ∧ offset + 2 ≤ msg.length then
      some ⟨[], some (word msg offset % 16384), offset + 2⟩
    else none

/-- Read a name and follow its pointers, each to an earlier offset; the first argument bounds their
number. -/
def nameAt (msg : Buffer) : ℕ → ℕ → Option (Name × ℕ)
  | 0, _ => none
  | jumps + 1, offset =>
    (scanName msg (msg.length + 1) offset).bind fun name =>
      match name.pointer with
      | none => some (name.labels, name.next)
      | some target =>
        if target < offset then (nameAt msg jumps target).map fun rest => (name.labels ++ rest.1, name.next)
        else none

/-- Read a name that has no more bytes than a name may have. -/
def decodeName (msg : Buffer) (offset : ℕ) : Option (Name × ℕ) :=
  (nameAt msg (msg.length + 1) offset).filter fun name => wireLength name.1 ≤ 255

/-- A question. -/
structure Question where
  name : Name
  type : ℕ
  qclass : ℕ
deriving DecidableEq, Repr

/-- A resource record. -/
structure ResourceRecord where
  name : Name
  type : ℕ
  rclass : ℕ
  ttl : ℕ
  rdata : Buffer
deriving DecidableEq, Repr

/-- Read a question and the offset behind it. -/
def questionAt (msg : Buffer) (offset : ℕ) : Option (Question × ℕ) :=
  (decodeName msg offset).bind fun name =>
    if name.2 + 4 ≤ msg.length then
      some (⟨name.1, word msg name.2, word msg (name.2 + 2)⟩, name.2 + 4)
    else none

/-- Read a resource record and the offset behind it. -/
def recordAt (msg : Buffer) (offset : ℕ) : Option (ResourceRecord × ℕ) :=
  (decodeName msg offset).bind fun name =>
    if name.2 + 10 ≤ msg.length ∧ name.2 + 10 + word msg (name.2 + 8) ≤ msg.length then
      some (⟨name.1, word msg name.2, word msg (name.2 + 2), dword msg (name.2 + 4),
        slice msg (name.2 + 10) (word msg (name.2 + 8))⟩, name.2 + 10 + word msg (name.2 + 8))
    else none

/-- Read a number of items one after the other. -/
def itemsAt {α : Type*} (item : ℕ → Option (α × ℕ)) : ℕ → ℕ → Option (List α × ℕ)
  | 0, offset => some ([], offset)
  | count + 1, offset =>
    (item offset).bind fun first =>
      (itemsAt item count first.2).map fun rest => (first.1 :: rest.1, rest.2)

/-- A message; the records of its three sections follow each other. -/
structure Message where
  flags : ℕ
  questions : List Question
  answerCount : ℕ
  records : List ResourceRecord
deriving DecidableEq, Repr

/-- The records of the answer section. -/
def Message.answers (m : Message) : List ResourceRecord := m.records.take m.answerCount

/-- Decode a message with nothing behind its last record. -/
def decode (msg : Buffer) : Option Message :=
  if msg.length < 12 then none
  else (itemsAt (questionAt msg) (word msg 4) 12).bind fun questions =>
    (itemsAt (recordAt msg) (word msg 6 + word msg 8 + word msg 10) questions.2).bind fun records =>
      if records.2 = msg.length then some ⟨word msg 2, questions.1, word msg 6, records.1⟩ else none

/-- The message is a response. -/
def Message.isResponse (m : Message) : Bool := 32768 ≤ m.flags

/-- The record holds an IPv4 address: type A in the class of the Internet, whose highest bit is a flag
in multicast messages. -/
def ResourceRecord.isA (r : ResourceRecord) : Bool := r.type = 1 && r.rclass % 32768 = 1

/-- The last part of a record: its time to live, and its data behind their length. -/
def ResourceRecord.trailer (r : ResourceRecord) : Buffer :=
  encode32 r.ttl ++ (encode16 r.rdata.length ++ r.rdata)

/-- The last four bytes of a buffer. -/
def lastFour (b : Buffer) : Buffer := b.drop (b.length - 4)

/-- A label in front of a name is read first. -/
theorem scanName_label {msg : Buffer} {offset n : ℕ} (fuel : ℕ) (hoctet : byte msg offset = n) (hpos : 1 ≤ n)
    (hle : n ≤ 63) (hfit : offset + 1 + n ≤ msg.length) :
    scanName msg (fuel + 1) offset =
      (scanName msg fuel (offset + 1 + n)).map (ScannedName.cons (slice msg (offset + 1) n)) := by
  rw [scanName, hoctet, if_neg (by omega), if_neg (by omega), if_pos hle, if_pos hfit]

/-- An octet above 63 is no length: a name that starts with one is a pointer. -/
theorem scanName_pointer {msg : Buffer} {fuel offset : ℕ} {name : ScannedName}
    (h : scanName msg fuel offset = some name) (hoctet : 63 < byte msg offset) : name.pointer ≠ none := by
  cases fuel with
  | zero => cases h
  | succ fuel =>
    rw [scanName, if_neg (show byte msg offset ≠ 0 by omega), if_neg (show ¬ byte msg offset ≤ 63 by omega)] at h
    split_ifs at h
    cases h
    exact Option.some_ne_none _

/-- The byte behind a first part of a buffer. -/
theorem byte_append_cons (before after : Buffer) (b : UInt8) :
    byte (before ++ b :: after) before.length = b.toNat := by
  unfold byte
  rw [List.getD_append_right _ _ _ _ le_rfl, Nat.sub_self]
  rfl

/-- The bytes behind a first part of a buffer. -/
theorem slice_append (before part after : Buffer) :
    slice (before ++ (part ++ after)) before.length part.length = part := by
  unfold slice
  rw [List.drop_left, List.take_left]

/-- The encoding of a name starts with the length octet of its first label. -/
theorem encodeName_cons (label : Buffer) (rest : Name) :
    encodeName (label :: rest) = UInt8.ofNat label.length :: (label ++ encodeName rest) := by
  unfold encodeName
  rw [List.flatMap_cons, List.cons_append, List.cons_append, List.append_assoc]

/-- A plain name is decoded from its encoding, wherever it stands in a message. -/
theorem scanName_encodeName {labels : Name} (h : ValidLabels labels) (before after : Buffer) {fuel : ℕ}
    (hfuel : labels.length < fuel) :
    scanName (before ++ (encodeName labels ++ after)) fuel before.length =
      some ⟨labels, none, before.length + (encodeName labels).length⟩ := by
  induction labels generalizing before fuel with
  | nil =>
    obtain ⟨fuel, rfl⟩ := Nat.exists_eq_add_of_lt hfuel
    have hzero : byte (before ++ 0 :: after) before.length = 0 := byte_append_cons before after 0
    have hlen : ¬ (before ++ 0 :: after).length ≤ before.length := by simp
    change scanName (before ++ 0 :: after) _ _ = _
    rw [scanName, if_neg hlen, if_pos hzero]
    rfl
  | cons label rest ih =>
    obtain ⟨fuel, rfl⟩ : ∃ n, fuel = n + 1 := ⟨fuel - 1, by omega⟩
    obtain ⟨⟨hpos, hle⟩, hrest⟩ := List.forall_mem_cons.mp h
    have hmsg : before ++ (encodeName (label :: rest) ++ after) =
        (before ++ UInt8.ofNat label.length :: label) ++ (encodeName rest ++ after) := by
      rw [encodeName_cons]
      simp
    have hoctet : byte (before ++ (encodeName (label :: rest) ++ after)) before.length = label.length := by
      rw [encodeName_cons, List.cons_append, byte_append_cons]
      exact UInt8.toNat_ofNat_of_lt (by simp only [UInt8.size]; omega)
    have hslice : slice (before ++ (encodeName (label :: rest) ++ after)) (before.length + 1) label.length =
        label := by
      have hpart := slice_append (before ++ [UInt8.ofNat label.length]) label (encodeName rest ++ after)
      rw [List.length_append, List.length_singleton] at hpart
      rw [hmsg]
      simpa using hpart
    have hnext : (before ++ UInt8.ofNat label.length :: label).length = before.length + 1 + label.length := by
      simp only [List.length_append, List.length_cons]
      omega
    rw [scanName_label fuel hoctet hpos hle (by rw [hmsg]; simp only [List.length_append] at hnext ⊢; omega), hslice,
      hmsg, ← hnext, ih hrest _ (Nat.lt_of_succ_lt_succ hfuel)]
    simp only [Option.map_some, ScannedName.cons, Option.some.injEq, ScannedName.mk.injEq, true_and]
    rw [hnext, encodeName_cons]
    simp only [List.length_cons, List.length_append]
    omega

/-- The bytes of a name are its text with one octet before each label, and the final octet. -/
theorem wireLength_splitOn (sep : UInt8) (text : Buffer) : wireLength (text.splitOn sep) = text.length + 2 := by
  unfold wireLength
  induction text with
  | nil => rfl
  | cons b rest ih =>
    rw [List.splitOn_eq_splitOnP] at ih ⊢
    rw [List.splitOnP_cons_eq_if_modifyHead]
    by_cases hb : (b == sep) = true
    · rw [if_pos hb, List.map_cons, List.sum_cons, List.length_nil, List.length_cons]
      omega
    · rw [if_neg hb]
      cases hsplit : rest.splitOnP (· == sep) with
      | nil => exact absurd hsplit (List.splitOnP_ne_nil _ rest)
      | cons first others =>
        rw [hsplit, List.map_cons, List.sum_cons] at ih
        rw [List.modifyHead_cons, List.map_cons, List.sum_cons, List.length_cons, List.length_cons]
        omega

/-- As many items are read as were asked for. -/
theorem itemsAt_length {α : Type*} {item : ℕ → Option (α × ℕ)} {count offset : ℕ} {items : List α × ℕ}
    (h : itemsAt item count offset = some items) : items.1.length = count := by
  induction count generalizing offset items with
  | zero =>
    cases h
    rfl
  | succ count ih =>
    obtain ⟨first, -, hrest⟩ := Option.bind_eq_some_iff.mp h
    obtain ⟨rest, hitems, rfl⟩ := Option.map_eq_some_iff.mp hrest
    rw [List.length_cons, ih hitems]

/-- The last of some items is read where the items end. -/
theorem itemsAt_getLast {α : Type*} {item : ℕ → Option (α × ℕ)} {count offset last : ℕ} {items : List α} {a : α}
    (h : itemsAt item count offset = some (items, last)) (ha : items.getLast? = some a) :
    ∃ start, item start = some (a, last) := by
  induction count generalizing offset items with
  | zero =>
    cases h
    cases ha
  | succ count ih =>
    obtain ⟨first, hfirst, hrest⟩ := Option.bind_eq_some_iff.mp h
    obtain ⟨rest, hitems, heq⟩ := Option.map_eq_some_iff.mp hrest
    cases heq
    cases hlast : rest.1.getLast? with
    | none =>
      -- The first item is the only one, and the items end where it ends.
      rw [List.getLast?_eq_none_iff] at hlast
      rw [hlast, List.getLast?_singleton, Option.some.injEq] at ha
      have hcount : count = 0 := by
        rw [← itemsAt_length hitems, hlast]
        rfl
      subst hcount ha
      cases hitems
      exact ⟨offset, hfirst⟩
    | some b =>
      rw [List.getLast?_cons, hlast, Option.getD_some, Option.some.injEq] at ha
      subst ha
      exact ih hitems hlast

/-- A record that ends with the message is the end of the message. -/
theorem recordAt_trailer {msg : Buffer} {offset : ℕ} {r : ResourceRecord}
    (h : recordAt msg offset = some (r, msg.length)) : ∃ start, msg.drop start = r.trailer := by
  obtain ⟨name, -, hrecord⟩ := Option.bind_eq_some_iff.mp h
  by_cases hfit : name.2 + 10 ≤ msg.length ∧ name.2 + 10 + word msg (name.2 + 8) ≤ msg.length
  · rw [if_pos hfit, Option.some.injEq, Prod.mk.injEq] at hrecord
    obtain ⟨rfl, hend⟩ := hrecord
    have hdata : slice msg (name.2 + 10) (word msg (name.2 + 8)) = msg.drop (name.2 + 10) := by
      unfold slice
      exact List.take_of_length_le (by rw [List.length_drop]; omega)
    refine ⟨name.2 + 4, ?_⟩
    unfold ResourceRecord.trailer
    dsimp only
    rw [hdata, List.length_drop, show msg.length - (name.2 + 10) = word msg (name.2 + 8) by omega,
      drop_eq_encode32 (by omega), drop_eq_encode16 (i := name.2 + 4 + 4) (by omega)]
  · rw [if_neg hfit] at hrecord
    cases hrecord

/-- The last four bytes of a message are those of its last record. -/
theorem decode_lastFour {msg : Buffer} {m : Message} (h : decode msg = some m) {last : ResourceRecord}
    (hlast : m.records.getLast? = some last) : lastFour msg = lastFour last.trailer := by
  unfold decode at h
  by_cases hshort : msg.length < 12
  · rw [if_pos hshort] at h
    cases h
  · rw [if_neg hshort] at h
    obtain ⟨questions, -, hquestions⟩ := Option.bind_eq_some_iff.mp h
    obtain ⟨records, hrecords, hmessage⟩ := Option.bind_eq_some_iff.mp hquestions
    by_cases hend : records.2 = msg.length
    · rw [if_pos hend, Option.some.injEq] at hmessage
      subst hmessage
      obtain ⟨start, hstart⟩ := itemsAt_getLast hrecords hlast
      rw [hend] at hstart
      obtain ⟨position, htrailer⟩ := recordAt_trailer hstart
      have hlength : 6 ≤ (msg.drop position).length := by
        rw [htrailer]
        simp [ResourceRecord.trailer, encode32, encode16]
      unfold lastFour
      rw [← htrailer, List.drop_drop]
      rw [List.length_drop] at hlength ⊢
      congr 1
      omega
    · rw [if_neg hend] at hmessage
      cases hmessage

end DnsMessage
