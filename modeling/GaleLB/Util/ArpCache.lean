import GaleLB.Common.TextFields
import GaleLB.LbNetwork.HealthStream

/-!
# Looking a hardware address up in the ARP cache

The kernel lists its ARP table as a header and one line per entry, with the fields of a line
separated by white space. The lookup returns the hardware address of the first line with
the wanted IP address and device. It does not look at the flags, so an incomplete entry
answers with its placeholder address, and it hides a complete one behind it. A
`bufio.Scanner` gives up at a line of 64 KiB or more; that limit is left out, as the kernel
writes no such lines.
-/

namespace GaleLB.Util

open TextFields LbNetwork

/-- The index of the IP address in a line. -/
abbrev ipIdxARPCacheField : ℕ := 0

/-- The index of the hardware address in a line. -/
abbrev macIdxARPCacheField : ℕ := 3

/-- The index of the device in a line. -/
abbrev ifaceIdxARPCacheField : ℕ := 5

/-- The number of fields of a line. -/
abbrev maxARPCacheFields : ℕ := 6

/-- `unicode.IsSpace`. -/
def isSpace (c : Char) : Bool :=
  (9 ≤ c.toNat && c.toNat ≤ 13) || c.toNat = 0x20 || c.toNat = 0x85 || c.toNat = 0xA0 || c.toNat = 0x1680 ||
    (0x2000 ≤ c.toNat && c.toNat ≤ 0x200A) || c.toNat = 0x2028 || c.toNat = 0x2029 || c.toNat = 0x202F ||
    c.toNat = 0x205F || c.toNat = 0x3000

/-- `strings.Fields`. -/
def stringFields (s : String) : List String := (fields isSpace s.toList).map String.ofList

/-- Drop a carriage return at the end of a line. -/
def dropCR (line : List Char) : List Char :=
  if line.getLast? = some '\r' then line.dropLast else line

/-- The lines that a `bufio.Scanner` finds in a text, without its limit on the length of a line. -/
def scanLines (text : String) : List String :=
  (lines (· = '\n') text.toList).map fun line => String.ofList (dropCR line)

/-- The error of a lookup without result. -/
def macNotFound (ip ifaceName : String) : GoError :=
  .new ("MAC address not found for IP: " ++ ip ++ " on interface: " ++ ifaceName)

/-- The loop of the lookup over the lines of the table. -/
def scanARPCache (ip ifaceName : String) : List String → Except GoError String
  | [] => .error (macNotFound ip ifaceName)
  | line :: rest =>
    let fields := stringFields line
    if fields.length < maxARPCacheFields then scanARPCache ip ifaceName rest
    else if fields.getD ipIdxARPCacheField "" = ip ∧ fields.getD ifaceIdxARPCacheField "" = ifaceName then
      .ok (fields.getD macIdxARPCacheField "")
    else scanARPCache ip ifaceName rest

/-- Look an IP address up in the ARP table, which is given by its file or by the error of opening it. -/
def getMACFromARPCache (file : Except GoError String) (ip ifaceName : String) : Except GoError String :=
  match file with
  | .error err => .error err
  | .ok text => scanARPCache ip ifaceName (scanLines text)

/-- A nonempty text without white space. -/
abbrev Word := { s : String // IsField isSpace s.toList }

/-- An entry of the ARP table. -/
structure ArpEntry where
  ip : Word
  hwType : UInt32
  flags : UInt32
  hwAddress : Word
  mask : Word
  device : Word

/-- The entry has a hardware address: flag bit `0x2` is set. -/
def ArpEntry.complete (e : ArpEntry) : Bool := e.flags &&& 0x2 ≠ 0

/-- The entry is for an IP address on an interface. -/
def ArpEntry.isFor (e : ArpEntry) (ip ifaceName : String) : Bool := e.ip.1 = ip && e.device.1 = ifaceName

/-- A number in hexadecimal notation. -/
def hexText (n : UInt32) : List Char := '0' :: 'x' :: Nat.toDigits 16 n.toNat

/-- An entry with the widths of the gaps between the columns of its line. -/
structure ArpRow extends ArpEntry where
  gap : ℕ → ℕ

/-- The words behind the IP address, each with the gap before it. -/
def ArpRow.columns (row : ArpRow) : List (ℕ × List Char) :=
  [(row.gap 0, hexText row.hwType), (row.gap 1, hexText row.flags), (row.gap 2, row.hwAddress.1.toList),
    (row.gap 3, row.mask.1.toList), (row.gap 4, row.device.1.toList)]

/-- The line of an entry. -/
def ArpRow.line (row : ArpRow) : List Char := writeFields ' ' row.ip.1.toList row.columns

/-- The first line of the table. -/
def arpHeader : String := "IP address       HW type     Flags       HW address            Mask     Device"

/-- The table as the kernel shows it. -/
def arpTable (rows : List ArpRow) : String :=
  String.ofList ((arpHeader.toList :: rows.map ArpRow.line).flatMap fun line => line ++ ['\n'])

/-- Hexadecimal digits are not white space. -/
theorem isSpace_of_mem_toDigits (n : ℕ) : ∀ c ∈ Nat.toDigits 16 n, isSpace c = false := by
  induction n using Nat.strongRecOn with
  | _ n ih =>
    have hdigit : ∀ d < 16, isSpace (Nat.digitChar d) = false := by decide
    intro c hc
    by_cases hn : n < 16
    · rw [Nat.toDigits_of_lt_base hn, List.mem_singleton] at hc
      rw [hc]
      exact hdigit n hn
    · rw [Nat.toDigits_of_base_le (by omega) (by omega), List.mem_append, List.mem_singleton] at hc
      rcases hc with hc | rfl
      · exact ih (n / 16) (by omega) c hc
      · exact hdigit (n % 16) (by omega)

/-- A number in hexadecimal notation is a field. -/
theorem isField_hexText (n : UInt32) : IsField isSpace (hexText n) := by
  refine ⟨nofun, ?_⟩
  unfold hexText
  rw [List.forall_mem_cons, List.forall_mem_cons]
  exact ⟨by decide, by decide, isSpace_of_mem_toDigits n.toNat⟩

/-- All columns are fields. -/
theorem ArpRow.isField_columns (row : ArpRow) : ∀ column ∈ row.columns, IsField isSpace column.2 := by
  unfold ArpRow.columns
  simp only [List.forall_mem_cons]
  exact ⟨isField_hexText _, isField_hexText _, row.hwAddress.2, row.mask.2, row.device.2, by simp⟩

/-- A carriage return at the end of a line does not change its fields. -/
theorem fields_dropCR (line : List Char) : fields isSpace (dropCR line) = fields isSpace line := by
  unfold dropCR
  split
  · next h =>
    obtain ⟨start, rfl⟩ := List.getLast?_eq_some_iff.mp h
    rw [List.dropLast_concat, fields_append_cons start [] (by decide)]
    exact (List.append_nil _).symm
  · rfl

/-- The fields of the line of an entry. -/
theorem ArpRow.stringFields_line (row : ArpRow) :
    stringFields (String.ofList (dropCR row.line)) = [row.ip.1, String.ofList (hexText row.hwType),
      String.ofList (hexText row.flags), row.hwAddress.1, row.mask.1, row.device.1] := by
  unfold stringFields
  rw [String.toList_ofList, fields_dropCR, ArpRow.line,
    fields_writeFields (by decide) row.ip.2 row.isField_columns]
  simp [ArpRow.columns]

/-- The lines of the table are those of its header and of its entries. -/
theorem scanLines_arpTable (rows : List ArpRow) :
    scanLines (arpTable rows) = String.ofList (dropCR arpHeader.toList) ::
      rows.map fun row => String.ofList (dropCR row.line) := by
  have hheader : '\n' ∉ arpHeader.toList := by decide +kernel
  unfold scanLines arpTable
  rw [String.toList_ofList, lines_flatMap (by decide)]
  · rw [List.map_cons, List.map_map]
    rfl
  · rw [List.forall_mem_cons]
    constructor
    · intro c hc
      rw [decide_eq_false_iff_not]
      rintro rfl
      exact hheader hc
    · intro line hline c hc
      obtain ⟨row, -, rfl⟩ := List.mem_map.mp hline
      rw [decide_eq_false_iff_not]
      rintro rfl
      rcases mem_writeFields row.ip.2 row.isField_columns hc with hspace | hspace
      · cases hspace
      · exact absurd hspace (by decide)

/-- A line with enough fields answers the lookup if its fields match. -/
theorem scanARPCache_cons {line : String} {fields : List String} (hfields : stringFields line = fields)
    (hlength : maxARPCacheFields ≤ fields.length) (ip ifaceName : String) (rest : List String) :
    scanARPCache ip ifaceName (line :: rest) =
      if fields.getD ipIdxARPCacheField "" = ip ∧ fields.getD ifaceIdxARPCacheField "" = ifaceName then
        .ok (fields.getD macIdxARPCacheField "")
      else scanARPCache ip ifaceName rest := by
  rw [scanARPCache, hfields]
  exact if_neg (Nat.not_lt.mpr hlength)

/-- The lookup among the lines of the entries finds the first entry for the address. -/
theorem scanARPCache_rows (ip ifaceName : String) (rows : List ArpRow) :
    scanARPCache ip ifaceName (rows.map fun row => String.ofList (dropCR row.line)) =
      match rows.find? fun row => row.isFor ip ifaceName with
      | some row => .ok row.hwAddress.1
      | none => .error (macNotFound ip ifaceName) := by
  induction rows with
  | nil => rfl
  | cons row rest ih =>
    rw [List.map_cons, scanARPCache_cons row.stringFields_line (Nat.le_refl maxARPCacheFields)]
    by_cases hfor : row.ip.1 = ip ∧ row.device.1 = ifaceName
    · have hrow : row.isFor ip ifaceName = true := by simp [ArpEntry.isFor, hfor]
      rw [List.find?_cons_of_pos (p := fun row : ArpRow => row.isFor ip ifaceName) hrow]
      exact if_pos hfor
    · have hrow : ¬ row.isFor ip ifaceName = true := by simpa [ArpEntry.isFor] using hfor
      rw [List.find?_cons_of_neg (p := fun row : ArpRow => row.isFor ip ifaceName) hrow, ← ih]
      exact if_neg hfor

/-- The header has more fields than an entry, and its first one is not an address. -/
theorem stringFields_arpHeader :
    stringFields (String.ofList (dropCR arpHeader.toList)) =
      ["IP", "address", "HW", "type", "Flags", "HW", "address", "Mask", "Device"] := by
  unfold stringFields
  rw [String.toList_ofList, fields_dropCR]
  decide +kernel

/-- The lookup in a table finds the first entry for the address. -/
theorem getMACFromARPCache_arpTable (rows : List ArpRow) {ip : String} (hip : ip ≠ "IP") (ifaceName : String) :
    getMACFromARPCache (.ok (arpTable rows)) ip ifaceName =
      match rows.find? fun row => row.isFor ip ifaceName with
      | some row => .ok row.hwAddress.1
      | none => .error (macNotFound ip ifaceName) := by
  unfold getMACFromARPCache
  dsimp only
  rw [scanLines_arpTable, scanARPCache_cons stringFields_arpHeader (by decide), if_neg fun h => hip h.1.symm,
    scanARPCache_rows]

/-- The lookup answers with the hardware address of a complete entry for the address if there is one,
and with an error otherwise. -/
def AnswersComplete (rows : List ArpRow) (ip ifaceName : String) (result : Except GoError String) : Prop :=
  if ∃ row ∈ rows, row.isFor ip ifaceName ∧ row.complete then
    ∃ row ∈ rows, row.isFor ip ifaceName ∧ row.complete ∧ result = .ok row.hwAddress.1
  else ∃ err, result = .error err

/-- For every table, every IP address and every interface, the lookup answers correctly exactly when
the first entry for them, if any, has the hardware address of a complete one. -/
theorem getMACFromARPCache_complete_iff (rows : List ArpRow) {ip : String} (hip : ip ≠ "IP")
    (ifaceName : String) :
    AnswersComplete rows ip ifaceName (getMACFromARPCache (.ok (arpTable rows)) ip ifaceName) ↔
      ∀ row, (rows.find? fun row => row.isFor ip ifaceName) = some row →
        ∃ other ∈ rows, other.isFor ip ifaceName ∧ other.complete ∧ other.hwAddress = row.hwAddress := by
  rw [getMACFromARPCache_arpTable rows hip]
  unfold AnswersComplete
  cases hfind : rows.find? fun row => row.isFor ip ifaceName with
  | none =>
    have hnone : ¬ ∃ row ∈ rows, row.isFor ip ifaceName ∧ row.complete := by
      rintro ⟨row, hmem, hfor, -⟩
      exact List.find?_eq_none.mp hfind row hmem hfor
    rw [if_neg hnone]
    exact iff_of_true ⟨_, rfl⟩ nofun
  | some row =>
    simp only [Option.some.injEq, forall_eq', Except.ok.injEq]
    split
    · simp only [Subtype.ext_iff, eq_comm]
    · next hnone =>
      refine iff_of_false (by rintro ⟨err, ⟨⟩⟩) ?_
      rintro ⟨other, hmem, hfor, hcomplete, -⟩
      exact hnone ⟨other, hmem, hfor, hcomplete⟩

/-- A complete entry for 192.168.0.100 on `eth0`. -/
def completeRow : ArpRow :=
  ⟨⟨⟨"192.168.0.100", by decide +kernel⟩, 0x1, 0x2, ⟨"02:42:ac:11:00:02", by decide +kernel⟩,
    ⟨"*", by decide +kernel⟩, ⟨"eth0", by decide +kernel⟩⟩, fun _ => 3⟩

/-- An entry for the same address whose resolution has not been answered. -/
def incompleteRow : ArpRow :=
  ⟨⟨⟨"192.168.0.100", by decide +kernel⟩, 0x1, 0x0, ⟨"00:00:00:00:00:00", by decide +kernel⟩,
    ⟨"*", by decide +kernel⟩, ⟨"eth0", by decide +kernel⟩⟩, fun _ => 3⟩

/-- A complete entry is found. -/
theorem getMACFromARPCache_completeRow :
    "192.168.0.100" ≠ "IP" ∧ AnswersComplete [completeRow] "192.168.0.100" "eth0"
      (getMACFromARPCache (.ok (arpTable [completeRow])) "192.168.0.100" "eth0") := by
  refine ⟨by decide, (getMACFromARPCache_complete_iff [completeRow] (by decide) "eth0").mpr ?_⟩
  intro row hrow
  obtain rfl := List.mem_singleton.mp (List.mem_of_find?_eq_some hrow)
  exact ⟨completeRow, List.mem_cons_self, by decide +kernel, by decide, rfl⟩

/-- An incomplete entry answers with its placeholder address. -/
theorem getMACFromARPCache_placeholder :
    incompleteRow.complete = false ∧
      getMACFromARPCache (.ok (arpTable [incompleteRow])) "192.168.0.100" "eth0" = .ok "00:00:00:00:00:00" ∧
      ¬ AnswersComplete [incompleteRow] "192.168.0.100" "eth0"
        (getMACFromARPCache (.ok (arpTable [incompleteRow])) "192.168.0.100" "eth0") := by
  have hplaceholder : getMACFromARPCache (.ok (arpTable [incompleteRow])) "192.168.0.100" "eth0" =
      .ok "00:00:00:00:00:00" := by
    rw [getMACFromARPCache_arpTable _ (by decide)]
    rfl
  have hnone : ¬ ∃ row ∈ [incompleteRow], row.isFor "192.168.0.100" "eth0" ∧ row.complete := by
    rintro ⟨row, hmem, -, hcomplete⟩
    rw [List.mem_singleton.mp hmem] at hcomplete
    cases hcomplete
  refine ⟨rfl, hplaceholder, ?_⟩
  rw [hplaceholder, AnswersComplete, if_neg hnone]
  rintro ⟨err, ⟨⟩⟩

end GaleLB.Util
