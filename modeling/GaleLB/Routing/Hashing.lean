import GaleLB.Routing.Ring

/-!
# The production hash function

The IEEE CRC-32 of the standard library: the reversed polynomial, a table of 256
entries, one table step per byte, and complemented input and output registers.
-/

namespace GaleLB.Routing

/-- The IEEE polynomial in reversed notation. -/
def ieee : UInt32 := 0xedb88320

/-- One bit of a table entry. -/
def tableBit (poly crc : UInt32) : UInt32 :=
  if crc &&& 1 = 1 then (crc >>> 1) ^^^ poly else crc >>> 1

/-- The table entry of a byte: eight bit steps. -/
def tableEntry (poly : UInt32) (i : UInt8) : UInt32 :=
  (tableBit poly)^[8] i.toUInt32

/-- Advance the register by one byte. -/
def updateByte (crc : UInt32) (v : UInt8) : UInt32 :=
  tableEntry ieee (crc.toUInt8 ^^^ v) ^^^ (crc >>> 8)

/-- The CRC-32 checksum of a byte string. -/
def checksumIEEE (data : List UInt8) : UInt32 :=
  ~~~ data.foldl updateByte (~~~ 0)

/-- The hash function of the router's ring. -/
def crc32Hasher : Hasher := fun key => checksumIEEE key

example : crc32Hasher (stringBytes "123456789") = 0xcbf43926 := by decide +kernel

end GaleLB.Routing
