/-!
# Byte sequences

Buffers, files and section contents are lists of bytes.  This module holds what several readers of
them share: slices and unsigned numbers in either byte order.
-/

namespace BinaryStrings

/-- A sequence of bytes. -/
abbrev Bytes := List UInt8

/-- Which end of a multi-byte number comes first. -/
inductive ByteOrder where
  | little
  | big
  deriving DecidableEq, Repr

namespace Bytes

/-- Up to `size` bytes from `offset` on; fewer where the sequence ends. -/
def slice (data : Bytes) (offset size : Nat) : Bytes :=
  (data.drop offset).take size

/-- The number that the bytes spell with the least significant byte first. -/
def littleEndian (data : Bytes) : Nat :=
  data.foldr (fun byte rest => byte.toNat + 256 * rest) 0

/-- The number that the bytes spell with the most significant byte first. -/
def bigEndian (data : Bytes) : Nat :=
  data.foldl (fun value byte => 256 * value + byte.toNat) 0

/-- The number that the bytes spell in the given order. -/
def toNat (order : ByteOrder) (data : Bytes) : Nat :=
  match order with
  | .little => littleEndian data
  | .big => bigEndian data

/-- The bytes of a text that is known to be ASCII. -/
def ofAscii (text : String) : Bytes :=
  text.toList.map fun c => c.toNat.toUInt8

/-- The text whose code points are the byte values. -/
def toLatin1 (data : Bytes) : String :=
  String.ofList (data.map fun byte => Char.ofNat byte.toNat)

end Bytes

end BinaryStrings
