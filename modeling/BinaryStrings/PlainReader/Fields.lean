import BinaryStrings.Bytes

/-!
# Records of numbers

File headers are records of unsigned numbers of fixed sizes.  Reading stops at the first field that
the bytes do not hold in full.
-/

namespace BinaryStrings.PlainReader

/-- A field that is not there in full: its size and the number of bytes left for it. -/
structure ShortField where
  expected : Nat
  found : Nat
  deriving DecidableEq, Repr

/-- The wording of a field that is cut off. -/
def ShortField.message (field : ShortField) : String :=
  s!"expected {field.expected}, found {field.found}"

/-- The number of bytes of a record whose fields have the given sizes. -/
def recordSize (sizes : List Nat) : Nat :=
  sizes.foldr (· + ·) 0

/-- The numbers of a record whose fields have the given sizes. -/
def fields (order : ByteOrder) : (sizes : List Nat) → Bytes → Except ShortField (List Nat)
  | [], _ => .ok []
  | size :: sizes, data =>
    let field := data.take size
    if field.length < size then .error ⟨size, field.length⟩
    else
      match fields order sizes (data.drop size) with
      | .ok rest => .ok (Bytes.toNat order field :: rest)
      | .error short => .error short

/-- The number in `size` bytes from an offset on; bytes that are not there count as none. -/
def numberAt (order : ByteOrder) (data : Bytes) (offset size : Nat) : Nat :=
  Bytes.toNat order (Bytes.slice data offset size)

end BinaryStrings.PlainReader
