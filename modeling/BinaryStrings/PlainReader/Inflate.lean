import BinaryStrings.Bytes

/-!
# Compressed data in stored blocks

Compressed data consists of blocks behind a header of two bytes.  In plain files the blocks hold their
data as it is, behind a byte that tells whether it is the last one, their size, and the complement of the
size.  Data that breaks off gives what there is of it, and blocks of other kinds give nothing.
-/

namespace BinaryStrings.PlainReader.Inflate

/-- The data of the blocks, at most so many blocks. -/
def blocks : (fuel : Nat) → Bytes → Bytes
  | 0, _ => []
  | fuel + 1, data =>
    match data with
    | kind :: low :: high :: _ :: _ :: rest =>
      if kind.toNat % 8 / 2 != 0 then []
      else
        let size := low.toNat + 256 * high.toNat
        let block := rest.take size
        if kind.toNat % 2 == 1 || block.length < size then block
        else block ++ blocks fuel (rest.drop size)
    | _ => []

/-- The data behind the header, at most `most` bytes of it, or all of it when `most` is zero. -/
def stored (most : Nat) (data : Bytes) : Bytes :=
  let whole := blocks (data.length + 1) (data.drop 2)
  if most = 0 then whole else whole.take most

/-- What is wrong with the header of compressed data, if it is there in full. -/
def mistake? : Bytes → Option String
  | first :: second :: _ =>
    if (256 * first.toNat + second.toNat) % 31 != 0 then some "incorrect header check"
    else if first.toNat % 16 != 8 then some "unknown compression method"
    else if 7 < first.toNat / 16 then some "invalid window size"
    else none
  | _ => none

end BinaryStrings.PlainReader.Inflate
