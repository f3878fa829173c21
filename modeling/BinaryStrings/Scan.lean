import BinaryStrings.Text.Utf8
import BinaryStrings.Unicode.Class

/-!
# Printable runs

A *run* is a maximal stretch of a buffer in which every position reads as a character of some
kind.  One loop finds the runs of any reader; two readers matter here.  The ASCII reader takes
bytes 0x20 to 0x7E one by one.  The UTF-8 reader takes well-formed characters that are no control
characters, and keeps a run only if one of them takes several bytes, so a purely ASCII stretch is
never reported twice.  After a position that reads as nothing the loop goes on one byte further.
-/

namespace BinaryStrings

/-- A run and the place of its first byte in the buffer. -/
structure Run where
  text : String
  offset : Nat
  deriving DecidableEq, Repr

namespace Scan

/-- A run that has been read up to some place: where it starts, its characters in reverse, how many
they are, and whether one of them takes several bytes. -/
structure Pending where
  start : Nat
  reversed : List Char
  length : Nat
  wide : Bool
  deriving DecidableEq, Repr

/-- The finished run. -/
def Pending.toRun (pending : Pending) : Run :=
  ⟨String.ofList pending.reversed.reverse, pending.start⟩

/-- Adds a character of `size` bytes at `position` to the run being read, or starts one there. -/
def extend (pending : Option Pending) (position : Nat) (c : Char) (size : Nat) : Pending :=
  match pending with
  | some p => ⟨p.start, c :: p.reversed, p.length + 1, p.wide || 1 < size⟩
  | none => ⟨position, [c], 1, 1 < size⟩

/-- Adds the run that ends here, if there is one worth keeping, to those found, latest first. -/
def close (keep : Pending → Bool) (pending : Option Pending) (found : List Run) : List Run :=
  match pending with
  | some p => if keep p then p.toRun :: found else found
  | none => found

/-- The runs of a reader from `position` on.  `skip` bytes still belong to the character last read,
`pending` is the run it is part of and `found` are the runs before it, latest first. -/
def runsFrom (read : Bytes → Option (Char × Nat)) (keep : Pending → Bool) (position skip : Nat)
    (pending : Option Pending) (found : List Run) : Bytes → List Run
  | [] => (close keep pending found).reverse
  | byte :: rest =>
    match skip with
    | skip + 1 => runsFrom read keep (position + 1) skip pending found rest
    | 0 =>
      match read (byte :: rest) with
      | some (c, size) =>
        runsFrom read keep (position + 1) (size - 1) (some (extend pending position c size)) found
          rest
      | none => runsFrom read keep (position + 1) 0 none (close keep pending found) rest

/-- The runs of a reader that are worth keeping, by ascending offset. -/
def runs (read : Bytes → Option (Char × Nat)) (keep : Pending → Bool) (data : Bytes) : List Run :=
  runsFrom read keep 0 0 none [] data

/-! ## ASCII runs -/

/-- The printable ASCII bytes. -/
def isPrintableAscii (byte : UInt8) : Bool :=
  0x20 ≤ byte && byte ≤ 0x7E

/-- Reads one printable ASCII byte. -/
def readAscii : Bytes → Option (Char × Nat)
  | [] => none
  | byte :: _ => if isPrintableAscii byte then some (Char.ofNat byte.toNat, 1) else none

/-- The maximal stretches of printable ASCII bytes that have at least `minLength` bytes. -/
def ascii (data : Bytes) (minLength : Int) : List Run :=
  runs readAscii (fun pending => minLength ≤ pending.length) data

/-! ## UTF-8 runs -/

/-- What is read at a place of a buffer, and how far the scanner goes on: a character and the number of
its bytes, or no character and one byte. -/
def readAt (data : Bytes) (position : Nat) : Option Char × Nat :=
  match Utf8.decodeFirst (data.drop position) with
  | some (c, size) => (some c, size)
  | none => (none, 1)

/-- Reads one well-formed character that is no control character. -/
def readUtf8 (data : Bytes) : Option (Char × Nat) :=
  match Utf8.decodeFirst data with
  | some (c, size) => if Unicode.isControl c then none else some (c, size)
  | none => none

/-- The maximal stretches of well-formed characters without control characters that have at least
`minLength` characters, one of several bytes among them. -/
def utf8 (data : Bytes) (minLength : Int) : List Run :=
  runs readUtf8 (fun pending => minLength ≤ pending.length && pending.wide) data

end Scan

end BinaryStrings
