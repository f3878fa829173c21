import BinaryStrings.Server.SizeGuard

/-!
# The size guard on shared data

What a tool wants to send may still be held by others, as a cached report is.  Here the size guard works
on cells: a response that is too large is copied to a cell of its own, an object is changed there in its
place, and the first part of a list gets a new cell, as a preview and an excuse do.
-/

namespace BinaryStrings.Server.SizeGuard

/-- The values that are held, by address. -/
abbrev Cells := List Json

namespace Cells

/-- The cells with a value in a new one, and the address of that. -/
def add (cells : Cells) (value : Json) : Cells × Nat :=
  (cells ++ [value], cells.length)

/-- The cells with a smaller value for the one at an address, and the address of that: a list gets a new
cell, anything else is changed in its place. -/
def replace (cells : Cells) (address : Nat) (value smaller : Json) : Cells × Nat :=
  match value with
  | .arr _ => cells.add smaller
  | _ => (cells.set address smaller, address)

/-- The cells after at most so many rounds on the value at an address, and where the result is. -/
def shrinkRounds (advice : Option String) : (rounds : Nat) → Cells → Nat → Cells × Nat
  | 0, cells, address => (cells, address)
  | rounds + 1, cells, address =>
    match cells[address]? with
    | none => (cells, address)
    | some value =>
      if value.size ≤ target then (cells, address)
      else
        match shrink advice value.size value with
        | none => (cells, address)
        | some smaller =>
          let (changed, next) := cells.replace address value smaller
          shrinkRounds advice rounds changed next

/-- The cells after the value at an address is made to fit, and where the response is. -/
def guard (advice : Option String) (cells : Cells) (address : Nat) : Cells × Nat :=
  match cells[address]? with
  | none => (cells, address)
  | some value =>
    if deepestWritten < value.depth then cells.add (excuse advice 0)
    else if value.size ≤ limit then (cells, address)
    else if deepestCopied < value.depth then cells.add (excuse advice value.size)
    else
      let (copied, own) := cells.add value
      let (cut, last) := shrinkRounds advice rounds copied own
      match cut[last]? with
      | none => (cut, last)
      | some smaller => if limit < smaller.size then cut.add (preview smaller) else (cut, last)

end Cells

end BinaryStrings.Server.SizeGuard
