/-!
# Membership in sorted tables

A code point property is a table of inclusive ranges in ascending order; membership is decided by
halving the table.  A halving search needs no more steps than the table has rows, which is the
bound that makes it total.
-/

namespace BinaryStrings.Unicode

/-- The last index in `[low, high)` whose row starts at or below `point`, given that the row before
`high` is the only candidate left when the interval closes. -/
def lastStart (start : Nat → Nat) (point : Nat) : (steps low high : Nat) → Nat
  | 0, low, _ => low
  | steps + 1, low, high =>
    if high ≤ low + 1 then low
    else
      let middle := (low + high) / 2
      if start middle ≤ point then lastStart start point steps middle high
      else lastStart start point steps low middle

/-- Whether `point` lies in one of the ascending inclusive ranges of `table`. -/
def inRanges (table : Array (Nat × Nat)) (point : Nat) : Bool :=
  let row := lastStart (fun i => (table.getD i (0, 0)).1) point table.size 0 table.size
  match table[row]? with
  | some (first, last) => first ≤ point && point ≤ last
  | none => false

/-- The distance of `point` from the last of the ascending `starts` that is not above it. -/
def fromStart? (starts : Array Nat) (point : Nat) : Option Nat :=
  let row := lastStart (fun i => starts.getD i 0) point starts.size 0 starts.size
  match starts[row]? with
  | some first => if first ≤ point then some (point - first) else none
  | none => none

end BinaryStrings.Unicode
