import BinaryStrings.Pattern.Tree

/-!
# Widths

The least and the greatest number of characters that a pattern can match.  A back-reference is as
wide as the group it refers to, so widths are measured from left to right and those of the groups
are kept.  Widths stop growing at a bound far above any text.
-/

namespace BinaryStrings.Pattern

/-- The least and the greatest number of characters of a match. -/
structure Width where
  least : Nat
  most : Nat
  deriving DecidableEq, Repr

namespace Width

/-- Where widths stop growing. -/
def bound : Nat := Nat.pow 2 64

/-- A width within the bound. -/
def bounded (least most : Nat) : Width :=
  ⟨min least bound, min most bound⟩

/-- No character. -/
def zero : Width := ⟨0, 0⟩

/-- One character. -/
def one : Width := ⟨1, 1⟩

/-- Of two patterns in sequence. -/
def add (a b : Width) : Width :=
  bounded (a.least + b.least) (a.most + b.most)

/-- Of one of two patterns. -/
def either (a b : Width) : Width :=
  ⟨min a.least b.least, max a.most b.most⟩

/-- Of a repetition. -/
def times (least : Nat) (most : Option Nat) (a : Width) : Width :=
  match most with
  | some most => bounded (a.least * least) (a.most * most)
  | none => bounded (a.least * least) (if a.most = 0 then 0 else bound)

end Width

/-- The widths of groups. -/
abbrev GroupWidths := List (Nat × Width)

/-- The width of a pattern, and the widths of groups with those of its own added. -/
def Tree.width (known : GroupWidths) : Tree → Width × GroupWidths
  | .empty => (.zero, known)
  | .seq first rest =>
    let (a, known) := first.width known
    let (b, known) := rest.width known
    (a.add b, known)
  | .alt first second =>
    let (a, known) := first.width known
    let (b, known) := second.width known
    (a.either b, known)
  | .point _ => (.one, known)
  | .notPoint _ => (.one, known)
  | .anyChar => (.one, known)
  | .oneOf _ _ => (.one, known)
  | .anchor _ => (.zero, known)
  | .backReference index => ((known.lookup index).getD .zero, known)
  | .group index _ _ body =>
    let (a, known) := body.width known
    match index with
    | some index => (a, (index, a) :: known)
    | none => (a, known)
  | .atomic body => body.width known
  | .look _ _ body => (.zero, (body.width known).2)
  | .conditional _ yes no =>
    let (a, known) := yes.width known
    let (b, known) := no.width known
    (a.either b, known)
  | .repeated least most _ body =>
    let (a, known) := body.width known
    (a.times least most, known)

end BinaryStrings.Pattern
