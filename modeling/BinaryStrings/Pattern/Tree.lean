/-!
# Pattern trees

The syntax of search patterns as a tree: single characters and classes of them, anchors, groups and
back-references, look-around, and repetition.  A sequence is a chain of `seq` that ends in `empty`.
-/

namespace BinaryStrings.Pattern

/-- Options that change how a part of a pattern matches. -/
structure Flags where
  ignoreCase : Bool
  multiline : Bool
  dotAll : Bool
  verbose : Bool
  ascii : Bool
  unicode : Bool
  template : Bool
  deriving DecidableEq, Repr

namespace Flags

/-- No option. -/
def none : Flags := ⟨false, false, false, false, false, false, false⟩

/-- Combines two sets of options flag by flag. -/
def zip (f : Bool → Bool → Bool) (a b : Flags) : Flags :=
  ⟨f a.ignoreCase b.ignoreCase, f a.multiline b.multiline, f a.dotAll b.dotAll,
    f a.verbose b.verbose, f a.ascii b.ascii, f a.unicode b.unicode, f a.template b.template⟩

/-- The options in either set. -/
def union (a b : Flags) : Flags :=
  zip or a b

/-- The options in the first set that are not in the second. -/
def without (a b : Flags) : Flags :=
  zip (fun x y => x && !y) a b

/-- The options in both sets. -/
def inter (a b : Flags) : Flags :=
  zip and a b

/-- Whether there is no option in the set. -/
def isEmpty (a : Flags) : Bool :=
  a == none

/-- The options in force inside a group that turns some on and some off.  The two character sets
exclude each other. -/
def inside (outer on off : Flags) : Flags :=
  let outer := if on.ascii || on.unicode then { outer with ascii := false, unicode := false } else outer
  (outer.union on).without off

end Flags

/-- A named class of characters. -/
inductive CharClass where
  | digit
  | space
  | word
  deriving DecidableEq, Repr

/-- An item of a bracketed class: a code point, a range of them, or a named class or its
complement. -/
inductive ClassItem where
  | point (n : Nat)
  | range (first last : Nat)
  | named (negated : Bool) (kind : CharClass)
  deriving DecidableEq, Repr

/-- A place in the text. -/
inductive Anchor where
  /-- The start of the text, or of a line in multi-line mode. -/
  | lineStart
  /-- The end of the text or before a line feed there, or the end of a line in multi-line mode. -/
  | lineEnd
  | textStart
  | textEnd
  | wordBoundary
  | noWordBoundary
  deriving DecidableEq, Repr

/-- How a repetition goes about its count. -/
inductive Greed where
  /-- As often as possible, fewer if the rest fails. -/
  | greedy
  /-- As seldom as possible, more if the rest fails. -/
  | lazy
  /-- As often as possible, and no fewer. -/
  | possessive
  deriving DecidableEq, Repr

/-- A pattern. -/
inductive Tree where
  /-- Matches without moving. -/
  | empty
  | seq (first rest : Tree)
  | alt (first second : Tree)
  | point (n : Nat)
  | notPoint (n : Nat)
  | anyChar
  | oneOf (negated : Bool) (items : List ClassItem)
  | anchor (kind : Anchor)
  | backReference (index : Nat)
  /-- A group; it has an index if it captures. -/
  | group (index : Option Nat) (on off : Flags) (body : Tree)
  /-- A group whose first way to match is the only one. -/
  | atomic (body : Tree)
  /-- A condition on the text ahead or behind. -/
  | look (behind negated : Bool) (body : Tree)
  /-- One of two patterns, by whether a group has matched. -/
  | conditional (index : Nat) (yes no : Tree)
  /-- At least `least` and at most `most` times, without bound when there is no `most`. -/
  | repeated (least : Nat) (most : Option Nat) (greed : Greed) (body : Tree)
  deriving DecidableEq, Repr

/-- A sequence of patterns. -/
def Tree.ofItems (items : List Tree) : Tree :=
  items.foldr .seq .empty

end BinaryStrings.Pattern
