import BinaryStrings.Pattern.Tree
import BinaryStrings.Unicode.Case
import BinaryStrings.Unicode.Class

/-!
# Tests of one character

What a single character of the text has to be.  Without regard to case, the character is compared in
lower case, and with a single code point also through the *twins* of its lower case: the other lower
case letters with the same capital.  In a bracketed class a code point above U+FFFF is compared as
it stands in the pattern, and a range that reaches beyond U+FFFF also holds the characters whose
capitals it holds.
-/

namespace BinaryStrings.Pattern

/-- How case is disregarded. -/
inductive Fold where
  /-- It is not. -/
  | exact
  /-- For letters of ASCII. -/
  | ascii
  | unicode
  deriving DecidableEq, Repr

/-- The end of the first plane of code points. -/
def planeEnd : Nat := 0xFFFF

namespace Fold

/-- The form of a code point that is compared. -/
def lower (fold : Fold) (n : Nat) : Nat :=
  match fold with
  | .exact => n
  | .ascii => Unicode.lowerAsciiPoint n
  | .unicode => Unicode.lowerPoint n

/-- A lower case code point and its twins. -/
def relatives (fold : Fold) (n : Nat) : List Nat :=
  match fold with
  | .unicode => n :: Unicode.twins n
  | _ => [n]

/-- The code points with this lower case form. -/
def sources (fold : Fold) (n : Nat) : List Nat :=
  match fold with
  | .exact => [n]
  | .ascii => if 0x61 ≤ n && n ≤ 0x7A then [n, n - 0x20] else [n]
  | .unicode => Unicode.loweredFrom n

/-- Whether a code point counts as the one of the pattern. -/
def same (fold : Fold) (wanted n : Nat) : Bool :=
  (fold.relatives (fold.lower wanted)).contains (fold.lower n)

/-- Whether a code point in compared form is in a range of the pattern. -/
def inRange (fold : Fold) (first last lowered : Nat) : Bool :=
  match fold with
  | .exact => first ≤ lowered && lowered ≤ last
  | _ =>
    let holds (n : Nat) : Bool := first ≤ n && n ≤ last
    ((fold.relatives lowered).any fun z =>
        (fold.sources z).any fun n => holds n && n ≤ planeEnd) ||
      (planeEnd < last && (holds lowered || holds (Unicode.upperPoint lowered)))

end Fold

/-- Whether a character belongs to a named class. -/
def CharClass.holds (ascii : Bool) (kind : CharClass) (c : Char) : Bool :=
  if ascii then
    match kind with
    | .digit => c.isDigit
    | .space => c == ' ' || (0x09 ≤ c.toNat && c.toNat ≤ 0x0D)
    | .word => c.isAlphanum || c == '_'
  else
    match kind with
    | .digit => Unicode.isDecimalDigit c
    | .space => Unicode.isBlank c
    | .word => Unicode.isAlphanumeric c || c == '_'

/-- Whether an item of a class holds a code point in compared form. -/
def ClassItem.holds (fold : Fold) (ascii : Bool) (lowered : Nat) : ClassItem → Bool
  | .point n =>
    if fold == .exact || planeEnd < n then lowered == n
    else (fold.relatives (fold.lower n)).contains lowered
  | .range first last => fold.inRange first last lowered
  | .named negated kind => kind.holds ascii (Char.ofNat lowered) != negated

/-- A test of one character. -/
inductive CharTest where
  | any
  | notLineFeed
  | point (fold : Fold) (n : Nat)
  | notPoint (fold : Fold) (n : Nat)
  | oneOf (fold : Fold) (ascii negated : Bool) (items : List ClassItem)
  deriving DecidableEq, Repr

/-- Whether a character passes a test. -/
def CharTest.accepts (c : Char) : CharTest → Bool
  | .any => true
  | .notLineFeed => c != '\n'
  | .point fold n => fold.same n c.toNat
  | .notPoint fold n => !fold.same n c.toNat
  | .oneOf fold ascii negated items =>
    items.any (·.holds fold ascii (fold.lower c.toNat)) != negated

end BinaryStrings.Pattern
