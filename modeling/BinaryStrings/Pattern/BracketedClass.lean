import BinaryStrings.Pattern.Escape

/-!
# Bracketed classes

A class lists characters, ranges and named classes between brackets.  A closing bracket at its start
and a hyphen at an end stand for themselves.
-/

namespace BinaryStrings.Pattern

open Reading

/-- An item of a class that starts with a token just read. -/
def itemOf : Token → Reading ClassItem
  | .char c => return .point c.toNat
  | .escape c => escapeInClass c

/-- The range from one item to another, whose tokens were just read. -/
def rangeOf (first last : Token) (low high : ClassItem) : Reading ClassItem := do
  match low, high with
  | .point low, .point high =>
    if high < low then failBack (.badRange first.text last.text) (first.length + 1 + last.length)
    else return .range low high
  | _, _ => failBack (.badRange first.text last.text) (first.length + 1 + last.length)

/-- Reads the items of a class up to its closing bracket.  `start` is the place of the opening
bracket and `read` are the items before, latest first. -/
def classItems (start : Nat) : (fuel : Nat) → (read : List ClassItem) → Reading (List ClassItem)
  | 0, _ => failAt .unfinishedClass start
  | fuel + 1, read => do
    match ← next with
    | none => failAt .unfinishedClass start
    | some token =>
      if token == .char ']' && !read.isEmpty then return read.reverse
      else
        let item ← itemOf token
        if !(← accept '-') then classItems start fuel (item :: read)
        else
          match ← next with
          | none => failAt .unfinishedClass start
          | some last =>
            if last == .char ']' then return (.point 0x2D :: item :: read).reverse
            else
              let range ← rangeOf token last item (← itemOf last)
              classItems start fuel (range :: read)

/-- Reads a class from behind its opening bracket at `start`.  A class of one character is that
character. -/
def readClass (start : Nat) : Reading Tree := do
  let negated ← accept '^'
  let items ← classItems start ((← get).rest.length + 1) []
  match items.eraseDups with
  | [.point n] => return if negated then .notPoint n else .point n
  | items => return .oneOf negated items

end BinaryStrings.Pattern
