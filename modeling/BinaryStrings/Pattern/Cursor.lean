import BinaryStrings.Numeral
import BinaryStrings.Pattern.Error
import BinaryStrings.Unicode.CharacterNames

/-!
# Reading a pattern

A pattern is read token by token: a character, or a backslash with the character behind it.  The
state of the reader is the text left, its position, and what is known so far about options and
groups.  A backslash at the very end is found when the reader comes to stand before it.
-/

namespace BinaryStrings.Pattern

/-- A unit of a pattern's text. -/
inductive Token where
  | char (c : Char)
  | escape (c : Char)
  deriving DecidableEq, Repr

namespace Token

/-- The text of a token. -/
def chars : Token → List Char
  | .char c => [c]
  | .escape c => ['\\', c]

/-- The text of a token. -/
def text (token : Token) : String :=
  String.ofList token.chars

/-- The number of characters of a token. -/
def length (token : Token) : Nat :=
  token.chars.length

end Token

/-- The state of the reader. -/
structure Cursor where
  /-- The names of characters. -/
  characters : Unicode.CharacterNames
  /-- The text left. -/
  rest : List Char
  /-- The number of characters before it. -/
  position : Nat
  /-- The options of the whole pattern. -/
  flags : Flags
  /-- The named groups. -/
  names : List (String × Nat)
  /-- The number of groups opened, the whole pattern included. -/
  groups : Nat
  /-- The groups that are complete. -/
  closed : List Nat
  /-- Inside a look-behind, the number of groups opened before it. -/
  groupsBefore : Option Nat
  /-- Groups that conditions ask for, with the place of the first such condition. -/
  conditions : List (Nat × Nat)

/-- A step of reading. -/
abbrev Reading := StateT Cursor (Except Error)

namespace Reading

/-- The token that comes next. -/
def peek : Reading (Option Token) := do
  match (← get).rest with
  | [] => return none
  | '\\' :: c :: _ => return some (.escape c)
  | c :: _ => return some (.char c)

/-- Stops with a mistake `back` characters before the current position. -/
def failBack {α : Type} (kind : Mistake) (back : Nat) : Reading α := do
  throw (.mistake kind ((← get).position - back))

/-- Stops with a mistake at a position. -/
def failAt {α : Type} (kind : Mistake) (position : Nat) : Reading α :=
  throw (.mistake kind position)

/-- Stands at a place of the text. -/
def moveTo (rest : List Char) (position : Nat) : Reading Unit := do
  if rest == ['\\'] then failAt .unfinishedEscape position
  else modify fun cursor => { cursor with rest := rest, position := position }

/-- Takes the next token. -/
def next : Reading (Option Token) := do
  match ← peek with
  | none => return none
  | some token =>
    let cursor ← get
    moveTo (cursor.rest.drop token.length) (cursor.position + token.length)
    return some token

/-- Takes the next token if it is this character. -/
def accept (c : Char) : Reading Bool := do
  if (← peek) == some (.char c) then
    let _ ← next
    return true
  else return false

/-- Takes characters that pass a test, `most` at most. -/
def takeWhile (test : Char → Bool) : (most : Nat) → Reading (List Char)
  | 0 => return []
  | most + 1 => do
    match ← peek with
    | some (.char c) =>
      if test c then
        let _ ← next
        return c :: (← takeWhile test most)
      else return []
    | _ => return []

/-- Takes a name up to the closing character, which is taken too. -/
def nameUpTo (closing : Char) (what : String) : (fuel : Nat) → (read : List Char) → Reading (List Char)
  | 0, read => return read
  | fuel + 1, read => do
    match ← next with
    | none =>
      if read.isEmpty then failBack (.noName what) 0
      else failBack (.unfinishedName (String.ofList [closing])) read.length
    | some token =>
      if token == .char closing then
        if read.isEmpty then failBack (.noName what) 1 else return read
      else nameUpTo closing what fuel (read ++ token.chars)

/-- Takes a name up to the closing character. -/
def name (closing : Char) (what : String) : Reading (List Char) := do
  nameUpTo closing what ((← get).rest.length + 1) []

/-! ## Groups -/

/-- Refuses a reference from a look-behind to a group that is open or part of it. -/
def checkLookBehind (index : Nat) : Reading Unit := do
  let cursor ← get
  match cursor.groupsBefore with
  | none => return
  | some before =>
    if !cursor.closed.contains index then failBack .groupOpen 0
    else if before ≤ index then failBack .groupOfSameLookBehind 0

/-- Opens a capturing group. -/
def openGroup (name : Option (List Char)) : Reading Nat := do
  let cursor ← get
  let index := cursor.groups
  match name with
  | none => set { cursor with groups := index + 1 }
  | some chars =>
    let text := String.ofList chars
    match cursor.names.lookup text with
    | some known => failBack (.groupRedefined text index known) (chars.length + 1)
    | none => set { cursor with groups := index + 1, names := (text, index) :: cursor.names }
  return index

/-- Completes a capturing group. -/
def closeGroup (index : Nat) : Reading Unit :=
  modify fun cursor => { cursor with closed := index :: cursor.closed }

/-- The group of a name that was just read with its closing character. -/
def groupNamed (chars : List Char) : Reading Nat := do
  let text := String.ofList chars
  match (← get).names.lookup text with
  | some index => return index
  | none => failBack (.unknownGroup text) (chars.length + 1)

/-- Refuses a text that is no name; it was just read with its closing character. -/
def checkName (chars : List Char) : Reading Unit := do
  if !Unicode.isName chars then
    failBack (.badGroupName (String.ofList chars)) (chars.length + 1)

/-- Notes that a condition asks for a group. -/
def noteCondition (index position : Nat) : Reading Unit :=
  modify fun cursor =>
    if (cursor.conditions.lookup index).isSome then cursor
    else { cursor with conditions := cursor.conditions ++ [(index, position)] }

end Reading

end BinaryStrings.Pattern
