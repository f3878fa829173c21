import BinaryStrings.Pattern.Cursor

/-!
# Escapes in patterns

What a backslash and the character behind it stand for, inside a bracketed class and outside.  An
escape by number goes on with the digits behind it.
-/

namespace BinaryStrings.Pattern

open Reading

/-- Octal digits. -/
def isOctalDigit (c : Char) : Bool :=
  '0' ≤ c && c ≤ '7'

/-- Hexadecimal digits of ASCII. -/
def isHexDigit (c : Char) : Bool :=
  Numeral.isDigitIn 16 c

/-- The largest number of an octal escape. -/
def mostOctal : Nat := 0o377

/-- Control characters with a letter, and the backslash. -/
def plainEscape? (c : Char) : Option Nat :=
  match c with
  | 'a' => some 7
  | 'b' => some 8
  | 'f' => some 12
  | 'n' => some 10
  | 'r' => some 13
  | 't' => some 9
  | 'v' => some 11
  | '\\' => some 0x5C
  | _ => none

/-- Classes with a letter; the capital is the complement. -/
def classEscape? (c : Char) : Option ClassItem :=
  match c with
  | 'd' => some (.named false .digit)
  | 'D' => some (.named true .digit)
  | 's' => some (.named false .space)
  | 'S' => some (.named true .space)
  | 'w' => some (.named false .word)
  | 'W' => some (.named true .word)
  | _ => none

/-- Places with a letter. -/
def anchorEscape? (c : Char) : Option Anchor :=
  match c with
  | 'A' => some .textStart
  | 'b' => some .wordBoundary
  | 'B' => some .noWordBoundary
  | 'Z' => some .textEnd
  | _ => none

/-- An escape as it stands in the text. -/
def escapeText (c : Char) (digits : List Char) : String :=
  String.ofList ('\\' :: c :: digits)

/-- Refuses an escape that was just read. -/
def badEscape {α : Type} (c : Char) (digits : List Char) : Reading α :=
  failBack (.badEscape (escapeText c digits)) (digits.length + 2)

/-- Reads a fixed number of hexadecimal digits behind `c`. -/
def hexEscape (c : Char) (size : Nat) : Reading Nat := do
  let digits ← takeWhile isHexDigit size
  if digits.length < size then
    failBack (.incompleteEscape (escapeText c digits)) (digits.length + 2)
  else
    let n := Numeral.valueOf 16 digits
    if 0x10FFFF < n then badEscape c digits else return n

/-- Reads a character by its name. -/
def namedEscape : Reading Nat := do
  if !(← accept '{') then failBack .noBrace 0
  else
    let chars ← name '}' "character name"
    match (← get).characters.find? (String.ofList chars) with
    | some c => return c.toNat
    | none => failBack (.unknownCharacter (String.ofList chars)) (chars.length + 4)

/-- The number of octal digits, which are refused above the largest. -/
def octalEscape (c : Char) (digits : List Char) : Reading Nat := do
  let n := Numeral.valueOf 8 (c :: digits)
  if mostOctal < n then
    failBack (.octalTooLarge (escapeText c digits)) (digits.length + 2)
  else return n

/-- The escapes that have the same meaning everywhere, apart from letters with a meaning and
digits. -/
def commonEscape (c : Char) : Reading Nat := do
  if c == 'x' then hexEscape c 2
  else if c == 'u' then hexEscape c 4
  else if c == 'U' then hexEscape c 8
  else if c == 'N' then namedEscape
  else if c.isAlphanum then badEscape c []
  else return c.toNat

/-- Reads an escape inside a bracketed class. -/
def escapeInClass (c : Char) : Reading ClassItem := do
  match plainEscape? c, classEscape? c with
  | some n, _ => return .point n
  | none, some item => return item
  | none, none =>
    if isOctalDigit c then
      let digits ← takeWhile isOctalDigit 2
      return .point (← octalEscape c digits)
    else return .point (← commonEscape c)

/-- A reference to a complete group by its number, which was just read. -/
def reference (c : Char) (digits : List Char) : Reading Tree := do
  let index := Numeral.valueOf 10 (c :: digits)
  let cursor ← get
  if cursor.groups ≤ index then failBack (.noSuchGroup index) (digits.length + 1)
  else if !cursor.closed.contains index then failBack .groupOpen (digits.length + 2)
  else
    checkLookBehind index
    return .backReference index

/-- Reads an escape by number behind a digit other than zero: three octal digits are a character,
all else refers to a group. -/
def numberEscape (c : Char) : Reading Tree := do
  match ← takeWhile Char.isDigit 1 with
  | [] => reference c []
  | digits =>
    if isOctalDigit c && digits.all isOctalDigit then
      match ← takeWhile isOctalDigit 1 with
      | [] => reference c digits
      | third => return .point (← octalEscape c (digits ++ third))
    else reference c digits

/-- Reads an escape outside a bracketed class. -/
def escapeOutside (c : Char) : Reading Tree := do
  match anchorEscape? c, classEscape? c, plainEscape? c with
  | some kind, _, _ => return .anchor kind
  | none, some item, _ => return .oneOf false [item]
  | none, none, some n => return .point n
  | none, none, none =>
    if c == '0' then
      let digits ← takeWhile isOctalDigit 2
      return .point (Numeral.valueOf 8 digits)
    else if c.isDigit then numberEscape c
    else return .point (← commonEscape c)

end BinaryStrings.Pattern
