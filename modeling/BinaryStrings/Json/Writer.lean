import BinaryStrings.Decimal.Shortest
import BinaryStrings.Json.Basic
import BinaryStrings.Text.Hex
import BinaryStrings.Text.Utf8

/-!
# JSON text

Writing a value on one line or with one item a line, in full Unicode or in ASCII alone.  Quotes and
backslashes get a backslash, control characters are escaped, and so is in ASCII text everything
beyond the tilde, where a code point above U+FFFF takes two escapes.  Whole numbers are written with all
their digits, however many these are.
-/

namespace BinaryStrings.Json

/-- How text is written. -/
structure Style where
  /-- Escape everything that is not printable ASCII. -/
  asciiOnly : Bool
  /-- One item a line, each level indented by this many spaces more. -/
  indent : Option Nat
  /-- Write members in the order of their names. -/
  sorted : Bool

/-- One line in full Unicode. -/
def Style.plain : Style := ⟨false, none, false⟩

/-- One line in ASCII. -/
def Style.ascii : Style := ⟨true, none, false⟩

/-- An escape of four hexadecimal digits. -/
def unitEscape (n : Nat) : List Char :=
  '\\' :: 'u' :: Text.hexPadded 4 n

/-- A character inside a JSON string. -/
def stringChar (asciiOnly : Bool) (c : Char) : List Char :=
  let n := c.toNat
  if c == '"' || c == '\\' then ['\\', c]
  else if c == '\n' then ['\\', 'n']
  else if c == '\r' then ['\\', 'r']
  else if c == '\t' then ['\\', 't']
  else if n == 0x08 then ['\\', 'b']
  else if n == 0x0C then ['\\', 'f']
  else if n < 0x20 then unitEscape n
  else if !asciiOnly || n < 0x7F then [c]
  else if n < 0x10000 then unitEscape n
  else unitEscape (0xD800 + (n - 0x10000) / 0x400) ++ unitEscape (0xDC00 + (n - 0x10000) % 0x400)

/-- A JSON string. -/
def stringChars (asciiOnly : Bool) (text : String) : List Char :=
  '"' :: text.toList.flatMap (stringChar asciiOnly) ++ ['"']

/-- The start of a line at some depth, when there is one item a line. -/
def lineBreak (style : Style) (depth : Nat) : List Char :=
  match style.indent with
  | some step => '\n' :: List.replicate (step * depth) ' '
  | none => []

/-- What stands between two items at some depth. -/
def separator (style : Style) (depth : Nat) : List Char :=
  match style.indent with
  | some _ => ',' :: lineBreak style depth
  | none => [',', ' ']

mutual

/-- The value with the members of every object in the order of their names. -/
def sortMembers : Json → Json
  | .arr items => .arr (sortItems items)
  | .obj members => .obj ((sortEach members).mergeSort fun a b => a.1 ≤ b.1)
  | value => value

/-- The items with the members of every object in order. -/
def sortItems : List Json → List Json
  | [] => []
  | item :: rest => sortMembers item :: sortItems rest

/-- The members with the members of every object in their values in order. -/
def sortEach : List (String × Json) → List (String × Json)
  | [] => []
  | member :: rest => sortValue member :: sortEach rest

/-- A member with the members of every object in its value in order. -/
def sortValue : String × Json → String × Json
  | (name, value) => (name, sortMembers value)

end

mutual

/-- A value at some depth. -/
def valueChars (style : Style) (depth : Nat) : Json → List Char
  | .null => ['n', 'u', 'l', 'l']
  | .bool true => ['t', 'r', 'u', 'e']
  | .bool false => ['f', 'a', 'l', 's', 'e']
  | .int value => (toString value).toList
  | .float value => (value.write Binary64.jsonLayout).toList
  | .str text => stringChars style.asciiOnly text
  | .arr [] => ['[', ']']
  | .arr (item :: rest) =>
    '[' :: (lineBreak style (depth + 1) ++ (valueChars style (depth + 1) item ++
      (itemChars style (depth + 1) rest ++ (lineBreak style depth ++ [']']))))
  | .obj [] => ['{', '}']
  | .obj (member :: rest) =>
    '{' :: (lineBreak style (depth + 1) ++ (memberChars style (depth + 1) member ++
      (memberListChars style (depth + 1) rest ++ (lineBreak style depth ++ ['}']))))

/-- The items after the first one, a separator before each. -/
def itemChars (style : Style) (depth : Nat) : List Json → List Char
  | [] => []
  | item :: rest =>
    separator style depth ++ (valueChars style depth item ++ itemChars style depth rest)

/-- The members after the first one, a separator before each. -/
def memberListChars (style : Style) (depth : Nat) : List (String × Json) → List Char
  | [] => []
  | member :: rest =>
    separator style depth ++ (memberChars style depth member ++ memberListChars style depth rest)

/-- A member: its name, a colon, and its value. -/
def memberChars (style : Style) (depth : Nat) : String × Json → List Char
  | (name, value) =>
    stringChars style.asciiOnly name ++ (':' :: ' ' :: valueChars style depth value)

end

/-- The text of a value. -/
def chars (style : Style) (value : Json) : List Char :=
  valueChars style 0 (if style.sorted then sortMembers value else value)

/-- The text of a value. -/
def write (style : Style) (value : Json) : String :=
  String.ofList (chars style value)

/-- The number of UTF-8 bytes of the one-line text of a value. -/
def size (value : Json) : Nat :=
  Utf8.byteCount (chars .plain value)

end BinaryStrings.Json
