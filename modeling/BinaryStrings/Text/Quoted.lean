import BinaryStrings.Bytes
import BinaryStrings.Text.Hex
import BinaryStrings.Unicode.Class

/-!
# Quoted texts

A text inside a message stands between single quotes, or between double quotes when it holds a
single quote and no double one.  The quote and the backslash get a backslash in front, line feed,
carriage return and tab have letters, and unprintable characters appear as `\x`, `\u` or `\U` with
two, four or eight hexadecimal digits.
-/

namespace BinaryStrings.Text

/-- The backslash escape of a code point by its size. -/
def numericEscape (n : Nat) : List Char :=
  if n < 0x100 then '\\' :: 'x' :: hexPadded 2 n
  else if n < 0x10000 then '\\' :: 'u' :: hexPadded 4 n
  else '\\' :: 'U' :: hexPadded 8 n

/-- A character inside a text quoted by `quote`. -/
def quotedChar (quote c : Char) : List Char :=
  if c == quote || c == '\\' then ['\\', c]
  else if c == '\n' then ['\\', 'n']
  else if c == '\r' then ['\\', 'r']
  else if c == '\t' then ['\\', 't']
  else if Unicode.isPrintable c then [c]
  else numericEscape c.toNat

/-- The apostrophe. -/
def apostrophe : Char := Char.ofNat 0x27

/-- The quote that a text gets. -/
def quoteFor (text : List Char) : Char :=
  if text.contains apostrophe && !text.contains '"' then '"' else apostrophe

/-- A text between quotes. -/
def quotedChars (text : List Char) : List Char :=
  let quote := quoteFor text
  quote :: text.flatMap (quotedChar quote) ++ [quote]

/-- A text between quotes. -/
def quoted (text : String) : String :=
  String.ofList (quotedChars text.toList)

/-- A list in brackets, items separated by commas. -/
def bracketed (items : List String) : String :=
  "[" ++ String.intercalate ", " items ++ "]"

/-- A list of texts, each between quotes. -/
def quotedList (items : List String) : String :=
  bracketed (items.map quoted)

/-- A byte inside a quoted byte sequence. -/
def quotedByte (byte : UInt8) : List Char :=
  let c := Char.ofNat byte.toNat
  if c == apostrophe || c == '\\' then ['\\', c]
  else if c == '\n' then ['\\', 'n']
  else if c == '\r' then ['\\', 'r']
  else if c == '\t' then ['\\', 't']
  else if 0x20 ≤ byte && byte < 0x7F then [c]
  else numericEscape byte.toNat

/-- A byte sequence between single quotes with a mark in front. -/
def quotedBytes (data : Bytes) : String :=
  String.ofList ('b' :: apostrophe :: data.flatMap quotedByte ++ [apostrophe])

end BinaryStrings.Text
