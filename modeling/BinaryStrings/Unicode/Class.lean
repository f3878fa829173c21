import BinaryStrings.Unicode.Ranges
import BinaryStrings.Unicode.Letter
import BinaryStrings.Unicode.Numeric
import BinaryStrings.Unicode.Mark
import BinaryStrings.Unicode.Unprintable

/-!
# Character classes

The classes of characters that scanning, judging, quoting, reading numbers and matching patterns
ask for.  ASCII is answered without a table.
-/

namespace BinaryStrings.Unicode

/-- Control characters, general category Cc: C0, delete and C1. -/
def isControl (c : Char) : Bool :=
  c.toNat < 0x20 || (0x7F ≤ c.toNat && c.toNat < 0xA0)

/-- Letters of every script. -/
def isLetter (c : Char) : Bool :=
  if c.toNat < 0x80 then c.isAlpha else inRanges letterRanges c.toNat

/-- The value of a decimal digit of any script. -/
def digitValue? (c : Char) : Option Nat :=
  if c.toNat < 0x80 then
    if c.isDigit then some (c.toNat - 0x30) else none
  else
    match fromStart? digitZeros c.toNat with
    | some value => if value < 10 then some value else none
    | none => none

/-- Decimal digits of every script, general category Nd. -/
def isDecimalDigit (c : Char) : Bool :=
  (digitValue? c).isSome

/-- Letters and numeric characters of every script. -/
def isAlphanumeric (c : Char) : Bool :=
  if c.toNat < 0x80 then c.isAlphanum
  else inRanges letterRanges c.toNat || inRanges numericRanges c.toNat

/-- Blank characters: the ASCII separators U+0009 to U+000D and U+001C to U+0020, U+0085, and the
space, line and paragraph separators. -/
def isBlank (c : Char) : Bool :=
  let n := c.toNat
  if n < 0x80 then (0x09 ≤ n && n ≤ 0x0D) || (0x1C ≤ n && n ≤ 0x20)
  else n == 0x85 || n == 0xA0 || n == 0x1680 || (0x2000 ≤ n && n ≤ 0x200A) ||
    n == 0x2028 || n == 0x2029 || n == 0x202F || n == 0x205F || n == 0x3000

/-- Characters that a quoted text shows as they are. -/
def isPrintable (c : Char) : Bool :=
  if c.toNat < 0x7F then 0x20 ≤ c.toNat else !inRanges unprintableRanges c.toNat

/-- Letter numbers (general category Nl). -/
def letterNumberRanges : Array (Nat × Nat) := #[
  (0x16EE, 0x16F0), (0x2160, 0x2182), (0x2185, 0x2188), (0x3007, 0x3007), (0x3021, 0x3029),
  (0x3038, 0x303A), (0xA6E6, 0xA6EF), (0x10140, 0x10174), (0x10341, 0x10341), (0x1034A, 0x1034A),
  (0x103D1, 0x103D5), (0x12400, 0x1246E)]

/-- Letters that no name starts with, as their compatibility form does not start one. -/
def noNameStart : List Nat :=
  [0x37A, 0xE33, 0xEB3, 0x2E2F, 0xFC5E, 0xFC5F, 0xFC60, 0xFC61, 0xFC62, 0xFC63, 0xFDFA, 0xFDFB,
    0xFE70, 0xFE72, 0xFE74, 0xFE76, 0xFE78, 0xFE7A, 0xFE7C, 0xFE7E, 0xFF9E, 0xFF9F]

/-- Characters that can start a name: letters, letter numbers, the low line and four others. -/
def isNameStart (c : Char) : Bool :=
  if c.toNat < 0x80 then c.isAlpha || c == '_'
  else
    ((inRanges letterRanges c.toNat || inRanges letterNumberRanges c.toNat) &&
        !noNameStart.contains c.toNat) ||
      [0x1885, 0x1886, 0x2118, 0x212E].contains c.toNat

/-- Characters that can continue a name: those that start one, combining marks, decimal digits,
connector punctuation and a few others. -/
def isNameContinue (c : Char) : Bool :=
  if c.toNat < 0x80 then c.isAlphanum || c == '_'
  else
    isNameStart c || inRanges markRanges c.toNat || isDecimalDigit c ||
      [0x203F, 0x2040, 0x2054, 0xFE33, 0xFE34, 0xFE4D, 0xFE4E, 0xFE4F, 0xFF3F].contains c.toNat ||
      [0xB7, 0x387, 0xE33, 0xEB3, 0x1369, 0x136A, 0x136B, 0x136C, 0x136D, 0x136E, 0x136F, 0x1370,
        0x1371, 0x19DA, 0xFF9E, 0xFF9F].contains c.toNat

/-- A name: a character that starts one, then any number that continue one. -/
def isName : List Char → Bool
  | [] => false
  | c :: rest => isNameStart c && rest.all isNameContinue

end BinaryStrings.Unicode
