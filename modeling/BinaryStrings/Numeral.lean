import BinaryStrings.Text.Quoted

/-!
# Numerals

Whole numbers in text.  A numeral may stand between blanks and have a sign; single low lines may
stand between its digits, and digits of every script count.  A *decimal* numeral may start with
zeros.  A *marked* numeral tells its base by `0x`, `0o` or `0b`, behind which one low line may
stand; without a mark it is decimal and starts with zeros only if it is zero.  Decimal numerals have
a largest number of digits.
-/

namespace BinaryStrings

/-- How a numeral tells its base. -/
inductive NumeralForm where
  | decimal
  | marked
  deriving DecidableEq, Repr

/-- Why a text is no numeral. -/
inductive NumeralError where
  | malformed (form : NumeralForm) (text : String)
  | tooManyDigits (digits : Nat)
  deriving DecidableEq, Repr

namespace Numeral

/-- Decimal numerals have at most this many digits. -/
def mostDigits : Nat := 4300

/-- Whether a number has no more digits than a decimal numeral may have. -/
def isShowable (value : Int) : Bool :=
  (Nat.toDigits 10 value.natAbs).length ≤ mostDigits

/-- Quoted texts in messages are cut to this length. -/
def quoteLength : Nat := 200

/-- Blank characters of ASCII around a numeral. -/
def isAsciiBlank (c : Char) : Bool :=
  c == ' ' || (0x09 ≤ c.toNat && c.toNat ≤ 0x0D)

/-- A text in ASCII: blanks of other scripts become spaces and digits of other scripts those of
ASCII.  The first other character ends it with a mark that no numeral has. -/
def inAscii : List Char → List Char
  | [] => []
  | c :: rest =>
    if c.toNat < 0x7F then c :: inAscii rest
    else if Unicode.isBlank c then ' ' :: inAscii rest
    else
      match Unicode.digitValue? c with
      | some value => Char.ofNat (0x30 + value) :: inAscii rest
      | none => ['?']

/-- A text whose blanks and digits are those of ASCII; a text in ASCII stays as it is. -/
def plain (text : List Char) : List Char :=
  if text.all (·.toNat < 0x80) then text else inAscii text

/-- The value of a digit or letter as a digit. -/
def digitOf? (c : Char) : Option Nat :=
  if '0' ≤ c && c ≤ '9' then some (c.toNat - 0x30)
  else if 'a' ≤ c && c ≤ 'z' then some (c.toNat - 0x57)
  else if 'A' ≤ c && c ≤ 'Z' then some (c.toNat - 0x37)
  else none

/-- Whether a character is a digit in a base. -/
def isDigitIn (base : Nat) (c : Char) : Bool :=
  match digitOf? c with
  | some value => value < base
  | none => false

/-- Low lines stand alone and between digits: none at an end and no two together. -/
def isSpaced : List Char → Bool
  | [] => true
  | ['_'] => false
  | '_' :: '_' :: _ => false
  | _ :: rest => isSpaced rest

/-- The number that digits of a base spell. -/
def valueOf (base : Nat) (digits : List Char) : Nat :=
  digits.foldl (fun value c => value * base + (digitOf? c).getD 0) 0

/-- A sign and what is behind it. -/
def sign : List Char → Bool × List Char
  | '+' :: rest => (false, rest)
  | '-' :: rest => (true, rest)
  | text => (false, text)

/-- What is behind a mark and at most one low line after it. -/
def behindMark : List Char → List Char
  | '_' :: rest => rest
  | text => text

/-- The base of an unsigned numeral, whether it has to be zero, and its digits. -/
def base (form : NumeralForm) (text : List Char) : Nat × Bool × List Char :=
  match form, text with
  | .decimal, _ => (10, false, text)
  | .marked, '0' :: mark :: rest =>
    if mark == 'x' || mark == 'X' then (16, false, behindMark rest)
    else if mark == 'o' || mark == 'O' then (8, false, behindMark rest)
    else if mark == 'b' || mark == 'B' then (2, false, behindMark rest)
    else (10, true, text)
  | .marked, ['0'] => (10, true, text)
  | .marked, _ => (10, false, text)

/-- Whether the digits of a base are limited in number. -/
def isLimited (base : Nat) : Bool :=
  base == 10

/-- The whole number that a text spells. -/
def read (form : NumeralForm) (text : String) : Except NumeralError Int :=
  let malformed : NumeralError := .malformed form text
  let (negative, unsigned) := sign ((plain text.toList).dropWhile isAsciiBlank)
  let (radix, mustBeZero, body) := base form unsigned
  let spelled := body.takeWhile fun c => isDigitIn radix c || c == '_'
  let digits := spelled.filter (· != '_')
  if spelled.head? == some '_' || !isSpaced spelled then .error malformed
  else if isLimited radix && mostDigits < digits.length then .error (.tooManyDigits digits.length)
  else
    let size := valueOf radix digits
    if digits.isEmpty || (mustBeZero && size != 0) then .error malformed
    else if !((body.drop spelled.length).dropWhile isAsciiBlank).isEmpty then .error malformed
    else .ok (if negative then -(size : Int) else size)

end Numeral

/-- How the form of a numeral reads in a message. -/
def NumeralForm.base : NumeralForm → Nat
  | .decimal => 10
  | .marked => 0

/-- What is said about too many digits. -/
def Numeral.tooLong (digits : Nat) : String :=
  s!"Exceeds the limit ({mostDigits} digits) for integer string conversion: " ++
    s!"value has {digits} digits; use sys.set_int_max_str_digits() to increase the limit"

/-- What is said about a number with too many digits to be shown. -/
def Numeral.notShowable : String :=
  s!"Exceeds the limit ({mostDigits} digits) for integer string conversion; " ++
    "use sys.set_int_max_str_digits() to increase the limit"

/-- The wording of a numeral error. -/
def NumeralError.message : NumeralError → String
  | .malformed form text =>
    s!"invalid literal for int() with base {form.base}: " ++
      String.ofList ((Text.quotedChars text.toList).take Numeral.quoteLength)
  | .tooManyDigits digits => Numeral.tooLong digits

/-! ## Addresses -/

/-- Why a text is no address. -/
inductive AddressError where
  | numeral (error : NumeralError)
  | negative (text : String)
  deriving DecidableEq, Repr

/-- The wording of an address error. -/
def AddressError.message : AddressError → String
  | .numeral error => error.message
  | .negative text => s!"Address must be non-negative (got {text})"

/-- The address that a marked numeral spells. -/
def readAddress (text : String) : Except AddressError Nat :=
  match Numeral.read .marked text with
  | .error error => .error (.numeral error)
  | .ok value => if value < 0 then .error (.negative text) else .ok value.toNat

end BinaryStrings
