import BinaryStrings.Json.Basic
import BinaryStrings.Numeral

/-!
# Reading JSON text

A reader for one JSON value with blanks around it.  Beyond the standard it takes the names of the
numbers that are not finite.  Of several members with one name the last value counts, at the place
of the first.  Every mistake has a place: line, column and position of the character that cannot
stand where it does.  While reading, a place is known by the number of characters left.
-/

namespace BinaryStrings.Json

/-- What a JSON text can have wrong at some place. -/
inductive Mistake where
  | noValue
  | noName
  | noColon
  | noComma
  | extraData
  | controlCharacter
  | unterminated
  | badEscape
  | badUnicodeEscape
  | byteOrderMark
  deriving DecidableEq, Repr

/-- The wording of a mistake. -/
def Mistake.message : Mistake → String
  | .noValue => "Expecting value"
  | .noName => "Expecting property name enclosed in double quotes"
  | .noColon => "Expecting ':' delimiter"
  | .noComma => "Expecting ',' delimiter"
  | .extraData => "Extra data"
  | .controlCharacter => "Invalid control character at"
  | .unterminated => "Unterminated string starting at"
  | .badEscape => "Invalid \\escape"
  | .badUnicodeEscape => "Invalid \\uXXXX escape"
  | .byteOrderMark => "Unexpected UTF-8 BOM (decode using utf-8-sig)"

/-- Why a value cannot be read: a mistake with so many characters left, nesting beyond the limit,
or a whole number with too many digits. -/
inductive Trouble where
  | mistake (kind : Mistake) (left : Nat)
  | tooDeep (container : String)
  | tooManyDigits (digits : Nat)
  deriving DecidableEq, Repr

/-- Lists and objects are nested at most this deep. -/
def deepest : Nat := 980

/-- The mistake at the start of what is left. -/
def mistakeAt (kind : Mistake) (left : List Char) : Trouble :=
  .mistake kind left.length

/-- Blanks between the parts of a JSON text. -/
def isSpace (c : Char) : Bool :=
  c == ' ' || c == '\t' || c == '\n' || c == '\r'

/-- What is left behind the blanks. -/
def skipSpace (text : List Char) : List Char :=
  text.dropWhile isSpace

/-! ## Strings -/

/-- The value of a hexadecimal digit. -/
def hexValue? (c : Char) : Option Nat :=
  if '0' ≤ c && c ≤ '9' then some (c.toNat - 0x30)
  else if 'a' ≤ c && c ≤ 'f' then some (c.toNat - 0x57)
  else if 'A' ≤ c && c ≤ 'F' then some (c.toNat - 0x37)
  else none

/-- The number that four hexadecimal digits spell and what is left; another character has to follow
them. -/
def fourDigits? : List Char → Option (Nat × List Char)
  | a :: b :: c :: d :: e :: rest =>
    match hexValue? a, hexValue? b, hexValue? c, hexValue? d with
    | some a, some b, some c, some d => some (((a * 16 + b) * 16 + c) * 16 + d, e :: rest)
    | _, _, _, _ => none
  | _ => none

/-- The character of a one-letter escape. -/
def escaped? (c : Char) : Option Char :=
  match c with
  | '"' => some '"'
  | '\\' => some '\\'
  | '/' => some '/'
  | 'b' => some (Char.ofNat 8)
  | 'f' => some (Char.ofNat 12)
  | 'n' => some '\n'
  | 'r' => some '\r'
  | 't' => some '\t'
  | _ => none

/-- A code point that is no half of a surrogate pair; a half is replaced. -/
def wholeChar (n : Nat) : Char :=
  if n.isValidChar then Char.ofNat n else Char.ofNat 0xFFFD

/-- Reads a string from behind its opening quote.  `left` is the number of characters from that
quote on and `read` what has been read, latest first. -/
def readString (left : Nat) : (fuel : Nat) → (read : List Char) → List Char →
    Except Trouble (String × List Char)
  | 0, _, _ => .error (.mistake .unterminated left)
  | fuel + 1, read, text =>
    match text with
    | [] => .error (.mistake .unterminated left)
    | '"' :: rest => .ok (String.ofList read.reverse, rest)
    | '\\' :: 'u' :: rest =>
      match fourDigits? rest with
      | none => .error (.mistake .badUnicodeEscape (rest.length + 1))
      | some (high, '\\' :: 'u' :: more) =>
        if 0xD800 ≤ high && high < 0xDC00 && 4 < more.length then
          match fourDigits? more with
          | none => .error (.mistake .badUnicodeEscape (more.length + 1))
          | some (low, more') =>
            if 0xDC00 ≤ low && low < 0xE000 then
              let point := 0x10000 + (high - 0xD800) * 0x400 + (low - 0xDC00)
              readString left fuel (Char.ofNat point :: read) more'
            else readString left fuel (wholeChar high :: read) ('\\' :: 'u' :: more)
        else readString left fuel (wholeChar high :: read) ('\\' :: 'u' :: more)
      | some (n, rest) => readString left fuel (wholeChar n :: read) rest
    | ['\\'] => .error (.mistake .unterminated left)
    | '\\' :: c :: rest =>
      match escaped? c with
      | some c => readString left fuel (c :: read) rest
      | none => .error (.mistake .badEscape (rest.length + 2))
    | c :: rest =>
      if c.toNat < 0x20 then .error (.mistake .controlCharacter (rest.length + 1))
      else readString left fuel (c :: read) rest

/-! ## Numbers -/

/-- The number that decimal digits spell. -/
def digitsValue (digits : List Char) : Nat :=
  digits.foldl (fun value c => value * 10 + (c.toNat - 0x30)) 0

/-- The digits of a whole part: a single zero, or digits that start with another one. -/
def wholePart? (text : List Char) : Option (List Char × List Char) :=
  match text with
  | '0' :: rest => some (['0'], rest)
  | c :: _ => if c.isDigit then some (text.takeWhile Char.isDigit, text.dropWhile Char.isDigit) else none
  | [] => none

/-- The digits of a fraction and what is left; no fraction without a digit behind the point. -/
def fractionPart (text : List Char) : List Char × List Char :=
  match text with
  | '.' :: rest =>
    let digits := rest.takeWhile Char.isDigit
    if digits.isEmpty then ([], text) else (digits, rest.dropWhile Char.isDigit)
  | _ => ([], text)

/-- An exponent and what is left; no exponent without a digit. -/
def exponentPart (text : List Char) : Option Int × List Char :=
  match text with
  | e :: rest =>
    if e == 'e' || e == 'E' then
      let (negative, unsigned) :=
        match rest with
        | '-' :: more => (true, more)
        | '+' :: more => (false, more)
        | _ => (false, rest)
      let digits := unsigned.takeWhile Char.isDigit
      if digits.isEmpty then (none, text)
      else
        let size : Int := digitsValue digits
        (some (if negative then -size else size), unsigned.dropWhile Char.isDigit)
    else (none, text)
  | [] => (none, text)

/-- Reads a number: whole, or binary64 when it has a fraction or an exponent. -/
def readNumber (text : List Char) : Except Trouble (Json × List Char) :=
  let (negative, unsigned) :=
    match text with
    | '-' :: rest => (true, rest)
    | _ => (false, text)
  match wholePart? unsigned with
  | none => .error (mistakeAt .noValue text)
  | some (whole, rest) =>
    let (fraction, rest) := fractionPart rest
    let (exponent, rest) := exponentPart rest
    if fraction.isEmpty && exponent.isNone then
      if Numeral.mostDigits < whole.length then .error (.tooManyDigits whole.length)
      else
        let size : Int := digitsValue whole
        .ok (.int (if negative then -size else size), rest)
    else
      let power := exponent.getD 0 - fraction.length
      .ok (.float (Binary64.ofDecimal negative (digitsValue (whole ++ fraction)) power), rest)

/-! ## Values -/

/-- The fixed names of values. -/
def names : List (List Char × Json) :=
  [("null".toList, .null), ("true".toList, .bool true), ("false".toList, .bool false),
    ("NaN".toList, .float .nan), ("Infinity".toList, .float (.infinite false)),
    ("-Infinity".toList, .float (.infinite true))]

/-- Reads a fixed name or a number. -/
def readPlain (text : List Char) : Except Trouble (Json × List Char) :=
  match names.find? (fun name => name.1.isPrefixOf text) with
  | some (name, value) => .ok (value, text.drop name.length)
  | none => readNumber text

mutual

/-- Reads a value at some depth. -/
def readValue : (fuel depth : Nat) → List Char → Except Trouble (Json × List Char)
  | 0, _, text => .error (mistakeAt .noValue text)
  | fuel + 1, depth, text =>
    match text with
    | '"' :: rest =>
      match readString (rest.length + 1) (rest.length + 1) [] rest with
      | .ok (value, rest) => .ok (.str value, rest)
      | .error trouble => .error trouble
    | '[' :: rest =>
      if deepest ≤ depth then .error (.tooDeep "array")
      else
        match skipSpace rest with
        | ']' :: rest => .ok (.arr [], rest)
        | rest => readItems fuel (depth + 1) [] rest
    | '{' :: rest =>
      if deepest ≤ depth then .error (.tooDeep "object")
      else
        match skipSpace rest with
        | '}' :: rest => .ok (.obj [], rest)
        | rest => readMembers fuel (depth + 1) [] rest
    | _ => readPlain text

/-- Reads the items of a list from the next one on; `read` are those before it, latest first. -/
def readItems : (fuel depth : Nat) → (read : List Json) → List Char →
    Except Trouble (Json × List Char)
  | 0, _, _, text => .error (mistakeAt .noValue text)
  | fuel + 1, depth, read, text =>
    match readValue fuel depth text with
    | .error trouble => .error trouble
    | .ok (value, rest) =>
      match skipSpace rest with
      | ']' :: rest => .ok (.arr (value :: read).reverse, rest)
      | ',' :: rest => readItems fuel depth (value :: read) (skipSpace rest)
      | rest => .error (mistakeAt .noComma rest)

/-- Reads the members of an object from the next one on, after those read already. -/
def readMembers : (fuel depth : Nat) → (read : List (String × Json)) → List Char →
    Except Trouble (Json × List Char)
  | 0, _, _, text => .error (mistakeAt .noValue text)
  | fuel + 1, depth, read, text =>
    match text with
    | '"' :: rest =>
      match readString (rest.length + 1) (rest.length + 1) [] rest with
      | .error trouble => .error trouble
      | .ok (name, rest) =>
        match skipSpace rest with
        | ':' :: rest =>
          match readValue fuel depth (skipSpace rest) with
          | .error trouble => .error trouble
          | .ok (value, rest) =>
            match skipSpace rest with
            | '}' :: rest => .ok (.obj (Members.set read name value), rest)
            | ',' :: rest => readMembers fuel depth (Members.set read name value) (skipSpace rest)
            | rest => .error (mistakeAt .noComma rest)
        | rest => .error (mistakeAt .noColon rest)
    | _ => .error (mistakeAt .noName text)

end

/-! ## Whole texts -/

/-- Why a text is not read, with the place of a mistake. -/
inductive ReadError where
  | mistake (kind : Mistake) (line column position : Nat)
  | tooDeep (container : String)
  | tooManyDigits (digits : Nat)
  deriving DecidableEq, Repr

/-- The wording of a reading error. -/
def ReadError.message : ReadError → String
  | .mistake kind line column position =>
    s!"{kind.message}: line {line} column {column} (char {position})"
  | .tooDeep container =>
    s!"maximum recursion depth exceeded while decoding a JSON {container} from a unicode string"
  | .tooManyDigits digits => Numeral.tooLong digits

/-- The line and column, counted from one, of a position in a text. -/
def lineAndColumn (text : List Char) (position : Nat) : Nat × Nat :=
  let before := text.take position
  (before.count '\n' + 1, (before.reverse.takeWhile (· != '\n')).length + 1)

/-- The error with the place of a mistake in a text. -/
def placed (text : List Char) : Trouble → ReadError
  | .mistake kind left =>
    let position := text.length - left
    let (line, column) := lineAndColumn text position
    .mistake kind line column position
  | .tooDeep container => .tooDeep container
  | .tooManyDigits digits => .tooManyDigits digits

/-- The value that a text spells, or the trouble with the number of characters left. -/
def readWhole (text : List Char) : Except Trouble Json :=
  if text.head? == some (Char.ofNat 0xFEFF) then .error (mistakeAt .byteOrderMark text)
  else
    let start := skipSpace text
    match readValue (2 * start.length + 2) 0 start with
    | .error trouble => .error trouble
    | .ok (value, rest) =>
      let rest := skipSpace rest
      if rest.isEmpty then .ok value else .error (mistakeAt .extraData rest)

/-- The value that a text spells. -/
def read (text : List Char) : Except ReadError Json :=
  (readWhole text).mapError (placed text)

end BinaryStrings.Json
