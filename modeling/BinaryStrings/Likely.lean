import BinaryStrings.Scan
import BinaryStrings.Sequence
import BinaryStrings.Text.Trim
import BinaryStrings.Unicode.Case

/-!
# Likely text

Most runs in a binary are noise.  A run is taken for text unless it is padding, has too few
characters that prose is made of, or looks like disassembly or a hex dump.  The two proportions are
compared as whole percentages, rounded down.
-/

namespace BinaryStrings.Likely

/-- Punctuation that counts like letters, digits and the plain space. -/
def commonPunctuation : List Char :=
  ".,:;!?'\"()[]\x7b\x7d-_/\\+=*&|<>@#$%^~`".toList

/-- Instruction names that give disassembly away. -/
def mnemonics : List (List Char) :=
  ["mov", "jmp", "call", "ret", "lea", "add", "sub", "xor", "push", "pop", "cmp", "test"].map
    String.toList

/-- The characters of a lower-case hex dump. -/
def hexCharacters : List Char :=
  "0123456789abcdefx".toList

/-- A text needs at least this percentage of good characters. -/
def leastGoodPercent : Nat := 70

/-- A text is a hex dump above this percentage of hex characters. -/
def mostHexPercent : Nat := 80

/-- Padding: three or more copies of one character. -/
def isRepeated : List Char → Bool
  | [] => false
  | c :: rest => 2 ≤ rest.length && rest.all (· == c)

/-- Characters that prose is made of. -/
def isGood (c : Char) : Bool :=
  c == ' ' || commonPunctuation.contains c || Unicode.isLetter c || Unicode.isDecimalDigit c

/-- How many percent of a text satisfy a test, rounded down; none of an empty text. -/
def percentOf (test : Char → Bool) (text : List Char) : Nat :=
  text.countP test * 100 / text.length

/-- A lower-case text that starts with a mnemonic or has one with a space behind it. -/
def hasMnemonic (lower : List Char) : Bool :=
  mnemonics.any fun name => name.isPrefixOf lower || occursIn (name ++ [' ']) lower

/-- Disassembly or a hex dump: a mnemonic, or mostly hex characters. -/
def looksLikeAssembly (text : List Char) : Bool :=
  let lower := Unicode.lowercase text
  hasMnemonic lower ||
    (!lower.isEmpty && mostHexPercent < percentOf hexCharacters.contains lower)

/-- Whether a run reads like text.  Blank ends are left out of the decision only. -/
def isLikely (text : List Char) : Bool :=
  let trimmed := Text.trim text
  !trimmed.isEmpty && !isRepeated trimmed && leastGoodPercent ≤ percentOf isGood trimmed &&
    !looksLikeAssembly trimmed

/-- The likely texts of a buffer: its ASCII runs, then its UTF-8 runs. -/
def runsOf (data : Bytes) (minLength : Int) : List Run :=
  (Scan.ascii data minLength ++ Scan.utf8 data minLength).filter (isLikely ·.text.toList)

end BinaryStrings.Likely
