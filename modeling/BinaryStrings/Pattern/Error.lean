import BinaryStrings.Pattern.Tree
import BinaryStrings.Text.Quoted

/-!
# Pattern errors

What can be wrong with the text of a pattern, and how it reads.  Most mistakes have a place in the
text; with line feeds in the text the place is also given by line and column.
-/

namespace BinaryStrings.Pattern

/-- A mistake at a place in a pattern. -/
inductive Mistake where
  | unfinishedEscape
  | badEscape (escape : String)
  | incompleteEscape (escape : String)
  | octalTooLarge (escape : String)
  | noBrace
  | noName (what : String)
  | unfinishedName (closing : String)
  | unknownCharacter (name : String)
  | unfinishedClass
  | badRange (first last : String)
  | nothingToRepeat
  | repeatedTwice
  | countsReversed
  | unexpectedEnd
  | unknownExtension (text : String)
  | badGroupName (name : String)
  | groupRedefined (name : String) (index known : Nat)
  | unknownGroup (name : String)
  | noSuchGroup (index : Nat)
  | groupZero
  | groupOpen
  | groupOfSameLookBehind
  | unfinishedComment
  | unfinishedGroup
  | tooManyBranches
  | flagsNotAtStart
  | localeFlag
  | incompatibleFlags
  | unknownFlag
  | noFlagsEnd
  | noFlag
  | noColon
  | templateTurnedOn
  | charactersTurnedOff
  | templateTurnedOff
  | onAndOff
  | unbalanced
  deriving DecidableEq, Repr

/-- The wording of a mistake. -/
def Mistake.message : Mistake → String
  | .unfinishedEscape => "bad escape (end of pattern)"
  | .badEscape escape => "bad escape " ++ escape
  | .incompleteEscape escape => "incomplete escape " ++ escape
  | .octalTooLarge escape => "octal escape value " ++ escape ++ " outside of range 0-0o377"
  | .noBrace => "missing \x7b"
  | .noName what => "missing " ++ what
  | .unfinishedName closing => "missing " ++ closing ++ ", unterminated name"
  | .unknownCharacter name => "undefined character name " ++ Text.quoted name
  | .unfinishedClass => "unterminated character set"
  | .badRange first last => "bad character range " ++ first ++ "-" ++ last
  | .nothingToRepeat => "nothing to repeat"
  | .repeatedTwice => "multiple repeat"
  | .countsReversed => "min repeat greater than max repeat"
  | .unexpectedEnd => "unexpected end of pattern"
  | .unknownExtension text => "unknown extension ?" ++ text
  | .badGroupName name => "bad character in group name " ++ Text.quoted name
  | .groupRedefined name index known =>
    "redefinition of group name " ++ Text.quoted name ++ " as group " ++ toString index ++
      "; was group " ++ toString known
  | .unknownGroup name => "unknown group name " ++ Text.quoted name
  | .noSuchGroup index => "invalid group reference " ++ toString index
  | .groupZero => "bad group number"
  | .groupOpen => "cannot refer to an open group"
  | .groupOfSameLookBehind =>
    "cannot refer to group defined in the same lookbehind subpattern"
  | .unfinishedComment => "missing ), unterminated comment"
  | .unfinishedGroup => "missing ), unterminated subpattern"
  | .tooManyBranches => "conditional backref with more than two branches"
  | .flagsNotAtStart => "global flags not at the start of the expression"
  | .localeFlag => "bad inline flags: cannot use 'L' flag with a str pattern"
  | .incompatibleFlags => "bad inline flags: flags 'a', 'u' and 'L' are incompatible"
  | .unknownFlag => "unknown flag"
  | .noFlagsEnd => "missing -, : or )"
  | .noFlag => "missing flag"
  | .noColon => "missing :"
  | .templateTurnedOn => "bad inline flags: cannot turn on global flag"
  | .charactersTurnedOff => "bad inline flags: cannot turn off flags 'a', 'u' and 'L'"
  | .templateTurnedOff => "bad inline flags: cannot turn off global flag"
  | .onAndOff => "bad inline flags: flag turned on and off"
  | .unbalanced => "unbalanced parenthesis"

/-- Why a text is no pattern. -/
inductive Error where
  | mistake (kind : Mistake) (position : Nat)
  /-- Look-behind over a text of no fixed length. -/
  | lookBehindVaries
  /-- Look-behind over a text longer than the engine counts. -/
  | lookBehindTooLong
  /-- Look-behind that the engine counts but cannot carry out. -/
  | lookBehindNotCoded
  /-- A repetition in template mode. -/
  | repeatInTemplate (greed : Greed)
  /-- Both character sets turned on for the whole pattern. -/
  | characterSetsConflict
  | countTooLarge
  /-- Groups within groups that are too many for the reader. -/
  | tooDeep
  deriving DecidableEq, Repr

/-- The name of a repetition in template mode. -/
def Greed.label : Greed → String
  | .greedy => "MAX_REPEAT"
  | .lazy => "MIN_REPEAT"
  | .possessive => "POSSESSIVE_REPEAT"

/-- Where a position is in a text of several lines, counted from one; nothing to add for one
line. -/
def placeInLines (text : List Char) (position : Nat) : String :=
  if text.contains '\n' then
    let before := text.take position
    let line := before.count '\n' + 1
    let column := (before.reverse.takeWhile (· != '\n')).length + 1
    s!" (line {line}, column {column})"
  else ""

/-- The wording of an error in the pattern `text`. -/
def Error.message (text : List Char) : Error → String
  | .mistake kind position =>
    kind.message ++ s!" at position {position}" ++ placeInLines text position
  | .lookBehindVaries => "look-behind requires fixed-width pattern"
  | .lookBehindTooLong => "looks too much behind"
  | .lookBehindNotCoded => "invalid SRE code"
  | .repeatInTemplate greed => "internal: unsupported template operator " ++ greed.label
  | .characterSetsConflict => "ASCII and UNICODE flags are incompatible"
  | .countTooLarge => "the repetition number is too large"
  | .tooDeep => "maximum recursion depth exceeded"

end BinaryStrings.Pattern
