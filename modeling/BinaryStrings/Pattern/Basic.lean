import BinaryStrings.Pattern.Guard
import BinaryStrings.Pattern.Parser
import BinaryStrings.Pattern.Resolve

/-!
# Search patterns

A pattern is made from a text that is not too long, passes the guard against nested repetition, and
can be read; the names of characters are given.  It selects the texts in which it matches somewhere.
-/

namespace BinaryStrings

/-- A pattern ready to search with. -/
structure Pattern where
  matcher : Pattern.Matcher
  deriving DecidableEq, Repr

namespace Pattern

/-- Patterns have at most this many characters. -/
def mostLength : Nat := 1000

/-- Messages show this many characters of a pattern. -/
def shownLength : Nat := 80

/-- Why a text is refused as a pattern. -/
inductive Refusal where
  | tooLong (length : Nat)
  | nestedRepetition (text : String)
  | invalid (text : String) (error : Error)
  deriving DecidableEq, Repr

/-- Whether an error stands for itself and is not reported as an invalid pattern. -/
def Error.standsAlone : Error → Bool
  | .characterSetsConflict | .countTooLarge | .lookBehindNotCoded | .tooDeep => true
  | _ => false

/-- Whether a pattern is refused because it is beyond what can be read or coded, and not for a mistake
in its text. -/
def Refusal.isBeyondLimits : Refusal → Bool
  | .invalid _ .countTooLarge | .invalid _ .lookBehindNotCoded | .invalid _ .tooDeep => true
  | _ => false

/-- The wording of a refusal. -/
def Refusal.message : Refusal → String
  | .tooLong length =>
    s!"Regex pattern is too long ({length} chars). Maximum allowed length is {mostLength} characters."
  | .nestedRepetition text =>
    "Regex pattern contains nested quantifiers which can cause catastrophic backtracking (ReDoS). " ++
      "Please simplify the pattern: '" ++ String.ofList (text.toList.take shownLength) ++
      (if shownLength < text.length then "..." else "") ++ "'"
  | .invalid text error =>
    (if error.standsAlone then "" else "Invalid regex pattern: ") ++ error.message text.toList

/-- The matcher of a text under some options. -/
def compile (characters : Unicode.CharacterNames) (flags : Flags) (text : String) :
    Except Error Matcher := do
  let (flags, tree) ← parse characters flags text.toList
  tree.settle flags

/-- Refuses a text that is too long, shows nested repetition, or is no pattern. -/
def check (characters : Unicode.CharacterNames) (text : String) : Except Refusal Unit :=
  if mostLength < text.length then .error (.tooLong text.length)
  else if hasNestedRepetition text.toList then .error (.nestedRepetition text)
  else
    match compile characters .none text with
    | .error error => .error (.invalid text error)
    | .ok _ => .ok ()

/-- The pattern of a text. -/
def ofText (characters : Unicode.CharacterNames) (caseSensitive : Bool) (text : String) :
    Except Refusal Pattern := do
  check characters text
  match compile characters { Flags.none with ignoreCase := !caseSensitive } text with
  | .error error => throw (.invalid text error)
  | .ok matcher => return ⟨matcher⟩

/-- Whether a pattern matches somewhere in a text. -/
def matchesIn (pattern : Pattern) (text : String) : Bool :=
  pattern.matcher.matchesIn text.toList

end Pattern

end BinaryStrings
