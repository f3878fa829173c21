import BinaryStrings.Unicode.Class

/-!
# The guard against nested repetition

A textual check that keeps out patterns whose matching time can explode: a group with a quantifier
inside that is itself repeated.  It looks at the text up to the first closing parenthesis behind an
opening one, without regard to escapes, classes or inner groups.
-/

namespace BinaryStrings.Pattern

/-- Signs of a quantifier inside a group. -/
def isInnerQuantifier (c : Char) : Bool :=
  c == '+' || c == '*' || c == '}' || c == '?'

/-- Signs of a quantifier behind a group. -/
def isOuterQuantifier (c : Char) : Bool :=
  c == '+' || c == '*' || c == '{'

/-- Whether the text behind an opening parenthesis shows nested repetition. -/
def repeatsInside (text : List Char) : Bool :=
  (text.takeWhile (· != ')')).any isInnerQuantifier &&
    match text.dropWhile (· != ')') with
    | [] => false
    | _ :: behind =>
      match behind.dropWhile Unicode.isBlank with
      | [] => false
      | c :: _ => isOuterQuantifier c

/-- Whether a text shows nested repetition somewhere. -/
def hasNestedRepetition : List Char → Bool
  | [] => false
  | c :: rest => (c == '(' && repeatsInside rest) || hasNestedRepetition rest

end BinaryStrings.Pattern
