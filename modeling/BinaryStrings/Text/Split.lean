/-!
# Splitting

The parts of a text between the occurrences of a character.
-/

namespace BinaryStrings.Text

/-- The parts between the occurrences of a character, one more than there are occurrences. -/
def splitChars (mark : Char) : List Char → List (List Char)
  | [] => [[]]
  | c :: rest =>
    if c == mark then [] :: splitChars mark rest
    else
      match splitChars mark rest with
      | [] => [[c]]
      | part :: parts => (c :: part) :: parts

/-- The parts between the occurrences of a character. -/
def split (mark : Char) (text : String) : List String :=
  (splitChars mark text.toList).map String.ofList

end BinaryStrings.Text
