/-!
# Occurrence in a sequence

Whether one list occurs inside another without a gap: for markers in a file and for words in a
text.
-/

namespace BinaryStrings

/-- Whether `part` occurs in the second list without a gap. -/
def occursIn {α : Type} [BEq α] (part : List α) : List α → Bool
  | [] => part.isEmpty
  | x :: rest => part.isPrefixOf (x :: rest) || occursIn part rest

end BinaryStrings
