import BinaryStrings.Unicode.Class

/-!
# Trimming

A text without the blank characters at its ends.
-/

namespace BinaryStrings.Text

/-- A text without the blank characters at its ends. -/
def trim (text : List Char) : List Char :=
  (((text.dropWhile Unicode.isBlank).reverse).dropWhile Unicode.isBlank).reverse

end BinaryStrings.Text
