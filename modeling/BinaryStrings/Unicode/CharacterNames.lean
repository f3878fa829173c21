/-!
# Names of characters

Patterns may give a character by its name.  Which names there are is said by a database of characters
that is not part of the program: what is proved of patterns holds for any such database.  The names of
the printable characters of ASCII stand in for it where the program is run.
-/

namespace BinaryStrings.Unicode

/-- Whether a character may stand in the name of a character: letters and digits of ASCII, spaces and
hyphens. -/
def isInNames (c : Char) : Bool :=
  c.isAlphanum || c == ' ' || c == '-'

/-- A database that knows characters by their names. -/
structure CharacterNames where
  /-- The character of a name, if there is one. -/
  find? : String → Option Char
  /-- Names are made of letters and digits of ASCII, spaces and hyphens. -/
  isInNames_of_find? : ∀ {name c}, find? name = some c → ∀ d ∈ name.toList, isInNames d = true

namespace CharacterNames

/-- The names of the printable characters of ASCII that are no letters. -/
def asciiSigns : List (Char × String) := [
  (' ', "SPACE"), ('!', "EXCLAMATION MARK"), ('"', "QUOTATION MARK"), ('#', "NUMBER SIGN"),
  ('$', "DOLLAR SIGN"), ('%', "PERCENT SIGN"), ('&', "AMPERSAND"), (Char.ofNat 0x27, "APOSTROPHE"),
  ('(', "LEFT PARENTHESIS"), (')', "RIGHT PARENTHESIS"), ('*', "ASTERISK"), ('+', "PLUS SIGN"),
  (',', "COMMA"), ('-', "HYPHEN-MINUS"), ('.', "FULL STOP"), ('/', "SOLIDUS"), ('0', "DIGIT ZERO"),
  ('1', "DIGIT ONE"), ('2', "DIGIT TWO"), ('3', "DIGIT THREE"), ('4', "DIGIT FOUR"),
  ('5', "DIGIT FIVE"), ('6', "DIGIT SIX"), ('7', "DIGIT SEVEN"), ('8', "DIGIT EIGHT"),
  ('9', "DIGIT NINE"), (':', "COLON"), (';', "SEMICOLON"), ('<', "LESS-THAN SIGN"),
  ('=', "EQUALS SIGN"), ('>', "GREATER-THAN SIGN"), ('?', "QUESTION MARK"), ('@', "COMMERCIAL AT"),
  ('[', "LEFT SQUARE BRACKET"), ('\\', "REVERSE SOLIDUS"), (']', "RIGHT SQUARE BRACKET"),
  ('^', "CIRCUMFLEX ACCENT"), ('_', "LOW LINE"), (Char.ofNat 0x60, "GRAVE ACCENT"),
  ('\x7b', "LEFT CURLY BRACKET"), ('|', "VERTICAL LINE"), ('\x7d', "RIGHT CURLY BRACKET"),
  ('~', "TILDE")]

/-- The name of a letter of ASCII, or of another of its printable characters. -/
def asciiName? (c : Char) : Option String :=
  if c.isUpper then some ("LATIN CAPITAL LETTER " ++ c.toString)
  else if c.isLower then some ("LATIN SMALL LETTER " ++ c.toUpper.toString)
  else asciiSigns.lookup c

/-- The printable characters of ASCII by their names, in small or capital letters. -/
def ascii : CharacterNames where
  find? name :=
    if name.toList.all isInNames then
      ((List.range' 0x20 95).map Char.ofNat).find? (asciiName? · == some (name.map Char.toUpper))
    else none
  isInNames_of_find? := by
    intro name c h
    split at h
    · exact List.all_eq_true.1 ‹_›
    · cases h

end CharacterNames

end BinaryStrings.Unicode
