/-!
# Exceptions

What a library raises ends the work that it was called for, unless the program expects it there.  The
program expects the errors that a library has for bad data, and in one place errors of the system and of
values; which of these an exception is, the library says.
-/

namespace BinaryStrings

/-- What the program tells exceptions apart by. -/
inductive ExceptionFamily where
  /-- The library's own error for data that it does not accept. -/
  | library
  /-- An error of the operating system, or about a value. -/
  | systemOrValue
  | other
  deriving DecidableEq, Repr

/-- An exception with the name of its class and its message. -/
structure Raised where
  family : ExceptionFamily
  kind : String
  message : String
  deriving DecidableEq, Repr

end BinaryStrings
