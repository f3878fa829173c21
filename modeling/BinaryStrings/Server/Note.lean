/-!
# Notes to a client

While a call is answered, the server sends the client notes about its progress and about trouble.
-/

namespace BinaryStrings.Server

/-- What a note is about. -/
inductive NoteKind where
  | info
  | warning
  | error
  deriving DecidableEq, Repr

/-- The name of a kind of note. -/
def NoteKind.name : NoteKind → String
  | .info => "info"
  | .warning => "warning"
  | .error => "error"

/-- A note to a client. -/
structure Note where
  kind : NoteKind
  message : String
  deriving DecidableEq, Repr

end BinaryStrings.Server
