import BinaryStrings.Server.Note

/-!
# The stand-in for a server

Where no server library is installed, a stand-in takes its place: it takes tools and leaves them as
they are, and instead of running or sending notes it prints a line.
-/

namespace BinaryStrings.Server

/-- A stand-in for a server. -/
structure StandIn where
  name : String
  deriving DecidableEq, Repr

namespace StandIn

/-- A tool that the stand-in takes, unchanged. -/
def register {α : Type} (_ : StandIn) (tool : α) : α := tool

/-- The line printed instead of serving over a transport. -/
def runLine (standIn : StandIn) (transport : String) : String :=
  s!"MockMCP '{standIn.name}' run method called with transport='{transport}'."

/-- The line printed instead of a note. -/
def noteLine (note : Note) : String :=
  s!"(mock ctx {note.kind.name}): {note.message}"

end StandIn

end BinaryStrings.Server
