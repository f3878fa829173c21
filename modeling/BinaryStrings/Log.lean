/-!
# Log lines

Messages of the program about its work, each with a level.  A listener hears the lines from some
level on.
-/

namespace BinaryStrings

namespace Log

/-- How much a message matters. -/
inductive Level where
  | debug
  | info
  | warning
  | error
  | critical
  deriving DecidableEq, Repr

namespace Level

/-- The levels in ascending order. -/
def rank : Level → Nat
  | debug => 10
  | info => 20
  | warning => 30
  | error => 40
  | critical => 50

/-- The name of a level. -/
def name : Level → String
  | debug => "DEBUG"
  | info => "INFO"
  | warning => "WARNING"
  | error => "ERROR"
  | critical => "CRITICAL"

/-- The name of a level in small letters. -/
def smallName : Level → String
  | debug => "debug"
  | info => "info"
  | warning => "warning"
  | error => "error"
  | critical => "critical"

end Level

/-- A message with its level. -/
structure Line where
  level : Level
  message : String
  deriving DecidableEq, Repr

/-- A line as it is shown. -/
def Line.text (line : Line) : String :=
  line.level.name ++ ": " ++ line.message

/-- The lines from a level on. -/
def atLeast (least : Level) (lines : List Line) : List Line :=
  lines.filter fun line => least.rank ≤ line.level.rank

/-- A debug line. -/
def debug (message : String) : Line := ⟨.debug, message⟩

/-- An information line. -/
def info (message : String) : Line := ⟨.info, message⟩

/-- A warning line. -/
def warning (message : String) : Line := ⟨.warning, message⟩

/-- An error line. -/
def error (message : String) : Line := ⟨.error, message⟩

/-- A critical line. -/
def critical (message : String) : Line := ⟨.critical, message⟩

end Log

end BinaryStrings
