import BinaryStrings.Log

/-!
# The report cache

The server keeps the reports of its last extractions, each under what it depends on.  A report that
is set becomes the latest; when there are too many, the oldest one goes.
-/

namespace BinaryStrings.Server

/-- What a report depends on: the real path of the file, how it was opened, and the least length. -/
structure ReportKey where
  path : String
  mode : String
  rawBase : Int
  minLength : Int
  deriving DecidableEq, Repr

/-- Values under keys, the one set last at the end. -/
structure ReportCache (α : Type) where
  entries : List (ReportKey × α)
  deriving Repr

namespace ReportCache

/-- A cache holds at most this many reports. -/
def capacity : Nat := 16

variable {α : Type}

/-- A cache without reports. -/
def empty : ReportCache α := ⟨[]⟩

/-- The keys, the one set last at the end. -/
def keys (cache : ReportCache α) : List ReportKey :=
  cache.entries.map (·.1)

/-- The number of reports. -/
def size (cache : ReportCache α) : Nat :=
  cache.entries.length

/-- The value under a key. -/
def get? (cache : ReportCache α) (key : ReportKey) : Option α :=
  cache.entries.lookup key

/-- The entries with a value set under a key, the oldest ones beyond the capacity included. -/
def overfull (cache : ReportCache α) (key : ReportKey) (value : α) : List (ReportKey × α) :=
  cache.entries.filter (·.1 != key) ++ [(key, value)]

/-- Sets the value under a key.  The oldest reports beyond the capacity go, and the log says
which. -/
def set (cache : ReportCache α) (key : ReportKey) (value : α) : List Log.Line × ReportCache α :=
  let entries := cache.overfull key value
  let surplus := entries.length - capacity
  ((entries.take surplus).map fun entry =>
      Log.debug ("Evicted cached report for " ++ entry.1.path),
    ⟨entries.drop surplus⟩)

/-- Drops every report, and says how many there were. -/
def clear (cache : ReportCache α) : Nat × ReportCache α :=
  (cache.size, empty)

end ReportCache

end BinaryStrings.Server
