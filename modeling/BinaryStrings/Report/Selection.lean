import BinaryStrings.Pattern.Basic
import BinaryStrings.Report

/-!
# Selecting from a report

A selection keeps the entries of some sections whose value a pattern matches, and of these a first
part.  An empty pattern and an empty list of sections restrict nothing.
-/

namespace BinaryStrings

/-- What to select. -/
structure Selection where
  pattern : Option String
  labels : List String
  limit : Option Int
  caseSensitive : Bool
  deriving DecidableEq, Repr

namespace Selection

/-- Everything. -/
def all : Selection := ⟨none, [], none, false⟩

/-- Why a selection is refused. -/
inductive Error where
  | limit
  | pattern (refusal : Pattern.Refusal)
  deriving DecidableEq, Repr

/-- The wording of an error. -/
def Error.message : Error → String
  | .limit => "The 'limit' parameter must be a positive integer."
  | .pattern refusal => refusal.message

/-- The limit of a selection as a number of entries. -/
def checkedLimit (selection : Selection) : Except Error (Option Nat) :=
  match selection.limit with
  | none => .ok none
  | some n => if n < 1 then .error .limit else .ok (some n.toNat)

/-- The test on values of a selection. -/
def valueTest (characters : Unicode.CharacterNames) (selection : Selection) :
    Except Error (String → Bool) :=
  match selection.pattern with
  | none => .ok fun _ => true
  | some text =>
    if text.isEmpty then .ok fun _ => true
    else
      match Pattern.ofText characters selection.caseSensitive text with
      | .error refusal => .error (.pattern refusal)
      | .ok pattern => .ok pattern.matchesIn

end Selection

/-- The part of a report that a selection keeps. -/
def Report.select (report : Report) (characters : Unicode.CharacterNames) (selection : Selection) :
    Except Selection.Error Report := do
  let limit ← selection.checkedLimit
  let test ← selection.valueTest characters
  return ((report.inSections selection.labels).withValue test).first limit

end BinaryStrings
