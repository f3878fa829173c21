import BinaryStrings.Extraction.Region
import BinaryStrings.Label
import BinaryStrings.Raised

/-!
# Sources of sections

A source answers for every label with the contents of a section or with the reason why there are
none.  A section that is missing, empty or unreadable is *unavailable* and contributes nothing to an
extraction; any other failure ends it.
-/

namespace BinaryStrings

/-- Why a section is not available. -/
inductive Unavailable where
  | notPresent (label : String)
  | presentButEmpty (label : String)
  /-- Executables of this format have no such section. -/
  | unknownToFormat (format label : String)
  | noSuchSection (label path : String)
  /-- The section of this name has no bytes. -/
  | empty (name : String)
  /-- The section of this name takes no room in the file. -/
  | noContents (name : String)
  | unreadable (name reason : String)
  | onlyCode
  | emptyBlob
  | other (reason : String)
  deriving DecidableEq, Repr

/-- The wording of a reason. -/
def Unavailable.message : Unavailable → String
  | .notPresent label => s!"Section {label} not present"
  | .presentButEmpty label => s!"Section {label} is empty"
  | .unknownToFormat format label => s!"{format} binaries have no section for {label}"
  | .noSuchSection label path => s!"No {label} section in {path}"
  | .empty name => s!"{name} is empty"
  | .noContents name => s!"{name} has no file contents (SHT_NOBITS)"
  | .unreadable name reason => s!"Failed to read {name}: {reason}"
  | .onlyCode => s!"Raw blobs only provide {Label.code}"
  | .emptyBlob => "Raw blob is empty"
  | .other reason => reason

/-- Why a source gives no section. -/
inductive SectionFault where
  | unavailable (reason : Unavailable)
  | failure (raised : Raised)
  deriving DecidableEq, Repr

/-- What a source gives for a label. -/
abbrev SectionResult := Except SectionFault Region

/-- A source of sections: the name of its format, notes for the reader if the format makes any, and
its sections by label. -/
structure Source where
  format : String
  warnings : Option (List String)
  sectionAt : String → SectionResult

/-- A source of given regions by label; an empty one is not available. -/
def Source.ofRegions (regions : List (String × Region)) : Source where
  format := "memory"
  warnings := none
  sectionAt label :=
    match regions.lookup label with
    | none => .error (.unavailable (.notPresent label))
    | some region =>
      if region.data.isEmpty then .error (.unavailable (.presentButEmpty label)) else .ok region

end BinaryStrings
