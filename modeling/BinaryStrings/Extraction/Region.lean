import BinaryStrings.Likely
import BinaryStrings.Report

/-!
# Section contents

The bytes of a section and the address they are loaded at.
-/

namespace BinaryStrings

/-- The contents of a section and its load address. -/
structure Region where
  base : Int
  data : Bytes
  deriving DecidableEq, Repr

/-- The likely texts of a section as entries at absolute addresses. -/
def Region.entries (region : Region) (label : String) (minLength : Int) : List Entry :=
  (Likely.runsOf region.data minLength).map fun run =>
    ⟨run.text, region.base + run.offset, label⟩

end BinaryStrings
