/-!
# Section labels

Executables of every format are asked for the same three sections: code, constant data, and data
that is constant after relocation.  A label names a section whatever a format calls it.
-/

namespace BinaryStrings.Label

/-- Code. -/
def code : String := ".text"

/-- Constant data. -/
def constants : String := ".rodata"

/-- Data that is constant after relocation. -/
def relocated : String := ".data.rel.ro"

/-- The labels in the order in which sections are scanned. -/
def declared : List String := [code, constants, relocated]

end BinaryStrings.Label
