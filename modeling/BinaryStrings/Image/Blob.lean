import BinaryStrings.Extraction.Source

/-!
# Raw blobs

A file without headers is taken as code from a given address on.
-/

namespace BinaryStrings.Blob

/-- The name of the format. -/
def formatName : String := "raw"

/-- The note for readers of a report on a blob. -/
def notice : String :=
  "Loaded in Raw Blob Mode (executable format parsing skipped)."

/-- A blob as a source of sections: all of it is code. -/
def source (base : Int) (data : Bytes) : Source where
  format := formatName
  warnings := some [notice]
  sectionAt label :=
    if label != Label.code then .error (.unavailable .onlyCode)
    else if data.isEmpty then .error (.unavailable .emptyBlob)
    else .ok ⟨base, data⟩

end BinaryStrings.Blob
