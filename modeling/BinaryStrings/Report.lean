import Std.Data.TreeSet

/-!
# Reports

An *entry* is a text found in a section at an address.  A *report* is a list of entries; the one
made from findings has each text of a section once, where it was found first, by ascending address.
Reports can be narrowed to some sections, to some values and to a first part.
-/

namespace BinaryStrings

/-- A text, its address, and the label of the section that holds it. -/
structure Entry where
  value : String
  address : Int
  label : String
  deriving DecidableEq, Repr

namespace Entry

/-- What makes two findings the same entry: section and text. -/
structure Key where
  label : String
  value : String
  deriving DecidableEq, Repr

instance : Ord Key where
  compare a b := (compare a.label b.label).then (compare a.value b.value)

/-- Section and text of an entry. -/
def key (entry : Entry) : Key :=
  ⟨entry.label, entry.value⟩

end Entry

/-- A list of entries. -/
structure Report where
  entries : List Entry
  deriving DecidableEq, Repr

namespace Report

/-- The number of entries. -/
def count (report : Report) : Nat :=
  report.entries.length

/-- Of entries with one section and text keeps the first.  `seen` are the keys that have occurred
and `kept` the entries kept, latest first. -/
def firstsFrom (seen : Std.TreeSet Entry.Key) (kept : List Entry) : List Entry → List Entry
  | [] => kept.reverse
  | entry :: rest =>
    if seen.contains entry.key then firstsFrom seen kept rest
    else firstsFrom (seen.insert entry.key) (entry :: kept) rest

/-- The entries whose section and text do not occur earlier in the list. -/
def firsts (found : List Entry) : List Entry :=
  firstsFrom ∅ [] found

/-- The report of a list of findings: first occurrences by ascending address, findings at one
address in the order they were made. -/
def ofFindings (found : List Entry) : Report :=
  ⟨(firsts found).mergeSort fun a b => a.address ≤ b.address⟩

/-- Adds one to the count of a label, behind the others when it is new. -/
def countLabel (counts : List (String × Nat)) (label : String) : List (String × Nat) :=
  match counts with
  | [] => [(label, 1)]
  | (known, n) :: rest =>
    if known = label then (known, n + 1) :: rest else (known, n) :: countLabel rest label

/-- The number of entries of each section, sections in the order of their first entry. -/
def bySection (report : Report) : List (String × Nat) :=
  report.entries.foldl (fun counts entry => countLabel counts entry.label) []

/-- The number of entries of one section. -/
def countOf (report : Report) (label : String) : Nat :=
  report.entries.countP (·.label == label)

/-- The first `limit` entries, or all. -/
def first (report : Report) (limit : Option Nat) : Report :=
  match limit with
  | some n => ⟨report.entries.take n⟩
  | none => report

/-- The entries of the given sections; no label means every section. -/
def inSections (report : Report) (labels : List String) : Report :=
  if labels.isEmpty then report else ⟨report.entries.filter fun entry => labels.contains entry.label⟩

/-- The entries whose value passes a test. -/
def withValue (report : Report) (test : String → Bool) : Report :=
  ⟨report.entries.filter fun entry => test entry.value⟩

end Report

end BinaryStrings
