import BinaryStrings.Unicode.CaseMap

/-!
# Lower and upper case

The case forms of single code points, and the lower-case form of a text.
-/

namespace BinaryStrings.Unicode

/-- The place that `point` goes to in a table of case runs; itself when no run holds it. -/
def throughRuns (runs : Array CaseRun) (point : Nat) : Nat :=
  match runs.find? (fun (first, last, stride, _) =>
      first ≤ point && point ≤ last && (point - first) % stride == 0) with
  | some (first, _, _, target) => target + (point - first)
  | none => point

/-- The code points that a table of case runs takes to `point`. -/
def backThroughRuns (runs : Array CaseRun) (point : Nat) : List Nat :=
  runs.toList.filterMap fun (first, last, stride, target) =>
    if target ≤ point && point - target ≤ last - first && (point - target) % stride == 0 then
      some (first + (point - target))
    else none

/-- The lower-case form of a code point. -/
def lowerPoint (point : Nat) : Nat :=
  if point < 0x80 then
    if 0x41 ≤ point && point ≤ 0x5A then point + 0x20 else point
  else throughRuns lowerRuns point

/-- The upper-case form of a code point. -/
def upperPoint (point : Nat) : Nat :=
  if point < 0x80 then
    if 0x61 ≤ point && point ≤ 0x7A then point - 0x20 else point
  else throughRuns upperRuns point

/-- The lower-case form of an ASCII letter; everything else stays. -/
def lowerAsciiPoint (point : Nat) : Nat :=
  if 0x41 ≤ point && point ≤ 0x5A then point + 0x20 else point

/-- The code points whose lower-case form is `point`. -/
def loweredFrom (point : Nat) : List Nat :=
  let others := backThroughRuns lowerRuns point
  if lowerPoint point == point then point :: others else others

/-- The other lower-case code points with the same upper case as `point`. -/
def twins (point : Nat) : List Nat :=
  match caseTwins.find? (·.contains point) with
  | some group => group.filter (· != point)
  | none => []

/-- The lower-case form of a text.  Dotted capital I becomes two code points.  A capital sigma becomes the
same letter wherever it stands: its other form, at the end of a word, is left out, since of lower-case
texts only the length and the letters and digits of ASCII matter. -/
def lowercase (text : List Char) : List Char :=
  text.flatMap fun c =>
    if c.toNat == 0x130 then ['i', Char.ofNat 0x307] else [Char.ofNat (lowerPoint c.toNat)]

end BinaryStrings.Unicode
