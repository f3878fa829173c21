import BinaryStrings.Report.Selection

/-!
# Selecting in one pass

The entries of a report are held in a list that others may hold too.  To select from them, one pass goes
over this list and collects what it keeps in a new list; it ends with the entry that reaches the limit.
-/

namespace BinaryStrings

/-- Whether a selection keeps an entry, by its section and by a test on its value. -/
def Selection.keeps (selection : Selection) (test : String → Bool) (entry : Entry) : Bool :=
  (selection.labels.isEmpty || selection.labels.contains entry.label) && test entry.value

/-- The lists of entries that are held, by address. -/
abbrev Held := List (List Entry)

namespace Held

/-- Whether the list at an address is as long as a limit. -/
def isFull (limit : Option Nat) (held : Held) (own : Nat) : Bool :=
  match limit with
  | none => false
  | some n => n ≤ (held.getD own []).length

/-- Goes over entries and puts those to keep behind the list at an address; ends when that list is
full. -/
def collect (keeps : Entry → Bool) (limit : Option Nat) (own : Nat) : List Entry → Held → Held
  | [], held => held
  | entry :: rest, held =>
    if keeps entry then
      let longer := held.modify own (· ++ [entry])
      if isFull limit longer own then longer else collect keeps limit own rest longer
    else collect keeps limit own rest held

/-- Selects from the list at an address: the lists that are held then, and the address of the list of
what is kept. -/
def select (characters : Unicode.CharacterNames) (selection : Selection) (held : Held) (address : Nat) :
    Except Selection.Error (Held × Nat) := do
  let limit ← selection.checkedLimit
  let test ← selection.valueTest characters
  let own := held.length
  return (collect (selection.keeps test) limit own (held.getD address []) (held ++ [[]]), own)

end Held

end BinaryStrings
