import BinaryStrings.CommandLine.Flag
import BinaryStrings.Unicode.Numeric

/-!
# Words of a command line

A word names a flag, in full, shortened to a start that only one long name has, or as one letter,
or it is a value.  A flag may have its value attached: behind an equals sign, or right behind a
letter.  Behind a word of two dashes alone all words are values.
-/

namespace BinaryStrings.CommandLine

/-- A value attached to a flag. -/
structure Attached where
  text : List Char
  /-- It stands behind an equals sign. -/
  byEquals : Bool
  deriving DecidableEq, Repr

/-- A flag as a word names it. -/
structure FlagUse where
  flag : Flag
  /-- The flag is named by one letter. -/
  byLetter : Bool
  attached : Option Attached
  deriving DecidableEq, Repr

/-- What a word is. -/
inductive Word where
  | use (use : FlagUse)
  | unknownFlag
  | value
  /-- Two dashes alone. -/
  | mark
  deriving DecidableEq, Repr

/-- Why a word is not understood: it is a start of several names. -/
structure Ambiguity where
  word : String
  names : List String
  deriving DecidableEq, Repr

namespace Word

/-- Whether a word starts with one dash only. -/
def isLetterForm : List Char → Bool
  | '-' :: '-' :: _ => false
  | _ => true

/-- The digits of a number and what is left. -/
def digits (text : List Char) : List Char × List Char :=
  text.span fun c => (Unicode.digitValue? c).isSome

/-- Whether a text ends here, or with one line feed. -/
def isEnd (text : List Char) : Bool :=
  text.isEmpty || text == ['\n']

/-- Whether a word looks like a negative number. -/
def isNegativeNumber : List Char → Bool
  | '-' :: unsigned =>
    let (whole, rest) := digits unsigned
    if isEnd rest then !whole.isEmpty
    else
      match rest with
      | '.' :: rest =>
        let (fraction, rest) := digits rest
        !fraction.isEmpty && isEnd rest
      | _ => false
  | _ => false

/-- A text up to its first equals sign and what stands behind that. -/
def splitEquals (text : List Char) : List Char × Option (List Char) :=
  let (front, rest) := text.span (· != '=')
  match rest with
  | [] => (front, none)
  | _ :: behind => (front, some behind)

/-- The use of a flag under a name. -/
def useOf (flag : Flag) (name : String) (attached : Option Attached) : FlagUse :=
  ⟨flag, isLetterForm name.toList, attached⟩

/-- The flags that a word of two dashes may mean: those with a name that starts like it. -/
def longUses (text : List Char) : List (String × FlagUse) :=
  let (front, behind) := splitEquals text
  Flag.named.filterMap fun (name, flag) =>
    if front.isPrefixOf name.toList then
      some (name, useOf flag name (behind.map fun behind => ⟨behind, true⟩))
    else none

/-- The flags that a word of one dash may mean: the one of its letter, with the rest as value. -/
def letterUses (text : List Char) : List (String × FlagUse) :=
  Flag.named.filterMap fun (name, flag) =>
    if name.toList == text.take 2 then some (name, useOf flag name (some ⟨text.drop 2, false⟩))
    else if text.isPrefixOf name.toList then some (name, useOf flag name none)
    else none

/-- A word that starts with a dash but names no flag: a number or a text with a space is a value. -/
def unnamed (text : List Char) : Word :=
  if isNegativeNumber text || text.contains ' ' then value else unknownFlag

/-- The flag that a word names in full, with or without a value behind an equals sign. -/
def exactUse? (text : List Char) : Option FlagUse :=
  let word := String.ofList text
  match Flag.ofName? word with
  | some flag => some (useOf flag word none)
  | none =>
    match splitEquals text with
    | (front, some behind) =>
      let name := String.ofList front
      (Flag.ofName? name).map fun flag => useOf flag name (some ⟨behind, true⟩)
    | (_, none) => none

/-- What a word is that stands before any mark. -/
def read (word : String) : Except Ambiguity Word :=
  let text := word.toList
  match text with
  | '-' :: _ :: _ =>
    match exactUse? text with
    | some found => .ok (use found)
    | none =>
      match if isLetterForm text then letterUses text else longUses text with
      | [] => .ok (unnamed text)
      | [(_, found)] => .ok (use found)
      | several => .error ⟨word, several.map (·.1)⟩
  | _ => .ok value

/-- What the words of a command line are. -/
def readAll : List String → Except Ambiguity (List (Word × String))
  | [] => .ok []
  | word :: rest =>
    if word == "--" then .ok ((mark, word) :: rest.map fun word => (value, word))
    else
      match read word with
      | .error ambiguity => .error ambiguity
      | .ok found =>
        match readAll rest with
        | .error ambiguity => .error ambiguity
        | .ok others => .ok ((found, word) :: others)

end Word

end BinaryStrings.CommandLine
