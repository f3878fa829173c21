import BinaryStrings.Extraction.Basic
import BinaryStrings.Image.Open
import BinaryStrings.Json.Phrase
import BinaryStrings.Numeral
import BinaryStrings.Report.Selection
import BinaryStrings.Server.Sandbox

/-!
# Arguments of calls

The arguments of a call are JSON values of any kind.  Each is checked before it is used; what a call
is refused for is one of the causes listed here.
-/

namespace BinaryStrings.Server

/-- Why a call is refused. -/
inductive CallError where
  | unknownArgument (tool name : String)
  | missingArgument (tool name : String)
  | minLength
  | mode
  /-- Labels that name no section. -/
  | labels (unknown : List Json)
  /-- Labels that are given as a value of a kind without items. -/
  | labelsNoList (kind : String)
  | limit
  | offset
  | patterns
  /-- Patterns that are given as a value of a kind without a length. -/
  | patternsNoList (kind : String)
  | address (text : String) (error : AddressError)
  | addressNoText
  | noFile
  /-- A path that is given as a value of another kind than text. -/
  | pathNoText (kind : String)
  /-- A path that has no real path. -/
  | noRealPath
  | denied (refusal : Sandbox.Refusal)
  | notFound (path : String)
  /-- The first bytes of a file cannot be read. -/
  | unreadable (path : String) (error : FileError)
  | opening (error : OpenError)
  | extraction (error : Extraction.Error)
  | selection (error : Selection.Error)
  deriving Repr

/-- The wording of a refusal. -/
def CallError.message : CallError → String
  | .unknownArgument tool name => s!"{tool}() got an unexpected keyword argument '{name}'"
  | .missingArgument tool name => s!"{tool}() missing 1 required positional argument: '{name}'"
  | .minLength => "The 'min_length' parameter must be a positive integer."
  | .mode =>
    "The 'mode' parameter must be one of: " ++ String.intercalate ", " OpenMode.names ++ "."
  | .labels unknown =>
    "Unknown section label(s) " ++ (Json.arr unknown).literal ++ ". Valid: " ++
      String.intercalate ", " Label.declared ++ "."
  | .labelsNoList kind => s!"'{kind}' object is not iterable"
  | .limit => "The 'limit' parameter must be a positive integer."
  | .offset => "The 'offset' parameter must be a non-negative integer."
  | .patterns => "The 'regex_patterns' parameter must be a non-empty list of strings."
  | .patternsNoList kind => s!"object of type '{kind}' has no len()"
  | .address text error => s!"Invalid address '{text}': {error.message}"
  | .addressNoText => "int() can't convert non-string with explicit base"
  | .noFile =>
    "No file specified and no file is pre-loaded. " ++
      "Pass 'file_path', or start the server with --input-file."
  | .pathNoText kind => s!"expected str, bytes or os.PathLike object, not {kind}"
  | .noRealPath => Path.nullMessage
  | .denied refusal => refusal.message
  | .notFound path => s!"File not found: {path}"
  | .unreadable path error => (OpenError.unreadable path error).message
  | .opening error => error.message
  | .extraction error => error.message
  | .selection error => error.message

/-- A whole number as it was given: a truth value counts as one or zero and is given back as it
came. -/
structure GivenNumber where
  value : Int
  isTruth : Bool
  deriving DecidableEq, Repr

namespace GivenNumber

/-- The whole number that a value gives. -/
def ofJson? : Json → Option GivenNumber
  | .int value => some ⟨value, false⟩
  | .bool value => some ⟨if value then 1 else 0, true⟩
  | _ => none

/-- The value that gave a whole number. -/
def toJson (number : GivenNumber) : Json :=
  if number.isTruth then .bool (number.value != 0) else .int number.value

end GivenNumber

namespace Argument

/-- A least length; null gives none. -/
def minLength : Json → Except CallError (Option GivenNumber)
  | .null => .ok none
  | value =>
    match GivenNumber.ofJson? value with
    | some number => if number.value < 1 then .error .minLength else .ok (some number)
    | none => .error .minLength

/-- The name of a mode; null gives none. -/
def mode : Json → Except CallError (Option String)
  | .null => .ok none
  | .str name => if OpenMode.names.contains name then .ok (some name) else .error .mode
  | _ => .error .mode

/-- The items of a value of a kind that has some. -/
def items? : Json → Option (List Json)
  | .arr items => some items
  | .str text => some (text.toList.map fun c => .str (String.ofList [c]))
  | .obj members => some (members.map fun member => .str member.1)
  | _ => none

/-- The label that a value gives. -/
def label? : Json → Option String
  | .str text => if Label.declared.contains text then some text else none
  | _ => none

/-- Labels of sections; a value that does not count as present gives none. -/
def labels (value : Json) : Except CallError (List String) :=
  if !value.isTruthy then .ok []
  else
    match items? value with
    | none => .error (.labelsNoList value.kindWord)
    | some items =>
      let unknown := items.filter fun item => (label? item).isNone
      if unknown.isEmpty then .ok (items.filterMap label?) else .error (.labels unknown)

/-- The number of entries to return. -/
def limit (value : Json) : Except CallError GivenNumber :=
  match GivenNumber.ofJson? value with
  | some number => if 0 < number.value then .ok number else .error .limit
  | none => .error .limit

/-- The number of entries to leave out in front. -/
def offset (value : Json) : Except CallError GivenNumber :=
  match GivenNumber.ofJson? value with
  | some number => if 0 ≤ number.value then .ok number else .error .offset
  | none => .error .offset

/-- The number of patterns, before anything else is known about them. -/
def patternCount (value : Json) : Except CallError Nat :=
  if !value.isTruthy then .ok 0
  else
    match items? value with
    | some items => .ok items.length
    | none => .error (.patternsNoList value.kindWord)

/-- The texts of the patterns of a list that is not empty. -/
def patterns : Json → Except CallError (List String)
  | .arr (item :: items) => .ok ((item :: items).map Json.phrase)
  | _ => .error .patterns

/-- An address. -/
def address : Json → Except CallError Nat
  | .str text =>
    match readAddress text with
    | .ok address => .ok address
    | .error error => .error (.address text error)
  | _ => .error .addressNoText

end Argument

end BinaryStrings.Server
