import BinaryStrings.CommandLine.Word
import BinaryStrings.Numeral

/-!
# Requests

A request is what a command line asks for.  It is built flag by flag in the order of the words; the
first mistake in the value of a flag ends this, and so does a call for help.  Words that belong to
no flag are a mistake too, told when all flags have been read.
-/

namespace BinaryStrings.CommandLine

/-- What a command line asks for. -/
structure Request where
  inputFile : Option String
  mode : OpenMode
  rawBase : Nat
  verbose : Bool
  minLength : Int
  workers : Int
  labels : List String
  pattern : Option String
  limit : Option Int
  json : Bool
  server : Bool
  host : String
  port : Int
  transport : Transport
  allowedPaths : Option (List String)
  deriving DecidableEq, Repr

/-- The request of an empty command line. -/
def Request.initial (defaults : Startup.Defaults) : Request where
  inputFile := none
  mode := .auto
  rawBase := 0
  verbose := false
  minLength := defaults.minLength
  workers := defaults.workers
  labels := []
  pattern := none
  limit := none
  json := false
  server := false
  host := Flag.usualHost
  port := Flag.usualPort
  transport := .stdio
  allowedPaths := none

/-! ## Mistakes -/

/-- What is wrong with the value of a flag. -/
inductive ValueMistake where
  | oneExpected
  | someExpected
  /-- The flag takes no value, but has one attached. -/
  | ignored (text : String)
  | noChoice (text : String)
  /-- The text spells no value of this kind. -/
  | notOfKind (kind text : String)
  | tooSmall (text : String)
  deriving DecidableEq, Repr

/-- What is wrong with a command line. -/
inductive Mistake where
  | value (flag : Flag) (mistake : ValueMistake)
  | ambiguous (ambiguity : Ambiguity)
  | unrecognized (words : List String)
  | noInputFile
  deriving DecidableEq, Repr

/-- The wording of a mistake in the value of a flag. -/
def ValueMistake.message (flag : Flag) : ValueMistake → String
  | .oneExpected => "expected one argument"
  | .someExpected => "expected at least one argument"
  | .ignored text => "ignored explicit argument " ++ Text.quoted text
  | .noChoice text =>
    "invalid choice: " ++ Text.quoted text ++ " (choose from " ++
      String.intercalate ", " (flag.choices.map Text.quoted) ++ ")"
  | .notOfKind kind text => s!"invalid {kind} value: " ++ Text.quoted text
  | .tooSmall text => s!"must be >= 1 (got {text})"

/-- The wording of a mistake. -/
def Mistake.message : Mistake → String
  | .value flag mistake => s!"argument {flag.nameList}: {mistake.message flag}"
  | .ambiguous ambiguity =>
    s!"ambiguous option: {ambiguity.word} could match " ++
      String.intercalate ", " ambiguity.names
  | .unrecognized words => "unrecognized arguments: " ++ String.intercalate " " words
  | .noInputFile => "--input-file is required in CLI mode"

/-- Why no request comes about. -/
inductive Stop where
  | help
  | mistake (mistake : Mistake)
  deriving DecidableEq, Repr

/-! ## Values -/

/-- A whole number in decimal. -/
def readWhole (kind text : String) : Except ValueMistake Int :=
  match Numeral.read .decimal text with
  | .ok number => .ok number
  | .error _ => .error (.notOfKind kind text)

/-- A whole number from one on. -/
def readPositive (text : String) : Except ValueMistake Int :=
  match readWhole "_positive_int" text with
  | .ok number => if number < 1 then .error (.tooSmall text) else .ok number
  | .error mistake => .error mistake

/-- An address. -/
def readBase (text : String) : Except ValueMistake Nat :=
  match readAddress text with
  | .ok address => .ok address
  | .error _ => .error (.notOfKind "parse_address" text)

/-- One of several values. -/
def choose {α : Type} (found : Option α) (text : String) : Except ValueMistake α :=
  match found with
  | some value => .ok value
  | none => .error (.noChoice text)

/-- The request with a flag that has the one value `text`. -/
def Request.withValue (request : Request) (flag : Flag) (text : String) :
    Except ValueMistake Request := do
  match flag with
  | .inputFile => return { request with inputFile := some text }
  | .mode =>
    let mode ← choose (OpenMode.ofName? text) text
    return { request with mode }
  | .rawBase =>
    let rawBase ← readBase text
    return { request with rawBase }
  | .minLength =>
    let minLength ← readPositive text
    return { request with minLength }
  | .workers =>
    let workers ← readPositive text
    return { request with workers }
  | .label =>
    let label ← choose (Label.declared.find? (· == text)) text
    return { request with labels := request.labels ++ [label] }
  | .pattern => return { request with pattern := some text }
  | .limit =>
    let limit ← readPositive text
    return { request with limit := some limit }
  | .host => return { request with host := text }
  | .port =>
    let port ← readWhole "int" text
    return { request with port }
  | .transport =>
    let transport ← choose (Transport.ofName? text) text
    return { request with transport }
  | _ => return request

/-- The request with a flag and its values. -/
def Request.with (request : Request) (flag : Flag) (values : List String) :
    Except Stop Request :=
  match flag with
  | .help => .error .help
  | .verbose => .ok { request with verbose := true }
  | .json => .ok { request with json := true }
  | .server => .ok { request with server := true }
  | .allowedPaths => .ok { request with allowedPaths := some values }
  | flag =>
    match request.withValue flag (values.headD "") with
    | .ok request => .ok request
    | .error mistake => .error (.mistake (.value flag mistake))

/-! ## Flags in a word -/

/-- The flags that a word names, each with its values. -/
structure Uses where
  flags : List (Flag × List String)
  /-- What belongs to no flag. -/
  extra : List String
  /-- The number of values taken from the words behind. -/
  taken : Nat

/-- A flag without an attached value takes values from the words behind. -/
def takeValues (flag : Flag) (values : List String) : Except Mistake Uses :=
  match flag.following, values with
  | .nothing, _ => .ok ⟨[(flag, [])], [], 0⟩
  | .one, [] => .error (.value flag .oneExpected)
  | .one, value :: _ => .ok ⟨[(flag, [value])], [], 1⟩
  | .several, [] => .error (.value flag .someExpected)
  | .several, values => .ok ⟨[(flag, values)], [], values.length⟩

/-- The uses with a flag in front. -/
def Uses.after (uses : Uses) (flag : Flag) : Uses :=
  { uses with flags := (flag, []) :: uses.flags }

/-- A flag named by a letter with `text` right behind it: a value if the flag takes one, and else
letters of more flags. -/
def takeLetters (values : List String) (flag : Flag) (text : List Char) : Except Mistake Uses :=
  if flag.following != .nothing then .ok ⟨[(flag, [String.ofList text])], [], 0⟩
  else
    match text with
    | [] => .error (.value flag (.ignored ""))
    | letter :: rest =>
      if letter == '-' then .error (.value flag (.ignored (String.ofList text)))
      else
        match Flag.ofName? (String.ofList ['-', letter]) with
        | none => .ok ⟨[(flag, [])], [String.ofList ('-' :: text)], 0⟩
        | some next =>
          match rest with
          | [] => (takeValues next values).map (·.after flag)
          | '=' :: value =>
            if next.following == .nothing then
              .error (.value next (.ignored (String.ofList value)))
            else .ok ⟨[(flag, []), (next, [String.ofList value])], [], 0⟩
          | rest => (takeLetters values next rest).map (·.after flag)

/-- The flags of a word, with `values` in the words behind. -/
def takeUse (values : List String) (found : FlagUse) : Except Mistake Uses :=
  match found.attached with
  | none => takeValues found.flag values
  | some attached =>
    if found.byLetter && !attached.byEquals then takeLetters values found.flag attached.text
    else
      let text := String.ofList attached.text
      if found.flag.following == .nothing then .error (.value found.flag (.ignored text))
      else .ok ⟨[(found.flag, [text])], [], 0⟩

/-! ## Whole command lines -/

/-- The request with several flags. -/
def Request.withAll (request : Request) : List (Flag × List String) → Except Stop Request
  | [] => .ok request
  | (flag, values) :: rest =>
    match request.with flag values with
    | .ok request => request.withAll rest
    | .error stop => .error stop

/-- The values at the start of words. -/
def leadingValues : List (Word × String) → List String
  | (.value, text) :: rest => text :: leadingValues rest
  | _ => []

/-- Reads words into a request; the next `skip` of them are values of a flag before.  `extra` are the
words that belong to no flag. -/
def readWords (request : Request) (extra : List String) :
    (skip : Nat) → List (Word × String) → Except Stop (Request × List String)
  | _, [] => .ok (request, extra)
  | skip + 1, _ :: rest => readWords request extra skip rest
  | 0, (.use found, _) :: rest =>
    match takeUse (leadingValues rest) found with
    | .error mistake => .error (.mistake mistake)
    | .ok uses =>
      match request.withAll uses.flags with
      | .error stop => .error stop
      | .ok request => readWords request (extra ++ uses.extra) uses.taken rest
  | 0, (_, text) :: rest => readWords request (extra ++ [text]) 0 rest

/-- The request of a command line. -/
def read (defaults : Startup.Defaults) (words : List String) : Except Stop Request :=
  match Word.readAll words with
  | .error ambiguity => .error (.mistake (.ambiguous ambiguity))
  | .ok words =>
    match readWords (.initial defaults) [] 0 words with
    | .error stop => .error stop
    | .ok (request, []) => .ok request
    | .ok (_, extra) => .error (.mistake (.unrecognized extra))

end BinaryStrings.CommandLine
