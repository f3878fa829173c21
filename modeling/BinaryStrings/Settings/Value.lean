import BinaryStrings.Json.Phrase
import BinaryStrings.Settings.Store
import BinaryStrings.Text.Split

/-!
# Settings by name

The value of a setting comes from its environment variable, if it has one that is not empty, and
else from the settings file.  Whole numbers have to be positive; anything else is answered with a
default and a warning, unless the warning would have to name an overlong number.  Settings that tell
paths are masked for display.
-/

namespace BinaryStrings.Settings

/-- Environment variables by name. -/
abbrev Environment := List (String × String)

/-- The name of the setting for the least length of texts. -/
def minLengthKey : String := "min_length"

/-- The name of the setting for the number of workers. -/
def workersKey : String := "workers"

/-- The name of the setting for the directories that may be read. -/
def allowedPathsKey : String := "allowed_paths"

/-- The settings that environment variables override, with these. -/
def variableNames : List (String × String) :=
  [(minLengthKey, "BINSTRINGS_MIN_LENGTH"), (workersKey, "BINSTRINGS_WORKERS"),
    (allowedPathsKey, "BINSTRINGS_ALLOWED_PATHS")]

/-- The value of an environment variable that is not empty. -/
def given? (environment : Environment) (name : String) : Option String :=
  match environment.lookup name with
  | some value => if value.isEmpty then none else some value
  | none => none

/-- The value that the environment gives a setting. -/
def override? (environment : Environment) (key : String) : Option String :=
  match variableNames.lookup key with
  | some name => given? environment name
  | none => none

/-- A setting of a file as a text; null is no value. -/
def asText? (members : Json.Members) (key : String) : Option String :=
  match members.get? key with
  | none => none
  | some .null => none
  | some value => some value.phrase

/-- The value of a setting, and what is to be logged. -/
def value (environment : Environment) (store : Store) (key : String) :
    List Log.Line × Except Error (Option String) :=
  match override? environment key with
  | some text => ([], .ok (some text))
  | none =>
    match load store with
    | (lines, .error error) => (lines, .error error)
    | (lines, .ok members) => (lines, .ok (asText? members key))

/-- A default in place of a value, with a warning that names some numbers. -/
def instead (absent : Int) (named : List Int) (warning : String) :
    Except Error (List Log.Line × Int) :=
  if named.all Numeral.isShowable then .ok ([Log.warning warning], absent)
  else .error (.notRead .notShowable)

/-- A positive number that a text spells, or the default with a warning. -/
def positiveOr (key : String) (absent : Int) (text : String) : Except Error (List Log.Line × Int) :=
  match Numeral.read .marked text with
  | .error _ =>
    let shown := Text.quoted text
    instead absent [absent]
      s!"Config key '{key}' has non-integer value {shown}, using default {absent}."
  | .ok number =>
    if number < 1 then
      instead absent [number, absent]
        s!"Config key '{key}' must be >= 1 (got {number}), using default {absent}."
    else .ok ([], number)

/-- The value of a setting as a positive number, `absent` when it has none. -/
def positive (environment : Environment) (store : Store) (key : String) (absent : Int) :
    List Log.Line × Except Error Int :=
  match value environment store key with
  | (lines, .error error) => (lines, .error error)
  | (lines, .ok none) => (lines, .ok absent)
  | (lines, .ok (some text)) =>
    match positiveOr key absent text with
    | .error error => (lines, .error error)
    | .ok (more, number) => (lines ++ more, .ok number)

/-! ## Changes -/

/-- Sets a setting in the file. -/
def set (store : Store) (key : String) (value : Json) : Outcome Unit :=
  match load store with
  | (lines, .error error) => ⟨store, lines, .error error⟩
  | (lines, .ok members) =>
    let saved := save store (.obj (members.set key value))
    match saved.result with
    | .error error => ⟨saved.store, lines ++ saved.log, .error error⟩
    | .ok () =>
      let note := Log.info s!"Config key '{key}' saved to {store.path}"
      ⟨saved.store, lines ++ saved.log ++ [note], .ok ()⟩

/-- Takes a setting out of the file and tells whether it was there. -/
def delete (store : Store) (key : String) : Outcome Bool :=
  match load store with
  | (lines, .error error) => ⟨store, lines, .error error⟩
  | (lines, .ok members) =>
    if (members.get? key).isSome then
      let saved := save store (.obj (members.erase key))
      match saved.result with
      | .error error => ⟨saved.store, lines ++ saved.log, .error error⟩
      | .ok () =>
        let note := Log.info s!"Config key '{key}' removed from {store.path}"
        ⟨saved.store, lines ++ saved.log ++ [note], .ok true⟩
    else ⟨store, lines, .ok false⟩

/-! ## Display -/

/-- At both ends of a masked text so many characters are left. -/
def unmasked : Nat := 3

/-- A text with stars for all but its ends; a short one stays. -/
def maskText (text : String) : String :=
  let chars := text.toList
  let hidden := chars.length - 2 * unmasked
  if hidden = 0 then text
  else
    String.ofList (chars.take unmasked ++ List.replicate hidden '*' ++
      chars.drop (unmasked + hidden))

/-- A member as it is displayed. -/
def maskMember : String × Json → String × Json
  | (key, .str text) => (key, .str (if key == allowedPathsKey then maskText text else text))
  | member => member

/-- The settings that the environment overrides, with a remark for each. -/
def overrides (environment : Environment) : Json.Members :=
  variableNames.filterMap fun (key, name) =>
    (given? environment name).map fun _ =>
      (key, .str s!"(overridden by ${name} environment variable)")

/-- Settings as they are displayed. -/
def display (environment : Environment) (members : Json.Members) : Json.Members :=
  let shown : Json.Members := members.map maskMember
  let overridden := overrides environment
  if overridden.isEmpty then shown else shown.set "_env_overrides" (.obj overridden)

/-- The settings of a file as they are displayed, and what is to be logged. -/
def masked (environment : Environment) (store : Store) :
    List Log.Line × Except Error Json.Members :=
  match load store with
  | (lines, .error error) => (lines, .error error)
  | (lines, .ok members) => (lines, .ok (display environment members))

/-! ## Allowed paths -/

/-- What separates paths in a setting. -/
def pathMark : Char := ':'

/-- The paths that a text lists. -/
def pathsOf (text : String) : List String :=
  (Text.split pathMark text).filter fun path => !path.isEmpty

/-- The directories that may be read; none means no restriction. -/
def allowedPaths (environment : Environment) (store : Store) :
    List Log.Line × Except Error (Option (List String)) :=
  match value environment store allowedPathsKey with
  | (lines, .error error) => (lines, .error error)
  | (lines, .ok none) => (lines, .ok none)
  | (lines, .ok (some text)) =>
    (lines, .ok (if text.isEmpty then none else some (pathsOf text)))

end BinaryStrings.Settings
