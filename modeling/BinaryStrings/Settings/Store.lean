import BinaryStrings.FileTree.Access
import BinaryStrings.Json.Reader
import BinaryStrings.Json.Writer
import BinaryStrings.Log

/-!
# The settings file

Settings are the members of one JSON object in a file.  Reading a file that is missing, or that
holds something else, gives no settings; a warning says why.  Only text that is no UTF-8, nesting
beyond the limit of the reader and overlong numbers are errors.  Saving writes the members in the
order of their names, in ASCII, to a file that its owner alone may read.
-/

namespace BinaryStrings.Settings

/-- What stands at the path of a settings file. -/
inductive Contents where
  | missing
  | directory
  /-- A file that may not be opened. -/
  | closed
  | file (data : Bytes) (mode : Nat)
  deriving DecidableEq, Repr

/-- A settings file. -/
structure Store where
  path : String
  contents : Contents
  deriving DecidableEq, Repr

/-- The settings file of a home directory. -/
def pathIn (home : String) : String :=
  home ++ "/.binstrings/config.json"

/-- The permissions of a saved file: reading and writing for its owner. -/
def savedMode : Nat := 0o600

/-- The permissions of a file that some other program made. -/
def usualMode : Nat := 0o644

/-- The settings file in a file tree. -/
def storeIn (tree : FileTree) (path : String) : Store :=
  match tree.find path with
  | .ok (_, .file data) => ⟨path, .file data usualMode⟩
  | .ok (_, .closed) => ⟨path, .closed⟩
  | .ok _ => ⟨path, .directory⟩
  | .error _ => ⟨path, .missing⟩

/-- What keeps settings from being read although their text has no mistake. -/
inductive Obstacle where
  | tooDeep (container : String)
  | tooManyDigits (digits : Nat)
  /-- A warning would have to name a number with too many digits. -/
  | notShowable
  deriving DecidableEq, Repr

/-- The wording of an obstacle. -/
def Obstacle.message : Obstacle → String
  | .tooDeep container => (Json.ReadError.tooDeep container).message
  | .tooManyDigits digits => (Json.ReadError.tooManyDigits digits).message
  | .notShowable => Numeral.notShowable

/-- Why settings cannot be read or written. -/
inductive Error where
  | notText (fault : Utf8.Fault)
  | notRead (obstacle : Obstacle)
  | notWritten (path : String) (error : FileError)
  deriving DecidableEq, Repr

/-- The wording of an error. -/
def Error.message : Error → String
  | .notText fault => fault.message
  | .notRead obstacle => obstacle.message
  | .notWritten path error => error.message path

/-- A text with every way to end a line turned into a line feed. -/
def unixLines : List Char → List Char
  | '\r' :: '\n' :: rest => '\n' :: unixLines rest
  | '\r' :: rest => '\n' :: unixLines rest
  | c :: rest => c :: unixLines rest
  | [] => []

/-- The settings that a text holds. -/
def ofText (path : String) (text : List Char) : List Log.Line × Except Error Json.Members :=
  match Json.read (unixLines text) with
  | .ok (.obj members) => ([], .ok members)
  | .ok _ =>
    ([Log.warning s!"User config at {path} is not a JSON object, ignoring."], .ok [])
  | .error (.mistake kind line column position) =>
    let reason := (Json.ReadError.mistake kind line column position).message
    ([Log.warning s!"Failed to read user config from {path}: {reason}"], .ok [])
  | .error (.tooDeep container) => ([], .error (.notRead (.tooDeep container)))
  | .error (.tooManyDigits digits) => ([], .error (.notRead (.tooManyDigits digits)))

/-- What is to be logged when a settings file cannot be opened for reading. -/
def unopened (store : Store) (error : FileError) : List Log.Line × Except Error Json.Members :=
  let reason := error.message store.path
  ([Log.warning s!"Failed to read user config from {store.path}: {reason}"], .ok [])

/-- The settings of a file, and what is to be logged. -/
def load (store : Store) : List Log.Line × Except Error Json.Members :=
  match store.contents with
  | .missing => ([], .ok [])
  | .directory => unopened store .isDirectory
  | .closed => unopened store .permissionDenied
  | .file data _ =>
    match Utf8.decode data with
    | .error fault => ([], .error (.notText fault))
    | .ok text => ofText store.path text

/-- What an operation on a settings file leaves behind, logs and answers. -/
structure Outcome (α : Type) where
  store : Store
  log : List Log.Line
  result : Except Error α

/-- How settings are written. -/
def style : Json.Style := ⟨true, some 2, true⟩

/-- The text of a settings file. -/
def fileText (value : Json) : List Char :=
  Json.chars style value

/-- What comes of saving to a settings file that cannot be opened for writing. -/
def unsaved (store : Store) (error : FileError) : Outcome Unit :=
  let error := Error.notWritten store.path error
  ⟨store, [Log.error s!"Failed to write user config to {store.path}: {error.message}"],
    .error error⟩

/-- Saves a value as the contents of a settings file. -/
def save (store : Store) (value : Json) : Outcome Unit :=
  match store.contents with
  | .directory => unsaved store .isDirectory
  | .closed => unsaved store .permissionDenied
  | _ => ⟨{ store with contents := .file (Utf8.encode (fileText value)) savedMode }, [], .ok ()⟩

end BinaryStrings.Settings
