import BinaryStrings.Text.Quoted

/-!
# Consoles

A console writes lines in an encoding.  A line with characters that the encoding lacks is written
with escapes for them and a remark; if the lead in front of the text has such characters itself, a
notice takes the place of the text.
-/

namespace BinaryStrings.Console

/-- What a console can write. -/
inductive Encoding where
  | utf8
  | latin1
  | ascii
  deriving DecidableEq, Repr

namespace Encoding

/-- The code points below this can be written. -/
def limit : Encoding → Nat
  | utf8 => 0x110000
  | latin1 => 0x100
  | ascii => 0x80

/-- The name of an encoding. -/
def name : Encoding → String
  | utf8 => "utf-8"
  | latin1 => "latin-1"
  | ascii => "ascii"

/-- Whether a character can be written. -/
def holds (encoding : Encoding) (c : Char) : Bool :=
  c.toNat < encoding.limit

/-- Whether a text can be written. -/
def holdsAll (encoding : Encoding) (text : String) : Bool :=
  text.toList.all encoding.holds

/-- A text with escapes for the characters that cannot be written. -/
def escaped (encoding : Encoding) (text : String) : String :=
  String.ofList (text.toList.flatMap fun c =>
    if encoding.holds c then [c] else Text.numericEscape c.toNat)

end Encoding

/-- A text that cannot be written: where the first characters in question are. -/
structure EncodeError where
  encoding : Encoding
  start : Nat
  stop : Nat
  first : Char
  deriving DecidableEq, Repr

/-- The wording of an error. -/
def EncodeError.message (error : EncodeError) : String :=
  let place :=
    if error.stop = error.start + 1 then
      "character '" ++ String.ofList (Text.numericEscape error.first.toNat) ++
        s!"' in position {error.start}"
    else
      let last := error.stop - 1
      s!"characters in position {error.start}-{last}"
  "'" ++ error.encoding.name ++ "' codec can't encode " ++ place ++
    s!": ordinal not in range({error.encoding.limit})"

/-- The first characters of a text that cannot be written. -/
def firstUnwritable? (encoding : Encoding) (text : String) : Option EncodeError :=
  let good := text.toList.takeWhile encoding.holds
  match text.toList.drop good.length with
  | [] => none
  | c :: rest =>
    let more := (rest.takeWhile fun c => !encoding.holds c).length
    some ⟨encoding, good.length, good.length + 1 + more, c⟩

/-- Ends a line. -/
def ended (text : String) : String :=
  text ++ "\n"

/-- A text behind a lead as it is written. -/
def write (encoding : Encoding) (lead text : String) : Except EncodeError String :=
  if encoding.holdsAll (lead ++ text) then .ok (ended (lead ++ text))
  else if encoding.holdsAll lead then
    .ok (ended (lead ++ encoding.escaped text ++ " (some characters replaced/escaped)"))
  else
    let notice :=
      lead ++ "<Unencodable string: contains characters not supported by output encoding>"
    match firstUnwritable? encoding notice with
    | some error => .error error
    | none => .ok (ended notice)

/-- A text as it is written. -/
def line (encoding : Encoding) (text : String) : String :=
  if encoding.holdsAll text then ended text
  else ended (encoding.escaped text ++ " (some characters replaced/escaped)")

/-- Texts one by one as they are written. -/
def lines (encoding : Encoding) (texts : List String) : String :=
  String.join (texts.map (line encoding))

end BinaryStrings.Console
