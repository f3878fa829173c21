import BinaryStrings.Decimal.Binary64
import BinaryStrings.Json.Writer
import BinaryStrings.Log
import BinaryStrings.Server.Note

/-!
# The size of a response

A response whose JSON text is too large is made to fit.  In a few rounds its largest list, or the
response itself if it is a list, is cut to a first part, and a remark says so; counts beside the
list stay as they are.  What still does not fit is replaced by the first part of its text.

Before anything is cut the response is copied.  The copy and the text of a value both take calls within
calls for lists within lists, and give up when these are too many.
-/

namespace BinaryStrings.Server.SizeGuard

/-- Responses have at most this many bytes. -/
def limit : Nat := 64 * 1024

/-- Responses that are cut aim at this many bytes, which leaves room for the remark. -/
def target : Nat := limit - 4096

/-- The number of rounds. -/
def rounds : Nat := 5

/-- A value that is nested deeper has no JSON text. -/
def deepestWritten : Nat := 980

/-- A value that is nested deeper is not copied, since that takes two calls for each list or object. -/
def deepestCopied : Nat := 492

/-- The name of the remark. -/
def remarkName : String := "_truncation_warning"

/-- What a caller is told to narrow when a tool names nothing better. -/
def usualAdvice : String := "the limit parameter"

/-- A text, unless there is none or it is empty. -/
def given (text : Option String) : Option String :=
  text.filter fun text => !text.isEmpty

/-! ## One round -/

/-- The share of a value of some size that a round keeps: nine tenths of what fits. -/
def share (size : Nat) : Binary64 :=
  (Binary64.ofRatio false target size).mulMagnitude (Binary64.ofRatio false 9 10)

/-- The number of items that a round keeps of a list in a value of some size, at least one. -/
def keptCount (size length : Nat) : Nat :=
  max 1 ((Binary64.ofRatio false length 1).mulMagnitude (share size)).floorMagnitude

/-- The largest list of an object among those with items and `best`; of equal ones the first. -/
def largestFrom (best : Option (String × List Json)) : Json.Members → Option (String × List Json)
  | [] => best
  | (name, .arr (item :: items)) :: rest =>
    let better :=
      match best with
      | none => true
      | some (_, known) => (Json.arr known).size < (Json.arr (item :: items)).size
    largestFrom (if better then some (name, item :: items) else best) rest
  | _ :: rest => largestFrom best rest

/-- The largest list of an object among those with items. -/
def largestList (members : Json.Members) : Option (String × List Json) :=
  largestFrom none members

/-- The remark about a list that was cut. -/
def remark (name : String) (before after : Nat) (advice : Option String) : String :=
  let limitShown := limit / 1024
  let adviceShown := (given advice).getD usualAdvice
  s!"Data in '{name}' truncated from {before} to {after} items to fit {limitShown}KB limit. " ++
    s!"Narrow the request with {adviceShown}."

/-- A value after one round; nothing when a round cannot make it smaller. -/
def shrink (advice : Option String) (size : Nat) : Json → Option Json
  | .arr items => some (.arr (items.take (keptCount size items.length)))
  | .obj members =>
    match largestList members with
    | none => none
    | some (name, items) =>
      let kept := keptCount size items.length
      if items.length ≤ kept then none
      else
        let cut := Json.Members.set members name (.arr (items.take kept))
        some (.obj (Json.Members.set cut remarkName (.str (remark name items.length kept advice))))
  | _ => none

/-- A value after at most so many rounds, as many as it takes to reach the target. -/
def shrinkRounds (advice : Option String) : (rounds : Nat) → Json → Json
  | 0, value => value
  | rounds + 1, value =>
    let size := value.size
    if size ≤ target then value
    else
      match shrink advice size value with
      | none => value
      | some smaller => shrinkRounds advice rounds smaller

/-! ## The preview -/

/-- The first part of the text of a value, whole characters only. -/
def previewText (value : Json) : List Char :=
  Utf8.takeBytes (target / 2) (Json.chars .plain value)

/-- What stands for a value that does not fit. -/
def preview (value : Json) : Json :=
  let shown := previewText value
  .obj [("data_preview", .str (String.ofList shown)),
    (remarkName, .str
      ("Response could not be structurally reduced. Converted to truncated string preview " ++
        s!"({value.size} bytes -> {shown.length} bytes)."))]

/-- A value made to fit. -/
def fitted (advice : Option String) (value : Json) : Json :=
  let smaller := shrinkRounds advice rounds value
  if limit < smaller.size then preview smaller else smaller

/-! ## Responses -/

/-- What a tool wants to send. -/
inductive Payload where
  /-- A value, none of whose numbers has too many digits to be written. -/
  | value (value : Json)
  /-- Something that has no JSON text. -/
  | unwritable (reason : String)

/-- What is sent, with the notes to the client and what is to be logged. -/
structure Response where
  value : Json
  notes : List Note
  log : List Log.Line

/-- A size in units of 1024 bytes with one decimal, halves to the even neighbour. -/
def kilobytes (size : Nat) : String :=
  let tenths := roundHalfEven (size * 10) 1024
  let whole := tenths / 10
  let tenth := tenths % 10
  s!"{whole}.{tenth}"

/-- The note about a response that is too large. -/
def note (tool : String) (size : Nat) : Note :=
  let shown := kilobytes size
  ⟨.warning, s!"Response for '{tool}' was {shown}KB. Auto-truncating to fit limits."⟩

/-- A value as it is sent if it can be copied. -/
def respond (tool : String) (advice : Option String) (value : Json) : Response :=
  let size := value.size
  if size ≤ limit then ⟨value, [], []⟩ else ⟨fitted advice value, [note tool size], []⟩

/-- What a caller is told to do about a value that cannot be made to fit. -/
def suggestion (advice : Option String) : String :=
  (given advice).getD "Reduce limit parameter significantly."

/-- What stands for a value of some size that cannot be made to fit, of size zero when this is not
known. -/
def excuse (advice : Option String) (size : Nat) : Json :=
  .obj [("error", .str "Response too large"),
    ("message", .str
      s!"The data generated was {size} bytes (Limit: {limit}). Auto-truncation failed."),
    ("suggestion", .str (suggestion advice))]

/-- What is sent for a value that cannot be made to fit, after some notes. -/
def trouble (advice : Option String) (size : Nat) (notes : List Note) (reason : String) : Response :=
  ⟨excuse advice size, notes ++ [⟨.error, s!"Auto-truncation failed: {reason}"⟩],
    [Log.error s!"MCP: Truncation logic failed: {reason}"]⟩

/-- What is sent for what a tool wants to send. -/
def guarded (tool : String) (advice : Option String) : Payload → Response
  | .value value =>
    if deepestWritten < value.depth then
      trouble advice 0 [] "maximum recursion depth exceeded while encoding a JSON object"
    else if limit < value.size && deepestCopied < value.depth then
      trouble advice value.size [note tool value.size]
        "maximum recursion depth exceeded while calling a Python object"
    else respond tool advice value
  | .unwritable reason => trouble advice 0 [] reason

end BinaryStrings.Server.SizeGuard
