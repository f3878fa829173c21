import BinaryStrings.Bytes
import BinaryStrings.Text.Hex

/-!
# UTF-8

Strict UTF-8 on byte lists.  `encodeChar` writes one character and `decodeFirst` reads one: it
accepts exactly the written forms, so overlong forms, surrogates, values above U+10FFFF and cut
sequences are refused.  A whole text is read by `decode`, which reports the first malformed
sequence, or by `decodeReplacing`, which puts a replacement character for each.
-/

namespace BinaryStrings.Utf8

/-- The one to four bytes of a character. -/
def encodeChar (c : Char) : Bytes :=
  let n := c.toNat
  if n < 0x80 then [n.toUInt8]
  else if n < 0x800 then [(0xC0 + n / 0x40).toUInt8, (0x80 + n % 0x40).toUInt8]
  else if n < 0x10000 then
    [(0xE0 + n / 0x1000).toUInt8, (0x80 + n / 0x40 % 0x40).toUInt8, (0x80 + n % 0x40).toUInt8]
  else
    [(0xF0 + n / 0x40000).toUInt8, (0x80 + n / 0x1000 % 0x40).toUInt8,
      (0x80 + n / 0x40 % 0x40).toUInt8, (0x80 + n % 0x40).toUInt8]

/-- The bytes of a text. -/
def encode (text : List Char) : Bytes :=
  text.flatMap encodeChar

/-- The number of bytes of a character. -/
def width (c : Char) : Nat :=
  if c.toNat < 0x80 then 1 else if c.toNat < 0x800 then 2 else if c.toNat < 0x10000 then 3 else 4

/-- The number of bytes of a text. -/
def byteCount (text : List Char) : Nat :=
  text.foldr (fun c count => width c + count) 0

/-- Continuation bytes carry six bits each. -/
def isContinuation (byte : UInt8) : Bool :=
  0x80 ≤ byte && byte < 0xC0

/-- The character with code point `n`, when there is one and it needs at least `least`. -/
def scalar? (n least : Nat) : Option Char :=
  if least ≤ n ∧ n.isValidChar then some (Char.ofNat n) else none

/-- The character that the buffer starts with and the number of its bytes; nothing when the buffer
is empty or does not start with a well-formed sequence. -/
def decodeFirst : Bytes → Option (Char × Nat)
  | [] => none
  | lead :: rest =>
    if lead < 0x80 then some (Char.ofNat lead.toNat, 1)
    else if lead < 0xC0 then none
    else if lead < 0xE0 then
      match rest with
      | b :: _ =>
        if isContinuation b then
          (scalar? ((lead.toNat - 0xC0) * 0x40 + (b.toNat - 0x80)) 0x80).map (·, 2)
        else none
      | [] => none
    else if lead < 0xF0 then
      match rest with
      | b :: c :: _ =>
        if isContinuation b && isContinuation c then
          (scalar? ((lead.toNat - 0xE0) * 0x1000 + (b.toNat - 0x80) * 0x40 + (c.toNat - 0x80))
            0x800).map (·, 3)
        else none
      | _ => none
    else if lead < 0xF8 then
      match rest with
      | b :: c :: d :: _ =>
        if isContinuation b && isContinuation c && isContinuation d then
          (scalar? ((lead.toNat - 0xF0) * 0x40000 + (b.toNat - 0x80) * 0x1000 +
            (c.toNat - 0x80) * 0x40 + (d.toNat - 0x80)) 0x10000).map (·, 4)
        else none
      | _ => none
    else none

/-! ## Malformed sequences -/

/-- Why a sequence is malformed. -/
inductive Reason where
  /-- No character starts with this byte. -/
  | start
  /-- A continuation byte is missing or out of its range. -/
  | continuation
  /-- The buffer ends inside the sequence. -/
  | truncated
  deriving DecidableEq, Repr

/-- The wording of a reason. -/
def Reason.message : Reason → String
  | .start => "invalid start byte"
  | .continuation => "invalid continuation byte"
  | .truncated => "unexpected end of data"

/-- Whether `b` can follow `lead` in some well-formed sequence. -/
def canFollow (lead b : UInt8) : Bool :=
  isContinuation b &&
    (if lead == 0xE0 then 0xA0 ≤ b
     else if lead == 0xED then b < 0xA0
     else if lead == 0xF0 then 0x90 ≤ b
     else if lead == 0xF4 then b < 0x90
     else true)

/-- The number of bytes that a lead byte announces; none for a byte that starts no character. -/
def announced? (lead : UInt8) : Option Nat :=
  if lead < 0x80 then some 1
  else if 0xC2 ≤ lead && lead ≤ 0xDF then some 2
  else if 0xE0 ≤ lead && lead ≤ 0xEF then some 3
  else if 0xF0 ≤ lead && lead ≤ 0xF4 then some 4
  else none

/-- The extent of the malformed sequence that a buffer starts with, and what is wrong with it: the
bytes that could still have been completed, at least one. -/
def malformed : Bytes → Nat × Reason
  | [] => (0, .truncated)
  | lead :: rest =>
    match announced? lead with
    | none => (1, .start)
    | some size =>
      let tail := rest.take (size - 1)
      let good :=
        match tail with
        | [] => 0
        | b :: more => if canFollow lead b then 1 + (more.takeWhile isContinuation).length else 0
      if good < tail.length then (1 + good, .continuation) else (1 + good, .truncated)

/-- A malformed sequence in a buffer: bytes `start` to `start + size`, the first one, and why. -/
structure Fault where
  start : Nat
  size : Nat
  lead : UInt8
  reason : Reason
  deriving DecidableEq, Repr

/-- The wording of a fault. -/
def Fault.message (fault : Fault) : String :=
  let place :=
    if fault.size = 1 then
      "byte 0x" ++ String.ofList (Text.hexPadded 2 fault.lead.toNat) ++
        s!" in position {fault.start}"
    else
      let last := fault.start + fault.size - 1
      s!"bytes in position {fault.start}-{last}"
  s!"'utf-8' codec can't decode {place}: {fault.reason.message}"

/-- Reads a text from `position` on; `skip` bytes still belong to the character last read. -/
def decodeFrom (position : Nat) (skip : Nat) (text : List Char) : Bytes → Except Fault (List Char)
  | [] => .ok text.reverse
  | lead :: rest =>
    match skip with
    | skip + 1 => decodeFrom (position + 1) skip text rest
    | 0 =>
      match decodeFirst (lead :: rest) with
      | some (c, size) => decodeFrom (position + 1) (size - 1) (c :: text) rest
      | none =>
        let (size, reason) := malformed (lead :: rest)
        .error ⟨position, size, lead, reason⟩

/-- The text that the bytes spell, or the first malformed sequence. -/
def decode (data : Bytes) : Except Fault (List Char) :=
  decodeFrom 0 0 [] data

/-- Reads a text with a replacement character for each malformed sequence; `skip` bytes are still
covered by the character last written. -/
def decodeReplacingFrom (skip : Nat) (text : List Char) : Bytes → List Char
  | [] => text.reverse
  | lead :: rest =>
    match skip with
    | skip + 1 => decodeReplacingFrom skip text rest
    | 0 =>
      match decodeFirst (lead :: rest) with
      | some (c, size) => decodeReplacingFrom (size - 1) (c :: text) rest
      | none =>
        decodeReplacingFrom ((malformed (lead :: rest)).1 - 1) (Char.ofNat 0xFFFD :: text) rest

/-- The text that the bytes spell, with U+FFFD for each malformed sequence. -/
def decodeReplacing (data : Bytes) : List Char :=
  decodeReplacingFrom 0 [] data

/-- The longest start of a text whose encoding has at most `budget` bytes. -/
def takeBytes (budget : Nat) : List Char → List Char
  | [] => []
  | c :: rest => if width c ≤ budget then c :: takeBytes (budget - width c) rest else []

end BinaryStrings.Utf8
