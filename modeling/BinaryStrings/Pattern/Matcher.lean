import BinaryStrings.Pattern.CharTest

/-!
# Matching

A matcher is a pattern whose options have been settled.  It runs on a place in a text with the
groups matched so far, and hands every way to match in turn to what has to match behind it; the
first way that succeeds there counts.  Repetition of something that matches without moving stops
after one round.
-/

namespace BinaryStrings.Pattern

/-- A pattern with settled options. -/
inductive Matcher where
  | empty
  | single (test : CharTest)
  | anchor (multiline ascii : Bool) (kind : Anchor)
  | seq (first rest : Matcher)
  | alt (first second : Matcher)
  | capture (index : Nat) (body : Matcher)
  | backReference (fold : Fold) (index : Nat)
  | atomic (body : Matcher)
  /-- Text ahead, or so many characters behind. -/
  | look (behind : Option Nat) (negated : Bool) (body : Matcher)
  | conditional (index : Nat) (yes no : Matcher)
  | repeated (least : Nat) (most : Option Nat) (greed : Greed) (body : Matcher)
  deriving DecidableEq, Repr

/-- The part of the text that a group has matched last: where it starts, the text from there on,
and where it stops once it is complete. -/
structure Span where
  start : Nat
  text : List Char
  stop : Option Nat
  deriving DecidableEq, Repr

/-- A place in a text and the groups matched before it. -/
structure Spot where
  /-- The characters before the place, latest first. -/
  before : List Char
  /-- The characters behind it. -/
  after : List Char
  /-- The number of characters before it. -/
  offset : Nat
  /-- The number of characters behind it. -/
  left : Nat
  groups : List (Nat × Span)
  deriving DecidableEq, Repr

/-- What has to match behind a pattern. -/
abbrev Rest := Spot → Option Spot

namespace Spot

/-- The start of a text. -/
def start (text : List Char) : Spot :=
  ⟨[], text, 0, text.length, []⟩

/-- One character further. -/
def forward (spot : Spot) : Spot :=
  match spot.after with
  | [] => spot
  | c :: after => ⟨c :: spot.before, after, spot.offset + 1, spot.left - 1, spot.groups⟩

/-- One character back. -/
def back (spot : Spot) : Spot :=
  match spot.before with
  | [] => spot
  | c :: before => ⟨before, c :: spot.after, spot.offset - 1, spot.left + 1, spot.groups⟩

/-- So many characters back. -/
def backBy : Nat → Spot → Spot
  | 0, spot => spot
  | n + 1, spot => backBy n spot.back

/-- Whether the next character passes a test. -/
def nextPasses (test : CharTest) (spot : Spot) : Bool :=
  match spot.after with
  | [] => false
  | c :: _ => test.accepts c

/-- The text of a group that is complete. -/
def groupText? (spot : Spot) (index : Nat) : Option (List Char) :=
  match spot.groups.lookup index with
  | some ⟨start, text, some stop⟩ => if stop < start then none else some (text.take (stop - start))
  | _ => none

/-- Replaces what is known of a group. -/
def setGroup (spot : Spot) (index : Nat) (span : Span) : Spot :=
  { spot with groups := (index, span) :: spot.groups.filter (·.1 != index) }

/-- Starts a group here. -/
def openGroup (spot : Spot) (index : Nat) : Spot :=
  let stop := (spot.groups.lookup index).bind (·.stop)
  spot.setGroup index ⟨spot.offset, spot.after, stop⟩

/-- Completes a group here. -/
def closeGroup (spot : Spot) (index : Nat) : Spot :=
  match spot.groups.lookup index with
  | some span => spot.setGroup index { span with stop := some spot.offset }
  | none => spot

/-- Whether a character is part of a word. -/
def isWord (ascii : Bool) (c : Option Char) : Bool :=
  match c with
  | some c => CharClass.word.holds ascii c
  | none => false

/-- Whether a word starts or ends here. -/
def atBoundary (ascii : Bool) (spot : Spot) : Bool :=
  isWord ascii spot.before.head? != isWord ascii spot.after.head?

/-- Whether an anchor holds here.  An empty text has neither boundaries nor places without one. -/
def holds (spot : Spot) (multiline ascii : Bool) : Anchor → Bool
  | .lineStart => spot.before.isEmpty || (multiline && spot.before.head? == some '\n')
  | .lineEnd =>
    spot.after.isEmpty || spot.after == ['\n'] || (multiline && spot.after.head? == some '\n')
  | .textStart => spot.before.isEmpty
  | .textEnd => spot.after.isEmpty
  | .wordBoundary => spot.atBoundary ascii
  | .noWordBoundary =>
    !(spot.before.isEmpty && spot.after.isEmpty) && !spot.atBoundary ascii

/-- The place behind a copy of a text. -/
def behindCopy? (fold : Fold) : List Char → Spot → Option Spot
  | [], spot => some spot
  | wanted :: rest, spot =>
    match spot.after with
    | [] => none
    | c :: _ =>
      if fold.lower c.toNat == fold.lower wanted.toNat then behindCopy? fold rest spot.forward
      else none

end Spot

/-- The first of two results that is one. -/
def orElse (first : Option Spot) (second : Unit → Option Spot) : Option Spot :=
  match first with
  | some spot => some spot
  | none => second ()

/-- Whether a count is below a bound. -/
def belowMost (count : Nat) (most : Option Nat) : Bool :=
  match most with
  | some most => count < most
  | none => true

/-! ## Repetition of one character -/

/-- Goes over characters that pass a test, `most` at most: the number of them and the place behind
them. -/
def overCopies (test : CharTest) : (most : Nat) → Nat → Spot → Nat × Spot
  | 0, count, spot => (count, spot)
  | most + 1, count, spot =>
    if spot.nextPasses test then overCopies test most (count + 1) spot.forward else (count, spot)

/-- Tries the rest here and at up to `n` places before. -/
def tryBackwards (rest : Rest) : (n : Nat) → Spot → Option Spot
  | 0, spot => rest spot
  | n + 1, spot => orElse (rest spot) fun _ => tryBackwards rest n spot.back

/-- Tries the rest here and behind up to `n` more characters that pass a test. -/
def tryForwards (test : CharTest) (rest : Rest) : (n : Nat) → Spot → Option Spot
  | 0, spot => rest spot
  | n + 1, spot =>
    orElse (rest spot) fun _ =>
      if spot.nextPasses test then tryForwards test rest n spot.forward else none

/-- The number of characters that a repetition of one can go over. -/
def reach (most : Option Nat) (spot : Spot) : Nat :=
  match most with
  | some most => min most spot.left
  | none => spot.left

/-- Repeats a test of one character. -/
def repeatTest (least : Nat) (most : Option Nat) (greed : Greed) (test : CharTest) (spot : Spot)
    (rest : Rest) : Option Spot :=
  match greed with
  | .greedy =>
    let (count, spot) := overCopies test (reach most spot) 0 spot
    if count < least then none else tryBackwards rest (count - least) spot
  | .possessive =>
    let (count, spot) := overCopies test (reach most spot) 0 spot
    if count < least then none else rest spot
  | .lazy =>
    let (count, spot') := overCopies test (min least spot.left) 0 spot
    if count < least then none else tryForwards test rest (reach most spot - count) spot'

/-! ## Repetition -/

/-- Repeats a body as often as possible.  `count` rounds have been made, and `last` is the place
where the latest of those beyond `least` started. -/
def repeatGreedy (body : Spot → Rest → Option Spot) (least : Nat) (most : Option Nat) :
    (fuel : Nat) → (count : Nat) → (last : Option Nat) → Spot → Rest → Option Spot
  | 0, _, _, spot, rest => rest spot
  | fuel + 1, count, last, spot, rest =>
    if count < least then
      body spot fun spot => repeatGreedy body least most fuel (count + 1) last spot rest
    else if belowMost count most && last != some spot.offset then
      let here := spot.offset
      orElse
        (body spot fun spot => repeatGreedy body least most fuel (count + 1) (some here) spot rest)
        fun _ => rest spot
    else rest spot

/-- Repeats a body as seldom as possible. -/
def repeatLazy (body : Spot → Rest → Option Spot) (least : Nat) (most : Option Nat) :
    (fuel : Nat) → (count : Nat) → (last : Option Nat) → Spot → Rest → Option Spot
  | 0, _, _, _, _ => none
  | fuel + 1, count, last, spot, rest =>
    if count < least then
      body spot fun spot => repeatLazy body least most fuel (count + 1) last spot rest
    else
      let here := spot.offset
      orElse (rest spot) fun _ =>
        if belowMost count most && last != some here then
          body spot fun spot => repeatLazy body least most fuel (count + 1) (some here) spot rest
        else none

/-- Repeats the first way of a body to match as often as possible; nothing when that is fewer than
`least` times. -/
def repeatPossessive (body : Spot → Rest → Option Spot) (least : Nat) (most : Option Nat) :
    (fuel : Nat) → (count : Nat) → Spot → Option Spot
  | 0, _, spot => some spot
  | fuel + 1, count, spot =>
    if count < least || belowMost count most then
      match body spot some with
      | some next =>
        if least ≤ count && next == spot then some spot
        else repeatPossessive body least most fuel (count + 1) next
      | none => if count < least then none else some spot
    else some spot

/-- Repeats a body. -/
def repeatBody (least : Nat) (most : Option Nat) (greed : Greed)
    (body : Spot → Rest → Option Spot) (spot : Spot) (rest : Rest) : Option Spot :=
  let fuel := least + 2 * spot.left + 3
  match greed with
  | .greedy => repeatGreedy body least most fuel 0 none spot rest
  | .lazy => repeatLazy body least most fuel 0 none spot rest
  | .possessive => (repeatPossessive body least most fuel 0 spot).bind rest

/-! ## Running -/

/-- Runs a matcher at a place, with what has to match behind it. -/
def Matcher.run : Matcher → Spot → Rest → Option Spot
  | .empty, spot, rest => rest spot
  | .single test, spot, rest => if spot.nextPasses test then rest spot.forward else none
  | .anchor multiline ascii kind, spot, rest =>
    if spot.holds multiline ascii kind then rest spot else none
  | .seq first second, spot, rest => first.run spot fun spot => second.run spot rest
  | .alt first second, spot, rest =>
    orElse (first.run spot rest) fun _ => second.run spot rest
  | .capture index body, spot, rest =>
    body.run (spot.openGroup index) fun spot => rest (spot.closeGroup index)
  | .backReference fold index, spot, rest =>
    match spot.groupText? index with
    | some text => (spot.behindCopy? fold text).bind rest
    | none => none
  | .atomic body, spot, rest => (body.run spot some).bind rest
  | .look behind negated body, spot, rest =>
    let back := behind.getD 0
    let found := if spot.offset < back then none else body.run (spot.backBy back) some
    match negated, found with
    | false, some inner => rest { spot with groups := inner.groups }
    | false, none => none
    | true, some _ => none
    | true, none => rest spot
  | .conditional index yes no, spot, rest =>
    if (spot.groupText? index).isSome then yes.run spot rest else no.run spot rest
  | .repeated least most greed (.single test), spot, rest =>
    repeatTest least most greed test spot rest
  | .repeated least most greed body, spot, rest =>
    repeatBody least most greed (fun spot rest => body.run spot rest) spot rest

/-- Whether a matcher matches at a place or at one of the `further` places behind it. -/
def Matcher.matchesFrom (matcher : Matcher) : (further : Nat) → Spot → Bool
  | 0, spot => (matcher.run spot some).isSome
  | further + 1, spot =>
    (matcher.run spot some).isSome || matcher.matchesFrom further spot.forward

/-- Whether a matcher matches somewhere in a text. -/
def Matcher.matchesIn (matcher : Matcher) (text : List Char) : Bool :=
  matcher.matchesFrom text.length (.start text)

end BinaryStrings.Pattern
