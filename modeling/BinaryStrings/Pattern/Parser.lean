import BinaryStrings.Pattern.BracketedClass

/-!
# Pattern parser

Reads the text of a pattern into its tree.  `readAlternatives` reads up to the end of a group,
`readItems` up to the end of an alternative; the fuel they share is more than the number of their
steps, as nearly every step takes a token.  Groups are numbered by their opening parentheses.

A group within a group is read by calls within calls, of which there may not be too many.
-/

namespace BinaryStrings.Pattern

open Reading

/-! ## Options -/

/-- The option of a letter. -/
def flagOf? (token : Token) : Option Flags :=
  match token with
  | .char 'i' => some { Flags.none with ignoreCase := true }
  | .char 'm' => some { Flags.none with multiline := true }
  | .char 's' => some { Flags.none with dotAll := true }
  | .char 'x' => some { Flags.none with verbose := true }
  | .char 'a' => some { Flags.none with ascii := true }
  | .char 'u' => some { Flags.none with unicode := true }
  | .char 't' => some { Flags.none with template := true }
  | _ => none

/-- Whether a token is a letter. -/
def isLetterToken : Token → Bool
  | .char c => Unicode.isLetter c
  | .escape _ => false

/-- Refuses a token that is no option; `missing` is what should have been there. -/
def refuseFlag {α : Type} (token : Token) (missing : Mistake) : Reading α :=
  failBack (if isLetterToken token then .unknownFlag else missing) token.length

/-- Reads the options to turn on from the letter `token` on.  The answer has the character behind
them. -/
def flagsOn : (fuel : Nat) → (on : Flags) → Token → Reading (Flags × Token)
  | 0, on, token => return (on, token)
  | fuel + 1, on, token => do
    if token == .char 'L' then failBack .localeFlag 0
    else
      match flagOf? token with
      | none => refuseFlag token .noFlagsEnd
      | some flag =>
        let on := on.union flag
        if (flag.ascii || flag.unicode) && on.ascii && on.unicode then failBack .incompatibleFlags 0
        else
          match ← next with
          | none => failBack .noFlagsEnd 0
          | some token =>
            if token == .char ')' || token == .char '-' || token == .char ':' then return (on, token)
            else flagsOn fuel on token

/-- Reads the options to turn off from the letter `token` on, and the colon behind them. -/
def flagsOff (missing : Mistake) : (fuel : Nat) → (off : Flags) → Token → Reading Flags
  | 0, off, _ => return off
  | fuel + 1, off, token => do
    if token == .char 'L' then failBack .charactersTurnedOff 0
    else
      match flagOf? token with
      | none => refuseFlag token missing
      | some flag =>
        if flag.ascii || flag.unicode then failBack .charactersTurnedOff 0
        else
          let off := off.union flag
          match ← next with
          | none => failBack .noColon 0
          | some token =>
            if token == .char ':' then return off else flagsOff .noColon fuel off token

/-- Reads options from the token behind the question mark on: those to turn on and off in a group,
or nothing when they hold for the whole pattern. -/
def readFlags (token : Token) : Reading (Option (Flags × Flags)) := do
  let fuel := (← get).rest.length + 2
  let (on, closing) ←
    if token == .char '-' then pure (Flags.none, token) else flagsOn fuel .none token
  if closing == .char ')' then
    modify fun cursor => { cursor with flags := cursor.flags.union on }
    return none
  else if on.template then failBack .templateTurnedOn 1
  else
    let off ←
      if closing == .char '-' then do
        match ← next with
        | none => failBack .noFlag 0
        | some token => flagsOff .noFlag fuel .none token
      else pure Flags.none
    if off.template then failBack .templateTurnedOff 1
    else if !(on.inter off).isEmpty then failBack .onAndOff 1
    else return some (on, off)

/-! ## Repetition -/

/-- Repetitions count below this. -/
def countLimit : Nat := 4294967295

/-- How often something is repeated, without bound when there is no `most`. -/
structure Counts where
  least : Nat
  most : Option Nat
  deriving DecidableEq, Repr

/-- The number that digits spell, none for no digits. -/
def countOf? (digits : List Char) : Reading (Option Nat) := do
  if digits.isEmpty then return none
  else
    let n := Numeral.valueOf 10 digits
    if countLimit ≤ n then throw .countTooLarge else return some n

/-- Reads counts in braces from behind the opening one.  Braces that hold something else stand for
themselves; the reader is then left behind the opening one. -/
def readCounts : Reading (Option Counts) := do
  let start ← get
  if (← peek) == some (.char '}') then return none
  else
    let low ← takeWhile Char.isDigit start.rest.length
    let high ← if ← accept ',' then takeWhile Char.isDigit start.rest.length else pure low
    if !(← accept '}') then
      set start
      return none
    else
      let least ← countOf? low
      match ← countOf? high with
      | none => return some ⟨least.getD 0, none⟩
      | some most =>
        if most < least.getD 0 then failAt .countsReversed start.position
        else return some ⟨least.getD 0, some most⟩

/-- Reads the counts of a quantifier from behind its first character; nothing when the character
stands for itself. -/
def quantifier (c : Char) : Reading (Option Counts) :=
  match c with
  | '?' => return some ⟨0, some 1⟩
  | '*' => return some ⟨0, none⟩
  | '+' => return some ⟨1, none⟩
  | _ => readCounts

/-- Reads how a repetition goes about its count. -/
def readGreed : Reading Greed := do
  if ← accept '?' then return .lazy
  else if ← accept '+' then return .possessive
  else return .greedy

/-- Repeats an item; anchors and repetitions cannot be repeated.  `start` is the place of the
quantifier. -/
def repeatItem (start : Nat) (counts : Counts) (item : Option Tree) : Reading Tree := do
  match item with
  | none => failAt .nothingToRepeat start
  | some (.anchor _) => failAt .nothingToRepeat start
  | some (.repeated ..) => failAt .repeatedTwice start
  | some item => return .repeated counts.least counts.most (← readGreed) item

/-! ## Names and comments -/

/-- Skips to behind the end of a comment of a group that starts at `start`. -/
def skipComment (start : Nat) : (fuel : Nat) → Reading Unit
  | 0 => failAt .unfinishedComment start
  | fuel + 1 => do
    match ← peek with
    | none => failAt .unfinishedComment start
    | some token =>
      let _ ← next
      if token == .char ')' then return else skipComment start fuel

/-- Skips to behind the end of the line. -/
def skipLine : (fuel : Nat) → Reading Unit
  | 0 => return
  | fuel + 1 => do
    match ← next with
    | none => return
    | some token => if token == .char '\n' then return else skipLine fuel

/-- Blanks that verbose patterns skip. -/
def isPatternBlank (c : Char) : Bool :=
  c == ' ' || (0x09 ≤ c.toNat && c.toNat ≤ 0x0D)

/-- Group numbers in conditions stay below this. -/
def groupLimit : Nat := 1073741823

/-- Reads the group that a condition asks for from behind its opening parenthesis. -/
def readCondition : Reading Nat := do
  let chars ← name ')' "group name"
  let size := chars.length + 1
  if Unicode.isName chars then groupNamed chars
  else
    let text := String.ofList chars
    match Numeral.read .decimal text with
    | .error _ => failBack (.badGroupName text) size
    | .ok n =>
      if n < 0 then failBack (.badGroupName text) size
      else if n = 0 then failBack .groupZero size
      else if (groupLimit : Int) ≤ n then failBack (.noSuchGroup n.toNat) size
      else
        noteCondition n.toNat ((← get).position - size)
        return n.toNat

/-- A reference to a named group, read from behind the equals sign. -/
def namedReference : Reading Tree := do
  let chars ← name ')' "group name"
  checkName chars
  let index ← groupNamed chars
  if !(← get).closed.contains index then failBack .groupOpen (chars.length + 1)
  else
    checkLookBehind index
    return .backReference index

/-! ## Groups -/

/-- What an opening parenthesis starts. -/
inductive Opening where
  /-- Nothing that matches: a comment, or options for the whole pattern. -/
  | nothing
  | wholeFlags
  | reference (item : Tree)
  | capture (name : Option (List Char))
  | plain (on off : Flags)
  | atomic
  | look (behind negated : Bool)
  | conditional

/-- Reads what a question mark with a `P` behind it starts. -/
def readNamedOpening : Reading Opening := do
  if ← accept '<' then
    let chars ← name '>' "group name"
    checkName chars
    return .capture (some chars)
  else if ← accept '=' then return .reference (← namedReference)
  else
    match ← next with
    | none => failBack .unexpectedEnd 0
    | some token => failBack (.unknownExtension ("P" ++ token.text)) (token.length + 2)

/-- Reads what a look-behind sign starts. -/
def readLookBehind : Reading Opening := do
  match ← next with
  | none => failBack .unexpectedEnd 0
  | some (.char '=') => return .look true false
  | some (.char '!') => return .look true true
  | some token => failBack (.unknownExtension ("<" ++ token.text)) (token.length + 2)

/-- Reads what the parenthesis at `start` opens, from behind it. -/
def readOpening (start : Nat) : Reading Opening := do
  if !(← accept '?') then return .capture none
  else
    match ← next with
    | none => failBack .unexpectedEnd 0
    | some (.char 'P') => readNamedOpening
    | some (.char ':') => return .plain .none .none
    | some (.char '#') =>
      skipComment start ((← get).rest.length + 1)
      return .nothing
    | some (.char '=') => return .look false false
    | some (.char '!') => return .look false true
    | some (.char '<') => readLookBehind
    | some (.char '(') => return .conditional
    | some (.char '>') => return .atomic
    | some token =>
      if token == .char '-' || token == .char 'L' || (flagOf? token).isSome then
        match ← readFlags token with
        | none => return .wholeFlags
        | some (on, off) => return .plain on off
      else failBack (.unknownExtension token.text) (token.length + 1)

/-- Takes the closing parenthesis of a group that starts at `start`. -/
def closing (start : Nat) : Reading Unit := do
  if !(← accept ')') then failAt .unfinishedGroup start

/-- The alternatives of several sequences. -/
def alternatives : List Tree → Tree
  | [] => .empty
  | [one] => one
  | one :: rest => .alt one (alternatives rest)

/-- At most so many calls are made within each other, of a thousand with those that are made before. -/
def mostCalls : Nat := 992

/-- Makes a call when `calls` may still be made within each other; the answer is how many of them are
left then. -/
def enter : (calls : Nat) → Reading Nat
  | 0 => throw .tooDeep
  | calls + 1 => return calls

mutual

/-- Reads alternatives up to the end of a group, or of the pattern when `outermost`; `read` are
those before, latest first. -/
def readAlternatives : (fuel calls : Nat) → (verbose outermost : Bool) → (read : List Tree) →
    Reading Tree
  | 0, _, _, _, _ => failBack .unexpectedEnd 0
  | fuel + 1, calls, verbose, outermost, read => do
    let left ← enter calls
    let item ← readItems fuel left verbose (outermost && read.isEmpty) []
    let read := item :: read
    if ← accept '|' then
      let flags := (← get).flags
      readAlternatives fuel calls (if outermost then flags.verbose else verbose) outermost read
    else return alternatives read.reverse
termination_by structural fuel => fuel

/-- Reads the items of one alternative; `read` are those before, latest first.  Options for the
whole pattern may stand at the start of its first alternative. -/
def readItems : (fuel calls : Nat) → (verbose first : Bool) → (read : List Tree) → Reading Tree
  | 0, _, _, _, _ => failBack .unexpectedEnd 0
  | fuel + 1, calls, verbose, first, read => do
    let left ← enter calls
    let start := (← get).position
    match ← peek with
    | none => return .ofItems read.reverse
    | some (.escape c) =>
      let _ ← next
      readItems fuel calls verbose first ((← escapeOutside c) :: read)
    | some (.char c) =>
      if c == '|' || c == ')' then return .ofItems read.reverse
      else
        let _ ← next
        if verbose && isPatternBlank c then readItems fuel calls verbose first read
        else if verbose && c == '#' then
          skipLine ((← get).rest.length + 1)
          readItems fuel calls verbose first read
        else if c == '[' then
          readItems fuel calls verbose first ((← readClass start) :: read)
        else if c == '*' || c == '+' || c == '?' || c == '{' then
          match ← quantifier c with
          | none => readItems fuel calls verbose first (.point c.toNat :: read)
          | some counts =>
            readItems fuel calls verbose first ((← repeatItem start counts read.head?) :: read.drop 1)
        else if c == '.' then readItems fuel calls verbose first (.anyChar :: read)
        else if c == '^' then readItems fuel calls verbose first (.anchor .lineStart :: read)
        else if c == '$' then readItems fuel calls verbose first (.anchor .lineEnd :: read)
        else if c == '(' then
          match ← readOpening start with
          | .nothing => readItems fuel calls verbose first read
          | .wholeFlags =>
            if first && read.isEmpty then readItems fuel calls (← get).flags.verbose first read
            else failAt .flagsNotAtStart start
          | .reference item => readItems fuel calls verbose first (item :: read)
          | opening =>
            readItems fuel calls verbose first ((← readGroup fuel left verbose start opening) :: read)
        else readItems fuel calls verbose first (.point c.toNat :: read)
termination_by structural fuel => fuel

/-- Reads the body of a group that starts at `start`, and its closing parenthesis. -/
def readGroup : (fuel calls : Nat) → (verbose : Bool) → (start : Nat) → Opening → Reading Tree
  | 0, _, _, _, _ => failBack .unexpectedEnd 0
  | fuel + 1, calls, verbose, start, opening => do
    match opening with
    | .nothing => return .empty
    | .wholeFlags => return .empty
    | .reference item => return item
    | .capture name =>
      let index ← openGroup name
      let body ← readAlternatives fuel calls verbose false []
      closing start
      closeGroup index
      return .group (some index) .none .none body
    | .plain on off =>
      let verbose := (verbose || on.verbose) && !off.verbose
      let body ← readAlternatives fuel calls verbose false []
      closing start
      return .group none on off body
    | .atomic =>
      let body ← readAlternatives fuel calls verbose false []
      closing start
      return .atomic body
    | .look behind negated =>
      let outer := (← get).groupsBefore
      if behind && outer.isNone then
        modify fun cursor => { cursor with groupsBefore := some cursor.groups }
      let body ← readAlternatives fuel calls verbose false []
      modify fun cursor => { cursor with groupsBefore := outer }
      closing start
      return .look behind negated body
    | .conditional =>
      let index ← readCondition
      checkLookBehind index
      let yes ← readItems fuel calls verbose false []
      let no ←
        if ← accept '|' then do
          let no ← readItems fuel calls verbose false []
          if (← peek) == some (.char '|') then failBack .tooManyBranches 0 else pure no
        else pure Tree.empty
      closing start
      return .conditional index yes no
termination_by structural fuel => fuel

end

/-! ## Whole patterns -/

/-- The place before a text. -/
def Cursor.start (characters : Unicode.CharacterNames) (flags : Flags) (text : List Char) : Cursor :=
  ⟨characters, text, 0, flags, [], 1, [], none, []⟩

/-- The options of a whole pattern, with a character set: Unicode unless ASCII is asked for. -/
def settledFlags (flags : Flags) : Reading Flags :=
  if !flags.ascii then return { flags with unicode := true }
  else if flags.unicode then throw .characterSetsConflict
  else return flags

/-- Refuses a condition on a group that the pattern does not have. -/
def checkConditions : Reading Unit := do
  let cursor ← get
  match cursor.conditions.find? (fun condition => cursor.groups ≤ condition.1) with
  | some (index, position) => failAt (.noSuchGroup index) position
  | none => return

/-- Reads a whole pattern and the options in force at its start. -/
def readWhole : Reading (Flags × Tree) := do
  let start ← get
  moveTo start.rest start.position
  let tree ← readAlternatives (4 * start.rest.length + 8) mostCalls start.flags.verbose true []
  let flags ← settledFlags (← get).flags
  if (← peek).isSome then failBack .unbalanced 0
  else
    checkConditions
    return (flags, tree)

/-- The tree of a pattern and the options in force at its start, some of which may be given. -/
def parse (characters : Unicode.CharacterNames) (flags : Flags) (text : List Char) :
    Except Error (Flags × Tree) :=
  readWhole.run' (.start characters flags text)

end BinaryStrings.Pattern
