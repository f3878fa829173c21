import BinaryStrings.Pattern.Error
import BinaryStrings.Pattern.Matcher
import BinaryStrings.Pattern.Merge
import BinaryStrings.Pattern.Width

/-!
# Settling options

Turns a pattern into a matcher: every part gets the options in force where it stands.  Look-behind
needs a fixed width, and template mode has no repetition.
-/

namespace BinaryStrings.Pattern

/-- How case is disregarded under some options. -/
def Flags.fold (flags : Flags) : Fold :=
  if !flags.ignoreCase then .exact else if flags.unicode then .unicode else .ascii

/-- Look-behind counts characters up to this number. -/
def mostBehind : Nat := Nat.pow 2 32 - 1

/-- Look-behind works below this number of characters. -/
def behindLimit : Nat := Nat.pow 2 31

/-- One matcher behind another. -/
def Matcher.followedBy (first : Matcher) : Matcher → Matcher
  | .empty => first
  | rest => .seq first rest

/-- The matcher of a pattern under some options, given the widths of all groups. -/
def Tree.matcher (known : GroupWidths) (flags : Flags) : Tree → Except Error Matcher
  | .empty => .ok .empty
  | .seq first rest => do
    let first ← first.matcher known flags
    let rest ← rest.matcher known flags
    return first.followedBy rest
  | .alt first second => do
    let first ← first.matcher known flags
    let second ← second.matcher known flags
    return .alt first second
  | .point n => .ok (.single (.point flags.fold n))
  | .notPoint n => .ok (.single (.notPoint flags.fold n))
  | .anyChar => .ok (.single (if flags.dotAll then .any else .notLineFeed))
  | .oneOf negated items => .ok (.single (.oneOf flags.fold (!flags.unicode) negated items))
  | .anchor kind => .ok (.anchor flags.multiline (!flags.unicode) kind)
  | .backReference index => .ok (.backReference flags.fold index)
  | .group index on off body => do
    let body ← body.matcher known (flags.inside on off)
    match index with
    | some index => return .capture index body
    | none => return body
  | .atomic body => do return .atomic (← body.matcher known flags)
  | .look behind negated body => do
    let width := (body.width known).1
    if behind && mostBehind < width.least then throw .lookBehindTooLong
    else if behind && width.least != width.most then throw .lookBehindVaries
    else
      let body ← body.matcher known flags
      return .look (if behind then some width.least else none) negated body
  | .conditional index yes no => do
    let yes ← yes.matcher known flags
    let no ← no.matcher known flags
    return .conditional index yes no
  | .repeated least most greed body => do
    if flags.template then throw (.repeatInTemplate greed)
    else
      let body ← body.matcher known flags
      return .repeated least most greed body

/-- Whether every look-behind of a matcher is short enough to work. -/
def Matcher.looksNear : Matcher → Bool
  | .seq first rest => first.looksNear && rest.looksNear
  | .alt first second => first.looksNear && second.looksNear
  | .capture _ body => body.looksNear
  | .atomic body => body.looksNear
  | .look behind _ body => behind.getD 0 < behindLimit && body.looksNear
  | .conditional _ yes no => yes.looksNear && no.looksNear
  | .repeated _ _ _ body => body.looksNear
  | _ => true

/-- The matcher of a whole pattern. -/
def Tree.settle (flags : Flags) (tree : Tree) : Except Error Matcher := do
  let known := (tree.width []).2
  let matcher ← tree.merged.matcher known flags
  if matcher.looksNear then return matcher else throw .lookBehindNotCoded

end BinaryStrings.Pattern
