import BinaryStrings.Pattern.Tree

/-!
# Alternatives as classes

Alternatives that each match one character by code point or class are one class.  Before that,
groups without options or index are opened up, and what all alternatives start with is taken out in
front of them.
-/

namespace BinaryStrings.Pattern

/-- Whether an item matches one way only, so that it can be taken out of alternatives. -/
def Tree.isPlain : Tree → Bool
  | .point _ | .notPoint _ | .anyChar | .oneOf _ _ | .anchor _ | .backReference _ => true
  | _ => false

/-- The item that all alternatives start with. -/
def commonStart? (alternatives : List (List Tree)) : Option Tree :=
  match alternatives with
  | (item :: _) :: rest =>
    if item.isPlain && rest.all (·.head? == some item) then some item else none
  | _ => none

/-- Takes out common starts, at most so many. -/
def takeStarts : (fuel : Nat) → List (List Tree) → List Tree × List (List Tree)
  | 0, alternatives => ([], alternatives)
  | fuel + 1, alternatives =>
    match commonStart? alternatives with
    | some item =>
      let (starts, rest) := takeStarts fuel (alternatives.map (·.drop 1))
      (item :: starts, rest)
    | none => ([], alternatives)

/-- The items of a class that an alternative is. -/
def classOf? : List Tree → Option (List ClassItem)
  | [.point n] => some [.point n]
  | [.oneOf false items] => some items
  | _ => none

/-- Alternatives as one tree. -/
def branch : List (List Tree) → Tree
  | [] => .empty
  | [one] => .ofItems one
  | one :: rest => .alt (.ofItems one) (branch rest)

/-- Joins alternatives to a list of items. -/
def joinAlternatives (alternatives : List (List Tree)) : List Tree :=
  let longest := (alternatives.map List.length).foldl max 0
  let (starts, rest) := takeStarts longest alternatives
  match rest.mapM classOf? with
  | some classes => starts ++ [.oneOf false classes.flatten.eraseDups]
  | none => starts ++ [branch rest]

/-- The items of what is one alternative, or several of them joined. -/
def joined : List (List Tree) → List Tree
  | [one] => one
  | alternatives => joinAlternatives alternatives

/-- The alternatives of a chain of them, each merged; a pattern of another kind is one. -/
def Tree.alternatives : Tree → List (List Tree)
  | .empty => [[]]
  | .seq first rest => [joined first.alternatives ++ joined rest.alternatives]
  | .alt first second => joined first.alternatives :: second.alternatives
  | .group none on off body =>
    let items := joined body.alternatives
    if on.isEmpty && off.isEmpty then [items] else [[.group none on off (.ofItems items)]]
  | .group (some index) on off body =>
    [[.group (some index) on off (.ofItems (joined body.alternatives))]]
  | .atomic body => [[.atomic (.ofItems (joined body.alternatives))]]
  | .look behind negated body => [[.look behind negated (.ofItems (joined body.alternatives))]]
  | .conditional index yes no =>
    [[.conditional index (.ofItems (joined yes.alternatives)) (.ofItems (joined no.alternatives))]]
  | .repeated least most greed body =>
    [[.repeated least most greed (.ofItems (joined body.alternatives))]]
  | item => [[item]]

/-- The items of a pattern, merged. -/
def Tree.items (tree : Tree) : List Tree :=
  joined tree.alternatives

/-- A pattern with alternatives merged into classes where they are. -/
def Tree.merged (tree : Tree) : Tree :=
  .ofItems tree.items

end BinaryStrings.Pattern
