import BinaryStrings.Proofs.Pattern.Merging

/-!
# Matching with other numbers

A pattern whose groups have other numbers means the same: its alternatives are merged in the same way,
it is as wide, it gets the same matcher up to the numbers, and that matches in the same places.

Main results:

- Theorem `Tree.items_renumber`: alternatives are merged in the same way.
- Theorem `Matcher.run_renumber`: the matcher does the same.
-/

namespace BinaryStrings.Pattern

/-! ## Merging -/

section Merging

variable {f : Nat → Nat}

/-- What matches one way only does so under all numbers. -/
theorem Tree.isPlain_renumber (tree : Tree) : (tree.renumber f).isPlain = tree.isPlain := by
  cases tree <;> rfl

/-- What several alternatives start with is found again under other numbers. -/
theorem commonStart?_renumber (hf : Function.Injective f) (alternatives : List (List Tree)) :
    commonStart? (alternatives.map (·.map (Tree.renumber f))) =
      (commonStart? alternatives).map (Tree.renumber f) := by
  match alternatives with
  | [] => rfl
  | [] :: _ => rfl
  | (item :: _) :: rest =>
    have hall : (rest.map (·.map (Tree.renumber f))).all (·.head? == some (item.renumber f)) =
        rest.all (·.head? == some item) := by
      rw [List.all_map]
      refine congrArg rest.all (funext fun alternative => ?_)
      rw [Function.comp_apply, List.head?_map, Bool.eq_iff_iff, beq_iff_eq, beq_iff_eq,
        ← Option.map_some, (Option.map_injective (Tree.renumber_injective hf)).eq_iff]
    simp only [List.map_cons, commonStart?, Tree.isPlain_renumber, hall]
    split <;> rfl

/-- So is all that they start with, one thing behind the other. -/
theorem takeStarts_renumber (hf : Function.Injective f) (fuel : Nat)
    (alternatives : List (List Tree)) :
    takeStarts fuel (alternatives.map (·.map (Tree.renumber f))) =
      ((takeStarts fuel alternatives).1.map (Tree.renumber f),
        (takeStarts fuel alternatives).2.map (·.map (Tree.renumber f))) := by
  induction fuel generalizing alternatives with
  | zero => rfl
  | succ fuel ih =>
    have hdrop : (alternatives.map (·.map (Tree.renumber f))).map (·.drop 1) =
        (alternatives.map (·.drop 1)).map (·.map (Tree.renumber f)) := by
      simp [Function.comp_def]
    rw [takeStarts, takeStarts, commonStart?_renumber hf]
    cases commonStart? alternatives with
    | none => rfl
    | some item =>
      simp only [Option.map_some, hdrop, ih]
      rfl

/-- An alternative that is a class has no groups. -/
theorem classOf?_renumber (items : List Tree) :
    classOf? (items.map (Tree.renumber f)) = classOf? items := by
  match items with
  | [] => rfl
  | [item] => cases item <;> rfl
  | _ :: _ :: _ => simp [classOf?]

/-- Alternatives make one tree under all numbers. -/
theorem branch_renumber (alternatives : List (List Tree)) :
    branch (alternatives.map (·.map (Tree.renumber f))) = (branch alternatives).renumber f := by
  match alternatives with
  | [] => rfl
  | [one] => exact (Tree.renumber_ofItems one).symm
  | one :: other :: rest =>
    have hrest : branch ((other :: rest).map (·.map (Tree.renumber f))) = _ :=
      branch_renumber (other :: rest)
    simp only [List.map_cons] at hrest
    simp only [List.map_cons, branch, Tree.renumber, Tree.renumber_ofItems, hrest]

/-- They are joined alike to a list of items. -/
theorem joinAlternatives_renumber (hf : Function.Injective f) (alternatives : List (List Tree)) :
    joinAlternatives (alternatives.map (·.map (Tree.renumber f))) =
      (joinAlternatives alternatives).map (Tree.renumber f) := by
  have hlengths : (alternatives.map (·.map (Tree.renumber f))).map List.length =
      alternatives.map List.length := by
    simp [Function.comp_def]
  have hclasses : ∀ rest : List (List Tree),
      (rest.map (·.map (Tree.renumber f))).mapM classOf? = rest.mapM classOf? := by
    intro rest
    induction rest with
    | nil => rfl
    | cons items rest ih => simp only [List.map_cons, List.mapM_cons, classOf?_renumber, ih]
  simp only [joinAlternatives, hlengths, takeStarts_renumber hf, hclasses]
  split <;> simp [branch_renumber, Tree.renumber]

/-- So is a single alternative. -/
theorem joined_renumber (hf : Function.Injective f) (alternatives : List (List Tree)) :
    joined (alternatives.map (·.map (Tree.renumber f))) =
      (joined alternatives).map (Tree.renumber f) := by
  match alternatives with
  | [one] => rfl
  | [] => exact joinAlternatives_renumber hf []
  | one :: other :: rest => exact joinAlternatives_renumber hf (one :: other :: rest)

/-- Alternatives are merged in the same way. -/
theorem Tree.alternatives_renumber (hf : Function.Injective f) (tree : Tree) :
    (tree.renumber f).alternatives = tree.alternatives.map (·.map (Tree.renumber f)) := by
  induction tree with
  | seq first rest ihFirst ihRest =>
    simp only [renumber, alternatives, ihFirst, ihRest, joined_renumber hf, List.map_cons,
      List.map_nil, List.map_append]
  | alt first second ihFirst ihSecond =>
    simp only [renumber, alternatives, ihFirst, ihSecond, joined_renumber hf, List.map_cons]
  | group index on off body ih =>
    cases index with
    | none =>
      simp only [renumber, Option.map_none, alternatives, ih, joined_renumber hf]
      split <;> simp [renumber, renumber_ofItems]
    | some index =>
      simp only [renumber, Option.map_some, alternatives, ih, joined_renumber hf, List.map_cons,
        List.map_nil, renumber_ofItems]
  | atomic body ih =>
    simp only [renumber, alternatives, ih, joined_renumber hf, List.map_cons, List.map_nil,
      renumber_ofItems]
  | look behind negated body ih =>
    simp only [renumber, alternatives, ih, joined_renumber hf, List.map_cons, List.map_nil,
      renumber_ofItems]
  | conditional index yes no ihYes ihNo =>
    simp only [renumber, alternatives, ihYes, ihNo, joined_renumber hf, List.map_cons,
      List.map_nil, renumber_ofItems]
  | repeated least most greed body ih =>
    simp only [renumber, alternatives, ih, joined_renumber hf, List.map_cons, List.map_nil,
      renumber_ofItems]
  | _ => rfl

/-- The items of a pattern are the same. -/
theorem Tree.items_renumber (hf : Function.Injective f) (tree : Tree) :
    (tree.renumber f).items = tree.items.map (Tree.renumber f) := by
  rw [items, alternatives_renumber hf, joined_renumber hf]
  rfl

end Merging

/-! ## Widths -/

section Widths

variable {f : Nat → Nat} {p : Nat → Prop} {known known' : GroupWidths}

/-- The widths of the groups are the same under the new numbers. -/
def Agree (p : Nat → Prop) (f : Nat → Nat) (known known' : GroupWidths) : Prop :=
  ∀ index, p index → known'.lookup (f index) = known.lookup index

/-- The width of a pattern is the same, and so are the widths of its groups. -/
theorem Tree.width_renumber (hf : Function.Injective f) {tree : Tree} (htree : tree.Refers p)
    (h : Agree p f known known') :
    ((tree.renumber f).width known').1 = (tree.width known).1 ∧
      Agree p f (tree.width known).2 ((tree.renumber f).width known').2 := by
  induction tree generalizing known known' with
  | seq first rest ihFirst ihRest =>
    obtain ⟨hfirst, h₁⟩ := ihFirst htree.1 h
    obtain ⟨hrest, h₂⟩ := ihRest htree.2 h₁
    exact ⟨congrArg₂ Width.add hfirst hrest, h₂⟩
  | alt first second ihFirst ihSecond =>
    obtain ⟨hfirst, h₁⟩ := ihFirst htree.1 h
    obtain ⟨hsecond, h₂⟩ := ihSecond htree.2 h₁
    exact ⟨congrArg₂ Width.either hfirst hsecond, h₂⟩
  | backReference index => exact ⟨congrArg (·.getD .zero) (h index htree), h⟩
  | group index on off body ih =>
    obtain ⟨hbody, h₁⟩ := ih htree.2 h
    cases index with
    | none => exact ⟨hbody, h₁⟩
    | some index =>
      refine ⟨hbody, fun other hother => ?_⟩
      simp only [renumber, Option.map_some, width, List.lookup_cons, hf.beq_eq, hbody,
        h₁ other hother]
  | atomic body ih => exact ih htree h
  | look behind negated body ih => exact ⟨rfl, (ih htree h).2⟩
  | conditional index yes no ihYes ihNo =>
    obtain ⟨hyes, h₁⟩ := ihYes htree.1 h
    obtain ⟨hno, h₂⟩ := ihNo htree.2 h₁
    exact ⟨congrArg₂ Width.either hyes hno, h₂⟩
  | repeated least most greed body ih =>
    obtain ⟨hbody, h₁⟩ := ih htree h
    exact ⟨congrArg (Width.times least most) hbody, h₁⟩
  | _ => exact ⟨rfl, h⟩

/-- Only the widths of groups of the pattern are added. -/
theorem Tree.lookup_width {index : Nat} {tree : Tree} (h : tree.Refers (· ≠ index)) :
    (tree.width known).2.lookup index = known.lookup index := by
  induction tree generalizing known with
  | seq first rest ihFirst ihRest => exact (ihRest h.2).trans (ihFirst h.1)
  | alt first second ihFirst ihSecond => exact (ihSecond h.2).trans (ihFirst h.1)
  | group other on off body ih =>
    cases other with
    | none => exact ih h.2
    | some other =>
      have hother : other ≠ index := h.1 other rfl
      simp only [width, List.lookup_cons, beq_false_of_ne hother.symm]
      exact ih h.2
  | atomic body ih => exact ih h
  | look behind negated body ih => exact ih h
  | conditional index yes no ihYes ihNo => exact (ihNo h.2).trans (ihYes h.1)
  | repeated least most greed body ih => exact ih h
  | _ => rfl

end Widths

/-! ## Matchers -/

namespace Matcher

/-- The matcher with other numbers for its groups. -/
def renumber (f : Nat → Nat) : Matcher → Matcher
  | .seq first rest => .seq (first.renumber f) (rest.renumber f)
  | .alt first second => .alt (first.renumber f) (second.renumber f)
  | .capture index body => .capture (f index) (body.renumber f)
  | .backReference fold index => .backReference fold (f index)
  | .atomic body => .atomic (body.renumber f)
  | .look behind negated body => .look behind negated (body.renumber f)
  | .conditional index yes no => .conditional (f index) (yes.renumber f) (no.renumber f)
  | .repeated least most greed body => .repeated least most greed (body.renumber f)
  | .empty => .empty
  | .single test => .single test
  | .anchor multiline ascii kind => .anchor multiline ascii kind

variable {f : Nat → Nat}

/-- Numbers of groups do not bear on how far a matcher looks behind. -/
theorem looksNear_renumber (matcher : Matcher) :
    (matcher.renumber f).looksNear = matcher.looksNear := by
  induction matcher with
  | seq first rest ihFirst ihRest => simp only [renumber, looksNear, ihFirst, ihRest]
  | alt first second ihFirst ihSecond => simp only [renumber, looksNear, ihFirst, ihSecond]
  | look behind negated body ih => simp only [renumber, looksNear, ih]
  | conditional index yes no ihYes ihNo => simp only [renumber, looksNear, ihYes, ihNo]
  | capture index body ih => exact ih
  | atomic body ih => exact ih
  | repeated least most greed body ih => exact ih
  | _ => rfl

/-- Matchers in turn are renumbered one by one. -/
theorem renumber_followedBy (first second : Matcher) :
    (first.followedBy second).renumber f = (first.renumber f).followedBy (second.renumber f) := by
  cases second <;> rfl

end Matcher

section Coding

variable {f : Nat → Nat} {p : Nat → Prop} {known known' : GroupWidths} {flags : Flags}

/-- The matcher of a pattern is the same up to the numbers. -/
theorem Tree.matcher_renumber (hf : Function.Injective f) {tree : Tree} (htree : tree.Refers p)
    (h : Agree p f known known') {matcher : Matcher} (hmatcher : tree.matcher known flags = .ok matcher) :
    (tree.renumber f).matcher known' flags = .ok (matcher.renumber f) := by
  induction tree generalizing flags matcher with
  | seq first rest ihFirst ihRest =>
    simp only [Tree.matcher, bind_eq_ok_iff] at hmatcher
    obtain ⟨first, hfirst, rest, hrest, hdone⟩ := hmatcher
    cases hdone
    rw [renumber, Tree.matcher, ihFirst htree.1 hfirst, ihRest htree.2 hrest,
      Matcher.renumber_followedBy]
    rfl
  | alt first second ihFirst ihSecond =>
    simp only [Tree.matcher, bind_eq_ok_iff] at hmatcher
    obtain ⟨first, hfirst, second, hsecond, hdone⟩ := hmatcher
    cases hdone
    rw [renumber, Tree.matcher, ihFirst htree.1 hfirst, ihSecond htree.2 hsecond]
    rfl
  | group index on off body ih =>
    simp only [Tree.matcher, bind_eq_ok_iff] at hmatcher
    obtain ⟨body, hbody, hdone⟩ := hmatcher
    rw [renumber, Tree.matcher, ih htree.2 hbody]
    cases index <;> cases hdone <;> rfl
  | atomic body ih =>
    simp only [Tree.matcher, bind_eq_ok_iff] at hmatcher
    obtain ⟨body, hbody, hdone⟩ := hmatcher
    cases hdone
    rw [renumber, Tree.matcher, ih htree hbody]
    rfl
  | look behind negated body ih =>
    have hwidth := (width_renumber hf (show body.Refers p from htree) h).1
    rw [renumber, Tree.matcher, hwidth]
    simp only [Tree.matcher] at hmatcher ⊢
    split at hmatcher
    · cases hmatcher
    · split at hmatcher
      · cases hmatcher
      · obtain ⟨body, hbody, hdone⟩ := bind_eq_ok_iff.1 hmatcher
        cases hdone
        rw [if_neg ‹_›, if_neg ‹_›, ih htree hbody]
        rfl
  | conditional index yes no ihYes ihNo =>
    simp only [Tree.matcher, bind_eq_ok_iff] at hmatcher
    obtain ⟨yes, hyes, no, hno, hdone⟩ := hmatcher
    cases hdone
    rw [renumber, Tree.matcher, ihYes htree.1 hyes, ihNo htree.2 hno]
    rfl
  | repeated least most greed body ih =>
    simp only [renumber, Tree.matcher] at hmatcher ⊢
    split at hmatcher
    · cases hmatcher
    · obtain ⟨body, hbody, hdone⟩ := bind_eq_ok_iff.1 hmatcher
      cases hdone
      rw [if_neg ‹_›, ih htree hbody]
      rfl
  | _ =>
    cases hmatcher
    rfl

/-- The items of a pattern have the same matchers under other numbers, if the groups are as wide. -/
theorem Codes.renumber (hf : Function.Injective f) {items : List Tree} {matchers : List Matcher}
    (hcodes : Codes known flags items matchers) (hitems : ∀ item ∈ items, item.Refers p)
    (h : Agree p f known known') :
    Codes known' flags (items.map (Tree.renumber f)) (matchers.map (Matcher.renumber f)) := by
  induction hcodes with
  | nil => exact .nil
  | cons hfirst _ ih =>
    rw [List.forall_mem_cons] at hitems
    exact .cons (Tree.matcher_renumber hf hitems.1 h hfirst) (ih hitems.2)

end Coding

/-! ## Running -/

namespace Spot

/-- The place with other numbers for the groups matched before it. -/
def renumber (f : Nat → Nat) (spot : Spot) : Spot :=
  { spot with groups := spot.groups.map fun entry => (f entry.1, entry.2) }

variable {f : Nat → Nat}

/-- Places with different groups stay different. -/
theorem renumber_injective (hf : Function.Injective f) : Function.Injective (renumber f) := by
  have hentry : Function.Injective fun entry : Nat × Span => (f entry.1, entry.2) := by
    intro entry other h
    rw [Prod.mk.injEq] at h
    exact Prod.ext (hf h.1) h.2
  rintro ⟨⟩ ⟨⟩ h
  simp only [renumber, Spot.mk.injEq] at h
  rw [Spot.mk.injEq]
  exact ⟨h.1, h.2.1, h.2.2.1, h.2.2.2.1, hentry.list_map h.2.2.2.2⟩

/-- Going forward does not touch the groups. -/
@[simp]
theorem forward_renumber (spot : Spot) : (spot.renumber f).forward = spot.forward.renumber f := by
  obtain ⟨before, after, offset, left, groups⟩ := spot
  cases after <;> rfl

/-- Nor does going back. -/
@[simp]
theorem back_renumber (spot : Spot) : (spot.renumber f).back = spot.back.renumber f := by
  obtain ⟨before, after, offset, left, groups⟩ := spot
  cases before <;> rfl

/-- Nor does going back by several characters. -/
@[simp]
theorem backBy_renumber (n : Nat) (spot : Spot) :
    (spot.renumber f).backBy n = (spot.backBy n).renumber f := by
  induction n generalizing spot with
  | zero => rfl
  | succ n ih => simp only [backBy, back_renumber, ih]

/-- Tests look at the text only. -/
@[simp]
theorem nextPasses_renumber (test : CharTest) (spot : Spot) :
    (spot.renumber f).nextPasses test = spot.nextPasses test :=
  rfl

/-- So do anchors. -/
@[simp]
theorem holds_renumber (multiline ascii : Bool) (kind : Anchor) (spot : Spot) :
    (spot.renumber f).holds multiline ascii kind = spot.holds multiline ascii kind := by
  cases kind <;> rfl

/-- A group is found under its new number. -/
theorem lookup_renumber (hf : Function.Injective f) (spot : Spot) (index : Nat) :
    (spot.renumber f).groups.lookup (f index) = spot.groups.lookup index := by
  change (spot.groups.map fun entry => (f entry.1, entry.2)).lookup (f index) = _
  induction spot.groups with
  | nil => rfl
  | cons entry rest ih =>
    obtain ⟨other, span⟩ := entry
    simp only [List.map_cons, List.lookup_cons, hf.beq_eq, ih]

/-- So is the text that it matched. -/
theorem groupText?_renumber (hf : Function.Injective f) (spot : Spot) (index : Nat) :
    (spot.renumber f).groupText? (f index) = spot.groupText? index := by
  simp only [groupText?, lookup_renumber hf]

/-- What a group matched is noted under the new number. -/
theorem setGroup_renumber (hf : Function.Injective f) (spot : Spot) (index : Nat) (span : Span) :
    (spot.renumber f).setGroup (f index) span = (spot.setGroup index span).renumber f := by
  have hfilter : (spot.groups.map fun entry => (f entry.1, entry.2)).filter (·.1 != f index) =
      (spot.groups.filter (·.1 != index)).map fun entry => (f entry.1, entry.2) := by
    rw [List.filter_map]
    refine congrArg _ (List.filter_congr fun entry _ => ?_)
    simp only [Function.comp_apply, bne, hf.beq_eq]
  simp only [setGroup, renumber, List.map_cons, hfilter]

/-- So is where it starts. -/
theorem openGroup_renumber (hf : Function.Injective f) (spot : Spot) (index : Nat) :
    (spot.renumber f).openGroup (f index) = (spot.openGroup index).renumber f := by
  simp only [openGroup, lookup_renumber hf, ← setGroup_renumber hf]
  rfl

/-- So is where it ends. -/
theorem closeGroup_renumber (hf : Function.Injective f) (spot : Spot) (index : Nat) :
    (spot.renumber f).closeGroup (f index) = (spot.closeGroup index).renumber f := by
  simp only [closeGroup, lookup_renumber hf]
  cases spot.groups.lookup index with
  | none => rfl
  | some span => exact setGroup_renumber hf spot index _

/-- A copy of a text is found at the same place. -/
theorem behindCopy?_renumber (fold : Fold) (text : List Char) (spot : Spot) :
    (spot.renumber f).behindCopy? fold text = (spot.behindCopy? fold text).map (renumber f) := by
  induction text generalizing spot with
  | nil => rfl
  | cons wanted rest ih =>
    obtain ⟨before, after, offset, left, groups⟩ := spot
    cases after with
    | nil => rfl
    | cons c after =>
      simp only [behindCopy?, renumber] at ih ⊢
      split
      · exact ih ⟨c :: before, after, offset + 1, left - 1, groups⟩
      · rfl

end Spot

section Running

variable {f : Nat → Nat}

/-- What has to match behind does the same with other numbers. -/
def IsRenumbered (f : Nat → Nat) (rest rest' : Rest) : Prop :=
  ∀ spot, rest' (spot.renumber f) = (rest spot).map (Spot.renumber f)

/-- A step does the same with other numbers. -/
def IsRenumberedBody (f : Nat → Nat) (body body' : Spot → Rest → Option Spot) : Prop :=
  ∀ spot rest rest', IsRenumbered f rest rest' →
    body' (spot.renumber f) rest' = (body spot rest).map (Spot.renumber f)

/-- To end is the same under all numbers. -/
theorem IsRenumbered.some : IsRenumbered f some some :=
  fun _ => rfl

/-- A second choice is taken under the new numbers where it was under the old ones. -/
theorem orElse_renumber {first : Option Spot} {second second' : Unit → Option Spot}
    (h : second' () = (second ()).map (Spot.renumber f)) :
    orElse (first.map (Spot.renumber f)) second' = (orElse first second).map (Spot.renumber f) := by
  cases first with
  | none => exact h
  | some spot => rfl

/-- What goes on behind a match goes on alike. -/
theorem bind_renumber {rest rest' : Rest} (h : IsRenumbered f rest rest') (found : Option Spot) :
    (found.map (Spot.renumber f)).bind rest' = (found.bind rest).map (Spot.renumber f) := by
  cases found with
  | none => rfl
  | some spot => exact h spot

/-! ### Repetition of one character -/

/-- As many characters are passed over. -/
theorem overCopies_renumber (test : CharTest) (most count : Nat) (spot : Spot) :
    overCopies test most count (spot.renumber f) =
      ((overCopies test most count spot).1, (overCopies test most count spot).2.renumber f) := by
  induction most generalizing count spot with
  | zero => rfl
  | succ most ih =>
    simp only [overCopies, Spot.nextPasses_renumber, Spot.forward_renumber, ih]
    split <;> rfl

/-- Fewer and fewer copies are tried alike. -/
theorem tryBackwards_renumber {rest rest' : Rest} (h : IsRenumbered f rest rest') (n : Nat)
    (spot : Spot) :
    tryBackwards rest' n (spot.renumber f) = (tryBackwards rest n spot).map (Spot.renumber f) := by
  induction n generalizing spot with
  | zero => exact h spot
  | succ n ih =>
    simp only [tryBackwards, h spot, Spot.back_renumber]
    exact orElse_renumber (ih spot.back)

/-- So are more and more copies. -/
theorem tryForwards_renumber (test : CharTest) {rest rest' : Rest} (h : IsRenumbered f rest rest')
    (n : Nat) (spot : Spot) :
    tryForwards test rest' n (spot.renumber f) =
      (tryForwards test rest n spot).map (Spot.renumber f) := by
  induction n generalizing spot with
  | zero => exact h spot
  | succ n ih =>
    simp only [tryForwards, h spot, Spot.forward_renumber, Spot.nextPasses_renumber]
    refine orElse_renumber ?_
    split
    · exact ih spot.forward
    · rfl

/-- So a repeated test matches alike. -/
theorem repeatTest_renumber (least : Nat) (most : Option Nat) (greed : Greed) (test : CharTest) :
    IsRenumberedBody f (repeatTest least most greed test) (repeatTest least most greed test) := by
  intro spot rest rest' h
  have hreach : reach most (spot.renumber f) = reach most spot := rfl
  have hleft : (spot.renumber f).left = spot.left := rfl
  cases greed with
  | greedy =>
    simp only [repeatTest, hreach, overCopies_renumber]
    split
    · rfl
    · exact tryBackwards_renumber h _ _
  | possessive =>
    simp only [repeatTest, hreach, overCopies_renumber]
    split
    · rfl
    · exact h _
  | lazy =>
    simp only [repeatTest, hreach, hleft, overCopies_renumber]
    split
    · rfl
    · exact tryForwards_renumber test h _ _

/-! ### Repetition -/

variable {body body' : Spot → Rest → Option Spot} {rest rest' : Rest}

/-- A body that is repeated as often as can be matches alike if it does so once. -/
theorem repeatGreedy_renumber (hbody : IsRenumberedBody f body body') (least : Nat)
    (most : Option Nat) (fuel count : Nat) (last : Option Nat) (spot : Spot)
    (h : IsRenumbered f rest rest') :
    repeatGreedy body' least most fuel count last (spot.renumber f) rest' =
      (repeatGreedy body least most fuel count last spot rest).map (Spot.renumber f) := by
  induction fuel generalizing count last spot with
  | zero => exact h spot
  | succ fuel ih =>
    have hoffset : (spot.renumber f).offset = spot.offset := rfl
    simp only [repeatGreedy, hoffset]
    split
    · exact hbody _ _ _ fun spot => ih _ _ spot
    · split
      · rw [hbody _ _ _ fun spot => ih _ _ spot]
        exact orElse_renumber (h spot)
      · exact h spot

/-- So does one that is repeated as seldom as can be. -/
theorem repeatLazy_renumber (hbody : IsRenumberedBody f body body') (least : Nat)
    (most : Option Nat) (fuel count : Nat) (last : Option Nat) (spot : Spot)
    (h : IsRenumbered f rest rest') :
    repeatLazy body' least most fuel count last (spot.renumber f) rest' =
      (repeatLazy body least most fuel count last spot rest).map (Spot.renumber f) := by
  induction fuel generalizing count last spot with
  | zero => rfl
  | succ fuel ih =>
    have hoffset : (spot.renumber f).offset = spot.offset := rfl
    simp only [repeatLazy, hoffset]
    split
    · exact hbody _ _ _ fun spot => ih _ _ spot
    · rw [h spot]
      refine orElse_renumber ?_
      split
      · exact hbody _ _ _ fun spot => ih _ _ spot
      · rfl

/-- So does one that gives nothing back. -/
theorem repeatPossessive_renumber (hf : Function.Injective f) (hbody : IsRenumberedBody f body body')
    (least : Nat) (most : Option Nat) (fuel count : Nat) (spot : Spot) :
    repeatPossessive body' least most fuel count (spot.renumber f) =
      (repeatPossessive body least most fuel count spot).map (Spot.renumber f) := by
  induction fuel generalizing count spot with
  | zero => rfl
  | succ fuel ih =>
    simp only [repeatPossessive, hbody spot _ _ IsRenumbered.some]
    split
    · cases body spot some with
      | none =>
        simp only [Option.map_none]
        split <;> rfl
      | some next =>
        simp only [Option.map_some, (Spot.renumber_injective hf).beq_eq]
        split
        · rfl
        · exact ih _ next
    · rfl

/-- So does a repeated body, however it is repeated. -/
theorem repeatBody_renumber (hf : Function.Injective f) (hbody : IsRenumberedBody f body body')
    (least : Nat) (most : Option Nat) (greed : Greed) :
    IsRenumberedBody f (repeatBody least most greed body) (repeatBody least most greed body') := by
  intro spot rest rest' h
  cases greed with
  | greedy => exact repeatGreedy_renumber hbody _ _ _ _ _ _ h
  | lazy => exact repeatLazy_renumber hbody _ _ _ _ _ _ h
  | possessive =>
    have hleft : (spot.renumber f).left = spot.left := rfl
    simp only [repeatBody, hleft, repeatPossessive_renumber hf hbody]
    exact bind_renumber h _

/-! ### Matchers -/

/-- A repeated body other than a test. -/
theorem Matcher.run_repeated {least : Nat} {most : Option Nat} {greed : Greed} {body : Matcher}
    (hbody : ∀ test, body ≠ .single test) (spot : Spot) (rest : Rest) :
    (Matcher.repeated least most greed body).run spot rest =
      repeatBody least most greed body.run spot rest := by
  cases body with
  | single test => exact absurd rfl (hbody test)
  | _ => rfl

/-- A matcher does the same with other numbers for its groups. -/
theorem Matcher.run_renumber (hf : Function.Injective f) (matcher : Matcher) :
    IsRenumberedBody f matcher.run (matcher.renumber f).run := by
  induction matcher with
  | empty => exact fun spot rest rest' h => h spot
  | single test =>
    intro spot rest rest' h
    simp only [renumber, run, Spot.nextPasses_renumber, Spot.forward_renumber]
    split
    · exact h _
    · rfl
  | anchor multiline ascii kind =>
    intro spot rest rest' h
    simp only [renumber, run, Spot.holds_renumber]
    split
    · exact h _
    · rfl
  | seq first second ihFirst ihSecond =>
    exact fun spot rest rest' h => ihFirst _ _ _ fun spot => ihSecond _ _ _ h
  | alt first second ihFirst ihSecond =>
    intro spot rest rest' h
    simp only [renumber, run, ihFirst _ _ _ h]
    exact orElse_renumber (ihSecond _ _ _ h)
  | capture index body ih =>
    intro spot rest rest' h
    simp only [renumber, run, Spot.openGroup_renumber hf]
    refine ih _ _ _ fun spot => ?_
    rw [Spot.closeGroup_renumber hf, h]
  | backReference fold index =>
    intro spot rest rest' h
    simp only [renumber, run, Spot.groupText?_renumber hf]
    cases spot.groupText? index with
    | none => rfl
    | some text =>
      simp only [Spot.behindCopy?_renumber]
      exact bind_renumber h _
  | atomic body ih =>
    intro spot rest rest' h
    simp only [renumber, run, ih _ _ _ IsRenumbered.some]
    exact bind_renumber h _
  | look behind negated body ih =>
    intro spot rest rest' h
    have hfound : (if (spot.renumber f).offset < behind.getD 0 then none
        else (body.renumber f).run ((spot.renumber f).backBy (behind.getD 0)) some) =
      (if spot.offset < behind.getD 0 then none
        else body.run (spot.backBy (behind.getD 0)) some).map (Spot.renumber f) := by
      have hoffset : (spot.renumber f).offset = spot.offset := rfl
      rw [hoffset, Spot.backBy_renumber]
      split
      · rfl
      · exact ih _ _ _ IsRenumbered.some
    simp only [renumber, run, hfound]
    generalize (if spot.offset < behind.getD 0 then none
      else body.run (spot.backBy (behind.getD 0)) some) = found
    cases negated with
    | false =>
      cases found with
      | none => rfl
      | some inner => exact h { spot with groups := inner.groups }
    | true =>
      cases found with
      | none => exact h spot
      | some inner => rfl
  | conditional index yes no ihYes ihNo =>
    intro spot rest rest' h
    simp only [renumber, run, Spot.groupText?_renumber hf]
    split
    · exact ihYes _ _ _ h
    · exact ihNo _ _ _ h
  | repeated least most greed body ih =>
    by_cases hsingle : ∃ test, body = .single test
    · obtain ⟨test, rfl⟩ := hsingle
      exact repeatTest_renumber least most greed test
    · rw [not_exists] at hsingle
      have hsingle' : ∀ test, body.renumber f ≠ .single test := by
        intro test hbody
        cases body with
        | single other => exact hsingle other rfl
        | _ => cases hbody
      intro spot rest rest' h
      rw [renumber, run_repeated hsingle, run_repeated hsingle']
      exact repeatBody_renumber hf ih least most greed spot rest rest' h

/-- Several matchers in turn are renumbered one by one. -/
theorem Matcher.chain_renumber (matchers : List Matcher) :
    (chain matchers).renumber f = chain (matchers.map (renumber f)) := by
  induction matchers with
  | nil => rfl
  | cons matcher others ih =>
    exact (renumber_followedBy matcher (chain others)).trans
      (congrArg (matcher.renumber f).followedBy ih)

/-- Before any group is matched the numbers do not show. -/
theorem runAll_renumber (hf : Function.Injective f) (matchers : List Matcher) {spot : Spot}
    (hspot : spot.groups = []) :
    (runAll (matchers.map (Matcher.renumber f)) spot some).isSome =
      (runAll matchers spot some).isSome := by
  have hsame : spot.renumber f = spot := by
    obtain ⟨before, after, offset, left, groups⟩ := spot
    cases hspot
    rfl
  rw [← Matcher.run_chain, ← Matcher.run_chain, ← Matcher.chain_renumber, ← hsame,
    Matcher.run_renumber hf _ _ _ _ IsRenumbered.some, Option.isSome_map, hsame]

end Running

end BinaryStrings.Pattern
