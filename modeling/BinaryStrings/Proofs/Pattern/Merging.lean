import BinaryStrings.Pattern.Resolve
import BinaryStrings.Proofs.Outcome
import BinaryStrings.Proofs.Pattern.GroupNumbers

/-!
# Merged alternatives

What alternatives start with is taken out in front of them, and alternatives that match one character
each are one class.  This changes neither what matches nor how: the matcher of merged alternatives
tries them in turn.

Main results:

- Theorem `takeStarts_spec`: what is taken out stands in front of every alternative.
- Theorem `codes_joined`: merged alternatives match what one of them matches.
-/

namespace BinaryStrings.Pattern

/-! ## Common starts -/

/-- What several alternatives start with matches one way only, and each has it in front. -/
theorem commonStart?_spec {alternatives : List (List Tree)} {item : Tree}
    (h : commonStart? alternatives = some item) :
    item.isPlain = true ∧ alternatives = (alternatives.map (·.drop 1)).map (item :: ·) := by
  match alternatives with
  | [] => cases h
  | [] :: _ => cases h
  | (first :: behind) :: rest =>
    simp only [commonStart?, Option.ite_none_right_eq_some, Bool.and_eq_true, List.all_eq_true,
      beq_iff_eq, Option.some.injEq] at h
    obtain ⟨⟨hplain, hrest⟩, rfl⟩ := h
    refine ⟨hplain, ?_⟩
    have hmap : (rest.map (·.drop 1)).map (first :: ·) = rest := by
      rw [List.map_map]
      refine (List.map_congr_left fun items hitems => ?_).trans (List.map_id rest)
      obtain ⟨tail, rfl⟩ := List.head?_eq_some_iff.1 (hrest items hitems)
      rfl
    rw [List.map_cons, List.map_cons, hmap]
    rfl

/-- What is taken out stands in front of every alternative, and matches in one way at most. -/
theorem takeStarts_spec (fuel : Nat) (alternatives : List (List Tree)) :
    alternatives = (takeStarts fuel alternatives).2.map ((takeStarts fuel alternatives).1 ++ ·) ∧
      ∀ item ∈ (takeStarts fuel alternatives).1, item.isPlain = true := by
  induction fuel generalizing alternatives with
  | zero => simp [takeStarts]
  | succ fuel ih =>
    rw [takeStarts]
    cases hstart : commonStart? alternatives with
    | none => simp
    | some item =>
      obtain ⟨hplain, halternatives⟩ := commonStart?_spec hstart
      obtain ⟨hrest, hstarts⟩ := ih (alternatives.map (·.drop 1))
      generalize takeStarts fuel (alternatives.map (·.drop 1)) = taken at hrest hstarts ⊢
      refine ⟨?_, List.forall_mem_cons.2 ⟨hplain, hstarts⟩⟩
      calc alternatives = (alternatives.map (·.drop 1)).map (item :: ·) := halternatives
        _ = (taken.2.map (taken.1 ++ ·)).map (item :: ·) := congrArg _ hrest
        _ = taken.2.map (item :: taken.1 ++ ·) := List.map_map

/-! ## Items of a pattern -/

variable {p : Nat → Prop}

/-- The numbers of alternatives as one tree are those of their items. -/
theorem refers_branch {alternatives : List (List Tree)}
    (h : ∀ items ∈ alternatives, ∀ item ∈ items, item.Refers p) : (branch alternatives).Refers p := by
  match alternatives with
  | [] => trivial
  | [one] => exact Tree.refers_ofItems.2 (h one (by simp))
  | one :: other :: rest =>
    rw [List.forall_mem_cons] at h
    exact ⟨Tree.refers_ofItems.2 h.1, refers_branch h.2⟩

/-- The numbers in joined alternatives are those of the alternatives. -/
theorem refers_joined {alternatives : List (List Tree)} (hnil : alternatives ≠ [])
    (h : ∀ items ∈ alternatives, ∀ item ∈ items, item.Refers p) :
    ∀ item ∈ joined alternatives, item.Refers p := by
  have hjoin : ∀ item ∈ joinAlternatives alternatives, item.Refers p := by
    simp only [joinAlternatives]
    generalize (alternatives.map List.length).foldl max 0 = longest
    obtain ⟨hspec, -⟩ := takeStarts_spec longest alternatives
    generalize takeStarts longest alternatives = taken at hspec ⊢
    obtain ⟨starts, rest⟩ := taken
    simp only at hspec ⊢
    subst hspec
    simp only [List.forall_mem_map, List.forall_mem_append] at h
    obtain ⟨first, hfirst⟩ := List.exists_mem_of_ne_nil rest (by simpa using hnil)
    have hstarts := (h first hfirst).1
    split
    · rw [List.forall_mem_append]
      exact ⟨hstarts, by simp [Tree.Refers]⟩
    · rw [List.forall_mem_append]
      exact ⟨hstarts, by simpa using refers_branch fun items hitems => (h items hitems).2⟩
  unfold joined
  split
  · exact h _ (by simp)
  · exact hjoin

/-- Every tree has an alternative. -/
theorem Tree.alternatives_ne_nil (tree : Tree) : tree.alternatives ≠ [] := by
  cases tree with
  | group index on off body =>
    cases index with
    | none =>
      rw [alternatives]
      split <;> simp
    | some index => simp [alternatives]
  | _ => simp [alternatives]

/-- The numbers of alternatives are those of the tree. -/
theorem Tree.refers_alternatives {tree : Tree} (h : tree.Refers p) :
    ∀ items ∈ tree.alternatives, ∀ item ∈ items, item.Refers p := by
  have hone : ∀ {item : Tree}, item.Refers p →
      ∀ items ∈ [[item]], ∀ item ∈ items, item.Refers p := by
    simp
  have hjoined : ∀ {tree : Tree}, (∀ items ∈ tree.alternatives, ∀ item ∈ items, item.Refers p) →
      ∀ item ∈ joined tree.alternatives, item.Refers p :=
    fun h => refers_joined (alternatives_ne_nil _) h
  induction tree with
  | empty => simp [alternatives]
  | seq first rest ihFirst ihRest =>
    simp only [alternatives, List.forall_mem_cons, List.forall_mem_append]
    exact ⟨⟨hjoined (ihFirst h.1), hjoined (ihRest h.2)⟩, by simp⟩
  | alt first second ihFirst ihSecond =>
    simp only [alternatives, List.forall_mem_cons]
    exact ⟨hjoined (ihFirst h.1), ihSecond h.2⟩
  | group index on off body ih =>
    have hbody := hjoined (ih h.2)
    cases index with
    | none =>
      simp only [alternatives]
      split
      · simpa using hbody
      · exact hone ⟨h.1, refers_ofItems.2 hbody⟩
    | some index => exact hone ⟨h.1, refers_ofItems.2 hbody⟩
  | atomic body ih => exact hone (show (Tree.atomic _).Refers p from refers_ofItems.2 (hjoined (ih h)))
  | look behind negated body ih =>
    exact hone (show (Tree.look behind negated _).Refers p from refers_ofItems.2 (hjoined (ih h)))
  | conditional index yes no ihYes ihNo =>
    exact hone ⟨refers_ofItems.2 (hjoined (ihYes h.1)), refers_ofItems.2 (hjoined (ihNo h.2))⟩
  | repeated least most greed body ih =>
    exact hone
      (show (Tree.repeated least most greed _).Refers p from refers_ofItems.2 (hjoined (ih h)))
  | _ => exact hone h

/-- So are those of its items. -/
theorem Tree.refers_items {tree : Tree} (h : tree.Refers p) :
    ∀ item ∈ tree.items, item.Refers p :=
  refers_joined tree.alternatives_ne_nil (refers_alternatives h)

/-! ## Matchers of items -/

section Matchers

variable {known : GroupWidths} {flags : Flags}

/-- The matchers of items. -/
abbrev Codes (known : GroupWidths) (flags : Flags) : List Tree → List Matcher → Prop :=
  List.Forall₂ fun item matcher => item.matcher known flags = .ok matcher

/-- Runs matchers one behind the other. -/
def runAll : List Matcher → Spot → Rest → Option Spot
  | [], spot, rest => rest spot
  | matcher :: others, spot, rest => matcher.run spot fun spot => runAll others spot rest

/-- Runs several alternatives of this kind in turn. -/
def runAny (alternatives : List (List Matcher)) (spot : Spot) (rest : Rest) : Option Spot :=
  alternatives.findSome? fun matchers => runAll matchers spot rest

/-- Several matchers as one. -/
def Matcher.chain (matchers : List Matcher) : Matcher :=
  matchers.foldr Matcher.followedBy .empty

/-- Matchers in turn match one behind the other. -/
theorem Matcher.run_followedBy (first second : Matcher) (spot : Spot) (rest : Rest) :
    (first.followedBy second).run spot rest = first.run spot fun spot => second.run spot rest := by
  cases second <;> simp [followedBy, run]

/-- They look near behind if both do. -/
theorem Matcher.looksNear_followedBy (first second : Matcher) :
    (first.followedBy second).looksNear = (first.looksNear && second.looksNear) := by
  cases second <;> simp [followedBy, looksNear]

/-- Several matchers in turn. -/
theorem Matcher.run_chain (matchers : List Matcher) (spot : Spot) (rest : Rest) :
    (chain matchers).run spot rest = runAll matchers spot rest := by
  induction matchers generalizing spot with
  | nil => rfl
  | cons matcher others ih =>
    change (matcher.followedBy (chain others)).run spot rest = _
    simp only [run_followedBy, ih, runAll]

/-- They look near behind if each of them does. -/
theorem Matcher.looksNear_chain (matchers : List Matcher) :
    (chain matchers).looksNear = matchers.all looksNear := by
  induction matchers with
  | nil => rfl
  | cons matcher others ih =>
    change (matcher.followedBy (chain others)).looksNear = _
    rw [looksNear_followedBy, ih, List.all_cons]

/-- What is behind some matchers goes on where they end. -/
theorem runAll_append (first second : List Matcher) (spot : Spot) (rest : Rest) :
    runAll (first ++ second) spot rest = runAll first spot fun spot => runAll second spot rest := by
  induction first generalizing spot with
  | nil => rfl
  | cons matcher others ih => simp only [List.cons_append, runAll, ih]

/-- The matcher of a sequence is that of its items in turn. -/
theorem matcher_ofItems {items : List Tree} {matcher : Matcher} :
    (Tree.ofItems items).matcher known flags = .ok matcher ↔
      ∃ matchers, Codes known flags items matchers ∧ matcher = .chain matchers := by
  induction items generalizing matcher with
  | nil => simp [Tree.ofItems, Tree.matcher, Matcher.chain, eq_comm]
  | cons item rest ih =>
    change (item.matcher known flags >>= fun first => (Tree.ofItems rest).matcher known flags >>=
      fun behind => pure (first.followedBy behind)) = .ok matcher ↔ _
    simp only [bind_eq_ok_iff, ih, List.forall₂_cons_left_iff]
    constructor
    · rintro ⟨first, hfirst, _, ⟨others, hothers, rfl⟩, ⟨⟩⟩
      exact ⟨_, ⟨first, others, hfirst, hothers, rfl⟩, rfl⟩
    · rintro ⟨_, ⟨first, others, hfirst, hothers, rfl⟩, rfl⟩
      exact ⟨first, hfirst, _, ⟨others, hothers, rfl⟩, rfl⟩

/-! ## One way to match -/

/-- What a plain item matches, it matches in one way. -/
theorem Tree.isPlain.run_eq {item : Tree} (hitem : item.isPlain = true) {matcher : Matcher}
    (hmatcher : item.matcher known flags = .ok matcher) :
    matcher.looksNear = true ∧
      ∃ step : Spot → Option Spot, ∀ spot rest, matcher.run spot rest = (step spot).bind rest := by
  have hsingle : ∀ test : CharTest, ∃ step : Spot → Option Spot, ∀ spot rest,
      (Matcher.single test).run spot rest = (step spot).bind rest := by
    intro test
    refine ⟨fun spot => if spot.nextPasses test then some spot.forward else none, fun spot rest => ?_⟩
    simp only [Matcher.run]
    split <;> rfl
  cases item with
  | point n =>
    cases hmatcher
    exact ⟨rfl, hsingle _⟩
  | notPoint n =>
    cases hmatcher
    exact ⟨rfl, hsingle _⟩
  | anyChar =>
    cases hmatcher
    exact ⟨rfl, hsingle _⟩
  | oneOf negated items =>
    cases hmatcher
    exact ⟨rfl, hsingle _⟩
  | anchor kind =>
    cases hmatcher
    refine ⟨rfl, fun spot => if spot.holds flags.multiline (!flags.unicode) kind then some spot
      else none, fun spot rest => ?_⟩
    simp only [Matcher.run]
    split <;> rfl
  | backReference index =>
    cases hmatcher
    refine ⟨rfl, fun spot => (spot.groupText? index).bind fun text =>
      spot.behindCopy? flags.fold text, fun spot rest => ?_⟩
    simp only [Matcher.run]
    cases spot.groupText? index <;> rfl
  | _ => cases hitem

/-- Several plain items match in one way. -/
theorem Codes.run_eq_of_isPlain {items : List Tree} {matchers : List Matcher}
    (h : Codes known flags items matchers) (hitems : ∀ item ∈ items, item.isPlain = true) :
    matchers.all Matcher.looksNear = true ∧
      ∃ step : Spot → Option Spot, ∀ spot rest, runAll matchers spot rest = (step spot).bind rest := by
  induction h with
  | nil => exact ⟨rfl, some, fun _ _ => rfl⟩
  | @cons item matcher items matchers hfirst _ ih =>
    rw [List.forall_mem_cons] at hitems
    obtain ⟨hnear, step, hstep⟩ := Tree.isPlain.run_eq hitems.1 hfirst
    obtain ⟨hnears, steps, hsteps⟩ := ih hitems.2
    refine ⟨by rw [List.all_cons, hnear, hnears]; rfl, fun spot => (step spot).bind steps,
      fun spot rest => ?_⟩
    simp only [runAll, hstep, hsteps, Option.bind_assoc]

/-- Alternatives behind something that matches in one way. -/
theorem findSome?_bind {α : Type} (found : Option Spot) (list : List α)
    (f : α → Spot → Option Spot) :
    list.findSome? (fun x => found.bind (f x)) = found.bind fun spot => list.findSome? (f · spot) := by
  cases found with
  | none => simp
  | some spot => rfl

/-! ## Alternatives -/

/-- A second choice is taken if the first one fails. -/
theorem orElse_eq (first : Option Spot) (second : Unit → Option Spot) :
    orElse first second = first.or (second ()) := by
  cases first <;> rfl

/-- Alternatives as one tree are tried in turn. -/
theorem matcher_branch {alternatives : List (List Tree)} (hnil : alternatives ≠ [])
    {coded : List (List Matcher)} (h : List.Forall₂ (Codes known flags) alternatives coded) :
    ∃ matcher, (branch alternatives).matcher known flags = .ok matcher ∧
      (∀ spot rest, matcher.run spot rest = runAny coded spot rest) ∧
      matcher.looksNear = coded.all (·.all Matcher.looksNear) := by
  induction h with
  | nil => exact absurd rfl hnil
  | @cons one matchers others codes hone hothers ih =>
    have hfirst := matcher_ofItems.2 ⟨matchers, hone, rfl⟩
    cases others with
    | nil =>
      cases hothers
      refine ⟨_, hfirst, fun spot rest => ?_, ?_⟩
      · rw [Matcher.run_chain, runAny, List.findSome?_singleton]
      · rw [Matcher.looksNear_chain]
        simp
    | cons other others =>
      obtain ⟨matcher, hmatcher, hrun, hnear⟩ := ih (by simp)
      refine ⟨.alt (.chain matchers) matcher, ?_, fun spot rest => ?_, ?_⟩
      · have hbranch : branch (one :: other :: others) =
            .alt (.ofItems one) (branch (other :: others)) := rfl
        rw [hbranch, Tree.matcher, hfirst, hmatcher]
        rfl
      · rw [Matcher.run, orElse_eq, hrun, Matcher.run_chain, runAny, runAny, List.findSome?_cons]
        cases runAll matchers spot rest <;> rfl
      · rw [Matcher.looksNear, hnear, Matcher.looksNear_chain, List.all_cons]

/-! ## Classes -/

/-- A character that is found in a class as it is alone: above the first plane it stands in lower case,
which matters without regard to case. -/
def StaysInClass (flags : Flags) (n : Nat) : Prop :=
  flags.ignoreCase = true → planeEnd < n → Unicode.lowerPoint n = n

/-- No character above the first plane has twins of its case. -/
theorem twins_eq_nil {n : Nat} (h : planeEnd < n) : Unicode.twins n = [] := by
  have hplane : ∀ group ∈ Unicode.caseTwins, ∀ m ∈ group, m ≤ planeEnd := by decide +kernel
  have hnone : Unicode.caseTwins.find? (·.contains n) = none := by
    rw [List.find?_eq_none]
    intro group hgroup hmem
    have hle := hplane group hgroup n (by simpa using hmem)
    omega
  rw [Unicode.twins, hnone]

/-- A character in a class is found as it is alone. -/
theorem holds_point {n : Nat} (hunicode : flags.unicode = true) (hn : StaysInClass flags n) (c : Char) :
    (ClassItem.point n).holds flags.fold (!flags.unicode) (flags.fold.lower c.toNat) =
      (CharTest.point flags.fold n).accepts c := by
  rw [Bool.eq_iff_iff]
  cases hcase : flags.ignoreCase with
  | false =>
    have hfold : flags.fold = .exact := by simp [Flags.fold, hcase]
    simp [hfold, ClassItem.holds, CharTest.accepts, Fold.same, Fold.relatives, Fold.lower]
  | true =>
    have hfold : flags.fold = .unicode := by simp [Flags.fold, hcase, hunicode]
    by_cases hplane : planeEnd < n
    · have hlower := hn hcase hplane
      simp [hfold, ClassItem.holds, CharTest.accepts, Fold.same, Fold.relatives, Fold.lower, hlower,
        hplane, twins_eq_nil hplane]
    · simp [hfold, ClassItem.holds, CharTest.accepts, Fold.same, hplane]

/-- The test of a class that an alternative is. -/
def classTest (flags : Flags) (items : List ClassItem) : CharTest :=
  .oneOf flags.fold (!flags.unicode) false items

/-- An alternative that is a class matches as the class does. -/
theorem Codes.run_eq_of_classOf? {items : List Tree} {matchers : List Matcher}
    (h : Codes known flags items matchers) {classItems : List ClassItem}
    (hclass : classOf? items = some classItems) (hunicode : flags.unicode = true)
    (hpoints : ∀ n, Tree.point n ∈ items → StaysInClass flags n) :
    matchers.all Matcher.looksNear = true ∧ ∀ spot rest, runAll matchers spot rest =
      if spot.nextPasses (classTest flags classItems) then rest spot.forward else none := by
  unfold classOf? at hclass
  split at hclass
  · rename_i n
    cases hclass
    obtain ⟨matcher, _, hmatcher, hnil, rfl⟩ := List.forall₂_cons_left_iff.1 h
    cases hnil
    cases hmatcher
    refine ⟨rfl, fun spot rest => ?_⟩
    have htest : spot.nextPasses (.point flags.fold n) =
        spot.nextPasses (classTest flags [.point n]) := by
      unfold Spot.nextPasses
      split
      · rfl
      · rw [← holds_point hunicode (hpoints n (by simp))]
        simp [classTest, CharTest.accepts]
    rw [runAll, Matcher.run, htest]
    rfl
  · cases hclass
    obtain ⟨matcher, _, hmatcher, hnil, rfl⟩ := List.forall₂_cons_left_iff.1 h
    cases hnil
    cases hmatcher
    exact ⟨rfl, fun spot rest => rfl⟩
  · cases hclass

/-- A class of several classes holds what one of them does. -/
theorem nextPasses_class (spot : Spot) (classes : List (List ClassItem)) :
    spot.nextPasses (classTest flags classes.flatten.eraseDups) =
      classes.any fun items => spot.nextPasses (classTest flags items) := by
  unfold Spot.nextPasses
  split
  · simp
  · rw [Bool.eq_iff_iff]
    simp only [classTest, CharTest.accepts, bne_iff_ne, ne_eq, Bool.not_eq_false, List.any_eq_true,
      List.mem_eraseDups, List.mem_flatten]
    exact ⟨fun ⟨item, ⟨items, hitems, hitem⟩, h⟩ => ⟨items, hitems, item, hitem, h⟩,
      fun ⟨items, hitems, item, hitem, h⟩ => ⟨item, ⟨items, hitems, hitem⟩, h⟩⟩

/-- Matchers are tried one after the other. -/
theorem runAny_cons (matchers : List Matcher) (others : List (List Matcher)) (spot : Spot)
    (rest : Rest) :
    runAny (matchers :: others) spot rest = (runAll matchers spot rest).or (runAny others spot rest) := by
  rw [runAny, List.findSome?_cons]
  cases runAll matchers spot rest <;> rfl

/-- Alternatives that are classes match as one class does. -/
theorem runAny_classes {rest : List (List Tree)} {coded : List (List Matcher)}
    (h : List.Forall₂ (Codes known flags) rest coded) {classes : List (List ClassItem)}
    (hclasses : rest.mapM classOf? = some classes) (hunicode : flags.unicode = true)
    (hpoints : ∀ items ∈ rest, ∀ n, Tree.point n ∈ items → StaysInClass flags n) :
    coded.all (·.all Matcher.looksNear) = true ∧ ∀ spot behind, runAny coded spot behind =
      if spot.nextPasses (classTest flags classes.flatten.eraseDups) then behind spot.forward
      else none := by
  simp only [nextPasses_class]
  induction h generalizing classes with
  | nil =>
    cases hclasses
    exact ⟨rfl, fun _ _ => rfl⟩
  | @cons items matchers rest coded hfirst _ ih =>
    rw [List.forall_mem_cons] at hpoints
    rw [List.mapM_cons] at hclasses
    obtain ⟨class₁, hclass, hclasses⟩ := Option.bind_eq_some_iff.1 hclasses
    obtain ⟨classes, hothers, hdone⟩ := Option.bind_eq_some_iff.1 hclasses
    cases hdone
    obtain ⟨hnear, hrun⟩ := hfirst.run_eq_of_classOf? hclass hunicode hpoints.1
    obtain ⟨hnears, hruns⟩ := ih hothers hpoints.2
    refine ⟨by rw [List.all_cons, hnear, hnears]; rfl, fun spot behind => ?_⟩
    rw [runAny_cons, hrun, hruns, List.any_cons]
    -- Alternatives that pass go on from the same place, so trying a second one changes nothing.
    cases spot.nextPasses (classTest flags class₁) with
    | false => simp
    | true =>
      simp only [if_true, Bool.true_or]
      cases behind spot.forward <;> simp

/-! ## Joined alternatives -/

/-- The items of a pattern have the matchers that they have. -/
theorem Codes.unique {items : List Tree} {first second : List Matcher}
    (h : Codes known flags items first) (h' : Codes known flags items second) : first = second :=
  List.right_unique_forall₂' (fun _ _ _ hx hy => Except.ok.inj (hx.symm.trans hy)) h h'

/-- The items of two parts have matchers in two parts. -/
theorem Codes.of_append {first second : List Tree} {matchers : List Matcher}
    (h : Codes known flags (first ++ second) matchers) :
    ∃ front behind, Codes known flags first front ∧ Codes known flags second behind ∧
      matchers = front ++ behind :=
  ⟨matchers.take first.length, matchers.drop first.length,
    by simpa using List.forall₂_take first.length h, by simpa using List.forall₂_drop first.length h,
    (List.take_append_drop _ _).symm⟩

/-- What all alternatives start with has the same matchers in all of them. -/
theorem codes_starts {starts : List Tree} {rest : List (List Tree)} (hnil : rest ≠ [])
    {coded : List (List Matcher)}
    (h : List.Forall₂ (Codes known flags) (rest.map (starts ++ ·)) coded) :
    ∃ front behind, Codes known flags starts front ∧
      List.Forall₂ (Codes known flags) rest behind ∧ coded = behind.map (front ++ ·) := by
  rw [List.forall₂_map_left_iff] at h
  obtain ⟨front, hfront⟩ : ∃ front, Codes known flags starts front := by
    cases h with
    | nil => exact absurd rfl hnil
    | cons hfirst _ =>
      obtain ⟨front, _, hfront, -⟩ := hfirst.of_append
      exact ⟨front, hfront⟩
  refine ⟨front, ?_⟩
  clear hnil
  induction h with
  | nil => exact ⟨[], hfront, .nil, rfl⟩
  | cons hfirst _ ih =>
    obtain ⟨front', behind, hfront', hbehind, rfl⟩ := hfirst.of_append
    obtain ⟨others, -, hothers, rfl⟩ := ih
    rw [hfront'.unique hfront]
    exact ⟨behind :: others, hfront, .cons hbehind hothers, rfl⟩

/-- The matchers of joined alternatives try them in turn. -/
theorem codes_joined {alternatives : List (List Tree)} (hnil : alternatives ≠ [])
    (hunicode : flags.unicode = true) {coded : List (List Matcher)}
    (h : List.Forall₂ (Codes known flags) alternatives coded)
    (hpoints : 2 ≤ alternatives.length →
      ∀ items ∈ alternatives, ∀ n, Tree.point n ∈ items → StaysInClass flags n) :
    ∃ matchers, Codes known flags (joined alternatives) matchers ∧
      (∀ spot rest, runAll matchers spot rest = runAny coded spot rest) ∧
      matchers.all Matcher.looksNear = coded.all (·.all Matcher.looksNear) := by
  have hjoin : 2 ≤ alternatives.length → ∃ matchers, Codes known flags (joinAlternatives alternatives) matchers ∧
      (∀ spot rest, runAll matchers spot rest = runAny coded spot rest) ∧
      matchers.all Matcher.looksNear = coded.all (·.all Matcher.looksNear) := by
    intro hlong
    replace hpoints := hpoints hlong
    clear hlong
    simp only [joinAlternatives]
    generalize (alternatives.map List.length).foldl max 0 = longest
    obtain ⟨hspec, hplain⟩ := takeStarts_spec longest alternatives
    generalize takeStarts longest alternatives = taken at hspec hplain ⊢
    obtain ⟨starts, rest⟩ := taken
    simp only at hspec hplain ⊢
    subst hspec
    have hrest : rest ≠ [] := by simpa using hnil
    obtain ⟨front, behind, hfront, hbehind, rfl⟩ := codes_starts hrest h
    obtain ⟨hnear, step, hstep⟩ := hfront.run_eq_of_isPlain hplain
    -- The last item tries what is behind the common start; the start matches in one way.
    have hlast : ∀ {item : Tree} {matcher : Matcher}, item.matcher known flags = .ok matcher →
        (∀ spot rest, matcher.run spot rest = runAny behind spot rest) →
        matcher.looksNear = behind.all (·.all Matcher.looksNear) →
        ∃ matchers, Codes known flags (starts ++ [item]) matchers ∧
          (∀ spot rest, runAll matchers spot rest =
            runAny (behind.map (front ++ ·)) spot rest) ∧
          matchers.all Matcher.looksNear =
            (behind.map (front ++ ·)).all (·.all Matcher.looksNear) := by
      intro item matcher hmatcher hrun hlooks
      refine ⟨front ++ [matcher], List.rel_append hfront (.cons hmatcher .nil), fun spot rest => ?_, ?_⟩
      · simp only [runAny, List.findSome?_map, Function.comp_def, runAll_append, hstep,
          findSome?_bind]
        simp only [runAll, hrun, runAny]
      · rw [List.all_map, List.all_append, hnear]
        simp [Function.comp_def, hnear, hlooks]
    split
    · rename_i classes hclasses
      obtain ⟨hlooks, hrun⟩ := runAny_classes hbehind hclasses hunicode fun items hitems n hn =>
        hpoints (starts ++ items) (List.mem_map_of_mem hitems) n (List.mem_append_right _ hn)
      exact hlast rfl (fun spot rest => (hrun spot rest).symm) hlooks.symm
    · obtain ⟨matcher, hmatcher, hrun, hlooks⟩ := matcher_branch hrest hbehind
      exact hlast hmatcher hrun hlooks
  unfold joined
  split
  · obtain ⟨matchers, _, hone, hcoded, rfl⟩ := List.forall₂_cons_left_iff.1 h
    cases hcoded
    exact ⟨matchers, hone, fun spot rest => by simp [runAny], by simp⟩
  · rename_i hsingle
    refine hjoin (Nat.lt_of_le_of_ne (List.length_pos_iff.2 hnil) fun hlength => ?_)
    obtain ⟨one, hone⟩ := List.length_eq_one_iff.1 hlength.symm
    exact hsingle one hone

end Matchers

end BinaryStrings.Pattern
