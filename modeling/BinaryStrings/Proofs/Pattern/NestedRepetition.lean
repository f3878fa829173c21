import BinaryStrings.Proofs.Pattern.Caseless
import BinaryStrings.Proofs.Pattern.InTurn
import BinaryStrings.Proofs.Pattern.TakenOpenings

/-!
# Nested repetition

The guard looks at the text of a pattern and not at its tree.  A group that is repeated and has a
repetition inside shows itself in the text: behind an opening parenthesis comes a quantifier, then the
closing parenthesis, then another quantifier.  The guard sees this as long as there is no other closing
parenthesis in the group.  With one, as that of an inner group, it looks no further, and nested
repetition is accepted.

Main results:

- Theorem `hasNestedRepetition_iff`: the texts that the guard keeps out.
- Theorem `shown`: what is read shows in the text that is taken for it.
- Theorem `closes_of_nested`: nested repetition that is accepted has a closing parenthesis inside.
-/

namespace BinaryStrings.Pattern

/-! ## The guard -/

/-- A text that ends with a group with a quantifier in it, and blanks behind it. -/
def EndsWithQuantified (text : List Char) : Prop :=
  ∃ before inside blanks, text = before ++ '(' :: (inside ++ ')' :: blanks) ∧ ')' ∉ inside ∧
    inside.any isInnerQuantifier = true ∧ blanks.all Unicode.isBlank = true

theorem not_isBlank_of_isOuterQuantifier {c : Char} (h : isOuterQuantifier c = true) :
    Unicode.isBlank c = false := by
  simp only [isOuterQuantifier, Bool.or_eq_true, beq_iff_eq] at h
  rcases h with (rfl | rfl) | rfl <;> decide

theorem repeatsInside_iff {text : List Char} : repeatsInside text = true ↔
    ∃ inside blanks outer behind, text = inside ++ ')' :: (blanks ++ outer :: behind) ∧
      ')' ∉ inside ∧ inside.any isInnerQuantifier = true ∧ blanks.all Unicode.isBlank = true ∧
      isOuterQuantifier outer = true := by
  unfold repeatsInside
  constructor
  · intro h
    rw [Bool.and_eq_true] at h
    obtain ⟨hinside, hbehind⟩ := h
    split at hbehind
    · cases hbehind
    rename_i closing behind hdrop
    split at hbehind
    · cases hbehind
    rename_i outer rest hblank
    obtain rfl : closing = ')' := by
      have hhead := List.head_dropWhile_not (fun c => c != ')') (l := text) (by simp [hdrop])
      simp only [hdrop, List.head_cons] at hhead
      simpa using hhead
    refine ⟨text.takeWhile (· != ')'), behind.takeWhile Unicode.isBlank, outer, rest, ?_, ?_,
      hinside, List.all_takeWhile, hbehind⟩
    · rw [← hblank, List.takeWhile_append_dropWhile, ← hdrop, List.takeWhile_append_dropWhile]
    · intro hmem
      simpa using List.all_eq_true.1 List.all_takeWhile _ hmem
  · rintro ⟨inside, blanks, outer, behind, rfl, hquiet, hinside, hblanks, houter⟩
    have hstops : ∀ c ∈ inside, (c != ')') = true := by
      rintro c hc
      simp only [bne_iff_ne]
      rintro rfl
      exact hquiet hc
    have hoff := not_isBlank_of_isOuterQuantifier houter
    rw [List.takeWhile_append_of_pos hstops, List.dropWhile_append_of_pos hstops]
    simp only [List.takeWhile_cons, bne_self_eq_false, Bool.false_eq_true, if_false, List.append_nil,
      List.dropWhile_cons, hinside, Bool.true_and]
    rw [List.dropWhile_append_of_pos (by simpa using hblanks), List.dropWhile_cons, hoff]
    exact houter

/-- The guard keeps out a group with a quantifier in it, up to the first closing parenthesis, with
another quantifier behind it. -/
theorem hasNestedRepetition_iff {text : List Char} : hasNestedRepetition text = true ↔
    ∃ before outer behind, text = before ++ outer :: behind ∧ EndsWithQuantified before ∧
      isOuterQuantifier outer = true := by
  induction text with
  | nil => simp [hasNestedRepetition]
  | cons c rest ih =>
    rw [hasNestedRepetition, Bool.or_eq_true, Bool.and_eq_true, beq_iff_eq, repeatsInside_iff, ih]
    constructor
    · rintro (⟨rfl, inside, blanks, outer, behind, rfl, hquiet, hinside, hblanks, houter⟩ |
        ⟨before, outer, behind, rfl, ⟨front, inside, blanks, rfl, hquiet, hinside, hblanks⟩, houter⟩)
      · exact ⟨'(' :: (inside ++ ')' :: blanks), outer, behind, by simp,
          ⟨[], inside, blanks, rfl, hquiet, hinside, hblanks⟩, houter⟩
      · exact ⟨c :: (front ++ '(' :: (inside ++ ')' :: blanks)), outer, behind, by simp,
          ⟨c :: front, inside, blanks, rfl, hquiet, hinside, hblanks⟩, houter⟩
    · rintro ⟨_, outer, behind, heq, ⟨front, inside, blanks, rfl, hquiet, hinside, hblanks⟩, houter⟩
      cases front with
      | nil =>
        obtain ⟨rfl, rfl⟩ := List.cons.inj heq
        exact .inl ⟨rfl, inside, blanks, outer, behind, by simp, hquiet, hinside, hblanks, houter⟩
      | cons first front =>
        obtain ⟨rfl, rfl⟩ := List.cons.inj heq
        exact .inr ⟨_, outer, behind, rfl, ⟨front, inside, blanks, rfl, hquiet, hinside, hblanks⟩,
          houter⟩

/-- What the guard keeps out, it keeps out inside of any text. -/
theorem hasNestedRepetition_append {text : List Char} (h : hasNestedRepetition text = true)
    (front behind : List Char) : hasNestedRepetition (front ++ (text ++ behind)) = true := by
  obtain ⟨before, outer, rest, rfl, ⟨start, inside, blanks, rfl, hends⟩, houter⟩ :=
    hasNestedRepetition_iff.1 h
  exact hasNestedRepetition_iff.2 ⟨front ++ (start ++ '(' :: (inside ++ ')' :: blanks)), outer,
    rest ++ behind, by simp, ⟨front ++ start, inside, blanks, by simp, hends⟩, houter⟩

/-! ## Parts of patterns -/

/-- The parts of a pattern at any depth, apart from sequences and alternatives. -/
def Tree.parts : Tree → List Tree
  | .empty => []
  | .seq first rest => first.parts ++ rest.parts
  | .alt first second => first.parts ++ second.parts
  | .group index on off body => .group index on off body :: body.parts
  | .atomic body => .atomic body :: body.parts
  | .look behind negated body => .look behind negated body :: body.parts
  | .conditional index yes no => .conditional index yes no :: (yes.parts ++ no.parts)
  | .repeated least most greed body => .repeated least most greed body :: body.parts
  | item => [item]

/-- Whether a pattern is a repetition. -/
def Tree.isRepetition : Tree → Bool
  | .repeated .. => true
  | _ => false

/-- What is between the parentheses of a group, or of a condition on the text ahead or behind. -/
def Tree.body? : Tree → Option Tree
  | .group _ _ _ body | .atomic body | .look _ _ body => some body
  | _ => none

/-- A pattern has a repetition in it and no closing parenthesis. -/
structure Tree.IsOpen (tree : Tree) : Prop where
  repeats : ∃ part ∈ tree.parts, part.isRepetition = true
  quiet : ∀ part ∈ tree.parts, part.closes = false

/-- A group with a repetition in it, which has no closing parenthesis inside, is itself repeated, and
not only up to once. -/
def Tree.IsNested (part : Tree) : Prop :=
  ∃ least most greed item body, part = .repeated least most greed item ∧
    (least, most) ≠ (0, some 1) ∧ item.body? = some body ∧ body.IsOpen

theorem Tree.parts_ofItems (items : List Tree) : (ofItems items).parts = items.flatMap parts := by
  induction items with
  | nil => rfl
  | cons item rest ih => exact congrArg (item.parts ++ ·) ih

theorem Tree.parts_alternatives (trees : List Tree) :
    (Pattern.alternatives trees).parts = trees.flatMap parts := by
  match trees with
  | [] => rfl
  | [one] => exact (List.append_nil _).symm
  | one :: other :: rest => exact congrArg (one.parts ++ ·) (parts_alternatives (other :: rest))

theorem Tree.parts_of_isPlain {item : Tree} (h : item.isPlain = true) : item.parts = [item] := by
  cases item <;> first | rfl | cases h

/-! ## What shows in the text -/

/-- What the text of some parts shows: their repetitions by a quantifier, and nested repetition to the
guard.  A closing parenthesis is one of theirs, if the text is `inner`; else it may be that of options
for the whole pattern. -/
structure Shows (inner : Bool) (parts : List Tree) (text : List Char) : Prop where
  repeats : (∃ part ∈ parts, part.isRepetition = true) → text.any isInnerQuantifier = true
  closes : inner = true → ')' ∈ text → ∃ part ∈ parts, part.closes = true
  nests : (∃ part ∈ parts, part.IsNested) → hasNestedRepetition text = true

/-- What the text of an item shows: a group that is open ends it, apart from blanks. -/
structure ShowsItem (inner : Bool) (item : Tree) (text : List Char) : Prop
    extends Shows inner item.parts text where
  encloses : ∀ body, item.body? = some body → body.IsOpen → EndsWithQuantified text

/-- What the text of the items read so far shows, latest first. -/
structure ShowsRead (inner : Bool) (read : List Tree) (text : List Char) : Prop
    extends Shows inner (read.flatMap Tree.parts) text where
  encloses : ∀ item body, read.head? = some item → item.body? = some body → body.IsOpen →
    EndsWithQuantified text

namespace Shows

variable {inner : Bool} {parts others : List Tree} {text more : List Char}

theorem congr (h : Shows inner parts text) (hsame : ∀ part, part ∈ others ↔ part ∈ parts) :
    Shows inner others text where
  repeats := by simpa only [hsame] using h.repeats
  closes := by simpa only [hsame] using h.closes
  nests := by simpa only [hsame] using h.nests

/-- A text of nothing. -/
theorem nil (h : inner = true → ')' ∉ text) : Shows inner [] text where
  repeats := by simp
  closes := fun hinner hmem => absurd hmem (h hinner)
  nests := by simp

theorem append (h : Shows inner parts text) (h' : Shows inner others more) :
    Shows inner (parts ++ others) (text ++ more) where
  repeats := by
    rintro ⟨part, hpart, hrepeats⟩
    rw [List.any_append, Bool.or_eq_true]
    rcases List.mem_append.1 hpart with hpart | hpart
    · exact .inl (h.repeats ⟨part, hpart, hrepeats⟩)
    · exact .inr (h'.repeats ⟨part, hpart, hrepeats⟩)
  closes := by
    intro hinner hmem
    rcases List.mem_append.1 hmem with hmem | hmem
    · obtain ⟨part, hpart, hcloses⟩ := h.closes hinner hmem
      exact ⟨part, List.mem_append_left _ hpart, hcloses⟩
    · obtain ⟨part, hpart, hcloses⟩ := h'.closes hinner hmem
      exact ⟨part, List.mem_append_right _ hpart, hcloses⟩
  nests := by
    rintro ⟨part, hpart, hnests⟩
    rcases List.mem_append.1 hpart with hpart | hpart
    · exact hasNestedRepetition_append (h.nests ⟨part, hpart, hnests⟩) [] more
    · simpa using hasNestedRepetition_append (h'.nests ⟨part, hpart, hnests⟩) text []

/-- A text of nothing stands before. -/
theorem prepend (h : Shows inner parts more) (hquiet : inner = true → ')' ∉ text) :
    Shows inner parts (text ++ more) :=
  (nil hquiet).append h

/-- A text of nothing stands behind. -/
theorem extend (h : Shows inner parts text) (hquiet : inner = true → ')' ∉ more) :
    Shows inner parts (text ++ more) := by
  simpa using h.append (nil hquiet)

theorem outer (h : Shows inner parts text) : Shows false parts text where
  repeats := h.repeats
  closes := by simp
  nests := h.nests

/-- Nothing needs to be known of the closing parentheses in a part that has one of its own. -/
theorem of_closes {item : Tree} (h : Shows false parts text) (hcloses : item.closes = true)
    (hitem : item.isRepetition = false) : Shows inner (item :: parts) text where
  repeats := by simpa [hitem] using h.repeats
  closes := fun _ _ => ⟨item, List.mem_cons_self, hcloses⟩
  nests := by
    rintro ⟨part, hpart, hnests⟩
    rcases List.mem_cons.1 hpart with rfl | hpart
    · obtain ⟨least, most, greed, item, body, rfl, -⟩ := hnests
      cases hitem
    · exact h.nests ⟨part, hpart, hnests⟩

end Shows

theorem EndsWithQuantified.prepend {text : List Char} (h : EndsWithQuantified text)
    (front : List Char) : EndsWithQuantified (front ++ text) := by
  obtain ⟨before, inside, blanks, rfl, hends⟩ := h
  exact ⟨front ++ before, inside, blanks, by simp, hends⟩

namespace ShowsItem

variable {inner : Bool} {item body : Tree} {text : List Char}

/-- An item without parts has no repetition. -/
theorem of_isPlain (hplain : item.isPlain = true) (hcloses : ')' ∈ text → item.closes = true) :
    ShowsItem inner item text := by
  have hbody : item.body? = none := by cases item <;> first | rfl | cases hplain
  have hrepeats : item.isRepetition = false := by cases item <;> first | rfl | cases hplain
  refine ⟨?_, fun body hsome => by rw [hbody] at hsome; cases hsome⟩
  rw [Tree.parts_of_isPlain hplain]
  refine ⟨by simp [hrepeats], fun _ hmem => ⟨item, by simp, hcloses hmem⟩, ?_⟩
  rintro ⟨part, hpart, least, most, greed, repeated, body, rfl, -⟩
  rw [← List.mem_singleton.1 hpart] at hrepeats
  cases hrepeats

/-- A group is open if its body is, as nothing that opens it has a closing parenthesis. -/
theorem of_body (hbody : item.body? = some body) (h : Shows true body.parts text)
    {opening : List Char} (hopening : ')' ∉ opening) :
    ShowsItem inner item ('(' :: (opening ++ (text ++ [')']))) := by
  have hparts : item.parts = item :: body.parts ∧ item.closes = true ∧ item.isRepetition = false := by
    cases item <;> cases hbody <;> exact ⟨rfl, rfl, rfl⟩
  obtain ⟨hparts, hcloses, hrepeats⟩ := hparts
  have hwhole : Shows false body.parts (['('] ++ (opening ++ (text ++ [')']))) :=
    ((h.outer.extend (by simp)).prepend (by simp)).prepend (by simp)
  refine ⟨hparts ▸ hwhole.of_closes hcloses hrepeats, fun other hother hopen => ?_⟩
  obtain rfl : other = body := Option.some.inj (hother.symm.trans hbody)
  refine ⟨[], opening ++ text, [], by simp, ?_, ?_, rfl⟩
  · intro hmem
    obtain ⟨part, hpart, hclosing⟩ := h.closes rfl ((List.mem_append.1 hmem).resolve_left hopening)
    rw [hopen.quiet part hpart] at hclosing
    cases hclosing
  · rw [List.any_append, h.repeats hopen.repeats, Bool.or_true]

theorem conditional {index : Nat} {yes no : Tree} {chosen other : List Char}
    (hyes : Shows true yes.parts chosen) (hno : Shows true no.parts other) (front bar : List Char) :
    ShowsItem inner (.conditional index yes no) (front ++ (chosen ++ (bar ++ (other ++ [')'])))) := by
  have hboth : Shows false (yes.parts ++ no.parts) (front ++ (chosen ++ (bar ++ (other ++ [')'])))) :=
    (hyes.outer.append ((hno.outer.extend (by simp)).prepend (by simp))).prepend (by simp)
  exact ⟨hboth.of_closes rfl rfl, nofun⟩

end ShowsItem

namespace ShowsRead

variable {inner : Bool} {read : List Tree} {item : Tree} {text more : List Char}

theorem nil (h : inner = true → ')' ∉ text) : ShowsRead inner [] text where
  toShows := Shows.nil h
  encloses := by simp

theorem add (h : ShowsRead inner read text) (hitem : ShowsItem inner item more) :
    ShowsRead inner (item :: read) (text ++ more) where
  toShows := (h.toShows.append hitem.toShows).congr fun part => by simp [or_comm]
  encloses := by
    rintro _ body ⟨⟩ hbody hopen
    exact (hitem.encloses body hbody hopen).prepend text

/-- A blank that is skipped. -/
theorem blank (h : ShowsRead inner read text) {c : Char} (hc : Unicode.isBlank c = true) :
    ShowsRead inner read (text ++ [c]) where
  toShows := h.toShows.extend fun _ hmem => by
    rw [← List.mem_singleton.1 hmem] at hc
    exact absurd hc (by decide)
  encloses := by
    intro item body hitem hbody hopen
    obtain ⟨before, inside, blanks, rfl, hquiet, hinside, hblanks⟩ := h.encloses item body hitem hbody hopen
    exact ⟨before, inside, blanks ++ [c], by simp, hquiet, hinside, by simp [hblanks, hc]⟩

/-- The guard sees the quantifier behind a group that is open. -/
theorem repeated (h : ShowsRead inner (item :: read) text) {least : Nat} {most : Option Nat}
    {greed : Greed} {sign : Char} (hquiet : ')' ∉ sign :: more)
    (hsign : (sign :: more).any isInnerQuantifier = true)
    (houter : (least, most) ≠ (0, some 1) → isOuterQuantifier sign = true) :
    ShowsRead inner (.repeated least most greed item :: read) (text ++ sign :: more) where
  repeats := fun _ => by rw [List.any_append, hsign, Bool.or_true]
  closes := by
    intro hinner hmem
    obtain ⟨part, hpart, hcloses⟩ :=
      h.closes hinner ((List.mem_append.1 hmem).resolve_right hquiet)
    exact ⟨part, List.mem_cons_of_mem _ hpart, hcloses⟩
  nests := by
    rintro ⟨part, hpart, hnests⟩
    rcases List.mem_cons.1 hpart with rfl | hpart
    · obtain ⟨_, _, _, _, body, ⟨⟩, hcounts, hbody, hopen⟩ := hnests
      exact hasNestedRepetition_iff.2 ⟨text, sign, more, rfl, h.encloses item body rfl hbody hopen,
        houter hcounts⟩
    · exact hasNestedRepetition_append (h.nests ⟨part, hpart, hnests⟩) [] (sign :: more)
  encloses := by
    rintro _ body ⟨⟩ hbody
    cases hbody

theorem ofItems (h : ShowsRead inner read text) :
    Shows inner (Tree.ofItems read.reverse).parts text := by
  rw [Tree.parts_ofItems]
  exact h.toShows.congr fun part => by simp

end ShowsRead

theorem isBlank_of_isPatternBlank {c : Char} (h : isPatternBlank c = true) :
    Unicode.isBlank c = true := by
  rw [isPatternBlank, Bool.or_eq_true, beq_iff_eq] at h
  rcases h with rfl | h
  · decide
  · simp only [Bool.and_eq_true, decide_eq_true_eq] at h
    have hsmall : c.toNat < 0x80 := by omega
    simp [Unicode.isBlank, hsmall, h]

/-! ## Alternatives, items and groups -/

section

variable (fuel : Nat)

/-- The items that are read with this fuel show in the text, if that has no comment. -/
def ItemsShow : Prop :=
  ∀ {calls : Nat} (verbose first : Bool) {read : List Tree} {text : List Char},
    ('#' ∉ text → ShowsRead (!first) read text) →
    Takes (fun tree taken => '#' ∉ text ++ taken → Shows (!first) tree.parts (text ++ taken))
      (readItems fuel calls verbose first read)

/-- The alternatives that are read with this fuel show in the text, if that has no comment. -/
def AlternativesShow : Prop :=
  ∀ {calls : Nat} (verbose outermost : Bool) {read : List Tree} {text : List Char},
    ('#' ∉ text → Shows (!outermost) (read.flatMap Tree.parts) text) →
    Takes (fun tree taken => '#' ∉ text ++ taken → Shows (!outermost) tree.parts (text ++ taken))
      (readAlternatives fuel calls verbose outermost read)

/-- The groups that are read with this fuel show in the text, if that has no comment. -/
def GroupsShow : Prop :=
  ∀ {calls : Nat} (verbose inner : Bool) (start : Nat) {opening : Opening} {text : List Char},
    opening ≠ .wholeFlags → opening.Shows text →
    Takes (fun tree taken => '#' ∉ text ++ taken → ShowsItem inner tree ('(' :: (text ++ taken)))
      (readGroup fuel calls verbose start opening)

end

variable {fuel : Nat}

namespace ItemsShow

variable {calls left : Nat} {verbose first : Bool} {read : List Tree} {text : List Char}

/-- One more item was read. -/
theorem add (hitems : ItemsShow fuel) (h : '#' ∉ text → ShowsRead (!first) read text) {item : Tree}
    (more : List Char) (hitem : '#' ∉ more → ShowsItem (!first) item more) :
    Takes (fun tree taken => '#' ∉ text ++ (more ++ taken) →
        Shows (!first) tree.parts (text ++ (more ++ taken)))
      (readItems fuel calls verbose first (item :: read)) := by
  simp only [← List.append_assoc]
  refine hitems verbose first fun hnone => ?_
  rw [List.mem_append, not_or] at hnone
  exact (h hnone.1).add (hitem hnone.2)

/-- A comment was read, so nothing has to show. -/
theorem skip (hitems : ItemsShow fuel) (more : List Char) (hcomment : '#' ∈ more) :
    Takes (fun tree taken => '#' ∉ text ++ (more ++ taken) →
        Shows (!first) tree.parts (text ++ (more ++ taken)))
      (readItems fuel calls verbose first read) := by
  simp only [← List.append_assoc]
  exact hitems verbose first fun hnone => absurd (List.mem_append_right _ hcomment) hnone

/-- The item that was read last is repeated. -/
theorem quantify (hitems : ItemsShow fuel) (h : '#' ∉ text → ShowsRead (!first) read text)
    (start : Nat) {c : Char} {signs : List Char} {counts : Counts} (hquiet : ')' ∉ c :: signs)
    (hsign : (c :: signs).any isInnerQuantifier = true)
    (houter : (counts.least, counts.most) ≠ (0, some 1) → isOuterQuantifier c = true) :
    Takes (fun tree taken => '#' ∉ text ++ (c :: (signs ++ taken)) →
        Shows (!first) tree.parts (text ++ (c :: (signs ++ taken))))
      (do readItems fuel calls verbose first ((← repeatItem start counts read.head?) :: read.drop 1)) := by
  refine (Takes.repeatItem start counts _).bind fun item more hitem => ?_
  obtain ⟨hmore, repeated, greed, hhead, rfl⟩ := hitem
  obtain ⟨rest, rfl⟩ : ∃ rest, read = repeated :: rest := by
    cases read with
    | nil => cases hhead
    | cons head rest => exact ⟨rest, by rw [Option.some.inj hhead]⟩
  have hboth : ')' ∉ c :: (signs ++ more) := by
    rw [← List.cons_append, List.mem_append, not_or]
    exact ⟨hquiet, hmore⟩
  have hsigns : (c :: (signs ++ more)).any isInnerQuantifier = true := by
    rw [← List.cons_append, List.any_append, hsign, Bool.true_or]
  have hread : '#' ∉ text ++ c :: (signs ++ more) → ShowsRead (!first)
      (.repeated counts.least counts.most greed repeated :: rest)
      (text ++ c :: (signs ++ more)) := fun hnone =>
    (h fun hmem => hnone (List.mem_append_left _ hmem)).repeated hboth hsigns houter
  simpa only [List.append_assoc, List.cons_append, List.drop_one, List.tail_cons] using
    hitems verbose first hread

/-- A group is read behind its opening. -/
theorem group (hitems : ItemsShow fuel) (hgroups : GroupsShow fuel)
    (h : '#' ∉ text → ShowsRead (!first) read text) (start : Nat) {opening : Opening}
    {more : List Char} (hne : opening ≠ .wholeFlags) (hopening : opening.Shows more) :
    Takes (fun tree taken => '#' ∉ text ++ '(' :: (more ++ taken) →
        Shows (!first) tree.parts (text ++ '(' :: (more ++ taken)))
      (do readItems fuel calls verbose first ((← readGroup fuel left verbose start opening) :: read)) := by
  refine (hgroups verbose (!first) start hne hopening).bind fun item taken hitem => ?_
  have hadd : Takes _ (readItems fuel calls verbose first (item :: read)) :=
    hitems.add h ('(' :: (more ++ taken)) fun hnone =>
      hitem fun hmem => hnone (List.mem_cons_of_mem _ hmem)
  simpa only [List.append_assoc, List.cons_append] using hadd

/-- One item or none is read from its first character on. -/
theorem from_char (hitems : ItemsShow fuel) (hgroups : GroupsShow fuel)
    (h : '#' ∉ text → ShowsRead (!first) read text) (start : Nat) {c : Char} (hc : c ≠ ')') :
    Takes (fun tree taken => '#' ∉ text ++ (c :: taken) →
        Shows (!first) tree.parts (text ++ (c :: taken)))
      (readItemsFrom fuel calls left verbose first read start c) := by
  have hplain : ∀ {item : Tree}, item.isPlain = true → '#' ∉ [c] → ShowsItem (!first) item [c] :=
    fun hitem _ => .of_isPlain hitem fun hmem => absurd (List.mem_singleton.1 hmem).symm hc
  have hadd : ∀ {item : Tree}, item.isPlain = true → Takes (fun tree taken =>
      '#' ∉ text ++ (c :: taken) → Shows (!first) tree.parts (text ++ (c :: taken)))
      (readItems fuel calls verbose first (item :: read)) := fun hitem =>
    hitems.add h [c] (hplain hitem)
  unfold readItemsFrom
  refine .ite (fun hblank => ?_) fun _ => .ite (fun hcomment => ?_) fun _ =>
    .ite (fun hclass => ?_) fun _ => .ite (fun hrepeated => ?_) fun _ => .ite (fun _ => hadd rfl)
    fun _ => .ite (fun _ => hadd rfl) fun _ => .ite (fun _ => hadd rfl) fun _ =>
    .ite (fun hopens => ?_) fun _ => hadd rfl
  · have hread : '#' ∉ text ++ [c] → ShowsRead (!first) read (text ++ [c]) := fun hnone =>
      (h fun hmem => hnone (List.mem_append_left _ hmem)).blank
        (isBlank_of_isPatternBlank (Bool.and_eq_true_iff.1 hblank).2)
    simpa only [List.append_assoc, List.singleton_append] using hitems verbose first hread
  · obtain rfl : c = '#' := eq_of_beq (Bool.and_eq_true_iff.1 hcomment).2
    exact Takes.get_bind fun _ => (Takes.skipLine _).bind fun _ skipped _ =>
      hitems.skip ('#' :: skipped) List.mem_cons_self
  · refine (Takes.readClass start).bind fun item more hitem => hitems.add h (c :: more) fun _ => ?_
    refine .of_isPlain hitem.1 fun hmem => hitem.2 ?_
    exact (List.mem_cons.1 hmem).resolve_left hc.symm
  · refine (Takes.quantifier hrepeated).bind fun counts taken hcounts => ?_
    cases counts with
    | none =>
      exact hitems.add h (c :: taken) fun _ =>
        .of_isPlain rfl fun hmem => absurd hmem hcounts.1
    | some counts =>
      obtain ⟨hquiet, hcounts⟩ := hcounts
      obtain ⟨hsign, houter⟩ := hcounts counts rfl
      exact hitems.quantify h start hquiet hsign houter
  · obtain rfl : c = '(' := eq_of_beq hopens
    refine (Takes.readOpening start).bind fun opening more hopening => ?_
    cases opening with
    | nothing => exact hitems.skip ('(' :: more) (List.mem_cons_of_mem _ hopening)
    | wholeFlags =>
      refine .ite (fun hstart => Takes.get_bind fun c => ?_) fun _ => .failAt
      rw [Bool.and_eq_true, List.isEmpty_iff] at hstart
      obtain ⟨rfl, rfl⟩ := hstart
      have hread : '#' ∉ text ++ '(' :: more → ShowsRead false [] (text ++ '(' :: more) :=
        fun _ => .nil (by simp)
      simpa only [List.append_assoc, List.cons_append] using hitems c.flags.verbose true hread
    | reference item =>
      exact hitems.add h ('(' :: more) fun _ => .of_isPlain hopening.1 fun _ => hopening.2
    | capture name => exact hitems.group hgroups h start (by simp) hopening
    | plain on off => exact hitems.group hgroups h start (by simp) hopening
    | atomic => exact hitems.group hgroups h start (by simp) hopening
    | look behind negated => exact hitems.group hgroups h start (by simp) hopening
    | conditional => exact hitems.group hgroups h start (by simp) hopening

theorem succ (hitems : ItemsShow fuel) (hgroups : GroupsShow fuel) : ItemsShow (fuel + 1) := by
  intro calls verbose first read text h
  rw [readItems_succ]
  have hdone : Takes (fun tree taken => '#' ∉ text ++ taken →
      Shows (!first) tree.parts (text ++ taken)) (Pure.pure (Tree.ofItems read.reverse)) := by
    refine .pure fun hnone => ?_
    rw [List.append_nil] at hnone ⊢
    exact (h hnone).ofItems
  refine (Takes.enter calls).bind_of_nil fun left => Takes.get_bind fun c =>
    Takes.peek_bind fun token => ?_
  match token with
  | none => exact .of_takes hdone
  | some (.escape c) =>
    refine .next_bind ((Takes.escapeOutside c).bind fun item more hitem => ?_)
    refine hitems.add h ('\\' :: c :: more) fun _ => .of_isPlain hitem.1 fun hmem => hitem.2 ?_
    exact (List.mem_cons.1 hmem).resolve_left (by decide)
  | some (.char c) =>
    refine .ite (fun _ => .of_takes hdone) fun hgoes => .next_bind ?_
    exact hitems.from_char hgroups h _ fun hc => hgoes (by rw [hc]; rfl)

end ItemsShow

theorem AlternativesShow.succ (hitems : ItemsShow fuel) (halternatives : AlternativesShow fuel) :
    AlternativesShow (fuel + 1) := by
  intro calls verbose outermost read text h
  rw [readAlternatives]
  have hnil : '#' ∉ ([] : List Char) → ShowsRead (!(outermost && read.isEmpty)) [] [] :=
    fun _ => .nil (by simp)
  refine (Takes.enter calls).bind_of_nil fun left => (hitems verbose _ hnil).bind fun item taken hitem => ?_
  refine (Takes.accept '|').bind fun found bar hbar => ?_
  have hbar : ')' ∉ bar := by
    rw [hbar]
    split <;> decide
  have hread : '#' ∉ text ++ (taken ++ bar) →
      Shows (!outermost) ((item :: read).flatMap Tree.parts) (text ++ (taken ++ bar)) := by
    intro hnone
    simp only [List.mem_append, not_or] at hnone
    have hitem := hitem hnone.2.1
    have hown : Shows (!outermost) item.parts taken := by
      cases outermost with
      | true => exact hitem.outer
      | false => exact hitem
    refine ((h hnone.1).append (hown.extend fun _ => hbar)).congr fun part => by simp [or_comm]
  refine .ite (fun _ => Takes.get_bind fun c => ?_) fun _ => .pure fun hnone => ?_
  · simpa only [List.append_assoc] using halternatives _ outermost hread
  · rw [Tree.parts_alternatives]
    simp only [List.append_nil] at hnone ⊢
    exact (hread hnone).congr fun part => by simp [or_comm]

/-- The body of a group was read, so the group shows once its closing parenthesis is taken. -/
theorem ShowsItem.takes_closing {inner : Bool} {item body : Tree} (hbody : item.body? = some body)
    {text taken : List Char} (hquiet : ')' ∉ text) (h : '#' ∉ taken → Shows true body.parts taken)
    (start : Nat) {r : Reading Tree} (hr : Takes (fun tree more => tree = item ∧ more = []) r) :
    Takes (fun tree more => '#' ∉ text ++ (taken ++ more) →
      ShowsItem inner tree ('(' :: (text ++ (taken ++ more)))) (do closing start; r) := by
  refine (Takes.closing start).bind fun _ bracket hbracket => hr.mono ?_
  rintro tree more ⟨rfl, rfl⟩ hnone
  subst hbracket
  simp only [List.mem_append, not_or] at hnone
  exact .of_body hbody (h hnone.2.1) hquiet

/-- Both branches of a condition show. -/
theorem ItemsShow.conditional (hitems : ItemsShow fuel) {calls : Nat} {verbose : Bool} (inner : Bool)
    (start : Nat) (text : List Char) :
    Takes (fun tree taken => '#' ∉ text ++ taken → ShowsItem inner tree ('(' :: (text ++ taken)))
      (readGroup (fuel + 1) calls verbose start .conditional) := by
  rw [readGroup]
  have hbranch : Takes (fun branch taken => '#' ∉ taken → Shows true branch.parts taken)
      (readItems fuel calls verbose false []) := by
    have hnil : '#' ∉ ([] : List Char) → ShowsRead true [] [] := fun _ => .nil (by simp)
    exact hitems verbose false hnil
  refine Takes.readCondition.bind fun index asked _ => (Takes.checkLookBehind index).bind_of_nil
    fun _ => hbranch.bind fun yes chosen hyes => (Takes.accept '|').bind fun found bar _ => ?_
  have hclose : ∀ {no : Tree} (other : List Char), ('#' ∉ other → Shows true no.parts other) →
      Takes (fun tree taken => '#' ∉ text ++ (asked ++ (chosen ++ (bar ++ (other ++ taken)))) →
        ShowsItem inner tree ('(' :: (text ++ (asked ++ (chosen ++ (bar ++ (other ++ taken))))))) (do
        closing start
        return .conditional index yes no) := by
    intro no other hno
    refine (Takes.closing start).bind fun _ bracket hbracket => .pure fun hnone => ?_
    subst hbracket
    simp only [List.mem_append, not_or] at hnone
    have hshows : ShowsItem inner (.conditional index yes no) _ :=
      .conditional (hyes hnone.2.2.1) (hno hnone.2.2.2.2.1) ('(' :: (text ++ asked)) bar
    simpa using hshows
  refine .ite (fun _ => hbranch.bind fun no other hno => Takes.peek.bind_of_nil fun _ => ?_) fun _ => ?_
  · refine .ite (fun _ => (Takes.failBack (P := fun _ _ => False)).bind fun _ _ h => h.elim) fun _ => ?_
    simpa only [pure_bind] using hclose other hno
  · rw [pure_bind]
    exact hclose [] fun _ => .nil (by simp)

theorem GroupsShow.succ (hitems : ItemsShow fuel) (halternatives : AlternativesShow fuel) :
    GroupsShow (fuel + 1) := by
  intro calls verbose inner start opening text hne hopening
  have hnil : '#' ∉ ([] : List Char) → Shows true (([] : List Tree).flatMap Tree.parts) [] :=
    fun _ => .nil (by simp)
  have hbody : ∀ verbose, Takes (fun body taken => '#' ∉ taken → Shows true body.parts taken)
      (readAlternatives fuel calls verbose false []) := fun verbose => halternatives verbose false hnil
  cases opening with
  | nothing =>
    rw [readGroup]
    exact .pure fun hnone => absurd (List.mem_append_left _ hopening) hnone
  | wholeFlags => exact absurd rfl hne
  | reference item =>
    rw [readGroup]
    exact .pure fun _ => .of_isPlain hopening.1 fun _ => hopening.2
  | capture name =>
    rw [readGroup]
    refine (Takes.openGroup name).bind_of_nil fun index => (hbody _).bind fun body taken hbody => ?_
    refine ShowsItem.takes_closing ?_ hopening hbody start
      ((Takes.closeGroup index).bind_of_nil fun _ => .pure ⟨rfl, rfl⟩)
    rfl
  | plain on off =>
    rw [readGroup]
    exact (hbody _).bind fun body taken hbody =>
      ShowsItem.takes_closing rfl hopening hbody start (.pure ⟨rfl, rfl⟩)
  | atomic =>
    rw [readGroup]
    exact (hbody _).bind fun body taken hbody =>
      ShowsItem.takes_closing rfl hopening hbody start (.pure ⟨rfl, rfl⟩)
  | look behind negated =>
    rw [readGroup_look]
    have hlook : ∀ outer, Takes (fun tree taken => '#' ∉ text ++ taken →
        ShowsItem inner tree ('(' :: (text ++ taken)))
        (readLook fuel calls verbose start outer behind negated) := by
      intro outer
      exact (hbody _).bind fun body taken hbody => (Takes.setGroupsBefore fun _ => outer).bind_of_nil
        fun _ => ShowsItem.takes_closing rfl hopening hbody start (.pure ⟨rfl, rfl⟩)
    refine Takes.get_bind fun c => .ite (fun _ => ?_) fun _ => hlook _
    exact (Takes.setGroupsBefore fun cursor => some cursor.groups).bind_of_nil fun _ => hlook _
  | conditional => exact hitems.conditional inner start text

/-- What is read shows in the text, with any fuel. -/
theorem shown (fuel : Nat) : ItemsShow fuel ∧ AlternativesShow fuel ∧ GroupsShow fuel := by
  induction fuel with
  | zero =>
    exact ⟨fun _ _ _ _ _ => .failBack, fun _ _ _ _ _ => .failBack, fun _ _ _ _ _ _ _ => .failBack⟩
  | succ fuel ih =>
    obtain ⟨hitems, halternatives, hgroups⟩ := ih
    exact ⟨hitems.succ hgroups, halternatives.succ hitems, GroupsShow.succ hitems halternatives⟩

/-! ## Whole patterns -/

/-- A pattern without comments shows nested repetition of open groups to the guard. -/
theorem not_isNested_of_guard {characters : Unicode.CharacterNames} {flags settled : Flags}
    {text : List Char} {tree : Tree} (hcomment : '#' ∉ text)
    (hparse : parse characters flags text = .ok (settled, tree))
    (hguard : hasNestedRepetition text = false) : ∀ part ∈ tree.parts, ¬part.IsNested := by
  intro part hpart hnested
  obtain ⟨-, c', hread, hrest, -⟩ := read_of_parse hparse
  have hnil : '#' ∉ ([] : List Char) → Shows false (([] : List Tree).flatMap Tree.parts) [] :=
    fun _ => .nil (by simp)
  obtain ⟨taken, htext, hshows⟩ := (shown _).2.1 flags.verbose true hnil hread
  obtain rfl : text = taken := by
    rw [hrest, List.append_nil] at htext
    exact htext
  have hseen := (hshows hcomment).nests ⟨part, hpart, hnested⟩
  rw [List.nil_append, hguard] at hseen
  cases hseen

/-- Where an accepted pattern repeats a group with a repetition in it, other than up to once, the group
has a closing parenthesis inside: that of another group, of a reference by name, or one that stands for
itself.  Otherwise the text has the sign of a comment, which may hide what is in the group or behind it. -/
theorem closes_of_nested {characters : Unicode.CharacterNames} {text : String}
    (hcheck : check characters text = .ok ()) {flags settled : Flags} {tree : Tree}
    (hparse : parse characters flags text.toList = .ok (settled, tree)) {least : Nat}
    {most : Option Nat} {greed : Greed} {item body : Tree}
    (hpart : .repeated least most greed item ∈ tree.parts) (hcounts : (least, most) ≠ (0, some 1))
    (hbody : item.body? = some body) (hinner : ∃ part ∈ body.parts, part.isRepetition = true) :
    (∃ part ∈ body.parts, part.closes = true) ∨ '#' ∈ text.toList := by
  have hguard : hasNestedRepetition text.toList = false := (check_eq_ok_iff.1 hcheck).2.1
  by_contra hnone
  rw [not_or] at hnone
  have hopen : body.IsOpen := ⟨hinner, by simpa using hnone.1⟩
  exact not_isNested_of_guard hnone.2 hparse hguard _ hpart
    ⟨least, most, greed, item, body, rfl, hcounts, hbody, hopen⟩

/-- The letter `a`, an escaped closing parenthesis and a repeated `b`, in a repeated group. -/
theorem closes_of_nested_escape :
    let text := "(a\\)b+)+"
    let body := Tree.ofItems [.point 0x61, .point 0x29, .repeated 1 none .greedy (.point 0x62)]
    let tree := Tree.ofItems [.repeated 1 none .greedy (.group (some 1) .none .none body)]
    check .ascii text = .ok () ∧
      parse .ascii .none text.toList = .ok ({ Flags.none with unicode := true }, tree) ∧
      ((∃ part ∈ body.parts, part.closes = true) ∨ '#' ∈ text.toList) := by
  intro text body tree
  have hcheck : check .ascii text = .ok () := by decide +kernel
  have hparse : parse .ascii .none text.toList = .ok ({ Flags.none with unicode := true }, tree) :=
    eq_ok_of_toOption (by decide +kernel)
  have hpart : .repeated 1 none .greedy (.group (some 1) .none .none body) ∈ tree.parts := by decide
  exact ⟨hcheck, hparse, closes_of_nested hcheck hparse hpart (by decide) rfl (by decide)⟩

/-- A repeated `a` in a group, with `b` behind it in another group that is repeated: neither repetition
has a bound, and the pattern is accepted. -/
theorem nested_repetition_accepted :
    let text := "((a+)b)+"
    let inner := Tree.repeated 1 none .greedy (.point 0x61)
    let body := Tree.ofItems [.group (some 2) .none .none (.ofItems [inner]), .point 0x62]
    let outer := Tree.repeated 1 none .greedy (.group (some 1) .none .none body)
    check .ascii text = .ok () ∧
      parse .ascii .none text.toList = .ok ({ Flags.none with unicode := true }, .ofItems [outer]) ∧
      outer ∈ (Tree.ofItems [outer]).parts ∧ inner ∈ body.parts := by
  intro text inner body outer
  exact ⟨by decide +kernel, eq_ok_of_toOption (by decide +kernel), by decide, by decide⟩

end BinaryStrings.Pattern
