import BinaryStrings.Proofs.Pattern.CarriedBody
import Mathlib.Data.List.Forall2

/-!
# Patterns in turn

Several patterns can be read one behind the other, with the groups counted on.  This is what happens to
the bodies of the groups of `(?:p)|(?:q)`, and what happens to a pattern that is read alone.  A pattern
without references is the same in turn as alone, up to the numbers of its groups.

Main results:

- Theorem `readInTurn_of_free`: what is read in turn, if only the first pattern has references.
- Theorem `parse_of_readAlone`: a pattern that can be the body of a group, read alone.
- Theorem `readAlone_of_parse`: a pattern without options can be the body of a group.
- Theorem `parse_spliced`: patterns that are put together as alternatives.
-/

namespace BinaryStrings.Pattern

open Cursor (Agrees)
open Unicode (CharacterNames)

/-! ## Reading in turn -/

/-- So many calls are left within each other for the body of a group that is an item of a pattern. -/
def bodyCalls : Nat := mostCalls - 2

/-- Reads a whole text as the body of a group. -/
def readBody (text : List Char) : Reading Tree := do
  Reading.moveTo text 0
  let tree ← readAlternatives (4 * text.length + 8) bodyCalls false false []
  if (← Reading.peek).isSome then Reading.failBack .unbalanced 0 else return tree

/-- Reads several texts one behind the other. -/
def readBodies : List (List Char) → Reading (List Tree)
  | [] => return []
  | text :: rest => do
    let tree ← readBody text
    return tree :: (← readBodies rest)

/-- Before a text that follows nothing. -/
def Cursor.initial (characters : CharacterNames) : Cursor :=
  .start characters .none []

/-- The trees of texts that are read one behind the other. -/
def readInTurn (characters : CharacterNames) (texts : List (List Char)) : Except Error (List Tree) :=
  (do
    let trees ← readBodies texts
    checkConditions
    return trees : Reading (List Tree)).run' (.initial characters)

/-- The number of groups of a text that is read alone, the whole included, and its tree. -/
def readAlone (characters : CharacterNames) (text : List Char) : Except Error (Nat × Tree) :=
  (do
    let tree ← readBody text
    checkConditions
    return ((← get).groups, tree) : Reading (Nat × Tree)).run' (.initial characters)

/-! ## Places -/

/-- A place with no groups before it. -/
def Site.here (characters : CharacterNames) (flags : Flags) (tail : List Char) (htail : IsTail tail) :
    Site where
  characters := characters
  tail := tail
  flags := flags
  before := 0
  asked := []
  refers := true
  inner := true
  isTail := htail
  before_eq := fun _ => rfl
  asked_eq := fun _ => rfl

variable {characters : CharacterNames} {site : Site} {flags : Flags} {c d : Cursor}

namespace Cursor

/-- Both cursors are moved to a text. -/
theorem Agrees.follows (h : Agrees site c d) {rest : List Char} (hrest : rest ≠ ['\\'])
    (hfree : site.refers = false → isFreeOfReferences rest = true)
    (hflags : site.inner = false → isFreeOfFlags rest = true) (position position' : Nat) :
    Follows site { c with rest := rest, position := position }
      { d with rest := rest ++ site.tail, position := position' } where
  characters_eq := h.characters_eq
  characters_same := h.characters_same
  flags_eq := h.flags_eq
  groups_eq := h.groups_eq
  names_eq := h.names_eq
  closed_eq := h.closed_eq
  groupsBefore_eq := h.groupsBefore_eq
  conditions_eq := h.conditions_eq
  verbose_eq := h.verbose_eq
  numbered := h.numbered.move _ _ _ _
  rest_eq := rfl
  complete := hrest
  free := hfree
  unflagged := hflags

/-- What is behind a pattern, and where it stands, says nothing of its groups. -/
theorem Agrees.here {tail tail' : List Char} {htail : IsTail tail}
    (h : Agrees (.here characters flags tail htail) c d) (htail' : IsTail tail') (rest : List Char) (position : Nat) :
    Agrees (.here characters flags tail' htail') c { d with rest := rest, position := position } :=
  ⟨h.characters_eq, h.characters_same, h.flags_eq, h.groups_eq, h.names_eq, h.closed_eq,
    h.groupsBefore_eq, h.conditions_eq, h.verbose_eq, h.numbered⟩

theorem isNumbered_initial : (Cursor.initial characters).IsNumbered where
  groups_pos := Nat.one_pos
  names := by simp [Cursor.initial, Cursor.start]
  closed := by simp [Cursor.initial, Cursor.start]

/-- At the start nothing is known of groups. -/
theorem agrees_start (characters : CharacterNames) (flags : Flags) (text : List Char)
    {tail : List Char} (htail : IsTail tail) :
    Agrees (.here characters flags tail htail) (.initial characters) (.start characters flags text) where
  characters_eq := rfl
  characters_same := rfl
  flags_eq := rfl
  groups_eq := rfl
  names_eq := fun _ => rfl
  closed_eq := fun _ => rfl
  groupsBefore_eq := rfl
  conditions_eq := rfl
  verbose_eq := fun _ => rfl
  numbered := isNumbered_initial

end Cursor

/-- What the reader of a body does. -/
theorem readBody_eq_ok {text : List Char} {tree : Tree} {c' : Cursor} :
    readBody text c = .ok (tree, c') ↔ text ≠ ['\\'] ∧ c'.rest = [] ∧
      readAlternatives (4 * text.length + 8) bodyCalls false false []
        { c with rest := text, position := 0 } = .ok (tree, c') := by
  constructor
  · intro h
    obtain ⟨_, c₁, hmove, hread⟩ := Reading.bind_eq_ok.1 h
    obtain ⟨tree', c₂, hbody, hend⟩ := Reading.bind_eq_ok.1 hread
    obtain ⟨htext, ⟨⟩⟩ := Reading.moveTo_eq_ok.1 hmove
    rw [Reading.bind_of_ok (Reading.peek_run c₂)] at hend
    split at hend
    · exact absurd hend (Reading.failBack_ne_ok _ _ _)
    · rename_i hrest
      cases hend
      exact ⟨htext, firstToken?_eq_none_iff.1 (by simpa using hrest), hbody⟩
  · rintro ⟨htext, hrest, hread⟩
    have hmove : Reading.moveTo text 0 c = .ok ((), { c with rest := text, position := 0 }) :=
      Reading.moveTo_eq_ok.2 ⟨htext, rfl⟩
    rw [readBody, Reading.bind_of_ok hmove, Reading.bind_of_ok hread,
      Reading.bind_of_ok (Reading.peek_run c'), hrest]
    rfl

/-- A body that is read at a site. -/
theorem readBody_carried (h : Agrees site c d) (hinner : site.inner = true) {text : List Char}
    {tree : Tree} {c' : Cursor} (hfree : site.refers = false → isFreeOfReferences text = true)
    (hbody : readBody text c = .ok (tree, c')) {fuel calls : Nat} (hfuel : 4 * text.length + 8 ≤ fuel)
    (hcalls : bodyCalls ≤ calls) {outermost : Bool}
    (houter : outermost = true → site.flags.verbose = false) (position : Nat) :
    c'.groupsBefore = c.groupsBefore ∧ ∃ tree' d',
      readAlternatives fuel calls false outermost []
        { d with rest := text ++ site.tail, position := position } = .ok (tree', d') ∧
      treeAt site tree tree' c'.groups ∧ d'.rest = site.tail ∧ Agrees site c' d' := by
  obtain ⟨htext, hrest, hread⟩ := readBody_eq_ok.1 hbody
  have hflags : site.inner = false → isFreeOfFlags text = true := fun houtside => by
    rw [hinner] at houtside
    cases houtside
  have hstart := h.follows htext hfree hflags 0 position
  obtain ⟨-, hbefore, tree', d', hread', htree, h'⟩ := (carried site _).2.1 (.of_le hfuel hcalls)
    (by simp) (fun ho => ⟨rfl, houter ho⟩) hstart treesAt_nil hread (.inl rfl)
  have hrest' : d'.rest = site.tail := by rw [h'.rest_eq, hrest, List.nil_append]
  exact ⟨hbefore, tree', d', hread', htree, hrest', h'.toAgrees⟩

/-- A body that is read with no groups before it. -/
theorem readBody_here {tail : List Char} {htail : IsTail tail}
    (h : Agrees (.here characters flags tail htail) c d) {text : List Char} {tree : Tree} {c' : Cursor}
    (hbody : readBody text c = .ok (tree, c')) {fuel calls : Nat}
    (hfuel : 4 * text.length + 8 ≤ fuel) (hcalls : bodyCalls ≤ calls) {outermost : Bool}
    (houter : outermost = true → flags.verbose = false) (position : Nat) :
    c'.groupsBefore = c.groupsBefore ∧ tree.IsWithin c'.groups ∧ ∃ d',
      readAlternatives fuel calls false outermost []
        { d with rest := text ++ tail, position := position } = .ok (tree, d') ∧
      d'.rest = tail ∧ Agrees (.here characters flags tail htail) c' d' := by
  obtain ⟨hbefore, tree', d', hread, htree, hrest, h'⟩ :=
    readBody_carried h rfl (fun hrefers => by cases hrefers) hbody hfuel hcalls houter position
  have hid : tree.renumber (· + 0) = tree := tree.renumber_id
  have hsame : tree' = tree := htree.2.trans hid
  rw [hsame] at hread
  exact ⟨hbefore, htree.1, d', hread, hrest, h'⟩

/-! ## Whole patterns -/

/-- The conditions of a pattern ask for groups that it has. -/
theorem checkConditions_eq_ok {x : Unit × Cursor} :
    checkConditions c = .ok x ↔ x = ((), c) ∧ ∀ index ∈ c.conditions.map (·.1), index < c.groups := by
  rw [checkConditions, Reading.get_bind_run]
  cases hfind : c.conditions.find? (fun condition => c.groups ≤ condition.1) with
  | none =>
    have hdone : (pure () : Reading Unit) c = .ok ((), c) := rfl
    rw [List.find?_eq_none] at hfind
    simp only [hdone, Except.ok.injEq, List.forall_mem_map]
    exact ⟨fun hx => ⟨hx.symm, fun condition hmem => by simpa using hfind condition hmem⟩,
      fun hx => hx.1.symm⟩
  | some condition =>
    obtain ⟨index, position⟩ := condition
    have hmem := List.mem_of_find?_eq_some hfind
    have hlarge := List.find?_some hfind
    refine iff_of_false (Reading.failAt_ne_ok _ _ _) ?_
    rintro ⟨-, hall⟩
    have hless := hall index (List.mem_map_of_mem hmem)
    simp only [decide_eq_true_eq] at hlarge
    omega

/-- What is read from a text alone. -/
theorem readAlone_eq_ok {text : List Char} {groups : Nat} {tree : Tree} :
    readAlone characters text = .ok (groups, tree) ↔
      ∃ c', readBody text (.initial characters) = .ok (tree, c') ∧
        (∀ index ∈ c'.conditions.map (·.1), index < c'.groups) ∧ c'.groups = groups := by
  constructor
  · intro h
    obtain ⟨c₃, h⟩ := Reading.run'_eq_ok.1 h
    obtain ⟨tree, c₁, hbody, h⟩ := Reading.bind_eq_ok.1 h
    obtain ⟨_, c₂, hconditions, h⟩ := Reading.bind_eq_ok.1 h
    rw [checkConditions_eq_ok] at hconditions
    obtain ⟨⟨⟩, hconditions⟩ := hconditions
    cases h
    exact ⟨_, hbody, hconditions, rfl⟩
  · rintro ⟨c', hbody, hconditions, rfl⟩
    refine Reading.run'_eq_ok.2 ⟨c', (Reading.bind_of_ok hbody).trans ?_⟩
    exact (Reading.bind_of_ok (checkConditions_eq_ok.2 ⟨rfl, hconditions⟩)).trans rfl

/-- What is read from texts in turn. -/
theorem readInTurn_eq_ok {texts : List (List Char)} {trees : List Tree} :
    readInTurn characters texts = .ok trees ↔
      ∃ c', readBodies texts (.initial characters) = .ok (trees, c') ∧
        ∀ index ∈ c'.conditions.map (·.1), index < c'.groups := by
  constructor
  · intro h
    obtain ⟨c₂, h⟩ := Reading.run'_eq_ok.1 h
    obtain ⟨trees, c₁, hbodies, h⟩ := Reading.bind_eq_ok.1 h
    obtain ⟨_, c₂, hconditions, h⟩ := Reading.bind_eq_ok.1 h
    rw [checkConditions_eq_ok] at hconditions
    obtain ⟨⟨⟩, hconditions⟩ := hconditions
    cases h
    exact ⟨_, hbodies, hconditions⟩
  · rintro ⟨c', hbodies, hconditions⟩
    refine Reading.run'_eq_ok.2 ⟨c', (Reading.bind_of_ok hbodies).trans ?_⟩
    exact (Reading.bind_of_ok (checkConditions_eq_ok.2 ⟨rfl, hconditions⟩)).trans rfl

/-! ## Patterns without references -/

/-- Patterns behind others with so many groups.  Each is given with the number of its groups, the
whole included. -/
def renumberedFrom : (before : Nat) → List (Nat × Tree) → List Tree
  | _, [] => []
  | before, (groups, tree) :: rest =>
    tree.renumber (· + before) :: renumberedFrom (before + (groups - 1)) rest

/-- The cursor stands between two patterns, behind so many groups. -/
structure Cursor.IsBetween (characters : CharacterNames) (before : Nat) (cursor : Cursor) : Prop where
  characters_eq : cursor.characters = characters
  groups_eq : cursor.groups = 1 + before
  groupsBefore_eq : cursor.groupsBefore = none
  conditions_lt : ∀ index ∈ cursor.conditions.map (·.1), index < cursor.groups

/-- The first pattern is read as it is alone. -/
theorem readBody_first {text : List Char} {groups : Nat} {tree : Tree}
    (h : readAlone characters text = .ok (groups, tree)) :
    ∃ c', readBody text (.initial characters) = .ok (tree, c') ∧ c'.IsBetween characters (groups - 1) := by
  obtain ⟨c', hbody, hconditions, rfl⟩ := readAlone_eq_ok.1 h
  obtain ⟨hbefore, -, d', -, -, h'⟩ :=
    readBody_here (Cursor.agrees_start characters .none text (.inl rfl)) hbody (Nat.le_refl _)
      (Nat.le_refl _) (fun ho : false = true => by cases ho) 0
  have hpos := h'.numbered.groups_pos
  have hcharacters : c'.characters = characters := h'.characters_same.symm.trans h'.characters_eq
  exact ⟨c', hbody, hcharacters, by omega, hbefore, hconditions⟩

/-- A pattern without references is read behind others as alone, with numbers that are counted on. -/
theorem readBody_behind {before : Nat} (hd : d.IsBetween characters before) {text : List Char}
    {groups : Nat} {tree : Tree} (h : readAlone characters text = .ok (groups, tree))
    (hfree : isFreeOfReferences text = true) :
    ∃ d', readBody text d = .ok (tree.renumber (· + before), d') ∧
      d'.IsBetween characters (before + (groups - 1)) := by
  obtain ⟨c', hbody, hconditions, rfl⟩ := readAlone_eq_ok.1 h
  let site : Site :=
    { characters
      tail := []
      flags := d.flags
      before := before
      asked := d.conditions.map (·.1)
      refers := false
      inner := true
      isTail := .inl rfl
      before_eq := fun hrefers => by cases hrefers
      asked_eq := fun hrefers => by cases hrefers }
  have hagrees : Agrees site (.initial characters) d :=
    { characters_eq := hd.characters_eq
      characters_same := hd.characters_eq
      flags_eq := rfl
      groups_eq := hd.groups_eq
      names_eq := fun hrefers => by cases hrefers
      closed_eq := fun hrefers => by cases hrefers
      groupsBefore_eq := hd.groupsBefore_eq
      conditions_eq := (List.append_nil _).symm
      verbose_eq := fun _ => rfl
      numbered := Cursor.isNumbered_initial }
  obtain ⟨hbefore, tree', d', hread, htree, hrest, h'⟩ := readBody_carried hagrees rfl
    (fun _ => hfree) hbody (Nat.le_refl _) (Nat.le_refl _) (fun ho : false = true => by cases ho) 0
  have htext : text ++ site.tail = text := List.append_nil text
  rw [htext, htree.2] at hread
  have hpos := h'.numbered.groups_pos
  have hgroups : d'.groups = c'.groups + before := h'.groups_eq
  have hbefore' : d'.groupsBefore = none := by
    rw [h'.groupsBefore_eq, hbefore]
    rfl
  refine ⟨d', readBody_eq_ok.2 ⟨(readBody_eq_ok.1 hbody).1, hrest, hread⟩, h'.characters_eq, by omega,
    hbefore', ?_⟩
  intro index hindex
  rw [h'.conditions_eq, List.mem_append] at hindex
  rcases hindex with hold | hnew
  · have hless := hd.conditions_lt index hold
    have heq := hd.groups_eq
    omega
  · have hless := hconditions index hnew
    omega

theorem readBodies_behind {before : Nat} (hd : d.IsBetween characters before) {texts : List (List Char)}
    {read : List (Nat × Tree)}
    (h : List.Forall₂ (fun text one => readAlone characters text = .ok one) texts read)
    (hfree : ∀ text ∈ texts, isFreeOfReferences text = true) :
    ∃ d', readBodies texts d = .ok (renumberedFrom before read, d') ∧
      ∀ index ∈ d'.conditions.map (·.1), index < d'.groups := by
  induction h generalizing before d with
  | nil => exact ⟨d, rfl, hd.conditions_lt⟩
  | cons hone _ ih =>
    rw [List.forall_mem_cons] at hfree
    obtain ⟨d₁, hbody, hd₁⟩ := readBody_behind hd hone hfree.1
    obtain ⟨d', hbodies, hconditions⟩ := ih hd₁ hfree.2
    refine ⟨d', ?_, hconditions⟩
    exact (Reading.bind_of_ok hbody).trans ((Reading.bind_of_ok hbodies).trans rfl)

/-- Patterns that are read in turn as they are alone, up to the numbers of groups: only the first one
has references. -/
theorem readInTurn_of_free {texts : List (List Char)} {read : List (Nat × Tree)}
    (h : List.Forall₂ (fun text one => readAlone characters text = .ok one) texts read)
    (hfree : ∀ text ∈ texts.tail, isFreeOfReferences text = true) :
    readInTurn characters texts = .ok (renumberedFrom 0 read) := by
  cases h with
  | nil => rfl
  | @cons first one rest read hone hrest =>
    obtain ⟨groups, tree⟩ := one
    obtain ⟨c₁, hbody, hc₁⟩ := readBody_first hone
    obtain ⟨c', hbodies, hconditions⟩ := readBodies_behind hc₁ hrest hfree
    have hid : tree.renumber (· + 0) = tree := tree.renumber_id
    refine readInTurn_eq_ok.2 ⟨c', ?_, hconditions⟩
    rw [renumberedFrom, hid, Nat.zero_add]
    exact (Reading.bind_of_ok hbody).trans ((Reading.bind_of_ok hbodies).trans rfl)

/-! ## Ends of patterns -/

/-- Options that are settled by taking Unicode. -/
def Flags.settled (flags : Flags) : Flags :=
  { flags with unicode := true }

/-- What is done at the end of a whole pattern. -/
theorem parse_of_read {text : List Char} {flags : Flags} (hverbose : flags.verbose = false)
    (hascii : flags.ascii = false) (htext : text ≠ ['\\']) {tree : Tree} {d' : Cursor}
    (hread : readAlternatives (4 * text.length + 8) mostCalls false true [] (.start characters flags text) =
      .ok (tree, d')) (hrest : d'.rest = []) (hflags : d'.flags = flags)
    (hconditions : checkConditions d' = .ok ((), d')) :
    parse characters flags text = .ok (flags.settled, tree) := by
  refine Reading.run'_eq_ok.2 ⟨d', ?_⟩
  have hmove : Reading.moveTo text 0 (.start characters flags text) =
      .ok ((), .start characters flags text) :=
    Reading.moveTo_eq_ok.2 ⟨htext, rfl⟩
  have hsettled : settledFlags d'.flags = pure flags.settled := by
    rw [hflags, settledFlags, if_pos (by rw [hascii]; rfl)]
    rfl
  have hend : (Reading.peek >>= fun token => (if token.isSome then Reading.failBack .unbalanced 0
      else do checkConditions; return (flags.settled, tree) : Reading (Flags × Tree))) d' =
        .ok ((flags.settled, tree), d') := by
    rw [Reading.bind_of_ok (Reading.peek_run d'), hrest]
    exact (Reading.bind_of_ok hconditions).trans rfl
  rw [← hverbose] at hread
  rw [readWhole, Reading.get_bind_run]
  refine (Reading.bind_of_ok hmove).trans ((Reading.bind_of_ok hread).trans ?_)
  rw [Reading.get_bind_run, hsettled]
  exact hend

/-- The conditions are those of the pattern. -/
theorem checkConditions_of_agrees {tail : List Char} {htail : IsTail tail}
    (h : Agrees (.here characters flags tail htail) c d)
    (hconditions : ∀ index ∈ c.conditions.map (·.1), index < c.groups) :
    checkConditions d = .ok ((), d) := by
  have hsame : d.conditions.map (·.1) = c.conditions.map (·.1) := h.conditions_eq
  have hgroups : d.groups = c.groups := h.groups_eq
  rw [checkConditions_eq_ok, hsame, hgroups]
  exact ⟨rfl, hconditions⟩

/-- A pattern that can be the body of a group, read alone. -/
theorem parse_of_readAlone {text : List Char} {flags : Flags} (hverbose : flags.verbose = false)
    (hascii : flags.ascii = false) {groups : Nat} {tree : Tree}
    (h : readAlone characters text = .ok (groups, tree)) :
    parse characters flags text = .ok (flags.settled, tree) ∧ tree.IsWithin groups := by
  obtain ⟨c₁, hbody, hconditions, rfl⟩ := readAlone_eq_ok.1 h
  obtain ⟨-, hwithin, d', hread, hrest, h'⟩ := readBody_here
    (Cursor.agrees_start characters flags text (.inl rfl)) hbody (Nat.le_refl _) (Nat.sub_le _ _)
    (fun _ : true = true => hverbose) 0
  refine ⟨?_, hwithin⟩
  rw [List.append_nil] at hread
  exact parse_of_read hverbose hascii (readBody_eq_ok.1 hbody).1 hread hrest h'.flags_eq
    (checkConditions_of_agrees h' hconditions)

theorem cursor_of_settledFlags {given settled : Flags} {c' : Cursor}
    (h : settledFlags given c = .ok (settled, c')) : c' = c := by
  unfold settledFlags at h
  split at h
  · cases h
    rfl
  · split at h <;> cases h
    rfl

/-- What was done when a pattern was read. -/
theorem read_of_parse {text : List Char} {flags flags' : Flags} {tree : Tree}
    (h : parse characters flags text = .ok (flags', tree)) :
    text ≠ ['\\'] ∧ ∃ c',
      readAlternatives (4 * text.length + 8) mostCalls flags.verbose true []
        (.start characters flags text) = .ok (tree, c') ∧
      c'.rest = [] ∧ ∀ index ∈ c'.conditions.map (·.1), index < c'.groups := by
  obtain ⟨c₃, hwhole⟩ := Reading.run'_eq_ok.1 h
  rw [readWhole, Reading.get_bind_run] at hwhole
  obtain ⟨_, c₁, hmove, hmoved⟩ := Reading.bind_eq_ok.1 hwhole
  obtain ⟨tree', c', hread, hbehind⟩ := Reading.bind_eq_ok.1 hmoved
  rw [Reading.get_bind_run] at hbehind
  obtain ⟨settled, c₂, hsettled, hend⟩ := Reading.bind_eq_ok.1 hbehind
  obtain rfl := cursor_of_settledFlags hsettled
  obtain ⟨htext, ⟨⟩⟩ := Reading.moveTo_eq_ok.1 hmove
  rw [Reading.bind_of_ok (Reading.peek_run c₂)] at hend
  split at hend
  · exact absurd hend (Reading.failBack_ne_ok _ _ _)
  rename_i hrest
  obtain ⟨_, c₄, hconditions, hdone⟩ := Reading.bind_eq_ok.1 hend
  cases hdone
  refine ⟨htext, c₂, hread, firstToken?_eq_none_iff.1 (by simpa using hrest), ?_⟩
  exact (checkConditions_eq_ok.1 hconditions).2

/-- A pattern without options can be the body of a group, if it is so short that no groups can be too
many for the reader. -/
theorem readAlone_of_parse {text : List Char} {flags : Flags} {tree : Tree}
    (h : parse characters .none text = .ok (flags, tree)) (hfree : isFreeOfFlags text = true)
    (hshort : 4 * text.length + 8 ≤ bodyCalls) :
    ∃ groups, readAlone characters text = .ok (groups, tree) := by
  obtain ⟨htext, c', hread, hrest, hconditions⟩ := read_of_parse h
  let site : Site :=
    { characters
      tail := []
      flags := .none
      before := 0
      asked := []
      refers := true
      inner := false
      isTail := .inl rfl
      before_eq := fun _ => rfl
      asked_eq := fun _ => rfl }
  have hagrees : Agrees site (.start characters .none text) (.initial characters) :=
    { characters_eq := rfl
      characters_same := rfl
      flags_eq := rfl
      groups_eq := rfl
      names_eq := fun _ => rfl
      closed_eq := fun _ => rfl
      groupsBefore_eq := rfl
      conditions_eq := rfl
      verbose_eq := fun _ => rfl
      numbered := Cursor.isNumbered_initial.move _ _ _ _ }
  have hstart := hagrees.follows htext (fun hrefers => by cases hrefers) (fun _ => hfree) 0 0
  have hsuffices : Suffices (4 * text.length + 8) mostCalls (4 * text.length + 8) bodyCalls :=
    ⟨Nat.le_refl _, Nat.le_trans (Nat.min_le_left _ _) hshort⟩
  obtain ⟨-, -, tree', d', hread', htree, h'⟩ := (carried site _).2.1 hsuffices
    (fun _ => ⟨rfl, rfl⟩) (fun ho : false = true => by cases ho) hstart treesAt_nil hread (.inl rfl)
  have hid : tree.renumber (· + 0) = tree := tree.renumber_id
  have hsame : tree' = tree := htree.2.trans hid
  have htail : text ++ site.tail = text := List.append_nil text
  have hend : d'.rest = [] := by
    rw [h'.rest_eq, hrest]
    rfl
  have hgroups : d'.groups = c'.groups := h'.groups_eq
  have hasked : d'.conditions.map (·.1) = c'.conditions.map (·.1) := h'.conditions_eq
  rw [htail, hsame] at hread'
  refine ⟨d'.groups, readAlone_eq_ok.2 ⟨d', readBody_eq_ok.2 ⟨htext, hend, hread'⟩, ?_, rfl⟩⟩
  rw [hasked, hgroups]
  exact hconditions

/-! ## Alternatives -/

/-- The text of a group around a pattern, with a text behind it. -/
def grouped (text behind : List Char) : List Char :=
  '(' :: '?' :: ':' :: (text ++ ')' :: behind)

/-- The groups around some patterns, put together as alternatives. -/
def spliced : List (List Char) → List Char
  | [] => []
  | [one] => grouped one []
  | one :: rest => grouped one ('|' :: spliced rest)

theorem length_grouped (text behind : List Char) :
    (grouped text behind).length = text.length + behind.length + 4 := by
  simp only [grouped, List.length_cons, List.length_append]
  omega

theorem spliced_complete {texts : List (List Char)} (hnil : texts ≠ []) :
    spliced texts ≠ ['\\'] := by
  match texts with
  | [] => exact absurd rfl hnil
  | [one] => simp [spliced, grouped]
  | one :: next :: rest => simp [spliced, grouped]

/-- A pattern in a group as one alternative. -/
def Tree.inGroup (tree : Tree) : Tree :=
  .ofItems [.group none .none .none tree]

/-- A character is taken. -/
theorem next_char {ch : Char} {rest : List Char} (hrest : c.rest = ch :: rest) (hch : ch ≠ '\\')
    (hcomplete : rest ≠ ['\\']) :
    Reading.next c =
      .ok (some (.char ch), { c with rest := rest, position := c.position + 1 }) := by
  have htoken : Reading.firstToken? (ch :: rest) = some (.char ch) := by
    cases rest <;> simp [Reading.firstToken?, hch]
  rw [Reading.next_run, hrest, htoken]
  simp [Token.length, Token.chars, hcomplete]

/-- A character that is there. -/
theorem accept_char {ch : Char} {rest : List Char} (hrest : c.rest = ch :: rest) (hch : ch ≠ '\\')
    (hcomplete : rest ≠ ['\\']) :
    Reading.accept ch c = .ok (true, { c with rest := rest, position := c.position + 1 }) := by
  have htoken : Reading.firstToken? (ch :: rest) = some (.char ch) := by
    cases rest <;> simp [Reading.firstToken?, hch]
  rw [Reading.accept, Reading.bind_of_ok (Reading.peek_run c), hrest, htoken, if_pos (by simp),
    Reading.bind_of_ok (next_char hrest hch hcomplete)]
  rfl

theorem accept_of_nil {ch : Char} (hrest : c.rest = []) : Reading.accept ch c = .ok (false, c) := by
  rw [Reading.accept, Reading.bind_of_ok (Reading.peek_run c), hrest]
  rfl

theorem readOpening_plain {start : Nat} {rest : List Char} (hrest : c.rest = '?' :: ':' :: rest)
    (hcomplete : rest ≠ ['\\']) :
    readOpening start c =
      .ok (.plain .none .none, { c with rest := rest, position := c.position + 2 }) := by
  rw [readOpening, Reading.bind_of_ok (accept_char hrest (by decide) (by simp))]
  refine (Reading.bind_of_ok (next_char rfl (by decide) hcomplete)).trans rfl

/-- A group around a pattern, with another alternative behind it or nothing. -/
theorem readItems_grouped {fuel calls : Nat} {first : Bool} {rest behind : List Char}
    (hrest : c.rest = '(' :: '?' :: ':' :: rest) (hcomplete : rest ≠ ['\\'])
    {tree : Tree} {c' : Cursor}
    (hbody : readAlternatives fuel calls false false []
      { c with rest := rest, position := c.position + 3 } = .ok (tree, c'))
    (hclose : c'.rest = ')' :: behind) (hbehind : behind = [] ∨ ∃ more, behind = '|' :: more) :
    readItems (fuel + 2) (calls + 1) false first [] c =
      .ok (tree.inGroup, { c' with rest := behind, position := c'.position + 1 }) := by
  have hbehind' : behind ≠ ['\\'] := by
    rcases hbehind with rfl | ⟨more, rfl⟩ <;> simp
  have htoken : Reading.firstToken? ('(' :: '?' :: ':' :: rest) = some (.char '(') := by
    simp [Reading.firstToken?]
  rw [readItems, enter_bind, Reading.get_bind_run, Reading.bind_of_ok (Reading.peek_run c), hrest,
    htoken]
  have hopen : readOpening c.position
      { c with rest := '?' :: ':' :: rest, position := c.position + 1 } = _ :=
    readOpening_plain rfl hcomplete
  have hclosed : closing c.position c' =
      .ok ((), { c' with rest := behind, position := c'.position + 1 }) := by
    rw [closing, Reading.bind_of_ok (accept_char hclose (by decide) hbehind')]
    rfl
  have hgroup : readGroup (fuel + 1) calls false c.position (.plain .none .none)
      { c with rest := rest, position := c.position + 3 } =
        .ok (.group none .none .none tree,
          { c' with rest := behind, position := c'.position + 1 }) := by
    rw [readGroup]
    exact (Reading.bind_of_ok hbody).trans ((Reading.bind_of_ok hclosed).trans rfl)
  have hdone : readItems (fuel + 1) (calls + 1) false first [.group none .none .none tree]
      { c' with rest := behind, position := c'.position + 1 } =
        .ok (tree.inGroup, { c' with rest := behind, position := c'.position + 1 }) := by
    rw [readItems, enter_bind, Reading.get_bind_run, Reading.bind_of_ok (Reading.peek_run _)]
    rcases hbehind with rfl | ⟨more, rfl⟩
    · rfl
    · have htoken : Reading.firstToken? ('|' :: more) = some (.char '|') := by
        cases more <;> simp [Reading.firstToken?]
      rw [htoken]
      rfl
  refine (Reading.bind_of_ok (next_char hrest (by decide) (by simp))).trans ?_
  refine (Reading.bind_of_ok hopen).trans ?_
  exact (Reading.bind_of_ok hgroup).trans hdone

/-- One alternative, read as the body of a group. -/
theorem readItems_of_readBody {tail : List Char} {htail : IsTail tail}
    (h : Agrees (.here characters flags tail htail) c d) {text behind : List Char}
    (hrest : d.rest = grouped text behind) (hbehind : behind = [] ∨ ∃ more, behind = '|' :: more)
    {tree : Tree} {c' : Cursor} (hbody : readBody text c = .ok (tree, c')) {fuel : Nat}
    (hfuel : 4 * text.length + 8 ≤ fuel) (first : Bool) :
    ∃ d', readItems (fuel + 2) (bodyCalls + 1) false first [] d = .ok (tree.inGroup, d') ∧
      d'.rest = behind ∧
      Agrees (.here characters flags tail htail) c' d' := by
  have hclosing : IsTail (')' :: behind) := .inr ⟨behind, rfl⟩
  obtain ⟨htext, -, -⟩ := readBody_eq_ok.1 hbody
  obtain ⟨-, -, d', hread, hclose, h'⟩ := readBody_here (h.here hclosing d.rest d.position) hbody
    hfuel (Nat.le_refl _) (fun ho : false = true => by cases ho) (d.position + 3)
  have hcomplete := hclosing.complete_append htext
  exact ⟨_, readItems_grouped hrest hcomplete hread hclose hbehind, rfl, h'.here htail _ _⟩

/-- The alternatives are the patterns read one behind the other. -/
theorem readAlternatives_spliced (hverbose : flags.verbose = false) {texts : List (List Char)}
    (hnil : texts ≠ []) {tail : List Char} {htail : IsTail tail}
    (h : Agrees (.here characters flags tail htail) c d) (hrest : d.rest = spliced texts)
    {trees : List Tree} {c' : Cursor} (hbodies : readBodies texts c = .ok (trees, c')) {fuel : Nat}
    (hfuel : 4 * (spliced texts).length + 8 ≤ fuel) (read : List Tree) :
    ∃ d', readAlternatives fuel mostCalls false true read d =
        .ok (alternatives (read.reverse ++ trees.map Tree.inGroup), d') ∧
      d'.rest = [] ∧ Agrees (.here characters flags tail htail) c' d' := by
  have hcalls : mostCalls = bodyCalls + 1 + 1 := rfl
  induction texts generalizing c d trees fuel read with
  | nil => exact absurd rfl hnil
  | cons text rest ih =>
    obtain ⟨tree, c₁, hbody, hbehind⟩ := Reading.bind_eq_ok.1 hbodies
    obtain ⟨others, c₂, hothers, hdone⟩ := Reading.bind_eq_ok.1 hbehind
    cases hdone
    obtain ⟨fuel, rfl⟩ : ∃ n, fuel = n + 3 := ⟨fuel - 3, by omega⟩
    cases rest with
    | nil =>
      cases hothers
      simp only [spliced, length_grouped, List.length_nil] at hfuel
      obtain ⟨d₁, hitem, hrest₁, h₁⟩ :=
        readItems_of_readBody h hrest (.inl rfl) hbody (by omega : _ ≤ fuel) (true && read.isEmpty)
      refine ⟨d₁, ?_, hrest₁, h₁⟩
      rw [readAlternatives, hcalls, enter_bind, Reading.bind_of_ok hitem]
      refine (Reading.bind_of_ok (accept_of_nil hrest₁)).trans ?_
      rw [List.map_singleton, List.reverse_cons]
      rfl
    | cons next rest =>
      simp only [spliced, length_grouped, List.length_cons] at hfuel
      obtain ⟨d₁, hitem, hrest₁, h₁⟩ := readItems_of_readBody h hrest (.inr ⟨_, rfl⟩) hbody
        (by omega : _ ≤ fuel) (true && read.isEmpty)
      have haccept := accept_char hrest₁ (by decide) (spliced_complete (by simp))
      obtain ⟨d₂, hread, hrest₂, h₂⟩ :=
        ih (by simp) (h₁.here htail (spliced (next :: rest)) (d₁.position + 1)) rfl hothers
          (by omega : _ ≤ fuel + 2) (tree.inGroup :: read)
      refine ⟨d₂, ?_, hrest₂, h₂⟩
      rw [readAlternatives, hcalls, enter_bind, Reading.bind_of_ok hitem]
      refine (Reading.bind_of_ok haccept).trans ?_
      have hplain : d₁.flags.verbose = false := by rw [h₁.flags_eq]; exact hverbose
      rw [if_pos rfl, Reading.get_bind_run]
      simp only [if_true, hplain]
      rw [← hcalls, hread]
      simp

/-- Patterns that are put together as alternatives. -/
theorem parse_spliced {texts : List (List Char)} (hnil : texts ≠ []) {flags : Flags}
    (hverbose : flags.verbose = false) (hascii : flags.ascii = false) {trees : List Tree}
    (h : readInTurn characters texts = .ok trees) :
    parse characters flags (spliced texts) =
      .ok (flags.settled, alternatives (trees.map Tree.inGroup)) := by
  obtain ⟨c₁, hbodies, hconditions⟩ := readInTurn_eq_ok.1 h
  obtain ⟨d', hread, hrest, h'⟩ := readAlternatives_spliced hverbose hnil
    (Cursor.agrees_start characters flags (spliced texts) (.inl rfl)) rfl hbodies (Nat.le_refl _) []
  exact parse_of_read hverbose hascii (spliced_complete hnil) hread hrest h'.flags_eq
    (checkConditions_of_agrees h' hconditions)

end BinaryStrings.Pattern
