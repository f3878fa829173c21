import BinaryStrings.Proofs.Pattern.Caseless
import BinaryStrings.Proofs.Pattern.InTurn
import BinaryStrings.Proofs.Pattern.Renumber

/-!
# Patterns together

Patterns are put together as the alternatives `(?:p)|(?:q)` of one.  That is a matter of text, so what
a pattern means there can depend on those before it: groups are counted on, so a back-reference to the
first group of the second pattern is one to a group of the first pattern, and no name can be used twice.
Patterns are *separate* if none of this happens; then any of them matches where all together match.

Main results:

- Theorem `AreSeparate.of_checks`: short accepted patterns without options are separate if only the first
  one has references.
- Theorem `AreSeparate.ofText_together`: separate patterns match together where any of them does.
-/

namespace BinaryStrings.Pattern

open Unicode (CharacterNames)

variable {characters : CharacterNames}

/-! ## Separate patterns -/

/-- Without regard to case, a single letter above the first plane is found through its lower case, and
one in a class only as it stands.  So it has to stand in lower case. -/
def Tree.isLowered : Tree → Bool
  | .point n => n ≤ planeEnd || Unicode.lowerPoint n == n
  | _ => true

/-- The patterns that are read alone are those that are read in turn, up to the numbers of groups.
Without regard to case, one more thing happens to patterns together: alternatives that are single
characters become a class. -/
structure AreSeparate (characters : CharacterNames) (ignoreCase : Bool) (texts : List (List Char))
    (read : List (Nat × Tree)) : Prop where
  alone : List.Forall₂ (fun text one => readAlone characters text = .ok one) texts read
  inTurn : readInTurn characters texts = .ok (renumberedFrom 0 read)
  lowered : ignoreCase = true → 2 ≤ texts.length → ∀ one ∈ read, one.2.items.all Tree.isLowered = true

/-- Patterns are separate if only the first one has references. -/
theorem AreSeparate.of_free {ignoreCase : Bool} {texts : List (List Char)} {read : List (Nat × Tree)}
    (h : List.Forall₂ (fun text one => readAlone characters text = .ok one) texts read)
    (hfree : ∀ text ∈ texts.tail, isFreeOfReferences text = true)
    (hlowered : ignoreCase = true → 2 ≤ texts.length →
      ∀ one ∈ read, one.2.items.all Tree.isLowered = true) :
    AreSeparate characters ignoreCase texts read where
  alone := h
  inTurn := readInTurn_of_free h hfree
  lowered := hlowered

/-! ## Widths of groups -/

/-- The widths of the groups of several patterns. -/
def widthsFrom (known : GroupWidths) (trees : List Tree) : GroupWidths :=
  trees.foldl (fun known tree => (tree.width known).2) known

/-- The numbers of patterns behind others. -/
theorem refers_renumberedFrom {before : Nat} {read : List (Nat × Tree)}
    (h : ∀ one ∈ read, one.2.IsWithin one.1) :
    ∀ tree ∈ renumberedFrom before read, tree.Refers (before < ·) := by
  induction read generalizing before with
  | nil => simp [renumberedFrom]
  | cons one rest ih =>
    rw [List.forall_mem_cons] at h
    rw [renumberedFrom, List.forall_mem_cons]
    refine ⟨?_, fun tree htree => (ih h.2 tree htree).mono fun index hindex => by omega⟩
    rw [Tree.refers_renumber]
    have hone : one.2.Refers (IsGroup · one.1) := h.1
    exact hone.mono fun index hindex => Nat.lt_add_of_pos_left hindex.1

/-- Widths of other groups stay. -/
theorem lookup_widthsFrom {index : Nat} {trees : List Tree}
    (h : ∀ tree ∈ trees, tree.Refers (· ≠ index)) (known : GroupWidths) :
    (widthsFrom known trees).lookup index = known.lookup index := by
  induction trees generalizing known with
  | nil => rfl
  | cons tree rest ih =>
    rw [List.forall_mem_cons] at h
    exact (ih h.2 _).trans (Tree.lookup_width h.1)

/-- The groups of every pattern are as wide as alone. -/
theorem agree_widthsFrom {before : Nat} {known : GroupWidths}
    (hknown : ∀ index, before < index → known.lookup index = none) {read : List (Nat × Tree)}
    (h : ∀ one ∈ read, one.2.IsWithin one.1) :
    List.Forall₂ (fun one tree => ∃ f, Function.Injective f ∧ tree = one.2.renumber f ∧
        Agree (IsGroup · one.1) f (one.2.width []).2
          (widthsFrom known (renumberedFrom before read))) read (renumberedFrom before read) := by
  induction read generalizing before known with
  | nil => exact .nil
  | cons one rest ih =>
    obtain ⟨groups, tree⟩ := one
    obtain ⟨hone, hrest⟩ := List.forall_mem_cons.1 h
    have hshift : Function.Injective (· + before) := fun _ _ => Nat.add_right_cancel
    have hbefore : Agree (IsGroup · groups) (· + before) [] known := fun index hindex =>
      hknown _ (Nat.lt_add_of_pos_left hindex.1)
    obtain ⟨-, hwidth⟩ := Tree.width_renumber hshift hone hbefore
    refine .cons ⟨_, hshift, rfl, fun index hindex => ?_⟩ (ih (fun index hindex => ?_) hrest)
    · have hothers : ∀ other ∈ renumberedFrom (before + (groups - 1)) rest,
          other.Refers (· ≠ index + before) := fun other hother =>
        (refers_renumberedFrom hrest other hother).mono fun number hnumber => by
          have hless := hindex.2
          omega
      exact (lookup_widthsFrom hothers _).trans (hwidth index hindex)
    · refine (Tree.lookup_width ?_).trans (hknown index (by omega))
      rw [Tree.refers_renumber]
      have hwithin : tree.Refers (IsGroup · groups) := hone
      exact hwithin.mono fun other hother => by
        have hless := hother.2
        omega

/-! ## The alternatives of patterns together -/

theorem Tree.alternatives_inGroup (tree : Tree) : tree.inGroup.alternatives = [tree.items] := by
  have hgroup : (Tree.group none .none .none tree).alternatives = [tree.items] := rfl
  rw [Tree.inGroup, Tree.ofItems, List.foldr_cons, List.foldr_nil, Tree.alternatives, hgroup]
  simp [joined, Tree.alternatives]

/-- Together the patterns are alternatives of each other. -/
theorem alternatives_together {trees : List Tree} (hnil : trees ≠ []) :
    (alternatives (trees.map Tree.inGroup)).alternatives = trees.map Tree.items := by
  match trees with
  | [] => exact absurd rfl hnil
  | [one] => exact one.alternatives_inGroup
  | one :: other :: rest =>
    have hrest : (alternatives ((other :: rest).map Tree.inGroup)).alternatives = _ :=
      alternatives_together (by simp)
    simp only [List.map_cons] at hrest ⊢
    simp only [alternatives, Tree.alternatives, hrest, Tree.alternatives_inGroup]
    rfl

theorem width_together (known : GroupWidths) (trees : List Tree) :
    ((alternatives (trees.map Tree.inGroup)).width known).2 = widthsFrom known trees := by
  match trees with
  | [] => rfl
  | [one] => rfl
  | one :: other :: rest => exact width_together (one.width known).2 (other :: rest)

/-! ## Matchers -/

/-- The matcher of a pattern is that of its items. -/
theorem settle_eq_ok {tree : Tree} {flags : Flags} {matcher : Matcher} :
    tree.settle flags = .ok matcher ↔ ∃ matchers, Codes (tree.width []).2 flags tree.items matchers ∧
      matchers.all Matcher.looksNear = true ∧ matcher = .chain matchers := by
  simp only [Tree.settle, bind_eq_ok_iff, Tree.merged, matcher_ofItems]
  constructor
  · rintro ⟨_, ⟨matchers, hcodes, rfl⟩, hnear⟩
    split at hnear
    · cases hnear
      rename_i hnear
      exact ⟨matchers, hcodes, by rwa [Matcher.looksNear_chain] at hnear, rfl⟩
    · cases hnear
  · rintro ⟨matchers, hcodes, hnear, rfl⟩
    refine ⟨_, ⟨matchers, hcodes, rfl⟩, ?_⟩
    rw [Matcher.looksNear_chain, if_pos hnear]
    rfl

/-- Before any group is matched, the alternatives match where any of the patterns does. -/
theorem codes_together {flags : Flags} {known : GroupWidths} {read : List (Nat × Tree)}
    {trees : List Tree} {matchers : List Matcher} (hread : ∀ one ∈ read, one.2.IsWithin one.1)
    (htrees : List.Forall₂ (fun one tree => ∃ f, Function.Injective f ∧ tree = one.2.renumber f ∧
      Agree (IsGroup · one.1) f (one.2.width []).2 known) read trees)
    (hmatchers : List.Forall₂ (fun one matcher => one.2.settle flags = .ok matcher) read matchers) :
    ∃ coded, List.Forall₂ (Codes known flags) (trees.map Tree.items) coded ∧
      coded.all (·.all Matcher.looksNear) = true ∧ ∀ spot : Spot, spot.groups = [] →
        (runAny coded spot some).isSome = matchers.any fun matcher => (matcher.run spot some).isSome := by
  induction htrees generalizing matchers with
  | nil =>
    cases hmatchers
    exact ⟨[], .nil, rfl, fun _ _ => rfl⟩
  | @cons one tree read trees hone _ ih =>
    obtain ⟨matcher, others, hmatcher, hothers, rfl⟩ := List.forall₂_cons_left_iff.1 hmatchers
    obtain ⟨f, hf, rfl, hagree⟩ := hone
    obtain ⟨hwithin, hread⟩ := List.forall_mem_cons.1 hread
    obtain ⟨own, hown, hnear, rfl⟩ := settle_eq_ok.1 hmatcher
    obtain ⟨coded, hcoded, hnears, hruns⟩ := ih hread hothers
    have hcodes := hown.renumber hf (Tree.refers_items hwithin) hagree
    rw [← Tree.items_renumber hf] at hcodes
    refine ⟨own.map (Matcher.renumber f) :: coded, .cons hcodes hcoded, ?_, fun spot hspot => ?_⟩
    · rw [List.all_cons, hnears, List.all_map, Bool.and_true]
      simpa only [Function.comp_def, Matcher.looksNear_renumber] using hnear
    · rw [runAny_cons, Option.isSome_or, runAll_renumber hf own hspot, hruns spot hspot,
        List.any_cons, Matcher.run_chain]

theorem forward_groups (spot : Spot) : spot.forward.groups = spot.groups := by
  unfold Spot.forward
  split <;> rfl

/-- A matcher that matches where any of some others does, everywhere. -/
theorem matchesFrom_any {matcher : Matcher} {matchers : List Matcher}
    (h : ∀ spot : Spot, spot.groups = [] →
      (matcher.run spot some).isSome = matchers.any fun matcher => (matcher.run spot some).isSome)
    (further : Nat) {spot : Spot} (hspot : spot.groups = []) :
    matcher.matchesFrom further spot = matchers.any (·.matchesFrom further spot) := by
  induction further generalizing spot with
  | zero => exact h spot hspot
  | succ further ih =>
    have hforward : spot.forward.groups = [] := by rw [forward_groups, hspot]
    rw [Matcher.matchesFrom, h spot hspot, ih hforward, Bool.eq_iff_iff]
    simp only [Matcher.matchesFrom, Bool.or_eq_true, List.any_eq_true]
    constructor
    · rintro (⟨one, hone, hfound⟩ | ⟨one, hone, hfound⟩)
      · exact ⟨one, hone, .inl hfound⟩
      · exact ⟨one, hone, .inr hfound⟩
    · rintro ⟨one, hone, hfound | hfound⟩
      · exact .inl ⟨one, hone, hfound⟩
      · exact .inr ⟨one, hone, hfound⟩

namespace AreSeparate

variable {ignoreCase : Bool} {texts : List (List Char)} {read : List (Nat × Tree)}

theorem isWithin (h : AreSeparate characters ignoreCase texts read) :
    ∀ one ∈ read, one.2.IsWithin one.1 := by
  intro one hone
  obtain ⟨text, -, hread⟩ := exists_mem_of_forall₂ h.alone hone
  have hflags : Flags.none.verbose = false ∧ Flags.none.ascii = false := ⟨rfl, rfl⟩
  exact (parse_of_readAlone hflags.1 hflags.2 hread).2

/-- Separate patterns match together where any of them does. -/
theorem settle_together (h : AreSeparate characters ignoreCase texts read) (hnil : texts ≠ [])
    {flags : Flags} (hunicode : flags.unicode = true) (hcase : flags.ignoreCase = ignoreCase)
    {matchers : List Matcher}
    (hmatchers : List.Forall₂ (fun one matcher => one.2.settle flags = .ok matcher) read matchers) :
    ∃ matcher, (alternatives ((renumberedFrom 0 read).map Tree.inGroup)).settle flags = .ok matcher ∧
      ∀ text, matcher.matchesIn text = matchers.any (·.matchesIn text) := by
  have hagree := agree_widthsFrom (fun _ _ => rfl : ∀ index, 0 < index → [].lookup index = none)
    h.isWithin
  have hlength : (renumberedFrom 0 read).length = texts.length :=
    hagree.length_eq.symm.trans h.alone.length_eq.symm
  have htrees : renumberedFrom 0 read ≠ [] := by
    rw [← List.length_pos_iff, hlength]
    exact List.length_pos_iff.2 hnil
  have hpoints : 2 ≤ ((renumberedFrom 0 read).map Tree.items).length →
      ∀ items ∈ (renumberedFrom 0 read).map Tree.items, ∀ n, Tree.point n ∈ items →
        StaysInClass flags n := by
    intro hlong items hitems n hn hignore hplane
    obtain ⟨tree, htree, rfl⟩ := List.mem_map.1 hitems
    obtain ⟨one, hone, f, hf, rfl, -⟩ := exists_mem_of_forall₂ hagree htree
    rw [Tree.items_renumber hf] at hn
    obtain ⟨item, hitem, hpoint⟩ := List.mem_map.1 hn
    cases item <;> cases hpoint
    rw [List.length_map, hlength] at hlong
    have hlowered := List.all_eq_true.1 (h.lowered (hcase ▸ hignore) hlong one hone) _ hitem
    simpa [Tree.isLowered, Nat.not_le_of_lt hplane] using hlowered
  obtain ⟨coded, hcoded, hnear, hruns⟩ := codes_together h.isWithin hagree hmatchers
  obtain ⟨own, hown, hrun, hnear'⟩ := codes_joined (by simpa using htrees) hunicode hcoded hpoints
  refine ⟨.chain own, settle_eq_ok.2 ⟨own, ?_, by rw [hnear', hnear], rfl⟩, fun text => ?_⟩
  · rw [width_together, Tree.items, alternatives_together htrees]
    exact hown
  · exact matchesFrom_any (fun spot hspot => by rw [Matcher.run_chain, hrun, hruns spot hspot]) _ rfl

end AreSeparate

/-! ## Texts -/

theorem compile_of_parse {flags flags' : Flags} {text : String} {tree : Tree}
    (h : parse characters flags text.toList = .ok (flags', tree)) :
    compile characters flags text = tree.settle flags' := by
  rw [compile, h]
  rfl

theorem compile_of_readAlone {text : String} {one : Nat × Tree}
    (hone : readAlone characters text.toList = .ok one) (ignoreCase : Bool) :
    compile characters (caseFlags ignoreCase) text = one.2.settle (caseFlags ignoreCase).settled :=
  compile_of_parse (parse_of_readAlone rfl rfl hone).1

/-- A short pattern that is accepted alone and has no options can be the body of a group. -/
theorem exists_readAlone_of_check {text : String} (hcheck : check characters text = .ok ())
    (hflags : isFreeOfFlags text.toList = true) (hshort : text.length ≤ 245) :
    ∃ one, readAlone characters text.toList = .ok one := by
  obtain ⟨-, -, _, hcompile⟩ := check_eq_ok_iff.1 hcheck
  obtain ⟨⟨flags, tree⟩, hparse, -⟩ := bind_eq_ok_iff.1 hcompile
  have hcalls : bodyCalls = 990 := rfl
  have hlength : text.toList.length = text.length := String.length_toList
  obtain ⟨groups, hread⟩ := readAlone_of_parse hparse hflags (by omega)
  exact ⟨_, hread⟩

/-- Patterns that are accepted alone have matchers, with or without regard to case. -/
theorem exists_matchers {texts : List String} {read : List (Nat × Tree)}
    (hread : List.Forall₂ (fun text one => readAlone characters text.toList = .ok one) texts read)
    (hchecks : ∀ text ∈ texts, check characters text = .ok ()) (caseSensitive : Bool) :
    ∃ matchers, List.Forall₂ (fun one matcher =>
        one.2.settle (caseFlags (!caseSensitive)).settled = .ok matcher) read matchers ∧
      texts.mapM (ofText characters caseSensitive) = .ok (matchers.map Pattern.mk) := by
  induction hread with
  | nil => exact ⟨[], .nil, rfl⟩
  | @cons text one texts read hone _ ih =>
    rw [List.forall_mem_cons] at hchecks
    obtain ⟨matchers, hmatchers, htexts⟩ := ih hchecks.2
    obtain ⟨matcher, hcompile⟩ := exists_compile_of_check hchecks.1 (!caseSensitive)
    have htext := ofText_of_compile hchecks.1 hcompile
    have hmatcher := (compile_of_readAlone hone _).symm.trans hcompile
    refine ⟨matcher :: matchers, .cons hmatcher hmatchers, ?_⟩
    rw [List.mapM_cons, htext, htexts]
    rfl

namespace AreSeparate

variable {ignoreCase caseSensitive : Bool} {texts : List String} {read : List (Nat × Tree)}

/-- Short patterns that are accepted alone are separate if they have no options and only the first one has
references. -/
theorem of_checks (hchecks : ∀ text ∈ texts, check characters text = .ok ())
    (hflags : ∀ text ∈ texts, isFreeOfFlags text.toList = true)
    (hshort : ∀ text ∈ texts, text.length ≤ 245)
    (hfree : ∀ text ∈ texts.tail, isFreeOfReferences text.toList = true)
    (hlowered : ignoreCase = true → 2 ≤ texts.length → ∀ text ∈ texts, ∀ one,
      readAlone characters text.toList = .ok one → one.2.items.all Tree.isLowered = true) :
    ∃ read, AreSeparate characters ignoreCase (texts.map String.toList) read := by
  have hreads : ∀ text ∈ texts, ∃ one, readAlone characters text.toList = .ok one := fun text htext =>
    exists_readAlone_of_check (hchecks text htext) (hflags text htext) (hshort text htext)
  obtain ⟨read, hread⟩ := exists_forall₂ hreads
  refine ⟨read, .of_free (List.forall₂_map_left_iff.2 hread) ?_ ?_⟩
  · rw [← List.map_tail]
    exact List.forall_mem_map.2 hfree
  · intro hcase hlong one hone
    obtain ⟨text, htext, hone⟩ := exists_mem_of_forall₂ hread hone
    rw [List.length_map] at hlong
    exact hlowered hcase hlong text htext one hone

/-- Patterns that are separate without regard to case are separate. -/
theorem exact {texts : List (List Char)} (h : AreSeparate characters ignoreCase texts read) :
    AreSeparate characters false texts read where
  alone := h.alone
  inTurn := h.inTurn
  lowered := fun hfalse => by cases hfalse

/-- The matcher of separate patterns together. -/
theorem compile_together (h : AreSeparate characters ignoreCase (texts.map String.toList) read)
    (hnil : texts ≠ []) {text : String} (htext : text.toList = spliced (texts.map String.toList))
    {matchers : List Matcher} (hmatchers : List.Forall₂ (fun one matcher =>
      one.2.settle (caseFlags ignoreCase).settled = .ok matcher) read matchers) :
    ∃ matcher, compile characters (caseFlags ignoreCase) text = .ok matcher ∧
      ∀ value, matcher.matchesIn value = matchers.any (·.matchesIn value) := by
  have hnil' : texts.map String.toList ≠ [] := by simpa using hnil
  have hverbose : (caseFlags ignoreCase).verbose = false := rfl
  obtain ⟨matcher, hmatcher, hmatches⟩ := h.settle_together hnil' rfl rfl hmatchers
  have hparse := parse_spliced hnil' hverbose rfl h.inTurn
  rw [← htext] at hparse
  exact ⟨matcher, (compile_of_parse hparse).trans hmatcher, hmatches⟩

/-- Separate patterns that are accepted alone are accepted together, and match where any of them
does, if together they are not too long and show no nested repetition. -/
theorem ofText_together (h : AreSeparate characters (!caseSensitive) (texts.map String.toList) read)
    (hnil : texts ≠ []) (hchecks : ∀ text ∈ texts, check characters text = .ok ()) {text : String}
    (htext : text.toList = spliced (texts.map String.toList)) (hlength : text.length ≤ mostLength)
    (hguard : hasNestedRepetition text.toList = false) :
    ∃ patterns together, texts.mapM (ofText characters caseSensitive) = .ok patterns ∧
      ofText characters caseSensitive text = .ok together ∧
      ∀ value, together.matchesIn value = patterns.any (·.matchesIn value) := by
  have halone : List.Forall₂ (fun text one => readAlone characters text.toList = .ok one) texts read := by
    simpa only [List.forall₂_map_left_iff] using h.alone
  obtain ⟨exactMatchers, hexact, -⟩ := exists_matchers halone hchecks true
  obtain ⟨exactMatcher, hexactly, -⟩ := h.exact.compile_together hnil htext hexact
  obtain ⟨matchers, hmatchers, hpatterns⟩ := exists_matchers halone hchecks caseSensitive
  obtain ⟨matcher, hcompile, hmatches⟩ := h.compile_together hnil htext hmatchers
  have hcheck := check_eq_ok_iff.2 ⟨hlength, hguard, exactMatcher, hexactly⟩
  refine ⟨_, _, hpatterns, ofText_of_compile hcheck hcompile, fun value => ?_⟩
  rw [List.any_map]
  exact hmatches value.toList

end AreSeparate

end BinaryStrings.Pattern
