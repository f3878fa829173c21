import BinaryStrings.Image.MachO

/-!
# Which section of a Mach-O file is taken

A file may have several sections that a label can mean.  The candidates of the label are gone through in
their order, and for each the sections in theirs.  The first match ends both, even if it is an empty
section.

Main results:

- Theorem `firstFit?_eq_some_iff`: the section found is the first match of the first candidate that has
  one.
- Theorem `firstFit?_congr`: sections that match none of the candidates do not count.
- Theorem `sectionAt_by_priority`: what is answered for a label, and what the answer depends on.
-/

namespace BinaryStrings.MachO

/-! ## Matches -/

/-- A section has the name of a candidate, and is in its segment if the candidate gives one. -/
structure Candidate.Matches (candidate : Candidate) (found : Section) : Prop where
  name_eq : found.name = candidate.name
  segment_eq : ∀ segment, candidate.segment = some segment → found.segment = segment

/-- The test finds the sections that match. -/
theorem Candidate.fits_eq_true_iff {candidate : Candidate} {found : Section} :
    candidate.fits found = true ↔ candidate.Matches found := by
  obtain ⟨segment, name⟩ := candidate
  unfold fits
  rw [Bool.and_eq_true, beq_iff_eq]
  constructor
  · rintro ⟨hname, hsegment⟩
    refine ⟨hname, ?_⟩
    rintro _ rfl
    exact beq_iff_eq.1 hsegment
  · rintro ⟨hname, hsegment⟩
    refine ⟨hname, ?_⟩
    cases segment with
    | none => rfl
    | some segment => exact beq_iff_eq.2 (hsegment segment rfl)

instance (candidate : Candidate) (found : Section) : Decidable (candidate.Matches found) :=
  decidable_of_iff _ Candidate.fits_eq_true_iff

/-- The sections that match one of some candidates, in the order of the file. -/
def matching (choices : List Candidate) (sections : List Section) : List Section :=
  sections.filter fun found => ∃ choice ∈ choices, choice.Matches found

variable {sections others : List Section} {choices higher : List Candidate} {candidate : Candidate}
  {found : Section} {path label : String}

/-- The first match of a candidate is among the sections that match one of several with it. -/
theorem find?_matching (hcandidate : candidate ∈ choices) (sections : List Section) :
    (matching choices sections).find? candidate.fits = sections.find? candidate.fits := by
  rw [matching, List.find?_filter]
  congr 1
  funext other
  rw [Bool.eq_iff_iff, decide_eq_true_iff, decide_eq_true_iff]
  exact ⟨And.right, fun h => ⟨⟨candidate, hcandidate, Candidate.fits_eq_true_iff.1 h⟩, h⟩⟩

/-! ## The section found -/

/-- The first candidate with a match is taken, and its first match. -/
theorem firstFit?_eq_findSome? (sections : List Section) (choices : List Candidate) :
    firstFit? sections choices =
      choices.findSome? fun candidate => sections.find? candidate.fits := by
  induction choices with
  | nil => rfl
  | cons candidate rest ih =>
    rw [firstFit?, List.findSome?_cons]
    cases sections.find? candidate.fits with
    | none => exact ih
    | some found => rfl

/-- A candidate has no match if no section matches it. -/
theorem find?_fits_eq_none_iff :
    sections.find? candidate.fits = none ↔ ∀ found ∈ sections, ¬ candidate.Matches found := by
  simp only [List.find?_eq_none, Candidate.fits_eq_true_iff]

/-- A candidate decides: of the candidates of the label those before it have no match, and the section
found is the first of its matches. -/
structure Decides (label : String) (sections : List Section) (higher : List Candidate)
    (candidate : Candidate) (found : Section) : Prop where
  declared : higher ++ [candidate] <+: candidates label
  unmatched : ∀ other ∈ higher, ∀ each ∈ sections, ¬ other.Matches each
  matches_found : candidate.Matches found
  first : ∃ front, front ++ [found] <+: sections ∧ ∀ each ∈ front, ¬ candidate.Matches each

/-- The first match of a candidate. -/
theorem find?_fits_eq_some_iff :
    sections.find? candidate.fits = some found ↔ candidate.Matches found ∧
      ∃ front, front ++ [found] <+: sections ∧ ∀ each ∈ front, ¬ candidate.Matches each := by
  rw [List.find?_eq_some_iff_append, Candidate.fits_eq_true_iff]
  refine and_congr_right fun _ => exists_congr fun front => ?_
  simp only [Bool.not_eq_true', ← Bool.not_eq_true, Candidate.fits_eq_true_iff]
  constructor
  · rintro ⟨back, rfl, hfront⟩
    exact ⟨⟨back, by simp⟩, hfront⟩
  · rintro ⟨⟨back, rfl⟩, hfront⟩
    exact ⟨back, by simp, hfront⟩

/-- The section found is the first match of the first candidate that has one. -/
theorem firstFit?_eq_some_iff : firstFit? sections choices = some found ↔
    ∃ higher candidate, higher ++ [candidate] <+: choices ∧
      (∀ other ∈ higher, ∀ each ∈ sections, ¬ other.Matches each) ∧
      sections.find? candidate.fits = some found := by
  simp only [firstFit?_eq_findSome?, List.findSome?_eq_some_iff, find?_fits_eq_none_iff]
  constructor
  · rintro ⟨higher, candidate, lower, rfl, hfind, hhigher⟩
    exact ⟨higher, candidate, ⟨lower, by simp⟩, hhigher, hfind⟩
  · rintro ⟨higher, candidate, ⟨lower, rfl⟩, hhigher, hfind⟩
    exact ⟨higher, candidate, lower, by simp, hfind, hhigher⟩

/-- Nothing is found if no candidate has a match. -/
theorem firstFit?_eq_none_iff : firstFit? sections choices = none ↔
    ∀ candidate ∈ choices, ∀ found ∈ sections, ¬ candidate.Matches found := by
  simp only [firstFit?_eq_findSome?, List.findSome?_eq_none_iff, find?_fits_eq_none_iff]

/-- Sections that match none of the candidates do not count, wherever they stand. -/
theorem firstFit?_congr (h : matching choices sections = matching choices others) :
    firstFit? sections choices = firstFit? others choices := by
  have hfind : ∀ candidate ∈ choices,
      sections.find? candidate.fits = others.find? candidate.fits := fun candidate hcandidate => by
    rw [← find?_matching hcandidate sections, h, find?_matching hcandidate]
  clear h
  induction choices with
  | nil => rfl
  | cons candidate rest ih =>
    rw [List.forall_mem_cons] at hfind
    rw [firstFit?, firstFit?, hfind.1, ih hfind.2]

/-- A section that is found among the first candidates is found among more of them. -/
theorem firstFit?_of_initial {fewer : List Candidate} (hfewer : fewer <+: choices)
    (h : firstFit? sections fewer = some found) : firstFit? sections choices = some found := by
  obtain ⟨higher, candidate, hinitial, hfound⟩ := firstFit?_eq_some_iff.1 h
  exact firstFit?_eq_some_iff.2 ⟨higher, candidate, hinitial.trans hfewer, hfound⟩

/-- The deciding candidate gives its first match. -/
theorem Decides.firstFit?_eq (h : Decides label sections higher candidate found) :
    firstFit? sections (higher ++ [candidate]) = some found :=
  firstFit?_eq_some_iff.2 ⟨higher, candidate, List.prefix_rfl, h.unmatched,
    find?_fits_eq_some_iff.2 ⟨h.matches_found, h.first⟩⟩

/-! ## Answers -/

/-- What has to be answered for a label: the contents of the section that a candidate decides for, or
the reason why there are none. -/
inductive Answers (path : String) (sections : List Section) (label : String) : SectionResult → Prop
  | unknown (unknown : label ∉ Label.declared) :
    Answers path sections label (.error (.unavailable (.unknownToFormat formatName label)))
  | missing (known : label ∈ Label.declared)
    (unmatched : ∀ candidate ∈ candidates label, ∀ each ∈ sections, ¬ candidate.Matches each) :
    Answers path sections label (.error (.unavailable (.noSuchSection label path)))
  | empty {higher : List Candidate} {candidate : Candidate} {found : Section}
    (decides : Decides label sections higher candidate found) (empty : found.data = []) :
    Answers path sections label
      (.error (.unavailable (.empty (found.segment ++ "," ++ found.name))))
  | contents {higher : List Candidate} {candidate : Candidate} {found : Section}
    (decides : Decides label sections higher candidate found) (contents : found.data ≠ []) :
    Answers path sections label (.ok ⟨found.address, found.data⟩)

/-- Only declared labels have candidates. -/
theorem candidates_eq_nil_iff : candidates label = [] ↔ label ∉ Label.declared := by
  unfold candidates Label.declared
  repeat' split
  all_goals simp_all

/-- What was found is the section, unless it is empty. -/
theorem sectionFor_of_firstFit? (h : firstFit? sections (candidates label) = some found) :
    sectionFor path sections label =
      if found.data = [] then .error (.unavailable (.empty (found.segment ++ "," ++ found.name)))
      else .ok ⟨found.address, found.data⟩ := by
  unfold sectionFor
  split
  · rename_i hnil
    rw [hnil] at h
    cases h
  · simp only [h, List.isEmpty_iff]

/-- So the deciding candidate gives the section. -/
theorem Decides.sectionFor_eq (h : Decides label sections higher candidate found) :
    sectionFor path sections label =
      if found.data = [] then .error (.unavailable (.empty (found.segment ++ "," ++ found.name)))
      else .ok ⟨found.address, found.data⟩ :=
  sectionFor_of_firstFit? (firstFit?_of_initial h.declared h.firstFit?_eq)

/-- The answer for any label and any sections. -/
theorem answers_sectionFor (path : String) (sections : List Section) (label : String) :
    Answers path sections label (sectionFor path sections label) := by
  cases hfit : firstFit? sections (candidates label) with
  | none =>
    unfold sectionFor
    split
    · rename_i hnil
      exact .unknown (candidates_eq_nil_iff.1 hnil)
    · rename_i hne
      rw [hfit]
      exact .missing (Decidable.not_not.1 (mt candidates_eq_nil_iff.2 hne))
        (firstFit?_eq_none_iff.1 hfit)
  | some found =>
    obtain ⟨higher, candidate, hinitial, hunmatched, hfind⟩ := firstFit?_eq_some_iff.1 hfit
    obtain ⟨hmatches, hfirst⟩ := find?_fits_eq_some_iff.1 hfind
    have hdecides : Decides label sections higher candidate found :=
      ⟨hinitial, hunmatched, hmatches, hfirst⟩
    rw [hdecides.sectionFor_eq]
    split
    · exact .empty hdecides ‹_›
    · exact .contents hdecides ‹_›

/-- At most one answer is right. -/
theorem Answers.eq_sectionFor {result : SectionResult} (h : Answers path sections label result) :
    sectionFor path sections label = result := by
  cases h with
  | unknown hunknown =>
    unfold sectionFor
    rw [candidates_eq_nil_iff.2 hunknown]
  | missing hknown hunmatched =>
    unfold sectionFor
    split
    · rename_i hnil
      exact absurd hknown (candidates_eq_nil_iff.1 hnil)
    · rw [firstFit?_eq_none_iff.2 hunmatched]
  | empty hdecides hempty => rw [hdecides.sectionFor_eq, if_pos hempty]
  | contents hdecides hcontents => rw [hdecides.sectionFor_eq, if_neg hcontents]

/-- The candidates of a label are gone through in their order, and of the first that has a match the
first in the file is taken.  If it is empty, there is no section, whatever else matches.  So the answer
depends only on the sections that match the deciding candidate or one before it: others may be put in,
left out or moved. -/
theorem sectionAt_by_priority (image : Image) (path label : String) :
    (∀ result, (image.source path).sectionAt label = result ↔
      Answers path image.sections label result) ∧
    ∀ higher candidate found, Decides label image.sections higher candidate found →
      ∀ changed : Image, matching (higher ++ [candidate]) changed.sections =
          matching (higher ++ [candidate]) image.sections →
        (changed.source path).sectionAt label = (image.source path).sectionAt label := by
  constructor
  · intro result
    constructor
    · rintro rfl
      exact answers_sectionFor path image.sections label
    · exact Answers.eq_sectionFor
  · intro higher candidate found hdecides changed hmatching
    have hfound := hdecides.firstFit?_eq
    have hchanged : firstFit? changed.sections (higher ++ [candidate]) = some found := by
      rw [firstFit?_congr hmatching, hfound]
    change sectionFor path changed.sections label = sectionFor path image.sections label
    rw [sectionFor_of_firstFit? (firstFit?_of_initial hdecides.declared hchanged),
      hdecides.sectionFor_eq]

/-- An empty section of C strings decides over a full one behind it and over constants in front of it,
and still does when the constants are moved and strings of another segment are put in. -/
theorem sectionAt_by_priority_empty :
    let strings : Section := ⟨"__TEXT", "__cstring", 0x200, []⟩
    let more : Section := ⟨"__TEXT", "__cstring", 0x300, [0x61]⟩
    let constants : Section := ⟨"__TEXT", "__const", 0x100, [0x62]⟩
    let others : Section := ⟨"__DATA", "__cstring", 0x400, [0x63]⟩
    let image : Image := ⟨[constants, strings, more], 1⟩
    let changed : Image := ⟨[others, strings, more, constants], 1⟩
    let higher : List Candidate := [⟨none, "__rodata"⟩]
    let candidate : Candidate := ⟨some "__TEXT", "__cstring"⟩
    let reason : SectionFault := .unavailable (.empty "__TEXT,__cstring")
    Decides ".rodata" image.sections higher candidate strings ∧
      matching (higher ++ [candidate]) changed.sections =
        matching (higher ++ [candidate]) image.sections ∧
      (image.source "a.out").sectionAt ".rodata" = .error reason ∧
      (changed.source "a.out").sectionAt ".rodata" = .error reason := by
  intro strings more constants others image changed higher candidate reason
  have hdecides : Decides ".rodata" image.sections higher candidate strings :=
    ⟨by decide, by decide, by decide, [constants], by decide, by decide⟩
  have hmatching : matching (higher ++ [candidate]) changed.sections =
      matching (higher ++ [candidate]) image.sections := by decide
  obtain ⟨hanswers, hchanged⟩ := sectionAt_by_priority image "a.out" ".rodata"
  have hreason : (image.source "a.out").sectionAt ".rodata" = .error reason :=
    (hanswers (.error reason)).2 (.empty hdecides rfl)
  exact ⟨hdecides, hmatching, hreason, (hchanged _ _ _ hdecides changed hmatching).trans hreason⟩

end BinaryStrings.MachO
