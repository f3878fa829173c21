import BinaryStrings.Proofs.FileTree.Resolution
import BinaryStrings.Settings.Value

/-!
# Allowed paths in the settings

The settings tell the allowed paths as one text, with a separator between two paths.  More separators
do not matter, and a text of nothing else lists no path, which is not the same as no text.

Main results:

- Theorem `pathsOf_eq_iff`: the texts that list some paths.
- Theorem `isListing_intercalate`: paths with one separator between them are listed.
- Theorem `exists_allowedPaths`: the allowed paths by the text that is configured.
-/

namespace BinaryStrings

namespace Text

theorem splitChars_ne_nil (mark : Char) (text : List Char) : splitChars mark text ≠ [] := by
  unfold splitChars
  repeat' split
  all_goals simp

/-- The parts of a text with the mark between them are the text. -/
theorem intercalate_splitChars (mark : Char) (text : List Char) :
    [mark].intercalate (splitChars mark text) = text := by
  induction text with
  | nil => rfl
  | cons c rest ih =>
    obtain ⟨part, parts, hparts⟩ := List.exists_cons_of_ne_nil (splitChars_ne_nil mark rest)
    rw [hparts] at ih
    unfold splitChars
    split
    · rename_i hmark
      rw [hparts, List.intercalate_cons_cons, ih, ← beq_iff_eq.1 hmark]
      rfl
    · rw [hparts]
      cases parts with
      | nil => rw [List.intercalate_singleton] at ih ⊢; rw [ih]
      | cons next parts =>
        rw [List.intercalate_cons_cons] at ih ⊢
        rw [← ih]
        rfl

end Text

namespace Settings

/-! ## Listings -/

/-- A path that can be told from others in a listing. -/
structure IsEntry (path : String) : Prop where
  nonempty : path ≠ ""
  plain : pathMark ∉ path.toList

/-- A text lists paths in their order, with at least one mark between two of them. -/
inductive IsListing : List String → List Char → Prop
  | done : IsListing [] []
  | mark {paths : List String} {text : List Char} (rest : IsListing paths text) :
    IsListing paths (pathMark :: text)
  | last {path : String} (entry : IsEntry path) : IsListing [path] path.toList
  | entry {path : String} {paths : List String} {text : List Char} (entry : IsEntry path)
    (rest : IsListing paths text) : IsListing (path :: paths) (path.toList ++ pathMark :: text)

variable {paths : List String} {text : List Char}

/-- The parts that are not empty, as paths. -/
def entriesOf (parts : List (List Char)) : List String :=
  (parts.map String.ofList).filter fun path => !path.isEmpty

theorem pathsOf_eq (text : String) :
    pathsOf text = entriesOf (Text.splitChars pathMark text.toList) :=
  rfl

theorem entriesOf_cons_nil (parts : List (List Char)) : entriesOf ([] :: parts) = entriesOf parts :=
  rfl

theorem IsEntry.entriesOf_cons {path : String} (h : IsEntry path) (parts : List (List Char)) :
    entriesOf (path.toList :: parts) = path :: entriesOf parts := by
  rw [entriesOf, List.map_cons, String.ofList_toList, List.filter_cons_of_pos]
  · rfl
  · simpa [String.isEmpty_iff] using h.nonempty

/-- Parts with marks between them list those that are not empty. -/
theorem isListing_of_parts {parts : List (List Char)} (hparts : ∀ part ∈ parts, pathMark ∉ part) :
    IsListing (entriesOf parts) ([pathMark].intercalate parts) := by
  induction parts with
  | nil => exact .done
  | cons part rest ih =>
    rw [List.forall_mem_cons] at hparts
    have hrest := ih hparts.2
    by_cases hempty : part = []
    · subst hempty
      rw [entriesOf_cons_nil]
      cases rest with
      | nil => exact .done
      | cons next rest =>
        rw [List.intercalate_cons_cons]
        exact .mark hrest
    · obtain ⟨path, rfl⟩ : ∃ path : String, part = path.toList :=
        ⟨String.ofList part, String.toList_ofList.symm⟩
      have hentry : IsEntry path := ⟨mt String.toList_eq_nil_iff.2 hempty, hparts.1⟩
      rw [hentry.entriesOf_cons]
      cases rest with
      | nil =>
        rw [List.intercalate_singleton]
        exact .last hentry
      | cons next rest =>
        rw [List.intercalate_cons_cons, List.append_assoc]
        exact .entry hentry hrest

/-- The paths that are found in a text are those that it lists. -/
theorem pathsOf_eq_iff {text : String} : pathsOf text = paths ↔ IsListing paths text.toList := by
  rw [pathsOf_eq]
  constructor
  · rintro rfl
    have hlisting : IsListing (entriesOf (Text.splitChars pathMark text.toList))
        ([pathMark].intercalate (Text.splitChars pathMark text.toList)) :=
      isListing_of_parts fun _ hpart => Text.not_mem_of_mem_splitChars hpart
    rwa [Text.intercalate_splitChars] at hlisting
  · intro h
    generalize text.toList = chars at h
    induction h with
    | done => rfl
    | mark _ ih =>
      rw [← ih, Text.splitChars, if_pos (beq_self_eq_true _), entriesOf_cons_nil]
    | last hentry => rw [Text.splitChars_of_not_mem hentry.plain, hentry.entriesOf_cons]; rfl
    | entry hentry _ ih =>
      rw [Text.splitChars_append_mark _ hentry.plain, hentry.entriesOf_cons, ih]

/-- Paths with one mark between two of them are listed. -/
theorem isListing_intercalate (h : ∀ path ∈ paths, IsEntry path) :
    IsListing paths (String.intercalate ":" paths).toList := by
  have hparts : entriesOf (paths.map String.toList) = paths := by
    induction paths with
    | nil => rfl
    | cons path rest ih =>
      rw [List.forall_mem_cons] at h
      rw [List.map_cons, h.1.entriesOf_cons, ih h.2]
  have hlisting : IsListing (entriesOf (paths.map String.toList))
      ([pathMark].intercalate (paths.map String.toList)) := by
    refine isListing_of_parts fun part hpart => ?_
    obtain ⟨path, hpath, rfl⟩ := List.mem_map.1 hpart
    exact (h path hpath).plain
  rw [hparts] at hlisting
  simpa [String.toList_intercalate, pathMark] using hlisting

/-- A text lists no path if it has nothing but marks. -/
theorem isListing_nil_iff : IsListing [] text ↔ ∀ c ∈ text, c = pathMark := by
  constructor
  · intro h
    generalize hpaths : [] = paths at h
    induction h with
    | done => simp
    | mark _ ih => exact List.forall_mem_cons.2 ⟨rfl, ih hpaths⟩
    | last => cases hpaths
    | entry => cases hpaths
  · intro h
    induction text with
    | nil => exact .done
    | cons c rest ih =>
      rw [List.forall_mem_cons] at h
      rw [h.1]
      exact .mark (ih h.2)

/-! ## The configured text -/

variable {environment : Environment} {store : Store} {members : Json.Members}

/-- The text that tells the allowed paths: that of the environment, unless it is empty, or else the member
of the settings file, unless it is null. -/
inductive IsConfigured (environment : Environment) (members : Json.Members) : String → Prop
  | ofEnvironment {text : String} (given : environment.lookup "BINSTRINGS_ALLOWED_PATHS" = some text)
    (nonempty : text ≠ "") : IsConfigured environment members text
  | ofFile {value : Json}
    (absent : ∀ text, environment.lookup "BINSTRINGS_ALLOWED_PATHS" = some text → text = "")
    (given : members.get? "allowed_paths" = some value) (notNull : value ≠ .null) :
    IsConfigured environment members value.phrase

theorem given?_eq_some_iff {name text : String} :
    given? environment name = some text ↔ environment.lookup name = some text ∧ text ≠ "" := by
  unfold given?
  split
  · rename_i value hvalue
    rw [hvalue]
    split
    · rename_i hempty
      rw [String.isEmpty_iff] at hempty
      subst hempty
      simp only [reduceCtorEq, Option.some.injEq, false_iff, not_and, Decidable.not_not]
      exact Eq.symm
    · rename_i hempty
      rw [String.isEmpty_iff] at hempty
      simp only [Option.some.injEq, iff_self_and]
      rintro rfl
      exact hempty
  · rename_i hnone
    simp [hnone]

theorem asText?_eq_some_iff {key text : String} :
    asText? members key = some text ↔ ∃ value, members.get? key = some value ∧ value ≠ .null ∧
      text = value.phrase := by
  unfold asText?
  split
  · simp_all
  · simp_all
  · rename_i value hnull hvalue
    rw [hvalue]
    constructor
    · intro h
      exact ⟨value, rfl, hnull, (Option.some.inj h).symm⟩
    · rintro ⟨_, hsame, -, rfl⟩
      rw [Option.some.inj hsame]

/-- The value of the setting is the configured text. -/
theorem exists_value_allowedPaths (hload : (load store).2 = .ok members) : ∃ lines found,
    value environment store allowedPathsKey = (lines, .ok found) ∧
      ∀ text, found = some text ↔ IsConfigured environment members text := by
  have hkey : override? environment allowedPathsKey = given? environment "BINSTRINGS_ALLOWED_PATHS" :=
    rfl
  unfold value
  rw [hkey]
  cases hgiven : given? environment "BINSTRINGS_ALLOWED_PATHS" with
  | some text =>
    obtain ⟨hlookup, hne⟩ := given?_eq_some_iff.1 hgiven
    refine ⟨[], some text, rfl, fun other => ?_⟩
    constructor
    · intro h
      rw [← Option.some.inj h]
      exact .ofEnvironment hlookup hne
    · intro h
      cases h with
      | ofEnvironment hother => rw [← hother, hlookup]
      | ofFile habsent => exact absurd (habsent text hlookup) hne
  | none =>
    have habsent : ∀ text, environment.lookup "BINSTRINGS_ALLOWED_PATHS" = some text → text = "" := by
      intro text hlookup
      refine Decidable.not_not.1 fun hne => ?_
      rw [given?_eq_some_iff.2 ⟨hlookup, hne⟩] at hgiven
      cases hgiven
    rcases hloaded : load store with ⟨lines, result⟩
    rw [hloaded] at hload
    cases hload
    refine ⟨lines, asText? members allowedPathsKey, rfl, fun text => ?_⟩
    rw [asText?_eq_some_iff]
    constructor
    · rintro ⟨value, hvalue, hnull, rfl⟩
      exact .ofFile habsent hvalue hnull
    · intro h
      cases h with
      | ofEnvironment hlookup hne => exact absurd (habsent text hlookup) hne
      | ofFile _ hvalue hnull => exact ⟨_, hvalue, hnull, rfl⟩

/-- What the settings allow: without a configured text, or with an empty one, everything, and else what
the text lists. -/
theorem exists_allowedPaths (hload : (load store).2 = .ok members) : ∃ lines allowed,
    allowedPaths environment store = (lines, .ok allowed) ∧
      (allowed = none ↔ ∀ text, IsConfigured environment members text → text = "") ∧
      ∀ text paths, IsConfigured environment members text → text ≠ "" →
        (allowed = some paths ↔ IsListing paths text.toList) := by
  obtain ⟨lines, found, hvalue, hfound⟩ := exists_value_allowedPaths hload
  unfold allowedPaths
  rw [hvalue]
  cases found with
  | none =>
    refine ⟨lines, none, rfl, ⟨fun _ text htext => ?_, fun _ => rfl⟩, fun text _ htext => ?_⟩
    · cases (hfound text).2 htext
    · cases (hfound text).2 htext
  | some found =>
    have hsame : ∀ text, IsConfigured environment members text → found = text := fun text htext =>
      Option.some.inj ((hfound text).2 htext)
    have hconfigured := (hfound found).1 rfl
    by_cases hempty : found = ""
    · refine ⟨lines, none, by rw [hempty]; rfl, ⟨fun _ text htext => ?_, fun _ => rfl⟩,
        fun text _ htext hne => ?_⟩
      · rw [← hsame text htext, hempty]
      · exact absurd (hsame text htext ▸ hempty) hne
    · have hisEmpty : found.isEmpty = false := by simpa [String.isEmpty_iff] using hempty
      refine ⟨lines, some (pathsOf found), by simp only [hisEmpty]; rfl, ⟨nofun, fun hall => ?_⟩,
        fun text paths htext _ => ?_⟩
      · exact absurd (hall found hconfigured) hempty
      · rw [Option.some.injEq, pathsOf_eq_iff, hsame text htext]

end Settings

end BinaryStrings
