import BinaryStrings.Proofs.Scan.Exact
import Mathlib.Data.Set.BooleanAlgebra
import Mathlib.Order.CompletePartialOrder
import Mathlib.Order.Interval.Set.LinearOrder

/-!
# Spans of runs

The span of a run is the set of the places of its bytes.  Two runs of one scanner never touch: at
least one byte lies between them.  A run of one scanner and a run of the other never touch either,
unless the ASCII run is a proper part of the UTF-8 run.

All of this rests on one fact about maximal runs of two sets of characters, one within the other: a
run of the smaller set that starts in a run of the larger one starts at one of its characters
(`IsMaximalRun.exists_split`), so it ends in that run as well.

Main results:

- Theorem `IsMaximalRun.apart_or_within`: the intervals of such runs are apart, or one is within the
  other.
- Theorem `spans_apart_or_within`: the same of the runs that the scanners report.
-/

namespace BinaryStrings

/-- The place behind the last byte of a run. -/
def Run.stop (run : Run) : Nat :=
  run.offset + (Utf8.encode run.text.toList).length

/-- The places of the bytes of a run. -/
def Run.span (run : Run) : Set Nat :=
  Set.Ico run.offset run.stop

/-- At least one byte lies between two runs. -/
def Run.IsApartFrom (run other : Run) : Prop :=
  run.stop < other.offset ∨ other.stop < run.offset

namespace Scan

variable {member wider : Char → Bool} {data before after : Bytes} {text text' : List Char}
  {start stop start' stop' : Nat}

/-! ## Runs within runs -/

theorem IsMaximalRun.start_lt_stop (h : IsMaximalRun member data start stop text) :
    start < stop := by
  obtain ⟨_, _, _, _, rfl, hne, _⟩ := isMaximalRun_iff_append.1 h
  exact Nat.lt_add_of_pos_right (List.length_pos_iff.2 (mt Utf8.encode_eq_nil_iff.1 hne))

/-- The text of a run is spelled by the bytes of its interval, whatever set it is a run of. -/
theorem IsMaximalRun.text_eq (h : IsMaximalRun member data start stop text)
    (h' : IsMaximalRun wider data start stop text') : text = text' :=
  Utf8.encode_inj.1 (h.spelled.symm.trans h'.spelled)

/-- A run that starts in a written text, or right behind it, starts where one of its characters
does. -/
theorem IsMaximalRun.exists_split
    (h : IsMaximalRun member (before ++ (Utf8.encode text ++ after)) start stop text')
    (hlow : before.length ≤ start) (hhigh : start ≤ before.length + (Utf8.encode text).length) :
    ∃ front back, text = front ++ back ∧ before.length + (Utf8.encode front).length = start := by
  induction text generalizing before with
  | nil => exact ⟨[], [], rfl, Nat.le_antisymm hlow hhigh⟩
  | cons c text ih =>
    rcases Nat.eq_or_lt_of_le hlow with heq | hlt
    · exact ⟨[], c :: text, rfl, heq⟩
    · rw [Utf8.encode_cons, List.append_assoc] at h
      have hbehind := h.not_start_inside hlt
      rw [← List.append_assoc] at h
      rw [Utf8.encode_cons, List.length_append, Utf8.length_encodeChar] at hhigh
      obtain ⟨front, back, rfl, hfront⟩ := ih h (by simpa using hbehind) (by simp; omega)
      refine ⟨c :: front, back, rfl, ?_⟩
      rw [← hfront]
      simp [Nat.add_assoc]

/-- A run that starts behind the start of a text in its set starts at a distance behind the text. -/
theorem IsMaximalRun.length_lt_start (hmembers : ∀ c ∈ text, member c = true)
    (h : IsMaximalRun member (before ++ (Utf8.encode text ++ after)) start stop text')
    (hlow : before.length < start) : before.length + (Utf8.encode text).length < start := by
  refine Nat.lt_of_not_le fun hhigh => ?_
  obtain ⟨front, back, rfl, hfront⟩ := h.exists_split (Nat.le_of_lt hlow) hhigh
  have hne : front ≠ [] := by
    rintro rfl
    exact Nat.ne_of_lt hlow hfront
  rw [Utf8.encode_append, List.append_assoc, ← List.append_assoc before] at h
  refine absurd ?_ (h.start_ne_length_of_encode hne fun c hc => hmembers c (by simp [hc]))
  rw [List.length_append, hfront]

/-- A run of a set and one of a wider set are apart, or the first is within the second. -/
theorem IsMaximalRun.apart_or_within (hwider : ∀ c, member c = true → wider c = true)
    (h : IsMaximalRun member data start stop text)
    (h' : IsMaximalRun wider data start' stop' text') :
    stop < start' ∨ stop' < start ∨ start' ≤ start ∧ stop ≤ stop' := by
  obtain ⟨before, after, hdata, rfl, rfl, _, hmembers, _, _⟩ := isMaximalRun_iff_append.1 h
  obtain ⟨before', after', hdata', rfl, rfl, _, _, hafter', _⟩ := isMaximalRun_iff_append.1 h'
  have hall : ∀ c ∈ text, wider c = true := fun c hc => hwider c (hmembers c hc)
  rcases Nat.lt_or_ge before.length before'.length with hbefore | hbehind
  · rw [hdata] at h'
    exact Or.inl (h'.length_lt_start hall hbefore)
  rcases Nat.lt_or_ge (before'.length + (Utf8.encode text').length) before.length with
    hapart | hinside
  · exact Or.inr (Or.inl hapart)
  · rw [hdata'] at h
    obtain ⟨front, back, rfl, hfront⟩ := h.exists_split hbehind hinside
    have hsame : before ++ (Utf8.encode text ++ after) =
        (before' ++ Utf8.encode front) ++ (Utf8.encode back ++ after') := by
      rw [← hdata, hdata', Utf8.encode_append]
      simp only [List.append_assoc]
    have hrest := (List.append_inj hsame (by rw [List.length_append, hfront])).2
    obtain ⟨more, rfl⟩ := prefix_of_encode_append_eq hall hafter' hrest
    refine Or.inr (Or.inr ⟨hbehind, ?_⟩)
    simp only [Utf8.encode_append, List.length_append]
    omega

/-- Two runs of one set that start at different places are apart. -/
theorem IsMaximalRun.apart_of_start_ne (h : IsMaximalRun member data start stop text)
    (h' : IsMaximalRun member data start' stop' text') (hne : start ≠ start') :
    stop < start' ∨ stop' < start := by
  have hfirst := h.apart_or_within (fun _ hc => hc) h'
  have hsecond := h'.apart_or_within (fun _ hc => hc) h
  omega

/-! ## Runs that are reported -/

variable {minLength minLength' : Int} {run other : Run}

/-- A reported run is the maximal run on its span. -/
theorem isMaximalRun_of_stop {run : Run} {stop : Nat}
    (h : IsMaximalRun member data run.offset stop run.text.toList) :
    IsMaximalRun member data run.offset run.stop run.text.toList := by
  obtain ⟨_, _, _, _, rfl, _⟩ := isMaximalRun_iff_append.1 h
  exact h

theorem isMaximalRun_of_mem_ascii (h : run ∈ ascii data minLength) :
    IsMaximalRun isPrintableChar data run.offset run.stop run.text.toList := by
  obtain ⟨_, hrun, _⟩ := mem_ascii_iff_isMaximalRun.1 h
  exact isMaximalRun_of_stop hrun

theorem isMaximalRun_of_mem_utf8 (h : run ∈ utf8 data minLength) :
    IsMaximalRun isNoControl data run.offset run.stop run.text.toList := by
  obtain ⟨_, hrun, _⟩ := mem_utf8_iff.1 h
  exact isMaximalRun_of_stop hrun

/-- Two different runs of one set are apart. -/
theorem isApartFrom_of_isMaximalRun
    (h : IsMaximalRun member data run.offset run.stop run.text.toList)
    (h' : IsMaximalRun member data other.offset other.stop other.text.toList)
    (hne : run ≠ other) : run.IsApartFrom other := by
  refine h.apart_of_start_ne h' fun hstart => hne ?_
  rw [hstart] at h
  have htext : run.text = other.text := String.toList_inj.1 (h.unique h')
  cases run
  cases other
  simp_all

/-- Printable ASCII characters are no control characters. -/
theorem isNoControl_of_isPrintableChar {c : Char} (hc : isPrintableChar c = true) :
    isNoControl c = true := by
  have hrange : 0x20 ≤ c.toNat ∧ c.toNat ≤ 0x7E := by simpa [isPrintableChar] using hc
  simp [isNoControl, Unicode.isControl]
  omega

/-- No text is reported by both scanners. -/
theorem text_ne_of_mem (h : run ∈ ascii data minLength) (h' : other ∈ utf8 data minLength') :
    run.text ≠ other.text := by
  intro htext
  obtain ⟨_, _, _, hwide⟩ := mem_utf8_iff.1 h'
  rw [← htext] at hwide
  exact not_isWide_of_mem_ascii h hwide

/-- An ASCII run that is not apart from a UTF-8 run is a proper part of it. -/
theorem apart_or_span_ssubset (h : run ∈ ascii data minLength)
    (h' : other ∈ utf8 data minLength') : run.IsApartFrom other ∨ run.span ⊂ other.span := by
  have hrun := isMaximalRun_of_mem_ascii h
  have hother := isMaximalRun_of_mem_utf8 h'
  rcases hrun.apart_or_within (fun _ => isNoControl_of_isPrintableChar) hother with
    hbefore | hbehind | ⟨hstart, hstop⟩
  · exact Or.inl (Or.inl hbefore)
  · exact Or.inl (Or.inr hbehind)
  · refine Or.inr (ssubset_of_subset_of_ne (Set.Ico_subset_Ico hstart hstop) fun hspan => ?_)
    obtain ⟨hoffset, hend⟩ := (Set.Ico_eq_Ico_iff (Or.inl hrun.start_lt_stop)).1 hspan
    rw [hoffset, hend] at hrun
    exact text_ne_of_mem h h' (String.toList_inj.1 (hrun.text_eq hother))

/-- Two different ASCII runs have at least one byte between them, and so have two different UTF-8 runs,
whatever least lengths they are reported for.  An ASCII run and a UTF-8 run have one between them, or
the ASCII run is a proper part of the UTF-8 run; they never have the same text. -/
theorem spans_apart_or_within (data : Bytes) (minLength minLength' : Int) :
    (∀ run ∈ ascii data minLength, ∀ other ∈ ascii data minLength',
      run ≠ other → run.IsApartFrom other) ∧
    (∀ run ∈ utf8 data minLength, ∀ other ∈ utf8 data minLength',
      run ≠ other → run.IsApartFrom other) ∧
    ∀ run ∈ ascii data minLength, ∀ other ∈ utf8 data minLength',
      (run.IsApartFrom other ∨ run.span ⊂ other.span) ∧ run.text ≠ other.text := by
  refine ⟨fun run hrun other hother => ?_, fun run hrun other hother => ?_,
    fun run hrun other hother => ⟨apart_or_span_ssubset hrun hother, text_ne_of_mem hrun hother⟩⟩
  · exact isApartFrom_of_isMaximalRun (isMaximalRun_of_mem_ascii hrun)
      (isMaximalRun_of_mem_ascii hother)
  · exact isApartFrom_of_isMaximalRun (isMaximalRun_of_mem_utf8 hrun)
      (isMaximalRun_of_mem_utf8 hother)

/-- In `ab`, a control character, `cd é ef` and another one, the run `ab` is apart from the UTF-8 run,
and `cd ` is a proper part of it. -/
theorem spans_of_two_words :
    let data := Utf8.encode "ab\x01cd é ef\x02".toList
    ascii data 2 = [⟨"ab", 0⟩, ⟨"cd ", 3⟩, ⟨" ef", 8⟩] ∧ utf8 data 2 = [⟨"cd é ef", 3⟩] ∧
      Run.IsApartFrom ⟨"ab", 0⟩ ⟨"cd é ef", 3⟩ ∧ Run.span ⟨"cd ", 3⟩ ⊂ Run.span ⟨"cd é ef", 3⟩ := by
  intro data
  have hascii : ascii data 2 = [⟨"ab", 0⟩, ⟨"cd ", 3⟩, ⟨" ef", 8⟩] := by decide +kernel
  have hutf8 : utf8 data 2 = [⟨"cd é ef", 3⟩] := by decide +kernel
  obtain ⟨_, _, hboth⟩ := spans_apart_or_within data 2 2
  obtain ⟨hfirst, _⟩ := hboth ⟨"ab", 0⟩ (by simp [hascii]) ⟨"cd é ef", 3⟩ (by simp [hutf8])
  obtain ⟨hsecond, _⟩ := hboth ⟨"cd ", 3⟩ (by simp [hascii]) ⟨"cd é ef", 3⟩ (by simp [hutf8])
  refine ⟨hascii, hutf8, hfirst.resolve_right fun hpart => ?_, hsecond.resolve_left ?_⟩
  · have hmem : 0 ∈ Run.span ⟨"cd é ef", 3⟩ := hpart.subset ⟨by decide, by decide⟩
    exact absurd hmem.1 (by decide)
  · unfold Run.IsApartFrom
    decide

end Scan

end BinaryStrings
