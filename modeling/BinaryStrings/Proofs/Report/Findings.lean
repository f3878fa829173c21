import Mathlib.Data.List.Basic
import BinaryStrings.Report

/-!
# Reports made from findings

The entries kept from a list of findings, and their order in the report.

Main results:

- Theorem `firsts_cons`: keeping the first finding of each section and text is a plain recursion;
  the set of keys that the program carries along is gone from it.
- Theorem `key_mem_firsts_iff`, `nodup_keys_firsts` and `related_of_mem_firsts`: every section and
  text found is kept once, by its first finding.
- Theorem `pairwise_ofFindings`: the report is in ascending order of addresses, and entries at one
  address stay in the order in which they were kept.
-/

namespace BinaryStrings

instance : Std.TransOrd Entry.Key :=
  inferInstanceAs (Std.TransCmp (compareLex (compareOn Entry.Key.label) (compareOn Entry.Key.value)))

instance : Std.LawfulEqOrd Entry.Key where
  eq_of_compare := by
    rintro ⟨label, value⟩ ⟨label', value'⟩ h
    obtain ⟨hlabel, hvalue⟩ := Ordering.then_eq_eq.1 h
    rw [Entry.Key.mk.injEq]
    exact ⟨Std.LawfulEqCmp.eq_of_compare hlabel, Std.LawfulEqCmp.eq_of_compare hvalue⟩

namespace Report

/-- A key is there exactly if an entry has this section and this text. -/
theorem mem_map_key_iff {entries : List Entry} {label value : String} :
    (⟨label, value⟩ : Entry.Key) ∈ entries.map Entry.key ↔
      ∃ address, ⟨value, address, label⟩ ∈ entries := by
  rw [List.mem_map]
  constructor
  · rintro ⟨⟨value', address, label'⟩, hmem, heq⟩
    cases heq
    exact ⟨address, hmem⟩
  · rintro ⟨address, hmem⟩
    exact ⟨_, hmem, rfl⟩

/-! ## First findings -/

/-- The first finding of each section and text, without the set of keys that have occurred. -/
def distinct : List Entry → List Entry
  | [] => []
  | entry :: rest => entry :: (distinct rest).filter (·.key != entry.key)

/-- The set of keys leaves out what has occurred before. -/
theorem firstsFrom_eq (seen : Std.TreeSet Entry.Key) (kept found : List Entry) :
    firstsFrom seen kept found =
      kept.reverse ++ (distinct found).filter fun entry => !seen.contains entry.key := by
  induction found generalizing seen kept with
  | nil => simp [firstsFrom, distinct]
  | cons entry rest ih =>
    simp only [firstsFrom, distinct, List.filter_cons, List.filter_filter]
    split
    · rename_i hseen
      rw [ih, hseen]
      simp only [Bool.not_true, Bool.false_eq_true, ↓reduceIte]
      congr 1
      refine List.filter_congr fun other _ => ?_
      -- An entry with a key that has not occurred differs from one with a key that has.
      by_cases hkey : other.key = entry.key
      · simp [hkey, hseen]
      · simp [hkey]
    · rename_i hseen
      rw [ih]
      simp only [hseen, List.reverse_cons, List.append_assoc, Bool.not_false, ↓reduceIte,
        List.singleton_append]
      congr 2
      refine List.filter_congr fun other _ => ?_
      have hcompare : (compare entry.key other.key == Ordering.eq) = (other.key == entry.key) := by
        rw [Bool.eq_iff_iff, beq_iff_eq, beq_iff_eq, Std.LawfulEqCmp.compare_eq_iff_eq]
        exact eq_comm
      rw [Std.TreeSet.contains_insert, Bool.not_or, Bool.and_comm, hcompare]
      rfl

/-- What a loop with a set of seen keys keeps is what is distinct. -/
theorem firsts_eq_distinct (found : List Entry) : firsts found = distinct found := by
  rw [firsts, firstsFrom_eq]
  simp

@[simp] theorem firsts_nil : firsts [] = [] :=
  rfl

/-- The first finding is kept, and of the later ones those that have another key. -/
theorem firsts_cons (entry : Entry) (rest : List Entry) :
    firsts (entry :: rest) = entry :: (firsts rest).filter (·.key != entry.key) := by
  simp only [firsts_eq_distinct, distinct]

/-- What is kept stays in its order. -/
theorem firsts_sublist (found : List Entry) : (firsts found).Sublist found := by
  induction found with
  | nil => exact List.Sublist.refl _
  | cons entry rest ih =>
    rw [firsts_cons]
    exact (List.filter_sublist.trans ih).cons_cons entry

/-- Every key found is kept. -/
theorem key_mem_firsts_iff {found : List Entry} {key : Entry.Key} :
    key ∈ (firsts found).map Entry.key ↔ key ∈ found.map Entry.key := by
  induction found with
  | nil => rfl
  | cons entry rest ih =>
    rw [firsts_cons, List.map_cons, List.map_cons, List.mem_cons, List.mem_cons, ← ih]
    by_cases hkey : key = entry.key
    · simp [hkey]
    · simp only [hkey, false_or, List.mem_map, List.mem_filter, bne_iff_ne]
      constructor
      · rintro ⟨other, ⟨hother, _⟩, rfl⟩
        exact ⟨other, hother, rfl⟩
      · rintro ⟨other, hother, rfl⟩
        exact ⟨other, ⟨hother, hkey⟩, rfl⟩

/-- No key is kept twice. -/
theorem nodup_keys_firsts (found : List Entry) : ((firsts found).map Entry.key).Nodup := by
  induction found with
  | nil => exact List.nodup_nil
  | cons entry rest ih =>
    rw [firsts_cons, List.map_cons, List.nodup_cons]
    constructor
    · simp
    · exact ih.sublist (List.filter_sublist.map _)

/-- What holds between a finding and every later one of its key holds between an entry that is kept
and every other finding of its key. -/
theorem related_of_mem_firsts {found : List Entry} {R : Entry → Entry → Prop}
    (hrel : found.Pairwise fun a b => a.key = b.key → R a b) {entry other : Entry}
    (hentry : entry ∈ firsts found) (hother : other ∈ found) (hkey : entry.key = other.key) :
    other = entry ∨ R entry other := by
  induction found with
  | nil => cases hother
  | cons first rest ih =>
    rw [List.pairwise_cons] at hrel
    rw [firsts_cons, List.mem_cons, List.mem_filter, bne_iff_ne] at hentry
    rcases hentry with rfl | ⟨hentry, hne⟩
    · rcases List.mem_cons.1 hother with rfl | hother
      · exact Or.inl rfl
      · exact Or.inr (hrel.1 other hother hkey)
    · rcases List.mem_cons.1 hother with rfl | hother
      · exact absurd hkey hne
      · exact ih hrel.2 hentry hother

/-- Of two lists of findings the first one goes first, and hides its keys in the second. -/
theorem firsts_append (found more : List Entry) :
    firsts (found ++ more) =
      firsts found ++ (firsts more).filter fun entry => !(found.map Entry.key).contains entry.key := by
  induction found with
  | nil => exact (List.filter_eq_self.2 fun _ _ => rfl).symm
  | cons entry rest ih =>
    rw [List.cons_append, firsts_cons, ih, firsts_cons, List.filter_append, List.filter_filter,
      List.cons_append]
    congr 2
    refine List.filter_congr fun other _ => ?_
    rw [List.map_cons, List.contains_cons, Bool.not_or]
    rfl

/-! ## Findings of several sections -/

section Sections

variable {findings : String → List Entry}
  (hlabel : ∀ label, ∀ entry ∈ findings label, entry.label = label)

include hlabel

/-- A finding of some sections is one of its own section. -/
theorem mem_findings_of_mem_flatMap {labels : List String} {entry : Entry}
    (h : entry ∈ labels.flatMap findings) :
    entry.label ∈ labels ∧ entry ∈ findings entry.label := by
  obtain ⟨label, hmem, hentry⟩ := List.mem_flatMap.1 h
  rw [hlabel label entry hentry]
  exact ⟨hmem, hentry⟩

/-- The first section goes first, and nothing of it is found again under its label. -/
theorem firsts_flatMap_cons (label : String) (labels : List String) :
    firsts ((label :: labels).flatMap findings) =
      firsts (findings label) ++
        (firsts (labels.flatMap findings)).filter (·.label != label) := by
  rw [List.flatMap_cons, firsts_append]
  congr 1
  refine List.filter_congr fun entry hentry => ?_
  have hmem := mem_findings_of_mem_flatMap hlabel ((firsts_sublist _).subset hentry)
  rw [Bool.eq_iff_iff, Bool.not_eq_true', bne_iff_ne, ← Bool.not_eq_true, List.contains_iff_mem,
    not_iff_not]
  constructor
  · intro hkey
    obtain ⟨other, hother, heq⟩ := List.mem_map.1 hkey
    rw [← hlabel label other hother]
    exact congrArg Entry.Key.label heq.symm
  · rintro rfl
    exact List.mem_map_of_mem hmem.2

/-- An entry that is kept is the first finding of its key in its section. -/
theorem mem_firsts_findings {labels : List String} {entry : Entry}
    (h : entry ∈ firsts (labels.flatMap findings)) : entry ∈ firsts (findings entry.label) := by
  induction labels with
  | nil => cases h
  | cons label labels ih =>
    rw [firsts_flatMap_cons hlabel, List.mem_append, List.mem_filter] at h
    rcases h with h | ⟨h, _⟩
    · rw [hlabel label entry ((firsts_sublist _).subset h)]
      exact h
    · exact ih h

/-- Entries are kept in the order of their labels, and within a section in the order in which they
were found. -/
theorem pairwise_firsts_flatMap {R : Entry → Entry → Prop}
    (hrel : ∀ label, (findings label).Pairwise R) (labels : List String) :
    (firsts (labels.flatMap findings)).Pairwise fun a b =>
      labels.idxOf a.label < labels.idxOf b.label ∨ a.label = b.label ∧ R a b := by
  induction labels with
  | nil => exact List.Pairwise.nil
  | cons label labels ih =>
    have hfirst : ∀ entry ∈ firsts (findings label), entry.label = label :=
      fun entry hentry => hlabel label entry ((firsts_sublist _).subset hentry)
    rw [firsts_flatMap_cons hlabel, List.pairwise_append]
    refine ⟨?_, ?_, ?_⟩
    · refine ((hrel label).sublist (firsts_sublist _)).imp_of_mem fun ha hb hab => ?_
      exact Or.inr ⟨(hfirst _ ha).trans (hfirst _ hb).symm, hab⟩
    · refine (ih.sublist List.filter_sublist).imp_of_mem fun ha hb hab => ?_
      rw [List.mem_filter, bne_iff_ne] at ha hb
      rw [List.idxOf_cons_ne _ ha.2.symm, List.idxOf_cons_ne _ hb.2.symm]
      exact hab.imp Nat.succ_lt_succ id
    · intro a ha b hb
      rw [List.mem_filter, bne_iff_ne] at hb
      rw [hfirst a ha, List.idxOf_cons_self, List.idxOf_cons_ne _ hb.2.symm]
      exact Or.inl (Nat.succ_pos _)

end Sections

/-! ## The order of a report -/

theorem mem_ofFindings {found : List Entry} {entry : Entry} :
    entry ∈ (ofFindings found).entries ↔ entry ∈ firsts found :=
  List.mem_mergeSort

/-- Every key found is in the report. -/
theorem key_mem_ofFindings_iff {found : List Entry} {key : Entry.Key} :
    key ∈ (ofFindings found).entries.map Entry.key ↔ key ∈ found.map Entry.key := by
  exact (((firsts found).mergeSort_perm _).map Entry.key).mem_iff.trans key_mem_firsts_iff

/-- No two entries of a report have the same key. -/
theorem nodup_keys_ofFindings (found : List Entry) :
    ((ofFindings found).entries.map Entry.key).Nodup :=
  (((firsts found).mergeSort_perm _).map Entry.key).nodup_iff.2 (nodup_keys_firsts found)

theorem trans_byAddress (a b c : Entry) (hab : decide (a.address ≤ b.address) = true)
    (hbc : decide (b.address ≤ c.address) = true) : decide (a.address ≤ c.address) = true := by
  simp only [decide_eq_true_eq] at hab hbc ⊢
  omega

theorem total_byAddress (a b : Entry) :
    (decide (a.address ≤ b.address) || decide (b.address ≤ a.address)) = true := by
  simp only [Bool.or_eq_true, decide_eq_true_eq]
  omega

/-- Sorting puts addresses in ascending order. -/
theorem pairwise_mergeSort_address (entries : List Entry) :
    (entries.mergeSort fun a b => a.address ≤ b.address).Pairwise
      fun a b => a.address ≤ b.address :=
  (List.pairwise_mergeSort trans_byAddress total_byAddress entries).imp of_decide_eq_true

/-- Sorting by address leaves the entries at one address in their order. -/
theorem filter_mergeSort_address (entries : List Entry) (address : Int) :
    (entries.mergeSort fun a b => a.address ≤ b.address).filter (·.address == address) =
      entries.filter (·.address == address) := by
  symm
  have hpairwise : (entries.filter (·.address == address)).Pairwise
      fun a b => decide (a.address ≤ b.address) = true := by
    refine List.pairwise_of_forall_mem_list fun a ha b hb => ?_
    rw [List.mem_filter, beq_iff_eq] at ha hb
    rw [ha.2, hb.2]
    simp
  have hsublist := (List.sublist_mergeSort trans_byAddress total_byAddress hpairwise
    List.filter_sublist).filter (·.address == address)
  rw [List.filter_filter] at hsublist
  simp only [Bool.and_self] at hsublist
  refine hsublist.eq_of_length ?_
  exact ((entries.mergeSort_perm _).filter _).length_eq.symm

/-- Entries at one address stay in the order in which they were kept. -/
theorem filter_ofFindings (found : List Entry) (address : Int) :
    (ofFindings found).entries.filter (·.address == address) =
      (firsts found).filter (·.address == address) :=
  filter_mergeSort_address (firsts found) address

/-- The report is in ascending order of addresses, and at one address in the order of the entries
kept. -/
theorem pairwise_ofFindings {found : List Entry} {R : Entry → Entry → Prop}
    (hrel : (firsts found).Pairwise R) :
    (ofFindings found).entries.Pairwise fun a b =>
      a.address < b.address ∨ a.address = b.address ∧ R a b := by
  have hsorted : (ofFindings found).entries.Pairwise fun a b => a.address ≤ b.address :=
    pairwise_mergeSort_address (firsts found)
  rw [List.pairwise_iff_forall_sublist] at hrel hsorted ⊢
  intro a b hab
  have hle : a.address ≤ b.address := hsorted hab
  rcases Int.lt_or_eq_of_le hle with hlt | heq
  · exact Or.inl hlt
  · refine Or.inr ⟨heq, hrel ?_⟩
    have hfilter := hab.filter (·.address == b.address)
    rw [filter_ofFindings] at hfilter
    simp only [List.filter_cons, heq, beq_self_eq_true, ↓reduceIte, List.filter_nil] at hfilter
    exact hfilter.trans List.filter_sublist

end Report

end BinaryStrings
