import BinaryStrings.Proofs.Report.Findings

/-!
# Parts of a report

A report is put together from findings in two steps: the first finding of each section and text is
kept, and the entries kept are sorted by address.  Both steps go along with leaving entries out, so a
part of a report is the report of a part of the findings.

Main results:

- Theorem `eq_of_filter_address_eq`: a list in ascending order of addresses is determined by its
  entries at each address.
- Theorem `ofFindings_filter_key`: when findings are left out by section and text, the report misses
  their entries and nothing else changes.
- Theorem `filter_label_ofFindings`: the entries of one section are the report of its findings.
- Theorem `perm_of_filter_label_eq`: up to their order, entries are determined by those of each
  section.
-/

namespace BinaryStrings.Report

/-! ## Order by address -/

/-- Lists with the same entries at every address have the same entries. -/
theorem mem_iff_of_filter_address_eq {entries others : List Entry}
    (h : ∀ address, entries.filter (·.address == address) = others.filter (·.address == address))
    (entry : Entry) : entry ∈ entries ↔ entry ∈ others := by
  have hat : entry ∈ entries.filter (·.address == entry.address) ↔
      entry ∈ others.filter (·.address == entry.address) := by rw [h]
  simpa using hat

/-- A list in ascending order of addresses is determined by its entries at each address. -/
theorem eq_of_filter_address_eq {entries others : List Entry}
    (hentries : entries.Pairwise fun a b => a.address ≤ b.address)
    (hothers : others.Pairwise fun a b => a.address ≤ b.address)
    (h : ∀ address, entries.filter (·.address == address) = others.filter (·.address == address)) :
    entries = others := by
  induction entries generalizing others with
  | nil =>
    symm
    rw [List.eq_nil_iff_forall_not_mem]
    intro entry hentry
    simpa using (mem_iff_of_filter_address_eq h entry).2 hentry
  | cons first rest ih =>
    have hmem := mem_iff_of_filter_address_eq h
    cases others with
    | nil => simpa using (hmem first).1 (by simp)
    | cons other others =>
      rw [List.pairwise_cons] at hentries hothers
      -- Both lists start at their lowest address, and they have the same addresses.
      have haddress : first.address = other.address := by
        apply Int.le_antisymm
        · rcases List.mem_cons.1 ((hmem other).2 (by simp)) with heq | hin
          · exact Int.le_of_eq (congrArg Entry.address heq.symm)
          · exact hentries.1 other hin
        · rcases List.mem_cons.1 ((hmem first).1 (by simp)) with heq | hin
          · exact Int.le_of_eq (congrArg Entry.address heq.symm)
          · exact hothers.1 first hin
      have hhead := h first.address
      simp only [List.filter_cons, haddress, beq_self_eq_true, ↓reduceIte, List.cons.injEq] at hhead
      obtain ⟨rfl, htail⟩ := hhead
      congr 1
      refine ih hentries.2 hothers.2 fun address => ?_
      by_cases hat : first.address = address
      · rw [← hat]
        exact htail
      · simpa [List.filter_cons, hat] using h address

/-- Sorting by address goes along with leaving entries out. -/
theorem filter_mergeSort (entries : List Entry) (test : Entry → Bool) :
    (entries.mergeSort fun a b => a.address ≤ b.address).filter test =
      (entries.filter test).mergeSort fun a b => a.address ≤ b.address := by
  apply eq_of_filter_address_eq
  · exact (pairwise_mergeSort_address entries).filter test
  · exact pairwise_mergeSort_address (entries.filter test)
  · intro address
    rw [List.filter_comm, filter_mergeSort_address, filter_mergeSort_address, List.filter_comm]

/-- A part of a report is a part of what is kept, sorted. -/
theorem filter_ofFindings_entries (found : List Entry) (test : Entry → Bool) :
    (ofFindings found).entries.filter test =
      ((firsts found).filter test).mergeSort fun a b => a.address ≤ b.address :=
  filter_mergeSort (firsts found) test

/-! ## Findings left out -/

/-- Of the findings that are not left out by section and text, the first ones are the same. -/
theorem firsts_filter_key (found : List Entry) (test : Entry.Key → Bool) :
    firsts (found.filter fun entry => test entry.key) =
      (firsts found).filter fun entry => test entry.key := by
  induction found with
  | nil => rfl
  | cons entry rest ih =>
    rw [firsts_cons]
    cases htest : test entry.key with
    | true =>
      simp only [List.filter_cons, htest, ↓reduceIte, firsts_cons, ih]
      rw [List.filter_comm]
    | false =>
      simp only [List.filter_cons, htest, Bool.false_eq_true, ↓reduceIte, ih, List.filter_filter]
      refine List.filter_congr fun other _ => ?_
      -- An entry with the key of the one left out is left out as well.
      by_cases hkey : other.key = entry.key
      · simp [hkey, htest]
      · simp [hkey]

/-- When findings are left out by section and text, the report misses their entries and nothing else
changes. -/
theorem ofFindings_filter_key (found : List Entry) (test : Entry.Key → Bool) :
    ofFindings (found.filter fun entry => test entry.key) =
      ⟨(ofFindings found).entries.filter fun entry => test entry.key⟩ := by
  rw [filter_ofFindings_entries, ← firsts_filter_key]
  rfl

/-! ## Sections -/

section Sections

variable {findings : String → List Entry}
  (hlabel : ∀ label, ∀ entry ∈ findings label, entry.label = label)

include hlabel

/-- The entries that are kept of one section are those that are kept of it alone. -/
theorem filter_label_firsts {labels : List String} {label : String} (h : label ∈ labels) :
    (firsts (labels.flatMap findings)).filter (·.label == label) = firsts (findings label) := by
  induction labels with
  | nil => cases h
  | cons first rest ih =>
    have hfirst : ∀ entry ∈ firsts (findings first), entry.label = first :=
      fun entry hentry => hlabel first entry ((firsts_sublist _).subset hentry)
    rw [firsts_flatMap_cons hlabel, List.filter_append, List.filter_filter]
    by_cases heq : first = label
    · subst first
      rw [List.filter_eq_self.2 fun entry hentry => beq_iff_eq.2 (hfirst entry hentry),
        List.filter_eq_nil_iff.2 fun entry _ => by simp, List.append_nil]
    · have hin : label ∈ rest := (List.mem_cons.1 h).resolve_left (Ne.symm heq)
      have hnone : (firsts (findings first)).filter (·.label == label) = [] := by
        apply List.filter_eq_nil_iff.2
        intro entry hentry
        simpa [hfirst entry hentry] using heq
      rw [hnone, List.nil_append, ← ih hin]
      refine List.filter_congr fun entry _ => ?_
      by_cases hentry : entry.label = label
      · simp [hentry, Ne.symm heq]
      · simp [hentry]

/-- The entries of one section are the report of its findings. -/
theorem filter_label_ofFindings {labels : List String} {label : String} (h : label ∈ labels) :
    (ofFindings (labels.flatMap findings)).entries.filter (·.label == label) =
      (ofFindings (findings label)).entries := by
  rw [filter_ofFindings_entries, filter_label_firsts hlabel h]
  rfl

/-- An entry belongs to a section that was asked for. -/
theorem label_mem_of_mem_ofFindings {labels : List String} {entry : Entry}
    (h : entry ∈ (ofFindings (labels.flatMap findings)).entries) : entry.label ∈ labels :=
  (mem_findings_of_mem_flatMap hlabel ((firsts_sublist _).subset (mem_ofFindings.1 h))).1

end Sections

/-- Up to their order, entries are determined by those of each section. -/
theorem perm_of_filter_label_eq {entries others : List Entry}
    (h : ∀ label, entries.filter (·.label == label) = others.filter (·.label == label)) :
    entries.Perm others := by
  rw [List.perm_iff_count]
  intro entry
  have hcount := congrArg (List.count entry) (h entry.label)
  rwa [List.count_filter (by simp), List.count_filter (by simp)] at hcount

/-- Two sorted lists of the same entries have the same addresses in turn. -/
theorem map_address_eq_of_perm {entries others : List Entry} (h : entries.Perm others)
    (hentries : entries.Pairwise fun a b => a.address ≤ b.address)
    (hothers : others.Pairwise fun a b => a.address ≤ b.address) :
    entries.map Entry.address = others.map Entry.address := by
  have hsorted : ∀ list : List Entry, list.Pairwise (fun a b => a.address ≤ b.address) →
      (list.map Entry.address).Pairwise (· ≤ ·) :=
    fun list hlist => hlist.map Entry.address fun _ _ hab => hab
  exact List.Perm.eq_of_pairwise (fun _ _ _ _ => Int.le_antisymm) (hsorted entries hentries)
    (hsorted others hothers) (h.map Entry.address)

/-- When no two sections share an address, the entries of each section and the order by address
determine a report. -/
theorem eq_of_filter_label_eq {entries others : List Entry}
    (hentries : entries.Pairwise fun a b => a.address ≤ b.address)
    (hothers : others.Pairwise fun a b => a.address ≤ b.address)
    (h : ∀ label, entries.filter (·.label == label) = others.filter (·.label == label))
    (hapart : ∀ a ∈ entries, ∀ b ∈ entries, a.address = b.address → a.label = b.label) :
    entries = others := by
  have hmem := fun entry => (perm_of_filter_label_eq h).mem_iff (a := entry)
  apply eq_of_filter_address_eq hentries hothers
  intro address
  by_cases hsome : ∃ entry ∈ entries, entry.address = address
  · obtain ⟨entry, hentry, rfl⟩ := hsome
    -- All entries at this address are of one section, where both lists agree.
    have hsection : ∀ list : List Entry, (∀ other ∈ list, other ∈ entries) →
        list.filter (·.address == entry.address) =
          (list.filter (·.label == entry.label)).filter (·.address == entry.address) := by
      intro list hlist
      rw [List.filter_filter]
      refine List.filter_congr fun other hother => ?_
      by_cases haddress : other.address = entry.address
      · simp [haddress, hapart other (hlist other hother) entry hentry haddress]
      · simp [haddress]
    rw [hsection entries fun _ hother => hother, h,
      ← hsection others fun other hother => (hmem other).2 hother]
  · have hnone : ∀ list : List Entry, (∀ other ∈ list, other ∈ entries) →
        list.filter (·.address == address) = [] := by
      intro list hlist
      apply List.filter_eq_nil_iff.2
      intro other hother haddress
      exact hsome ⟨other, hlist other hother, by simpa using haddress⟩
    rw [hnone entries fun _ hother => hother, hnone others fun other hother => (hmem other).2 hother]

/-! ## Some sections -/

/-- The entries of some sections stay in their order. -/
theorem inSections_sublist (report : Report) (labels : List String) :
    (report.inSections labels).entries.Sublist report.entries := by
  unfold inSections
  split
  · exact List.Sublist.refl _
  · exact List.filter_sublist

theorem inSections_singleton (report : Report) (label : String) :
    report.inSections [label] = ⟨report.entries.filter (·.label == label)⟩ := by
  simp [inSections, beq_eq_decide]

end BinaryStrings.Report
