import BinaryStrings.Proofs.Server.ResponseSize
import BinaryStrings.Server.Tool.Format
import BinaryStrings.Server.Tool.Page
import BinaryStrings.Server.Tool.Search

/-!
# Responses are flat

The size guard gives up on values that are nested too deep.  What the tools send is nested three deep at
most, whatever the file and the arguments are.

Main results:

- Theorem `Page.not_givesUp_page`, `Search.not_givesUp_results` and `Format.not_givesUp_of_detect`: the
  guard does not give up on what the tools send.
-/

namespace BinaryStrings

open Json

/-- An entry is an object of plain values. -/
theorem Entry.depth_toJson (entry : Entry) : entry.toJson.depth = 1 := by
  cases entry
  rfl

/-- So is every entry of a list. -/
theorem Report.itemsDepth_entries_le (entries : List Entry) :
    itemsDepth (entries.map Entry.toJson) ≤ 1 := by
  refine itemsDepth_le_iff.2 fun item hitem => ?_
  obtain ⟨entry, -, rfl⟩ := List.mem_map.1 hitem
  exact Nat.le_of_eq entry.depth_toJson

namespace Server

open SizeGuard

/-- A given number is a plain value. -/
theorem GivenNumber.depth_toJson (number : GivenNumber) : number.toJson.depth = 0 := by
  unfold toJson
  split <;> rfl

/-! ## Entries and counts -/

/-- A page is an object with a list of entries. -/
theorem Page.depth_page_le (target : String) (report : Report) (offset limit : GivenNumber) :
    (page target report offset limit).depth ≤ 3 := by
  have hentries := Report.itemsDepth_entries_le (shown report offset.value limit.value)
  simp only [page, membersDepth, memberDepth, GivenNumber.depth_toJson, depth]
  omega

/-- The number of matches that are returned is a plain value. -/
theorem Search.depth_returned (limit : GivenNumber) (count : Nat) :
    (returned limit count).depth = 0 := by
  unfold returned
  split
  · rfl
  · exact limit.depth_toJson

/-- The matches of a search are an object with a list of entries. -/
theorem Search.depth_results_le (target : String) (found : Report) (limit : GivenNumber) :
    (results target found limit).depth ≤ 3 := by
  have hentries := Report.itemsDepth_entries_le (found.entries.take limit.value.toNat)
  simp only [results, membersDepth, memberDepth, depth_returned, depth]
  omega

/-- So the guard writes and copies every page. -/
theorem Page.not_givesUp_page (target : String) (report : Report) (offset limit : GivenNumber) :
    ¬ GivesUp (page target report offset limit) :=
  not_givesUp_of_depth_le (Nat.le_trans (depth_page_le target report offset limit) (by decide))

/-- It writes and copies the matches of every search. -/
theorem Search.not_givesUp_results (target : String) (found : Report) (limit : GivenNumber) :
    ¬ GivesUp (results target found limit) :=
  not_givesUp_of_depth_le (Nat.le_trans (depth_results_le target found limit) (by decide))

/-! ## Formats -/

namespace Format

/-- A section is described by plain values. -/
theorem depth_describe_le {outcome : SectionResult} {described : Json}
    (h : describe outcome = .ok described) : described.depth ≤ 1 := by
  unfold describe at h
  split at h <;> cases h <;> exact Nat.le_refl 1

/-- So are all declared sections. -/
theorem membersDepth_describeAll_le {source : Source} {labels : List String} {sections : Members}
    (h : describeAll source labels = .ok sections) : membersDepth sections ≤ 1 := by
  induction labels generalizing sections with
  | nil =>
    cases h
    exact Nat.zero_le 1
  | cons label rest ih =>
    rw [describeAll] at h
    cases hdescribe : describe (source.sectionAt label) with
    | error error =>
      rw [hdescribe] at h
      cases h
    | ok described =>
      cases hothers : describeAll source rest with
      | error error =>
        rw [hdescribe, hothers] at h
        cases h
      | ok others =>
        rw [hdescribe, hothers] at h
        cases h
        exact Nat.max_le.2 ⟨depth_describe_le hdescribe, ih hothers⟩

/-- What is told of the sections of a file is no deeper than an object of their descriptions. -/
theorem membersDepth_sectionMembers_le {host : Host} {target : String} {data : Bytes}
    {format : Option ImageFormat} {members : Members}
    (h : (sectionMembers host target data format).2 = .ok members) : membersDepth members ≤ 2 := by
  unfold sectionMembers at h
  split at h
  · cases h
    decide
  · split at h
    · split at h
      · cases h
        exact Nat.le_succ 1
      · cases h
    · rename_i source _
      cases hsections : describeAll source Label.declared with
      | error error =>
        rw [hsections] at h
        cases h
      | ok sections =>
        rw [hsections] at h
        cases h
        have hdepth := membersDepth_describeAll_le hsections
        simp only [membersDepth, memberDepth, depth_obj]
        omega

/-- What is told of a file is no deeper than an object with that. -/
theorem depth_detect_le {host : Host} {target : String} {found : Json}
    (h : (detect host target).2 = .ok found) : found.depth ≤ 3 := by
  unfold detect at h
  split at h
  · cases h
  · rename_i data _
    cases hmembers : (sectionMembers host target data
        (ImageFormat.ofMagic? (data.take Magic.size))).2 with
    | error error =>
      dsimp only at h
      rw [hmembers] at h
      cases h
    | ok members =>
      dsimp only at h
      rw [hmembers] at h
      cases h
      have hdepth := membersDepth_sectionMembers_le hmembers
      refine Nat.succ_le_succ (membersDepth_le_iff.2 fun member hmember => ?_)
      rcases List.mem_append.1 hmember with hcommon | hsections
      · simp only [commonMembers, List.mem_cons, List.not_mem_nil, or_false] at hcommon
        rcases hcommon with rfl | rfl | rfl | rfl | rfl
        · exact Nat.zero_le 2
        · exact Nat.zero_le 2
        · exact Nat.zero_le 2
        · exact Nat.zero_le 2
        · exact Nat.le_succ 1
      · exact membersDepth_le_iff.1 hdepth member hsections

/-- So the guard writes and copies it. -/
theorem not_givesUp_of_detect {host : Host} {target : String} {found : Json}
    (h : (detect host target).2 = .ok found) : ¬ GivesUp found :=
  not_givesUp_of_depth_le (Nat.le_trans (depth_detect_le h) (by decide))

end Format

end Server

end BinaryStrings
