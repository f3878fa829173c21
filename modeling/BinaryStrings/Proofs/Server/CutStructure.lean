import BinaryStrings.Proofs.Server.Truncation

/-!
# What cutting keeps

However many rounds the size guard takes and whichever lists it chooses, it keeps the names of an object,
apart from the remark, and all values that are no lists; every list keeps a first part, which is not empty
unless the list was.  The same holds of a list that is a whole response.  What does not fit even so is
shown as the beginning of the text of a value that is cut in this way.

Main results:

- Theorem `keepsStructure_shrinkRounds`: any number of rounds.
- Theorem `respond_keeps`: what is sent for a value.
-/

namespace BinaryStrings.Server.SizeGuard

open Json

/-- Responses before they are cut: lists, and objects that have each name once and no remark. -/
inductive IsWhole : Json → Prop
  | list (items : List Json) : IsWhole (.arr items)
  | object {members : Members} (distinct : members.names.Nodup)
    (unremarked : remarkName ∉ members.names) : IsWhole (.obj members)

/-- What cutting keeps of a response. -/
inductive KeepsStructure : Json → Json → Prop
  | list (items : List Json) {kept : Nat} (nonempty : items ≠ [] → 0 < kept) :
    KeepsStructure (.arr items) (.arr (items.take kept))
  | object {before after : Members}
    (names : after.names = before.names ∨ after.names = before.names ++ [remarkName])
    (lists : ∀ name items, before.get? name = some (.arr items) →
      ∃ kept, after.get? name = some (.arr (items.take kept)) ∧ (items ≠ [] → 0 < kept))
    (others : ∀ name value, before.get? name = some value → (∀ items, value ≠ .arr items) →
      after.get? name = some value) :
    KeepsStructure (.obj before) (.obj after)

/-- Some list has lost items. -/
inductive LosesItems : Json → Json → Prop
  | list {before after : List Json} (shorter : after.length < before.length) :
    LosesItems (.arr before) (.arr after)
  | object {before after : Members} {name : String} {items kept : List Json}
    (was : before.get? name = some (.arr items)) (left : after.get? name = some (.arr kept))
    (shorter : kept.length < items.length) : LosesItems (.obj before) (.obj after)

variable {advice : Option String} {before after : Members} {value : Json} {size : Nat}

/-! ## Lists -/

/-- The rounds leave a first part of a list. -/
theorem shrinkRounds_arr (advice : Option String) (rounds : Nat) (items : List Json) :
    ∃ kept, shrinkRounds advice rounds (.arr items) = .arr (items.take kept) ∧
      (items ≠ [] → 0 < kept) := by
  induction rounds generalizing items with
  | zero => exact ⟨items.length, by rw [List.take_length, shrinkRounds], List.length_pos_iff.2⟩
  | succ rounds ih =>
    simp only [shrinkRounds, shrink]
    split
    · exact ⟨items.length, by rw [List.take_length], List.length_pos_iff.2⟩
    · obtain ⟨kept, hrest, hpos⟩ := ih (items.take (keptCount (Json.arr items).size items.length))
      refine ⟨_, by rw [hrest, List.take_take], fun hitems => ?_⟩
      have hcount := keptCount_pos (Json.arr items).size items.length
      refine Nat.lt_min.2 ⟨hpos fun hnil => ?_, hcount⟩
      rcases List.take_eq_nil_iff.1 hnil with hzero | hempty
      · omega
      · exact hitems hempty

/-! ## Names -/

/-- The names are those before, or these and the remark. -/
def HasNames (names : List String) (members : Members) : Prop :=
  members.names = names ∨ members.names = names ++ [remarkName]

theorem HasNames.shrink {names : List String} (h : HasNames names before)
    (hremark : remarkName ∉ names)
    (hshrink : shrink advice size (.obj before) = some (.obj after)) : HasNames names after := by
  simp only [SizeGuard.shrink] at hshrink
  split at hshrink
  · cases hshrink
  · rename_i name items hlargest
    split at hshrink
    · cases hshrink
    · cases hshrink
      have hname : name ∈ before.names := by
        rcases mem_of_largestFrom hlargest with hnone | hmem
        · cases hnone
        · exact List.mem_map_of_mem hmem
      have hcut := Members.names_set_of_mem hname (.arr (items.take (keptCount size items.length)))
      rcases h with hsame | hremarked
      · right
        rw [Members.names_set_of_not_mem (by rwa [hcut, hsame]), hcut, hsame]
      · right
        rw [Members.names_set_of_mem (by simp [hcut, hremarked]), hcut, hremarked]

theorem HasNames.shrinkRounds {names : List String} (h : HasNames names before)
    (hplain : IsPlain before) (hremark : remarkName ∉ names) {rounds : Nat}
    (hrounds : shrinkRounds advice rounds (.obj before) = .obj after) : HasNames names after := by
  induction rounds generalizing before with
  | zero =>
    cases hrounds
    exact h
  | succ rounds ih =>
    simp only [SizeGuard.shrinkRounds] at hrounds
    split at hrounds
    · cases hrounds
      exact h
    · split at hrounds
      · cases hrounds
        exact h
      · rename_i smaller hshrink
        obtain ⟨middle, rfl, -, hmiddle⟩ := IsCut.of_shrink hplain hshrink
        exact ih (h.shrink hremark hshrink) hmiddle hrounds

/-! ## Rounds -/

theorem KeepsStructure.refl (h : IsWhole value) : KeepsStructure value value := by
  cases h with
  | list items =>
    have hall : KeepsStructure (.arr items) (.arr (items.take items.length)) :=
      .list items List.length_pos_iff.2
    rwa [List.take_length] at hall
  | object hnames hremark =>
    refine .object (.inl rfl) (fun name items hget => ?_) fun name value hget _ => hget
    exact ⟨items.length, by rw [List.take_length, hget], List.length_pos_iff.2⟩

/-- An object without a remark that is cut keeps its structure and has a shorter list. -/
theorem IsCut.keepsStructure (h : IsCut before after) (hremark : remarkName ∉ before.names)
    (hnames : HasNames before.names after) :
    KeepsStructure (.obj before) (.obj after) ∧ LosesItems (.obj before) (.obj after) := by
  have hne : ∀ {name value}, before.get? name = some value → name ≠ remarkName := by
    rintro name value hget rfl
    exact hremark (Members.isSome_get?_iff.1 (by rw [hget]; rfl))
  constructor
  · refine .object hnames (fun name items hget => h.list name items (hne hget) hget)
      fun name value hget hother => ?_
    rw [h.other name (hne hget) fun items hlist => ?_, hget]
    rw [hget] at hlist
    exact hother items (Option.some.inj hlist)
  · obtain ⟨name, items, kept, -, hkept, hget, hafter⟩ := h.shorter
    refine .object hget hafter ?_
    rw [List.length_take]
    omega

/-- Any number of rounds keeps the structure of a response, and it leaves the response as it is or makes
a list shorter. -/
theorem keepsStructure_shrinkRounds (h : IsWhole value) (advice : Option String) (rounds : Nat) :
    KeepsStructure value (shrinkRounds advice rounds value) ∧
      (shrinkRounds advice rounds value = value ∨
        LosesItems value (shrinkRounds advice rounds value)) := by
  have hwhole := h
  cases h with
  | list items =>
    obtain ⟨kept, hrounds, hpos⟩ := shrinkRounds_arr advice rounds items
    rw [hrounds]
    refine ⟨.list items hpos, ?_⟩
    by_cases hall : items.length ≤ kept
    · exact .inl (by rw [List.take_of_length_le hall])
    · exact .inr (.list (by rw [List.length_take]; omega))
  | @object before hnames hremark =>
    have hplain : IsPlain before := by
      refine ⟨hnames, fun items hget => ?_⟩
      exact hremark (Members.isSome_get?_iff.1 (by rw [hget]; rfl))
    have hcases : shrinkRounds advice rounds (.obj before) = .obj before ∨ _ :=
      shrinkRounds_obj hplain rounds
    rcases hcases with hsame | ⟨after, hrounds, hcut⟩
    · rw [hsame]
      exact ⟨.refl hwhole, .inl rfl⟩
    · have hafter : HasNames before.names after :=
        HasNames.shrinkRounds (.inl rfl) hplain hremark hrounds
      obtain ⟨hkeeps, hloses⟩ := hcut.keepsStructure hremark hafter
      rw [hrounds]
      exact ⟨hkeeps, .inr hloses⟩

/-! ## Responses -/

/-- What is sent for a response keeps its structure, and some list in it is shorter if the response was
too large; or it shows the beginning of the text of a value that keeps the structure of the response. -/
theorem respond_keeps (h : IsWhole value) (tool : String) (advice : Option String) :
    ∃ smaller, KeepsStructure value smaller ∧
      ((respond tool advice value).value = smaller ∧
          (limit < value.size → LosesItems value smaller) ∨
        limit < smaller.size ∧ (smaller = value ∨ LosesItems value smaller) ∧
          ∃ shown remark, shown <+: chars .plain smaller ∧
            (respond tool advice value).value =
              .obj [("data_preview", .str (String.ofList shown)), (remarkName, .str remark)]) := by
  obtain ⟨hkeeps, hshorter⟩ := keepsStructure_shrinkRounds h advice rounds
  by_cases hfits : value.size ≤ limit
  · refine ⟨value, .refl h, .inl ⟨?_, fun hlarge => ?_⟩⟩
    · rw [respond, if_pos hfits]
    · omega
  · refine ⟨shrinkRounds advice rounds value, hkeeps, ?_⟩
    rw [respond, if_neg hfits]
    by_cases hlarge : limit < (shrinkRounds advice rounds value).size
    · have hfitted : fitted advice value = preview (shrinkRounds advice rounds value) := if_pos hlarge
      exact .inr ⟨hlarge, hshorter, _, _, Utf8.takeBytes_prefix _ _, hfitted⟩
    · refine .inl ⟨if_neg hlarge, fun _ => ?_⟩
      rcases hshorter with hsame | hloses
      · rw [hsame] at hlarge
        omega
      · exact hloses

end BinaryStrings.Server.SizeGuard
