import BinaryStrings.Json.Basic

/-!
# Members of objects

Objects whose names are distinct are finite maps: `get?` finds the value of a name, `set` changes it for
one name and `erase` takes one name out.

Main results:

- Theorem `get?_set`: what is found after setting a member.
- Theorem `get?_erase`: what is found after taking a member out.
- Theorem `get?_eq_some_iff`: what is found are the members.
-/

namespace BinaryStrings.Json.Members

/-- The first member of a name is found. -/
theorem get?_cons (known : String) (old : Json) (rest : Members) (name : String) :
    get? ((known, old) :: rest) name = if known = name then some old else get? rest name := by
  unfold get?
  rw [List.lookup_cons]
  by_cases hname : known = name
  · rw [hname, beq_self_eq_true, if_pos rfl]
  · rw [beq_false_of_ne (Ne.symm hname), if_neg hname]

/-- A member that is set is found by its name, the others as before. -/
theorem get?_set (members : Members) (name other : String) (value : Json) :
    get? (set members name value) other = if other = name then some value else get? members other := by
  induction members with
  | nil =>
    unfold set
    rw [get?_cons]
    by_cases hother : other = name
    · simp [hother]
    · simp [hother, Ne.symm hother]
  | cons member rest ih =>
    obtain ⟨known, old⟩ := member
    unfold set
    by_cases hknown : known = name
    · rw [if_pos hknown, get?_cons, get?_cons, hknown]
      by_cases hother : other = name
      · simp [hother]
      · simp [hother, Ne.symm hother]
    · rw [if_neg hknown, get?_cons, get?_cons, ih]
      by_cases hother : other = name
      · rw [hother, if_neg hknown, if_pos rfl, if_pos rfl]
      · simp [hother]

/-- Setting a member adds no name but its own. -/
theorem mem_names_set {members : Members} {name other : String} {value : Json} :
    other ∈ (set members name value).names ↔ other ∈ members.names ∨ other = name := by
  induction members with
  | nil => simp [set, names]
  | cons member rest ih =>
    obtain ⟨known, old⟩ := member
    unfold names at ih ⊢
    unfold set
    split
    · rename_i hknown
      simp only [List.map_cons, List.mem_cons, hknown]
      grind
    · simp only [List.map_cons, List.mem_cons, ih]
      grind

/-- Setting a member adds no member but that one. -/
theorem mem_or_eq_of_mem_set {members : Members} {name : String} {value : Json}
    {member : String × Json} (hmember : member ∈ set members name value) :
    member ∈ members ∨ member = (name, value) := by
  induction members with
  | nil => exact .inr (List.mem_singleton.1 hmember)
  | cons first rest ih =>
    obtain ⟨known, old⟩ := first
    unfold set at hmember
    split at hmember
    · rename_i hknown
      rcases List.mem_cons.1 hmember with rfl | hlater
      · exact .inr (by rw [hknown])
      · exact .inl (List.mem_cons_of_mem _ hlater)
    · rcases List.mem_cons.1 hmember with rfl | hlater
      · exact .inl List.mem_cons_self
      · exact (ih hlater).imp_left (List.mem_cons_of_mem _)

/-- Setting a member gives no name twice. -/
theorem nodup_names_set {members : Members} (hnames : members.names.Nodup) (name : String)
    (value : Json) : (set members name value).names.Nodup := by
  induction members with
  | nil => simp [set, names]
  | cons member rest ih =>
    obtain ⟨known, old⟩ := member
    obtain ⟨hknown, hrest⟩ := List.nodup_cons.1 (show (known :: Members.names rest).Nodup from hnames)
    unfold set
    split
    · exact hnames
    · rename_i hne
      have hnew : known ∉ (set rest name value).names := by
        rw [mem_names_set]
        exact not_or.2 ⟨hknown, hne⟩
      exact List.nodup_cons.2 ⟨hnew, ih hrest⟩

/-- A member is found by its name where no name is given twice. -/
theorem get?_eq_some_of_mem {members : Members} (hnames : members.names.Nodup) {name : String}
    {value : Json} (hmem : (name, value) ∈ members) : members.get? name = some value := by
  induction members with
  | nil => cases hmem
  | cons member rest ih =>
    obtain ⟨known, old⟩ := member
    obtain ⟨hknown, hrest⟩ := List.nodup_cons.1 (show (known :: Members.names rest).Nodup from hnames)
    rw [get?_cons]
    rcases List.mem_cons.1 hmem with hfirst | hlater
    · cases hfirst
      rw [if_pos rfl]
    · have hne : known ≠ name := by
        rintro rfl
        exact hknown (List.mem_map_of_mem hlater)
      rw [if_neg hne]
      exact ih hrest hlater

/-- What is found by a name is the member of this name. -/
theorem get?_eq_some_iff {members : Members} (hnames : members.names.Nodup) {name : String}
    {value : Json} : members.get? name = some value ↔ (name, value) ∈ members := by
  refine ⟨fun hget => ?_, get?_eq_some_of_mem hnames⟩
  obtain ⟨before, after, rfl, -⟩ := List.lookup_eq_some_iff.1 hget
  simp

/-- Something is found for the names that are given. -/
theorem isSome_get?_iff {members : Members} {name : String} :
    (members.get? name).isSome = true ↔ name ∈ members.names := by
  induction members with
  | nil => simp [get?, names]
  | cons member rest ih =>
    obtain ⟨known, old⟩ := member
    rw [get?_cons]
    by_cases hknown : known = name
    · simp [hknown, names]
    · simp [hknown, Ne.symm hknown, names, ih]

/-- An erased member is not found, the others are as before. -/
theorem get?_erase (members : Members) (name other : String) :
    get? (erase members name) other = if other = name then none else get? members other := by
  induction members with
  | nil => simp [erase, get?]
  | cons member rest ih =>
    obtain ⟨known, old⟩ := member
    by_cases hknown : known = name
    · by_cases hother : other = name
      · simp_all [erase]
      · simp_all [erase, get?_cons, Ne.symm hother]
    · by_cases hother : other = name
      · simp_all [erase, get?_cons]
      · simp_all [erase, get?_cons]

/-- Erasing a member gives no name twice. -/
theorem nodup_names_erase {members : Members} (hnames : members.names.Nodup) (name : String) :
    (erase members name).names.Nodup :=
  hnames.sublist (List.filter_sublist.map _)

/-- A member of a new name is set behind the others. -/
theorem set_of_not_mem {members : Members} {name : String} (hname : name ∉ members.names)
    (value : Json) : set members name value = members ++ [(name, value)] := by
  induction members with
  | nil => rfl
  | cons member members ih =>
    obtain ⟨known, old⟩ := member
    have hne : known ≠ name ∧ name ∉ names members := by
      simpa [names, eq_comm] using hname
    simp [set, hne.1, ih hne.2]

/-- A new member comes last. -/
theorem names_set_of_not_mem {members : Members} {name : String} (hname : name ∉ members.names)
    (value : Json) : (set members name value).names = members.names ++ [name] := by
  rw [set_of_not_mem hname, names, List.map_append]
  rfl

/-- A member that was there keeps its place. -/
theorem names_set_of_mem {members : Members} {name : String} (hname : name ∈ members.names)
    (value : Json) : (set members name value).names = members.names := by
  induction members with
  | nil => cases hname
  | cons member members ih =>
    obtain ⟨known, old⟩ := member
    unfold set
    split
    · rfl
    · rename_i hne
      have hlater : name ∈ names members := by
        rcases List.mem_cons.1 hname with heq | hlater
        · exact absurd heq.symm hne
        · exact hlater
      exact congrArg (known :: ·) (ih hlater)

/-- A member behind others has another name than they. -/
theorem not_mem_of_nodup {read members : Members} {member : String × Json}
    (hnames : (read ++ member :: members).names.Nodup) : member.1 ∉ read.names := by
  simp only [names, List.map_append, List.map_cons] at hnames
  intro hmem
  exact (List.nodup_append.1 hnames).2.2 _ hmem _ List.mem_cons_self rfl

end BinaryStrings.Json.Members
