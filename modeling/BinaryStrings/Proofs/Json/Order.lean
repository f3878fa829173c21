import BinaryStrings.Proofs.Json.RoundTrip

/-!
# The order of members

Values are alike if they differ in the order of members alone, at any depth.  Writing members in the
order of their names gives a value that is alike and that can be read back whenever the value can.

Main results:

- Theorem `get?_sortedMembers`: sorting changes no value but for the order in it.
- Theorem `IsReadable.alike_sortMembers`: a value with its members in order is alike.
- Theorem `read_chars`: what is read back of a written value is alike.
-/

namespace BinaryStrings.Json

/-! ## Alike values -/

/-- The same values up to the order of members. -/
inductive Alike : Json → Json → Prop
  | refl (value : Json) : Alike value value
  | arr {a b : List Json} (length : a.length = b.length)
    (items : ∀ (i : Nat) (x y : Json), a[i]? = some x → b[i]? = some y → Alike x y) :
    Alike (.arr a) (.arr b)
  | obj {a b : Members} (names : ∀ name, name ∈ a.names ↔ name ∈ b.names)
    (values : ∀ (name : String) (x y : Json), a.get? name = some x → b.get? name = some y →
      Alike x y) :
    Alike (.obj a) (.obj b)

variable {a b c value : Json}

/-- Values that are alike to one value are alike. -/
theorem Alike.trans (hab : Alike a b) (hbc : Alike b c) : Alike a c := by
  induction hab generalizing c with
  | refl => exact hbc
  | @arr a b hlength hitems ih =>
    cases hbc with
    | refl => exact .arr hlength hitems
    | @arr _ c hlength' hitems' =>
      refine .arr (hlength.trans hlength') fun i x z hx hz => ?_
      have hi : i < b.length := by
        have := (List.getElem?_eq_some_iff.1 hx).1
        omega
      have hy : b[i]? = some b[i] := List.getElem?_eq_getElem hi
      exact ih i x b[i] hx hy (hitems' i b[i] z hy hz)
  | @obj a b hnames hvalues ih =>
    cases hbc with
    | refl => exact .obj hnames hvalues
    | @obj _ c hnames' hvalues' =>
      refine .obj (fun name => (hnames name).trans (hnames' name)) fun name x z hx hz => ?_
      have hname : (Members.get? b name).isSome = true := by
        rw [Members.isSome_get?_iff, ← hnames name, ← Members.isSome_get?_iff, hx]
        rfl
      obtain ⟨y, hy⟩ := Option.isSome_iff_exists.1 hname
      exact ih name x y hx hy (hvalues' name y z hy hz)

/-- A text is alike to itself alone. -/
theorem Alike.eq_str {text : String} (h : Alike a (.str text)) : a = .str text := by
  cases h
  rfl

/-! ## Sorting -/

/-- The items of a list are sorted one by one, and stay in their order. -/
theorem sortItems_eq (items : List Json) : sortItems items = items.map sortMembers := by
  induction items with
  | nil => rfl
  | cons item items ih => rw [sortItems, ih, List.map_cons]

/-- So are the values of members. -/
theorem sortEach_eq (members : Members) :
    sortEach members = members.map fun member => (member.1, sortMembers member.2) := by
  induction members with
  | nil => rfl
  | cons member members ih =>
    obtain ⟨name, value⟩ := member
    rw [sortEach, ih, List.map_cons, sortValue]

/-- The members of an object in the order of their names, in order themselves. -/
def sortedMembers (members : Members) : Members :=
  (sortEach members).mergeSort fun a b => a.1 ≤ b.1

/-- Sorting an object moves its members. -/
theorem sortedMembers_perm (members : Members) :
    (sortedMembers members).Perm (members.map fun member => (member.1, sortMembers member.2)) := by
  rw [← sortEach_eq]
  exact List.mergeSort_perm _ _

/-- It moves their names. -/
theorem names_sortedMembers_perm (members : Members) :
    (sortedMembers members).names.Perm members.names := by
  have hnames := (sortedMembers_perm members).map (·.1)
  rwa [List.map_map] at hnames

/-- It gives no name twice. -/
theorem nodup_names_sortedMembers {members : Members} (hnames : members.names.Nodup) :
    (sortedMembers members).names.Nodup :=
  (names_sortedMembers_perm members).nodup_iff.2 hnames

/-- A member of a sorted object is one of the object with its value sorted. -/
theorem mem_sortedMembers {members : Members} {name : String} :
    (name, value) ∈ sortedMembers members ↔
      ∃ old, (name, old) ∈ members ∧ sortMembers old = value := by
  rw [(sortedMembers_perm members).mem_iff]
  simp

/-- Sorting changes no value but for the order in it. -/
theorem get?_sortedMembers {members : Members} (hnames : members.names.Nodup) (name : String) :
    (sortedMembers members).get? name = (members.get? name).map sortMembers := by
  ext value
  rw [Members.get?_eq_some_iff (nodup_names_sortedMembers hnames), mem_sortedMembers,
    Option.map_eq_some_iff]
  simp only [Members.get?_eq_some_iff hnames]

/-- A value with its members in order can be read back if the value can. -/
theorem IsReadable.sortMembers {levels : Nat} (h : IsReadable levels value) :
    IsReadable levels (sortMembers value) := by
  induction h with
  | null => exact .null
  | bool value => exact .bool value
  | int hdigits => exact .int hdigits
  | str text => exact .str text
  | arr _ ih =>
    rw [Json.sortMembers, sortItems_eq]
    refine .arr fun item hitem => ?_
    obtain ⟨old, hold, rfl⟩ := List.mem_map.1 hitem
    exact ih old hold
  | obj hnames _ ih =>
    refine .obj (nodup_names_sortedMembers hnames) fun member hmember => ?_
    obtain ⟨old, hold, heq⟩ := mem_sortedMembers.1 hmember
    rw [← heq]
    exact ih _ hold

/-- A value with its members in order is alike. -/
theorem IsReadable.alike_sortMembers {levels : Nat} (h : IsReadable levels value) :
    Alike (Json.sortMembers value) value := by
  induction h with
  | null => exact .refl _
  | bool value => exact .refl _
  | int hdigits => exact .refl _
  | str text => exact .refl _
  | @arr _ items _ ih =>
    rw [Json.sortMembers, sortItems_eq]
    refine .arr (List.length_map _) fun i x y hx hy => ?_
    rw [List.getElem?_map, hy] at hx
    cases hx
    exact ih y (List.mem_of_getElem? hy)
  | @obj _ members hnames _ ih =>
    refine .obj (fun name => (names_sortedMembers_perm members).mem_iff) fun name x y hx hy => ?_
    change Members.get? (sortedMembers members) name = some x at hx
    rw [get?_sortedMembers hnames, hy] at hx
    cases hx
    exact ih _ ((Members.get?_eq_some_iff hnames).1 hy)

/-! ## Texts -/

/-- What is read back of a value written in any style. -/
theorem read_chars (style : Style) (h : IsReadable deepest value) {blanks : List Char}
    (hblanks : IsBlank blanks) :
    read (chars style value ++ blanks) =
      .ok (if style.sorted then Json.sortMembers value else value) := by
  unfold chars
  split
  · exact read_valueChars style h.sortMembers hblanks
  · exact read_valueChars style h hblanks

end BinaryStrings.Json
