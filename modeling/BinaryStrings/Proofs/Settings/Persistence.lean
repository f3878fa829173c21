import BinaryStrings.Proofs.Json.Characters
import BinaryStrings.Proofs.Json.Order
import BinaryStrings.Proofs.Settings.Loading
import BinaryStrings.Proofs.Text.Utf8
import BinaryStrings.Settings.Value
import Mathlib.Logic.Function.Basic

/-!
# Settings as a map that lasts

A settings file keeps a map from names to values.  Each change reads the whole file and writes it anew,
and what is read after any number of changes is the map that the changes make of the first one.

The values are the same up to the order of members in them, since a file is written in the order of the
names.

Main results:

- Theorem `holds_save`: what is saved can be read again.
- Theorem `Keeps.perform`: one change of the file is one change of the map.
- Theorem `load_performAll`: so are any number of changes.
-/

namespace BinaryStrings.Settings

open Json (Alike IsReadable isReadable_obj_iff deepest sortedMembers)

/-! ## Changes -/

/-- A change of a settings file. -/
inductive Change where
  | set (key text : String)
  | delete (key : String)
  | save (members : Json.Members)

/-- Makes a change; taking a setting out answers whether it was there. -/
def perform (store : Store) : Change → Store × Except Error (Option Bool)
  | .set key text =>
    let outcome := set store key (.str text)
    (outcome.store, outcome.result.map fun _ => none)
  | .delete key =>
    let outcome := delete store key
    (outcome.store, outcome.result.map some)
  | .save members =>
    let outcome := save store (.obj members)
    (outcome.store, outcome.result.map fun _ => none)

/-- Makes changes in turn, with the answer of each. -/
def performAll (store : Store) : List Change → Store × List (Except Error (Option Bool))
  | [] => (store, [])
  | change :: rest =>
    let (changed, answer) := perform store change
    let (final, answers) := performAll changed rest
    (final, answer :: answers)

namespace Change

/-- What a change makes of a map. -/
def apply (map : String → Option Json) : Change → String → Option Json
  | .set key text => Function.update map key (some (.str text))
  | .delete key => Function.update map key none
  | .save members => members.get?

/-- What a change of a map answers. -/
def answer (map : String → Option Json) : Change → Option Bool
  | .delete key => some (map key).isSome
  | _ => none

/-- What changes in turn make of a map. -/
def applyAll (map : String → Option Json) (changes : List Change) : String → Option Json :=
  changes.foldl apply map

/-- What changes of a map in turn answer. -/
def answers (map : String → Option Json) : List Change → List (Option Bool)
  | [] => []
  | change :: rest => change.answer map :: answers (change.apply map) rest

/-- An object that is saved has to be one that can be read. -/
def IsAllowed : Change → Prop
  | .save members => IsReadable deepest (.obj members)
  | _ => True

end Change

/-! ## Files -/

variable {store : Store} {members : Json.Members}

/-- A text without carriage returns has plain line ends. -/
theorem unixLines_of_not_mem {text : List Char} (htext : '\r' ∉ text) : unixLines text = text := by
  induction text with
  | nil => rfl
  | cons c text ih =>
    rw [List.mem_cons, not_or] at htext
    unfold unixLines
    split
    · rename_i heq
      exact absurd (List.cons.inj heq).1.symm htext.1
    · rename_i heq
      exact absurd (List.cons.inj heq).1.symm htext.1
    · rename_i heq
      obtain ⟨rfl, rfl⟩ := List.cons.inj heq
      rw [ih htext.2]
    · contradiction

/-- A settings file is written in printable ASCII and line feeds. -/
theorem isFrame_of_mem_fileText {value : Json} (hvalue : IsReadable deepest value) {c : Char}
    (hc : c ∈ fileText value) : Json.IsFrame c := by
  have hupTo : Json.IsUpToTexts Json.IsFrame style (Json.sortMembers value) :=
    hvalue.sortMembers.isUpToTexts fun _ hframe => hframe
  exact (hupTo 0).2 (fun _ _ _ hmem => Json.isFrame_of_mem_stringChars hmem) c hc

/-- The text of a file of settings is read as its settings, sorted by their names. -/
theorem read_fileText (hmembers : IsReadable deepest (.obj members)) :
    Json.read (unixLines (fileText (.obj members))) = .ok (.obj (sortedMembers members)) := by
  have hplain : '\r' ∉ fileText (.obj members) := fun hmem =>
    absurd (isFrame_of_mem_fileText hmembers hmem) (by decide)
  have hblanks : Json.IsBlank [] := by simp [Json.IsBlank]
  have hread := Json.read_chars style hmembers hblanks
  rw [List.append_nil] at hread
  rw [unixLines_of_not_mem hplain]
  exact hread

/-- What is saved can be read again, in the order of the names. -/
theorem holds_save {old : Json.Members} (h : Holds store old)
    (hmembers : IsReadable deepest (.obj members)) :
    (save store (.obj members)).result = .ok () ∧
      Holds (save store (.obj members)).store (sortedMembers members) := by
  have hdecoded := Utf8.decode_encode (fileText (.obj members))
  cases h with
  | missing path => exact ⟨rfl, .file hdecoded (read_fileText hmembers)⟩
  | file => exact ⟨rfl, .file hdecoded (read_fileText hmembers)⟩

/-! ## Maps -/

/-- Members that are the values of a map. -/
def IsMap (members : Json.Members) (map : String → Option Json) : Prop :=
  ∀ key, Option.Rel Alike (members.get? key) (map key)

variable {map : String → Option Json}

/-- A setting is there exactly if it has a value. -/
theorem IsMap.isSome_eq (h : IsMap members map) (key : String) :
    (members.get? key).isSome = (map key).isSome := by
  have hkey := h key
  generalize members.get? key = found, map key = meant at hkey ⊢
  cases hkey <;> rfl

/-- A setting without a value is not there. -/
theorem IsMap.get?_eq_none (h : IsMap members map) {key : String} (hkey : map key = none) :
    members.get? key = none := by
  have hsome := h.isSome_eq key
  rw [hkey] at hsome
  simpa using hsome

/-- A setting that is a text is there with this text. -/
theorem IsMap.get?_eq_str (h : IsMap members map) {key text : String}
    (hkey : map key = some (.str text)) : members.get? key = some (.str text) := by
  have hfound := h key
  rw [hkey] at hfound
  generalize members.get? key = found at hfound ⊢
  cases hfound with
  | some halike => rw [halike.eq_str]

theorem isMap_get? : IsMap members members.get? := by
  intro key
  cases members.get? key with
  | none => exact .none
  | some value => exact .some (.refl value)

/-- Sorting settings by their names changes none. -/
theorem IsMap.sortedMembers (h : IsMap members map) (hmembers : IsReadable deepest (.obj members)) :
    IsMap (sortedMembers members) map := by
  obtain ⟨-, hnames, hvalues⟩ := isReadable_obj_iff.1 hmembers
  intro key
  rw [Json.get?_sortedMembers hnames]
  have hkey := h key
  cases hget : members.get? key with
  | none =>
    rw [hget] at hkey
    exact hkey
  | some value =>
    have hvalue := hvalues _ ((Json.Members.get?_eq_some_iff hnames).1 hget)
    rw [hget] at hkey
    generalize map key = meant at hkey ⊢
    cases hkey with
    | some halike => exact .some (hvalue.alike_sortMembers.trans halike)

/-- A setting that is set is changed alone. -/
theorem IsMap.set (h : IsMap members map) (key : String) (value : Json) :
    IsMap (members.set key value) (Function.update map key (some value)) := by
  intro other
  rw [Json.Members.get?_set, Function.update_apply]
  split
  · exact .some (.refl value)
  · exact h other

/-- A setting that is erased is missing alone. -/
theorem IsMap.erase (h : IsMap members map) (key : String) :
    IsMap (members.erase key) (Function.update map key none) := by
  intro other
  rw [Json.Members.get?_erase, Function.update_apply]
  split
  · exact .none
  · exact h other

/-- A file keeps a map if it holds its values. -/
structure Keeps (store : Store) (map : String → Option Json) (members : Json.Members) : Prop where
  holds : Holds store members
  readable : IsReadable deepest (.obj members)
  isMap : IsMap members map

/-- Settings stay readable when one is set to a text. -/
theorem isReadable_set (hmembers : IsReadable deepest (.obj members)) (key text : String) :
    IsReadable deepest (.obj (members.set key (.str text))) := by
  rw [isReadable_obj_iff] at hmembers ⊢
  obtain ⟨hpos, hnames, hvalues⟩ := hmembers
  refine ⟨hpos, Json.Members.nodup_names_set hnames key _, fun member hmember => ?_⟩
  rcases Json.Members.mem_or_eq_of_mem_set hmember with hold | rfl
  · exact hvalues member hold
  · exact .str text

/-- Settings stay readable when one is erased. -/
theorem isReadable_erase (hmembers : IsReadable deepest (.obj members)) (key : String) :
    IsReadable deepest (.obj (members.erase key)) := by
  rw [isReadable_obj_iff] at hmembers ⊢
  obtain ⟨hpos, hnames, hvalues⟩ := hmembers
  exact ⟨hpos, Json.Members.nodup_names_erase hnames key, fun member hmember =>
    hvalues member (List.mem_filter.1 hmember).1⟩

/-- What is saved is kept. -/
theorem keeps_save {old : Json.Members} (h : Holds store old)
    (hmembers : IsReadable deepest (.obj members)) (hmap : IsMap members map) :
    Keeps (save store (.obj members)).store map (sortedMembers members) :=
  ⟨(holds_save h hmembers).2, hmembers.sortMembers, hmap.sortedMembers hmembers⟩

/-! ## Runs -/

/-- One change of the file is one change of the map. -/
theorem Keeps.perform (h : Keeps store map members) {change : Change} (hchange : change.IsAllowed) :
    (perform store change).2 = .ok (change.answer map) ∧
      ∃ members', Keeps (perform store change).1 (change.apply map) members' := by
  have hload := h.holds.load_eq
  cases change with
  | set key text =>
    have hreadable := isReadable_set h.readable key text
    have hresult := (holds_save h.holds hreadable).1
    have hkeeps := keeps_save h.holds hreadable (h.isMap.set key (.str text))
    simp only [Settings.perform, Settings.set, hload, hresult]
    exact ⟨rfl, _, hkeeps⟩
  | delete key =>
    have hsome := h.isMap.isSome_eq key
    have hreadable := isReadable_erase h.readable key
    have hresult := (holds_save h.holds hreadable).1
    have hkeeps := keeps_save h.holds hreadable (h.isMap.erase key)
    simp only [Settings.perform, Settings.delete, hload, hresult]
    split
    · rename_i hpresent
      refine ⟨?_, _, hkeeps⟩
      rw [Change.answer, ← hsome, hpresent]
      rfl
    · rename_i habsent
      have hnone : map key = none := by
        rw [hsome] at habsent
        simpa using habsent
      refine ⟨?_, members, ?_⟩
      · rw [Change.answer, hnone]
        rfl
      · rw [Change.apply, ← hnone, Function.update_eq_self]
        exact h
  | save saved =>
    have hresult := (holds_save h.holds hchange).1
    simp only [Settings.perform, hresult]
    exact ⟨rfl, _, keeps_save h.holds hchange isMap_get?⟩

/-- A store that keeps a map keeps it through changes, each made to the map as well, and answers as the
map does. -/
theorem Keeps.performAll (h : Keeps store map members) {changes : List Change}
    (hchanges : ∀ change ∈ changes, change.IsAllowed) :
    (performAll store changes).2 = (Change.answers map changes).map .ok ∧
      ∃ members', Keeps (performAll store changes).1 (Change.applyAll map changes) members' := by
  induction changes generalizing store map members with
  | nil => exact ⟨rfl, members, h⟩
  | cons change rest ih =>
    rw [List.forall_mem_cons] at hchanges
    obtain ⟨hanswer, members', hkeeps⟩ := h.perform hchanges.1
    obtain ⟨hanswers, final⟩ := ih hkeeps hchanges.2
    refine ⟨?_, final⟩
    simp only [Settings.performAll, Change.answers, List.map_cons, hanswer, hanswers]

/-- Where the environment says nothing, the value of a setting is what the store keeps. -/
theorem Keeps.value_eq (h : Keeps store map members) {environment : Environment} {key : String}
    (hkey : override? environment key = none) :
    (∀ text, map key = some (.str text) → value environment store key = ([], .ok (some text))) ∧
      (map key = none → value environment store key = ([], .ok none)) := by
  simp only [value, hkey, h.holds.load_eq, asText?]
  constructor
  · intro text htext
    rw [h.isMap.get?_eq_str htext]
    rfl
  · intro hnone
    rw [h.isMap.get?_eq_none hnone]

/-- Changes of a settings file in any number and order answer and leave behind what they answer and
leave behind as changes of a map: what is loaded afterwards are the values of the map, and without an
override in the environment a text in it is the value of its name. -/
theorem load_performAll (hholds : Holds store members)
    (hreadable : IsReadable deepest (.obj members)) {changes : List Change}
    (hchanges : ∀ change ∈ changes, change.IsAllowed) :
    (performAll store changes).2 = (Change.answers members.get? changes).map .ok ∧
      ∃ saved : Json.Members, load (performAll store changes).1 = ([], .ok saved) ∧
        saved.names.Nodup ∧ IsMap saved (Change.applyAll members.get? changes) ∧
        ∀ environment key, override? environment key = none →
          (∀ text, Change.applyAll members.get? changes key = some (.str text) →
            value environment (performAll store changes).1 key = ([], .ok (some text))) ∧
          (Change.applyAll members.get? changes key = none →
            value environment (performAll store changes).1 key = ([], .ok none)) := by
  obtain ⟨hanswers, saved, hkeeps⟩ := Keeps.performAll ⟨hholds, hreadable, isMap_get?⟩ hchanges
  exact ⟨hanswers, saved, hkeeps.holds.load_eq, (isReadable_obj_iff.1 hkeeps.readable).2.1,
    hkeeps.isMap, fun environment key hkey => hkeeps.value_eq hkey⟩

/-- Three changes of a file that holds `x` as `{"x": [1]}`. -/
theorem load_performAll_three_changes :
    let text := "\x7b\"x\": [1]\x7d".toList
    let store : Store := ⟨"config.json", .file (Utf8.encode text) usualMode⟩
    let changes := [Change.save [("b", .bool true), ("a", .arr [.null])], .set "workers" "4",
      .delete "b"]
    ∃ saved : Json.Members, load (performAll store changes).1 = ([], .ok saved) ∧
      saved.get? "workers" = some (.str "4") ∧ saved.get? "b" = none := by
  intro text store changes
  have hread : Json.read (unixLines text) = .ok (.obj [("x", .arr [.int 1])]) := by decide +kernel
  have hholds : Holds store [("x", .arr [.int 1])] := .file (Utf8.decode_encode text) hread
  have hone : ∀ item ∈ [Json.int 1], IsReadable 978 item := by
    simpa using IsReadable.int (by decide +kernel)
  have hnull : ∀ item ∈ [Json.null], IsReadable 978 item := by
    simpa using IsReadable.null
  have hreadable : IsReadable deepest (.obj [("x", .arr [.int 1])]) := by
    simp [isReadable_obj_iff, deepest, Json.Members.names, IsReadable.arr hone]
  have hsaved : IsReadable deepest (.obj [("b", .bool true), ("a", .arr [.null])]) := by
    simp [isReadable_obj_iff, deepest, Json.Members.names, IsReadable.arr hnull, IsReadable.bool]
  have hchanges : ∀ change ∈ changes, change.IsAllowed := by
    simpa [changes, Change.IsAllowed] using hsaved
  obtain ⟨-, saved, hload, -, hmap, -⟩ := load_performAll hholds hreadable hchanges
  refine ⟨saved, hload, hmap.get?_eq_str ?_, hmap.get?_eq_none ?_⟩
  · simp [changes, Change.applyAll, Change.apply]
  · simp [changes, Change.applyAll, Change.apply]

end BinaryStrings.Settings
