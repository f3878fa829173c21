import BinaryStrings.Settings.Store

/-!
# What a settings file holds

Loading has three outcomes: the members of the object that the file holds, without a word; no members
and one warning, if it holds no object; and an error, which is left to bytes that are no UTF-8, to nesting
beyond the limit of the reader and to overlong numbers.

Main results:

- Theorem `load_cases`: the three outcomes.
- Theorem `load_eq_error_iff`: the contents that are left to an error.
-/

namespace BinaryStrings.Settings

/-- The members that a settings file holds; a missing one holds none. -/
inductive Holds : Store → Json.Members → Prop
  | missing (path : String) : Holds ⟨path, .missing⟩ []
  | file {path : String} {data : Bytes} {mode : Nat} {text : List Char} {members : Json.Members}
    (decoded : Utf8.decode data = .ok text)
    (read : Json.read (unixLines text) = .ok (.obj members)) : Holds ⟨path, .file data mode⟩ members

/-- What keeps contents from being taken for anything. -/
inductive Obstructs : Contents → Error → Prop
  | notText {data : Bytes} {mode : Nat} {fault : Utf8.Fault} (fails : Utf8.decode data = .error fault) :
    Obstructs (.file data mode) (.notText fault)
  | tooDeep {data : Bytes} {mode : Nat} {text : List Char} {container : String}
    (decoded : Utf8.decode data = .ok text)
    (fails : Json.read (unixLines text) = .error (.tooDeep container)) :
    Obstructs (.file data mode) (.notRead (.tooDeep container))
  | tooManyDigits {data : Bytes} {mode : Nat} {text : List Char} {digits : Nat}
    (decoded : Utf8.decode data = .ok text)
    (fails : Json.read (unixLines text) = .error (.tooManyDigits digits)) :
    Obstructs (.file data mode) (.notRead (.tooManyDigits digits))

/-- The three outcomes of loading. -/
inductive Loading : Store → List Log.Line × Except Error Json.Members → Prop
  | members {store : Store} {members : Json.Members} (holds : Holds store members) :
    Loading store ([], .ok members)
  | warned {store : Store} (none : ∀ members, ¬ Holds store members) (warning : String) :
    Loading store ([Log.warning warning], .ok [])
  | failed {store : Store} {error : Error} (obstructs : Obstructs store.contents error) :
    Loading store ([], .error error)

variable {store : Store} {members : Json.Members} {error : Error}

theorem Holds.load_eq (h : Holds store members) : load store = ([], .ok members) := by
  cases h with
  | missing path => rfl
  | file hdecoded hread => simp only [load, ofText, hdecoded, hread]

theorem Obstructs.load_eq (h : Obstructs store.contents error) : load store = ([], .error error) := by
  unfold load
  generalize store.contents = contents at h
  cases h with
  | notText hfails => simp only [hfails]
  | tooDeep hdecoded hfails => simp only [hdecoded, ofText, hfails]
  | tooManyDigits hdecoded hfails => simp only [hdecoded, ofText, hfails]

/-- A file holds at most what is read in it. -/
theorem Holds.read_eq {path : String} {data : Bytes} {mode : Nat} {text : List Char}
    (h : Holds ⟨path, .file data mode⟩ members) (hdecoded : Utf8.decode data = .ok text) :
    Json.read (unixLines text) = .ok (.obj members) := by
  cases h with
  | file hother hread =>
    rw [hdecoded] at hother
    cases hother
    exact hread

/-- Loading takes every content for one of three things. -/
theorem load_cases (store : Store) : Loading store (load store) := by
  obtain ⟨path, contents⟩ := store
  cases contents with
  | missing => exact .members (.missing path)
  | directory => exact .warned (fun members h => by cases h) _
  | closed => exact .warned (fun members h => by cases h) _
  | file data mode =>
    cases hdecoded : Utf8.decode data with
    | error fault =>
      have hobstructs : Obstructs (.file data mode) (.notText fault) := .notText hdecoded
      rw [Obstructs.load_eq hobstructs]
      exact .failed hobstructs
    | ok text =>
      have hload : load ⟨path, .file data mode⟩ = ofText path text := by simp only [load, hdecoded]
      have hnone : (∀ members, Json.read (unixLines text) ≠ .ok (.obj members)) →
          ∀ members, ¬ Holds ⟨path, .file data mode⟩ members := fun hother members h =>
        hother members (h.read_eq hdecoded)
      rw [hload, ofText]
      split
      · rename_i hread
        exact .members (.file hdecoded hread)
      · rename_i hother hread
        exact .warned (hnone fun members heq => hother members (Except.ok.inj (hread.symm.trans heq))) _
      · rename_i hread
        exact .warned (hnone fun members heq => by cases hread.symm.trans heq) _
      · rename_i hread
        exact .failed (.tooDeep hdecoded hread)
      · rename_i hread
        exact .failed (.tooManyDigits hdecoded hread)

/-- Only what obstructs makes loading fail. -/
theorem load_eq_error_iff : (load store).2 = .error error ↔ Obstructs store.contents error := by
  constructor
  · intro h
    have hcases := load_cases store
    generalize load store = outcome at h hcases
    cases hcases with
    | members hholds => cases h
    | warned hnone warning => cases h
    | failed hobstructs =>
      cases h
      exact hobstructs
  · intro h
    rw [h.load_eq]

end BinaryStrings.Settings
