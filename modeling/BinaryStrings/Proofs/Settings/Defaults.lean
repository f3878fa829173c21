import BinaryStrings.Extraction.Pool
import BinaryStrings.Proofs.Settings.Loading
import BinaryStrings.Startup

/-!
# Defaults out of any settings

Whatever a settings file holds and whatever the environment says, a setting is a positive number, with
two exceptions: the file is needed and loading it fails, or a warning about the text of the setting would
have to name a number with too many digits.

Main results:

- Theorem `positive_cases`: a positive number, or one of the exceptions.
- Theorem `start_cases`: starting gives positive defaults, or one of them is such an exception.
- Theorem `load_positive_start`: both, and what the defaults are good for.
-/

namespace BinaryStrings.Settings

variable {environment : Environment} {store : Store} {key text : String} {absent : Int}

/-! ## Numbers -/

/-- The warning about a text would have to name a number with too many digits. -/
def WarnsOverlong (absent : Int) (text : String) : Prop :=
  match Numeral.read .marked text with
  | .error _ => Numeral.isShowable absent = false
  | .ok number =>
    number < 1 ∧ (Numeral.isShowable number = false ∨ Numeral.isShowable absent = false)

/-- A setting cannot be had as a number. -/
inductive IsBarred (environment : Environment) (store : Store) (key : String) (absent : Int) : Prop
  | loading {error : Error} (noOverride : override? environment key = none)
    (obstructs : Obstructs store.contents error)
  | warning {lines : List Log.Line} {text : String}
    (value_eq : value environment store key = (lines, .ok (some text)))
    (overlong : WarnsOverlong absent text)

theorem positiveOr_cases (habsent : 1 ≤ absent) (key text : String) :
    (∃ lines number, positiveOr key absent text = .ok (lines, number) ∧ 1 ≤ number) ∧
        ¬ WarnsOverlong absent text ∨
      positiveOr key absent text = .error (.notRead .notShowable) ∧ WarnsOverlong absent text := by
  have hshort : ∀ {named : List Int}, named.all Numeral.isShowable = true → ∀ warning,
      instead absent named warning = .ok ([Log.warning warning], absent) := fun h _ => if_pos h
  have hlong : ∀ {named : List Int}, named.all Numeral.isShowable = false → ∀ warning,
      instead absent named warning = .error (.notRead .notShowable) := fun h _ => if_neg (by simp [h])
  unfold positiveOr WarnsOverlong
  cases Numeral.read .marked text with
  | error error =>
    cases hshown : Numeral.isShowable absent with
    | true => exact .inl ⟨⟨_, absent, hshort (by simp [hshown]) _, habsent⟩, by simp⟩
    | false => exact .inr ⟨hlong (by simp [hshown]) _, rfl⟩
  | ok number =>
    by_cases hsmall : number < 1
    · simp only [if_pos hsmall]
      cases hboth : Numeral.isShowable number && Numeral.isShowable absent with
      | true =>
        refine .inl ⟨⟨_, absent, hshort (by simpa using hboth) _, habsent⟩, ?_⟩
        simp_all
      | false => exact .inr ⟨hlong (by simpa using hboth) _, hsmall, Bool.and_eq_false_iff.1 hboth⟩
    · simp only [if_neg hsmall]
      exact .inl ⟨⟨[], number, rfl, by omega⟩, fun h => hsmall h.1⟩

/-! ## Settings as numbers -/

theorem value_cases (environment : Environment) (store : Store) (key : String) :
    (∃ lines text?, value environment store key = (lines, .ok text?)) ∨
      ∃ error, value environment store key = ([], .error error) ∧
        override? environment key = none ∧ Obstructs store.contents error := by
  unfold value
  cases override? environment key with
  | some text => exact .inl ⟨[], some text, rfl⟩
  | none =>
    have hcases := load_cases store
    generalize load store = outcome at hcases
    cases hcases with
    | members hholds => exact .inl ⟨_, _, rfl⟩
    | warned hnone warning => exact .inl ⟨_, _, rfl⟩
    | failed hobstructs => exact .inr ⟨_, rfl, rfl, hobstructs⟩

/-- An obstructed file that is needed gives no value. -/
theorem Obstructs.value_eq {error : Error} (h : Obstructs store.contents error)
    (hkey : override? environment key = none) :
    value environment store key = ([], .error error) := by
  simp only [value, hkey, h.load_eq]

/-- A setting that has a value is barred only by the warning about it. -/
theorem isBarred_iff_of_value {lines : List Log.Line} {text? : Option String}
    (hvalue : value environment store key = (lines, .ok text?)) :
    IsBarred environment store key absent ↔ ∃ text, text? = some text ∧ WarnsOverlong absent text := by
  constructor
  · intro h
    cases h with
    | loading hkey hobstructs =>
      rw [hobstructs.value_eq hkey] at hvalue
      cases hvalue
    | warning hother hoverlong =>
      rw [hvalue] at hother
      cases hother
      exact ⟨_, rfl, hoverlong⟩
  · rintro ⟨text, rfl, hoverlong⟩
    exact .warning hvalue hoverlong

/-- A setting is a positive number, or it is barred and an error. -/
theorem positive_cases (habsent : 1 ≤ absent) (environment : Environment) (store : Store)
    (key : String) :
    (∃ lines number, positive environment store key absent = (lines, .ok number) ∧ 1 ≤ number) ∧
        ¬ IsBarred environment store key absent ∨
      (∃ lines error, positive environment store key absent = (lines, .error error)) ∧
        IsBarred environment store key absent := by
  rcases value_cases environment store key with ⟨lines, text?, hvalue⟩ |
    ⟨error, hvalue, hkey, hobstructs⟩
  · rw [isBarred_iff_of_value hvalue, positive, hvalue]
    cases text? with
    | none => exact .inl ⟨⟨lines, absent, rfl, habsent⟩, by simp⟩
    | some text =>
      rcases positiveOr_cases habsent key text with ⟨⟨more, number, hread, hnumber⟩, hfree⟩ |
        ⟨hread, hoverlong⟩
      · exact .inl ⟨⟨lines ++ more, number, by simp only [hread], hnumber⟩, by simpa using hfree⟩
      · exact .inr ⟨⟨lines, .notRead .notShowable, by simp only [hread]⟩, text, rfl, hoverlong⟩
  · refine .inr ⟨⟨[], error, ?_⟩, .loading hkey hobstructs⟩
    rw [positive, hvalue]

/-! ## Starting -/

/-- The setting of one of the defaults cannot be had. -/
def IsStartBarred (environment : Environment) (store : Store) : Prop :=
  IsBarred environment store minLengthKey Startup.Defaults.usual.minLength ∨
    IsBarred environment store workersKey Startup.Defaults.usual.workers

/-- The program starts with positive defaults, or one of them cannot be had and it does not start. -/
theorem start_cases {found : Startup.Surroundings} (hfound : found.peReader = true)
    (environment : Environment) (store : Store) :
    (∃ lines values, Startup.start found environment store = (lines, .ok values) ∧
        1 ≤ values.minLength ∧ 1 ≤ values.workers) ∧ ¬ IsStartBarred environment store ∨
      (∃ lines error, Startup.start found environment store = (lines, .error (.settings error))) ∧
        IsStartBarred environment store := by
  rw [Startup.start, if_neg (by simp [hfound]), Startup.defaults]
  rcases positive_cases (show 1 ≤ Startup.Defaults.usual.minLength by decide) environment store
    minLengthKey with ⟨⟨lines, minLength, hlength, hlong⟩, hfree⟩ | ⟨⟨lines, error, hlength⟩, hbarred⟩
  · rcases positive_cases (show 1 ≤ Startup.Defaults.usual.workers by decide) environment store
      workersKey with ⟨⟨more, workers, hworkers, hmany⟩, hfree'⟩ | ⟨⟨more, error, hworkers⟩, hbarred⟩
    · refine .inl ⟨⟨lines ++ more ++ Startup.libraryLines found, ⟨minLength, workers⟩, ?_, hlong,
        hmany⟩, not_or.2 ⟨hfree, hfree'⟩⟩
      simp only [hlength, hworkers]
    · exact .inr ⟨⟨lines ++ more, error, by simp only [hlength, hworkers]⟩, .inr hbarred⟩
  · exact .inr ⟨⟨lines, error, by simp only [hlength]⟩, .inl hbarred⟩

/-- An extraction by at least one worker does not fail on the number of workers. -/
theorem extractBy_ne_workers {source : Source} {minLength workers given : Int} {labels : List String}
    (hworkers : 1 ≤ workers) {schedule : List (Extraction.Event labels.length)}
    {result : List Log.Line × Except Extraction.Error Report}
    (h : Extraction.extractBy source minLength workers labels schedule = some result) :
    result.2 ≠ .error (.workers given) := by
  have hconclude : ∀ scanned, (Extraction.conclude labels scanned).2 ≠ .error (.workers given) := by
    rintro ⟨lines, _ | found⟩ heq <;> cases heq
  unfold Extraction.extractBy at h
  rw [if_neg (by omega)] at h
  split at h
  · cases h
    exact hconclude _
  · split at h
    · cases h
    · split at h
      · cases h
        exact hconclude _
      · cases h

/-- What comes of any settings file and environment.  Loading fails exactly on what obstructs it, and
gives else the members held, or none with a warning if the file holds no object.  A setting with a
positive default is a positive number exactly if it is not barred.  The program starts exactly if
neither of its defaults is barred, both are positive then, and no extraction fails on the number of
workers. -/
theorem load_positive_start (environment : Environment) (store : Store) :
    (∀ error, (load store).2 = .error error ↔ Obstructs store.contents error) ∧
      ((∀ error, ¬ Obstructs store.contents error) →
        (∃ members, Holds store members ∧ load store = ([], .ok members)) ∨
          (∀ members, ¬ Holds store members) ∧
            ∃ warning, load store = ([Log.warning warning], .ok [])) ∧
      (∀ key absent, 1 ≤ absent →
        ((∃ number, (positive environment store key absent).2 = .ok number ∧ 1 ≤ number) ↔
          ¬ IsBarred environment store key absent)) ∧
      ∀ found : Startup.Surroundings, found.peReader = true →
        ((∃ values, (Startup.start found environment store).2 = .ok values ∧
            1 ≤ values.minLength ∧ 1 ≤ values.workers ∧
            ∀ source minLength labels schedule result,
              Extraction.extractBy source minLength values.workers labels schedule = some result →
                ∀ given, result.2 ≠ .error (.workers given)) ↔
          ¬ IsStartBarred environment store) := by
  refine ⟨fun error => load_eq_error_iff, fun hfree => ?_, fun key absent habsent => ?_,
    fun found hfound => ?_⟩
  · have hcases := load_cases store
    generalize load store = outcome at hcases ⊢
    cases hcases with
    | members hholds => exact .inl ⟨_, hholds, rfl⟩
    | warned hnone warning => exact .inr ⟨hnone, warning, rfl⟩
    | failed hobstructs => exact absurd hobstructs (hfree _)
  · rcases positive_cases habsent environment store key with
      ⟨⟨lines, number, hpositive, hnumber⟩, hfree⟩ | ⟨⟨lines, error, hpositive⟩, hbarred⟩
    · exact iff_of_true ⟨number, by rw [hpositive], hnumber⟩ hfree
    · exact iff_of_false (by simp [hpositive]) fun hfree => hfree hbarred
  · rcases start_cases hfound environment store with
      ⟨⟨lines, values, hstart, hlong, hmany⟩, hfree⟩ | ⟨⟨lines, error, hstart⟩, hbarred⟩
    · refine iff_of_true ⟨values, by rw [hstart], hlong, hmany, ?_⟩ hfree
      intro source minLength labels schedule result hresult given
      exact extractBy_ne_workers hmany hresult
    · exact iff_of_false (by simp [hstart]) fun hfree => hfree hbarred

/-- With a directory in the place of the file the program starts. -/
theorem load_positive_start_directory :
    ∃ values, (Startup.start ⟨true, none, none, true⟩ [] ⟨"config.json", .directory⟩).2 = .ok values ∧
      1 ≤ values.minLength ∧ 1 ≤ values.workers := by
  have hfree : ∀ key absent, ¬ IsBarred [] ⟨"config.json", .directory⟩ key absent := by
    intro key absent hbarred
    cases hbarred with
    | loading hkey hobstructs => cases hobstructs
    | warning hvalue hoverlong =>
      have hnone : override? [] key = none := by
        unfold override?
        cases variableNames.lookup key <;> rfl
      simp [value, hnone, load, unopened, asText?, Json.Members.get?] at hvalue
  obtain ⟨values, hstart, hlong, hmany, -⟩ :=
    ((load_positive_start [] ⟨"config.json", .directory⟩).2.2.2 ⟨true, none, none, true⟩ rfl).2
      (not_or.2 ⟨hfree _ _, hfree _ _⟩)
  exact ⟨values, hstart, hlong, hmany⟩

/-- A file with one byte that starts no character gives no settings but an error, and the program does
not start. -/
theorem start_one_bad_byte :
    let store : Store := ⟨"config.json", .file [0xFF] usualMode⟩
    let error : Error := .notText ⟨0, 1, 0xFF, .start⟩
    load store = ([], .error error) ∧
      positive [] store minLengthKey 4 = ([], .error error) ∧
      Startup.start ⟨true, none, none, true⟩ [] store = ([], .error (.settings error)) := by
  refine ⟨rfl, rfl, rfl⟩

end BinaryStrings.Settings
