import BinaryStrings.Proofs.Outcome
import BinaryStrings.Proofs.Report.Findings
import BinaryStrings.Report.Held

/-!
# What selections keep

A selection admits an entry by its section and by a pattern that is found in its value, and keeps a
first part of the entries that it admits.  An empty pattern and an empty list of sections restrict
nothing, so of several selections, one after the other, each has to admit an entry by itself; their
sections are not put together.

One pass over the list of a report, which ends with the entry that reaches the limit, collects the same
entries in a new list, and the list of the report stays as it is.

Main results:

- Theorem `select_eq_ok_iff`: what one selection keeps.
- Theorem `selectEach_eq_ok_iff`: what several selections without limits keep.
- Theorem `Held.collect_eq`: what one pass collects.
- Theorem `select_restricts`: the laws of selections.
-/

namespace BinaryStrings

open Unicode (CharacterNames)

/-! ## Admitted entries -/

namespace Selection

/-- Whether the pattern of a selection is found in a value; there is none, or it is empty, if values
are not restricted. -/
def finds (characters : CharacterNames) (selection : Selection) (value : String) : Bool :=
  match selection.pattern with
  | none => true
  | some text =>
    text.isEmpty ||
      match Pattern.ofText characters selection.caseSensitive text with
      | .ok pattern => pattern.matchesIn value
      | .error _ => false

/-- Whether a selection admits an entry. -/
def admits (characters : CharacterNames) (selection : Selection) (entry : Entry) : Bool :=
  (selection.labels.isEmpty || selection.labels.contains entry.label) &&
    selection.finds characters entry.value

/-- A selection that is not refused. -/
structure IsAccepted (characters : CharacterNames) (selection : Selection) : Prop where
  /-- A limit is at least one. -/
  limit : ∀ n, selection.limit = some n → 1 ≤ n
  /-- A pattern that is not empty can be read. -/
  pattern : ∀ text, selection.pattern = some text → text.isEmpty = false →
    ∃ pattern, Pattern.ofText characters selection.caseSensitive text = .ok pattern

/-- The first entries, up to the limit of a selection if it has one. -/
def upTo (selection : Selection) (entries : List Entry) : List Entry :=
  match selection.limit with
  | none => entries
  | some n => entries.take n.toNat

/-- A selection without its limit. -/
def unlimited (selection : Selection) : Selection :=
  { selection with limit := none }

/-- The limit of a selection and nothing else of it. -/
def limitOnly (selection : Selection) : Selection :=
  { Selection.all with limit := selection.limit }

variable {characters : CharacterNames} {selection : Selection}

theorem upTo_of_none (h : selection.limit = none) (entries : List Entry) :
    selection.upTo entries = entries := by
  rw [upTo, h]

theorem upTo_sublist (selection : Selection) (entries : List Entry) :
    (selection.upTo entries).Sublist entries := by
  unfold upTo
  split
  · exact List.Sublist.refl _
  · exact List.take_sublist _ _

/-- What the test on values is, and when there is one, by the cases of the pattern. -/
theorem valueTest_cases (characters : CharacterNames) (selection : Selection) :
    selection.valueTest characters = .ok (selection.finds characters) ∧
        (∀ text, selection.pattern = some text → text.isEmpty = false →
          ∃ pattern, Pattern.ofText characters selection.caseSensitive text = .ok pattern) ∨
      ∃ text refusal, selection.pattern = some text ∧ text.isEmpty = false ∧
        Pattern.ofText characters selection.caseSensitive text = .error refusal ∧
        selection.valueTest characters = .error (.pattern refusal) := by
  obtain ⟨pattern, labels, limit, caseSensitive⟩ := selection
  cases pattern with
  | none => exact .inl ⟨rfl, nofun⟩
  | some text =>
    cases hempty : text.isEmpty with
    | true =>
      have hfinds : finds characters ⟨some text, labels, limit, caseSensitive⟩ = fun _ => true := by
        funext value
        simp [finds, hempty]
      refine .inl ⟨?_, ?_⟩
      · simp [valueTest, hfinds, hempty]
      · rintro _ ⟨⟩ hsome
        simp [hempty] at hsome
    | false =>
      cases hpattern : Pattern.ofText characters caseSensitive text with
      | error refusal =>
        exact .inr ⟨text, refusal, rfl, hempty, hpattern, by simp [valueTest, hempty, hpattern]⟩
      | ok pattern =>
        have hfinds : finds characters ⟨some text, labels, limit, caseSensitive⟩ = pattern.matchesIn := by
          funext value
          simp [finds, hempty, hpattern]
        refine .inl ⟨?_, ?_⟩
        · simp [valueTest, hfinds, hempty, hpattern]
        · rintro _ ⟨⟩ _
          exact ⟨pattern, hpattern⟩

/-- The test on values is whether the pattern is found. -/
theorem valueTest_eq_ok_iff {test : String → Bool} :
    selection.valueTest characters = .ok test ↔ test = selection.finds characters ∧
      ∀ text, selection.pattern = some text → text.isEmpty = false →
        ∃ pattern, Pattern.ofText characters selection.caseSensitive text = .ok pattern := by
  rcases valueTest_cases characters selection with
    ⟨htest, hread⟩ | ⟨text, refusal, hsome, hempty, hrefused, htest⟩
  · rw [htest, Except.ok.injEq]
    exact ⟨fun h => ⟨h.symm, hread⟩, fun h => h.1.symm⟩
  · rw [htest]
    refine iff_of_false nofun fun h => ?_
    obtain ⟨pattern, hpattern⟩ := h.2 text hsome hempty
    rw [hrefused] at hpattern
    cases hpattern

theorem checkedLimit_eq_ok_iff {limit : Option Nat} :
    selection.checkedLimit = .ok limit ↔ limit = selection.limit.map Int.toNat ∧
      ∀ n, selection.limit = some n → 1 ≤ n := by
  unfold checkedLimit
  cases selection.limit with
  | none => simp [eq_comm]
  | some n =>
    dsimp only
    split
    · simp [*]
    · simp [eq_comm]
      omega

end Selection

namespace Report

open Selection

variable {characters : CharacterNames} {report part : Report} {selection : Selection}

/-- The entries that a selection admits, in one step. -/
theorem entries_withValue_inSections (characters : CharacterNames) (report : Report)
    (selection : Selection) :
    ((report.inSections selection.labels).withValue (selection.finds characters)).entries =
      report.entries.filter (selection.admits characters) := by
  unfold withValue inSections admits
  split
  · rename_i hempty
    simp [hempty]
  · rename_i hsome
    simp only [List.filter_filter, Bool.and_comm, hsome, Bool.false_or]

theorem entries_first (report : Report) (selection : Selection) :
    (report.first (selection.limit.map Int.toNat)).entries = selection.upTo report.entries := by
  unfold first upTo
  cases selection.limit <;> rfl

/-- What one selection keeps: of the entries that it admits the first ones. -/
theorem select_eq_ok_iff : report.select characters selection = .ok part ↔
    selection.IsAccepted characters ∧
      part.entries = selection.upTo (report.entries.filter (selection.admits characters)) := by
  simp only [select, bind_eq_ok_iff, checkedLimit_eq_ok_iff, valueTest_eq_ok_iff]
  rw [← entries_withValue_inSections, ← entries_first]
  constructor
  · rintro ⟨_, ⟨rfl, hlimit⟩, _, ⟨rfl, hpattern⟩, hpart⟩
    cases hpart
    exact ⟨⟨hlimit, hpattern⟩, rfl⟩
  · rintro ⟨haccepted, hentries⟩
    refine ⟨_, ⟨rfl, haccepted.limit⟩, _, ⟨rfl, haccepted.pattern⟩, ?_⟩
    cases part
    exact congrArg Except.ok (congrArg Report.mk hentries.symm)

/-- A limit below one is refused whatever the pattern is. -/
theorem select_of_limit {n : Int} (hlimit : selection.limit = some n) (hn : n < 1) :
    report.select characters selection = .error .limit := by
  simp only [select, checkedLimit, hlimit, if_pos hn]
  rfl

/-! ## Several selections -/

/-- Selects several times, each time from what was kept before. -/
def selectEach (report : Report) (characters : CharacterNames) (selections : List Selection) :
    Except Selection.Error Report :=
  selections.foldlM (fun part selection => part.select characters selection) report

variable {selections others : List Selection}

theorem selectEach_cons (report : Report) (selection : Selection) (rest : List Selection) :
    report.selectEach characters (selection :: rest) =
      report.select characters selection >>= fun part => part.selectEach characters rest :=
  List.foldlM_cons

/-- Selections leave entries out, and the others in their order. -/
theorem sublist_of_selectEach (h : report.selectEach characters selections = .ok part) :
    part.entries.Sublist report.entries := by
  induction selections generalizing report with
  | nil =>
    cases h
    exact List.Sublist.refl _
  | cons selection rest ih =>
    rw [selectEach_cons, bind_eq_ok_iff] at h
    obtain ⟨kept, hkept, hrest⟩ := h
    have hentries := (select_eq_ok_iff.1 hkept).2
    refine (ih hrest).trans ?_
    rw [hentries]
    exact (upTo_sublist _ _).trans List.filter_sublist

/-- Without limits, an entry is kept if every selection admits it. -/
theorem selectEach_eq_ok_iff (hlimits : ∀ selection ∈ selections, selection.limit = none) :
    report.selectEach characters selections = .ok part ↔
      (∀ selection ∈ selections, selection.IsAccepted characters) ∧
        part.entries = report.entries.filter fun entry => selections.all (·.admits characters entry) := by
  induction selections generalizing report with
  | nil =>
    have hnil : report.selectEach characters [] = .ok report := rfl
    rw [hnil, Except.ok.injEq]
    cases report
    cases part
    simp [eq_comm]
  | cons selection rest ih =>
    rw [List.forall_mem_cons] at hlimits
    rw [selectEach_cons, bind_eq_ok_iff, List.forall_mem_cons]
    simp only [select_eq_ok_iff, upTo_of_none hlimits.1, ih hlimits.2]
    constructor
    · rintro ⟨kept, ⟨haccepted, hkept⟩, hrest, hpart⟩
      refine ⟨⟨haccepted, hrest⟩, ?_⟩
      rw [hpart, hkept, List.filter_filter]
      simp only [List.all_cons, Bool.and_comm]
    · rintro ⟨⟨haccepted, hrest⟩, hpart⟩
      refine ⟨⟨report.entries.filter (selection.admits characters)⟩, ⟨haccepted, rfl⟩, hrest, ?_⟩
      rw [hpart, List.filter_filter]
      simp only [List.all_cons, Bool.and_comm]

/-- Without limits it does not matter in which order selections are made, or how often each of them. -/
theorem selectEach_congr (hlimits : ∀ selection ∈ selections, selection.limit = none)
    (hsame : ∀ selection, selection ∈ others ↔ selection ∈ selections) :
    report.selectEach characters others = .ok part ↔
      report.selectEach characters selections = .ok part := by
  have hlimits' : ∀ selection ∈ others, selection.limit = none :=
    fun selection h => hlimits selection ((hsame selection).1 h)
  have hall : ∀ entry, others.all (·.admits characters entry) =
      selections.all (·.admits characters entry) := by
    intro entry
    rw [Bool.eq_iff_iff, List.all_eq_true, List.all_eq_true]
    simp only [hsame]
  rw [selectEach_eq_ok_iff hlimits', selectEach_eq_ok_iff hlimits]
  simp only [hsame, hall]

/-- The limit of a selection can be taken afterwards. -/
theorem selectEach_unlimited_limitOnly :
    report.selectEach characters [selection.unlimited, selection.limitOnly] = .ok part ↔
      report.select characters selection = .ok part := by
  have hadmits : selection.limitOnly.admits characters = fun _ => true := rfl
  have hunlimited : selection.unlimited.admits characters = selection.admits characters := rfl
  have hupTo : ∀ entries, selection.limitOnly.upTo entries = selection.upTo entries := fun _ => rfl
  have haccepted : selection.unlimited.IsAccepted characters ∧ selection.limitOnly.IsAccepted characters ↔
      selection.IsAccepted characters := by
    constructor
    · rintro ⟨hpattern, hlimit⟩
      exact ⟨hlimit.limit, hpattern.pattern⟩
    · intro h
      exact ⟨⟨nofun, h.pattern⟩, ⟨h.limit, nofun⟩⟩
  have hlast : ∀ kept : Report, kept.selectEach characters [selection.limitOnly] =
      kept.select characters selection.limitOnly := by
    intro kept
    rw [selectEach_cons]
    cases kept.select characters selection.limitOnly <;> rfl
  rw [selectEach_cons, bind_eq_ok_iff]
  simp only [hlast, select_eq_ok_iff, hunlimited, hadmits, hupTo,
    upTo_of_none (show selection.unlimited.limit = none from rfl)]
  rw [← haccepted]
  constructor
  · rintro ⟨kept, ⟨hfirst, hkept⟩, hlimit, hpart⟩
    refine ⟨⟨hfirst, hlimit⟩, ?_⟩
    rw [hpart, hkept, List.filter_true]
  · rintro ⟨⟨hfirst, hlimit⟩, hpart⟩
    refine ⟨⟨report.entries.filter (selection.admits characters)⟩, ⟨hfirst, rfl⟩, hlimit, ?_⟩
    rw [hpart, List.filter_true]

end Report

/-! ## Lists that are held -/

namespace Held

open Selection

variable {characters : CharacterNames} {selection : Selection} {keeps : Entry → Bool} {limit : Option Nat}
  {held : Held} {kept : List Entry}

theorem modify_append_singleton (held : Held) (kept : List Entry) (entry : Entry) :
    (held ++ [kept]).modify held.length (· ++ [entry]) = held ++ [kept ++ [entry]] := by
  induction held with
  | nil => rfl
  | cons first rest ih => simpa using ih

theorem isFull_append_singleton :
    isFull limit (held ++ [kept]) held.length = true ↔ ∃ n, limit = some n ∧ n ≤ kept.length := by
  unfold isFull
  cases limit <;> simp

/-- One pass collects the first ones of the entries to keep.  Before each entry the list is not full. -/
theorem collect_eq (hroom : ∀ n, limit = some n → kept.length < n) (entries : List Entry) :
    collect keeps limit held.length entries (held ++ [kept]) =
      held ++ [(Report.first ⟨kept ++ entries.filter keeps⟩ limit).entries] := by
  induction entries generalizing kept with
  | nil =>
    have hkept : (Report.first ⟨kept⟩ limit).entries = kept := by
      cases limit with
      | none => rfl
      | some n => exact List.take_of_length_le (Nat.le_of_lt (hroom n rfl))
    rw [collect, List.filter_nil, List.append_nil, hkept]
  | cons entry rest ih =>
    rw [collect]
    cases hkeeps : keeps entry with
    | false =>
      rw [if_neg Bool.false_ne_true, ih hroom, List.filter_cons_of_neg (by simp [hkeeps])]
    | true =>
      rw [if_pos rfl, modify_append_singleton, List.filter_cons_of_pos hkeeps]
      dsimp only
      split
      · rename_i hfull
        obtain ⟨n, rfl, hle⟩ := isFull_append_singleton.1 hfull
        have hlt := hroom n rfl
        rw [List.length_append, List.length_singleton] at hle
        have hlength : n = (kept ++ [entry]).length := by
          rw [List.length_append, List.length_singleton]
          omega
        rw [Report.first, List.append_cons kept entry (rest.filter keeps), hlength, List.take_left]
      · rename_i hfull
        rw [ih fun n hn => ?_, List.append_assoc, List.singleton_append]
        by_contra hle
        exact hfull (isFull_append_singleton.2 ⟨n, hn, by omega⟩)

/-- Selecting from the list of a report gives the list of the part that is kept; the lists that were held
are as they were. -/
theorem select_eq_ok_iff {report part : Report} {address : Nat}
    (hreport : held[address]? = some report.entries) :
    report.select characters selection = .ok part ↔
      ∃ after own, select characters selection held address = .ok (after, own) ∧ held <+: after ∧
        held.length ≤ own ∧ after[own]? = some part.entries := by
  have haccepted : ∀ {result}, select characters selection held address = .ok result ↔
      selection.IsAccepted characters ∧ result =
        (collect (selection.admits characters) (selection.limit.map Int.toNat) held.length report.entries
          (held ++ [[]]), held.length) := by
    intro result
    simp only [select, bind_eq_ok_iff, checkedLimit_eq_ok_iff, valueTest_eq_ok_iff,
      List.getD_eq_getElem?_getD, hreport, Option.getD_some]
    constructor
    · rintro ⟨_, ⟨rfl, hlimit⟩, _, ⟨rfl, hpattern⟩, hresult⟩
      exact ⟨⟨hlimit, hpattern⟩, (Except.ok.inj hresult).symm⟩
    · rintro ⟨h, rfl⟩
      exact ⟨_, ⟨rfl, h.limit⟩, _, ⟨rfl, h.pattern⟩, rfl⟩
  have hcollect : selection.IsAccepted characters →
      collect (selection.admits characters) (selection.limit.map Int.toNat) held.length report.entries
        (held ++ [[]]) =
          held ++ [selection.upTo (report.entries.filter (selection.admits characters))] := by
    intro h
    rw [← Report.entries_first]
    refine collect_eq (fun n hn => ?_) report.entries
    obtain ⟨m, hm, rfl⟩ := Option.map_eq_some_iff.1 hn
    have hpos := h.limit m hm
    rw [List.length_nil]
    omega
  simp only [haccepted, Report.select_eq_ok_iff, Prod.mk.injEq]
  constructor
  · rintro ⟨h, hpart⟩
    refine ⟨_, _, ⟨h, rfl, rfl⟩, ?_, Nat.le_refl _, ?_⟩
    · rw [hcollect h]
      exact List.prefix_append _ _
    · rw [hcollect h, hpart]
      simp
  · rintro ⟨_, _, ⟨h, rfl, rfl⟩, _, _, hown⟩
    rw [hcollect h] at hown
    simpa [h, eq_comm] using hown

end Held

/-! ## The laws of selections -/

namespace Report

open Selection

/-- The laws of selections from a report.  A selection keeps the first ones, up to its limit, of the
entries that it admits; a limit below one is refused first.  Several selections keep an order by address,
and no section and text twice.  Without limits they may change places, and be made once or several times.
A limit may be taken afterwards.  One pass over the list of the report does the same, and the lists that
are held stay as they are. -/
theorem select_restricts (characters : CharacterNames) (report : Report) :
    (∀ selection part, report.select characters selection = .ok part ↔ selection.IsAccepted characters ∧
      part.entries = selection.upTo (report.entries.filter (selection.admits characters)) ∧
      part.count = part.entries.length) ∧
    (∀ (selection : Selection) n, selection.limit = some n → n < 1 →
      report.select characters selection = .error .limit) ∧
    (∀ selections part, report.selectEach characters selections = .ok part →
      part.entries.Sublist report.entries ∧ ∀ found, report = ofFindings found →
        part.entries.Pairwise (fun a b => a.address ≤ b.address) ∧
          (part.entries.map Entry.key).Nodup) ∧
    (∀ (selections others : List Selection), (∀ selection ∈ selections, selection.limit = none) →
      (∀ selection, selection ∈ others ↔ selection ∈ selections) →
        ∀ part, report.selectEach characters others = .ok part ↔
          report.selectEach characters selections = .ok part) ∧
    (∀ selection part, report.selectEach characters [selection.unlimited, selection.limitOnly] = .ok part ↔
      report.select characters selection = .ok part) ∧
    ∀ (selection : Selection) (held : Held) (address : Nat),
      held[address]? = some report.entries → ∀ part, report.select characters selection = .ok part ↔
        ∃ after own, Held.select characters selection held address = .ok (after, own) ∧ held <+: after ∧
          held.length ≤ own ∧ after[own]? = some part.entries := by
  refine ⟨fun selection part => ?_, fun selection n => select_of_limit,
    fun selections part hpart => ?_, fun selections others hlimits hsame part =>
      selectEach_congr hlimits hsame, fun selection part => selectEach_unlimited_limitOnly,
    fun selection held address hreport part => Held.select_eq_ok_iff hreport⟩
  · rw [select_eq_ok_iff]
    exact and_congr_right fun _ => (and_iff_left rfl).symm
  · have hsublist := sublist_of_selectEach hpart
    refine ⟨hsublist, ?_⟩
    rintro found rfl
    exact ⟨(pairwise_mergeSort_address (firsts found)).sublist hsublist,
      (nodup_keys_ofFindings found).sublist (hsublist.map Entry.key)⟩

/-- A pattern, two sections and a limit, in one selection and in several. -/
theorem select_restricts_config :
    let report : Report := ⟨[⟨"Hello, world!", 0x10, ".text"⟩, ⟨"config path", 0x20, ".rodata"⟩,
      ⟨"Config Loaded", 0x30, ".rodata"⟩]⟩
    let part : Report := ⟨[⟨"config path", 0x20, ".rodata"⟩]⟩
    let selection : Selection := ⟨some "^config", [".rodata", ".data"], some 1, false⟩
    let byPattern : Selection := ⟨some "^config", [], none, true⟩
    let bySection : Selection := ⟨none, [".rodata"], none, false⟩
    report.select .ascii selection = .ok part ∧ part.entries.Sublist report.entries ∧
      report.selectEach .ascii [selection.unlimited, selection.limitOnly] = .ok part ∧
      report.selectEach .ascii [byPattern, bySection] = .ok part ∧
      report.selectEach .ascii [bySection, byPattern, bySection] = .ok part ∧
      report.select .ascii { selection with pattern := some "(", limit := some 0 } = .error .limit := by
  intro report part selection byPattern bySection
  obtain ⟨-, hlimit, hchain, hsame, hlast, -⟩ := select_restricts .ascii report
  have hpart : report.select .ascii selection = .ok part := eq_ok_of_toOption (by decide +kernel)
  have hboth : report.selectEach .ascii [byPattern, bySection] = .ok part :=
    eq_ok_of_toOption (by decide +kernel)
  have hmembers : ∀ a b other : Selection, other ∈ [b, a, b] ↔ other ∈ [a, b] := by
    intro a b other
    rw [List.mem_cons, List.mem_pair, or_left_comm, or_self]
  have hthrice : report.selectEach .ascii [bySection, byPattern, bySection] = .ok part :=
    (hsame [byPattern, bySection] _ (by decide) (hmembers _ _) part).2 hboth
  have hsublist : part.entries.Sublist report.entries := (hchain [byPattern, bySection] part hboth).1
  have htwice : report.selectEach .ascii [selection.unlimited, selection.limitOnly] = .ok part :=
    (hlast selection part).2 hpart
  have hrefused : report.select .ascii { selection with pattern := some "(", limit := some 0 } =
      .error .limit := hlimit _ 0 rfl (by decide)
  exact ⟨hpart, hsublist, htwice, hboth, hthrice, hrefused⟩

end Report

end BinaryStrings
