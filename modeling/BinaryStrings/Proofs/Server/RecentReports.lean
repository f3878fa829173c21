import BinaryStrings.Server.ReportCache
import Mathlib.Data.Finset.Card
import Mathlib.Data.List.Dedup
import Mathlib.Data.List.DropRight

/-!
# The cache keeps the latest reports

The cache is compared with the history of what was done to it.  Of a history only the reports that
were set since the last time the cache was cleared matter, and of these, for every key, the last one.

The invariant of a run (`entries_after`): the entries of the cache are the end, as long as the cache
is large, of the list of these last settings, in the order in which they were made.

Main results:

- Theorem `latest_append`: a later setting of a key takes the place of the earlier ones.
- Theorem `entries_set`: setting a report keeps the invariant, also when the key is one of a full
  cache.
- Theorem `after_keepsLatest`: keys, order, look-ups, size and clearing after every history.
-/

namespace BinaryStrings.Server.ReportCache

variable {α : Type}

/-! ## Histories -/

/-- What can be done to a cache. -/
inductive Operation (α : Type) where
  | set (key : ReportKey) (value : α)
  | get (key : ReportKey)
  | clear

/-- What an operation answers. -/
inductive Answer (α : Type) where
  | done
  | found (value : Option α)
  | removed (count : Nat)

/-- What an operation answers, and the cache that it leaves. -/
def step (cache : ReportCache α) : Operation α → Answer α × ReportCache α
  | .set key value => (.done, (cache.set key value).2)
  | .get key => (.found (cache.get? key), cache)
  | .clear =>
    let (count, cleared) := cache.clear
    (.removed count, cleared)

/-- The cache that a history leaves of an empty one. -/
def after (history : List (Operation α)) : ReportCache α :=
  history.foldl (fun cache operation => (cache.step operation).2) empty

/-- Whether an operation clears the cache. -/
def Operation.isClear : Operation α → Bool
  | .clear => true
  | _ => false

/-- The key and the value that an operation sets, if it sets one. -/
def Operation.setting? : Operation α → Option (ReportKey × α)
  | .set key value => some (key, value)
  | _ => none

/-- The settings since the cache was cleared last, in the order in which they were made. -/
def settings (history : List (Operation α)) : List (ReportKey × α) :=
  (history.rtakeWhile fun operation => !operation.isClear).filterMap Operation.setting?

theorem after_concat (history : List (Operation α)) (operation : Operation α) :
    after (history ++ [operation]) = ((after history).step operation).2 := by
  simp [after]

theorem settings_concat (history : List (Operation α)) (operation : Operation α) :
    settings (history ++ [operation]) =
      match operation with
      | .set key value => settings history ++ [(key, value)]
      | .get _ => settings history
      | .clear => [] := by
  unfold settings
  rw [List.rtakeWhile_concat]
  cases operation <;> simp [Operation.isClear, Operation.setting?]

/-! ## The last setting of each key -/

/-- Of the settings of one key the last one. -/
def latest : List (ReportKey × α) → List (ReportKey × α)
  | [] => []
  | setting :: later =>
    if setting.1 ∈ later.map Prod.fst then latest later else setting :: latest later

theorem keys_latest (settings : List (ReportKey × α)) :
    (latest settings).map Prod.fst = (settings.map Prod.fst).dedup := by
  induction settings with
  | nil => rfl
  | cons setting later ih =>
    rw [latest, List.map_cons]
    by_cases hlater : setting.1 ∈ later.map Prod.fst
    · rw [if_pos hlater, List.dedup_cons_of_mem hlater, ih]
    · rw [if_neg hlater, List.dedup_cons_of_notMem hlater, List.map_cons, ih]

/-- A later setting of a key takes the place of the earlier ones. -/
theorem latest_append (earlier later : List (ReportKey × α)) :
    latest (earlier ++ later) =
      (latest earlier).filter (fun setting => setting.1 ∉ later.map Prod.fst) ++ latest later := by
  induction earlier with
  | nil => rfl
  | cons setting earlier ih =>
    have hmem : setting.1 ∈ (earlier ++ later).map Prod.fst ↔
        setting.1 ∈ earlier.map Prod.fst ∨ setting.1 ∈ later.map Prod.fst := by
      rw [List.map_append, List.mem_append]
    rw [List.cons_append, latest, latest]
    by_cases hearlier : setting.1 ∈ earlier.map Prod.fst
    · rw [if_pos (hmem.2 (Or.inl hearlier)), if_pos hearlier, ih]
    · rw [if_neg hearlier]
      by_cases hlater : setting.1 ∈ later.map Prod.fst
      · rw [if_pos (hmem.2 (Or.inr hlater)), List.filter_cons_of_neg (by simpa using hlater), ih]
      · rw [if_neg (mt hmem.1 (not_or_intro hearlier hlater)),
          List.filter_cons_of_pos (by simpa using hlater), List.cons_append, ih]

theorem nodup_keys_latest (settings : List (ReportKey × α)) :
    ((latest settings).map Prod.fst).Nodup := by
  rw [keys_latest]
  exact List.nodup_dedup _

theorem length_latest (settings : List (ReportKey × α)) :
    (latest settings).length = (settings.map Prod.fst).toFinset.card := by
  rw [List.card_toFinset, ← keys_latest, List.length_map]

/-! ## Setting a report -/

/-- Taking a key out of the end of a list brings in at most one entry from before. -/
theorem rtake_filter_rtake {entries : List (ReportKey × α)}
    (hnodup : (entries.map Prod.fst).Nodup) (key : ReportKey) (n : Nat) :
    ((entries.rtake (n + 1)).filter (·.1 != key)).rtake n =
      (entries.filter (·.1 != key)).rtake n := by
  induction entries using List.reverseRecOn generalizing n with
  | nil => simp
  | append_singleton entries entry ih =>
    rw [List.map_append, List.nodup_append] at hnodup
    obtain ⟨hentries, _, hapart⟩ := hnodup
    rw [List.rtake_concat_succ, List.filter_append, List.filter_append]
    by_cases hkey : entry.1 = key
    · -- The key is that of the last entry, so no other entry goes.
      have hkeep : ∀ part : List (ReportKey × α), part.Sublist entries →
          part.filter (·.1 != key) = part := by
        intro part hpart
        apply List.filter_eq_self.2
        intro other hother
        rw [bne_iff_ne, ← hkey]
        exact hapart other.1 (List.mem_map_of_mem (hpart.subset hother)) entry.1 (by simp)
      have hlast : [entry].filter (·.1 != key) = [] := by simp [hkey]
      rw [hlast, List.append_nil, List.append_nil, hkeep entries (List.Sublist.refl _),
        hkeep (entries.rtake n) (List.drop_sublist _ _)]
      have hshort : (entries.rtake n).length - n = 0 := by
        rw [List.rtake, List.length_drop]
        omega
      rw [List.rtake, hshort, List.drop_zero]
    · have hlast : [entry].filter (·.1 != key) = [entry] := by simp [hkey]
      rw [hlast]
      cases n with
      | zero => simp
      | succ n => rw [List.rtake_concat_succ, List.rtake_concat_succ, ih hentries]

/-- Setting a report in a cache that keeps the latest settings. -/
theorem entries_set {cache : ReportCache α} {settings : List (ReportKey × α)}
    (h : cache.entries = (latest settings).rtake capacity) (key : ReportKey) (value : α) :
    (cache.set key value).2.entries = (latest (settings ++ [(key, value)])).rtake capacity := by
  have hkey : (fun setting : ReportKey × α => decide (setting.1 ∉ [(key, value)].map Prod.fst)) =
      (·.1 != key) := by
    funext setting
    simp [bne, beq_eq_decide]
  have hset : (cache.set key value).2.entries =
      (cache.entries.filter (·.1 != key) ++ [(key, value)]).rtake capacity := rfl
  rw [hset, h, latest_append, hkey]
  change _ = ((latest settings).filter (·.1 != key) ++ [(key, value)]).rtake (15 + 1)
  rw [capacity, List.rtake_concat_succ, List.rtake_concat_succ,
    rtake_filter_rtake (nodup_keys_latest settings)]

/-- The entries of a cache are the latest settings of its history, as many as it holds. -/
theorem entries_after (history : List (Operation α)) :
    (after history).entries = (latest (settings history)).rtake capacity := by
  induction history using List.reverseRecOn with
  | nil => rfl
  | append_singleton history operation ih =>
    rw [after_concat, settings_concat]
    cases operation with
    | set key value => exact entries_set ih key value
    | get key => exact ih
    | clear => rfl

/-! ## Look-ups -/

theorem lookup_eq_none {entries : List (ReportKey × α)} {key : ReportKey}
    (h : key ∉ entries.map Prod.fst) : entries.lookup key = none := by
  apply List.lookup_eq_none_iff.2
  intro entry hentry
  rw [bne_iff_ne]
  rintro rfl
  exact h (List.mem_map_of_mem hentry)

/-- A key that occurs once is found in the end of a list if not too many entries come behind it. -/
theorem lookup_rtake {before behind : List (ReportKey × α)} {key : ReportKey} {value : α}
    (hbefore : key ∉ before.map Prod.fst) (hbehind : key ∉ behind.map Prod.fst) (n : Nat) :
    ((before ++ (key, value) :: behind).rtake n).lookup key =
      if behind.length < n then some value else none := by
  have hdropped : ∀ (part : List (ReportKey × α)) (count : Nat), key ∉ part.map Prod.fst →
      (part.drop count).lookup key = none := by
    intro part count hpart
    apply lookup_eq_none
    intro hin
    exact hpart (((List.drop_sublist count part).map Prod.fst).subset hin)
  have hlength : (before ++ (key, value) :: behind).length - n =
      before.length + (behind.length + 1) - n := by simp
  rw [List.rtake, hlength]
  by_cases hfits : behind.length < n
  · have hcount : before.length + (behind.length + 1) - n ≤ before.length := by omega
    rw [if_pos hfits, List.drop_append_of_le_length hcount, List.lookup_append,
      hdropped before _ hbefore]
    simp
  · have hcount : before.length + (behind.length + 1) - n =
        before.length + ((behind.length - n) + 1) := by omega
    rw [if_neg hfits, hcount, List.drop_length_add_append, List.drop_succ_cons,
      hdropped behind _ hbehind]

theorem get?_after (history : List (Operation α)) (key : ReportKey) :
    (after history).get? key = ((latest (settings history)).rtake capacity).lookup key := by
  rw [get?, entries_after]

theorem get?_after_eq_none {history : List (Operation α)} {key : ReportKey}
    (h : key ∉ (settings history).map Prod.fst) : (after history).get? key = none := by
  rw [get?_after]
  apply lookup_eq_none
  intro hin
  have hlatest : key ∈ (latest (settings history)).map Prod.fst :=
    ((List.drop_sublist _ _).map Prod.fst).subset hin
  rw [keys_latest, List.mem_dedup] at hlatest
  exact h hlatest

/-- A key is found with its last value until as many other keys as a cache holds were set. -/
theorem get?_after_eq {history : List (Operation α)} {earlier later : List (ReportKey × α)}
    {key : ReportKey} {value : α} (h : settings history = earlier ++ (key, value) :: later)
    (hlater : key ∉ later.map Prod.fst) :
    (after history).get? key =
      if (later.map Prod.fst).toFinset.card < capacity then some value else none := by
  have hsettings : latest ((key, value) :: later) = (key, value) :: latest later := by
    rw [latest, if_neg hlater]
  have hearlier : key ∉ ((latest earlier).filter fun setting =>
      setting.1 ∉ ((key, value) :: later).map Prod.fst).map Prod.fst := by
    intro hin
    obtain ⟨setting, hsetting, rfl⟩ := List.mem_map.1 hin
    simpa using List.of_mem_filter hsetting
  have hbehind : key ∉ (latest later).map Prod.fst := by
    rwa [keys_latest, List.mem_dedup]
  rw [get?_after, h, latest_append, hsettings, lookup_rtake hearlier hbehind, length_latest]

/-! ## Whole runs -/

/-- What the cache is after every history of settings, look-ups and clearings, from an empty one on.
Its keys are distinct, no more than it holds, and those that were set last since it was cleared last,
ordered by their last setting.  A look-up finds the last value of its key, unless the key was not set
since then or as many other keys as a cache holds were set after it; it leaves the cache as it is.
Clearing answers how many reports there were, and leaves none. -/
theorem after_keepsLatest (history : List (Operation α)) :
    let cache := after history
    cache.keys.Nodup ∧ cache.keys.length ≤ capacity ∧
      cache.keys = ((settings history).map Prod.fst).dedup.rtake capacity ∧
      (∀ key, key ∉ (settings history).map Prod.fst →
        cache.step (.get key) = (.found none, cache)) ∧
      (∀ earlier key value later, settings history = earlier ++ (key, value) :: later →
        key ∉ later.map Prod.fst →
          cache.step (.get key) =
            (.found (if (later.map Prod.fst).toFinset.card < capacity then some value else none),
              cache)) ∧
      cache.step .clear = (.removed cache.keys.length, empty) := by
  intro cache
  have hkeys : cache.keys = ((settings history).map Prod.fst).dedup.rtake capacity := by
    rw [keys, entries_after, List.rtake, List.rtake, ← keys_latest, List.map_drop, List.length_map]
  refine ⟨?_, ?_, hkeys, ?_, ?_, ?_⟩
  · rw [hkeys]
    exact (List.nodup_dedup _).sublist (List.drop_sublist _ _)
  · rw [hkeys, List.rtake, List.length_drop]
    omega
  · intro key hkey
    rw [step, get?_after_eq_none hkey]
  · intro earlier key value later hsettings hlater
    rw [step, get?_after_eq hsettings hlater]
  · rw [step, clear, keys, List.length_map]
    rfl

/-- A full cache in which the oldest key is set again before a new one comes: the second oldest goes.
What was set before the cache was cleared does not count. -/
theorem after_keepsLatest_full :
    let key : Nat → ReportKey := fun n => ⟨"/srv/blob", "raw", n, 4⟩
    let history : List (Operation Nat) := [.set (key 20) 20, .clear] ++
      (List.range 16).map (fun n => .set (key n) n) ++
        [.set (key 0) 100, .get (key 3), .set (key 16) 16]
    let cache := after history
    cache.keys = (List.range' 2 14 ++ [0, 16]).map key ∧
      cache.step (.get (key 20)) = (.found none, cache) ∧
      cache.step (.get (key 0)) = (.found (some 100), cache) ∧
      cache.step (.get (key 1)) = (.found none, cache) := by
  intro key history cache
  obtain ⟨-, -, hkeys, hnever, hlast, -⟩ := after_keepsLatest history
  let others : List (ReportKey × Nat) := (List.range' 2 14).map fun n => (key n, n)
  have hsettings : settings history =
      [(key 0, 0)] ++ (key 1, 1) :: (others ++ [(key 0, 100), (key 16, 16)]) := by
    decide +kernel
  refine ⟨hkeys.trans ?_, hnever (key 20) ?_, ?_, ?_⟩
  · rw [hsettings]
    decide +kernel
  · rw [hsettings]
    decide +kernel
  · have hagain : settings history =
        ([(key 0, 0), (key 1, 1)] ++ others) ++ (key 0, 100) :: [(key 16, 16)] := hsettings
    rw [hlast _ _ _ _ hagain (by decide +kernel), if_pos (by decide +kernel)]
  · rw [hlast _ _ _ _ hsettings (by decide +kernel), if_neg (by decide +kernel)]

end BinaryStrings.Server.ReportCache
