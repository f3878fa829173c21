import BinaryStrings.Proofs.CommandLine.Requests

/-!
# The flags that a command line names

A request serves exactly if the flag for it is among the words, and has allowed paths exactly if their
flag is.  Words that are values of a flag name none, and what is read from the letters of one word are
only flags that have a letter.

Main results:

- Theorem `takeUse_isOf`: the flags of one word.
- Theorem `has_iff_names`: the flags of a whole command line.
- Theorem `allowedPaths_ne_nil`: a request has no empty list of allowed paths.
-/

namespace BinaryStrings.CommandLine

/-- One of the words is a use of a flag. -/
def IsNamed (words : List (Word × String)) (flag : Flag) : Prop :=
  ∃ found text, (.use found, text) ∈ words ∧ found.flag = flag

/-- A command line names a flag, in full or shortened, with its values or without. -/
def Names (words : List String) (flag : Flag) : Prop :=
  ∃ kinds, Word.readAll words = .ok kinds ∧ IsNamed kinds flag

/-! ## Flags of one word -/

/-- A flag without a letter. -/
def IsLong (flag : Flag) : Prop :=
  ∀ name ∈ flag.names, name.toList.length ≠ 2

instance (flag : Flag) : Decidable (IsLong flag) :=
  inferInstanceAs (Decidable (∀ name ∈ flag.names, name.toList.length ≠ 2))

/-- No letter names a flag that has a long name only. -/
theorem ofName?_letter_ne {flag : Flag} (h : IsLong flag) (letter : Char) :
    Flag.ofName? (String.ofList ['-', letter]) ≠ some flag := by
  intro hfound
  have hname := List.find?_some hfound
  exact h _ (List.contains_iff_mem.1 hname) (by simp)

/-- The flags that are read from a word that names one: the others have letters, and allowed paths come
with a value. -/
structure Uses.IsOf (uses : Uses) (flag : Flag) : Prop where
  mem_iff : ∀ other, IsLong other → (other ∈ uses.flags.map Prod.fst ↔ flag = other)
  valued : ∀ values, (.allowedPaths, values) ∈ uses.flags → values ≠ []

variable {flag next : Flag} {values : List String} {uses : Uses}

theorem Uses.IsOf.single {value : List String} {extra : List String} {taken : Nat}
    (hvalue : flag = .allowedPaths → value ≠ []) : Uses.IsOf ⟨[(flag, value)], extra, taken⟩ flag where
  mem_iff other _ := by simp [eq_comm]
  valued values hmem := by
    obtain ⟨rfl, rfl⟩ := Prod.mk.inj (List.mem_singleton.1 hmem)
    exact hvalue rfl

/-- A flag without a value in front of one that is named by a letter. -/
theorem Uses.IsOf.after (h : uses.IsOf next) (hnext : ¬ IsLong next) (hflag : flag ≠ .allowedPaths) :
    (uses.after flag).IsOf flag where
  mem_iff other hother := by
    have hne : next ≠ other := by
      rintro rfl
      exact hnext hother
    rw [Uses.after, List.map_cons, List.mem_cons, h.mem_iff other hother]
    simp [hne, eq_comm]
  valued values hmem := by
    rcases List.mem_cons.1 hmem with hfirst | hrest
    · exact absurd (Prod.mk.inj hfirst).1.symm hflag
    · exact h.valued values hrest

/-- A flag whose values are the words behind it. -/
theorem takeValues_isOf (h : takeValues flag values = .ok uses) :
    uses.IsOf flag ∧ uses.taken ≤ values.length := by
  unfold takeValues at h
  split at h
  · rename_i hnothing
    cases h
    refine ⟨.single ?_, Nat.zero_le _⟩
    rintro rfl
    cases hnothing
  · cases h
  · cases h
    exact ⟨.single fun _ => List.cons_ne_nil _ _, by simp⟩
  · cases h
  · rename_i _ hne
    cases h
    exact ⟨.single fun _ hnil => hne hnil, Nat.le_refl _⟩

theorem not_isLong_of_ofName? {letter : Char}
    (h : Flag.ofName? (String.ofList ['-', letter]) = some flag) : ¬ IsLong flag :=
  fun hlong => ofName?_letter_ne hlong letter h

/-- What comes of a flag before others. -/
theorem exists_of_map_after {outcome : Except Mistake Uses}
    (h : outcome.map (·.after flag) = .ok uses) :
    ∃ others, outcome = .ok others ∧ uses = others.after flag := by
  cases outcome with
  | error error => cases h
  | ok others => exact ⟨others, rfl, (Except.ok.inj h).symm⟩

/-- A flag that is named by a letter, maybe with others behind it in the word. -/
theorem takeLetters_isOf {text : List Char} (h : takeLetters values flag text = .ok uses) :
    uses.IsOf flag ∧ uses.taken ≤ values.length := by
  have hflag : ∀ {flag : Flag}, ¬ (flag.following != .nothing) = true → flag ≠ .allowedPaths := by
    rintro _ hfollowing rfl
    exact hfollowing rfl
  fun_induction takeLetters values flag text generalizing uses with
  | case1 text flag hfollowing =>
    cases h
    exact ⟨.single fun _ => List.cons_ne_nil _ _, Nat.zero_le _⟩
  | case2 => cases h
  | case3 => cases h
  | case4 flag hfollowing letter rest hletter hnone =>
    cases h
    exact ⟨.single fun heq => absurd heq (hflag hfollowing), Nat.zero_le _⟩
  | case5 flag hfollowing letter hletter next hnext =>
    obtain ⟨others, hothers, rfl⟩ := exists_of_map_after h
    obtain ⟨hof, htaken⟩ := takeValues_isOf hothers
    exact ⟨hof.after (not_isLong_of_ofName? hnext) (hflag hfollowing), htaken⟩
  | case6 => cases h
  | case7 flag hfollowing letter hletter next hnext value hvalue =>
    cases h
    refine ⟨?_, Nat.zero_le _⟩
    have hof : Uses.IsOf ⟨[(next, [String.ofList value])], [], 0⟩ next :=
      .single fun _ => List.cons_ne_nil _ _
    exact hof.after (not_isLong_of_ofName? hnext) (hflag hfollowing)
  | case8 flag hfollowing letter hletter next hnext rest _ _ ih =>
    obtain ⟨others, hothers, rfl⟩ := exists_of_map_after h
    obtain ⟨hof, htaken⟩ := ih hothers
    exact ⟨hof.after (not_isLong_of_ofName? hnext) (hflag hfollowing), htaken⟩

/-- The flags of a word are the one that it names and perhaps some with letters. -/
theorem takeUse_isOf {found : FlagUse} (h : takeUse values found = .ok uses) :
    uses.IsOf found.flag ∧ uses.taken ≤ values.length := by
  unfold takeUse at h
  split at h
  · exact takeValues_isOf h
  · split at h
    · exact takeLetters_isOf h
    · dsimp only at h
      split at h
      · cases h
      · cases h
        exact ⟨.single fun _ => List.cons_ne_nil _ _, Nat.zero_le _⟩

/-! ## Requests -/

/-- The flags that say whether and where the server may read. -/
def IsServing (flag : Flag) : Prop :=
  flag = .server ∨ flag = .allowedPaths

/-- The flags of the server have long names only. -/
theorem IsServing.isLong (h : IsServing flag) : IsLong flag := by
  rcases h with rfl | rfl <;> decide

/-- A request has one of these flags. -/
def Request.Has (request : Request) : Flag → Prop
  | .server => request.server = true
  | .allowedPaths => request.allowedPaths ≠ none
  | _ => False

variable {request changed : Request} {other : Flag}

/-- A value that is checked or stored does not change whether and where the server may read. -/
theorem withValue_keeps {text : String} (h : request.withValue flag text = .ok changed) :
    changed.server = request.server ∧ changed.allowedPaths = request.allowedPaths := by
  cases flag with
  | mode | rawBase | minLength | workers | label | limit | port | transport =>
    obtain ⟨_, _, hchanged⟩ := bind_eq_ok_iff.1 h
    cases hchanged
    exact ⟨rfl, rfl⟩
  | _ =>
    cases h
    exact ⟨rfl, rfl⟩

/-- What a flag changes about whether and where the server may read. -/
theorem with_changes (h : request.with flag values = .ok changed) :
    changed.server = (request.server || flag == .server) ∧
      changed.allowedPaths = if flag = .allowedPaths then some values else request.allowedPaths := by
  unfold Request.with at h
  split at h
  · cases h
  · cases h
    simp
  · cases h
    simp
  · cases h
    simp
  · cases h
    simp
  · rename_i hhelp hverbose hjson hserver hallowed
    split at h
    · rename_i next hnext
      cases h
      obtain ⟨hsame, hpaths⟩ := withValue_keeps hnext
      rw [hsame, hpaths, if_neg hallowed, beq_eq_false_iff_ne.2 hserver, Bool.or_false]
      exact ⟨rfl, rfl⟩
    · cases h

/-- A request has what it had, and the flag that is added. -/
theorem with_has_iff (hserving : IsServing other) (h : request.with flag values = .ok changed) :
    changed.Has other ↔ request.Has other ∨ flag = other := by
  obtain ⟨hserver, hallowed⟩ := with_changes h
  rcases hserving with rfl | rfl
  · simp [Request.Has, hserver]
  · rw [Request.Has, Request.Has, hallowed]
    split <;> simp_all

/-- A request has what it had, and all flags that are added. -/
theorem withAll_has_iff (hserving : IsServing other) {flags : List (Flag × List String)}
    (h : request.withAll flags = .ok changed) :
    changed.Has other ↔ request.Has other ∨ other ∈ flags.map Prod.fst := by
  induction flags generalizing request with
  | nil =>
    cases h
    simp
  | cons use rest ih =>
    obtain ⟨flag, values⟩ := use
    unfold Request.withAll at h
    split at h
    · rename_i next hnext
      rw [ih h, with_has_iff hserving hnext, List.map_cons, List.mem_cons, or_assoc, eq_comm (a := other)]
    · cases h

/-- A list of allowed paths that is not empty stays so. -/
theorem withAll_ne_nil {flags : List (Flag × List String)}
    (hflags : ∀ values, (.allowedPaths, values) ∈ flags → values ≠ [])
    (h : request.withAll flags = .ok changed) (hrequest : request.allowedPaths ≠ some []) :
    changed.allowedPaths ≠ some [] := by
  induction flags generalizing request with
  | nil =>
    cases h
    exact hrequest
  | cons use rest ih =>
    obtain ⟨flag, values⟩ := use
    unfold Request.withAll at h
    split at h
    · rename_i next hnext
      refine ih (fun values hvalues => hflags values (List.mem_cons_of_mem _ hvalues)) h ?_
      rw [(with_changes hnext).2]
      split
      · rename_i hflag
        subst hflag
        exact fun hnil => hflags values List.mem_cons_self (Option.some.inj hnil)
      · exact hrequest
    · cases h

/-! ## Whole command lines -/

/-- The words that a flag takes are values. -/
theorem value_of_mem_take {words : List (Word × String)} {count : Nat}
    (hcount : count ≤ (leadingValues words).length) {word : Word × String}
    (hword : word ∈ words.take count) : word.1 = .value := by
  induction words generalizing count with
  | nil => simp at hword
  | cons first rest ih =>
    obtain ⟨kind, text⟩ := first
    cases count with
    | zero => simp at hword
    | succ count =>
      cases kind with
      | value =>
        rw [List.take_succ_cons, List.mem_cons] at hword
        rcases hword with rfl | hword
        · rfl
        · exact ih (Nat.le_of_succ_le_succ hcount) hword
      | _ => exact absurd hcount (Nat.not_succ_le_zero count)

/-- A word that uses a flag names this flag. -/
theorem isNamed_cons_use {found : FlagUse} {text : String} {words : List (Word × String)} :
    IsNamed ((.use found, text) :: words) flag ↔ found.flag = flag ∨ IsNamed words flag := by
  constructor
  · rintro ⟨named, shown, hmem, hflag⟩
    rcases List.mem_cons.1 hmem with hfirst | hrest
    · cases hfirst
      exact .inl hflag
    · exact .inr ⟨named, shown, hrest, hflag⟩
  · rintro (hflag | ⟨named, shown, hmem, hflag⟩)
    · exact ⟨found, text, List.mem_cons_self, hflag⟩
    · exact ⟨named, shown, List.mem_cons_of_mem _ hmem, hflag⟩

/-- Other words name none. -/
theorem isNamed_cons_of_ne {kind : Word} {text : String} {words : List (Word × String)}
    (hkind : ∀ found, kind ≠ .use found) : IsNamed ((kind, text) :: words) flag ↔ IsNamed words flag := by
  constructor
  · rintro ⟨named, shown, hmem, hflag⟩
    rcases List.mem_cons.1 hmem with hfirst | hrest
    · exact absurd (Prod.mk.inj hfirst).1.symm (hkind named)
    · exact ⟨named, shown, hrest, hflag⟩
  · rintro ⟨named, shown, hmem, hflag⟩
    exact ⟨named, shown, List.mem_cons_of_mem _ hmem, hflag⟩

/-- Words that are read name the flags that the request gets from them. -/
theorem readWords_has_iff (hserving : IsServing other) {words : List (Word × String)} {skip : Nat}
    {extra rest : List String} (hskip : ∀ word ∈ words.take skip, word.1 = .value)
    (h : readWords request extra skip words = .ok (changed, rest)) :
    changed.Has other ↔ request.Has other ∨ IsNamed words other := by
  induction words generalizing request extra skip with
  | nil =>
    simp only [readWords, Except.ok.injEq, Prod.mk.injEq] at h
    rw [← h.1]
    simp [IsNamed]
  | cons word words ih =>
    obtain ⟨kind, text⟩ := word
    cases skip with
    | succ skip =>
      rw [List.take_succ_cons, List.forall_mem_cons] at hskip
      obtain rfl : kind = .value := hskip.1
      rw [isNamed_cons_of_ne fun _ huse => by cases huse]
      exact ih hskip.2 h
    | zero =>
      cases kind with
      | use found =>
        simp only [readWords] at h
        split at h
        · cases h
        · rename_i uses huses
          split at h
          · cases h
          · rename_i next hnext
            obtain ⟨hof, htaken⟩ := takeUse_isOf huses
            rw [ih (fun word => value_of_mem_take htaken) h, withAll_has_iff hserving hnext,
              hof.mem_iff other hserving.isLong, isNamed_cons_use, or_assoc]
      | _ =>
        rw [isNamed_cons_of_ne fun _ huse => by cases huse]
        exact ih (by simp) h

/-- Words never make the list of allowed paths an empty one. -/
theorem readWords_ne_nil {words : List (Word × String)} {skip : Nat} {extra rest : List String}
    (h : readWords request extra skip words = .ok (changed, rest))
    (hrequest : request.allowedPaths ≠ some []) : changed.allowedPaths ≠ some [] := by
  induction words generalizing request extra skip with
  | nil =>
    simp only [readWords, Except.ok.injEq, Prod.mk.injEq] at h
    rwa [← h.1]
  | cons word words ih =>
    cases skip with
    | succ skip => exact ih (by simpa [readWords] using h) hrequest
    | zero =>
      obtain ⟨kind, text⟩ := word
      cases kind with
      | use found =>
        simp only [readWords] at h
        split at h
        · cases h
        · rename_i uses huses
          split at h
          · cases h
          · rename_i next hnext
            exact ih h (withAll_ne_nil (takeUse_isOf huses).1.valued hnext hrequest)
      | _ => exact ih h hrequest

/-- A request has the flags of the server that its command line names. -/
theorem has_iff_names (hserving : IsServing other) {defaults : Startup.Defaults}
    {words : List String} (h : read defaults words = .ok request) :
    request.Has other ↔ Names words other := by
  unfold read at h
  split at h
  · cases h
  · rename_i kinds hkinds
    split at h
    · cases h
    · rename_i hread
      cases h
      have hinitial : ¬ (Request.initial defaults).Has other := by
        rcases hserving with rfl | rfl
        · exact Bool.false_ne_true
        · exact fun h => h rfl
      rw [readWords_has_iff hserving (by simp) hread, or_iff_right hinitial]
      constructor
      · exact fun hnamed => ⟨kinds, hkinds, hnamed⟩
      · rintro ⟨others, hothers, hnamed⟩
        rw [hkinds] at hothers
        cases hothers
        exact hnamed
    · cases h

/-- A request does not have an empty list of allowed paths. -/
theorem allowedPaths_ne_nil {defaults : Startup.Defaults} {words : List String}
    (h : read defaults words = .ok request) : request.allowedPaths ≠ some [] := by
  unfold read at h
  split at h
  · cases h
  · split at h
    · cases h
    · rename_i hread
      cases h
      exact readWords_ne_nil hread nofun
    · cases h

end BinaryStrings.CommandLine
