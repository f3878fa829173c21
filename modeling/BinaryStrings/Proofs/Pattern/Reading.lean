import BinaryStrings.Pattern.Cursor

/-!
# Steps of readers

What the steps of a reader of patterns do, as equations and inversions.

Main results:

- Theorem `Reading.bind_eq_ok`: two readers one behind the other.
- Theorem `Reading.next_run`: the token that is taken.
- Theorem `firstToken?_append`: a token does not depend on what is behind it.
-/

namespace BinaryStrings.Pattern

/-! ## Readers -/

namespace Reading

variable {α β : Type} {c c' : Cursor}

/-- What is read by two readers, one behind the other. -/
theorem bind_eq_ok {r : Reading α} {k : α → Reading β} {b : β} :
    (r >>= k) c = .ok (b, c') ↔ ∃ a c₁, r c = .ok (a, c₁) ∧ k a c₁ = .ok (b, c') := by
  change (StateT.bind r k) c = _ ↔ _
  simp only [StateT.bind]
  rcases r c with error | ⟨a, c₁⟩
  · simp [bind, Except.bind]
  · simp only [bind, Except.bind, Except.ok.injEq, Prod.mk.injEq]
    constructor
    · exact fun h => ⟨a, c₁, ⟨rfl, rfl⟩, h⟩
    · rintro ⟨_, _, ⟨rfl, rfl⟩, h⟩
      exact h

/-- What was read by the first reader is handed on. -/
theorem bind_of_ok {r : Reading α} {k : α → Reading β} {a : α} (h : r c = .ok (a, c')) :
    (r >>= k) c = k a c' := by
  change (StateT.bind r k) c = _
  simp only [StateT.bind, h]
  rfl

/-- Where a reader ends does not matter to what it reads. -/
theorem run'_eq_ok {r : Reading α} {a : α} : r.run' c = .ok a ↔ ∃ c', r c = .ok (a, c') := by
  change (do let x ← r c; Pure.pure x.1) = _ ↔ _
  rcases r c with error | ⟨b, c'⟩ <;> simp [bind, Except.bind, Pure.pure, Except.pure]

/-- A reader may depend on where it stands. -/
theorem get_bind_run (k : Cursor → Reading β) : (get >>= k) c = k c c :=
  rfl

/-- Nothing is read where a text is refused. -/
theorem failBack_ne_ok (kind : Mistake) (back : Nat) (x : α × Cursor) :
    (failBack kind back : Reading α) c ≠ .ok x := by
  rintro ⟨⟩

/-- Nor is anything where it is refused at a position. -/
theorem failAt_ne_ok (kind : Mistake) (position : Nat) (x : α × Cursor) :
    (failAt kind position : Reading α) c ≠ .ok x := by
  rintro ⟨⟩

/-- The token at the start of a text. -/
def firstToken? : List Char → Option Token
  | [] => none
  | '\\' :: c :: _ => some (.escape c)
  | c :: _ => some (.char c)

/-- The next token is looked at and stays. -/
theorem peek_run (c : Cursor) : peek c = .ok (firstToken? c.rest, c) := by
  unfold peek firstToken?
  rw [get_bind_run]
  refine congrFun (?_ : _ = (Pure.pure _ : Reading (Option Token))) c
  rcases c.rest with _ | ⟨x, _ | ⟨y, rest⟩⟩
  · rfl
  · simp
  · by_cases hx : x = '\\'
    · subst hx
      rfl
    · simp [hx]

/-- A place is moved to unless a single backslash is left there. -/
theorem moveTo_run (rest : List Char) (position : Nat) (c : Cursor) :
    moveTo rest position c =
      if rest = ['\\'] then .error (.mistake .unfinishedEscape position)
      else .ok ((), { c with rest := rest, position := position }) := by
  unfold moveTo
  by_cases hrest : rest = ['\\']
  · simp only [hrest, beq_self_eq_true, if_true]
    rfl
  · simp only [beq_eq_false_iff_ne.2 hrest, Bool.false_eq_true, if_false, if_neg hrest]
    rfl

/-- The reader can be moved to every text but a single backslash. -/
theorem moveTo_eq_ok {rest : List Char} {position : Nat} {x : Unit × Cursor} :
    moveTo rest position c = .ok x ↔
      rest ≠ ['\\'] ∧ x = ((), { c with rest := rest, position := position }) := by
  rw [moveTo_run]
  by_cases hrest : rest = ['\\']
  · simp [hrest]
  · simp [hrest, eq_comm]

/-- The next token is taken, unless a single backslash is left behind it. -/
theorem next_run (c : Cursor) :
    next c =
      match firstToken? c.rest with
      | none => .ok (none, c)
      | some token =>
        if c.rest.drop token.length = ['\\'] then
          .error (.mistake .unfinishedEscape (c.position + token.length))
        else
          .ok (some token, { c with
            rest := c.rest.drop token.length, position := c.position + token.length }) := by
  unfold next
  rw [bind_of_ok (peek_run c)]
  cases firstToken? c.rest with
  | none => rfl
  | some token =>
    change (moveTo _ _ >>= fun _ => pure (some token)) c = _
    dsimp only
    split
    · rename_i hend
      have hmove := moveTo_run (c.rest.drop token.length) (c.position + token.length) c
      rw [if_pos hend] at hmove
      change (StateT.bind _ _) c = _
      simp only [StateT.bind, hmove]
      rfl
    · rename_i hend
      have hmove := moveTo_run (c.rest.drop token.length) (c.position + token.length) c
      rw [if_neg hend] at hmove
      rw [bind_of_ok hmove]
      rfl

/-- The text does not get longer when a token is taken. -/
theorem next_length {token : Option Token} (h : next c = .ok (token, c')) :
    c'.rest.length ≤ c.rest.length := by
  rw [next_run] at h
  split at h
  · cases h
    exact Nat.le_refl _
  · split at h
    · cases h
    · cases h
      simp only [List.length_drop]
      omega

/-- Nor does it when a character is taken that may be there. -/
theorem accept_length {ch : Char} {found : Bool} (h : accept ch c = .ok (found, c')) :
    c'.rest.length ≤ c.rest.length := by
  unfold accept at h
  rw [bind_of_ok (peek_run c)] at h
  split at h
  · obtain ⟨_, _, hnext, hdone⟩ := bind_eq_ok.1 h
    cases hdone
    exact next_length hnext
  · cases h
    exact Nat.le_refl _

/-- A character that is not there is not taken. -/
theorem accept_false {ch : Char} (h : accept ch c = .ok (false, c')) : c' = c := by
  unfold accept at h
  rw [bind_of_ok (peek_run c)] at h
  split at h
  · obtain ⟨_, _, _, hdone⟩ := bind_eq_ok.1 h
    cases hdone
  · cases h
    rfl

/-- A character that comes next is the first one of the text. -/
theorem eq_cons_of_firstToken? {ch : Char} {rest : List Char}
    (h : firstToken? rest = some (.char ch)) : rest = ch :: rest.drop 1 := by
  unfold firstToken? at h
  split at h <;> cases h
  rfl

/-- A character that is accepted stands there. -/
theorem accept_true {ch : Char} (h : accept ch c = .ok (true, c')) : c.rest = ch :: c'.rest := by
  unfold accept at h
  rw [bind_of_ok (peek_run c)] at h
  split at h
  · rename_i htoken
    obtain ⟨token, c₁, hnext, hdone⟩ := bind_eq_ok.1 h
    replace htoken : firstToken? c.rest = some (.char ch) := by simpa using htoken
    cases hdone
    rw [next_run, htoken] at hnext
    dsimp only at hnext
    split at hnext
    · cases hnext
    · cases hnext
      exact eq_cons_of_firstToken? htoken
  · cases h

/-- The text does not get longer when characters are taken that pass a test. -/
theorem takeWhile_length {test : Char → Bool} {most : Nat} {taken : List Char}
    (h : takeWhile test most c = .ok (taken, c')) : c'.rest.length ≤ c.rest.length := by
  induction most generalizing c taken with
  | zero =>
    cases h
    exact Nat.le_refl _
  | succ most ih =>
    rw [takeWhile, bind_of_ok (peek_run c)] at h
    generalize firstToken? c.rest = token at h
    rcases token with _ | ch | ch
    · cases h
      exact Nat.le_refl _
    · dsimp only at h
      split at h
      · obtain ⟨_, _, hnext, hrest⟩ := bind_eq_ok.1 h
        obtain ⟨_, _, hmore, hdone⟩ := bind_eq_ok.1 hrest
        cases hdone
        exact Nat.le_trans (ih hmore) (next_length hnext)
      · cases h
        exact Nat.le_refl _
    · cases h
      exact Nat.le_refl _

end Reading

/-- What is noted for a number is found. -/
theorem isSome_lookup_iff {α : Type} {entries : List (Nat × α)} {index : Nat} :
    (entries.lookup index).isSome = true ↔ index ∈ entries.map (·.1) := by
  induction entries with
  | nil => simp
  | cons entry rest ih =>
    rw [List.lookup_cons]
    by_cases hindex : index = entry.1
    · simp [hindex]
    · rw [beq_false_of_ne hindex, List.map_cons, List.mem_cons, ih]
      simp [hindex]

/-! ## Tails -/

/-- What can stand behind a pattern: nothing, or a closing parenthesis with anything behind it. -/
def IsTail (tail : List Char) : Prop :=
  tail = [] ∨ ∃ behind, tail = ')' :: behind

section Tails

variable {tail : List Char} {flags : Flags} {c d : Cursor}

open Reading (firstToken?)

/-- Every token has a character. -/
theorem Token.length_pos (token : Token) : 0 < token.length := by
  cases token <;> simp [Token.length, Token.chars]

/-- A token comes next until the end. -/
theorem firstToken?_eq_none_iff {rest : List Char} : firstToken? rest = none ↔ rest = [] := by
  unfold firstToken?
  split <;> simp

/-- A token lies at the start of its text. -/
theorem length_le_of_firstToken? {rest : List Char} {token : Token}
    (h : firstToken? rest = some token) : token.length ≤ rest.length := by
  unfold firstToken? at h
  split at h <;> cases h <;> simp [Token.length, Token.chars]

/-- The next token does not depend on what is behind the text, if that does not end within an escape. -/
theorem firstToken?_append {rest : List Char} (hrest : rest ≠ []) (hcomplete : rest ≠ ['\\'])
    (tail : List Char) : firstToken? (rest ++ tail) = firstToken? rest := by
  match rest with
  | [] => exact absurd rfl hrest
  | [c] =>
    have hc : c ≠ '\\' := by
      rintro rfl
      exact hcomplete rfl
    cases tail with
    | nil => rfl
    | cons t tail => simp [firstToken?, hc]
  | c :: c' :: rest =>
    by_cases hc : c = '\\'
    · simp [firstToken?, hc]
    · simp [firstToken?, hc]

/-- Behind the body of a group comes nothing or a closing parenthesis. -/
theorem IsTail.firstToken? (h : IsTail tail) :
    firstToken? tail = none ∨ firstToken? tail = some (.char ')') := by
  rcases h with rfl | ⟨behind, rfl⟩
  · exact .inl rfl
  · right
    cases behind <;> simp [Reading.firstToken?]

/-- With a tail behind it, a text that is complete stays so. -/
theorem IsTail.complete_append (h : IsTail tail) {rest : List Char} (hrest : rest ≠ ['\\']) :
    rest ++ tail ≠ ['\\'] := by
  rcases h with rfl | ⟨behind, rfl⟩
  · simpa using hrest
  · cases rest <;> simp

end Tails

end BinaryStrings.Pattern
