import BinaryStrings.Pattern.Guard
import BinaryStrings.Proofs.Pattern.CarriedParser
import BinaryStrings.Proofs.Pattern.Taken

/-!
# The text of options, quantifiers and openings

What opens a group has no closing parenthesis, nor has a quantifier.  Two kinds of openings are
different, as nothing of them is left in the tree: options for the whole pattern, and comments.  A
reference by name has a closing parenthesis at its end, and so has what a condition asks for.

Main results:

- Theorem `Takes.readFlags`: the options of a group.
- Theorem `Takes.quantifier`: the signs of a quantifier.
- Theorem `Takes.readOpening`: what is taken behind an opening parenthesis.
-/

namespace BinaryStrings.Pattern

/-- What the text of an opening shows: besides comments, options and conditions it has no closing
parenthesis, and a reference has one. -/
def Opening.Shows (opening : Opening) (taken : List Char) : Prop :=
  match opening with
  | .nothing => '#' ∈ taken
  | .wholeFlags | .conditional => True
  | .reference item => item.isPlain = true ∧ item.closes = true
  | _ => ')' ∉ taken

namespace Takes

/-! ## Options -/

/-- No option is written with a closing parenthesis. -/
theorem notMem_of_flagOf? {token : Token} {flag : Flags} (h : flagOf? token = some flag) :
    ')' ∉ token.chars := by
  cases token with
  | escape c => cases h
  | char c =>
    intro hmem
    rw [Token.chars, List.mem_singleton] at hmem
    subst hmem
    cases h

/-- Options to turn on are letters, so a closing parenthesis comes behind them. -/
theorem flagsOn_taken {fuel : Nat} {on : Flags} {token : Token} {read : Flags × Token} {c c' : Cursor}
    (hfuel : c.rest.length < fuel) (h : Pattern.flagsOn fuel on token c = .ok (read, c')) :
    ∃ taken, c.rest = taken ++ c'.rest ∧ (')' ∈ token.chars ++ taken → read.2 = .char ')') := by
  induction fuel generalizing on token c with
  | zero => omega
  | succ fuel ih =>
    rw [Pattern.flagsOn] at h
    split at h
    · exact absurd h (Reading.failBack_ne_ok _ _ _)
    · cases hflag : flagOf? token with
      | none =>
        rw [hflag] at h
        exact absurd h (Reading.failBack_ne_ok _ _ _)
      | some flag =>
        rw [hflag] at h
        dsimp only at h
        split at h
        · exact absurd h (Reading.failBack_ne_ok _ _ _)
        obtain ⟨found, c₁, hrest, hlength, h⟩ :=
          exists_token (fun _ => Reading.failBack_ne_ok _ _ _) h
        dsimp only at h
        have hquiet := notMem_of_flagOf? hflag
        split at h
        · rename_i hend
          cases h
          refine ⟨found.chars, hrest, fun hmem => ?_⟩
          have hfound : ')' ∈ found.chars := by simpa [hquiet] using hmem
          simp only [Bool.or_eq_true, beq_iff_eq] at hend
          rcases hend with (rfl | rfl) | rfl
          · rfl
          · exact absurd hfound (by decide)
          · exact absurd hfound (by decide)
        · obtain ⟨more, hmore, hclosing⟩ := ih (by omega) h
          refine ⟨found.chars ++ more, by rw [hrest, hmore, List.append_assoc], fun hmem => ?_⟩
          exact hclosing (by simpa [hquiet] using hmem)

/-- Options to turn off are letters up to a colon. -/
theorem flagsOff_taken {missing : Mistake} {fuel : Nat} {off read : Flags} {token : Token}
    {c c' : Cursor} (hfuel : c.rest.length < fuel)
    (h : Pattern.flagsOff missing fuel off token c = .ok (read, c')) :
    ∃ taken, c.rest = taken ++ c'.rest ∧ ')' ∉ token.chars ++ taken := by
  induction fuel generalizing missing off token c with
  | zero => omega
  | succ fuel ih =>
    rw [Pattern.flagsOff] at h
    split at h
    · exact absurd h (Reading.failBack_ne_ok _ _ _)
    · cases hflag : flagOf? token with
      | none =>
        rw [hflag] at h
        exact absurd h (Reading.failBack_ne_ok _ _ _)
      | some flag =>
        rw [hflag] at h
        dsimp only at h
        split at h
        · exact absurd h (Reading.failBack_ne_ok _ _ _)
        obtain ⟨found, c₁, hrest, hlength, h⟩ :=
          exists_token (fun _ => Reading.failBack_ne_ok _ _ _) h
        dsimp only at h
        have hquiet := notMem_of_flagOf? hflag
        split at h
        · rename_i hend
          cases h
          refine ⟨found.chars, hrest, ?_⟩
          rw [List.mem_append, not_or, eq_of_beq hend]
          exact ⟨hquiet, by decide⟩
        · obtain ⟨more, hmore, hclosing⟩ := ih (by omega) h
          refine ⟨found.chars ++ more, by rw [hrest, hmore, List.append_assoc], ?_⟩
          simpa [hquiet] using hclosing

/-- Options of the whole pattern end with a closing parenthesis, those of a group have none. -/
theorem flagsEnd_taken {fuel : Nat} {on : Flags} {closing : Token} {given : Option (Flags × Flags)}
    {c c' : Cursor} (hfuel : c.rest.length < fuel)
    (h : Pattern.flagsEnd fuel on closing c = .ok (given, c')) :
    ∃ taken, c.rest = taken ++ c'.rest ∧
      (given.isSome = true → closing ≠ .char ')' ∧ ')' ∉ taken) := by
  have hchecked : ∀ {off : Flags} {c : Cursor},
      flagsEnd.flagsChecked on off c = .ok (given, c') → c' = c := by
    intro off c hdone
    unfold flagsEnd.flagsChecked at hdone
    split at hdone
    · exact absurd hdone (Reading.failBack_ne_ok _ _ _)
    · split at hdone
      · exact absurd hdone (Reading.failBack_ne_ok _ _ _)
      · cases hdone
        rfl
  unfold Pattern.flagsEnd at h
  split at h
  · obtain ⟨_, _, hset, hdone⟩ := Reading.bind_eq_ok.1 h
    cases hset
    cases hdone
    exact ⟨[], rfl, by simp⟩
  rename_i hclosing
  have hne : closing ≠ .char ')' := by simpa using hclosing
  split at h
  · exact absurd h (Reading.failBack_ne_ok _ _ _)
  split at h
  · obtain ⟨found, c₁, hrest, hlength, h⟩ := exists_token (fun _ => Reading.failBack_ne_ok _ _ _) h
    obtain ⟨off, c₂, hoff, hdone⟩ := Reading.bind_eq_ok.1 h
    obtain ⟨more, hmore, hquiet⟩ := flagsOff_taken (by omega) hoff
    rw [hchecked hdone]
    refine ⟨found.chars ++ more, ?_, fun _ => ⟨hne, hquiet⟩⟩
    rw [hrest, hmore, List.append_assoc]
  · rw [hchecked h]
    exact ⟨[], rfl, fun _ => ⟨hne, by simp⟩⟩

/-- Options of a group have no closing parenthesis. -/
theorem readFlags (token : Token) :
    Takes (fun given taken => given.isSome = true → ')' ∉ token.chars ++ taken)
      (Pattern.readFlags token) := by
  intro c given c' hread
  rw [readFlags_eq, Reading.get_bind_run] at hread
  split at hread
  · rename_i hhyphen
    obtain ⟨taken, hrest, hquiet⟩ := flagsEnd_taken (by omega) hread
    refine ⟨taken, hrest, fun hsome => ?_⟩
    rw [eq_of_beq hhyphen]
    simp [Token.chars, (hquiet hsome).2]
  · obtain ⟨read, c₁, hon, hread⟩ := Reading.bind_eq_ok.1 hread
    obtain ⟨taken, hrest, hclosing⟩ := flagsOn_taken (by omega) hon
    have hlength := flagsOn_length hon
    obtain ⟨more, hmore, hquiet⟩ := flagsEnd_taken (by omega) hread
    refine ⟨taken ++ more, by rw [hrest, hmore, List.append_assoc], fun hsome hmem => ?_⟩
    rw [← List.append_assoc, List.mem_append] at hmem
    rcases hmem with hmem | hmem
    · exact (hquiet hsome).1 (hclosing hmem)
    · exact (hquiet hsome).2 hmem

/-! ## Repetition -/

/-- The digits of a number of repetitions were taken before. -/
theorem countOf? (digits : List Char) :
    Takes (fun _ taken => taken = []) (Pattern.countOf? digits) :=
  ite (fun _ => pure rfl) fun _ => ite (fun _ => fun _ _ _ hread => by cases hread) fun _ => pure rfl

/-- Behind the digits there is a closing brace, or the reader goes back to where it started. -/
theorem countsEnd_taken {start c c' : Cursor} {low high : List Char} {counts : Option Counts}
    (h : Pattern.countsEnd start low high c = .ok (counts, c')) :
    counts = none ∧ c' = start ∨ c.rest = '}' :: c'.rest := by
  obtain ⟨found, c₁, haccept, h⟩ := Reading.bind_eq_ok.1 h
  cases found with
  | false =>
    obtain ⟨_, _, hset, hdone⟩ := Reading.bind_eq_ok.1 h
    cases hset
    cases hdone
    exact .inl ⟨rfl, rfl⟩
  | true =>
    have hchecked : Takes (fun _ taken => taken = []) (do
        countsChecked start (← Pattern.countOf? low) (← Pattern.countOf? high)) := by
      refine (countOf? low).bind_of_nil fun least => (countOf? high).bind_of_nil fun most => ?_
      unfold countsChecked
      split
      · exact pure rfl
      · exact ite (fun _ => failAt) fun _ => pure rfl
    obtain ⟨_, hrest, rfl⟩ := hchecked h
    right
    rw [Reading.accept_true haccept, hrest, List.nil_append]

/-- Counts have no closing parenthesis, but a closing brace. -/
theorem readCounts :
    Takes (fun counts taken => ')' ∉ taken ∧ (counts.isSome = true → '}' ∈ taken))
      Pattern.readCounts := by
  intro start counts c' hread
  rw [readCounts_eq, Reading.get_bind_run, Reading.bind_of_ok (Reading.peek_run start)] at hread
  split at hread
  · cases hread
    exact ⟨[], rfl, by simp, by simp⟩
  obtain ⟨low, c₁, hlow, hread⟩ := Reading.bind_eq_ok.1 hread
  obtain ⟨lows, hrest, hlows⟩ := takeWhile_notMem (by decide) _ hlow
  obtain ⟨comma, c₂, hcomma, hread⟩ := Reading.bind_eq_ok.1 hread
  have hend : ∀ (taken : List Char) {high : List Char} {c : Cursor},
      start.rest = taken ++ c.rest → ')' ∉ taken →
      countsEnd start low high c = .ok (counts, c') → ∃ taken, start.rest = taken ++ c'.rest ∧
        ')' ∉ taken ∧ (counts.isSome = true → '}' ∈ taken) := by
    intro taken high c htaken hquiet hdone
    rcases countsEnd_taken hdone with ⟨rfl, rfl⟩ | hbrace
    · exact ⟨[], rfl, by simp, by simp⟩
    · refine ⟨taken ++ ['}'], by rw [htaken, hbrace]; simp, by simp [hquiet], by simp⟩
  cases comma with
  | false =>
    rw [Reading.accept_false hcomma] at hread
    exact hend lows hrest hlows hread
  | true =>
    obtain ⟨high, c₃, hhigh, hread⟩ := Reading.bind_eq_ok.1 hread
    obtain ⟨highs, hrest', hhighs⟩ := takeWhile_notMem (by decide) _ hhigh
    refine hend (lows ++ ',' :: highs) ?_ (by simp [hlows, hhighs]) hread
    rw [hrest, Reading.accept_true hcomma, hrest']
    simp

/-- A quantifier has one of its signs, and with its first character it shows behind a group, unless it
is a question mark. -/
theorem quantifier {c : Char} (hc : (c == '*' || c == '+' || c == '?' || c == '{') = true) :
    Takes (fun counts taken => ')' ∉ c :: taken ∧ ∀ given, counts = some given →
        (c :: taken).any isInnerQuantifier = true ∧
          ((given.least, given.most) ≠ (0, some 1) → isOuterQuantifier c = true))
      (Pattern.quantifier c) := by
  simp only [Bool.or_eq_true, beq_iff_eq] at hc
  rcases hc with ((rfl | rfl) | rfl) | rfl
  · exact pure ⟨by decide, fun given _ => ⟨rfl, fun _ => rfl⟩⟩
  · exact pure ⟨by decide, fun given _ => ⟨rfl, fun _ => rfl⟩⟩
  · refine pure ⟨by decide, ?_⟩
    rintro _ ⟨⟩
    exact ⟨rfl, fun hne => absurd rfl hne⟩
  · refine readCounts.mono fun counts taken h => ⟨by simp [h.1], ?_⟩
    rintro given rfl
    exact ⟨List.any_eq_true.2 ⟨_, List.mem_cons_of_mem _ (h.2 rfl), rfl⟩, fun _ => rfl⟩

/-- No sign behind a quantifier is a closing parenthesis. -/
theorem readGreed : Takes (fun _ taken => ')' ∉ taken) Pattern.readGreed := by
  refine (accept '?').bind fun lazy mark hmark => ite (fun _ => pure ?_) fun hlazy => ?_
  · rw [hmark]
    split <;> decide
  · obtain rfl : mark = [] := by rw [hmark, if_neg hlazy]
    refine (accept '+').bind fun possessive sign hsign => ?_
    have hquiet : ')' ∉ sign := by
      rw [hsign]
      split <;> decide
    exact ite (fun _ => pure (by simpa using hquiet)) fun _ => pure (by simpa using hquiet)

/-- What is repeated is the item before the quantifier. -/
theorem repeatItem (start : Nat) (counts : Counts) (item : Option Tree) :
    Takes (fun tree taken => ')' ∉ taken ∧ ∃ repeated greed, item = some repeated ∧
        tree = .repeated counts.least counts.most greed repeated)
      (Pattern.repeatItem start counts item) := by
  unfold Pattern.repeatItem
  split
  · exact failAt
  · exact failAt
  · exact failAt
  · refine readGreed.bind fun greed taken h => pure ⟨by simpa using h, _, greed, rfl, rfl⟩

/-! ## Names and openings -/

/-- No name has a closing parenthesis. -/
theorem notMem_of_isName {name : List Char} (h : Unicode.isName name = true) : ')' ∉ name := by
  cases name with
  | nil => simp
  | cons first rest =>
    rw [Unicode.isName, Bool.and_eq_true, List.all_eq_true] at h
    intro hmem
    rcases List.mem_cons.1 hmem with hmem | hmem
    · rw [← hmem] at h
      exact absurd h.1 (by decide)
    · exact absurd (h.2 _ hmem) (by decide)

/-- A comment in a group takes some text. -/
theorem skipComment (start fuel : Nat) :
    Takes (fun _ _ => True) (Pattern.skipComment start fuel) := by
  induction fuel with
  | zero => exact failAt
  | succ fuel ih =>
    rw [Pattern.skipComment]
    refine peek.bind_of_nil fun token => ?_
    split
    · exact failAt
    · exact next.bind fun _ _ _ => ite (fun _ => pure trivial) fun _ => ih.mono fun _ _ h => h

/-- So does a comment up to the end of the line. -/
theorem skipLine (fuel : Nat) : Takes (fun _ _ => True) (Pattern.skipLine fuel) := by
  induction fuel with
  | zero => exact pure trivial
  | succ fuel ih =>
    rw [Pattern.skipLine]
    refine next.bind fun token _ _ => ?_
    split
    · exact pure trivial
    · exact ite (fun _ => pure trivial) fun _ => ih.mono fun _ _ h => h

/-- So does a condition. -/
theorem readCondition : Takes (fun _ _ => True) Pattern.readCondition := by
  refine (name _ _).bind fun chars taken _ => ite (fun _ => (groupNamed _).mono fun _ _ _ => trivial)
    fun _ => ?_
  dsimp only
  split
  · exact failBack
  · refine ite (fun _ => failBack) fun _ => ite (fun _ => failBack) fun _ => ite (fun _ => failBack)
      fun _ => ?_
    exact get_bind fun _ => (noteCondition _ _).bind_of_nil fun _ => pure trivial

/-- A reference by name is written with a closing parenthesis. -/
theorem namedReference :
    Takes (fun item _ => item.isPlain = true ∧ item.closes = true) Pattern.namedReference := by
  refine (name _ _).bind fun chars _ _ => (checkName _).bind fun _ _ _ =>
    (groupNamed _).bind_of_nil fun index => get_bind fun _ => ite (fun _ => failBack) fun _ => ?_
  exact (checkLookBehind _).bind_of_nil fun _ => pure ⟨rfl, rfl⟩

/-- The name of a group has no closing parenthesis. -/
theorem readNamedOpening :
    Takes (fun opening taken => opening.Shows ('?' :: 'P' :: taken)) Pattern.readNamedOpening := by
  refine (accept '<').bind fun named sign hsign => ite (fun hnamed => ?_) fun _ => ?_
  · refine (name _ _).bind fun chars taken htaken => (checkName _).bind fun _ none hnone => pure ?_
    obtain ⟨rfl, hname⟩ := hnone
    have hquiet : ')' ∉ taken := by
      intro hmem
      rcases htaken _ hmem with hmem | hmem
      · exact notMem_of_isName hname hmem
      · cases hmem
    rw [hsign, if_pos hnamed]
    simpa [Opening.Shows] using hquiet
  · refine (accept '=').bind fun _ _ _ => ite (fun _ => ?_) fun _ => next.bind fun token _ _ => ?_
    · exact namedReference.bind fun item _ h => pure h
    · split
      · exact failBack
      · exact failBack

/-- The sign of a look-behind shows that one is opened. -/
theorem readLookBehind :
    Takes (fun opening taken => opening.Shows ('?' :: '<' :: taken)) Pattern.readLookBehind := by
  refine next.bind fun token taken htaken => ?_
  subst htaken
  split
  · exact failBack
  · exact pure (by simp [Opening.Shows, Token.chars])
  · exact pure (by simp [Opening.Shows, Token.chars])
  · exact failBack

/-- What is taken behind an opening parenthesis. -/
theorem readOpening (start : Nat) : Takes Opening.Shows (Pattern.readOpening start) := by
  refine (accept '?').bind fun found mark hmark => ite (fun hplain => pure ?_) fun hfound => ?_
  · rw [hmark, if_neg (by simpa using hplain)]
    exact List.not_mem_nil
  obtain rfl : mark = ['?'] := by rw [hmark, if_pos (by simpa using hfound)]
  refine next.bind fun token text htext => ?_
  subst htext
  split
  · exact failBack
  · exact readNamedOpening
  · exact pure (by simp [Opening.Shows, Token.chars])
  · exact get_bind fun _ => (skipComment _ _).bind fun _ _ _ => pure (by simp [Opening.Shows, Token.chars])
  · exact pure (by simp [Opening.Shows, Token.chars])
  · exact pure (by simp [Opening.Shows, Token.chars])
  · exact readLookBehind
  · exact pure trivial
  · exact pure (by simp [Opening.Shows, Token.chars])
  · rename_i token _ _ _ _ _ _ _ _
    refine ite (fun _ => (readFlags token).bind fun given taken h => ?_) fun _ => failBack
    cases given with
    | none => exact pure trivial
    | some given => exact pure (by simpa [Opening.Shows] using h rfl)

/-- A call takes no text. -/
theorem enter (calls : Nat) : Takes (fun _ taken => taken = []) (Pattern.enter calls) := by
  cases calls with
  | zero => rintro _ _ _ ⟨⟩
  | succ left => exact pure rfl

/-- A closing parenthesis is taken, and nothing else. -/
theorem closing (start : Nat) : Takes (fun _ taken => taken = [')']) (Pattern.closing start) := by
  refine (accept ')').bind fun found taken htaken => ite (fun _ => failAt) fun hfound => pure ?_
  rw [htaken, if_pos (by simpa using hfound)]
  rfl

end Takes

end BinaryStrings.Pattern
