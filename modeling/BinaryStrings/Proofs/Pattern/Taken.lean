import BinaryStrings.Pattern.Merge
import BinaryStrings.Pattern.Parser
import BinaryStrings.Proofs.Pattern.Reading

/-!
# The text that readers take

A reader takes a first part of the text that is left.  Most readers take no closing parenthesis, and if
the reader of an escape or of a class does, this can be seen in what it has read: the parenthesis stands
for itself, alone or in the class.

Main results:

- Theorem `Takes.bind`: what two readers take one behind the other.
- Theorem `TakesAt.next_bind`: the token that comes next is taken.
- Theorem `Takes.escapeOutside`: an escaped closing parenthesis stands for itself.
- Theorem `Takes.readClass`: so does one in a class, or a range starts or ends with it.
-/

namespace BinaryStrings.Pattern

/-- Whatever a reader reads, it takes a first part of the text for it, and the two are related. -/
def Takes {α : Type} (P : α → List Char → Prop) (r : Reading α) : Prop :=
  ∀ ⦃c a c'⦄, r c = .ok (a, c') → ∃ taken, c.rest = taken ++ c'.rest ∧ P a taken

/-- This holds where the text starts with a token, or is at its end. -/
def TakesAt {α : Type} (token : Option Token) (P : α → List Char → Prop) (r : Reading α) : Prop :=
  ∀ ⦃c a c'⦄, Reading.firstToken? c.rest = token → r c = .ok (a, c') →
    ∃ taken, c.rest = taken ++ c'.rest ∧ P a taken

/-! ## Closing parentheses that can be seen -/

/-- Whether an item of a class is the closing parenthesis, or a range that starts or ends with it. -/
def ClassItem.closes : ClassItem → Bool
  | .point n => n == 0x29
  | .range first last => first == 0x29 || last == 0x29
  | .named _ _ => false

/-- Whether a pattern is, or may be, written with a closing parenthesis, apart from those in its
parts. -/
def Tree.closes : Tree → Bool
  | .point n | .notPoint n => n == 0x29
  | .oneOf _ items => items.any ClassItem.closes
  | .backReference _ | .group _ _ _ _ | .atomic _ | .look _ _ _ | .conditional _ _ _ => true
  | _ => false

/-- What the text behind some items of a class shows: a closing parenthesis is that of one of the items in
the end, which has the first ones among them. -/
structure ClassShows (read items : List ClassItem) (taken : List Char) : Prop where
  keeps : ∀ item ∈ read, item ∈ items
  closes : ')' ∈ taken → ∃ item ∈ items, item.closes = true

/-- One more item was read, from a text of its own. -/
theorem ClassShows.of_cons {read items : List ClassItem} {item : ClassItem} {own taken : List Char}
    (h : ClassShows (item :: read) items taken) (hown : ')' ∈ own → item.closes = true) :
    ClassShows read items (own ++ taken) where
  keeps := fun other hother => h.keeps other (List.mem_cons_of_mem _ hother)
  closes := by
    intro hmem
    rcases List.mem_append.1 hmem with hmem | hmem
    · exact ⟨item, h.keeps item List.mem_cons_self, hown hmem⟩
    · exact h.closes hmem

namespace Takes

variable {α β : Type} {P Q : α → List Char → Prop} {R : β → List Char → Prop} {r r' : Reading α}

/-- What is known of the text that is taken may be weakened. -/
theorem mono (h : Takes P r) (hPQ : ∀ a taken, P a taken → Q a taken) : Takes Q r := by
  intro c a c' hread
  obtain ⟨taken, hrest, hP⟩ := h hread
  exact ⟨taken, hrest, hPQ a taken hP⟩

/-- A reader that reads nothing takes nothing. -/
theorem pure {a : α} (h : P a []) : Takes P (Pure.pure a) := by
  rintro c _ _ ⟨⟩
  exact ⟨[], rfl, h⟩

/-- A text that is refused is not taken. -/
theorem failBack {kind : Mistake} {back : Nat} : Takes P (Reading.failBack kind back) :=
  fun _ _ _ hread => absurd hread (Reading.failBack_ne_ok _ _ _)

/-- Nor is one that is refused at a position. -/
theorem failAt {kind : Mistake} {position : Nat} : Takes P (Reading.failAt kind position) :=
  fun _ _ _ hread => absurd hread (Reading.failAt_ne_ok _ _ _)

/-- What is taken by two readers is one part behind the other. -/
theorem bind (hr : Takes P r) {k : α → Reading β}
    (hk : ∀ a taken, P a taken → Takes (fun b more => R b (taken ++ more)) (k a)) :
    Takes R (r >>= k) := by
  intro c b c' hread
  obtain ⟨a, c₁, hfirst, hsecond⟩ := Reading.bind_eq_ok.1 hread
  obtain ⟨taken, hrest, hP⟩ := hr hfirst
  obtain ⟨more, hrest₁, hR⟩ := hk a taken hP hsecond
  exact ⟨taken ++ more, by rw [hrest, hrest₁, List.append_assoc], hR⟩

/-- A reader may depend on where it stands. -/
theorem get_bind {k : Cursor → Reading β} (hk : ∀ c, Takes R (k c)) : Takes R (get >>= k) :=
  fun c _ _ hread => hk c hread

/-- Whatever is noted, no text is taken. -/
theorem update {f : Cursor → Cursor} (hf : ∀ c : Cursor, (f c).rest = c.rest) :
    Takes (fun _ taken => taken = []) (modify f : Reading Unit) := by
  rintro c _ _ ⟨⟩
  exact ⟨[], (hf c).symm, rfl⟩

/-- A choice between two readers. -/
theorem ite {p : Prop} [Decidable p] (hr : p → Takes P r) (hr' : ¬p → Takes P r') :
    Takes P (if p then r else r') := by
  split
  · exact hr ‹_›
  · exact hr' ‹_›

/-- What is read behind a reader that takes nothing. -/
theorem bind_of_nil (hr : Takes (fun _ taken => taken = []) r) {k : α → Reading β}
    (hk : ∀ a, Takes R (k a)) : Takes R (r >>= k) := by
  refine hr.bind fun a taken htaken => ?_
  subst htaken
  exact hk a

/-! ### Tokens -/

/-- To look at a token is not to take it. -/
theorem peek : Takes (fun _ taken => taken = []) Reading.peek := by
  intro c a c' hread
  rw [Reading.peek_run] at hread
  cases hread
  exact ⟨[], rfl, rfl⟩

/-- What is read by the token that comes next. -/
theorem peek_bind {k : Option Token → Reading β} (hk : ∀ token, TakesAt token R (k token)) :
    Takes R (Reading.peek >>= k) := by
  intro c b c' hread
  rw [Reading.bind_of_ok (Reading.peek_run c)] at hread
  exact hk _ rfl hread

/-- A token that comes next is the first part of the text. -/
theorem eq_append_of_firstToken? {rest : List Char} {token : Token}
    (h : Reading.firstToken? rest = some token) : rest = token.chars ++ rest.drop token.length := by
  unfold Reading.firstToken? at h
  split at h <;> cases h <;> rfl

/-- A token is taken as it stands. -/
theorem next : Takes (fun token taken => taken = token.elim [] Token.chars) Reading.next := by
  intro c a c' hread
  rw [Reading.next_run] at hread
  split at hread
  · cases hread
    exact ⟨[], rfl, rfl⟩
  · rename_i token htoken
    split at hread
    · cases hread
    · cases hread
      exact ⟨token.chars, eq_append_of_firstToken? htoken, rfl⟩

/-- With each token the text that is left gets shorter. -/
theorem next_some {token : Token} {c c' : Cursor} (h : Reading.next c = .ok (some token, c')) :
    c.rest = token.chars ++ c'.rest ∧ c'.rest.length < c.rest.length := by
  obtain ⟨taken, hrest, htaken⟩ := next h
  obtain rfl : taken = token.chars := htaken
  refine ⟨hrest, ?_⟩
  have hpos : 0 < token.chars.length := token.length_pos
  rw [hrest, List.length_append]
  omega

/-- What cannot go on without a token takes one. -/
theorem exists_token {k : Option Token → Reading β} {read : β × Cursor}
    (hnone : ∀ c₁, k none c₁ ≠ .ok read) (h : (Reading.next >>= k) c = .ok read) :
    ∃ token c₁, c.rest = token.chars ++ c₁.rest ∧ c₁.rest.length < c.rest.length ∧
      k (some token) c₁ = .ok read := by
  obtain ⟨found, c₁, hnext, hread⟩ := Reading.bind_eq_ok.1 h
  cases found with
  | none => exact absurd hread (hnone c₁)
  | some token =>
    obtain ⟨hrest, hlength⟩ := next_some hnext
    exact ⟨token, c₁, hrest, hlength, hread⟩

/-- A character is taken if it is there. -/
theorem accept (ch : Char) :
    Takes (fun found taken => taken = if found then [ch] else []) (Reading.accept ch) := by
  intro c found c' hread
  cases found with
  | true => exact ⟨[ch], Reading.accept_true hread, rfl⟩
  | false =>
    rw [Reading.accept_false hread]
    exact ⟨[], rfl, rfl⟩

end Takes

namespace TakesAt

variable {α β : Type} {P : α → List Char → Prop} {R : β → List Char → Prop} {r r' : Reading α}

/-- What is taken everywhere is taken before a certain token. -/
theorem of_takes {token : Option Token} (h : Takes P r) : TakesAt token P r :=
  fun _ _ _ _ hread => h hread

/-- A choice between two readers. -/
theorem ite {token : Option Token} {p : Prop} [Decidable p] (hr : p → TakesAt token P r)
    (hr' : ¬p → TakesAt token P r') : TakesAt token P (if p then r else r') := by
  split
  · exact hr ‹_›
  · exact hr' ‹_›

/-- The token that comes next is taken. -/
theorem next_bind {token : Token} {k : Option Token → Reading β}
    (hk : Takes (fun b more => R b (token.chars ++ more)) (k (some token))) :
    TakesAt (some token) R (Reading.next >>= k) := by
  intro c b c' htoken hread
  obtain ⟨found, c₁, hnext, hread⟩ := Reading.bind_eq_ok.1 hread
  obtain ⟨taken, hrest, htaken⟩ := Takes.next hnext
  subst htaken
  have hfound : found = some token := by
    rw [Reading.next_run, htoken] at hnext
    dsimp only at hnext
    split at hnext
    · cases hnext
    · cases hnext
      rfl
  subst hfound
  obtain ⟨more, hmore, hR⟩ := hk hread
  exact ⟨token.chars ++ more, by rw [hrest, hmore, List.append_assoc]; rfl, hR⟩

end TakesAt

namespace Takes

variable {α β : Type} {P Q : α → List Char → Prop} {R : β → List Char → Prop} {r r' : Reading α}

/-- Characters that pass a test are taken as they stand. -/
theorem takeWhile (test : Char → Bool) (most : Nat) :
    Takes (fun read taken => taken = read ∧ ∀ ch ∈ read, test ch = true)
      (Reading.takeWhile test most) := by
  have hnone : Takes (fun read taken => taken = read ∧ ∀ ch ∈ read, test ch = true)
      (Pure.pure [] : Reading (List Char)) := pure ⟨rfl, by simp⟩
  induction most with
  | zero => exact hnone
  | succ most ih =>
    rw [Reading.takeWhile]
    refine peek_bind fun token => ?_
    split
    · rename_i ch
      refine .ite (fun htest => .next_bind (ih.bind fun more taken h => pure ?_)) fun _ => ?_
      · exact ⟨by simp [Token.chars, h.1], List.forall_mem_cons.2 ⟨htest, h.2⟩⟩
      · exact .of_takes hnone
    · exact .of_takes hnone

/-- No closing parenthesis is among characters that pass a test if it does not. -/
theorem takeWhile_notMem {test : Char → Bool} (htest : test ')' = false) (most : Nat) :
    Takes (fun _ taken => ')' ∉ taken) (Reading.takeWhile test most) := by
  refine (takeWhile test most).mono fun read taken h hmem => ?_
  rw [h.2 ')' (h.1 ▸ hmem)] at htest
  cases htest

/-- Everything that is taken for a name is in it or closes it. -/
theorem nameUpTo (closing : Char) (what : String) (fuel : Nat) (read : List Char) :
    Takes (fun name taken => (∀ ch ∈ read, ch ∈ name) ∧ ∀ ch ∈ taken, ch ∈ name ∨ ch = closing)
      (Reading.nameUpTo closing what fuel read) := by
  induction fuel generalizing read with
  | zero => exact pure ⟨fun _ h => h, by simp⟩
  | succ fuel ih =>
    rw [Reading.nameUpTo]
    refine next.bind fun token taken htaken => ?_
    subst htaken
    split
    · exact ite (fun _ => failBack) fun _ => failBack
    · rename_i token
      refine ite (fun hclosing => ite (fun _ => failBack) fun _ => pure ⟨fun _ h => h, ?_⟩)
        fun _ => (ih _).mono fun name taken h => ⟨fun ch hch => h.1 ch (by simp [hch]), ?_⟩
      · rw [eq_of_beq hclosing]
        simp [Token.chars]
      · intro ch hch
        rcases List.mem_append.1 hch with hch | hch
        · exact .inl (h.1 ch (by simpa using .inr hch))
        · exact h.2 ch hch

/-- Everything that is taken for a name is in it or closes it, which is so for a whole name too. -/
theorem name (closing : Char) (what : String) :
    Takes (fun name taken => ∀ ch ∈ taken, ch ∈ name ∨ ch = closing) (Reading.name closing what) :=
  get_bind fun _ => (nameUpTo _ _ _ _).mono fun _ _ h => h.2

/-! ### Groups that are known -/

/-- To check a reference takes no text. -/
theorem checkLookBehind (index : Nat) :
    Takes (fun _ taken => taken = []) (Reading.checkLookBehind index) := by
  refine get_bind fun c => ?_
  split
  · exact pure rfl
  · exact ite (fun _ => failBack) fun _ => ite (fun _ => failBack) fun _ => pure rfl

/-- To open a group takes no text; its name was taken before. -/
theorem openGroup (name : Option (List Char)) :
    Takes (fun _ taken => taken = []) (Reading.openGroup name) := by
  intro c index c' hread
  unfold Reading.openGroup at hread
  rw [Reading.get_bind_run] at hread
  cases name with
  | none =>
    cases hread
    exact ⟨[], rfl, rfl⟩
  | some chars =>
    dsimp only at hread
    cases hknown : c.names.lookup (String.ofList chars) with
    | some known =>
      rw [hknown] at hread
      obtain ⟨_, _, hfail, _⟩ := Reading.bind_eq_ok.1 hread
      exact absurd hfail (Reading.failBack_ne_ok _ _ _)
    | none =>
      rw [hknown] at hread
      cases hread
      exact ⟨[], rfl, rfl⟩

/-- To close it takes none either. -/
theorem closeGroup (index : Nat) : Takes (fun _ taken => taken = []) (Reading.closeGroup index) :=
  update fun _ => rfl

/-- Nor does what a look-behind notes. -/
theorem setGroupsBefore (f : Cursor → Option Nat) : Takes (fun _ taken => taken = [])
    (modify fun cursor => { cursor with groupsBefore := f cursor } : Reading Unit) :=
  update fun _ => rfl

/-- Nor does finding a group by its name. -/
theorem groupNamed (chars : List Char) :
    Takes (fun _ taken => taken = []) (Reading.groupNamed chars) := by
  refine get_bind fun c => ?_
  split
  · exact pure rfl
  · exact failBack

/-- To check a name takes no text, and a name passes. -/
theorem checkName (chars : List Char) :
    Takes (fun _ taken => taken = [] ∧ Unicode.isName chars = true) (Reading.checkName chars) :=
  ite (fun _ => failBack) fun h => pure ⟨rfl, by simpa using h⟩

/-- To note a condition takes no text. -/
theorem noteCondition (index position : Nat) :
    Takes (fun _ taken => taken = []) (Reading.noteCondition index position) := by
  refine update fun c => ?_
  split <;> rfl

/-! ### Escapes -/

/-- Hexadecimal digits are no closing parentheses. -/
theorem hexEscape (c : Char) (size : Nat) :
    Takes (fun _ taken => ')' ∉ taken) (Pattern.hexEscape c size) := by
  refine (takeWhile_notMem (by decide) _).bind fun digits taken h => ?_
  exact ite (fun _ => failBack) fun _ => ite (fun _ => failBack) fun _ => pure (by simpa using h)

/-- No character has a name with a closing parenthesis. -/
theorem namedEscape : Takes (fun _ taken => ')' ∉ taken) Pattern.namedEscape := by
  refine (accept _).bind fun found brace hbrace => ite (fun _ => failBack) fun _ =>
    (name _ _).bind fun chars taken htaken => get_bind fun c => ?_
  split
  · rename_i known hknown
    have hchars : ')' ∉ chars := fun hmem => by
      have hname := c.characters.isInNames_of_find? hknown ')' (by rwa [String.toList_ofList])
      exact absurd hname (by decide)
    have hmore : ')' ∉ taken := fun hmem => (htaken ')' hmem).elim hchars (by decide)
    exact pure (by cases found <;> simp [hbrace, hmore])
  · exact failBack

/-- The digits of an octal escape were taken before. -/
theorem octalEscape (c : Char) (digits : List Char) :
    Takes (fun _ taken => taken = []) (Pattern.octalEscape c digits) :=
  ite (fun _ => failBack) fun _ => pure rfl

/-- The closing parenthesis stands for itself. -/
theorem commonEscape (c : Char) :
    Takes (fun n taken => ')' ∉ taken ∧ (c = ')' → n = 0x29)) (Pattern.commonEscape c) := by
  have hhex : ∀ {ch : Char} (size : Nat), (c == ch) = true → ch ≠ ')' →
      Takes (fun n taken => ')' ∉ taken ∧ (c = ')' → n = 0x29)) (Pattern.hexEscape c size) := by
    intro ch size hc hch
    refine (hexEscape c size).mono fun n taken h => ⟨h, fun hclosing => ?_⟩
    exact absurd ((eq_of_beq hc).symm.trans hclosing) hch
  have hnamed (hc : (c == 'N') = true) :
      Takes (fun n taken => ')' ∉ taken ∧ (c = ')' → n = 0x29)) Pattern.namedEscape := by
    refine namedEscape.mono fun n taken h => ⟨h, fun hclosing => ?_⟩
    exact absurd ((eq_of_beq hc).symm.trans hclosing) (by decide)
  refine ite (fun hc => hhex 2 hc (by decide)) fun _ => ite (fun hc => hhex 4 hc (by decide)) fun _ =>
    ite (fun hc => hhex 8 hc (by decide)) fun _ => ite hnamed fun _ =>
      ite (fun _ => failBack) fun _ => pure ⟨by simp, ?_⟩
  rintro rfl
  rfl

/-- No closing parenthesis is behind another character, if none is taken. -/
theorem closes_of_ne {c : Char} (hc : c ≠ ')') {taken : List Char} (htaken : ')' ∉ taken) {p : Prop}
    (hmem : ')' ∈ c :: taken) : p := by
  rcases List.mem_cons.1 hmem with hmem | hmem
  · exact absurd hmem.symm hc
  · exact absurd hmem htaken

/-- An escaped closing parenthesis in a class stands for itself. -/
theorem escapeInClass (c : Char) :
    Takes (fun item taken => ')' ∈ c :: taken → item.closes = true) (Pattern.escapeInClass c) := by
  by_cases hc : c = ')'
  · subst hc
    refine (commonEscape ')').bind fun n taken h => pure fun _ => ?_
    rw [h.2 rfl]
    rfl
  · unfold Pattern.escapeInClass
    split
    · exact pure (closes_of_ne hc (by simp))
    · exact pure (closes_of_ne hc (by simp))
    · refine ite (fun _ => ?_) fun _ => ?_
      · refine (takeWhile_notMem (by decide) _).bind fun digits taken h => ?_
        refine (octalEscape c digits).bind_of_nil fun n => pure ?_
        exact closes_of_ne hc (by simpa using h)
      · refine (commonEscape c).bind fun n taken h => pure ?_
        exact closes_of_ne hc (by simpa using h.1)

/-- The digits of a reference were taken before. -/
theorem reference (c : Char) (digits : List Char) :
    Takes (fun tree taken => tree.isPlain = true ∧ taken = []) (Pattern.reference c digits) :=
  get_bind fun _ => ite (fun _ => failBack) fun _ => ite (fun _ => failBack) fun _ =>
    (checkLookBehind _).bind_of_nil fun _ => pure ⟨rfl, rfl⟩

/-- Digits are no closing parentheses. -/
theorem numberEscape (c : Char) :
    Takes (fun tree taken => tree.isPlain = true ∧ ')' ∉ taken) (Pattern.numberEscape c) := by
  have hreference : ∀ {taken : List Char} (digits : List Char), ')' ∉ taken →
      Takes (fun tree more => tree.isPlain = true ∧ ')' ∉ taken ++ more)
        (Pattern.reference c digits) := by
    intro taken digits htaken
    refine (reference c digits).mono fun tree more h => ⟨h.1, ?_⟩
    rwa [h.2, List.append_nil]
  refine (takeWhile_notMem (by decide) _).bind fun digits taken htaken => ?_
  split
  · exact hreference [] htaken
  · refine ite (fun _ => ?_) fun _ => hreference digits htaken
    refine (takeWhile_notMem (by decide) _).bind fun third more hmore => ?_
    have hboth : ')' ∉ taken ++ more := by simp [htaken, hmore]
    split
    · simpa only [List.append_assoc] using hreference digits hboth
    · exact (octalEscape _ _).bind_of_nil fun n => pure ⟨rfl, by simpa using hboth⟩

/-- An escaped closing parenthesis outside of a class stands for itself. -/
theorem escapeOutside (c : Char) :
    Takes (fun tree taken => tree.isPlain = true ∧ (')' ∈ c :: taken → tree.closes = true))
      (Pattern.escapeOutside c) := by
  by_cases hc : c = ')'
  · subst hc
    refine (commonEscape ')').bind fun n taken h => pure ⟨rfl, fun _ => ?_⟩
    rw [h.2 rfl]
    rfl
  · unfold Pattern.escapeOutside
    split
    · exact pure ⟨rfl, closes_of_ne hc (by simp)⟩
    · exact pure ⟨rfl, closes_of_ne hc (by simp)⟩
    · exact pure ⟨rfl, closes_of_ne hc (by simp)⟩
    · refine ite (fun _ => ?_) fun _ => ite (fun _ => ?_) fun _ => ?_
      · refine (takeWhile_notMem (by decide) _).bind fun digits taken h => pure ⟨rfl, ?_⟩
        exact closes_of_ne hc (by simpa using h)
      · exact (numberEscape c).mono fun tree taken h => ⟨h.1, closes_of_ne hc h.2⟩
      · refine (commonEscape c).bind fun n taken h => pure ⟨rfl, ?_⟩
        exact closes_of_ne hc (by simpa using h.1)

/-! ### Classes -/

/-- A closing parenthesis as an item of a class stands for itself. -/
theorem itemOf (token : Token) :
    Takes (fun item taken => ')' ∈ token.chars ++ taken → item.closes = true)
      (Pattern.itemOf token) := by
  cases token with
  | char c =>
    refine pure fun hmem => ?_
    rw [List.append_nil, Token.chars, List.mem_singleton] at hmem
    subst hmem
    rfl
  | escape c =>
    exact (escapeInClass c).mono fun item taken h hmem => h (by simpa [Token.chars] using hmem)

/-- A range is written with a closing parenthesis if it starts or ends with one. -/
theorem rangeOf (first last : Token) (low high : ClassItem) :
    Takes (fun range taken => taken = [] ∧ (low.closes || high.closes) = range.closes)
      (Pattern.rangeOf first last low high) := by
  unfold Pattern.rangeOf
  split
  · exact ite (fun _ => failBack) fun _ => pure ⟨rfl, rfl⟩
  · exact failBack

/-- A closing parenthesis in a class stands for itself, or a range starts or ends with it. -/
theorem classItems (start fuel : Nat) (read : List ClassItem) :
    Takes (ClassShows read) (Pattern.classItems start fuel read) := by
  induction fuel generalizing read with
  | zero => exact failAt
  | succ fuel ih =>
    rw [Pattern.classItems]
    refine next.bind fun token taken htaken => ?_
    subst htaken
    split
    · exact failAt
    · rename_i token
      refine ite (fun hend => ?_) fun _ => ?_
      · refine pure ⟨fun item hitem => by simpa using hitem, ?_⟩
        rw [Bool.and_eq_true] at hend
        rw [eq_of_beq hend.1]
        simp [Token.chars]
      refine (itemOf token).bind fun item more hitem => ?_
      refine (accept '-').bind fun found hyphen hfound => ?_
      cases found with
      | false =>
        obtain rfl : hyphen = [] := hfound
        refine (ih (item :: read)).mono fun items taken h => ?_
        simpa using h.of_cons hitem
      | true =>
        obtain rfl : hyphen = ['-'] := hfound
        refine next.bind fun last text htext => ?_
        subst htext
        cases last with
        | none => exact failAt
        | some last =>
          refine ite (fun hend => pure ⟨fun other hother => by simp [hother], fun hmem => ?_⟩) fun _ => ?_
          · rw [eq_of_beq hend] at hmem
            exact ⟨item, by simp, hitem (by simpa [Token.chars] using hmem)⟩
          refine (itemOf last).bind fun high rest hhigh => ?_
          refine (rangeOf _ _ _ _).bind fun range none hnone => ?_
          obtain ⟨rfl, hcloses⟩ := hnone
          have hrange : ')' ∈ token.chars ++ more ++ '-' :: (last.chars ++ rest) → range.closes = true := by
            intro hmem
            rw [← hcloses, Bool.or_eq_true]
            rcases List.mem_append.1 hmem with hmem | hmem
            · exact .inl (hitem hmem)
            · exact .inr (hhigh ((List.mem_cons.1 hmem).resolve_left (by decide)))
          refine (ih (range :: read)).mono fun items taken h => ?_
          simpa using h.of_cons hrange

/-- A closing parenthesis in a class is one of its items, or a range starts or ends with it. -/
theorem readClass (start : Nat) :
    Takes (fun tree taken => tree.isPlain = true ∧ (')' ∈ taken → tree.closes = true))
      (Pattern.readClass start) := by
  refine (accept '^').bind fun negated sign hsign => get_bind fun c => ?_
  refine (classItems _ _ _).bind fun items taken h => ?_
  have hsign : ')' ∉ sign := by
    rw [hsign]
    split <;> decide
  have hitems : ')' ∈ sign ++ (taken ++ []) → ∃ item ∈ items.eraseDups, item.closes = true := by
    intro hmem
    obtain ⟨item, hitem, hcloses⟩ := h.closes (by simpa [hsign] using hmem)
    exact ⟨item, List.mem_eraseDups.2 hitem, hcloses⟩
  split
  · rename_i n heq
    rw [heq] at hitems
    refine pure ⟨by split <;> rfl, fun hmem => ?_⟩
    obtain ⟨item, hitem, hcloses⟩ := hitems hmem
    rw [List.mem_singleton.1 hitem] at hcloses
    split <;> exact hcloses
  · exact pure ⟨rfl, fun hmem => List.any_eq_true.2 (hitems hmem)⟩

end Takes

end BinaryStrings.Pattern
