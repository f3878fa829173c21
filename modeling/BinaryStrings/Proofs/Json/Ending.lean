import BinaryStrings.Proofs.Json.RoundTrip
import Mathlib.Data.List.TakeWhile

/-!
# Where values end

The reader stops behind a quotation mark, a closing bracket, a digit or a letter.  So a text that ends in
another character, blanks aside, is no JSON value.

Main results:

- Theorem `endsAt_read`: what is left behind a value begins behind one of these characters.
- Theorem `read_ne_ok`: texts that are no value because of their end.
-/

namespace BinaryStrings.Json

/-- Whether a character can be the last one of a value. -/
def endsValue (c : Char) : Bool :=
  c == '"' || c == ']' || c == '}' || c.isAlphanum

/-- What is left of a text begins behind the end of a value. -/
def EndsAt (text rest : List Char) : Prop :=
  ∃ c, endsValue c = true ∧ c :: rest <:+ text

variable {text rest whole : List Char}

/-- What is left is a last part of the text. -/
theorem EndsAt.suffix (h : EndsAt text rest) : rest <:+ text := by
  obtain ⟨c, -, hsuffix⟩ := h
  exact (List.suffix_cons c rest).trans hsuffix

/-- What is left of a last part of a text is left of the text. -/
theorem EndsAt.of_suffix (h : EndsAt text rest) (hwhole : text <:+ whole) : EndsAt whole rest := by
  obtain ⟨c, hc, hsuffix⟩ := h
  exact ⟨c, hc, hsuffix.trans hwhole⟩

/-- A character in front does not change what is left. -/
theorem EndsAt.cons (h : EndsAt text rest) (c : Char) : EndsAt (c :: text) rest :=
  h.of_suffix (List.suffix_cons c text)

/-- Behind a value another one may end, or nothing may come. -/
theorem EndsAt.trans (h : EndsAt whole text) (hrest : rest = text ∨ EndsAt text rest) :
    EndsAt whole rest := by
  rcases hrest with rfl | hrest
  · exact h
  · exact hrest.of_suffix h.suffix

/-- What is left behind space is a last part of the text. -/
theorem skipSpace_suffix (text : List Char) : skipSpace text <:+ text :=
  List.dropWhile_suffix _

/-! ## Strings -/

/-- So is what is left behind four hexadecimal digits. -/
theorem fourDigits?_suffix {n : Nat} (h : fourDigits? text = some (n, rest)) : rest <:+ text := by
  unfold fourDigits? at h
  split at h
  · split at h
    · cases h
      exact ⟨[_, _, _, _], rfl⟩
    · cases h
  · cases h

/-- A string ends with a quotation mark. -/
theorem readString_suffix {left fuel : Nat} {read : List Char} {value : String}
    (h : readString left fuel read text = .ok (value, rest)) : '"' :: rest <:+ text := by
  induction fuel generalizing read text with
  | zero => cases h
  | succ fuel ih =>
    unfold readString at h
    split at h
    · cases h
    · cases h
      exact List.suffix_rfl
    · rename_i more
      have hmore : more <:+ '\\' :: 'u' :: more := ⟨['\\', 'u'], rfl⟩
      split at h
      · cases h
      · rename_i high more' hhigh
        have hhigh := fourDigits?_suffix hhigh
        split at h
        · split at h
          · cases h
          · rename_i low more'' hlow
            have hpair : more'' <:+ '\\' :: 'u' :: more :=
              (fourDigits?_suffix hlow).trans (((show more' <:+ '\\' :: 'u' :: more' from
                ⟨['\\', 'u'], rfl⟩).trans hhigh).trans hmore)
            split at h
            · exact (ih h).trans hpair
            · exact (ih h).trans (hhigh.trans hmore)
        · exact (ih h).trans (hhigh.trans hmore)
      · rename_i hdigits
        exact (ih h).trans ((fourDigits?_suffix hdigits).trans hmore)
    · cases h
    · split at h
      · exact (ih h).trans ⟨[_, _], rfl⟩
      · cases h
    · split at h
      · cases h
      · exact (ih h).trans (List.suffix_cons _ _)

/-! ## Numbers and names -/

/-- A digit can be the last character of a value. -/
theorem endsValue_of_isDigit {c : Char} (hc : c.isDigit = true) : endsValue c = true := by
  simp [endsValue, Char.isAlphanum, hc]

/-- Digits end with a digit. -/
theorem endsAt_dropWhile {c : Char} (hc : c.isDigit = true) (more : List Char) :
    EndsAt (c :: more) ((c :: more).dropWhile Char.isDigit) := by
  induction more generalizing c with
  | nil => exact ⟨c, endsValue_of_isDigit hc, by simp [hc]⟩
  | cons d more ih =>
    rw [List.dropWhile_cons_of_pos hc]
    by_cases hd : d.isDigit = true
    · exact (ih hd).cons c
    · rw [List.dropWhile_cons_of_neg hd]
      exact ⟨c, endsValue_of_isDigit hc, List.suffix_rfl⟩

/-- So does a text that starts with digits, at what is left behind them. -/
theorem endsAt_of_takeWhile (h : (text.takeWhile Char.isDigit).isEmpty = false) :
    EndsAt text (text.dropWhile Char.isDigit) := by
  cases text with
  | nil => cases h
  | cons c more =>
    by_cases hc : c.isDigit = true
    · exact endsAt_dropWhile hc more
    · simp [hc] at h

/-- The whole part of a number ends with a digit. -/
theorem endsAt_wholePart? {digits : List Char} (h : wholePart? text = some (digits, rest)) :
    EndsAt text rest := by
  unfold wholePart? at h
  split at h
  · cases h
    exact ⟨'0', by decide, List.suffix_rfl⟩
  · split at h
    · rename_i hc
      cases h
      exact endsAt_dropWhile hc _
    · cases h
  · cases h

/-- There is no fraction, or it ends with a digit. -/
theorem fractionPart_cases (text : List Char) :
    (fractionPart text).2 = text ∨ EndsAt text (fractionPart text).2 := by
  unfold fractionPart
  split
  · dsimp only
    split
    · exact .inl rfl
    · rename_i hdigits
      exact .inr ((endsAt_of_takeWhile (by simpa using hdigits)).cons _)
  · exact .inl rfl

/-- There is no exponent, or it ends with a digit. -/
theorem exponentPart_cases (text : List Char) :
    (exponentPart text).2 = text ∨ EndsAt text (exponentPart text).2 := by
  unfold exponentPart
  split
  · rename_i e more
    have hsigned : ∀ {unsigned : List Char} (sized : Option Int), unsigned <:+ e :: more →
        let read := if (unsigned.takeWhile Char.isDigit).isEmpty then (none, e :: more)
          else (sized, unsigned.dropWhile Char.isDigit)
        read.2 = e :: more ∨ EndsAt (e :: more) read.2 := by
      intro unsigned sized hsuffix
      dsimp only
      split
      · exact .inl rfl
      · rename_i hdigits
        exact .inr ((endsAt_of_takeWhile (by simpa using hdigits)).of_suffix hsuffix)
    split
    · dsimp only
      split
      · exact hsigned _ ⟨[_, _], rfl⟩
      · exact hsigned _ ⟨[_, _], rfl⟩
      · exact hsigned _ (List.suffix_cons e _)
    · exact .inl rfl
  · exact .inl rfl

/-- So a number ends with a digit, whatever parts it has. -/
theorem endsAt_readNumber {value : Json} (h : readNumber text = .ok (value, rest)) :
    EndsAt text rest := by
  unfold readNumber at h
  dsimp only at h
  split at h
  · cases h
  · rename_i whole more hwhole
    have hunsigned : EndsAt text more := by
      refine (endsAt_wholePart? hwhole).of_suffix ?_
      split
      · exact List.suffix_cons '-' _
      · exact List.suffix_rfl
    have hends : EndsAt text (exponentPart (fractionPart more).2).2 :=
      (hunsigned.trans (fractionPart_cases more)).trans (exponentPart_cases _)
    split at h
    · split at h
      · cases h
      · cases h
        exact hends
    · cases h
      exact hends

/-- A plain value ends with a letter, a digit or a quotation mark. -/
theorem endsAt_readPlain {value : Json} (h : readPlain text = .ok (value, rest)) :
    EndsAt text rest := by
  unfold readPlain at h
  split at h
  · rename_i name found hfind
    cases h
    have hlast : ∀ entry ∈ names, entry.1.getLast?.any endsValue = true := by decide
    have hmem := List.mem_of_find?_eq_some hfind
    have hprefix : name <+: text := by simpa using List.find?_some hfind
    obtain ⟨more, rfl⟩ := hprefix
    rw [List.drop_left]
    obtain ⟨c, hc, hends⟩ := (Option.any_eq_true _ _).1 (hlast _ hmem)
    obtain ⟨front, rfl⟩ := List.getLast?_eq_some_iff.1 hc
    exact ⟨c, hends, front, by simp⟩
  · exact endsAt_readNumber h

/-! ## Values -/

/-- With this much fuel values, the rest of lists and the rest of objects are read up to their ends. -/
structure ReadsToEnds (fuel : Nat) : Prop where
  value : ∀ {depth text value rest}, readValue fuel depth text = .ok (value, rest) → EndsAt text rest
  items : ∀ {depth read text value rest}, readItems fuel depth read text = .ok (value, rest) →
    EndsAt text rest
  members : ∀ {depth read text value rest}, readMembers fuel depth read text = .ok (value, rest) →
    EndsAt text rest

variable {fuel depth : Nat} {value : Json}

/-- A value ends as its kind does: a list and an object with their brackets. -/
theorem ReadsToEnds.readValue (ih : ReadsToEnds fuel)
    (h : readValue (fuel + 1) depth text = .ok (value, rest)) : EndsAt text rest := by
  unfold Json.readValue at h
  split at h
  · split at h
    · rename_i hstring
      cases h
      exact ⟨'"', by decide, (readString_suffix hstring).trans (List.suffix_cons _ _)⟩
    · cases h
  · split at h
    · cases h
    · split at h
      · rename_i hskip
        cases h
        exact ⟨']', by decide, hskip ▸ (skipSpace_suffix _).trans (List.suffix_cons _ _)⟩
      · exact ((ih.items h).of_suffix (skipSpace_suffix _)).cons _
  · split at h
    · cases h
    · split at h
      · rename_i hskip
        cases h
        exact ⟨'}', by decide, hskip ▸ (skipSpace_suffix _).trans (List.suffix_cons _ _)⟩
      · exact ((ih.members h).of_suffix (skipSpace_suffix _)).cons _
  · exact endsAt_readPlain h

/-- A list ends with its bracket. -/
theorem ReadsToEnds.readItems (ih : ReadsToEnds fuel) {read : List Json}
    (h : readItems (fuel + 1) depth read text = .ok (value, rest)) : EndsAt text rest := by
  unfold Json.readItems at h
  split at h
  · cases h
  · rename_i hvalue
    have hbehind := (skipSpace_suffix _).trans (ih.value hvalue).suffix
    split at h
    · rename_i hskip
      cases h
      exact ⟨']', by decide, hskip ▸ hbehind⟩
    · rename_i hskip
      rw [hskip] at hbehind
      exact (ih.items h).of_suffix
        ((skipSpace_suffix _).trans ((List.suffix_cons _ _).trans hbehind))
    · cases h

/-- So does an object. -/
theorem ReadsToEnds.readMembers (ih : ReadsToEnds fuel) {read : Members}
    (h : readMembers (fuel + 1) depth read text = .ok (value, rest)) : EndsAt text rest := by
  unfold Json.readMembers at h
  split at h
  · split at h
    · cases h
    · rename_i hname
      have hname := (List.suffix_cons _ _).trans
        ((readString_suffix hname).trans (List.suffix_cons '"' _))
      split at h
      · rename_i hcolon
        have hcolon := (List.suffix_cons _ _).trans (hcolon ▸ (skipSpace_suffix _).trans hname)
        split at h
        · cases h
        · rename_i hvalue
          have hmember := ((ih.value hvalue).of_suffix (skipSpace_suffix _)).suffix.trans hcolon
          have hbehind := (skipSpace_suffix _).trans hmember
          split at h
          · rename_i hskip
            cases h
            exact ⟨'}', by decide, hskip ▸ hbehind⟩
          · rename_i hskip
            rw [hskip] at hbehind
            exact (ih.members h).of_suffix
              ((skipSpace_suffix _).trans ((List.suffix_cons _ _).trans hbehind))
          · cases h
      · cases h
  · cases h

/-- Whatever is read ends with the last character of a value, with any fuel. -/
theorem readsToEnds (fuel : Nat) : ReadsToEnds fuel := by
  induction fuel with
  | zero => exact ⟨nofun, nofun, nofun⟩
  | succ fuel ih => exact ⟨ih.readValue, ih.readItems, ih.readMembers⟩

/-! ## Texts -/

/-- Behind the last character of a value there are only blanks. -/
theorem endsAt_read (h : read text = .ok value) :
    ∃ blanks, IsBlank blanks ∧ EndsAt text blanks := by
  have hwhole : readWhole text = .ok value := by
    unfold read at h
    cases hwhole : readWhole text with
    | error trouble =>
      rw [hwhole] at h
      cases h
    | ok found =>
      rw [hwhole] at h
      cases h
      rfl
  unfold readWhole at hwhole
  split at hwhole
  · cases hwhole
  · dsimp only at hwhole
    split at hwhole
    · cases hwhole
    · rename_i hread
      split at hwhole
      · rename_i hrest
        refine ⟨_, ?_, ((readsToEnds _).value hread).of_suffix (skipSpace_suffix _)⟩
        exact List.dropWhile_eq_nil_iff.1 (List.isEmpty_iff.1 hrest)
      · cases hwhole

/-- A text that ends in another character is no value. -/
theorem read_ne_ok {c : Char} {blanks : List Char} (hc : endsValue c = false)
    (hspace : isSpace c = false) (hblanks : IsBlank blanks) (htext : c :: blanks <:+ text)
    (value : Json) : read text ≠ .ok value := by
  intro h
  obtain ⟨others, hothers, d, hd, hvalue⟩ := endsAt_read h
  have hne : c ≠ d := by
    rintro rfl
    rw [hc] at hd
    cases hd
  have hd' : isSpace d = false := by
    cases hblank : isSpace d with
    | false => rfl
    | true =>
      simp only [isSpace, Bool.or_eq_true, beq_iff_eq] at hblank
      rcases hblank with ((rfl | rfl) | rfl) | rfl <;> cases hd
  rcases List.suffix_or_suffix_of_suffix htext hvalue with hshorter | hshorter
  · rcases List.suffix_cons_iff.1 hshorter with heq | hinside
    · exact hne (List.cons.inj heq).1
    · have hmem : isSpace c = true := hothers c (hinside.subset List.mem_cons_self)
      rw [hspace] at hmem
      cases hmem
  · rcases List.suffix_cons_iff.1 hshorter with heq | hinside
    · exact hne (List.cons.inj heq).1.symm
    · have hmem : isSpace d = true := hblanks d (hinside.subset List.mem_cons_self)
      rw [hd'] at hmem
      cases hmem

end BinaryStrings.Json
