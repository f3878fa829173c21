import BinaryStrings.Proofs.Numeral.Spelling
import BinaryStrings.Proofs.Outcome

/-!
# The reader of numerals

A text is read as a number exactly if the rules allow it, and then as the number that it spells.

Main results:

- Theorem `read_eq_ok_iff`: what the reader makes of the text behind the sign and the mark.
- Theorem `base_marked_cases`: how the base is told.
- Theorem `read_marked_eq_ok_iff`: the texts that are read as a number.
-/

namespace BinaryStrings.Numeral

variable {radix digit : Nat} {c : Char} {text : List Char} {digits : List Nat} {form : NumeralForm}
  {given : String} {value : Int} {negative mustBeZero : Bool} {unsigned body : List Char} {size : Nat}

/-! ## The reader -/

/-- Digits of a base and only blanks behind them. -/
inductive IsBody (radix : Nat) (mustBeZero : Bool) : List Char → Nat → Prop
  | intro {front back : List Char} {digits : List Nat} (spelled : Digits radix front digits)
    (few : radix = 10 → digits.length ≤ mostDigits)
    (zero : mustBeZero = true → number radix digits = 0)
    (blank : ∀ c ∈ back, isAsciiBlank c = true) :
    IsBody radix mustBeZero (front ++ back) (number radix digits)

/-- No digits are in a blank text. -/
theorem takeWhile_eq_nil_of_blank (hblank : ∀ c ∈ text, isAsciiBlank c = true) :
    text.takeWhile (fun c => isDigitIn radix c || c == '_') = [] := by
  cases text with
  | nil => rfl
  | cons c rest =>
    rw [List.takeWhile_cons_of_neg]
    rw [not_belongs_of_isAsciiBlank (hblank c List.mem_cons_self)]
    exact Bool.false_ne_true

/-- What the reader makes of the digits and what is behind them. -/
theorem read_eq_ok_iff (hsign : sign ((plain given.toList).dropWhile isAsciiBlank) = (negative, unsigned))
    (hbase : base form unsigned = (radix, mustBeZero, body)) (hradix : radix ≤ 16) :
    read form given = .ok value ↔
      ∃ size, IsBody radix mustBeZero body size ∧ value = if negative then -(size : Int) else size := by
  unfold read
  rw [hsign]
  dsimp only
  rw [hbase]
  dsimp only
  simp only [ite_error_eq_ok_iff, Bool.or_eq_true, Bool.and_eq_true, not_or, not_and, beq_iff_eq,
    decide_eq_true_eq, Bool.not_eq_true', Bool.not_eq_false, bne_iff_ne, ne_eq, Decidable.not_not,
    List.isEmpty_iff, Nat.not_lt, isLimited, Except.ok.injEq]
  constructor
  · rintro ⟨⟨hhead, hspaced⟩, hfew, ⟨hne, hzero⟩, hblank, hvalue⟩
    have hbelong : ∀ c ∈ body.takeWhile fun c => isDigitIn radix c || c == '_',
        isDigitIn radix c = true ∨ c = '_' := fun c hc => by
      simpa using List.mem_takeWhile_imp hc
    have hbody := (List.takeWhile_append_dropWhile (p := fun c => isDigitIn radix c || c == '_')
      (l := body)).symm
    generalize body.takeWhile (fun c => isDigitIn radix c || c == '_') = front at *
    generalize body.dropWhile (fun c => isDigitIn radix c || c == '_') = back at *
    subst hbody
    rw [List.drop_left, List.dropWhile_eq_nil_iff] at hblank
    have hspelled : IsSpelled radix front := by
      refine ⟨hbelong, hspaced, ?_⟩
      cases front with
      | nil => exact absurd rfl hne
      | cons c rest => exact ⟨c, rest, rfl, fun hc => hhead (congrArg some hc)⟩
    obtain ⟨digits, hdigits⟩ := (exists_digits_iff hradix).2 hspelled
    rw [hdigits.length_filter hradix] at hfew
    rw [hdigits.valueOf_filter hradix] at hzero hvalue
    exact ⟨number radix digits, .intro hdigits hfew hzero hblank, hvalue.symm⟩
  · rintro ⟨_, @⟨front, back, digits, hdigits, hfew, hzero, hblank⟩, rfl⟩
    have hspelled := hdigits.isSpelled hradix
    have htake : (front ++ back).takeWhile (fun c => isDigitIn radix c || c == '_') = front := by
      rw [List.takeWhile_append_of_pos, takeWhile_eq_nil_of_blank hblank, List.append_nil]
      exact fun c hc => by simpa using hspelled.belong c hc
    rw [htake, List.drop_left, ← List.length_eq_zero_iff, hdigits.length_filter hradix,
      hdigits.valueOf_filter hradix, List.dropWhile_eq_nil_iff]
    refine ⟨⟨?_, hspelled.spaced⟩, hfew, ⟨?_, hzero⟩, hblank, rfl⟩
    · obtain ⟨c, rest, rfl, hc⟩ := hspelled.starts
      exact fun h => hc (Option.some.inj h)
    · rw [List.length_eq_zero_iff]
      exact hdigits.ne_nil

/-! ## Bases -/

/-- A mark behind a zero tells the base. -/
theorem base_of_isMark (h : IsMark c radix) (rest : List Char) :
    base .marked ('0' :: c :: rest) = (radix, false, behindMark rest) := by
  simp only [IsMark, List.mem_cons, Prod.mk.injEq, List.not_mem_nil, or_false] at h
  rcases h with ⟨rfl, rfl⟩ | ⟨rfl, rfl⟩ | ⟨rfl, rfl⟩ | ⟨rfl, rfl⟩ | ⟨rfl, rfl⟩ | ⟨rfl, rfl⟩ <;> rfl

/-- Marks may be small or capital letters. -/
theorem isMark_of_beq {lower upper : Char} (h : (c == lower || c == upper) = true)
    (hlower : IsMark lower radix) (hupper : IsMark upper radix) : IsMark c radix := by
  rcases Bool.or_eq_true_iff.1 h with h | h
  · rwa [beq_iff_eq.1 h]
  · rwa [beq_iff_eq.1 h]

/-- The base is told by a mark, or it is ten, and a zero in front has to be the number. -/
theorem base_marked_cases (text : List Char) :
    (∃ mark radix rest, IsMark mark radix ∧ text = '0' :: mark :: rest ∧
        base .marked text = (radix, false, behindMark rest)) ∨
      (text.head? = some '0' ∧ base .marked text = (10, true, text)) ∨
      (text.head? ≠ some '0' ∧ base .marked text = (10, false, text)) := by
  unfold base
  split
  · rename_i hform
    cases hform
  · rename_i mark rest _
    split
    · exact .inl ⟨mark, 16, rest, isMark_of_beq ‹_› (by decide) (by decide), rfl, rfl⟩
    · split
      · exact .inl ⟨mark, 8, rest, isMark_of_beq ‹_› (by decide) (by decide), rfl, rfl⟩
      · split
        · exact .inl ⟨mark, 2, rest, isMark_of_beq ‹_› (by decide) (by decide), rfl, rfl⟩
        · exact .inr (.inl ⟨rfl, rfl⟩)
  · exact .inr (.inl ⟨rfl, rfl⟩)
  · rename_i hmore hone
    refine .inr (.inr ⟨fun hhead => ?_, rfl⟩)
    obtain ⟨rest, rfl⟩ := List.head?_eq_some_iff.1 hhead
    cases rest with
    | nil => exact hone rfl
    | cons mark rest => exact hmore mark rest rfl

/-- No base is larger than sixteen. -/
theorem base_marked_le (h : base .marked text = (radix, mustBeZero, body)) : radix ≤ 16 := by
  rcases base_marked_cases text with ⟨mark, told, rest, hknown, -, hbase⟩ | ⟨-, hbase⟩ | ⟨-, hbase⟩
  · rw [hbase] at h
    cases h
    exact hknown.le
  · rw [hbase] at h
    cases h
    decide
  · rw [hbase] at h
    cases h
    decide

/-- Without a low line in front nothing is left out behind a mark. -/
theorem behindMark_eq_self (h : text.head? ≠ some '_') : behindMark text = text := by
  unfold behindMark
  split
  · exact absurd rfl h
  · rfl

/-- At most one low line is left out. -/
theorem behindMark_cases (text : List Char) : text = behindMark text ∨ text = '_' :: behindMark text := by
  unfold behindMark
  split
  · exact .inr rfl
  · exact .inl rfl

/-- What the reader makes of a decimal numeral of the rules. -/
theorem exists_isBody_of_decimal {back : List Char} (h : Digits 10 text digits)
    (hfew : digits.length ≤ mostDigits) (hzeros : digits.head? = some 0 → ∀ digit ∈ digits, digit = 0)
    (hback : ∀ c ∈ back, isAsciiBlank c = true) : ∃ mustBeZero,
      base .marked (text ++ back) = (10, mustBeZero, text ++ back) ∧
        IsBody 10 mustBeZero (text ++ back) (number 10 digits) := by
  have hbody : ∀ mustBeZero, (mustBeZero = true → number 10 digits = 0) →
      IsBody 10 mustBeZero (text ++ back) (number 10 digits) := fun _ hzero =>
    .intro h (fun _ => hfew) hzero hback
  rcases base_marked_cases (text ++ back) with
    ⟨mark, radix, rest, hknown, hgiven, -⟩ | ⟨hhead, hbase⟩ | ⟨-, hbase⟩
  · -- The mark would be a character of a decimal numeral, or a blank.
    obtain ⟨hbelong, hblank⟩ := hknown.not_belongs
    have hmem : mark ∈ text ++ back := by simp [hgiven]
    rcases List.mem_append.1 hmem with htext | hmark
    · exact absurd ((h.isSpelled (by decide)).belong mark htext) hbelong
    · exact absurd (hback mark hmark) (Bool.eq_false_iff.1 hblank)
  · refine ⟨true, hbase, hbody true fun _ => ?_⟩
    rw [number_eq_zero_iff (by decide)]
    refine hzeros (h.head?_eq_zero_iff.2 ?_)
    obtain ⟨c, rest, digit, more, rfl, -, -⟩ := h.starts
    exact hhead
  · exact ⟨false, hbase, hbody false (by simp)⟩

/-- What the reader makes of the numerals of the rules. -/
theorem Unsigned.exists_isBody (h : Unsigned text size) {back : List Char}
    (hback : ∀ c ∈ back, isAsciiBlank c = true) : ∃ radix mustBeZero body, radix ≤ 16 ∧
      base .marked (text ++ back) = (radix, mustBeZero, body) ∧ IsBody radix mustBeZero body size := by
  have hmarked : ∀ {radix : Nat} {text : List Char} {digits : List Nat}, 10 ≠ radix → Digits radix text digits →
      IsBody radix false (text ++ back) (number radix digits) := fun hne hdigits =>
    .intro hdigits (fun h => absurd h.symm hne) (by simp) hback
  cases h with
  | decimal hdigits hfew hzeros =>
    obtain ⟨mustBeZero, hbase, hbody⟩ := exists_isBody_of_decimal hdigits hfew hzeros hback
    exact ⟨10, mustBeZero, _, by decide, hbase, hbody⟩
  | @marked mark radix text digits hknown hdigits =>
    refine ⟨radix, false, text ++ back, hknown.le, ?_, hmarked hknown.ne_ten hdigits⟩
    rw [List.cons_append, List.cons_append, base_of_isMark hknown, behindMark_eq_self]
    obtain ⟨c, rest, digit, more, rfl, -, hdigit⟩ := hdigits.starts
    exact fun h => hdigit.ne_of_digitOf? hknown.le rfl (Option.some.inj h)
  | @spaced mark radix text digits hknown hdigits =>
    exact ⟨radix, false, text ++ back, hknown.le, base_of_isMark hknown _, hmarked hknown.ne_ten hdigits⟩

/-- What the reader takes for a numeral is one by the rules. -/
theorem exists_unsigned_of_isBody {given : List Char}
    (hbase : base .marked given = (radix, mustBeZero, body)) (h : IsBody radix mustBeZero body size) :
    ∃ text back, given = text ++ back ∧ Unsigned text size ∧ ∀ c ∈ back, isAsciiBlank c = true := by
  obtain @⟨front, back, digits, hdigits, hfew, hzero, hblank⟩ := h
  rcases base_marked_cases given with
    ⟨mark, radix', rest, hknown, rfl, htold⟩ | ⟨hhead, htold⟩ | ⟨hhead, htold⟩
  · obtain ⟨rfl, rfl, hrest⟩ : radix = radix' ∧ mustBeZero = false ∧ front ++ back = behindMark rest := by
      simpa [hbase] using htold
    rcases behindMark_cases rest with hsame | hline
    · exact ⟨'0' :: mark :: front, back, by rw [hsame, ← hrest]; rfl, .marked hknown hdigits, hblank⟩
    · exact ⟨'0' :: mark :: '_' :: front, back, by rw [hline, ← hrest]; rfl, .spaced hknown hdigits,
        hblank⟩
  · obtain ⟨rfl, rfl, hgiven⟩ : radix = 10 ∧ mustBeZero = true ∧ front ++ back = given := by
      simpa [hbase] using htold
    exact ⟨front, back, hgiven.symm, .decimal hdigits (hfew rfl) fun _ =>
      (number_eq_zero_iff (by decide)).1 (hzero rfl), hblank⟩
  · obtain ⟨rfl, rfl, rfl⟩ : radix = 10 ∧ mustBeZero = false ∧ front ++ back = given := by
      simpa [hbase] using htold
    refine ⟨front, back, rfl, .decimal hdigits (hfew rfl) fun hzero => ?_, hblank⟩
    have hfront := hdigits.head?_eq_zero_iff.1 hzero
    obtain ⟨c, rest, digit, more, rfl, -, -⟩ := hdigits.starts
    exact absurd hfront hhead

/-! ## Signs and blanks -/

/-- A text that does not start with a sign has none. -/
theorem sign_eq_self (hplus : c ≠ '+') (hminus : c ≠ '-') : sign (c :: text) = (false, c :: text) := by
  unfold sign
  split
  · rename_i hcons
    exact absurd (List.cons.inj hcons).1 hplus
  · rename_i hcons
    exact absurd (List.cons.inj hcons).1 hminus
  · rfl

/-- The reader takes the sign off. -/
theorem Signed.exists_unsigned (h : Signed text value) (back : List Char) :
    ∃ negative unsigned size, sign (text ++ back) = (negative, unsigned ++ back) ∧
      Unsigned unsigned size ∧ value = if negative then -(size : Int) else size := by
  cases h with
  | @unsigned _ size h =>
    refine ⟨false, text, size, ?_, h, rfl⟩
    obtain ⟨c, rest, digit, rfl, hdigit⟩ := h.starts
    exact sign_eq_self (hdigit.ne_of_digitOf? (by decide) rfl) (hdigit.ne_of_digitOf? (by decide) rfl)
  | @plus text size h => exact ⟨false, text, size, rfl, h, rfl⟩
  | @minus text size h => exact ⟨true, text, size, rfl, h, rfl⟩

/-- A sign in front of a numeral is that of its number. -/
theorem exists_signed_of_sign {given back : List Char} (hsign : sign given = (negative, text ++ back))
    (h : Unsigned text size) : ∃ body, given = body ++ back ∧
      Signed body (if negative then -(size : Int) else size) := by
  unfold sign at hsign
  split at hsign
  · cases hsign
    exact ⟨'+' :: text, rfl, .plus h⟩
  · cases hsign
    exact ⟨'-' :: text, rfl, .minus h⟩
  · cases hsign
    exact ⟨text, rfl, .unsigned h⟩

/-- The texts that are read as a number, by what they are in ASCII. -/
theorem read_marked_eq_ok_iff_of_plain : read .marked given = .ok value ↔
    ∃ front body back, plain given.toList = front ++ body ++ back ∧
      (∀ c ∈ front, isAsciiBlank c = true) ∧ Signed body value ∧ ∀ c ∈ back, isAsciiBlank c = true := by
  constructor
  · intro h
    rcases hsign : sign ((plain given.toList).dropWhile isAsciiBlank) with ⟨negative, unsigned⟩
    rcases hbase : base .marked unsigned with ⟨radix, mustBeZero, body⟩
    have hradix := base_marked_le hbase
    obtain ⟨size, hbody, rfl⟩ := (read_eq_ok_iff hsign hbase hradix).1 h
    obtain ⟨text, back, rfl, hunsigned, hback⟩ := exists_unsigned_of_isBody hbase hbody
    obtain ⟨body, hgiven, hsigned⟩ := exists_signed_of_sign hsign hunsigned
    refine ⟨(plain given.toList).takeWhile isAsciiBlank, body, back, ?_, ?_, hsigned, hback⟩
    · rw [List.append_assoc, ← hgiven, List.takeWhile_append_dropWhile]
    · exact fun c hc => List.mem_takeWhile_imp hc
  · rintro ⟨front, body, back, hplain, hfront, hsigned, hback⟩
    obtain ⟨negative, unsigned, size, hsign, hunsigned, rfl⟩ := hsigned.exists_unsigned back
    obtain ⟨radix, mustBeZero, rest, hradix, hbase, hbody⟩ := hunsigned.exists_isBody hback
    have hdrop : (plain given.toList).dropWhile isAsciiBlank = body ++ back := by
      obtain ⟨c, rest, rfl, hblank⟩ := hsigned.starts
      rw [hplain, List.append_assoc, List.dropWhile_append_of_pos hfront, List.cons_append,
        List.dropWhile_cons_of_neg (by rw [hblank]; exact Bool.false_ne_true)]
    rw [← hdrop] at hsign
    exact (read_eq_ok_iff hsign hbase hradix).2 ⟨size, hbody, rfl⟩

/-! ## Reading -/

/-- A text is read as a number exactly if it spells the number. -/
theorem read_marked_eq_ok_iff : read .marked given = .ok value ↔ Spells given value := by
  rw [read_marked_eq_ok_iff_of_plain]
  refine exists_congr fun front => exists_congr fun body => exists_congr fun back => ?_
  refine and_congr_left fun ⟨hfront, hsigned, hback⟩ => (forall₂_readsAs_iff ?_).symm
  rw [isPlain_append, isPlain_append]
  exact ⟨⟨isPlain_of_blank hfront, hsigned.isPlain⟩, isPlain_of_blank hback⟩

end BinaryStrings.Numeral
