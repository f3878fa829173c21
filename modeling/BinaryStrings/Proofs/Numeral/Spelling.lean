import Mathlib.Data.List.TakeWhile
import Mathlib.Data.Nat.Digits.Lemmas
import BinaryStrings.Numeral

/-!
# How numbers are spelled

The numerals that tell their base by a mark are given here by rules: which digits they have, where low
lines, signs and blanks may stand, and what number this spells.

Main results:

- Theorem `exists_digits_iff`: what digits with low lines between them look like to the reader.
- Theorem `Digits.valueOf_filter`: the number that they are.
- Theorem `forall₂_readsAs_iff`: texts in other scripts are read as texts in ASCII.
-/

namespace BinaryStrings.Numeral

/-! ## Rules -/

/-- A digit of a base, in either case. -/
def IsDigit (radix : Nat) (c : Char) (digit : Nat) : Prop :=
  digit < radix ∧ (c = digit.digitChar ∨ c = digit.digitChar.toUpper)

/-- Digits of a base, the highest first, with single low lines between them. -/
inductive Digits (radix : Nat) : List Char → List Nat → Prop
  | last {c : Char} {digit : Nat} (first : IsDigit radix c digit) : Digits radix [c] [digit]
  | next {c : Char} {digit : Nat} {text : List Char} {digits : List Nat}
    (first : IsDigit radix c digit) (rest : Digits radix text digits) :
    Digits radix (c :: text) (digit :: digits)
  | spaced {c : Char} {digit : Nat} {text : List Char} {digits : List Nat}
    (first : IsDigit radix c digit) (rest : Digits radix text digits) :
    Digits radix (c :: '_' :: text) (digit :: digits)

/-- The number of digits, the highest first. -/
def number (radix : Nat) (digits : List Nat) : Nat :=
  Nat.ofDigits radix digits.reverse

/-- A mark behind a zero and the base that it tells. -/
def IsMark (mark : Char) (radix : Nat) : Prop :=
  (mark, radix) ∈ [('x', 16), ('X', 16), ('o', 8), ('O', 8), ('b', 2), ('B', 2)]

instance (mark : Char) (radix : Nat) : Decidable (IsMark mark radix) :=
  inferInstanceAs (Decidable (_ ∈ _))

/-- Numerals without a sign.  Decimal ones have no zeros in front, unless they are nothing but zeros, and
not too many digits.  In others a low line may also stand behind the mark. -/
inductive Unsigned : List Char → Nat → Prop
  | decimal {text : List Char} {digits : List Nat} (spelled : Digits 10 text digits)
    (few : digits.length ≤ mostDigits) (zeros : digits.head? = some 0 → ∀ digit ∈ digits, digit = 0) :
    Unsigned text (number 10 digits)
  | marked {mark : Char} {radix : Nat} {text : List Char} {digits : List Nat}
    (known : IsMark mark radix) (spelled : Digits radix text digits) :
    Unsigned ('0' :: mark :: text) (number radix digits)
  | spaced {mark : Char} {radix : Nat} {text : List Char} {digits : List Nat}
    (known : IsMark mark radix) (spelled : Digits radix text digits) :
    Unsigned ('0' :: mark :: '_' :: text) (number radix digits)

/-- Numerals with or without a sign. -/
inductive Signed : List Char → Int → Prop
  | unsigned {text : List Char} {size : Nat} (h : Unsigned text size) : Signed text size
  | plus {text : List Char} {size : Nat} (h : Unsigned text size) : Signed ('+' :: text) size
  | minus {text : List Char} {size : Nat} (h : Unsigned text size) : Signed ('-' :: text) (-size)

/-- Digits and blanks of other scripts are read as those of ASCII. -/
inductive ReadsAs : Char → Char → Prop
  | same {c : Char} (ascii : c.toNat < 0x80) : ReadsAs c c
  | digit {c : Char} {digit : Nat} (other : 0x80 ≤ c.toNat)
    (value : Unicode.digitValue? c = some digit) : ReadsAs c digit.digitChar
  | blank {c : Char} (other : 0x80 ≤ c.toNat) (blank : Unicode.isBlank c = true) : ReadsAs c ' '

/-- A text spells a number: it is read as a numeral between blanks. -/
def Spells (text : String) (value : Int) : Prop :=
  ∃ front body back, List.Forall₂ ReadsAs text.toList (front ++ body ++ back) ∧
    (∀ c ∈ front, isAsciiBlank c = true) ∧ Signed body value ∧ ∀ c ∈ back, isAsciiBlank c = true

/-! ## Digits -/

variable {radix digit : Nat} {c : Char} {text : List Char} {digits : List Nat}

/-- The digits of sixteen are read in both cases. -/
theorem digitOf?_digitChar_eq : ∀ digit < 16, digitOf? digit.digitChar = some digit ∧
    digitOf? digit.digitChar.toUpper = some digit := by
  decide

/-- Nothing else is read as a digit. -/
theorem eq_digitChar_of_digitOf? : ∀ n < 0x7F, ∀ digit < 16, digitOf? (Char.ofNat n) = some digit →
    Char.ofNat n = digit.digitChar ∨ Char.ofNat n = digit.digitChar.toUpper := by
  decide

/-- Digits are in ASCII. -/
theorem toNat_lt_of_digitOf? (h : digitOf? c = some digit) : c.toNat < 0x7F := by
  unfold digitOf? at h
  split at h
  · rename_i hdigit
    have hle : c ≤ '9' := of_decide_eq_true (Bool.and_eq_true_iff.1 hdigit).2
    exact Nat.lt_of_le_of_lt (UInt32.le_iff_toNat_le.1 hle) (by decide)
  · split at h
    · rename_i hlower
      have hle : c ≤ 'z' := of_decide_eq_true (Bool.and_eq_true_iff.1 hlower).2
      exact Nat.lt_of_le_of_lt (UInt32.le_iff_toNat_le.1 hle) (by decide)
    · split at h
      · rename_i hupper
        have hle : c ≤ 'Z' := of_decide_eq_true (Bool.and_eq_true_iff.1 hupper).2
        exact Nat.lt_of_le_of_lt (UInt32.le_iff_toNat_le.1 hle) (by decide)
      · cases h

/-- The digits of the rules are those of the reader. -/
theorem isDigit_iff (hradix : radix ≤ 16) :
    IsDigit radix c digit ↔ digit < radix ∧ digitOf? c = some digit := by
  refine and_congr_right fun hlt => ⟨?_, fun h => ?_⟩
  · rintro (rfl | rfl)
    · exact (digitOf?_digitChar_eq digit (by omega)).1
    · exact (digitOf?_digitChar_eq digit (by omega)).2
  · have hchar := eq_digitChar_of_digitOf? c.toNat (toNat_lt_of_digitOf? h) digit (by omega)
    rw [Char.ofNat_toNat] at hchar
    exact hchar h

/-- The test for digits of a base finds those of the grammar. -/
theorem isDigitIn_eq_true_iff (hradix : radix ≤ 16) :
    isDigitIn radix c = true ↔ ∃ digit, IsDigit radix c digit := by
  simp only [isDigit_iff hradix]
  unfold isDigitIn
  cases digitOf? c with
  | none => simp
  | some digit => simp

/-- A digit passes the test. -/
theorem IsDigit.isDigitIn (hradix : radix ≤ 16) (h : IsDigit radix c digit) :
    isDigitIn radix c = true :=
  (isDigitIn_eq_true_iff hradix).2 ⟨digit, h⟩

/-- It is read as its value. -/
theorem IsDigit.value_eq (hradix : radix ≤ 16) (h : IsDigit radix c digit) :
    (digitOf? c).getD 0 = digit := by
  rw [((isDigit_iff hradix).1 h).2, Option.getD_some]

/-- A digit is no low line, no sign and no blank. -/
theorem IsDigit.ne_of_digitOf? (hradix : radix ≤ 16) (h : IsDigit radix c digit) {other : Char}
    (hother : digitOf? other = none) : c ≠ other := by
  rintro rfl
  rw [((isDigit_iff hradix).1 h).2] at hother
  cases hother

/-! ## Digits with low lines -/

/-- The texts that the reader takes for digits of a base. -/
structure IsSpelled (radix : Nat) (text : List Char) : Prop where
  belong : ∀ c ∈ text, isDigitIn radix c = true ∨ c = '_'
  spaced : isSpaced text = true
  starts : ∃ c rest, text = c :: rest ∧ c ≠ '_'

/-- A character that is no low line may stand in front. -/
theorem isSpaced_cons (hc : c ≠ '_') : isSpaced (c :: text) = isSpaced text :=
  isSpaced.eq_4 c text (fun h => absurd h hc) fun _ h => absurd h hc

/-- Digits of the grammar are digits of the base with single low lines between them. -/
theorem Digits.isSpelled (hradix : radix ≤ 16) (h : Digits radix text digits) :
    IsSpelled radix text := by
  have hplain : ∀ {c : Char} {digit : Nat}, IsDigit radix c digit → c ≠ '_' := fun hdigit =>
    hdigit.ne_of_digitOf? hradix rfl
  induction h with
  | @last c digit hfirst =>
    refine ⟨?_, by rw [isSpaced_cons (hplain hfirst)]; rfl, c, [], rfl, hplain hfirst⟩
    simpa using .inl (hfirst.isDigitIn hradix)
  | @next c digit text digits hfirst hrest ih =>
    refine ⟨?_, by rw [isSpaced_cons (hplain hfirst), ih.spaced], c, text, rfl, hplain hfirst⟩
    exact List.forall_mem_cons.2 ⟨.inl (hfirst.isDigitIn hradix), ih.belong⟩
  | @spaced c digit text digits hfirst hrest ih =>
    refine ⟨?_, ?_, c, '_' :: text, rfl, hplain hfirst⟩
    · exact List.forall_mem_cons.2 ⟨.inl (hfirst.isDigitIn hradix),
        List.forall_mem_cons.2 ⟨.inr rfl, ih.belong⟩⟩
    · obtain ⟨next, rest, rfl, hnext⟩ := ih.starts
      rw [isSpaced_cons (hplain hfirst), isSpaced.eq_4, ih.spaced]
      · exact fun _ hnil => by cases hnil
      · exact fun tail _ hcons => hnext (List.cons.inj hcons).1

/-- A digit and what may follow it. -/
theorem exists_digits_cons (hradix : radix ≤ 16) (hspaced : isSpaced text = true)
    (hbelong : ∀ c ∈ text, isDigitIn radix c = true ∨ c = '_') (hdigit : IsDigit radix c digit) :
    ∃ digits, Digits radix (c :: text) digits := by
  induction text using isSpaced.induct generalizing c digit with
  | case1 => exact ⟨[digit], .last hdigit⟩
  | case2 => cases hspaced
  | case3 => cases hspaced
  | case4 head rest hend hdouble ih =>
    rw [isSpaced.eq_4 head rest hend hdouble] at hspaced
    rw [List.forall_mem_cons] at hbelong
    rcases hbelong.1 with hhead | rfl
    · obtain ⟨next, hnext⟩ := (isDigitIn_eq_true_iff hradix).1 hhead
      obtain ⟨digits, hdigits⟩ := ih hspaced hbelong.2 hnext
      exact ⟨digit :: digits, .next hdigit hdigits⟩
    · -- Behind the low line there is a digit, so what is spelled by a digit and the rest is no low line.
      obtain ⟨digits, hdigits⟩ := ih hspaced hbelong.2 hdigit
      cases hdigits with
      | last => exact (hend rfl rfl).elim
      | next _ hdigits => exact ⟨_, .spaced hdigit hdigits⟩
      | spaced => exact (hdouble _ rfl rfl).elim

/-- What digits with low lines between them look like to the reader. -/
theorem exists_digits_iff (hradix : radix ≤ 16) :
    (∃ digits, Digits radix text digits) ↔ IsSpelled radix text := by
  refine ⟨fun ⟨digits, h⟩ => h.isSpelled hradix, ?_⟩
  rintro ⟨hbelong, hspaced, c, rest, rfl, hc⟩
  rw [isSpaced_cons hc] at hspaced
  rw [List.forall_mem_cons] at hbelong
  obtain ⟨digit, hdigit⟩ := (isDigitIn_eq_true_iff hradix).1 (hbelong.1.resolve_right hc)
  exact exists_digits_cons hradix hspaced hbelong.2 hdigit

/-- There is at least one digit. -/
theorem Digits.ne_nil (h : Digits radix text digits) : digits ≠ [] := by
  cases h <;> exact List.cons_ne_nil _ _

/-- Without the low lines there is one character for each digit. -/
theorem Digits.map_filter (hradix : radix ≤ 16) (h : Digits radix text digits) :
    (text.filter (· != '_')).map (fun c => (digitOf? c).getD 0) = digits := by
  have hkeep : ∀ {c : Char} {digit : Nat} (rest : List Char), IsDigit radix c digit →
      ((c :: rest).filter (· != '_')).map (fun c => (digitOf? c).getD 0) =
        digit :: (rest.filter (· != '_')).map (fun c => (digitOf? c).getD 0) := fun rest hdigit => by
    have hplain : _ ≠ '_' := hdigit.ne_of_digitOf? hradix rfl
    rw [List.filter_cons_of_pos (by simpa using hplain), List.map_cons, hdigit.value_eq hradix]
  induction h with
  | last hfirst => exact hkeep [] hfirst
  | next hfirst hrest ih => rw [hkeep _ hfirst, ih]
  | spaced hfirst hrest ih =>
    rw [hkeep _ hfirst, List.filter_cons_of_neg (by simp), ih]

/-- Without low lines there are as many characters as digits. -/
theorem Digits.length_filter (hradix : radix ≤ 16) (h : Digits radix text digits) :
    (text.filter (· != '_')).length = digits.length := by
  rw [← h.map_filter hradix, List.length_map]

/-- The reader takes digits for the number that they are in their base. -/
theorem Digits.valueOf_filter (hradix : radix ≤ 16) (h : Digits radix text digits) :
    valueOf radix (text.filter (· != '_')) = number radix digits := by
  rw [number, Nat.ofDigits_eq_foldr, List.foldr_reverse, ← h.map_filter hradix, List.foldl_map, valueOf]
  simp only [Nat.cast_id, Nat.add_comm, Nat.mul_comm]

/-- Digits start with a digit. -/
theorem Digits.starts (h : Digits radix text digits) :
    ∃ c rest digit more, text = c :: rest ∧ digits = digit :: more ∧ IsDigit radix c digit := by
  cases h with
  | last hfirst => exact ⟨_, _, _, _, rfl, rfl, hfirst⟩
  | next hfirst hrest => exact ⟨_, _, _, _, rfl, rfl, hfirst⟩
  | spaced hfirst hrest => exact ⟨_, _, _, _, rfl, rfl, hfirst⟩

/-- One more digit may stand at the end. -/
theorem Digits.append_digit (h : Digits radix text digits) (hdigit : IsDigit radix c digit) :
    Digits radix (text ++ [c]) (digits ++ [digit]) := by
  induction h with
  | last hfirst => exact .next hfirst (.last hdigit)
  | next hfirst hrest ih => exact .next hfirst ih
  | spaced hfirst hrest ih => exact .spaced hfirst ih

/-- The last digit counts once, the others as many times as the base. -/
theorem number_append_singleton :
    number radix (digits ++ [digit]) = number radix digits * radix + digit := by
  rw [number, List.reverse_append, List.reverse_singleton, List.singleton_append, Nat.ofDigits_cons,
    Nat.add_comm, Nat.mul_comm, number]

/-- The digit zero is written in one way only. -/
theorem isDigit_zero_iff : IsDigit 10 c 0 ↔ c = '0' := by
  refine ⟨?_, ?_⟩
  · rintro ⟨-, rfl | rfl⟩ <;> rfl
  · rintro rfl
    exact ⟨by decide, .inl rfl⟩

/-- A decimal numeral starts with a zero if its first digit is zero. -/
theorem Digits.head?_eq_zero_iff (h : Digits 10 text digits) :
    digits.head? = some 0 ↔ text.head? = some '0' := by
  obtain ⟨c, rest, digit, more, rfl, rfl, hdigit⟩ := h.starts
  simp only [List.head?_cons, Option.some.injEq]
  constructor
  · rintro rfl
    exact isDigit_zero_iff.1 hdigit
  · rintro rfl
    have hvalue := (isDigit_iff (by decide)).1 hdigit
    exact (Option.some.inj hvalue.2).symm

/-- A number is zero if all its digits are. -/
theorem number_eq_zero_iff (hradix : 0 < radix) : number radix digits = 0 ↔ ∀ digit ∈ digits, digit = 0 := by
  unfold number
  induction digits with
  | nil => simp
  | cons digit rest ih =>
    have hpow := Nat.pow_pos (n := rest.length) hradix
    rw [Nat.ofDigits_reverse_cons, List.forall_mem_cons, ← ih, Nat.add_eq_zero_iff, Nat.mul_eq_zero]
    constructor
    · rintro ⟨hrest, hzero | hzero⟩
      · omega
      · exact ⟨hzero, hrest⟩
    · rintro ⟨hzero, hrest⟩
      exact ⟨hrest, .inr hzero⟩

/-! ## Marks and blanks -/

/-- Marks are those of bases up to sixteen. -/
theorem IsMark.le (h : IsMark c radix) : radix ≤ 16 := by
  simp only [IsMark, List.mem_cons, Prod.mk.injEq, List.not_mem_nil, or_false] at h
  omega

/-- Base ten has no mark. -/
theorem IsMark.ne_ten (h : IsMark c radix) : 10 ≠ radix := by
  simp only [IsMark, List.mem_cons, Prod.mk.injEq, List.not_mem_nil, or_false] at h
  omega

/-- A mark is no digit and no blank. -/
theorem IsMark.not_belongs (h : IsMark c radix) :
    ¬ (isDigitIn 10 c = true ∨ c = '_') ∧ isAsciiBlank c = false := by
  simp only [IsMark, List.mem_cons, Prod.mk.injEq, List.not_mem_nil, or_false] at h
  rcases h with ⟨rfl, -⟩ | ⟨rfl, -⟩ | ⟨rfl, -⟩ | ⟨rfl, -⟩ | ⟨rfl, -⟩ | ⟨rfl, -⟩ <;> decide

/-- No control character and no space is a digit or a low line. -/
theorem digitOf?_of_low : ∀ n < 0x21, digitOf? (Char.ofNat n) = none ∧ Char.ofNat n ≠ '_' := by
  decide

/-- Blank characters of ASCII come before the others. -/
theorem toNat_lt_of_isAsciiBlank (hblank : isAsciiBlank c = true) : c.toNat < 0x21 := by
  rcases Bool.or_eq_true_iff.1 hblank with hspace | hother
  · rw [beq_iff_eq.1 hspace]
    decide
  · have hle := of_decide_eq_true (Bool.and_eq_true_iff.1 hother).2
    omega

/-- Blanks do not belong to digits. -/
theorem not_belongs_of_isAsciiBlank (hblank : isAsciiBlank c = true) :
    (isDigitIn radix c || c == '_') = false := by
  obtain ⟨hdigit, hline⟩ := digitOf?_of_low c.toNat (toNat_lt_of_isAsciiBlank hblank)
  rw [Char.ofNat_toNat] at hdigit hline
  rw [isDigitIn, hdigit, Bool.false_or, beq_eq_false_iff_ne]
  exact hline

/-- A numeral without a sign starts with a digit. -/
theorem Unsigned.starts (h : Unsigned text size) :
    ∃ c rest digit, text = c :: rest ∧ IsDigit 10 c digit := by
  cases h with
  | decimal hdigits hfew hzeros =>
    obtain ⟨c, rest, digit, more, rfl, -, hdigit⟩ := hdigits.starts
    exact ⟨c, rest, digit, rfl, hdigit⟩
  | marked hknown hdigits => exact ⟨_, _, 0, rfl, isDigit_zero_iff.2 rfl⟩
  | spaced hknown hdigits => exact ⟨_, _, 0, rfl, isDigit_zero_iff.2 rfl⟩

/-- Blanks do not start numerals. -/
theorem Signed.starts (h : Signed text value) : ∃ c rest, text = c :: rest ∧ isAsciiBlank c = false := by
  cases h with
  | unsigned h =>
    obtain ⟨c, rest, digit, rfl, hdigit⟩ := h.starts
    refine ⟨c, rest, rfl, Bool.eq_false_iff.2 fun hblank => ?_⟩
    have hbelong : (Numeral.isDigitIn 10 c || c == '_') = false := not_belongs_of_isAsciiBlank hblank
    rw [hdigit.isDigitIn (by decide), Bool.true_or] at hbelong
    cases hbelong
  | plus h => exact ⟨_, _, rfl, rfl⟩
  | minus h => exact ⟨_, _, rfl, rfl⟩

/-! ## Other scripts -/

/-- The characters of numerals and the blanks around them. -/
def IsPlain (text : List Char) : Prop :=
  ∀ c ∈ text, c.toNat < 0x7F ∧ c ≠ '?'

/-- A decimal digit of any script is below ten. -/
theorem digitValue?_lt (h : Unicode.digitValue? c = some digit) : digit < 10 := by
  unfold Unicode.digitValue? at h
  split at h
  · split at h
    · rename_i hdigit
      have hle : c.toNat ≤ 0x39 :=
        UInt32.le_iff_toNat_le.1 (of_decide_eq_true (Bool.and_eq_true_iff.1 hdigit).2)
      have hvalue := Option.some.inj h
      omega
    · cases h
  · split at h
    · split at h
      · rename_i hlt
        rwa [← Option.some.inj h]
      · cases h
    · cases h

/-- The blanks that are not in ASCII. -/
def blanks : List Nat :=
  [0x85, 0xA0, 0x1680, 0x2000, 0x2001, 0x2002, 0x2003, 0x2004, 0x2005, 0x2006, 0x2007, 0x2008, 0x2009,
    0x200A, 0x2028, 0x2029, 0x202F, 0x205F, 0x3000]

/-- Blank characters are no digits. -/
theorem digitValue?_of_mem_blanks : ∀ n ∈ blanks, Unicode.digitValue? (Char.ofNat n) = none := by
  decide +kernel

/-- A character that is not in ASCII is not both a digit and a blank. -/
theorem isBlank_eq_false_of_digitValue? (hother : 0x80 ≤ c.toNat)
    (h : Unicode.digitValue? c = some digit) : Unicode.isBlank c = false := by
  refine Bool.eq_false_iff.2 fun hblank => ?_
  have hmem : c.toNat ∈ blanks := by
    simp only [Unicode.isBlank, Nat.not_lt.2 hother, if_false, Bool.or_eq_true, Bool.and_eq_true,
      beq_iff_eq, decide_eq_true_eq] at hblank
    simp only [blanks, List.mem_cons, List.not_mem_nil, or_false]
    omega
  have hnone := digitValue?_of_mem_blanks c.toNat hmem
  rw [Char.ofNat_toNat, h] at hnone
  cases hnone

/-- The decimal digits of ASCII by their numbers. -/
theorem digitChar_eq_ofNat : ∀ digit < 10, digit.digitChar = Char.ofNat (0x30 + digit) := by
  decide

/-- A text is taken to the one that it reads as. -/
theorem inAscii_eq_of_readsAs {ascii : List Char} (hascii : IsPlain ascii)
    (h : List.Forall₂ ReadsAs text ascii) : inAscii text = ascii := by
  induction h with
  | nil => rfl
  | @cons c a text ascii hfirst hrest ih =>
    rw [IsPlain, List.forall_mem_cons] at hascii
    have hinner := ih hascii.2
    unfold inAscii
    cases hfirst with
    | same => rw [if_pos hascii.1.1, hinner]
    | digit hother hvalue =>
      rw [if_neg (by omega), if_neg (Bool.eq_false_iff.1 (isBlank_eq_false_of_digitValue? hother hvalue)),
        hvalue, hinner, digitChar_eq_ofNat _ (digitValue?_lt hvalue)]
    | blank hother hblank => rw [if_neg (by omega), if_pos hblank, hinner]

/-- The last character of ASCII is neither blank nor a digit. -/
theorem delete_eq_none : Unicode.isBlank (Char.ofNat 0x7F) = false ∧
    Unicode.digitValue? (Char.ofNat 0x7F) = none := by
  decide

/-- A text reads as the one that it is taken to, if that is plain. -/
theorem forall₂_readsAs_of_inAscii {ascii : List Char} (hascii : IsPlain ascii)
    (h : inAscii text = ascii) : List.Forall₂ ReadsAs text ascii := by
  induction text generalizing ascii with
  | nil =>
    cases h
    exact .nil
  | cons c text ih =>
    subst h
    unfold inAscii at hascii ⊢
    split at hascii
    · rename_i hlow
      rw [if_pos hlow]
      exact .cons (.same (by omega)) (ih (List.forall_mem_cons.1 hascii).2 rfl)
    · rename_i hhigh
      have hother : Unicode.isBlank c = true ∨ (Unicode.digitValue? c).isSome → 0x80 ≤ c.toNat := by
        intro h
        by_contra hlt
        have hdelete : c = Char.ofNat 0x7F := by
          rw [← Char.ofNat_toNat c]
          congr 1
          omega
        subst hdelete
        simp [delete_eq_none] at h
      split at hascii
      · rename_i hblank
        rw [if_neg hhigh, if_pos hblank]
        exact .cons (.blank (hother (.inl hblank)) hblank) (ih (List.forall_mem_cons.1 hascii).2 rfl)
      · rename_i hblank
        rw [if_neg hhigh, if_neg hblank]
        split at hascii
        · rename_i digit hvalue
          rw [← digitChar_eq_ofNat _ (digitValue?_lt hvalue)]
          exact .cons (.digit (hother (.inr (by rw [hvalue]; rfl))) hvalue)
            (ih (List.forall_mem_cons.1 hascii).2 rfl)
        · exact absurd rfl (hascii '?' List.mem_cons_self).2

/-- A text in ASCII is read as it is. -/
theorem eq_of_readsAs {ascii : List Char} (htext : ∀ c ∈ text, c.toNat < 0x80)
    (h : List.Forall₂ ReadsAs text ascii) : text = ascii := by
  induction h with
  | nil => rfl
  | cons hfirst hrest ih =>
    rw [List.forall_mem_cons] at htext
    rw [ih htext.2]
    cases hfirst with
    | same => rfl
    | digit hother => exact absurd htext.1 (Nat.not_lt.2 hother)
    | blank hother => exact absurd htext.1 (Nat.not_lt.2 hother)

/-- Texts in other scripts are read as texts in ASCII. -/
theorem forall₂_readsAs_iff {ascii : List Char} (hascii : IsPlain ascii) :
    List.Forall₂ ReadsAs text ascii ↔ plain text = ascii := by
  unfold plain
  split
  · rename_i hall
    have hlow : ∀ c ∈ text, c.toNat < 0x80 := by simpa using hall
    constructor
    · intro h
      exact eq_of_readsAs hlow h
    · rintro rfl
      exact List.forall₂_same.2 fun c hc => .same (hlow c hc)
  · exact ⟨inAscii_eq_of_readsAs hascii, forall₂_readsAs_of_inAscii hascii⟩

/-! ## The characters of numerals -/

/-- Two texts together are plain if both are. -/
theorem isPlain_append {more : List Char} : IsPlain (text ++ more) ↔ IsPlain text ∧ IsPlain more :=
  List.forall_mem_append

/-- Digits are plain. -/
theorem IsDigit.isPlain (hradix : radix ≤ 16) (h : IsDigit radix c digit) : c.toNat < 0x7F ∧ c ≠ '?' :=
  ⟨toNat_lt_of_digitOf? ((isDigit_iff hradix).1 h).2, h.ne_of_digitOf? hradix rfl⟩

/-- So are digits with low lines between them. -/
theorem Digits.isPlain (hradix : radix ≤ 16) (h : Digits radix text digits) : IsPlain text := by
  intro c hc
  rcases (h.isSpelled hradix).belong c hc with hdigit | rfl
  · obtain ⟨digit, hdigit⟩ := (isDigitIn_eq_true_iff hradix).1 hdigit
    exact hdigit.isPlain hradix
  · decide

/-- So are marks. -/
theorem IsMark.isPlain (h : IsMark c radix) : c.toNat < 0x7F ∧ c ≠ '?' := by
  simp only [IsMark, List.mem_cons, Prod.mk.injEq, List.not_mem_nil, or_false] at h
  rcases h with ⟨rfl, -⟩ | ⟨rfl, -⟩ | ⟨rfl, -⟩ | ⟨rfl, -⟩ | ⟨rfl, -⟩ | ⟨rfl, -⟩ <;> decide

/-- So are numerals without a sign. -/
theorem Unsigned.isPlain (h : Unsigned text size) : IsPlain text := by
  unfold IsPlain
  cases h with
  | decimal hdigits => exact hdigits.isPlain (by decide)
  | marked hknown hdigits =>
    simp only [List.forall_mem_cons]
    exact ⟨by decide, hknown.isPlain, hdigits.isPlain hknown.le⟩
  | spaced hknown hdigits =>
    simp only [List.forall_mem_cons]
    exact ⟨by decide, hknown.isPlain, by decide, hdigits.isPlain hknown.le⟩

/-- So are numerals with a sign. -/
theorem Signed.isPlain (h : Signed text value) : IsPlain text := by
  cases h with
  | unsigned h => exact h.isPlain
  | plus h => exact List.forall_mem_cons.2 ⟨by decide, h.isPlain⟩
  | minus h => exact List.forall_mem_cons.2 ⟨by decide, h.isPlain⟩

/-- A numeral in ASCII spells its number. -/
theorem Signed.spells {text : String} {value : Int} (h : Signed text.toList value) : Spells text value := by
  refine ⟨[], text.toList, [], ?_, by simp, h, by simp⟩
  rw [List.nil_append, List.append_nil]
  exact List.forall₂_same.2 fun c hc => .same (Nat.lt_succ_of_lt (h.isPlain c hc).1)

/-- So are blank texts of ASCII. -/
theorem isPlain_of_blank (h : ∀ c ∈ text, isAsciiBlank c = true) : IsPlain text := by
  intro c hc
  have hlow := toNat_lt_of_isAsciiBlank (h c hc)
  refine ⟨by omega, ?_⟩
  rintro rfl
  exact absurd hlow (by decide)

end BinaryStrings.Numeral
