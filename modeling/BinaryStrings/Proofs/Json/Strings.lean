import BinaryStrings.Json.Reader
import BinaryStrings.Json.Writer
import BinaryStrings.Proofs.Text.Utf8
import Mathlib.Data.Nat.Digits.Defs

/-!
# Reading written strings

What is written for a character inside a JSON string is read back as this character, in full Unicode
and in ASCII.  A code point above U+FFFF is written in ASCII as two escapes, which the reader puts
together again.

Main results:

- Theorem `fourDigits?_hexPadded`: four hexadecimal digits are read as the number they were written
  for.
- Theorem `spells_stringChar`: the four ways in which a character is written.
- Theorem `readString_stringChar`: the reader takes one round for each character.
- Theorem `readString_flatMap`: a text is read back up to the quote behind it.
-/

namespace BinaryStrings.Json

/-! ## Escapes of four digits -/

/-- A hexadecimal digit has its value. -/
theorem hexValue?_digitChar : ∀ n < 16, hexValue? n.digitChar = some n := by
  decide

/-- A number of at most four hexadecimal digits, digit by digit. -/
theorem hexPadded_four {n : Nat} (hn : n < 0x10000) :
    Text.hexPadded 4 n = [(n / 0x1000).digitChar, (n / 0x100 % 16).digitChar,
      (n / 0x10 % 16).digitChar, (n % 16).digitChar] := by
  have hstep : ∀ m : Nat, 16 ≤ m → Nat.toDigits 16 m = Nat.toDigits 16 (m / 16) ++
      [(m % 16).digitChar] := fun _ hm => Nat.toDigits_of_base_le (by decide) hm
  have hlast : ∀ m : Nat, m < 16 → Nat.toDigits 16 m = [m.digitChar] := fun _ hm =>
    Nat.toDigits_of_lt_base hm
  unfold Text.hexPadded Text.zeroPadded Text.hexDigits
  by_cases h1 : n < 0x10
  · have hhigh : n / 0x1000 = 0 ∧ n / 0x100 % 16 = 0 ∧ n / 0x10 % 16 = 0 ∧ n % 16 = n := by omega
    simp [hlast n h1, hhigh, List.replicate]
  by_cases h2 : n < 0x100
  · have hhigh : n / 0x1000 = 0 ∧ n / 0x100 % 16 = 0 ∧ n / 0x10 % 16 = n / 16 := by omega
    simp [hstep n (by omega), hlast (n / 16) (by omega), hhigh, List.replicate]
  by_cases h3 : n < 0x1000
  · have hhigh : n / 0x1000 = 0 ∧ n / 0x100 % 16 = n / 16 / 16 ∧ n / 0x10 % 16 = n / 16 % 16 := by
      omega
    simp [hstep n (by omega), hstep (n / 16) (by omega), hlast (n / 16 / 16) (by omega), hhigh]
  · have hhigh : n / 0x1000 = n / 16 / 16 / 16 ∧ n / 0x100 % 16 = n / 16 / 16 % 16 := by omega
    simp [hstep n (by omega), hstep (n / 16) (by omega), hstep (n / 16 / 16) (by omega),
      hlast (n / 16 / 16 / 16) (by omega), hhigh]

/-- Four hexadecimal digits are read as the number they were written for. -/
theorem fourDigits?_hexPadded {n : Nat} (hn : n < 0x10000) (c : Char) (rest : List Char) :
    fourDigits? (Text.hexPadded 4 n ++ c :: rest) = some (n, c :: rest) := by
  rw [hexPadded_four hn]
  simp only [List.cons_append, List.nil_append, fourDigits?,
    hexValue?_digitChar (n / 0x1000) (by omega), hexValue?_digitChar (n / 0x100 % 16) (by omega),
    hexValue?_digitChar (n / 0x10 % 16) (by omega), hexValue?_digitChar (n % 16) (by omega)]
  congr 2
  omega

/-- Four digits are enough for a code unit. -/
theorem length_hexPadded_four {n : Nat} (hn : n < 0x10000) :
    (Text.hexPadded 4 n).length = 4 := by
  rw [hexPadded_four hn]
  rfl

/-! ## Characters -/

/-- The number of a character stands for this character. -/
theorem wholeChar_toNat (c : Char) : wholeChar c.toNat = c := by
  rw [wholeChar, if_pos (Utf8.isValidChar_toNat c), Char.ofNat_toNat]

variable {left fuel : Nat} {read rest : List Char}

/-- A character below U+10000 is read back from its escape. -/
theorem readString_unitEscape {c : Char} (hc : c.toNat < 0x10000) (hrest : rest ≠ []) :
    readString left (fuel + 1) read (unitEscape c.toNat ++ rest) =
      readString left fuel (c :: read) rest := by
  obtain ⟨d, more, rfl⟩ := List.exists_cons_of_ne_nil hrest
  have hhigh : ¬ (0xD800 ≤ c.toNat ∧ c.toNat < 0xDC00) := by
    have hvalid := Utf8.isValidChar_toNat c
    simp only [Nat.isValidChar] at hvalid
    omega
  simp only [unitEscape, List.cons_append, readString, fourDigits?_hexPadded hc]
  split
  · contradiction
  · rename_i hsome
    cases hsome
    simp [hhigh, wholeChar_toNat]
  · rename_i hsome
    cases hsome
    rw [wholeChar_toNat]

/-- Two escapes of a surrogate pair are read as the character that they stand for. -/
theorem readString_pair {high low : Nat} {c : Char} (hhigh : 0xD800 ≤ high ∧ high < 0xDC00)
    (hlow : 0xDC00 ≤ low ∧ low < 0xE000)
    (hpoint : 0x10000 + (high - 0xD800) * 0x400 + (low - 0xDC00) = c.toNat) (hrest : rest ≠ []) :
    readString left (fuel + 1) read (unitEscape high ++ (unitEscape low ++ rest)) =
      readString left fuel (c :: read) rest := by
  obtain ⟨d, more, rfl⟩ := List.exists_cons_of_ne_nil hrest
  have hlength : 4 < (Text.hexPadded 4 low ++ d :: more).length := by
    rw [List.length_append, length_hexPadded_four (by omega), List.length_cons]
    omega
  have hbranch : (decide (0xD800 ≤ high) && decide (high < 0xDC00) &&
      decide (4 < (Text.hexPadded 4 low ++ d :: more).length)) = true := by
    simp only [hhigh, hlength, decide_true, Bool.and_self]
  simp only [unitEscape, List.cons_append, readString,
    fourDigits?_hexPadded (show high < 0x10000 by omega)]
  rw [if_pos hbranch]
  simp only [fourDigits?_hexPadded (show low < 0x10000 by omega), hlow, decide_true, Bool.and_self,
    if_true]
  rw [hpoint, Char.ofNat_toNat]

/-- A letter behind a backslash is read as what it stands for. -/
theorem readString_escape {mark c : Char} (hmark : escaped? mark = some c) :
    readString left (fuel + 1) read ('\\' :: mark :: rest) =
      readString left fuel (c :: read) rest := by
  have hne : mark ≠ 'u' := by
    rintro rfl
    cases hmark
  simp [readString, hmark]

/-- The ways to write a character inside a JSON string. -/
inductive Spells (asciiOnly : Bool) (c : Char) : List Char → Prop
  | mark {mark : Char} (means : escaped? mark = some c) : Spells asciiOnly c ['\\', mark]
  | unit (small : c.toNat < 0x10000) : Spells asciiOnly c (unitEscape c.toNat)
  | plain (unmarked : ¬ (c = '"' ∨ c = '\\')) (least : 0x20 ≤ c.toNat)
    (most : asciiOnly = true → c.toNat < 0x7F) : Spells asciiOnly c [c]
  | pair {high low : Nat} (first : 0xD800 ≤ high ∧ high < 0xDC00)
    (second : 0xDC00 ≤ low ∧ low < 0xE000)
    (point : 0x10000 + (high - 0xD800) * 0x400 + (low - 0xDC00) = c.toNat) :
    Spells asciiOnly c (unitEscape high ++ unitEscape low)

/-- What a character is written as spells this character. -/
theorem spells_stringChar (asciiOnly : Bool) (c : Char) :
    Spells asciiOnly c (stringChar asciiOnly c) := by
  have hnumber : ∀ {n : Nat}, (c.toNat == n) = true → c = Char.ofNat n := by
    intro n hn
    rw [← beq_iff_eq.1 hn, Char.ofNat_toNat]
  have hbound := Utf8.toNat_lt c
  unfold stringChar
  dsimp only
  split
  · rename_i hquote
    simp only [Bool.or_eq_true, beq_iff_eq] at hquote
    rcases hquote with rfl | rfl <;> exact .mark rfl
  rename_i hunmarked
  split
  · rename_i hbreak
    exact .mark (congrArg some (beq_iff_eq.1 hbreak).symm)
  split
  · rename_i hreturn
    exact .mark (congrArg some (beq_iff_eq.1 hreturn).symm)
  split
  · rename_i htab
    exact .mark (congrArg some (beq_iff_eq.1 htab).symm)
  split
  · rename_i hback
    exact .mark (congrArg some (hnumber hback).symm)
  split
  · rename_i hfeed
    exact .mark (congrArg some (hnumber hfeed).symm)
  split
  · exact .unit (by omega)
  rename_i hcontrol
  split
  · rename_i hplain
    rw [Bool.or_eq_true, decide_eq_true_eq] at hplain
    refine .plain (by simpa using hunmarked) (by omega) fun hascii => ?_
    exact hplain.resolve_left (by rw [hascii]; decide)
  split
  · rename_i hsmall
    exact .unit hsmall
  · exact .pair (by omega) (by omega) (by omega)

/-- The reader takes one round for each character. -/
theorem readString_stringChar (asciiOnly : Bool) (c : Char) (hrest : rest ≠ []) :
    readString left (fuel + 1) read (stringChar asciiOnly c ++ rest) =
      readString left fuel (c :: read) rest := by
  have hspells := spells_stringChar asciiOnly c
  generalize stringChar asciiOnly c = text at hspells ⊢
  cases hspells with
  | mark hmeans => exact readString_escape hmeans
  | unit hsmall => exact readString_unitEscape hsmall hrest
  | plain hunmarked hleast hmost =>
    rw [not_or] at hunmarked
    simp [readString, hunmarked, Nat.not_lt.2 hleast]
  | pair hfirst hsecond hpoint =>
    rw [List.append_assoc]
    exact readString_pair hfirst hsecond hpoint hrest

/-! ## Texts -/

/-- A text is read back up to the quote behind it. -/
theorem readString_flatMap (asciiOnly : Bool) {text : List Char} (hfuel : text.length < fuel) :
    readString left fuel read (text.flatMap (stringChar asciiOnly) ++ '"' :: rest) =
      .ok (String.ofList (read.reverse ++ text), rest) := by
  induction text generalizing fuel read with
  | nil =>
    obtain ⟨fuel, rfl⟩ := Nat.exists_eq_add_one_of_ne_zero (Nat.ne_of_gt hfuel)
    simp [readString]
  | cons c text ih =>
    obtain ⟨fuel, rfl⟩ := Nat.exists_eq_add_one_of_ne_zero (Nat.ne_zero_of_lt hfuel)
    rw [List.length_cons, Nat.add_lt_add_iff_right] at hfuel
    rw [List.flatMap_cons, List.append_assoc, readString_stringChar asciiOnly c (by simp), ih hfuel]
    simp

/-- No character is written as nothing, -/
theorem length_stringChar_pos (asciiOnly : Bool) (c : Char) :
    0 < (stringChar asciiOnly c).length := by
  have hspells := spells_stringChar asciiOnly c
  generalize stringChar asciiOnly c = text at hspells ⊢
  cases hspells with
  | mark hmeans => exact Nat.succ_pos _
  | unit hsmall => exact Nat.succ_pos _
  | plain hunmarked hleast hmost => exact Nat.succ_pos _
  | pair hfirst hsecond hpoint => exact Nat.succ_pos _

/-- so a text is not longer than what it is written as. -/
theorem length_le_flatMap_stringChar (asciiOnly : Bool) (text : List Char) :
    text.length ≤ (text.flatMap (stringChar asciiOnly)).length := by
  induction text with
  | nil => simp
  | cons c text ih =>
    have hc := length_stringChar_pos asciiOnly c
    simp only [List.flatMap_cons, List.length_append, List.length_cons]
    omega

/-- What is written for a text is read back from behind its opening quote. -/
theorem readString_stringChars (asciiOnly : Bool) (text : String) (hfuel : text.length < fuel) :
    readString left fuel [] (text.toList.flatMap (stringChar asciiOnly) ++ '"' :: rest) =
      .ok (text, rest) := by
  rw [readString_flatMap asciiOnly (by rwa [String.length_toList])]
  simp

end BinaryStrings.Json
