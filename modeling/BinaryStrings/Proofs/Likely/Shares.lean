import BinaryStrings.Likely
import Mathlib.Algebra.Order.Floor.Semifield
import Mathlib.Data.Rat.Floor
import Mathlib.Tactic.Linarith
import Mathlib.Tactic.NormNum

/-!
# Whole percentages and shares

A percentage that is rounded down is below a whole one exactly if the share itself is.  It is above a whole
one only if the share reaches the next: a share of 80.9 percent does not count as more than 80 percent.  So
the test for good characters is exact, and the test for hex characters misses the shares between 80 and 81
percent, which only texts of more than twenty characters have.

Main results:

- Theorem `percentOf_lt_iff`: what it means to be below a percentage.
- Theorem `lt_percentOf_iff`: what it means to be above one.
- Theorem `judges_by_share`: the judgements on texts by their shares.
-/

namespace BinaryStrings.Likely

/-- The share of the characters of a text that satisfy a test; zero for an empty text. -/
def share (test : Char → Bool) (text : List Char) : ℚ :=
  (text.countP test : ℚ) / text.length

variable {test : Char → Bool} {text : List Char}

theorem share_nonneg (test : Char → Bool) (text : List Char) : 0 ≤ share test text :=
  div_nonneg (Nat.cast_nonneg _) (Nat.cast_nonneg _)

/-- A percentage is the share in percent, rounded down. -/
theorem percentOf_eq_floor (test : Char → Bool) (text : List Char) :
    percentOf test text = ⌊share test text * 100⌋₊ := by
  have hpercent : share test text * 100 = ((text.countP test * 100 : ℕ) : ℚ) / text.length := by
    rw [share, div_mul_eq_mul_div]
    push_cast
    rfl
  rw [hpercent, Nat.floor_div_eq_div, percentOf]

/-- Rounding down loses nothing below a whole percentage. -/
theorem percentOf_lt_iff {percent : ℕ} :
    percentOf test text < percent ↔ share test text < percent / 100 := by
  have hpercent : 0 ≤ share test text * 100 := mul_nonneg (share_nonneg test text) (by norm_num)
  rw [percentOf_eq_floor, Nat.floor_lt hpercent, lt_div_iff₀ (by norm_num)]

/-- A percentage that is rounded down is above a whole one from the next one on. -/
theorem lt_percentOf_iff {percent : ℕ} :
    percent < percentOf test text ↔ (percent + 1) / 100 ≤ share test text := by
  have hpercent : 0 ≤ share test text * 100 := mul_nonneg (share_nonneg test text) (by norm_num)
  rw [percentOf_eq_floor, ← Nat.add_one_le_iff, Nat.le_floor_iff hpercent, div_le_iff₀ (by norm_num)]
  push_cast
  rfl

/-- Only long texts have a share between 80 and 81 percent. -/
theorem twenty_lt_length_of_share (hlow : 80 / 100 < share test text)
    (hhigh : share test text < 81 / 100) : 20 < text.length := by
  have hpos : 0 < text.length := by
    refine Nat.pos_of_ne_zero fun hzero => ?_
    rw [share, hzero, Nat.cast_zero, div_zero] at hlow
    norm_num at hlow
  have hlength : (0 : ℚ) < text.length := Nat.cast_pos.2 hpos
  rw [share, div_lt_div_iff₀ (by norm_num) hlength] at hlow
  rw [share, div_lt_div_iff₀ hlength (by norm_num)] at hhigh
  norm_cast at hlow hhigh
  omega

/-- A run is taken for text exactly if it is more than blanks and padding, at least 70 percent of it are
good characters, and it does not look like disassembly. -/
theorem isLikely_iff : isLikely text = true ↔
    Text.trim text ≠ [] ∧ isRepeated (Text.trim text) = false ∧
      70 / 100 ≤ share isGood (Text.trim text) ∧ looksLikeAssembly (Text.trim text) = false := by
  have hgood : leastGoodPercent ≤ percentOf isGood (Text.trim text) ↔
      70 / 100 ≤ share isGood (Text.trim text) := by
    rw [← Nat.not_lt, percentOf_lt_iff, not_lt]
    norm_num [leastGoodPercent]
  simp [isLikely, hgood, and_assoc]

/-- A text looks like disassembly exactly if it has a mnemonic or at least 81 percent of its lower-case form
are hex characters. -/
theorem looksLikeAssembly_iff : looksLikeAssembly text = true ↔
    hasMnemonic (Unicode.lowercase text) = true ∨
      81 / 100 ≤ share hexCharacters.contains (Unicode.lowercase text) := by
  have hhex : mostHexPercent < percentOf hexCharacters.contains (Unicode.lowercase text) ↔
      81 / 100 ≤ share hexCharacters.contains (Unicode.lowercase text) := by
    rw [lt_percentOf_iff]
    norm_num [mostHexPercent]
  -- The test for an empty text decides nothing: it has no hex characters.
  have hne : 81 / 100 ≤ share hexCharacters.contains (Unicode.lowercase text) →
      Unicode.lowercase text ≠ [] := by
    intro hshare hnil
    rw [hnil, share, List.countP_nil, Nat.cast_zero, zero_div] at hshare
    norm_num at hshare
  simp only [looksLikeAssembly, Bool.or_eq_true, Bool.and_eq_true, Bool.not_eq_true',
    List.isEmpty_eq_false_iff, decide_eq_true_eq, hhex]
  exact or_congr_right ⟨And.right, fun hshare => ⟨hne hshare, hshare⟩⟩

/-- A text is judged by two shares of characters, each compared as a percentage that is rounded down.  For
good characters this is the comparison of the share with 70 percent.  For hex characters, in a text without a
mnemonic, it is the comparison with 81 percent, and so the one with more than 80 percent unless the share is
between the two, which it never is in a text of at most twenty characters. -/
theorem judges_by_share (text : List Char) :
    (Text.trim text ≠ [] → (percentOf isGood (Text.trim text) < leastGoodPercent ↔
      share isGood (Text.trim text) < 70 / 100)) ∧
    (isLikely text = true ↔
      Text.trim text ≠ [] ∧ isRepeated (Text.trim text) = false ∧
        70 / 100 ≤ share isGood (Text.trim text) ∧ looksLikeAssembly (Text.trim text) = false) ∧
    (hasMnemonic (Unicode.lowercase text) = false → Unicode.lowercase text ≠ [] →
      let hex := share hexCharacters.contains (Unicode.lowercase text)
      (looksLikeAssembly text = true ↔ 81 / 100 ≤ hex) ∧
      ((looksLikeAssembly text = true ↔ 80 / 100 < hex) ↔ ¬ (80 / 100 < hex ∧ hex < 81 / 100)) ∧
      ((Unicode.lowercase text).length ≤ 20 → (looksLikeAssembly text = true ↔ 80 / 100 < hex))) := by
  refine ⟨fun _ => ?_, isLikely_iff, fun hmnemonic _ => ?_⟩
  · rw [percentOf_lt_iff]
    norm_num [leastGoodPercent]
  intro hex
  have hflagged : looksLikeAssembly text = true ↔ 81 / 100 ≤ hex := by
    rw [looksLikeAssembly_iff, hmnemonic]
    simp [hex]
  have hagrees : (looksLikeAssembly text = true ↔ 80 / 100 < hex) ↔
      ¬ (80 / 100 < hex ∧ hex < 81 / 100) := by
    rw [hflagged, not_and, not_lt]
    refine ⟨Iff.mpr, fun hreach => ⟨fun hhigh => ?_, hreach⟩⟩
    linarith
  refine ⟨hflagged, hagrees, fun hlength => hagrees.2 fun hbetween => ?_⟩
  have hlong := twenty_lt_length_of_share hbetween.1 hbetween.2
  omega

/-- A hex number between blanks has 14 hex characters of 17, which is more than 81 percent, and although
all of it is good between the blanks it is not taken for text. -/
theorem judges_by_share_blank_hex :
    let text := "  0x1A2B3C4D5E6F ".toList
    Text.trim text ≠ [] ∧ ¬ percentOf isGood (Text.trim text) < leastGoodPercent ∧
      hasMnemonic (Unicode.lowercase text) = false ∧ Unicode.lowercase text ≠ [] ∧
      (Unicode.lowercase text).length ≤ 20 ∧ looksLikeAssembly text = true ∧ isLikely text = false := by
  intro text
  obtain ⟨hgood, hlikely, hhex⟩ := judges_by_share text
  have htrimmed : Text.trim text ≠ [] := by decide +kernel
  have hall : share isGood (Text.trim text) = 14 / 14 := by
    have hcount : (Text.trim text).countP isGood = 14 := by decide +kernel
    have hlength : (Text.trim text).length = 14 := by decide +kernel
    rw [share, hcount, hlength]
    norm_num
  have hmnemonic : hasMnemonic (Unicode.lowercase text) = false := by decide +kernel
  have hne : Unicode.lowercase text ≠ [] := by decide +kernel
  have hlength : (Unicode.lowercase text).length = 17 := by decide +kernel
  have hmost : 80 / 100 < share hexCharacters.contains (Unicode.lowercase text) := by
    have hcount : (Unicode.lowercase text).countP hexCharacters.contains = 14 := by decide +kernel
    rw [share, hcount, hlength]
    norm_num
  have hshort : (Unicode.lowercase text).length ≤ 20 := by omega
  refine ⟨htrimmed, ?_, hmnemonic, hne, hshort, ((hhex hmnemonic hne).2.2 hshort).2 hmost, ?_⟩
  · rw [hgood htrimmed, hall]
    norm_num
  · refine Bool.eq_false_iff.2 fun h => ?_
    have hcalm := (hlikely.1 h).2.2.2
    have hflagged : looksLikeAssembly (Text.trim text) = true := by decide +kernel
    rw [hcalm] at hflagged
    cases hflagged

/-- A text of 17 hex characters and four dashes has more than 80 percent of hex characters and no mnemonic,
and yet it does not look like disassembly and is taken for text. -/
theorem looksLikeAssembly_misses_dashed_hex :
    let text := "dead-beef-cafe-0123-4".toList
    hasMnemonic (Unicode.lowercase text) = false ∧ (Unicode.lowercase text).length = 21 ∧
      80 / 100 < share hexCharacters.contains (Unicode.lowercase text) ∧
      looksLikeAssembly text = false ∧ isLikely text = true := by
  intro text
  have hcount : (Unicode.lowercase text).countP hexCharacters.contains = 17 := by decide +kernel
  have hlength : (Unicode.lowercase text).length = 21 := by decide +kernel
  refine ⟨by decide +kernel, hlength, ?_, by decide +kernel, by decide +kernel⟩
  rw [share, hcount, hlength]
  norm_num

end BinaryStrings.Likely
