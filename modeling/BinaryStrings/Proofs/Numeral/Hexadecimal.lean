import BinaryStrings.Text.Hex
import BinaryStrings.Proofs.Numeral.Reading

/-!
# Hexadecimal numerals

An address is written with the `0x` mark and lower-case digits, and it is read back from this text.

Main results:

- Theorem `valueOf_toDigits`: digits of a base up to sixteen spell the number that they are made of.
- Theorem `readAddress_hexNumber`: a written address is read back.
-/

namespace BinaryStrings

namespace Numeral

variable {radix n : Nat} {c : Char}

/-! ## Digits -/

/-- The digits of a number in a base stand for numbers below the base. -/
theorem exists_digitChar_of_mem_toDigits (hradix : 1 < radix) (hc : c ∈ Nat.toDigits radix n) :
    ∃ d < radix, c = d.digitChar := by
  induction n using Nat.strongRecOn with
  | ind n ih =>
    rcases Nat.lt_or_ge n radix with hsmall | hlarge
    · rw [Nat.toDigits_of_lt_base hsmall, List.mem_singleton] at hc
      exact ⟨n, hsmall, hc⟩
    · rw [Nat.toDigits_of_base_le hradix hlarge, List.mem_append, List.mem_singleton] at hc
      rcases hc with hfront | hlast
      · exact ih (n / radix) (Nat.div_lt_self (by omega) hradix) hfront
      · exact ⟨n % radix, Nat.mod_lt _ (by omega), hlast⟩

/-- The digits of a number in a base are a numeral of the rules, and it is the number. -/
theorem exists_digits_toDigits (hradix : 1 < radix) (n : Nat) :
    ∃ digits, Digits radix (Nat.toDigits radix n) digits ∧ number radix digits = n := by
  induction n using Nat.strongRecOn with
  | ind n ih =>
    rcases Nat.lt_or_ge n radix with hsmall | hlarge
    · rw [Nat.toDigits_of_lt_base hsmall]
      exact ⟨[n], .last ⟨hsmall, .inl rfl⟩, Nat.ofDigits_singleton⟩
    · obtain ⟨digits, hdigits, hnumber⟩ := ih (n / radix) (Nat.div_lt_self (by omega) hradix)
      rw [Nat.toDigits_of_base_le hradix hlarge]
      refine ⟨digits ++ [n % radix], hdigits.append_digit ⟨Nat.mod_lt _ (by omega), .inl rfl⟩, ?_⟩
      rw [number_append_singleton, hnumber, Nat.mul_comm, Nat.div_add_mod]

/-- The digits of a number in a base spell the number. -/
theorem valueOf_toDigits (hradix : 1 < radix) (hle : radix ≤ 16) (n : Nat) :
    valueOf radix (Nat.toDigits radix n) = n := by
  obtain ⟨digits, hdigits, hnumber⟩ := exists_digits_toDigits hradix n
  have hplain : (Nat.toDigits radix n).filter (· != '_') = Nat.toDigits radix n := by
    refine List.filter_eq_self.2 fun c hc => bne_iff_ne.2 ?_
    obtain ⟨d, hd, hchar⟩ := exists_digitChar_of_mem_toDigits hradix hc
    exact IsDigit.ne_of_digitOf? hle ⟨hd, .inl hchar⟩ rfl
  rw [← hplain, hdigits.valueOf_filter hle, hnumber]

/-! ## Written addresses -/

theorem toList_hexNumber (n : Nat) :
    (Text.hexNumber n).toList = '0' :: 'x' :: Nat.toDigits 16 n := by
  have hnonneg : ¬ (n : Int) < 0 := by omega
  simp [Text.hexNumber, Text.hexDigits, hnonneg]

/-- A number written with the `0x` mark is read back. -/
theorem read_hexNumber (n : Nat) : read .marked (Text.hexNumber n) = .ok n := by
  obtain ⟨digits, hdigits, hnumber⟩ := exists_digits_toDigits (by decide : 1 < 16) n
  have hunsigned : Unsigned (Text.hexNumber n).toList (number 16 digits) := by
    rw [toList_hexNumber]
    exact .marked (by decide) hdigits
  rw [hnumber] at hunsigned
  exact read_marked_eq_ok_iff.2 (Signed.unsigned hunsigned).spells

end Numeral

/-- An address that is written with the `0x` mark is read back. -/
theorem readAddress_hexNumber (n : Nat) : readAddress (Text.hexNumber n) = .ok n := by
  have hnonneg : ¬ (n : Int) < 0 := by omega
  rw [readAddress, Numeral.read_hexNumber]
  simp [hnonneg]

end BinaryStrings
