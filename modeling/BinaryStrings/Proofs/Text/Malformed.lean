import BinaryStrings.Proofs.Text.Utf8
import Mathlib.Data.List.Basic

/-!
# Malformed sequences

A sequence is a lead byte with as many continuation bytes behind it as it announces, and it spells a
number.  It is the written form of a character if the number is a code point that no shorter sequence
spells.  A buffer that starts with no written form is malformed in one of seven ways.

Main results:

- Theorem `encodeChar_eq_utf8EncodeChar`: the written forms are the bytes of core strings.
- Theorem `Spells.encodeChar_eq`: the shortest sequence of a code point is its written form.
- Theorem `decodeFirst_eq_none_iff`: nothing is read exactly from an empty or a malformed buffer.
-/

namespace BinaryStrings.Utf8

/-- The written forms are the bytes of core strings. -/
theorem encodeChar_eq_utf8EncodeChar (c : Char) : encodeChar c = String.utf8EncodeChar c := by
  have hlt := toNat_lt c
  have hval : c.val.toNat = c.toNat := rfl
  unfold encodeChar String.utf8EncodeChar
  simp only [hval]
  generalize c.toNat = n at hlt
  have hlast : 0x80 + n % 0x40 = n % 64 + 128 := Nat.add_comm _ _
  have hthird : 0x80 + n / 0x40 % 0x40 = n / 64 % 64 + 128 := Nat.add_comm _ _
  have hsecond : 0x80 + n / 0x1000 % 0x40 = n / 4096 % 64 + 128 := Nat.add_comm _ _
  split
  · rw [if_pos (by omega)]
  split
  · have hlead : 0xC0 + n / 0x40 = n / 64 % 32 + 192 := by omega
    rw [if_neg (by omega), if_pos (by omega), hlead, hlast]
  split
  · have hlead : 0xE0 + n / 0x1000 = n / 4096 % 16 + 224 := by omega
    rw [if_neg (by omega), if_neg (by omega), if_pos (by omega), hlead, hthird, hlast]
  · have hlead : 0xF0 + n / 0x40000 = n / 262144 % 8 + 240 := by omega
    rw [if_neg (by omega), if_neg (by omega), if_neg (by omega), hlead, hsecond, hthird, hlast]

/-! ## Sequences -/

/-- The number of continuation bytes that a lead byte announces, and the bits of the number that it has
itself.  A continuation byte announces nothing, and neither do the bytes from 0xF8 on. -/
def announcement? (lead : UInt8) : Option (Nat × Nat) :=
  let n := lead.toNat
  if n < 0x80 then some (0, n)
  else if n < 0xC0 then none
  else if n < 0xE0 then some (1, n - 0xC0)
  else if n < 0xF0 then some (2, n - 0xE0)
  else if n < 0xF8 then some (3, n - 0xF0)
  else none

/-- The number that continuation bytes spell behind the bits of a lead byte, six bits each. -/
def continued (high : Nat) (tail : Bytes) : Nat :=
  tail.foldl (fun n byte => n * 0x40 + (byte.toNat - 0x80)) high

/-- The bytes are a lead byte and the continuation bytes that it announces, and they spell the number,
which may be too large for a character or be written in fewer bytes. -/
inductive Spells : Bytes → Nat → Prop
  | intro {lead : UInt8} {tail : Bytes} {high n : Nat}
    (announced : announcement? lead = some (tail.length, high))
    (continuing : ∀ byte ∈ tail, isContinuation byte = true)
    (spelled : continued high tail = n) : Spells (lead :: tail) n

/-- The ways in which the start of a buffer is no written character. -/
inductive IsMalformed : Bytes → Prop
  /-- A continuation byte without a lead byte. -/
  | stray {byte : UInt8} {rest : Bytes} (continuing : isContinuation byte = true) :
    IsMalformed (byte :: rest)
  /-- A byte that no sequence has. -/
  | foreign {byte : UInt8} {rest : Bytes} (high : 0xF8 ≤ byte.toNat) : IsMalformed (byte :: rest)
  /-- Another byte where a continuation byte has been announced. -/
  | broken {lead other : UInt8} {tail rest : Bytes} {count high : Nat}
    (announced : announcement? lead = some (count, high))
    (continuing : ∀ byte ∈ tail, isContinuation byte = true) (short : tail.length < count)
    (breaks : isContinuation other = false) : IsMalformed (lead :: (tail ++ other :: rest))
  /-- The end of the buffer where a continuation byte has been announced. -/
  | cutOff {lead : UInt8} {tail : Bytes} {count high : Nat}
    (announced : announcement? lead = some (count, high))
    (continuing : ∀ byte ∈ tail, isContinuation byte = true) (short : tail.length < count) :
    IsMalformed (lead :: tail)
  /-- A sequence of more bytes than its number needs. -/
  | overlong {bytes shorter rest : Bytes} {n : Nat} (spells : Spells bytes n)
    (also : Spells shorter n) (length_lt : shorter.length < bytes.length) :
    IsMalformed (bytes ++ rest)
  /-- A sequence that spells half of a surrogate pair. -/
  | surrogate {bytes rest : Bytes} {n : Nat} (spells : Spells bytes n) (low : 0xD800 ≤ n)
    (high : n ≤ 0xDFFF) : IsMalformed (bytes ++ rest)
  /-- A sequence that spells a number above all code points. -/
  | tooLarge {bytes rest : Bytes} {n : Nat} (spells : Spells bytes n) (high : 0x10FFFF < n) :
    IsMalformed (bytes ++ rest)

theorem announcement?_eq_some_iff {lead : UInt8} {count high : Nat} :
    announcement? lead = some (count, high) ↔
      (count = 0 ∧ high = lead.toNat ∧ lead.toNat < 0x80) ∨
      (count = 1 ∧ high = lead.toNat - 0xC0 ∧ 0xC0 ≤ lead.toNat ∧ lead.toNat < 0xE0) ∨
      (count = 2 ∧ high = lead.toNat - 0xE0 ∧ 0xE0 ≤ lead.toNat ∧ lead.toNat < 0xF0) ∨
      (count = 3 ∧ high = lead.toNat - 0xF0 ∧ 0xF0 ≤ lead.toNat ∧ lead.toNat < 0xF8) := by
  unfold announcement?
  grind

theorem announcement?_eq_none_iff {lead : UInt8} :
    announcement? lead = none ↔ isContinuation lead = true ∨ 0xF8 ≤ lead.toNat := by
  rw [isContinuation_iff]
  unfold announcement?
  grind

/-! ## Shapes of a sequence -/

/-- The four lengths of a sequence, and the number that each spells. -/
theorem Spells.shapes {bytes : Bytes} {n : Nat} (h : Spells bytes n) :
    (∃ a, bytes = [a] ∧ a.toNat < 0x80 ∧ n = a.toNat) ∨
      (∃ a b, bytes = [a, b] ∧ 0xC0 ≤ a.toNat ∧ a.toNat < 0xE0 ∧ isContinuation b = true ∧
        n = (a.toNat - 0xC0) * 0x40 + (b.toNat - 0x80)) ∨
      (∃ a b b', bytes = [a, b, b'] ∧ 0xE0 ≤ a.toNat ∧ a.toNat < 0xF0 ∧
        isContinuation b = true ∧ isContinuation b' = true ∧
        n = (a.toNat - 0xE0) * 0x1000 + (b.toNat - 0x80) * 0x40 + (b'.toNat - 0x80)) ∨
      (∃ a b b' b'', bytes = [a, b, b', b''] ∧ 0xF0 ≤ a.toNat ∧ a.toNat < 0xF8 ∧
        isContinuation b = true ∧ isContinuation b' = true ∧ isContinuation b'' = true ∧
        n = (a.toNat - 0xF0) * 0x40000 + (b.toNat - 0x80) * 0x1000 + (b'.toNat - 0x80) * 0x40 +
          (b''.toNat - 0x80)) := by
  obtain ⟨announced, continuing, rfl⟩ := h
  rename_i lead tail high
  rcases announcement?_eq_some_iff.1 announced with
    ⟨hcount, hbits, hlead⟩ | ⟨hcount, hbits, hlow, hhigh⟩ | ⟨hcount, hbits, hlow, hhigh⟩ |
      ⟨hcount, hbits, hlow, hhigh⟩
  · obtain rfl := List.length_eq_zero_iff.1 hcount
    exact .inl ⟨lead, rfl, hlead, hbits⟩
  · obtain ⟨b, rfl⟩ := List.length_eq_one_iff.1 hcount
    refine .inr (.inl ⟨lead, b, rfl, hlow, hhigh, continuing b (by simp), ?_⟩)
    simp only [continued, List.foldl, hbits]
  · obtain ⟨b, b', rfl⟩ := List.length_eq_two.1 hcount
    refine .inr (.inr (.inl ⟨lead, b, b', rfl, hlow, hhigh, continuing b (by simp),
      continuing b' (by simp), ?_⟩))
    simp only [continued, List.foldl, hbits]
    omega
  · obtain ⟨b, b', b'', rfl⟩ := List.length_eq_three.1 hcount
    refine .inr (.inr (.inr ⟨lead, b, b', b'', rfl, hlow, hhigh, continuing b (by simp),
      continuing b' (by simp), continuing b'' (by simp), ?_⟩))
    simp only [continued, List.foldl, hbits]
    omega

/-- The least number that a width is needed for. -/
theorem le_toNat_of_width (c : Char) :
    (1 < width c → 0x80 ≤ c.toNat) ∧ (2 < width c → 0x800 ≤ c.toNat) ∧
      (3 < width c → 0x10000 ≤ c.toNat) := by
  unfold width
  grind

/-- No sequence of a code point is shorter than its written form. -/
theorem Spells.width_le {bytes : Bytes} {c : Char} (h : Spells bytes c.toNat) :
    width c ≤ bytes.length := by
  obtain ⟨htwo, hthree, hfour⟩ := le_toNat_of_width c
  have hwidth := width_le_four c
  rcases h.shapes with ⟨a, rfl, ha, hc⟩ | ⟨a, b, rfl, -, ha, hb, hc⟩ |
    ⟨a, b, b', rfl, -, ha, hb, hb', hc⟩ | ⟨a, b, b', b'', rfl, -⟩
  · rw [List.length_singleton]
    omega
  · rw [isContinuation_iff] at hb
    simp only [List.length_cons, List.length_nil]
    omega
  · rw [isContinuation_iff] at hb hb'
    simp only [List.length_cons, List.length_nil]
    omega
  · exact hwidth

/-- The shortest sequence of a code point is its written form. -/
theorem Spells.encodeChar_eq {bytes : Bytes} {c : Char} (h : Spells bytes c.toNat)
    (hlength : bytes.length ≤ width c) : encodeChar c = bytes := by
  obtain ⟨htwo, hthree, hfour⟩ := le_toNat_of_width c
  rcases h.shapes with ⟨a, rfl, ha, hc⟩ | ⟨a, b, rfl, ha, ha', hb, hc⟩ |
    ⟨a, b, b', rfl, ha, ha', hb, hb', hc⟩ | ⟨a, b, b', b'', rfl, ha, ha', hb, hb', hb'', hc⟩
  · exact encodeChar_one ha hc
  · exact encodeChar_two ha ha' hb (htwo hlength) hc
  · exact encodeChar_three ha ha' hb hb' (hthree hlength) hc
  · exact encodeChar_four ha hb hb' hb'' (hfour hlength) hc

/-- A written form is a sequence of its code point. -/
theorem spells_encodeChar (c : Char) : Spells (encodeChar c) c.toNat := by
  have hlt := toNat_lt c
  unfold encodeChar
  dsimp only
  split
  · have ha := toNat_toUInt8 (n := c.toNat) (by omega)
    exact .intro (announcement?_eq_some_iff.2 (.inl ⟨rfl, rfl, by omega⟩)) (by simp) ha
  have hlast := toNat_toUInt8 (n := 0x80 + c.toNat % 0x40) (by omega)
  split
  · have ha := toNat_toUInt8 (n := 0xC0 + c.toNat / 0x40) (by omega)
    refine .intro (announcement?_eq_some_iff.2 (.inr (.inl ⟨rfl, rfl, by omega, by omega⟩)))
      (List.forall_mem_singleton.2 (isContinuation_iff.2 (by omega))) ?_
    simp only [continued, List.foldl]
    omega
  have hthird := toNat_toUInt8 (n := 0x80 + c.toNat / 0x40 % 0x40) (by omega)
  split
  · have ha := toNat_toUInt8 (n := 0xE0 + c.toNat / 0x1000) (by omega)
    refine .intro (announcement?_eq_some_iff.2 (.inr (.inr (.inl ⟨rfl, rfl, by omega, by omega⟩))))
      (List.forall_mem_cons.2 ⟨isContinuation_iff.2 (by omega),
        List.forall_mem_singleton.2 (isContinuation_iff.2 (by omega))⟩) ?_
    simp only [continued, List.foldl]
    omega
  · have ha := toNat_toUInt8 (n := 0xF0 + c.toNat / 0x40000) (by omega)
    have hsecond := toNat_toUInt8 (n := 0x80 + c.toNat / 0x1000 % 0x40) (by omega)
    refine .intro (announcement?_eq_some_iff.2 (.inr (.inr (.inr ⟨rfl, rfl, by omega, by omega⟩))))
      (List.forall_mem_cons.2 ⟨isContinuation_iff.2 (by omega), List.forall_mem_cons.2
        ⟨isContinuation_iff.2 (by omega),
          List.forall_mem_singleton.2 (isContinuation_iff.2 (by omega))⟩⟩) ?_
    simp only [continued, List.foldl]
    omega

/-- At most one sequence stands at the start of a buffer. -/
theorem Spells.eq_of_prefix {bytes other data : Bytes} {n m : Nat} (h : Spells bytes n)
    (h' : Spells other m) (hbytes : bytes <+: data) (hother : other <+: data) :
    bytes = other ∧ n = m := by
  obtain ⟨announced, -, rfl⟩ := h
  obtain ⟨announced', -, rfl⟩ := h'
  rename_i lead tail high lead' tail' high'
  obtain ⟨rest, rfl⟩ := hbytes
  rw [List.cons_append, List.cons_prefix_cons] at hother
  obtain ⟨rfl, htail⟩ := hother
  rw [announced, Option.some.injEq, Prod.mk.injEq] at announced'
  obtain ⟨hlength, rfl⟩ := announced'
  obtain rfl : tail' = tail := by
    have hbegins := List.prefix_of_prefix_length_le htail (List.prefix_append tail rest)
      (Nat.le_of_eq hlength.symm)
    exact hbegins.eq_of_length hlength.symm
  exact ⟨rfl, rfl⟩

/-! ## Malformed buffers -/

/-- Behind a lead byte stand as many continuation bytes as it announces, or fewer and then another byte or
the end of the buffer. -/
theorem exists_continuations (count : Nat) (rest : Bytes) :
    (∃ tail after, rest = tail ++ after ∧ tail.length = count ∧
      ∀ byte ∈ tail, isContinuation byte = true) ∨
    ∃ tail, tail.length < count ∧ (∀ byte ∈ tail, isContinuation byte = true) ∧
      (rest = tail ∨ ∃ other after, rest = tail ++ other :: after ∧ isContinuation other = false) := by
  -- By induction on how many are announced: each continuation byte leaves one less.
  induction count generalizing rest with
  | zero => exact .inl ⟨[], rest, rfl, rfl, by simp⟩
  | succ count ih =>
    cases rest with
    | nil => exact .inr ⟨[], by simp, by simp, .inl rfl⟩
    | cons byte rest =>
      by_cases hbyte : isContinuation byte = true
      · rcases ih rest with ⟨tail, after, rfl, hlength, hall⟩ | ⟨tail, hlength, hall, hstop⟩
        · exact .inl ⟨byte :: tail, after, rfl, by simp [hlength],
            List.forall_mem_cons.2 ⟨hbyte, hall⟩⟩
        · refine .inr ⟨byte :: tail, by simpa using hlength, List.forall_mem_cons.2 ⟨hbyte, hall⟩, ?_⟩
          rcases hstop with rfl | ⟨other, after, rfl, hother⟩
          · exact .inl rfl
          · exact .inr ⟨other, after, rfl, hother⟩
      · exact .inr ⟨[], by simp, by simp, .inr ⟨byte, rest, rfl, by simpa using hbyte⟩⟩

/-- A buffer that starts with a sequence and with no written form is malformed by its number. -/
theorem Spells.isMalformed {bytes rest : Bytes} {n : Nat} (h : Spells bytes n)
    (hnone : ∀ c, ¬ encodeChar c <+: bytes ++ rest) : IsMalformed (bytes ++ rest) := by
  by_cases hlarge : 0x10FFFF < n
  · exact .tooLarge h hlarge
  by_cases hsurrogate : 0xD800 ≤ n ∧ n ≤ 0xDFFF
  · exact .surrogate h hsurrogate.1 hsurrogate.2
  have hvalid : n.isValidChar := by
    unfold Nat.isValidChar
    omega
  obtain ⟨c, rfl⟩ : ∃ c : Char, c.toNat = n := ⟨.ofNat n, toNat_ofNat_of_isValidChar hvalid⟩
  -- What is left is a code point, and its written form is a shorter sequence that spells it too.
  refine .overlong h (spells_encodeChar c) ?_
  rw [length_encodeChar]
  refine Nat.lt_of_not_le fun hlength => hnone c ?_
  rw [h.encodeChar_eq hlength]
  exact List.prefix_append bytes rest

/-- Bytes that start with no written form are malformed. -/
theorem isMalformed_of_forall_not_prefix {data : Bytes} (hne : data ≠ [])
    (hnone : ∀ c, ¬ encodeChar c <+: data) : IsMalformed data := by
  obtain ⟨lead, rest, rfl⟩ := List.exists_cons_of_ne_nil hne
  cases hlead : announcement? lead with
  | none =>
    rcases announcement?_eq_none_iff.1 hlead with hstray | hforeign
    · exact .stray hstray
    · exact .foreign hforeign
  | some announced =>
    obtain ⟨count, high⟩ := announced
    rcases exists_continuations count rest with ⟨tail, after, rfl, rfl, hall⟩ |
      ⟨tail, hshort, hall, rfl | ⟨other, after, rfl, hother⟩⟩
    · exact (Spells.intro hlead hall rfl).isMalformed hnone
    · exact .cutOff hlead hall hshort
    · exact .broken hlead hall hshort hother

/-- The lead byte of a sequence at the start of a buffer announces the bytes that follow it. -/
theorem Spells.announced_of_prefix {lead : UInt8} {bytes rest : Bytes} {n : Nat} (h : Spells bytes n)
    (hbegins : bytes <+: lead :: rest) :
    ∃ tail high, announcement? lead = some (tail.length, high) ∧
      (∀ byte ∈ tail, isContinuation byte = true) ∧ tail <+: rest := by
  obtain ⟨announced, continuing, -⟩ := h
  obtain ⟨rfl, htail⟩ := List.cons_prefix_cons.1 hbegins
  exact ⟨_, _, announced, continuing, htail⟩

/-- A malformed buffer starts with no written form. -/
theorem IsMalformed.not_prefix {data : Bytes} (h : IsMalformed data) (c : Char) :
    ¬ encodeChar c <+: data := by
  intro hbegins
  have hspells := spells_encodeChar c
  -- A written form at the start would be the sequence that stands there, with the same number.
  have hsequence : ∀ {bytes rest : Bytes} {n : Nat}, Spells bytes n →
      encodeChar c <+: bytes ++ rest → encodeChar c = bytes ∧ c.toNat = n := fun spells hstart =>
    hspells.eq_of_prefix spells hstart (List.prefix_append _ _)
  cases h with
  | stray continuing =>
    obtain ⟨_, _, hlead, -⟩ := hspells.announced_of_prefix hbegins
    rw [announcement?_eq_none_iff.2 (.inl continuing)] at hlead
    cases hlead
  | foreign high =>
    obtain ⟨_, _, hlead, -⟩ := hspells.announced_of_prefix hbegins
    rw [announcement?_eq_none_iff.2 (.inr high)] at hlead
    cases hlead
  | @broken lead other tail rest count high announced _ short breaks =>
    obtain ⟨tail', high', hlead, hall, htail⟩ := hspells.announced_of_prefix hbegins
    rw [announced, Option.some.injEq, Prod.mk.injEq] at hlead
    -- The bytes announced reach over the one that breaks the sequence, so this one continues it.
    have hreach : tail ++ [other] <+: tail' := by
      refine List.prefix_of_prefix_length_le ⟨rest, by simp⟩ htail ?_
      rw [List.length_append, List.length_singleton]
      omega
    have hother := hall other (hreach.subset (by simp))
    rw [breaks] at hother
    cases hother
  | cutOff announced _ short =>
    obtain ⟨tail', high', hlead, -, htail⟩ := hspells.announced_of_prefix hbegins
    rw [announced, Option.some.injEq, Prod.mk.injEq] at hlead
    have hle := htail.length_le
    omega
  | overlong spells also length_lt =>
    obtain ⟨rfl, rfl⟩ := hsequence spells hbegins
    have hle := also.width_le
    rw [length_encodeChar] at length_lt
    omega
  | surrogate spells low high =>
    have hn := (hsequence spells hbegins).2
    have hvalid := isValidChar_toNat c
    unfold Nat.isValidChar at hvalid
    omega
  | tooLarge spells high =>
    have hn := (hsequence spells hbegins).2
    have hlt := toNat_lt c
    omega

theorem decodeFirst_eq_none_iff_forall {data : Bytes} :
    decodeFirst data = none ↔ ∀ c, ¬ encodeChar c <+: data := by
  rw [Option.eq_none_iff_forall_ne_some]
  constructor
  · intro h c hbegins
    exact h _ (decodeFirst_eq_some_iff.2 ⟨hbegins, rfl⟩)
  · rintro h ⟨c, size⟩ hread
    exact h c (decodeFirst_eq_some_iff.1 hread).1

/-- Nothing is read exactly from an empty or a malformed buffer. -/
theorem decodeFirst_eq_none_iff {data : Bytes} :
    decodeFirst data = none ↔ data = [] ∨ IsMalformed data := by
  rw [decodeFirst_eq_none_iff_forall]
  constructor
  · intro hnone
    exact Classical.or_iff_not_imp_left.2 fun hne => isMalformed_of_forall_not_prefix hne hnone
  · rintro (rfl | h)
    · exact fun c hbegins => encodeChar_ne_nil c (List.prefix_nil.1 hbegins)
    · exact h.not_prefix

end BinaryStrings.Utf8
