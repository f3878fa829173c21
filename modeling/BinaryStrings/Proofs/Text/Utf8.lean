import BinaryStrings.Text.Utf8

/-!
# UTF-8 sequences

Strict decoding on byte lists accepts exactly the written forms, and the written forms synchronize
themselves.

Main results:

- Theorem `decodeFirst_eq_some_iff`: a character is read from a buffer exactly when its
  written form stands at the start, so overlong forms, surrogates, values above U+10FFFF and cut
  sequences are refused.
- Theorem `not_prefix_inside`: no character begins inside the bytes of another one.
- Theorem `decode_encode`: a written text is read back.
-/

namespace BinaryStrings.Utf8

/-! ## Bytes and code points as numbers -/

/-- Numbers below 256 are bytes. -/
theorem toNat_toUInt8 {n : Nat} (hn : n < 256) : n.toUInt8.toNat = n := by
  simp [Nat.toUInt8, Nat.mod_eq_of_lt hn]

/-- A byte is told by its number. -/
theorem toUInt8_eq_iff {n : Nat} (hn : n < 256) (byte : UInt8) :
    n.toUInt8 = byte ↔ n = byte.toNat := by
  rw [← UInt8.toNat_inj, toNat_toUInt8 hn]

/-- A valid code point is that of its character. -/
theorem toNat_ofNat_of_isValidChar {n : Nat} (hn : n.isValidChar) : (Char.ofNat n).toNat = n := by
  rw [Char.ofNat, dif_pos hn]
  rfl

/-- Characters have valid code points. -/
theorem isValidChar_toNat (c : Char) : c.toNat.isValidChar :=
  c.valid

/-- Code points end at U+10FFFF. -/
theorem toNat_lt (c : Char) : c.toNat < 0x110000 := by
  rcases isValidChar_toNat c with h | h <;> omega

/-- When a number is taken for a character: it is its code point and not too small for the bytes it came
from. -/
theorem scalar?_eq_some_iff {n least : Nat} {c : Char} :
    scalar? n least = some c ↔ least ≤ n ∧ c.toNat = n := by
  unfold scalar?
  constructor
  · intro h
    split at h
    · rename_i hn
      cases h
      exact ⟨hn.1, toNat_ofNat_of_isValidChar hn.2⟩
    · cases h
  · rintro ⟨hle, rfl⟩
    rw [if_pos ⟨hle, isValidChar_toNat c⟩, Char.ofNat_toNat]

/-- The code point of a character gives the character back. -/
theorem scalar?_toNat {n least : Nat} (c : Char) (hle : least ≤ n) (hn : c.toNat = n) :
    scalar? n least = some c :=
  scalar?_eq_some_iff.2 ⟨hle, hn⟩

/-- Continuation bytes by their numbers. -/
theorem isContinuation_iff {byte : UInt8} :
    isContinuation byte = true ↔ 0x80 ≤ byte.toNat ∧ byte.toNat < 0xC0 := by
  simp [isContinuation, UInt8.le_iff_toNat_le, UInt8.lt_iff_toNat_lt]

/-- A character is written in as many bytes as its width. -/
@[simp] theorem length_encodeChar (c : Char) : (encodeChar c).length = width c := by
  unfold encodeChar width
  dsimp only
  repeat' split
  all_goals simp

/-! ## The four lengths of a sequence -/

/-- A byte of ASCII is read as itself. -/
theorem decodeFirst_one {a : UInt8} (ha : a.toNat < 0x80) (rest : Bytes) :
    decodeFirst (a :: rest) = some (Char.ofNat a.toNat, 1) := by
  simp only [decodeFirst, UInt8.lt_iff_toNat_lt, UInt8.reduceToNat]
  rw [if_pos ha]

/-- Two bytes are read if they make a character from U+0080 on. -/
theorem decodeFirst_two {a b : UInt8} (ha : 0xC0 ≤ a.toNat) (ha' : a.toNat < 0xE0)
    (hb : isContinuation b = true) (rest : Bytes) :
    decodeFirst (a :: b :: rest) =
      (scalar? ((a.toNat - 0xC0) * 0x40 + (b.toNat - 0x80)) 0x80).map (·, 2) := by
  simp only [decodeFirst, UInt8.lt_iff_toNat_lt, UInt8.reduceToNat]
  rw [if_neg (by omega), if_neg (by omega), if_pos (by omega), if_pos hb]

/-- Three bytes are read if they make a character from U+0800 on. -/
theorem decodeFirst_three {a b b' : UInt8} (ha : 0xE0 ≤ a.toNat) (ha' : a.toNat < 0xF0)
    (hb : isContinuation b = true) (hb' : isContinuation b' = true) (rest : Bytes) :
    decodeFirst (a :: b :: b' :: rest) =
      (scalar? ((a.toNat - 0xE0) * 0x1000 + (b.toNat - 0x80) * 0x40 + (b'.toNat - 0x80))
        0x800).map (·, 3) := by
  simp only [decodeFirst, UInt8.lt_iff_toNat_lt, UInt8.reduceToNat]
  rw [if_neg (by omega), if_neg (by omega), if_neg (by omega), if_pos (by omega),
    if_pos (by simp [hb, hb'])]

/-- Four bytes are read if they make a character from U+10000 on. -/
theorem decodeFirst_four {a b b' b'' : UInt8} (ha : 0xF0 ≤ a.toNat) (ha' : a.toNat < 0xF8)
    (hb : isContinuation b = true) (hb' : isContinuation b' = true)
    (hb'' : isContinuation b'' = true) (rest : Bytes) :
    decodeFirst (a :: b :: b' :: b'' :: rest) =
      (scalar? ((a.toNat - 0xF0) * 0x40000 + (b.toNat - 0x80) * 0x1000 + (b'.toNat - 0x80) * 0x40 +
        (b''.toNat - 0x80)) 0x10000).map (·, 4) := by
  simp only [decodeFirst, UInt8.lt_iff_toNat_lt, UInt8.reduceToNat]
  rw [if_neg (by omega), if_neg (by omega), if_neg (by omega), if_neg (by omega),
    if_pos (by omega), if_pos (by simp [hb, hb', hb''])]

/-- Reading undoes writing, whatever follows. -/
theorem decodeFirst_encodeChar_append (c : Char) (rest : Bytes) :
    decodeFirst (encodeChar c ++ rest) = some (c, width c) := by
  have hlt := toNat_lt c
  unfold encodeChar width
  dsimp only
  split
  · rw [List.cons_append, decodeFirst_one] <;> rw [toNat_toUInt8 (by omega)]
    · rw [Char.ofNat_toNat]
    · assumption
  split
  · have ha := toNat_toUInt8 (n := 0xC0 + c.toNat / 0x40) (by omega)
    have hb := toNat_toUInt8 (n := 0x80 + c.toNat % 0x40) (by omega)
    rw [List.cons_append, List.cons_append, decodeFirst_two (by omega) (by omega)
      (isContinuation_iff.2 (by omega)), scalar?_toNat c (by omega) (by omega)]
    rfl
  split
  · have ha := toNat_toUInt8 (n := 0xE0 + c.toNat / 0x1000) (by omega)
    have hb := toNat_toUInt8 (n := 0x80 + c.toNat / 0x40 % 0x40) (by omega)
    have hb' := toNat_toUInt8 (n := 0x80 + c.toNat % 0x40) (by omega)
    simp only [List.cons_append]
    rw [decodeFirst_three (by omega) (by omega) (isContinuation_iff.2 (by omega))
      (isContinuation_iff.2 (by omega)), scalar?_toNat c (by omega) (by omega)]
    rfl
  · have ha := toNat_toUInt8 (n := 0xF0 + c.toNat / 0x40000) (by omega)
    have hb := toNat_toUInt8 (n := 0x80 + c.toNat / 0x1000 % 0x40) (by omega)
    have hb' := toNat_toUInt8 (n := 0x80 + c.toNat / 0x40 % 0x40) (by omega)
    have hb'' := toNat_toUInt8 (n := 0x80 + c.toNat % 0x40) (by omega)
    simp only [List.cons_append]
    rw [decodeFirst_four (by omega) (by omega) (isContinuation_iff.2 (by omega))
      (isContinuation_iff.2 (by omega)) (isContinuation_iff.2 (by omega)),
      scalar?_toNat c (by omega) (by omega)]
    rfl

/-- A character of ASCII is written as its byte. -/
theorem encodeChar_one {c : Char} {a : UInt8} (ha : a.toNat < 0x80) (hc : c.toNat = a.toNat) :
    encodeChar c = [a] := by
  unfold encodeChar
  dsimp only
  rw [if_pos (by omega), (toUInt8_eq_iff (by omega) a).2 hc]

/-- The two bytes that make a character are those it is written as. -/
theorem encodeChar_two {c : Char} {a b : UInt8} (ha : 0xC0 ≤ a.toNat) (ha' : a.toNat < 0xE0)
    (hb : isContinuation b = true) (hlow : 0x80 ≤ c.toNat)
    (hc : c.toNat = (a.toNat - 0xC0) * 0x40 + (b.toNat - 0x80)) : encodeChar c = [a, b] := by
  rw [isContinuation_iff] at hb
  unfold encodeChar
  dsimp only
  rw [if_neg (by omega), if_pos (by omega), (toUInt8_eq_iff (by omega) a).2 (by omega),
    (toUInt8_eq_iff (by omega) b).2 (by omega)]

/-- So are three bytes. -/
theorem encodeChar_three {c : Char} {a b b' : UInt8} (ha : 0xE0 ≤ a.toNat) (ha' : a.toNat < 0xF0)
    (hb : isContinuation b = true) (hb' : isContinuation b' = true) (hlow : 0x800 ≤ c.toNat)
    (hc : c.toNat =
      (a.toNat - 0xE0) * 0x1000 + (b.toNat - 0x80) * 0x40 + (b'.toNat - 0x80)) :
    encodeChar c = [a, b, b'] := by
  rw [isContinuation_iff] at hb hb'
  unfold encodeChar
  dsimp only
  rw [if_neg (by omega), if_neg (by omega), if_pos (by omega),
    (toUInt8_eq_iff (by omega) a).2 (by omega), (toUInt8_eq_iff (by omega) b).2 (by omega),
    (toUInt8_eq_iff (by omega) b').2 (by omega)]

/-- So are four bytes. -/
theorem encodeChar_four {c : Char} {a b b' b'' : UInt8} (ha : 0xF0 ≤ a.toNat)
    (hb : isContinuation b = true) (hb' : isContinuation b' = true)
    (hb'' : isContinuation b'' = true) (hlow : 0x10000 ≤ c.toNat)
    (hc : c.toNat = (a.toNat - 0xF0) * 0x40000 + (b.toNat - 0x80) * 0x1000 +
      (b'.toNat - 0x80) * 0x40 + (b''.toNat - 0x80)) :
    encodeChar c = [a, b, b', b''] := by
  have hlt := toNat_lt c
  rw [isContinuation_iff] at hb hb' hb''
  unfold encodeChar
  dsimp only
  rw [if_neg (by omega), if_neg (by omega), if_neg (by omega),
    (toUInt8_eq_iff (by omega) a).2 (by omega), (toUInt8_eq_iff (by omega) b).2 (by omega),
    (toUInt8_eq_iff (by omega) b').2 (by omega), (toUInt8_eq_iff (by omega) b'').2 (by omega)]

/-- What is read is a written character. -/
theorem encodeChar_prefix_of_decodeFirst {data : Bytes} {c : Char} {size : Nat}
    (h : decodeFirst data = some (c, size)) :
    encodeChar c <+: data ∧ size = width c := by
  rw [← length_encodeChar]
  unfold decodeFirst at h
  split at h
  · cases h
  rename_i lead rest
  simp only [UInt8.lt_iff_toNat_lt, UInt8.reduceToNat] at h
  split at h
  · rename_i hlead
    cases h
    rw [encodeChar_one hlead (toNat_ofNat_of_isValidChar (Or.inl (by omega)))]
    exact ⟨by simp, rfl⟩
  split at h
  · cases h
  split at h
  · split at h
    · split at h
      · rename_i hb
        simp only [Option.map_eq_some_iff, scalar?_eq_some_iff, Prod.mk.injEq] at h
        obtain ⟨_, ⟨hlow, hc⟩, rfl, rfl⟩ := h
        rw [encodeChar_two (by omega) (by omega) hb (by omega) hc]
        exact ⟨by simp, rfl⟩
      · cases h
    · cases h
  split at h
  · split at h
    · split at h
      · rename_i hb
        rw [Bool.and_eq_true] at hb
        simp only [Option.map_eq_some_iff, scalar?_eq_some_iff, Prod.mk.injEq] at h
        obtain ⟨_, ⟨hlow, hc⟩, rfl, rfl⟩ := h
        rw [encodeChar_three (by omega) (by omega) hb.1 hb.2 (by omega) hc]
        exact ⟨by simp, rfl⟩
      · cases h
    · cases h
  split at h
  · split at h
    · split at h
      · rename_i hb
        rw [Bool.and_eq_true, Bool.and_eq_true] at hb
        simp only [Option.map_eq_some_iff, scalar?_eq_some_iff, Prod.mk.injEq] at h
        obtain ⟨_, ⟨hlow, hc⟩, rfl, rfl⟩ := h
        rw [encodeChar_four (by omega) hb.1.1 hb.1.2 hb.2 (by omega) hc]
        exact ⟨by simp, rfl⟩
      · cases h
    · cases h
  · cases h

/-- Reading is exact: the character read is the one whose written form stands at the start. -/
theorem decodeFirst_eq_some_iff {data : Bytes} {c : Char} {size : Nat} :
    decodeFirst data = some (c, size) ↔ encodeChar c <+: data ∧ size = width c := by
  constructor
  · exact encodeChar_prefix_of_decodeFirst
  · rintro ⟨⟨rest, rfl⟩, rfl⟩
    exact decodeFirst_encodeChar_append c rest

/-! ## Synchronization -/

/-- At most one character stands at the start of a buffer. -/
theorem encodeChar_prefix_inj {data : Bytes} {c d : Char} (hc : encodeChar c <+: data)
    (hd : encodeChar d <+: data) : c = d := by
  have hread := decodeFirst_eq_some_iff.2 ⟨hc, rfl⟩
  rw [decodeFirst_eq_some_iff.2 ⟨hd, rfl⟩] at hread
  cases hread
  rfl

/-- No character is written like the beginning of another one. -/
theorem eq_nil_of_encodeChar_eq_append {c d : Char} {back : Bytes}
    (h : encodeChar d = encodeChar c ++ back) : back = [] := by
  have hcd : c = d := encodeChar_prefix_inj ⟨back, h.symm⟩ List.prefix_rfl
  rw [hcd] at h
  exact List.self_eq_append_right.1 h

/-- Every character takes a byte. -/
theorem width_pos (c : Char) : 0 < width c := by
  unfold width
  repeat' split
  all_goals omega

/-- No character takes more than four bytes. -/
theorem width_le_four (c : Char) : width c ≤ 4 := by
  unfold width
  repeat' split
  all_goals omega

/-- Every character is written as something. -/
theorem encodeChar_ne_nil (c : Char) : encodeChar c ≠ [] := by
  intro h
  have hlength := length_encodeChar c
  have hpos := width_pos c
  rw [h] at hlength
  simp at hlength
  omega

/-- A written character is one lead byte and continuation bytes behind it. -/
theorem exists_lead_encodeChar (c : Char) :
    ∃ lead tail, encodeChar c = lead :: tail ∧ isContinuation lead = false ∧
      ∀ byte ∈ tail, isContinuation byte = true := by
  have hlt := toNat_lt c
  have continues : ∀ n, n < 0x40 → isContinuation (0x80 + n).toUInt8 = true := by
    intro n hn
    rw [isContinuation_iff, toNat_toUInt8 (by omega)]
    omega
  have leads : ∀ n, n < 0x100 → n < 0x80 ∨ 0xC0 ≤ n → isContinuation n.toUInt8 = false := by
    intro n hn hrange
    rw [Bool.eq_false_iff, ne_eq, isContinuation_iff, toNat_toUInt8 hn]
    omega
  unfold encodeChar
  dsimp only
  split
  · exact ⟨_, _, rfl, leads _ (by omega) (by omega), by simp⟩
  split
  · refine ⟨_, _, rfl, leads _ (by omega) (by omega), ?_⟩
    simp only [List.mem_singleton, forall_eq]
    exact continues _ (by omega)
  split
  · refine ⟨_, _, rfl, leads _ (by omega) (by omega), ?_⟩
    simp only [List.mem_cons, List.not_mem_nil, or_false, forall_eq_or_imp, forall_eq]
    exact ⟨continues _ (by omega), continues _ (by omega)⟩
  · refine ⟨_, _, rfl, leads _ (by omega) (by omega), ?_⟩
    simp only [List.mem_cons, List.not_mem_nil, or_false, forall_eq_or_imp, forall_eq]
    exact ⟨continues _ (by omega), continues _ (by omega), continues _ (by omega)⟩

/-- No character begins inside another one: the bytes behind a lead byte are no lead bytes. -/
theorem not_prefix_inside {c : Char} (d : Char) {front back : Bytes} (rest : Bytes)
    (hsplit : encodeChar c = front ++ back) (hfront : front ≠ []) (hback : back ≠ []) :
    ¬ encodeChar d <+: back ++ rest := by
  rintro ⟨after, hd⟩
  obtain ⟨lead, tail, hlead, hnot, _⟩ := exists_lead_encodeChar d
  obtain ⟨lead', tail', hlead', _, hall⟩ := exists_lead_encodeChar c
  cases front with
  | nil => exact hfront rfl
  | cons first front =>
    cases back with
    | nil => exact hback rfl
    | cons byte back =>
      rw [hlead', List.cons_append, List.cons.injEq] at hsplit
      rw [hlead, List.cons_append, List.cons_append, List.cons.injEq] at hd
      have hbyte : isContinuation byte = true := hall byte (by simp [hsplit.2])
      rw [hd.1, hbyte] at hnot
      cases hnot

/-! ## Texts -/

/-- The empty text has no bytes. -/
@[simp] theorem encode_nil : encode [] = [] :=
  rfl

/-- A text is written character by character. -/
@[simp] theorem encode_cons (c : Char) (text : List Char) :
    encode (c :: text) = encodeChar c ++ encode text :=
  rfl

/-- Texts one behind the other are written one behind the other. -/
@[simp] theorem encode_append (text more : List Char) :
    encode (text ++ more) = encode text ++ encode more := by
  simp [encode]

/-- A text of one character has its bytes. -/
theorem encode_singleton (c : Char) : encode [c] = encodeChar c := by
  simp

/-- Bytes that belong to the character last read are passed over. -/
theorem decodeFrom_skip (position : Nat) (read : List Char) (tail rest : Bytes) :
    decodeFrom position tail.length read (tail ++ rest) =
      decodeFrom (position + tail.length) 0 read rest := by
  induction tail generalizing position with
  | nil => rfl
  | cons byte tail ih =>
    rw [List.cons_append, List.length_cons, decodeFrom, ih]
    congr 1
    omega

/-- A written character is read, and reading goes on behind it. -/
theorem decodeFrom_encodeChar_append (position : Nat) (read : List Char) (c : Char) (rest : Bytes) :
    decodeFrom position 0 read (encodeChar c ++ rest) =
      decodeFrom (position + width c) 0 (c :: read) rest := by
  obtain ⟨lead, tail, hlead, -, -⟩ := exists_lead_encodeChar c
  have hfirst := decodeFirst_encodeChar_append c rest
  have hwidth : width c = tail.length + 1 := by
    rw [← length_encodeChar, hlead, List.length_cons]
  rw [hlead, List.cons_append] at hfirst ⊢
  simp only [decodeFrom, hfirst]
  rw [hwidth, Nat.add_sub_cancel, decodeFrom_skip, Nat.add_assoc, Nat.add_comm 1]

/-- What was written is read back, behind what was read before. -/
theorem decodeFrom_encode (position : Nat) (read text : List Char) :
    decodeFrom position 0 read (encode text) = .ok (read.reverse ++ text) := by
  induction text generalizing position read with
  | nil =>
    rw [List.append_nil]
    rfl
  | cons c text ih =>
    rw [encode_cons, decodeFrom_encodeChar_append, ih, List.reverse_cons, List.append_assoc,
      List.singleton_append]

/-- A written text is read back. -/
theorem decode_encode (text : List Char) : decode (encode text) = .ok text :=
  decodeFrom_encode 0 [] text

/-- Different texts have different bytes. -/
theorem encode_inj {text other : List Char} : encode text = encode other ↔ text = other := by
  refine ⟨fun h => ?_, fun h => by rw [h]⟩
  have hread : decode (encode text) = decode (encode other) := by rw [h]
  rw [decode_encode, decode_encode] at hread
  exact Except.ok.inj hread

/-- Only the empty text has no bytes. -/
theorem encode_eq_nil_iff {text : List Char} : encode text = [] ↔ text = [] := by
  cases text with
  | nil => simp
  | cons c text => simp [encodeChar_ne_nil]

/-! ## The number of bytes of a text -/

/-- The empty text takes no bytes. -/
@[simp] theorem byteCount_nil : byteCount [] = 0 :=
  rfl

/-- The bytes of a text are those of its characters. -/
@[simp] theorem byteCount_cons (c : Char) (text : List Char) :
    byteCount (c :: text) = width c + byteCount text :=
  rfl

/-- The bytes of texts one behind the other add up. -/
@[simp] theorem byteCount_append (text more : List Char) :
    byteCount (text ++ more) = byteCount text + byteCount more := by
  induction text with
  | nil => simp
  | cons c text ih =>
    rw [List.cons_append, byteCount_cons, byteCount_cons, ih, Nat.add_assoc]

/-- Copies of a character take as many times its bytes. -/
theorem byteCount_replicate (count : Nat) (c : Char) :
    byteCount (List.replicate count c) = count * width c := by
  induction count with
  | zero => simp
  | succ count ih =>
    rw [List.replicate_succ, byteCount_cons, ih, Nat.succ_mul, Nat.add_comm]

/-- Characters of ASCII take one byte. -/
theorem width_of_lt {c : Char} (hc : c.toNat < 0x80) : width c = 1 :=
  if_pos hc

/-- ASCII text has one byte a character. -/
theorem byteCount_eq_length {text : List Char} (htext : ∀ c ∈ text, c.toNat < 0x80) :
    byteCount text = text.length := by
  induction text with
  | nil => rfl
  | cons c text ih =>
    have hrest := ih fun d hd => htext d (by simp [hd])
    have hc := width_of_lt (htext c (by simp))
    simp only [byteCount_cons, List.length_cons]
    omega

/-- The number of bytes of a text is that of its encoding. -/
theorem length_encode (text : List Char) : (encode text).length = byteCount text := by
  induction text with
  | nil => rfl
  | cons c text ih => simp [ih]

/-- A text has no more characters than bytes. -/
theorem length_le_byteCount (text : List Char) : text.length ≤ byteCount text := by
  induction text with
  | nil => exact Nat.le_refl 0
  | cons c text ih =>
    have hpos := width_pos c
    simp only [List.length_cons, byteCount_cons]
    omega

/-- It has no more than four bytes for each character. -/
theorem byteCount_le_length (text : List Char) : byteCount text ≤ 4 * text.length := by
  induction text with
  | nil => exact Nat.le_refl 0
  | cons c text ih =>
    have hwidth := width_le_four c
    simp only [List.length_cons, byteCount_cons]
    omega

/-- The byte counts of the images of the characters of a text bound that of the whole image. -/
theorem byteCount_flatMap_le {text : List Char} {image : Char → List Char} {factor : Nat}
    (himage : ∀ c ∈ text, byteCount (image c) ≤ factor * width c) :
    byteCount (text.flatMap image) ≤ factor * byteCount text := by
  induction text with
  | nil => simp
  | cons c text ih =>
    have hc := himage c (by simp)
    have htext := ih fun d hd => himage d (by simp [hd])
    simp only [List.flatMap_cons, byteCount_append, byteCount_cons, Nat.mul_add]
    omega

/-- What is taken for a budget fits into it. -/
theorem byteCount_takeBytes_le (budget : Nat) (text : List Char) :
    byteCount (takeBytes budget text) ≤ budget := by
  induction text generalizing budget with
  | nil => simp [takeBytes]
  | cons c text ih =>
    unfold takeBytes
    split
    · rename_i hfits
      have htext := ih (budget - width c)
      simp only [byteCount_cons]
      omega
    · simp

/-- It is a first part of the text. -/
theorem takeBytes_prefix (budget : Nat) (text : List Char) : takeBytes budget text <+: text := by
  induction text generalizing budget with
  | nil => simp [takeBytes]
  | cons c text ih =>
    unfold takeBytes
    split
    · exact (List.prefix_cons_inj c).2 (ih _)
    · exact List.nil_prefix

end BinaryStrings.Utf8
