import BinaryStrings.Proofs.Scan.Exact
import BinaryStrings.Proofs.Text.Malformed

/-!
# Reading at a place

At every place of a buffer either a character is written, and then only one, or the bytes are malformed.
The UTF-8 scanner goes on behind the character in the first case and by one byte in the second.

Main results:

- Theorem `isWrittenAt_iff`: what is written at a place, as a start of the bytes behind it.
- Theorems `runsFrom_of_readAt_eq_some` and `runsFrom_of_readAt_eq_none`: the steps of the scanner.
- Theorem `readAt_exact`: reading at a place inverts writing there.
-/

namespace BinaryStrings.Scan

/-- The bytes from a place on, as many as `size`, are all in the buffer and encode the character. -/
def IsWrittenAt (data : Bytes) (position : Nat) (c : Char) (size : Nat) : Prop :=
  position + size ≤ data.length ∧ data.slice position size = String.utf8EncodeChar c

variable {data : Bytes} {position size : Nat} {c : Char}

/-- What is written at a place stands at the start of the bytes behind it. -/
theorem isWrittenAt_iff :
    IsWrittenAt data position c size ↔
      Utf8.encodeChar c <+: data.drop position ∧ size = Utf8.width c := by
  unfold IsWrittenAt Bytes.slice
  rw [← Utf8.encodeChar_eq_utf8EncodeChar]
  constructor
  · rintro ⟨hfits, hslice⟩
    have hlength := congrArg List.length hslice
    rw [List.length_take, List.length_drop, Utf8.length_encodeChar] at hlength
    exact ⟨hslice ▸ List.take_prefix size _, by omega⟩
  · rintro ⟨⟨after, hdrop⟩, rfl⟩
    have hlength := congrArg List.length hdrop
    have hpos := Utf8.width_pos c
    rw [List.length_append, List.length_drop, Utf8.length_encodeChar] at hlength
    rw [← hdrop, List.take_left' (Utf8.length_encodeChar c)]
    exact ⟨by omega, rfl⟩

theorem readAt_eq_some_iff :
    readAt data position = (some c, size) ↔ IsWrittenAt data position c size := by
  rw [isWrittenAt_iff, ← Utf8.decodeFirst_eq_some_iff, readAt]
  cases Utf8.decodeFirst (data.drop position) with
  | none => simp
  | some first => simp [Prod.ext_iff]

theorem readAt_eq_none_iff_decodeFirst :
    readAt data position = (none, 1) ↔ Utf8.decodeFirst (data.drop position) = none := by
  rw [readAt]
  cases Utf8.decodeFirst (data.drop position) with
  | none => simp
  | some first => simp

theorem forall_not_isWrittenAt_iff :
    (∀ c size, ¬ IsWrittenAt data position c size) ↔ Utf8.decodeFirst (data.drop position) = none := by
  rw [Utf8.decodeFirst_eq_none_iff_forall]
  constructor
  · exact fun h c hbegins => h c _ (isWrittenAt_iff.2 ⟨hbegins, rfl⟩)
  · exact fun h c size hwritten => h c (isWrittenAt_iff.1 hwritten).1

/-- At most one character is written at a place. -/
theorem IsWrittenAt.unique {d : Char} {size' : Nat} (h : IsWrittenAt data position c size)
    (h' : IsWrittenAt data position d size') : d = c ∧ size' = size := by
  rw [← readAt_eq_some_iff] at h h'
  rw [h] at h'
  cases h'
  exact ⟨rfl, rfl⟩

/-- Reading goes on inside of the buffer or to its end. -/
theorem add_readAt_le_length (hposition : position < data.length) :
    position + (readAt data position).2 ≤ data.length := by
  cases hread : readAt data position with
  | mk read size =>
    cases read with
    | some c => exact (readAt_eq_some_iff.1 hread).1
    | none =>
      rw [readAt] at hread
      split at hread
      · cases hread
      · cases hread
        exact hposition

/-- What is read at a place depends on the four bytes from there on, or on fewer where the buffer ends. -/
theorem readAt_eq_of_slice_eq {other : Bytes}
    (hslice : other.slice position 4 = data.slice position 4) :
    readAt other position = readAt data position := by
  have hstart : ∀ bytes : Bytes, Utf8.decodeFirst (bytes.take 4) = Utf8.decodeFirst bytes := by
    intro bytes
    refine Option.ext fun ⟨c, size⟩ => ?_
    have hwidth := Utf8.width_le_four c
    rw [Utf8.decodeFirst_eq_some_iff, Utf8.decodeFirst_eq_some_iff, List.prefix_take_iff,
      Utf8.length_encodeChar]
    simp [hwidth]
  unfold Bytes.slice at hslice
  rw [readAt, readAt, ← hstart, hslice, hstart]

/-! ## Steps of the scanner -/

variable {keep : Pending → Bool} {pending : Option Pending} {found : List Run}

/-- Where a character other than a control character is read, it prolongs the run, and the scanner goes on
behind it. -/
theorem runsFrom_of_readAt_eq_some (hread : readAt data position = (some c, size))
    (hc : Unicode.isControl c = false) :
    runsFrom readUtf8 keep position 0 pending found (data.drop position) =
      runsFrom readUtf8 keep (position + size) 0 (some (extend pending position c size)) found
        (data.drop (position + size)) := by
  obtain ⟨⟨rest, hrest⟩, rfl⟩ := isWrittenAt_iff.1 (readAt_eq_some_iff.1 hread)
  have hmember : isNoControl c = true := by simp [isNoControl, hc]
  rw [← List.drop_drop, ← hrest, runsFrom_encodeChar_append reads_readUtf8 hmember,
    List.drop_left' (Utf8.length_encodeChar c)]

/-- Where no character is read, the run ends, and the scanner goes on by one byte. -/
theorem runsFrom_of_readAt_eq_none (hposition : position < data.length)
    (hread : readAt data position = (none, 1)) :
    runsFrom readUtf8 keep position 0 pending found (data.drop position) =
      runsFrom readUtf8 keep (position + 1) 0 none (close keep pending found)
        (data.drop (position + 1)) := by
  have hnone := Utf8.decodeFirst_eq_none_iff_forall.1 (readAt_eq_none_iff_decodeFirst.1 hread)
  rw [List.drop_eq_getElem_cons hposition] at hnone ⊢
  exact runsFrom_byte reads_readUtf8 (fun c _ => hnone c) _ _ _

/-- Reading at a place of a buffer inverts writing there.  A character is read exactly if the bytes that are
taken for it are its encoding, there is at most one such character, and it takes one to four bytes.
Otherwise nothing is read and one byte is taken: this is so exactly for malformed bytes.  No byte behind the
end of the buffer is taken, and only the next four bytes matter.  The scanner goes on by what is taken, if
this is no control character. -/
theorem readAt_exact (hposition : position < data.length) :
    (∀ c size, readAt data position = (some c, size) ↔ IsWrittenAt data position c size) ∧
    (∀ c size, IsWrittenAt data position c size → 1 ≤ size ∧ size ≤ 4 ∧
      ∀ d size', IsWrittenAt data position d size' → d = c ∧ size' = size) ∧
    (readAt data position = (none, 1) ↔ ∀ c size, ¬ IsWrittenAt data position c size) ∧
    (readAt data position = (none, 1) ↔ Utf8.IsMalformed (data.drop position)) ∧
    position + (readAt data position).2 ≤ data.length ∧
    (∀ other : Bytes, other.slice position 4 = data.slice position 4 →
      readAt other position = readAt data position) ∧
    ∀ keep pending found,
      (∀ c size, readAt data position = (some c, size) → Unicode.isControl c = false →
        runsFrom readUtf8 keep position 0 pending found (data.drop position) =
          runsFrom readUtf8 keep (position + size) 0 (some (extend pending position c size)) found
            (data.drop (position + size))) ∧
      (readAt data position = (none, 1) →
        runsFrom readUtf8 keep position 0 pending found (data.drop position) =
          runsFrom readUtf8 keep (position + 1) 0 none (close keep pending found)
            (data.drop (position + 1))) := by
  have hne : data.drop position ≠ [] := by
    rw [ne_eq, List.drop_eq_nil_iff]
    omega
  refine ⟨fun _ _ => readAt_eq_some_iff, ?_, ?_, ?_, add_readAt_le_length hposition,
    fun _ => readAt_eq_of_slice_eq, fun keep pending found =>
      ⟨fun _ _ => runsFrom_of_readAt_eq_some, runsFrom_of_readAt_eq_none hposition⟩⟩
  · intro c size hwritten
    obtain ⟨-, rfl⟩ := isWrittenAt_iff.1 hwritten
    exact ⟨Utf8.width_pos c, Utf8.width_le_four c, fun _ _ => hwritten.unique⟩
  · rw [readAt_eq_none_iff_decodeFirst, forall_not_isWrittenAt_iff]
  · rw [readAt_eq_none_iff_decodeFirst, Utf8.decodeFirst_eq_none_iff]
    exact or_iff_right hne

/-- Behind an ASCII letter a letter of two bytes is read, and behind this one nothing of half a surrogate
pair, although its three bytes have the shape of a sequence. -/
theorem readAt_exact_accented :
    let data : Bytes := [0x41, 0xC3, 0xA9, 0xED, 0xA0, 0x80]
    1 < data.length ∧ IsWrittenAt data 1 'é' 2 ∧ readAt data 1 = (some 'é', 2) ∧
      3 < data.length ∧ Utf8.IsMalformed (data.drop 3) ∧ readAt data 3 = (none, 1) := by
  intro data
  have hletter : 1 < data.length := by decide
  have hhalf : 3 < data.length := by decide
  have hwritten : IsWrittenAt data 1 'é' 2 := ⟨by decide, by decide⟩
  have hspells : Utf8.Spells [0xED, 0xA0, 0x80] 0xD800 := by
    refine .intro rfl ?_ rfl
    rw [List.forall_mem_cons, List.forall_mem_singleton]
    exact ⟨by decide, by decide⟩
  have hmalformed : Utf8.IsMalformed ([0xED, 0xA0, 0x80] ++ []) :=
    .surrogate hspells (by decide) (by decide)
  exact ⟨hletter, hwritten, ((readAt_exact hletter).1 _ _).2 hwritten, hhalf, hmalformed,
    (readAt_exact hhalf).2.2.2.1.2 hmalformed⟩

end BinaryStrings.Scan
