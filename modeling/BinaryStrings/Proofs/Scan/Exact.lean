import BinaryStrings.Proofs.Scan.Loop

/-!
# Both scanners are exact

The loop with the two readers: `utf8_exact` says which UTF-8 runs are reported, and `ascii_exact`
says it of the ASCII runs, whose intervals are described byte by byte.  No text is reported by both
(`not_isWide_of_mem_ascii`).
-/

namespace BinaryStrings.Scan

/-- The characters of UTF-8 runs. -/
def isNoControl (c : Char) : Bool :=
  !Unicode.isControl c

/-- The characters of ASCII runs. -/
def isPrintableChar (c : Char) : Bool :=
  0x20 ≤ c.toNat && c.toNat ≤ 0x7E

/-- A text with a character of several bytes. -/
def IsWide (text : List Char) : Prop :=
  ∃ c ∈ text, 1 < (Utf8.encodeChar c).length

/-- A maximal interval of strict UTF-8 without control characters, long enough and wide. -/
def IsUtf8Run (data : Bytes) (minLength : Int) (run : Run) : Prop :=
  ∃ stop, IsMaximalRun isNoControl data run.offset stop run.text.toList ∧
    minLength ≤ run.text.toList.length ∧ IsWide run.text.toList

/-- The test for a character of several bytes. -/
theorem any_width_eq_true_iff {text : List Char} :
    (text.any fun c => decide (1 < Utf8.width c)) = true ↔ IsWide text := by
  simp [IsWide]

/-! ## UTF-8 runs -/

/-- The decoder reads the characters that are no control characters. -/
theorem reads_readUtf8 : Reads readUtf8 isNoControl := by
  intro data c size
  unfold readUtf8 isNoControl
  cases hread : Utf8.decodeFirst data with
  | none =>
    constructor
    · intro h
      cases h
    · rintro ⟨_, hlead, hsize⟩
      rw [Utf8.decodeFirst_eq_some_iff.2 ⟨hlead, hsize⟩] at hread
      cases hread
  | some first =>
    obtain ⟨d, width⟩ := first
    have hd := Utf8.decodeFirst_eq_some_iff.1 hread
    dsimp only
    split
    · rename_i hcontrol
      constructor
      · intro h
        cases h
      · rintro ⟨hc, hprefix, _⟩
        rw [Utf8.encodeChar_prefix_inj hprefix hd.1, hcontrol] at hc
        cases hc
    · rename_i hcontrol
      constructor
      · rintro ⟨rfl, rfl⟩
        exact ⟨by simpa using hcontrol, hd⟩
      · rintro ⟨_, hprefix, rfl⟩
        have hdc := Utf8.encodeChar_prefix_inj hd.1 hprefix
        rw [hd.2, hdc]

/-- The UTF-8 runs that are reported. -/
theorem mem_utf8_iff {data : Bytes} {minLength : Int} {run : Run} :
    run ∈ utf8 data minLength ↔ IsUtf8Run data minLength run := by
  unfold utf8 IsUtf8Run
  rw [(areRuns_runs reads_readUtf8 data).1 run]
  constructor
  · rintro ⟨stop, text, hrun, htext, hkeep⟩
    rw [Bool.and_eq_true] at hkeep
    rw [htext, String.toList_ofList]
    exact ⟨stop, hrun, of_decide_eq_true hkeep.1, any_width_eq_true_iff.1 hkeep.2⟩
  · rintro ⟨stop, hrun, hlength, hwide⟩
    refine ⟨stop, run.text.toList, hrun, by rw [String.ofList_toList], ?_⟩
    exact Bool.and_eq_true_iff.2 ⟨decide_eq_true hlength, any_width_eq_true_iff.2 hwide⟩

/-- Runs come in the order of their offsets. -/
theorem ascending_utf8 (data : Bytes) (minLength : Int) :
    (utf8 data minLength).Pairwise fun earlier later => earlier.offset < later.offset :=
  (areRuns_runs reads_readUtf8 data).2

/-- The UTF-8 scanner reports exactly the maximal intervals that are the strict encoding of a text
without control characters, with enough characters and one of several bytes among them.  Each is
reported once, by ascending offset, with its text; wherever the scanner resumes, it loses, splits,
shifts and repeats none. -/
theorem utf8_exact (data : Bytes) (minLength : Int) :
    (∀ run : Run, run ∈ utf8 data minLength ↔
      ∃ stop, IsMaximalRun isNoControl data run.offset stop run.text.toList ∧
        minLength ≤ run.text.toList.length ∧ IsWide run.text.toList) ∧
    (utf8 data minLength).Pairwise fun earlier later => earlier.offset < later.offset :=
  ⟨fun _ => mem_utf8_iff, ascending_utf8 data minLength⟩

/-! ## ASCII runs -/

/-- The printable bytes are those from the blank to the tilde. -/
theorem isPrintableAscii_iff {byte : UInt8} :
    isPrintableAscii byte = true ↔ 0x20 ≤ byte.toNat ∧ byte.toNat ≤ 0x7E := by
  simp [isPrintableAscii, UInt8.le_iff_toNat_le]

/-- The character of an ASCII byte. -/
def charOfByte (byte : UInt8) : Char :=
  Char.ofNat byte.toNat

theorem toNat_charOfByte (byte : UInt8) : (charOfByte byte).toNat = byte.toNat := by
  have hlt := byte.toNat_lt
  exact Utf8.toNat_ofNat_of_isValidChar (Or.inl (by omega))

theorem isPrintableChar_charOfByte (byte : UInt8) :
    isPrintableChar (charOfByte byte) = isPrintableAscii byte := by
  rw [Bool.eq_iff_iff, isPrintableAscii_iff]
  simp [isPrintableChar, toNat_charOfByte]

/-- A printable ASCII character is written as its code. -/
theorem exists_byte_of_isPrintableChar {c : Char} (hc : isPrintableChar c = true) :
    ∃ byte, isPrintableAscii byte = true ∧ charOfByte byte = c ∧ Utf8.encodeChar c = [byte] := by
  have hrange : 0x20 ≤ c.toNat ∧ c.toNat ≤ 0x7E := by simpa [isPrintableChar] using hc
  have hbyte : c.toNat.toUInt8.toNat = c.toNat := Utf8.toNat_toUInt8 (by omega)
  refine ⟨c.toNat.toUInt8, isPrintableAscii_iff.2 (by omega), ?_,
    Utf8.encodeChar_one (by omega) hbyte.symm⟩
  rw [charOfByte, hbyte, Char.ofNat_toNat]

/-- A printable byte is the encoding of its character. -/
theorem encodeChar_charOfByte {byte : UInt8} (hbyte : isPrintableAscii byte = true) :
    Utf8.encodeChar (charOfByte byte) = [byte] := by
  rw [isPrintableAscii_iff] at hbyte
  exact Utf8.encodeChar_one (by omega) (toNat_charOfByte byte)

theorem readAscii_cons (byte : UInt8) (rest : Bytes) :
    readAscii (byte :: rest) =
      if isPrintableAscii byte then some (charOfByte byte, 1) else none :=
  rfl

/-- The reader of bytes reads the printable characters. -/
theorem reads_readAscii : Reads readAscii isPrintableChar := by
  intro data c size
  cases data with
  | nil =>
    constructor
    · intro h
      cases h
    · rintro ⟨_, hprefix, _⟩
      exact absurd (List.prefix_nil.1 hprefix) (Utf8.encodeChar_ne_nil c)
  | cons byte rest =>
    rw [readAscii_cons]
    constructor
    · intro h
      split at h
      · rename_i hbyte
        obtain ⟨rfl, rfl⟩ : charOfByte byte = c ∧ 1 = size := by simpa using h
        have hencode := encodeChar_charOfByte hbyte
        refine ⟨(isPrintableChar_charOfByte byte).trans hbyte, ?_, ?_⟩
        · rw [hencode]
          exact ⟨rest, rfl⟩
        · rw [← Utf8.length_encodeChar, hencode]
          rfl
      · cases h
    · rintro ⟨hc, hprefix, rfl⟩
      obtain ⟨first, hfirst, rfl, hencode⟩ := exists_byte_of_isPrintableChar hc
      rw [hencode] at hprefix
      obtain ⟨rfl, _⟩ := List.cons_prefix_cons.1 hprefix
      rw [if_pos hfirst, ← Utf8.length_encodeChar, hencode]
      rfl

/-- What is found in ASCII are the maximal runs that are long enough. -/
theorem mem_ascii_iff_isMaximalRun {data : Bytes} {minLength : Int} {run : Run} :
    run ∈ ascii data minLength ↔
      ∃ stop, IsMaximalRun isPrintableChar data run.offset stop run.text.toList ∧
        minLength ≤ run.text.toList.length := by
  unfold ascii
  rw [(areRuns_runs reads_readAscii data).1 run]
  constructor
  · rintro ⟨stop, text, hrun, htext, hkeep⟩
    rw [htext, String.toList_ofList]
    exact ⟨stop, hrun, of_decide_eq_true hkeep⟩
  · rintro ⟨stop, hrun, hlength⟩
    exact ⟨stop, run.text.toList, hrun, by rw [String.ofList_toList], decide_eq_true hlength⟩

/-- Runs come in the order of their offsets. -/
theorem ascending_ascii (data : Bytes) (minLength : Int) :
    (ascii data minLength).Pairwise fun earlier later => earlier.offset < later.offset :=
  (areRuns_runs reads_readAscii data).2

/-- A maximal interval of printable ASCII bytes. -/
structure IsAsciiInterval (data : Bytes) (start stop : Nat) : Prop where
  start_lt_stop : start < stop
  stop_le_length : stop ≤ data.length
  printable : ∀ byte ∈ data.slice start (stop - start), isPrintableAscii byte = true
  closed_right : ∀ byte, data[stop]? = some byte → isPrintableAscii byte = false
  closed_left : 0 < start → ∀ byte, data[start - 1]? = some byte → isPrintableAscii byte = false

/-- The text of printable ASCII bytes is written as these bytes. -/
theorem encode_map_charOfByte {bytes : Bytes}
    (hbytes : ∀ byte ∈ bytes, isPrintableAscii byte = true) :
    Utf8.encode (bytes.map charOfByte) = bytes := by
  induction bytes with
  | nil => rfl
  | cons byte bytes ih =>
    rw [List.map_cons, Utf8.encode_cons, encodeChar_charOfByte (hbytes byte (by simp)),
      ih (fun x hx => hbytes x (by simp [hx]))]
    rfl

/-- A text of printable ASCII characters is the text of its bytes. -/
theorem map_charOfByte_encode {text : List Char}
    (hmembers : ∀ c ∈ text, isPrintableChar c = true) :
    (Utf8.encode text).map charOfByte = text ∧
      ∀ byte ∈ Utf8.encode text, isPrintableAscii byte = true := by
  induction text with
  | nil => simp
  | cons c text ih =>
    obtain ⟨byte, hbyte, hchar, hencode⟩ := exists_byte_of_isPrintableChar (hmembers c (by simp))
    have htail := ih fun x hx => hmembers x (by simp [hx])
    rw [Utf8.encode_cons, hencode, List.map_append, htail.1, ← hchar]
    refine ⟨rfl, ?_⟩
    intro x hx
    rcases List.mem_append.1 hx with hx | hx
    · rw [List.mem_singleton.1 hx]
      exact hbyte
    · exact htail.2 x hx

/-- No printable character starts at a place exactly if the byte there, if any, is not printable. -/
theorem startsNone_drop_iff {data : Bytes} {stop : Nat} :
    StartsNone isPrintableChar (data.drop stop) ↔
      ∀ byte, data[stop]? = some byte → isPrintableAscii byte = false := by
  constructor
  · intro h byte hbyte
    refine Bool.eq_false_iff.2 fun hprintable => ?_
    refine h (charOfByte byte) ((isPrintableChar_charOfByte byte).trans hprintable) ?_
    rw [encodeChar_charOfByte hprintable, List.singleton_prefix_iff_head?_eq_some,
      List.head?_drop, hbyte]
  · intro h c hc hprefix
    obtain ⟨byte, hbyte, _, hencode⟩ := exists_byte_of_isPrintableChar hc
    rw [hencode, List.singleton_prefix_iff_head?_eq_some, List.head?_drop] at hprefix
    have hfalse := h byte hprefix
    rw [hbyte] at hfalse
    cases hfalse

/-- None ends at a place exactly if the byte before it, if any, is not printable. -/
theorem endsNone_take_iff {data : Bytes} {start : Nat} (hstart : start ≤ data.length) :
    EndsNone isPrintableChar (data.take start) ↔
      (0 < start → ∀ byte, data[start - 1]? = some byte → isPrintableAscii byte = false) := by
  have hlast : 0 < start → (data.take start).getLast? = data[start - 1]? := by
    intro hpos
    rw [List.getLast?_take, if_neg (by omega), List.getElem?_eq_getElem (by omega)]
    rfl
  constructor
  · intro h hpos byte hbyte
    refine Bool.eq_false_iff.2 fun hprintable => ?_
    refine h (charOfByte byte) ((isPrintableChar_charOfByte byte).trans hprintable) ?_
    rw [encodeChar_charOfByte hprintable, List.singleton_suffix_iff_getLast?_eq_some, hlast hpos,
      hbyte]
  · intro h c hc hsuffix
    obtain ⟨byte, hbyte, _, hencode⟩ := exists_byte_of_isPrintableChar hc
    rw [hencode, List.singleton_suffix_iff_getLast?_eq_some] at hsuffix
    have hpos : 0 < start := by
      rcases Nat.eq_zero_or_pos start with rfl | hpos
      · simp at hsuffix
      · exact hpos
    rw [hlast hpos] at hsuffix
    have hfalse := h hpos byte hsuffix
    rw [hbyte] at hfalse
    cases hfalse

/-- A maximal run of printable ASCII characters is a maximal interval of printable ASCII bytes with
the text of these bytes. -/
theorem isMaximalRun_ascii_iff {data : Bytes} {start stop : Nat} {text : List Char} :
    IsMaximalRun isPrintableChar data start stop text ↔
      IsAsciiInterval data start stop ∧
        text = (data.slice start (stop - start)).map charOfByte := by
  constructor
  · intro h
    obtain ⟨htext, hprintable⟩ := map_charOfByte_encode h.members
    have hstart := h.start_le_stop
    have hstop := h.stop_le_length
    have hlength : start ≠ stop := by
      rintro rfl
      have hspelled := h.spelled
      simp only [Bytes.slice, Nat.sub_self, List.take_zero] at hspelled
      exact h.text_ne_nil (Utf8.encode_eq_nil_iff.1 hspelled.symm)
    refine ⟨⟨by omega, hstop, ?_, startsNone_drop_iff.1 h.closed_right,
      (endsNone_take_iff (by omega)).1 h.closed_left⟩, ?_⟩
    · rw [h.spelled]
      exact hprintable
    · rw [h.spelled, htext]
  · rintro ⟨h, rfl⟩
    have hstart := h.start_lt_stop
    have hstop := h.stop_le_length
    refine ⟨by omega, hstop, (encode_map_charOfByte h.printable).symm, ?_, ?_,
      startsNone_drop_iff.2 h.closed_right, (endsNone_take_iff (by omega)).2 h.closed_left⟩
    · intro hnil
      have hlength := congrArg List.length hnil
      simp only [Bytes.slice, List.length_map, List.length_take, List.length_drop,
        List.length_nil] at hlength
      omega
    · intro c hc
      obtain ⟨byte, hbyte, rfl⟩ := List.mem_map.1 hc
      rw [isPrintableChar_charOfByte]
      exact h.printable byte hbyte

/-- A long enough maximal interval of printable ASCII bytes, with their text. -/
def IsAsciiRun (data : Bytes) (minLength : Int) (run : Run) : Prop :=
  ∃ stop, IsAsciiInterval data run.offset stop ∧ minLength ≤ ((stop - run.offset : Nat) : Int) ∧
    run.text = (data.slice run.offset (stop - run.offset)).toLatin1

/-- The ASCII runs that are reported. -/
theorem mem_ascii_iff {data : Bytes} {minLength : Int} {run : Run} :
    run ∈ ascii data minLength ↔ IsAsciiRun data minLength run := by
  rw [mem_ascii_iff_isMaximalRun]
  have htext : ∀ stop, run.text.toList =
      (data.slice run.offset (stop - run.offset)).map charOfByte ↔
      run.text = (data.slice run.offset (stop - run.offset)).toLatin1 := by
    intro stop
    rw [Bytes.toLatin1, ← String.toList_inj, String.toList_ofList]
    rfl
  have hlength : ∀ stop, IsAsciiInterval data run.offset stop →
      (data.slice run.offset (stop - run.offset)).length = stop - run.offset := by
    intro stop h
    have hstart := h.start_lt_stop
    have hstop := h.stop_le_length
    rw [Bytes.slice, List.length_take, List.length_drop]
    omega
  unfold IsAsciiRun
  constructor
  · rintro ⟨stop, hrun, hmin⟩
    obtain ⟨hinterval, hchars⟩ := isMaximalRun_ascii_iff.1 hrun
    rw [hchars, List.length_map, hlength stop hinterval] at hmin
    exact ⟨stop, hinterval, hmin, (htext stop).1 hchars⟩
  · rintro ⟨stop, hinterval, hmin, hchars⟩
    rw [← htext stop] at hchars
    refine ⟨stop, isMaximalRun_ascii_iff.2 ⟨hinterval, hchars⟩, ?_⟩
    rw [hchars, List.length_map, hlength stop hinterval]
    exact hmin

/-- A text of bytes has as many characters as there are bytes. -/
theorem length_toLatin1 (bytes : Bytes) : bytes.toLatin1.length = bytes.length := by
  simp [Bytes.toLatin1]

/-- A run with the text of an interval ends where the interval does. -/
theorem IsAsciiInterval.offset_add_length {data : Bytes} {run : Run} {stop : Nat}
    (h : IsAsciiInterval data run.offset stop)
    (htext : run.text = (data.slice run.offset (stop - run.offset)).toLatin1) :
    run.offset + run.text.length = stop := by
  have hstart := h.start_lt_stop
  have hstop := h.stop_le_length
  rw [htext, length_toLatin1, Bytes.slice, List.length_take, List.length_drop]
  omega

/-- The ASCII scanner reports exactly the maximal intervals of printable ASCII bytes that have enough
bytes.  Each is reported once, by ascending offset, with the text of its bytes; the interval of a run
ends as many bytes behind its start as its text has characters. -/
theorem ascii_exact (data : Bytes) (minLength : Int) :
    (∀ run : Run, run ∈ ascii data minLength ↔
      IsAsciiInterval data run.offset (run.offset + run.text.length) ∧
        run.text = (data.slice run.offset run.text.length).toLatin1 ∧
        minLength ≤ run.text.length) ∧
    (ascii data minLength).Pairwise fun earlier later => earlier.offset < later.offset := by
  refine ⟨fun run => ?_, ascending_ascii data minLength⟩
  rw [mem_ascii_iff]
  constructor
  · rintro ⟨stop, hinterval, hlength, htext⟩
    obtain rfl := hinterval.offset_add_length htext
    rw [Nat.add_sub_cancel_left] at hlength htext
    exact ⟨hinterval, htext, hlength⟩
  · rintro ⟨hinterval, htext, hlength⟩
    refine ⟨_, hinterval, ?_, ?_⟩
    · rw [Nat.add_sub_cancel_left]
      exact hlength
    · rw [Nat.add_sub_cancel_left]
      exact htext

/-- A buffer that is one run, reported whatever the least length is as long as it is no more. -/
example : ascii [0x68, 0x69] (-1) = [⟨"hi", 0⟩] ∧ ascii [0x68, 0x69] 2 = [⟨"hi", 0⟩] ∧
    ascii [0x68, 0x69] 3 = [] := by
  decide +kernel

/-- No text is both an ASCII run and a UTF-8 run. -/
theorem not_isWide_of_mem_ascii {data : Bytes} {minLength : Int} {run : Run}
    (h : run ∈ ascii data minLength) : ¬ IsWide run.text.toList := by
  rintro ⟨c, hc, hwide⟩
  obtain ⟨stop, hrun, _⟩ := mem_ascii_iff_isMaximalRun.1 h
  obtain ⟨byte, _, _, hencode⟩ := exists_byte_of_isPrintableChar (hrun.members c hc)
  rw [hencode] at hwide
  simp at hwide

end BinaryStrings.Scan
