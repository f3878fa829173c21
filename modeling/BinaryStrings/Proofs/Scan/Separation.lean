import BinaryStrings.Proofs.Scan.Spans

/-!
# Bytes that separate

A byte that no character of a set contains separates the runs of this set: what is in front of it ends
there as at the end of a buffer, and what is behind it begins as at the start of one.  This holds also
where the byte cuts a character off, or stands before bytes that start none.

Main results:

- Theorem `isMaximalRun_append_cons_iff`: a run lies on one side of such a byte, and is one there.
- Theorem `separates_ascii` and `separates_utf8`: control bytes separate for both scanners.
- Theorem `Separates.append_replicate` and `Separates.replicate_append`: buffers padded with such bytes.
-/

namespace BinaryStrings

/-- The run some bytes further on. -/
def Run.movedBy (distance : Nat) (run : Run) : Run :=
  ⟨run.text, run.offset + distance⟩

@[simp] theorem Run.movedBy_text (distance : Nat) (run : Run) :
    (run.movedBy distance).text = run.text :=
  rfl

@[simp] theorem Run.movedBy_offset (distance : Nat) (run : Run) :
    (run.movedBy distance).offset = run.offset + distance :=
  rfl

theorem Run.movedBy_zero : Run.movedBy 0 = id :=
  rfl

theorem Run.movedBy_comp_movedBy (more distance : Nat) :
    Run.movedBy more ∘ Run.movedBy distance = Run.movedBy (distance + more) := by
  funext run
  simp [movedBy, Nat.add_assoc]

/-- A byte below 0x80 is in the written form of its own character only. -/
theorem Utf8.toNat_eq_of_mem_encodeChar {c : Char} {byte : UInt8} (h : byte ∈ encodeChar c)
    (hbyte : byte.toNat < 0x80) : c.toNat = byte.toNat := by
  have hlt := toNat_lt c
  have hlarge : ∀ n < 0x100, 0x80 ≤ n → byte ≠ n.toUInt8 := by
    rintro n hn hle rfl
    rw [toNat_toUInt8 hn] at hbyte
    omega
  unfold encodeChar at h
  dsimp only at h
  split at h
  · rw [List.mem_singleton.1 h, toNat_toUInt8 (by omega)]
  · exfalso
    revert h
    repeat' split
    all_goals
      simp only [List.mem_cons, List.not_mem_nil, or_false, imp_false, not_or]
      and_intros
    all_goals exact hlarge _ (by omega) (by omega)

namespace Scan

/-! ## Separated runs -/

/-- No character of the set contains the byte. -/
def IsForeign (member : Char → Bool) (byte : UInt8) : Prop :=
  ∀ c, member c = true → byte ∉ Utf8.encodeChar c

variable {member : Char → Bool} {byte : UInt8} {before behind : Bytes} {start stop : Nat}
  {text : List Char}

theorem IsForeign.notMem_encode (h : IsForeign member byte) (htext : ∀ c ∈ text, member c = true) :
    byte ∉ Utf8.encode text := by
  intro hmem
  obtain ⟨c, hc, hbyte⟩ := List.mem_flatMap.1 hmem
  exact h c (htext c hc) hbyte

/-- Bytes without the separating one lie in front of it or behind it. -/
theorem append_eq_append_cons {front bytes back : Bytes} (hbyte : byte ∉ bytes)
    (h : front ++ (bytes ++ back) = before ++ byte :: behind) :
    (∃ middle, before = front ++ (bytes ++ middle) ∧ back = middle ++ byte :: behind) ∨
      ∃ middle, front = before ++ byte :: middle ∧ behind = middle ++ (bytes ++ back) := by
  rcases List.append_eq_append_iff.1 h with ⟨overlap, rfl, hrest⟩ | ⟨overlap, rfl, hrest⟩
  · rcases List.append_eq_append_iff.1 hrest with ⟨middle, rfl, rfl⟩ | ⟨cut, rfl, hcut⟩
    · exact .inl ⟨middle, rfl, rfl⟩
    · -- The bytes would reach over the separating one.
      cases cut with
      | nil => exact .inl ⟨[], by simp, hcut.symm⟩
      | cons first cut =>
        obtain ⟨rfl, -⟩ := List.cons.inj hcut
        simp at hbyte
  · cases overlap with
    | nil =>
      cases bytes with
      | nil => exact .inl ⟨[], by simp, hrest.symm⟩
      | cons first bytes =>
        obtain ⟨rfl, -⟩ := List.cons.inj hrest
        simp at hbyte
    | cons first middle =>
      obtain ⟨rfl, rfl⟩ := List.cons.inj hrest
      exact .inr ⟨middle, rfl, rfl⟩

/-- What a separating byte cuts off starts no character. -/
theorem startsNone_append_cons_iff (h : IsForeign member byte) :
    StartsNone member (before ++ byte :: behind) ↔ StartsNone member before := by
  refine ⟨fun hnone c hc hinitial => hnone c hc (hinitial.trans (List.prefix_append _ _)), ?_⟩
  rintro hnone c hc ⟨back, hback⟩
  rw [← List.nil_append (Utf8.encodeChar c ++ back)] at hback
  rcases append_eq_append_cons (h c hc) hback with ⟨middle, rfl, -⟩ | ⟨middle, hnil, -⟩
  · exact hnone c hc ⟨middle, rfl⟩
  · simp at hnil

/-- What stands behind a separating byte ends no character that began before it. -/
theorem endsNone_append_cons_iff (h : IsForeign member byte) :
    EndsNone member (before ++ byte :: behind) ↔ EndsNone member behind := by
  constructor
  · intro hnone c hc hsuffix
    exact hnone c hc (hsuffix.trans ((List.suffix_cons _ _).trans (List.suffix_append _ _)))
  · rintro hnone c hc ⟨front, hfront⟩
    rw [← List.append_nil (Utf8.encodeChar c)] at hfront
    rcases append_eq_append_cons (h c hc) hfront with ⟨middle, -, hnil⟩ | ⟨middle, -, rfl⟩
    · simp at hnil
    · exact hnone c hc ⟨middle, by simp⟩

/-- A run lies on one side of a separating byte, and is a run of what stands there. -/
theorem isMaximalRun_append_cons_iff (h : IsForeign member byte) :
    IsMaximalRun member (before ++ byte :: behind) start stop text ↔
      IsMaximalRun member before start stop text ∨
        ∃ start' stop', start = start' + (before.length + 1) ∧ stop = stop' + (before.length + 1) ∧
          IsMaximalRun member behind start' stop' text := by
  simp only [isMaximalRun_iff_append]
  constructor
  · rintro ⟨front, back, hdata, rfl, rfl, hne, hmembers, hback, hfront⟩
    rcases append_eq_append_cons (h.notMem_encode hmembers) hdata.symm with
      ⟨middle, rfl, rfl⟩ | ⟨middle, rfl, rfl⟩
    · exact .inl ⟨front, middle, rfl, rfl, rfl, hne, hmembers,
        (startsNone_append_cons_iff h).1 hback, hfront⟩
    · refine .inr ⟨middle.length, _, ?_, ?_, middle, back, rfl, rfl, rfl, hne, hmembers, hback,
        (endsNone_append_cons_iff h).1 hfront⟩
      · simp only [List.length_append, List.length_cons]
        omega
      · simp only [List.length_append, List.length_cons]
        omega
  · rintro (⟨front, back, rfl, rfl, rfl, hne, hmembers, hback, hfront⟩ |
      ⟨_, _, rfl, rfl, front, back, rfl, rfl, rfl, hne, hmembers, hback, hfront⟩)
    · exact ⟨front, back ++ byte :: behind, by simp, rfl, rfl, hne, hmembers,
        (startsNone_append_cons_iff h).2 hback, hfront⟩
    · refine ⟨before ++ byte :: front, back, by simp, ?_, ?_, hne, hmembers, hback,
        (endsNone_append_cons_iff h).2 hfront⟩
      · simp only [List.length_append, List.length_cons]
        omega
      · omega

/-! ## Separated scans -/

/-- A test of runs by their length and width alone. -/
def IgnoresStart (keep : Pending → Bool) : Prop :=
  ∀ start start' text, keep (Pending.ofText start text) = keep (Pending.ofText start' text)

/-- The runs worth keeping are those on both sides. -/
theorem isKept_append_cons_iff {keep : Pending → Bool} (h : IsForeign member byte)
    (hkeep : IgnoresStart keep) {run : Run} :
    IsKept member keep (before ++ byte :: behind) run ↔ IsKept member keep before run ∨
      ∃ other, IsKept member keep behind other ∧ run = other.movedBy (before.length + 1) := by
  unfold IsKept
  simp only [isMaximalRun_append_cons_iff h]
  constructor
  · rintro ⟨stop, text, hrun | ⟨start, stop', hstart, -, hrun⟩, htext, hkept⟩
    · exact .inl ⟨stop, text, hrun, htext, hkept⟩
    · refine .inr ⟨⟨run.text, start⟩, ⟨stop', text, hrun, htext, ?_⟩, ?_⟩
      · rw [← hkept]
        exact hkeep _ _ _
      · cases run
        simp_all [Run.movedBy]
  · rintro (⟨stop, text, hrun, htext, hkept⟩ | ⟨other, ⟨stop, text, hrun, htext, hkept⟩, rfl⟩)
    · exact ⟨stop, text, .inl hrun, htext, hkept⟩
    · refine ⟨_, text, .inr ⟨_, stop, rfl, rfl, hrun⟩, htext, ?_⟩
      rw [← hkept]
      exact hkeep _ _ _

/-- A scan of what is on both sides of a separating byte. -/
theorem runs_append_cons {read : Bytes → Option (Char × Nat)} {keep : Pending → Bool}
    (hread : Reads read member) (h : IsForeign member byte) (hkeep : IgnoresStart keep)
    (before behind : Bytes) :
    runs read keep (before ++ byte :: behind) =
      runs read keep before ++ (runs read keep behind).map (Run.movedBy (before.length + 1)) := by
  have hruns : ∀ data, AreRuns member keep data (runs read keep data) := areRuns_runs hread
  obtain ⟨hmem, hascending⟩ := hruns (before ++ byte :: behind)
  obtain ⟨hbefore, hbefore'⟩ := hruns before
  obtain ⟨hbehind, hbehind'⟩ := hruns behind
  refine eq_of_ascending hascending ?_ fun run => ?_
  · refine List.pairwise_append.2 ⟨hbefore', hbehind'.map _ fun a b hab => ?_, ?_⟩
    · exact Nat.add_lt_add_right hab _
    · intro earlier hearlier later hlater
      obtain ⟨stop, text, hrun, -⟩ := (hbefore earlier).1 hearlier
      obtain ⟨other, -, rfl⟩ := List.mem_map.1 hlater
      have hstop := hrun.stop_le_length
      have hstart := hrun.start_le_stop
      rw [Run.movedBy_offset]
      omega
  · rw [hmem, isKept_append_cons_iff h hkeep, List.mem_append, hbefore, List.mem_map]
    simp only [hbehind, eq_comm]

/-- The byte separates buffers for a scanner: it finds what it finds in front of it and what it finds
behind it. -/
def Separates (scan : Bytes → Int → List Run) (byte : UInt8) : Prop :=
  ∀ before behind minLength, scan (before ++ byte :: behind) minLength =
    scan before minLength ++ (scan behind minLength).map (Run.movedBy (before.length + 1))

/-- The control bytes of ASCII. -/
def IsControlByte (byte : UInt8) : Prop :=
  byte.toNat < 0x20 ∨ byte.toNat = 0x7F

theorem IsControlByte.isForeign (hbyte : IsControlByte byte) : IsForeign isNoControl byte := by
  intro c hc hmem
  have hsame : c.toNat = byte.toNat := by
    refine Utf8.toNat_eq_of_mem_encodeChar hmem ?_
    rcases hbyte with hlow | hdelete <;> omega
  simp only [isNoControl, Unicode.isControl, Bool.not_eq_true', Bool.or_eq_false_iff,
    Bool.and_eq_false_iff, decide_eq_false_iff_not] at hc
  rcases hbyte with hlow | hdelete <;> omega

theorem separates_ascii (hbyte : IsControlByte byte) : Separates ascii byte := by
  intro before behind minLength
  have hforeign : IsForeign isPrintableChar byte := fun c hc =>
    hbyte.isForeign c (isNoControl_of_isPrintableChar hc)
  exact runs_append_cons reads_readAscii hforeign (fun _ _ _ => rfl) before behind

theorem separates_utf8 (hbyte : IsControlByte byte) : Separates utf8 byte := by
  intro before behind minLength
  exact runs_append_cons reads_readUtf8 hbyte.isForeign (fun _ _ _ => rfl) before behind

/-! ## Padding -/

namespace Separates

variable {scan : Bytes → Int → List Run} {minLength : Int}

/-- Separating bytes in front move the runs by their number. -/
theorem replicate_append (h : Separates scan byte) (hnil : scan [] minLength = []) (count : Nat)
    (data : Bytes) : scan (List.replicate count byte ++ data) minLength =
      (scan data minLength).map (Run.movedBy count) := by
  induction count with
  | zero => simp [Run.movedBy_zero]
  | succ count ih =>
    have hfirst := h [] (List.replicate count byte ++ data) minLength
    rw [List.nil_append, hnil, List.nil_append, ih, List.map_map, Run.movedBy_comp_movedBy] at hfirst
    exact hfirst

/-- Separating bytes at the end change no run. -/
theorem append_replicate (h : Separates scan byte) (hnil : scan [] minLength = []) (count : Nat)
    (data : Bytes) : scan (data ++ List.replicate count byte) minLength = scan data minLength := by
  cases count with
  | zero => simp
  | succ count =>
    have hrest := h.replicate_append hnil count []
    rw [hnil, List.append_nil, List.map_nil] at hrest
    rw [List.replicate_succ, h, hrest, List.map_nil, List.append_nil]

end Separates

end Scan

end BinaryStrings
