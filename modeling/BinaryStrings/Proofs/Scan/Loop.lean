import BinaryStrings.Proofs.Scan.MaximalRun
import Mathlib.Data.List.Sort

/-!
# The scanning loop

The loop that finds runs is proved exact for every reader of single characters: it reports each
maximal run that is worth keeping once, by ascending offset, and nothing else.

The invariant `Reached` says what the loop knows when `done` lies behind it: it is in step with the
characters of the buffer, the run being read has begun where no earlier character ends, and the runs
found are those that start before it.  `Reached.append_encodeChar` and `Reached.append_byte` are the
two steps, and `areRuns_runs` follows by induction on the bytes that are left.
-/

namespace BinaryStrings.Scan

/-- A reader reads exactly the characters of a set, each with its written form. -/
def Reads (read : Bytes → Option (Char × Nat)) (member : Char → Bool) : Prop :=
  ∀ data c size, read data = some (c, size) ↔
    member c = true ∧ Utf8.encodeChar c <+: data ∧ size = Utf8.width c

/-- The run being read when `text` has been read from `start` on. -/
def Pending.ofText (start : Nat) (text : List Char) : Pending :=
  ⟨start, text.reverse, text.length, text.any fun c => decide (1 < Utf8.width c)⟩

@[simp] theorem Pending.ofText_start (start : Nat) (text : List Char) :
    (Pending.ofText start text).start = start :=
  rfl

@[simp] theorem Pending.toRun_ofText (start : Nat) (text : List Char) :
    (Pending.ofText start text).toRun = ⟨String.ofList text, start⟩ := by
  simp [Pending.toRun, Pending.ofText]

theorem extend_none (position : Nat) (c : Char) :
    extend none position c (Utf8.width c) = Pending.ofText position [c] := by
  simp [extend, Pending.ofText]

theorem extend_ofText (start position : Nat) (text : List Char) (c : Char) :
    extend (some (Pending.ofText start text)) position c (Utf8.width c) =
      Pending.ofText start (text ++ [c]) := by
  simp [extend, Pending.ofText]

/-- A maximal run of the buffer that is worth keeping. -/
def IsKept (member : Char → Bool) (keep : Pending → Bool) (data : Bytes) (run : Run) : Prop :=
  ∃ stop text, IsMaximalRun member data run.offset stop text ∧ run.text = String.ofList text ∧
    keep (Pending.ofText run.offset text) = true

/-- Where the run being read has begun, or the place reached when there is none. -/
def frontier (done : Bytes) (pending : Option Pending) : Nat :=
  (pending.map Pending.start).getD done.length

@[simp] theorem frontier_none (done : Bytes) : frontier done none = done.length :=
  rfl

@[simp] theorem frontier_some (done : Bytes) (pending : Pending) :
    frontier done (some pending) = pending.start :=
  rfl

variable {read : Bytes → Option (Char × Nat)} {member : Char → Bool} {keep : Pending → Bool}

/-- What the loop knows when `done` lies behind it and `rest` ahead. -/
structure Reached (member : Char → Bool) (keep : Pending → Bool) (done rest : Bytes)
    (pending : Option Pending) (found : List Run) : Prop where
  synchronized : Synchronized member done rest
  idle : pending = none → EndsNone member done
  reading : ∀ current, pending = some current → ∃ before text,
    done = before ++ Utf8.encode text ∧ text ≠ [] ∧ (∀ c ∈ text, member c = true) ∧
      EndsNone member before ∧ current = Pending.ofText before.length text
  mem_found : ∀ run, run ∈ found ↔
    IsKept member keep (done ++ rest) run ∧ run.offset < frontier done pending
  no_start_between : ∀ {start stop text}, IsMaximalRun member (done ++ rest) start stop text →
    frontier done pending < start → done.length ≤ start
  descending : found.Pairwise fun later earlier => earlier.offset < later.offset

/-- Nothing is known to begin with, and nothing has been missed. -/
theorem Reached.start (data : Bytes) : Reached member keep [] data none [] where
  synchronized := synchronized_nil data
  idle := fun _ => endsNone_nil
  reading := by simp
  mem_found := by simp
  no_start_between := by simp
  descending := List.Pairwise.nil

/-! ## Where runs start -/

/-- No run starts where no character does. -/
theorem IsMaximalRun.start_ne_length {done rest : Bytes} {start stop : Nat} {text : List Char}
    (h : IsMaximalRun member (done ++ rest) start stop text) (hnone : StartsNone member rest) :
    start ≠ done.length := by
  intro hstart
  obtain ⟨before, after, heq, hbefore, _, hne, hmembers, _, _⟩ := isMaximalRun_iff_append.1 h
  have hrest := (List.append_inj heq (hstart.symm.trans hbefore.symm)).2
  obtain ⟨c, hc, hprefix⟩ := exists_prefix_of_text after hne hmembers
  exact hnone c hc (hrest ▸ hprefix)

/-- No run starts where a character of the set ends. -/
theorem IsMaximalRun.start_ne_length_of_encode {before rest : Bytes} {read : List Char}
    {start stop : Nat} {text : List Char} (hread : read ≠ [])
    (hmembers : ∀ c ∈ read, member c = true)
    (h : IsMaximalRun member (before ++ Utf8.encode read ++ rest) start stop text) :
    start ≠ (before ++ Utf8.encode read).length := by
  intro hstart
  obtain ⟨front, after, heq, hfront, _, _, _, _, hleft⟩ := isMaximalRun_iff_append.1 h
  have hdone := (List.append_inj heq (hstart.symm.trans hfront.symm)).1
  obtain ⟨init, last, rfl⟩ := List.eq_nil_or_concat read |>.resolve_left hread
  rw [List.concat_eq_append] at hmembers hdone
  refine hleft last (hmembers last (by simp)) ?_
  rw [← hdone, Utf8.encode_append, Utf8.encode_singleton, ← List.append_assoc]
  exact List.suffix_append _ _

/-- No run starts inside the bytes of a character. -/
theorem IsMaximalRun.not_start_inside {done rest : Bytes} {c : Char} {start stop : Nat}
    {text : List Char} (h : IsMaximalRun member (done ++ (Utf8.encodeChar c ++ rest)) start stop text)
    (hlow : done.length < start) : done.length + Utf8.width c ≤ start := by
  refine Nat.le_of_not_lt fun hhigh => ?_
  obtain ⟨before, after, heq, hbefore, _, hne, hmembers, _, _⟩ := isMaximalRun_iff_append.1 h
  have hwidth := Utf8.length_encodeChar c
  rcases List.append_eq_append_iff.1 heq with ⟨front, rfl, hinner⟩ | ⟨tail, hdone, _⟩
  · rw [List.length_append] at hbefore
    rcases List.append_eq_append_iff.1 hinner with ⟨tail, hfront, _⟩ | ⟨back, hsplit, htext⟩
    · rw [hfront, List.length_append] at hbefore
      omega
    · obtain ⟨d, _, hprefix⟩ := exists_prefix_of_text after hne hmembers
      rw [htext] at hprefix
      have hlength := congrArg List.length hsplit
      rw [List.length_append] at hlength
      refine Utf8.not_prefix_inside d _ hsplit ?_ ?_ hprefix
      · rintro rfl
        simp at hbefore
        omega
      · rintro rfl
        simp at hlength
        omega
  · have hlength := congrArg List.length hdone
    rw [List.length_append] at hlength
    omega

/-! ## The two steps -/

/-- Reading a character: it belongs to the run being read, or starts one. -/
theorem Reached.append_encodeChar {done rest : Bytes} {c : Char} {pending : Option Pending}
    {found : List Run} (h : Reached member keep done (Utf8.encodeChar c ++ rest) pending found)
    (hc : member c = true) :
    Reached member keep (done ++ Utf8.encodeChar c) rest
      (some (extend pending done.length c (Utf8.width c))) found := by
  have hsync := h.synchronized.append_encodeChar
  have hlength : (done ++ Utf8.encodeChar c).length = done.length + Utf8.width c := by simp
  cases pending with
  | none =>
    refine ⟨hsync, by simp, ?_, ?_, ?_, h.descending⟩
    · rintro _ ⟨rfl⟩
      exact ⟨done, [c], by simp, by simp, by simpa using hc, h.idle rfl, extend_none _ _⟩
    · intro run
      rw [h.mem_found, extend_none, List.append_assoc]
      rfl
    · intro start stop text hrun hlow
      rw [List.append_assoc] at hrun
      rw [extend_none] at hlow
      rw [hlength]
      exact hrun.not_start_inside hlow
  | some current =>
    obtain ⟨before, text, rfl, hne, hmembers, hleft, rfl⟩ := h.reading current rfl
    refine ⟨hsync, by simp, ?_, ?_, ?_, h.descending⟩
    · rintro _ ⟨rfl⟩
      refine ⟨before, text ++ [c], by simp, by simp, ?_, hleft, extend_ofText _ _ _ _⟩
      intro d hd
      rcases List.mem_append.1 hd with hd | hd
      · exact hmembers d hd
      · rw [List.mem_singleton.1 hd]
        exact hc
    · intro run
      rw [h.mem_found, extend_ofText, List.append_assoc (before ++ Utf8.encode text)]
      rfl
    · intro start stop text' hrun hlow
      rw [List.append_assoc (before ++ Utf8.encode text)] at hrun
      rw [extend_ofText] at hlow
      rw [hlength]
      have hstart := h.no_start_between hrun hlow
      have hne' := hrun.start_ne_length_of_encode hne hmembers
      exact hrun.not_start_inside (by omega)

/-- The run being read is among the runs found when it ends, if it is worth keeping. -/
theorem mem_close_ofText {start : Nat} {text : List Char} {found : List Run} {run : Run} :
    run ∈ close keep (some (Pending.ofText start text)) found ↔
      (keep (Pending.ofText start text) = true ∧ run = ⟨String.ofList text, start⟩) ∨
        run ∈ found := by
  simp only [close, Pending.toRun_ofText]
  split
  · rename_i hkeep
    simp [hkeep]
  · rename_i hkeep
    simp [hkeep]

/-- The runs found when the run being read ends: those that start at the place reached or before. -/
theorem Reached.mem_close {done rest : Bytes} {pending : Option Pending} {found : List Run}
    (h : Reached member keep done rest pending found) (hnone : StartsNone member rest)
    (run : Run) :
    run ∈ close keep pending found ↔
      IsKept member keep (done ++ rest) run ∧ run.offset < done.length + 1 := by
  have hother : IsKept member keep (done ++ rest) run → run.offset ≠ done.length := by
    rintro ⟨stop, text, hrun, _, _⟩
    exact hrun.start_ne_length hnone
  cases pending with
  | none =>
    simp only [close]
    rw [h.mem_found, frontier_none]
    constructor
    · rintro ⟨hkept, hlow⟩
      exact ⟨hkept, by omega⟩
    · rintro ⟨hkept, hlow⟩
      have hne := hother hkept
      exact ⟨hkept, by omega⟩
  | some current =>
    obtain ⟨before, text, rfl, hne, hmembers, hleft, rfl⟩ := h.reading current rfl
    have hcurrent : IsMaximalRun member (before ++ Utf8.encode text ++ rest) before.length
        (before.length + (Utf8.encode text).length) text :=
      isMaximalRun_iff_append.2
        ⟨before, rest, by rw [List.append_assoc], rfl, rfl, hne, hmembers, hnone, hleft⟩
    rw [mem_close_ofText, h.mem_found, frontier_some, Pending.ofText_start]
    constructor
    · rintro (⟨hkeep, rfl⟩ | ⟨hkept, hlow⟩)
      · exact ⟨⟨_, text, hcurrent, rfl, hkeep⟩, by simp only [List.length_append]; omega⟩
      · exact ⟨hkept, by simp only [List.length_append]; omega⟩
    · rintro ⟨hkept, hlow⟩
      have hnot := hother hkept
      obtain ⟨stop, text', hrun, htext, hkeep⟩ := hkept
      rcases Nat.lt_trichotomy run.offset before.length with hlt | heq | hgt
      · exact Or.inr ⟨⟨stop, text', hrun, htext, hkeep⟩, hlt⟩
      · -- A run with this start is the one that has been read.
        rw [heq] at hrun hkeep
        have hsame := hrun.unique hcurrent
        rw [hsame] at hkeep htext
        exact Or.inl ⟨hkeep, by cases run; simp_all⟩
      · have hlow' := h.no_start_between hrun hgt
        omega

/-- The runs found stay in order when the run being read ends. -/
theorem Reached.descending_close {done rest : Bytes} {pending : Option Pending}
    {found : List Run} (h : Reached member keep done rest pending found) :
    (close keep pending found).Pairwise fun later earlier => earlier.offset < later.offset := by
  cases pending with
  | none => exact h.descending
  | some current =>
    unfold close
    dsimp only
    split
    · refine List.Pairwise.cons ?_ h.descending
      intro earlier hearlier
      exact ((h.mem_found earlier).1 hearlier).2
    · exact h.descending

/-- Passing over a byte that starts no character: the run being read ends. -/
theorem Reached.append_byte {done rest : Bytes} {byte : UInt8} {pending : Option Pending}
    {found : List Run} (h : Reached member keep done (byte :: rest) pending found)
    (hnone : StartsNone member (byte :: rest)) :
    Reached member keep (done ++ [byte]) rest none (close keep pending found) where
  synchronized := h.synchronized.append_byte hnone
  idle := fun _ => h.synchronized.endsNone_append_byte hnone
  reading := by simp
  mem_found := by
    intro run
    rw [h.mem_close hnone, frontier_none, List.append_assoc]
    simp
  no_start_between := by
    intro start stop text _ hlow
    exact Nat.le_of_lt hlow
  descending := h.descending_close

/-! ## The whole loop -/

/-- The bytes that still belong to a character are passed over. -/
theorem runsFrom_skip (position skip : Nat) (pending : Option Pending) (found : List Run)
    (data : Bytes) (hskip : skip ≤ data.length) :
    runsFrom read keep position skip pending found data =
      runsFrom read keep (position + skip) 0 pending found (data.drop skip) := by
  induction data generalizing position skip with
  | nil =>
    rw [Nat.le_zero.1 hskip]
    rfl
  | cons byte data ih =>
    cases skip with
    | zero => rfl
    | succ skip =>
      rw [runsFrom, ih _ _ (Nat.le_of_succ_le_succ hskip)]
      congr 1
      omega

/-- At a character the loop goes on behind it. -/
theorem runsFrom_encodeChar_append (hread : Reads read member) {c : Char} (hc : member c = true)
    (position : Nat) (pending : Option Pending) (found : List Run) (rest : Bytes) :
    runsFrom read keep position 0 pending found (Utf8.encodeChar c ++ rest) =
      runsFrom read keep (position + Utf8.width c) 0
        (some (extend pending position c (Utf8.width c))) found rest := by
  have hsome : read (Utf8.encodeChar c ++ rest) = some (c, Utf8.width c) :=
    (hread _ _ _).2 ⟨hc, ⟨rest, rfl⟩, rfl⟩
  obtain ⟨lead, tail, hlead, _, _⟩ := Utf8.exists_lead_encodeChar c
  have hwidth : tail.length + 1 = Utf8.width c := by
    rw [← Utf8.length_encodeChar c, hlead]
    rfl
  rw [hlead, List.cons_append] at hsome ⊢
  rw [runsFrom, hsome]
  dsimp only
  rw [runsFrom_skip _ _ _ _ _ (by rw [List.length_append]; omega), ← hwidth,
    Nat.add_sub_cancel, List.drop_left, Nat.add_assoc, Nat.add_comm 1]

/-- At a byte that starts no character the loop goes on with the next byte. -/
theorem runsFrom_byte (hread : Reads read member) {byte : UInt8} {rest : Bytes}
    (hnone : StartsNone member (byte :: rest)) (position : Nat) (pending : Option Pending)
    (found : List Run) :
    runsFrom read keep position 0 pending found (byte :: rest) =
      runsFrom read keep (position + 1) 0 none (close keep pending found) rest := by
  have hread' : read (byte :: rest) = none := by
    rw [Option.eq_none_iff_forall_ne_some]
    rintro ⟨c, size⟩ hsome
    obtain ⟨hc, hprefix, _⟩ := (hread _ _ _).1 hsome
    exact hnone c hc hprefix
  rw [runsFrom, hread']

/-- What a list of runs has to be: the maximal runs worth keeping, by ascending offset. -/
def AreRuns (member : Char → Bool) (keep : Pending → Bool) (data : Bytes)
    (found : List Run) : Prop :=
  (∀ run, run ∈ found ↔ IsKept member keep data run) ∧
    found.Pairwise fun earlier later => earlier.offset < later.offset

/-- From every state that the invariant allows, the loop ends with the runs of the buffer. -/
theorem areRuns_runsFrom (hread : Reads read member) {done rest : Bytes}
    {pending : Option Pending} {found : List Run}
    (h : Reached member keep done rest pending found) :
    AreRuns member keep (done ++ rest)
      (runsFrom read keep done.length 0 pending found rest) := by
  -- A character takes several bytes at once, so the induction is on their number.
  generalize hlength : rest.length = n
  induction n using Nat.strongRecOn generalizing done rest pending found with
  | ind n ih =>
    by_cases hsome : ∃ c, member c = true ∧ Utf8.encodeChar c <+: rest
    · obtain ⟨c, hc, tail, rfl⟩ := hsome
      have hshort : tail.length < n := by
        have hpos := Utf8.width_pos c
        rw [List.length_append, Utf8.length_encodeChar] at hlength
        omega
      have hnext := ih tail.length hshort (h.append_encodeChar hc) rfl
      rw [List.length_append, Utf8.length_encodeChar, List.append_assoc] at hnext
      rw [runsFrom_encodeChar_append hread hc]
      exact hnext
    · have hnone : StartsNone member rest := fun c hc hprefix => hsome ⟨c, hc, hprefix⟩
      cases rest with
      | nil =>
        constructor
        · intro run
          rw [runsFrom, List.mem_reverse, h.mem_close hnone]
          constructor
          · exact And.left
          · rintro ⟨stop, text, hrun, hkept⟩
            have hle := hrun.start_le_stop
            have hstop := hrun.stop_le_length
            rw [List.append_nil] at hstop
            exact ⟨⟨stop, text, hrun, hkept⟩, by omega⟩
        · rw [runsFrom, List.pairwise_reverse]
          exact h.descending_close
      | cons byte rest =>
        have hnext := ih rest.length (by simp at hlength; omega) (h.append_byte hnone) rfl
        rw [List.length_append, List.append_assoc] at hnext
        rw [runsFrom_byte hread hnone]
        exact hnext

/-- The loop finds the maximal runs that are worth keeping, each once and by ascending offset. -/
theorem areRuns_runs (hread : Reads read member) (data : Bytes) :
    AreRuns member keep data (runs read keep data) :=
  areRuns_runsFrom hread (Reached.start data)

/-- Runs in ascending order of offsets are determined by what they are. -/
theorem eq_of_ascending {runs others : List Run}
    (hruns : runs.Pairwise fun earlier later => earlier.offset < later.offset)
    (hothers : others.Pairwise fun earlier later => earlier.offset < later.offset)
    (h : ∀ run, run ∈ runs ↔ run ∈ others) : runs = others := by
  have hirrefl : Std.Irrefl fun earlier later : Run => earlier.offset < later.offset :=
    ⟨fun run => Nat.lt_irrefl run.offset⟩
  have hantisymm : Std.Antisymm fun earlier later : Run => earlier.offset < later.offset :=
    ⟨fun _ _ hab hba => absurd hab (Nat.lt_asymm hba)⟩
  exact hruns.eq_of_mem_iff hothers fun {run} => h run

end BinaryStrings.Scan
