import BinaryStrings.Proofs.Text.Utf8
import BinaryStrings.Scan

/-!
# Maximal runs

A run is stated here without the loop that finds it: an interval of the buffer that spells a text in
some set of characters and that cannot be extended on either side.

Main results:

- Theorem `isMaximalRun_iff_append`: an interval is a run exactly when the buffer falls apart into
  what is before it, the written text, and what is behind it.
- Theorem `IsMaximalRun.unique`: a run is determined by its start.
- Theorem `Synchronized.append_encodeChar`: reading a character keeps the reader in step with every
  character of the buffer, and so does `Synchronized.append_byte` for a byte that starts none.
-/

namespace BinaryStrings.Scan

/-- The bytes from `start` to `stop` spell `text` in characters of the set `member`, and no such
character stands at `stop` or ends at `start`. -/
structure IsMaximalRun (member : Char → Bool) (data : Bytes) (start stop : Nat)
    (text : List Char) : Prop where
  start_le_stop : start ≤ stop
  stop_le_length : stop ≤ data.length
  spelled : data.slice start (stop - start) = Utf8.encode text
  text_ne_nil : text ≠ []
  members : ∀ c ∈ text, member c = true
  closed_right : ∀ c, member c = true → ¬ Utf8.encodeChar c <+: data.drop stop
  closed_left : ∀ c, member c = true → ¬ Utf8.encodeChar c <:+ data.take start

/-- No character of the set begins in the buffer. -/
def StartsNone (member : Char → Bool) (data : Bytes) : Prop :=
  ∀ c, member c = true → ¬ Utf8.encodeChar c <+: data

/-- No character of the set ends the buffer. -/
def EndsNone (member : Char → Bool) (data : Bytes) : Prop :=
  ∀ c, member c = true → ¬ Utf8.encodeChar c <:+ data

variable {member : Char → Bool}

theorem endsNone_nil : EndsNone member [] := by
  intro c _ hsuffix
  exact Utf8.encodeChar_ne_nil c (List.suffix_nil.1 hsuffix)

/-- A run seen as a decomposition of the buffer. -/
theorem isMaximalRun_iff_append {data : Bytes} {start stop : Nat} {text : List Char} :
    IsMaximalRun member data start stop text ↔
      ∃ before after, data = before ++ (Utf8.encode text ++ after) ∧ before.length = start ∧
        start + (Utf8.encode text).length = stop ∧ text ≠ [] ∧ (∀ c ∈ text, member c = true) ∧
        StartsNone member after ∧ EndsNone member before := by
  constructor
  · intro h
    have hspelled := h.spelled
    have hle := h.start_le_stop
    have hstop := h.stop_le_length
    unfold Bytes.slice at hspelled
    have hlength : (Utf8.encode text).length = stop - start := by
      rw [← hspelled, List.length_take, List.length_drop]
      omega
    refine ⟨data.take start, data.drop stop, ?_, ?_, ?_, h.text_ne_nil, h.members,
      h.closed_right, h.closed_left⟩
    · have hdrop : data.drop stop = (data.drop start).drop (stop - start) := by
        rw [List.drop_drop, Nat.add_sub_cancel' hle]
      rw [← hspelled, hdrop, List.take_append_drop, List.take_append_drop]
    · rw [List.length_take]
      omega
    · omega
  · rintro ⟨before, after, rfl, rfl, rfl, hne, hmembers, hright, hleft⟩
    have hdrop : (before ++ (Utf8.encode text ++ after)).drop before.length =
        Utf8.encode text ++ after := by simp
    refine ⟨by omega, by simp, ?_, hne, hmembers, ?_, ?_⟩
    · unfold Bytes.slice
      rw [hdrop, Nat.add_sub_cancel_left]
      simp
    · intro c hc
      rw [← List.drop_drop, hdrop]
      simpa using hright c hc
    · intro c hc
      simpa using hleft c hc

/-- Of two texts that stand at one place, one that is as long as it can be begins with the other. -/
theorem prefix_of_encode_append_eq {text text' : List Char} {after after' : Bytes}
    (hmembers : ∀ c ∈ text, member c = true) (hafter' : StartsNone member after')
    (heq : Utf8.encode text ++ after = Utf8.encode text' ++ after') : text <+: text' := by
  induction text generalizing text' with
  | nil => exact List.nil_prefix
  | cons c text ih =>
    cases text' with
    | nil =>
      refine absurd ?_ (hafter' c (hmembers c (by simp)))
      simp only [Utf8.encode_nil, Utf8.encode_cons, List.nil_append, List.append_assoc] at heq
      exact ⟨_, heq⟩
    | cons d text' =>
      simp only [Utf8.encode_cons, List.append_assoc] at heq
      have hcd : c = d := Utf8.encodeChar_prefix_inj ⟨_, rfl⟩ ⟨_, heq.symm⟩
      subst d
      have htail := ih (fun x hx => hmembers x (by simp [hx])) (List.append_cancel_left heq)
      exact (List.prefix_cons_inj c).2 htail

/-- Two texts that stand at one place, each as long as it can be, are the same. -/
theorem eq_of_encode_append_eq {text text' : List Char} {after after' : Bytes}
    (hmembers : ∀ c ∈ text, member c = true) (hmembers' : ∀ c ∈ text', member c = true)
    (hafter : StartsNone member after) (hafter' : StartsNone member after')
    (heq : Utf8.encode text ++ after = Utf8.encode text' ++ after') : text = text' := by
  have hle := prefix_of_encode_append_eq hmembers hafter' heq
  have hge := prefix_of_encode_append_eq hmembers' hafter heq.symm
  exact hle.eq_of_length_le hge.length_le

/-- A run is determined by its start. -/
theorem IsMaximalRun.unique {data : Bytes} {start stop stop' : Nat} {text text' : List Char}
    (h : IsMaximalRun member data start stop text)
    (h' : IsMaximalRun member data start stop' text') : text = text' := by
  obtain ⟨before, after, heq, hstart, _, _, hmembers, hafter, _⟩ := isMaximalRun_iff_append.1 h
  obtain ⟨before', after', heq', hstart', _, _, hmembers', hafter', _⟩ :=
    isMaximalRun_iff_append.1 h'
  have happend := List.append_inj (heq.symm.trans heq') (hstart.trans hstart'.symm)
  exact eq_of_encode_append_eq hmembers hmembers' hafter hafter' happend.2

/-- A character of the set stands at the start of a run. -/
theorem exists_prefix_of_text {text : List Char} (after : Bytes) (hne : text ≠ [])
    (hmembers : ∀ c ∈ text, member c = true) :
    ∃ c, member c = true ∧ Utf8.encodeChar c <+: Utf8.encode text ++ after := by
  cases text with
  | nil => exact absurd rfl hne
  | cons c text => exact ⟨c, hmembers c (by simp), ⟨Utf8.encode text ++ after, by simp⟩⟩

/-! ## Staying in step -/

/-- No character of the set reaches over the place between two parts of a buffer. -/
def Synchronized (member : Char → Bool) (done rest : Bytes) : Prop :=
  ∀ c, member c = true → ∀ front back, Utf8.encodeChar c = front ++ back → front ≠ [] →
    back ≠ [] → front <:+ done → ¬ back <+: rest

theorem synchronized_nil (rest : Bytes) : Synchronized member [] rest := by
  intro c _ front back _ hfront _ hsuffix
  exact absurd (List.suffix_nil.1 hsuffix) hfront

/-- Reading a character keeps the reader in step. -/
theorem Synchronized.append_encodeChar {done rest : Bytes} {c : Char}
    (h : Synchronized member done (Utf8.encodeChar c ++ rest)) :
    Synchronized member (done ++ Utf8.encodeChar c) rest := by
  intro d hd front back hsplit hfront hback hsuffix hprefix
  obtain ⟨tail, rfl⟩ := hprefix
  rcases List.suffix_or_suffix_of_suffix hsuffix (List.suffix_append done _) with hin | hover
  · obtain ⟨head, hhead⟩ := hin
    by_cases hempty : head = []
    · rw [hempty, List.nil_append] at hhead
      exact hback (Utf8.eq_nil_of_encodeChar_eq_append (hhead ▸ hsplit))
    · exact Utf8.not_prefix_inside d (back ++ tail) hhead.symm hempty hfront
        ⟨tail, by rw [hsplit, List.append_assoc]⟩
  · obtain ⟨head, rfl⟩ := hover
    rw [List.suffix_append_self_iff] at hsuffix
    by_cases hempty : head = []
    · rw [hempty, List.nil_append] at hsplit
      exact hback (Utf8.eq_nil_of_encodeChar_eq_append hsplit)
    · rw [List.append_assoc] at hsplit
      exact h d hd head (Utf8.encodeChar c ++ back) hsplit hempty (by simp [hback]) hsuffix
        ⟨tail, by rw [List.append_assoc]⟩

/-- A byte that starts no character is the last one of no character either. -/
theorem Synchronized.endsNone_append_byte {done rest : Bytes} {byte : UInt8}
    (h : Synchronized member done (byte :: rest)) (hnone : StartsNone member (byte :: rest)) :
    EndsNone member (done ++ [byte]) := by
  intro d hd hsuffix
  rcases List.suffix_concat_iff.1 hsuffix with hnil | ⟨head, hsplit, hhead⟩
  · exact Utf8.encodeChar_ne_nil d hnil
  · by_cases hempty : head = []
    · exact hnone d hd ⟨rest, by rw [hsplit, hempty]; rfl⟩
    · exact h d hd head [byte] hsplit hempty (by simp) hhead ⟨rest, rfl⟩

/-- Passing over a byte that starts no character keeps the reader in step. -/
theorem Synchronized.append_byte {done rest : Bytes} {byte : UInt8}
    (h : Synchronized member done (byte :: rest)) (hnone : StartsNone member (byte :: rest)) :
    Synchronized member (done ++ [byte]) rest := by
  intro d hd front back hsplit hfront hback hsuffix hprefix
  obtain ⟨tail, rfl⟩ := hprefix
  rcases List.suffix_concat_iff.1 hsuffix with hnil | ⟨head, rfl, hhead⟩
  · exact hfront hnil
  · rw [List.append_assoc] at hsplit
    by_cases hempty : head = []
    · exact hnone d hd ⟨tail, by rw [hsplit, hempty]; simp⟩
    · exact h d hd head ([byte] ++ back) hsplit hempty (by simp) hhead ⟨tail, by simp⟩

end BinaryStrings.Scan
