import BinaryStrings.Proofs.Json.Nesting
import BinaryStrings.Proofs.Json.Text
import BinaryStrings.Server.SizeGuard
import Mathlib.Algebra.Group.Nat.Defs

/-!
# Responses fit

What is sent for a value has JSON text of at most `limit` bytes, unless the guard gives up.  It does so for
a value that is too large and nested too deep to be copied; then an excuse is sent, which has the advice
of the tool in it, however long that is.

A value that the rounds have brought below the limit is sent as it is.  Every other one becomes a
preview, whose text is at most twice as large as the part of the JSON text that it shows.  The
preview also names the size of what it stands for, so that size has to be bounded: a round may add
bytes, but it makes a value at most `growth` times as large.

Main results:

- Theorem `size_shrinkRounds_le`: how large a value can be after some rounds.
- Theorem `size_preview_le`: a preview fits.
- Theorem `length_guarded_le`: a response fits unless the guard gives up, and even then with short
  advice.
- Theorem `limit_lt_length_guarded`: a response that does not fit.
-/

namespace BinaryStrings.Server.SizeGuard

open Json Utf8

/-! ## Numbers -/

/-- A number below `10 ^ digits` has at most so many digits. -/
theorem byteCount_nat_le {n digits : Nat} (hdigits : 0 < digits) (hn : n < 10 ^ digits) :
    byteCount (toString n).toList ≤ digits := by
  rw [byteCount_eq_length fun c hc => by have := bounds_of_mem_nat hc; omega]
  exact (Nat.length_repr_le_iff hdigits).2 hn

/-- A number has at most as many digits as one more than it says. -/
theorem byteCount_nat_le_succ (n : Nat) : byteCount (toString n).toList ≤ n + 1 :=
  byteCount_nat_le n.succ_pos (Nat.lt_trans n.lt_succ_self (Nat.lt_pow_self (by decide)))

/-! ## A round -/

/-- A round makes a value at most this many times as large. -/
def growth : Nat := 27

/-- The largest list is the value of a member. -/
theorem mem_of_largestFrom {best : Option (String × List Json)} {members : Members}
    {name : String} {items : List Json}
    (hfound : largestFrom best members = some (name, items)) :
    best = some (name, items) ∨ (name, .arr items) ∈ members := by
  fun_induction largestFrom best members with
  | case1 best => exact .inl hfound
  | case2 best known item others rest better ih =>
    rcases ih hfound with hbest | hmem
    · split at hbest
      · cases hbest
        exact .inr (by simp)
      · exact .inl hbest
    · exact .inr (by simp [hmem])
  | case3 best member rest _ ih =>
    exact (ih hfound).imp_right fun hmem => by simp [hmem]

/-- The text of the advice in a remark. -/
def shownAdvice (advice : Option String) : List Char :=
  ((given advice).getD usualAdvice).toList

theorem byteCount_remark (name : String) (before after : Nat) (advice : Option String) :
    byteCount (remark name before after advice).toList =
      byteCount name.toList + byteCount (toString before).toList +
        byteCount (toString after).toList + byteCount (shownAdvice advice) + 81 := by
  unfold remark shownAdvice
  have hlimit : byteCount (toString (limit / 1024)).toList = 2 := by decide
  simp only [String.toList_append, byteCount_append, hlimit]
  simp only [toString, String.reduceToList, byteCount_cons, byteCount_nil, width_of_lt,
    Char.reduceToNat, Nat.reduceLT]
  omega

/-- Cutting the largest list of an object and adding the remark. -/
theorem size_shrink_obj_le {advice : Option String} {members : Members} {name : String}
    {items : List Json} {kept bound : Nat} (hmember : (name, .arr items) ∈ members)
    (hkept : kept < items.length) (hmembers : membersSize members ≤ bound)
    (hadvice : byteCount (shownAdvice advice) ≤ bound) (hbound : 1000 ≤ bound) :
    membersSize (Members.set (Members.set members name (.arr (items.take kept))) remarkName
      (.str (remark name items.length kept advice))) ≤ growth * bound := by
  have hold := memberSize_le_of_mem hmember
  have htake := itemsSize_take_le kept items
  have hlength := length_le_itemsSize items
  have hname := byteCount_le_stringChars name
  have hbefore := byteCount_nat_le_succ items.length
  have hafter := byteCount_nat_le_succ kept
  have hcut := membersSize_set_le members name (.arr (items.take kept))
  have hset := membersSize_set_le (Members.set members name (.arr (items.take kept))) remarkName
    (.str (remark name items.length kept advice))
  have hremark := byteCount_stringChars_le (remark name items.length kept advice)
  have hremarkName : byteCount (stringChars false remarkName) = 21 := by decide
  rw [byteCount_remark] at hremark
  simp only [memberSize, size_arr, size_str, hremarkName] at hold hcut hset
  unfold growth
  omega

/-- What one round adds is bounded by what there is and by the advice. -/
theorem size_shrink_le {advice : Option String} {size bound : Nat} {value smaller : Json}
    (hshrink : shrink advice size value = some smaller) (hvalue : value.size ≤ bound)
    (hadvice : byteCount (shownAdvice advice) ≤ bound) (hbound : 1000 ≤ bound) :
    smaller.size ≤ growth * bound := by
  unfold growth
  cases value with
  | arr items =>
    cases hshrink
    have htake := itemsSize_take_le (keptCount size items.length) items
    rw [size_arr] at hvalue ⊢
    omega
  | obj members =>
    simp only [shrink] at hshrink
    split at hshrink
    · cases hshrink
    · rename_i name items hlargest
      split at hshrink
      · cases hshrink
      · rename_i hkept
        cases hshrink
        have hmember : (name, Json.arr items) ∈ members := by
          rcases mem_of_largestFrom hlargest with hnone | hmem
          · cases hnone
          · exact hmem
        rw [size_obj] at hvalue ⊢
        have hmembers := size_shrink_obj_le hmember (Nat.lt_of_not_le hkept)
          (Nat.le_trans (Nat.le_max_right _ _) hvalue) hadvice hbound
        unfold growth at hmembers
        omega
  | _ => cases hshrink

/-- How large a value can be after some rounds. -/
theorem size_shrinkRounds_le {advice : Option String} {bound : Nat} {value : Json} (rounds : Nat)
    (hvalue : value.size ≤ bound) (hadvice : byteCount (shownAdvice advice) ≤ bound)
    (hbound : 1000 ≤ bound) :
    (shrinkRounds advice rounds value).size ≤ growth ^ rounds * bound := by
  induction rounds generalizing value bound with
  | zero =>
    rw [shrinkRounds, Nat.pow_zero, Nat.one_mul]
    exact hvalue
  | succ rounds ih =>
    have hgrows : bound ≤ growth ^ (rounds + 1) * bound :=
      Nat.le_mul_of_pos_left bound (Nat.pow_pos (by decide))
    simp only [shrinkRounds]
    split
    · exact Nat.le_trans hvalue hgrows
    · split
      · exact Nat.le_trans hvalue hgrows
      · rename_i smaller hshrink
        have hsmaller := size_shrink_le hshrink hvalue hadvice hbound
        have hlarger : bound ≤ growth * bound := Nat.le_mul_of_pos_left bound (by decide)
        rw [Nat.pow_succ, Nat.mul_assoc]
        exact ih hsmaller (Nat.le_trans hadvice hlarger) (Nat.le_trans hbound hlarger)

/-! ## The preview -/

theorem byteCount_previewText_le (value : Json) :
    byteCount (previewText value) ≤ target / 2 :=
  byteCount_takeBytes_le _ _

/-- The part of the text that a preview shows needs no escapes but those of quotes and
backslashes. -/
theorem byteCount_stringChars_previewText_le (value : Json) :
    byteCount (stringChars false (String.ofList (previewText value))) ≤ target + 2 := by
  have hprefix : previewText value <+: chars .plain value := takeBytes_prefix _ _
  have hprintable : IsPrintable (String.ofList (previewText value)).toList := by
    rw [String.toList_ofList]
    exact (isPrintable_chars value).subset hprefix.subset
  have hstring := byteCount_stringChars_le_of_isPrintable hprintable
  have hpart := byteCount_previewText_le value
  have htarget : 2 * (target / 2) = target := by decide
  rw [String.toList_ofList] at hstring
  omega

/-- The remark of a preview is short when the numbers in it are. -/
theorem byteCount_previewRemark_le {before after : Nat} (hbefore : before < 10 ^ 100)
    (hafter : after < 10 ^ 100) :
    byteCount (stringChars false
      ("Response could not be structurally reduced. Converted to truncated string preview " ++
        s!"({before} bytes -> {after} bytes).")) ≤ 1808 := by
  have hbeforeDigits := byteCount_nat_le (by decide) hbefore
  have hafterDigits := byteCount_nat_le (by decide) hafter
  refine Nat.le_trans (byteCount_stringChars_le _) ?_
  simp only [String.toList_append, byteCount_append, toString, String.reduceToList, byteCount_cons,
    byteCount_nil, width_of_lt, Char.reduceToNat, Nat.reduceLT] at hbeforeDigits hafterDigits ⊢
  omega

/-- A preview fits, unless the size of what it stands for has more than a hundred digits. -/
theorem size_preview_le {value : Json} (hvalue : value.size < 10 ^ 100) :
    (preview value).size ≤ limit := by
  have hshown := byteCount_stringChars_previewText_le value
  have hlength : (previewText value).length < 10 ^ 100 := by
    refine Nat.lt_of_le_of_lt (length_le_byteCount _) ?_
    exact Nat.lt_of_le_of_lt (byteCount_previewText_le value) (by decide)
  have hremark := byteCount_previewRemark_le hvalue hlength
  have hnames : byteCount (stringChars false "data_preview") = 14 ∧
      byteCount (stringChars false remarkName) = 21 := by
    decide
  have hlimits : limit = target + 4096 := by decide
  unfold preview
  simp only [size_obj, membersSize_cons, memberSize, size_str, hnames]
  have hnil : membersSize [] = 0 := rfl
  omega

/-! ## Responses -/

theorem size_fitted_le {advice : Option String} {value : Json} (hvalue : value.size < 2 ^ 63)
    (hadvice : byteCount (shownAdvice advice) < 2 ^ 65) :
    (fitted advice value).size ≤ limit := by
  have hrounds := size_shrinkRounds_le rounds (Nat.le_of_lt (Nat.lt_trans hvalue (by decide)))
    (Nat.le_of_lt hadvice) (by decide)
  have hdigits : growth ^ rounds * 2 ^ 65 < 10 ^ 100 := by decide
  simp only [fitted]
  split
  · exact size_preview_le (Nat.lt_of_le_of_lt hrounds hdigits)
  · rename_i hfits
    exact Nat.le_of_not_lt hfits

/-- The advice in a remark is the one that is given, or the usual one. -/
theorem byteCount_shownAdvice_lt {advice : Option String}
    (hadvice : ∀ text, advice = some text → text.length < 2 ^ 63) :
    byteCount (shownAdvice advice) < 2 ^ 65 := by
  unfold shownAdvice
  cases hgiven : given advice with
  | none => decide
  | some text =>
    have hlength := hadvice text (Option.eq_some_of_filter_eq_some hgiven)
    have hbytes := byteCount_le_length text.toList
    rw [String.length_toList] at hbytes
    rw [Option.getD_some]
    omega

theorem size_respond_le {tool : String} {advice : Option String} {value : Json}
    (hvalue : value.size < 2 ^ 63) (hadvice : byteCount (shownAdvice advice) < 2 ^ 65) :
    (respond tool advice value).value.size ≤ limit := by
  simp only [respond]
  split
  · assumption
  · exact size_fitted_le hvalue hadvice

/-! ## Values that are nested too deep -/

/-- The guard gives up on a value: it has no text, or it is too large and cannot be copied. -/
def GivesUp (value : Json) : Prop :=
  deepestWritten < value.depth ∨ limit < value.size ∧ deepestCopied < value.depth

theorem guarded_of_not_givesUp {value : Json} (h : ¬ GivesUp value) (tool : String)
    (advice : Option String) : guarded tool advice (.value value) = respond tool advice value := by
  obtain ⟨hwritten, hcopied⟩ := not_or.1 h
  have hlarge : ¬ (decide (limit < value.size) && decide (deepestCopied < value.depth)) = true := by
    simpa using hcopied
  rw [guarded, if_neg hwritten, if_neg hlarge]

/-- The guard does not give up on a value that can be copied. -/
theorem not_givesUp_of_depth_le {value : Json} (h : value.depth ≤ deepestCopied) :
    ¬ GivesUp value := by
  have hle : deepestCopied ≤ deepestWritten := by decide
  rintro (hwritten | ⟨-, hcopied⟩) <;> omega

theorem exists_excuse_of_givesUp {value : Json} (h : GivesUp value) (tool : String)
    (advice : Option String) : ∃ size, (size = 0 ∨ size = value.size) ∧
      (guarded tool advice (.value value)).value = excuse advice size := by
  by_cases hwritten : deepestWritten < value.depth
  · exact ⟨0, .inl rfl, by rw [guarded, if_pos hwritten, trouble]⟩
  · have hcopied : (decide (limit < value.size) && decide (deepestCopied < value.depth)) = true := by
      simpa using h.resolve_left hwritten
    exact ⟨value.size, .inr rfl, by rw [guarded, if_neg hwritten, if_pos hcopied, trouble]⟩

/-- Advice that says something is the suggestion. -/
theorem suggestion_some {text : String} (htext : text ≠ "") : suggestion (some text) = text := by
  have hgiven : given (some text) = some text := by simp [given, htext]
  rw [suggestion, hgiven, Option.getD_some]

/-- An excuse has the suggestion in it. -/
theorem byteCount_suggestion_lt_size_excuse (advice : Option String) (size : Nat) :
    byteCount (stringChars false (suggestion advice)) < (excuse advice size).size := by
  simp only [excuse, size_obj, membersSize_cons, memberSize, size_str]
  omega

/-- An excuse has little more in it than the suggestion. -/
theorem size_excuse_le (advice : Option String) {size : Nat} (hsize : size < 10 ^ 100) :
    (excuse advice size).size ≤ byteCount (stringChars false (suggestion advice)) + 2000 := by
  have hdigits := byteCount_nat_le (by decide) hsize
  have hlimit : byteCount (toString limit).toList = 5 := by decide
  have hmessage := byteCount_stringChars_le
    s!"The data generated was {size} bytes (Limit: {limit}). Auto-truncation failed."
  simp only [toString, String.toList_append, String.reduceToList, byteCount_append, byteCount_cons,
    byteCount_nil, width_of_lt, Char.reduceToNat, Nat.reduceLT] at hdigits hlimit hmessage
  have hnames : byteCount (stringChars false "error") = 7 ∧
      byteCount (stringChars false "Response too large") = 20 ∧
      byteCount (stringChars false "message") = 9 ∧
      byteCount (stringChars false "suggestion") = 12 := by
    decide
  have hnil : membersSize [] = 0 := rfl
  simp only [excuse, size_obj, membersSize_cons, memberSize, size_str, hnames, hnil, toString]
  omega

/-- What is sent for a value fits, unless the guard gives up on the value; then an excuse is sent, which
fits if the suggestion in it is not long.  The bound on the advice is the one that every text obeys; the
two bounds keep short the sizes that the remarks name in digits. -/
theorem length_guarded_le (tool : String) (advice : Option String) (value : Json)
    (hvalue : (encode (chars .plain value)).length < 2 ^ 63)
    (hadvice : ∀ text, advice = some text → text.length < 2 ^ 63) :
    let sent := (guarded tool advice (.value value)).value
    (¬ GivesUp value → (encode (chars .plain sent)).length ≤ limit) ∧
      (GivesUp value → ∃ size, sent = excuse advice size) ∧
        ((encode (chars .plain (.str (suggestion advice)))).length ≤ 60000 →
          (encode (chars .plain sent)).length ≤ limit) := by
  intro sent
  simp only [length_encode] at hvalue ⊢
  have hsent : ¬ GivesUp value → sent.size ≤ limit := by
    intro hfits
    rw [show sent = _ from congrArg Response.value (guarded_of_not_givesUp hfits tool advice)]
    exact size_respond_le hvalue (byteCount_shownAdvice_lt hadvice)
  refine ⟨hsent, fun hgives => ?_, fun hshort => ?_⟩
  · obtain ⟨size, -, hexcuse⟩ := exists_excuse_of_givesUp hgives tool advice
    exact ⟨size, hexcuse⟩
  · by_cases hgives : GivesUp value
    · obtain ⟨size, hsize, hexcuse⟩ := exists_excuse_of_givesUp hgives tool advice
      have hdigits : size < 10 ^ 100 := by
        have hbound : 2 ^ 63 < 10 ^ 100 := by decide
        have hknown : value.size < 2 ^ 63 := hvalue
        omega
      have hexcuseSize := size_excuse_le advice hdigits
      have hsuggestion : byteCount (stringChars false (suggestion advice)) ≤ 60000 := hshort
      have hlimit : limit = 65536 := rfl
      rw [show sent = _ from hexcuse]
      change (excuse advice size).size ≤ limit
      omega
    · exact hsent hgives

/-- A text too large for one response, all of it quotes, which a preview escapes twice. -/
theorem length_guarded_quotes_le :
    let value := Json.str (String.ofList (List.replicate 70000 '"'))
    let advice := some "offset or limit"
    (encode (chars .plain value)).length < 2 ^ 63 ∧
      (∀ text, advice = some text → text.length < 2 ^ 63) ∧ ¬ GivesUp value ∧
        (encode (chars .plain (guarded "search" advice (.value value)).value)).length ≤ limit := by
  intro value advice
  have hvalue : (encode (chars .plain value)).length < 2 ^ 63 := by
    have hstring := byteCount_stringChars_le (String.ofList (List.replicate 70000 '"'))
    have hwidth : width '"' = 1 := by decide
    rw [String.toList_ofList, byteCount_replicate, hwidth] at hstring
    rw [length_encode]
    exact Nat.lt_of_le_of_lt hstring (by decide)
  have hadvice : ∀ text, advice = some text → text.length < 2 ^ 63 := by
    intro text htext
    rw [← Option.some.inj htext]
    decide
  have hflat : ¬ GivesUp value := not_givesUp_of_depth_le (Nat.zero_le _)
  exact ⟨hvalue, hadvice, hflat, (length_guarded_le "search" advice value hvalue hadvice).1 hflat⟩

/-- Letters are written as they are. -/
theorem byteCount_stringChars_letters (n : Nat) :
    byteCount (stringChars false (String.ofList (List.replicate n 'x'))) = n + 2 := by
  have hletter : stringChar false 'x' = ['x'] := by decide
  have hwidth : width 'x' = 1 := by decide
  rw [byteCount_stringChars, String.toList_ofList, List.flatMap_replicate, hletter,
    List.flatten_replicate_singleton, byteCount_replicate, hwidth, Nat.mul_one]

/-- Around a value each list takes two brackets. -/
theorem size_within (n : Nat) {value : Json} (hvalue : 2 ≤ value.size) :
    (within n value).size = value.size + 2 * n := by
  induction n with
  | zero => rfl
  | succ n ih =>
    have hnil : itemsSize [] = 0 := rfl
    rw [within, size_arr, itemsSize_cons, ih, hnil]
    omega

/-- A text of seventy thousand letters within lists that are too deep for a copy, and advice as long: the
excuse does not fit. -/
theorem limit_lt_length_guarded :
    let text := String.ofList (List.replicate 70000 'x')
    let value := within 495 (.str text)
    value.depth ≤ deepestWritten ∧ (encode (chars .plain value)).length < 2 ^ 63 ∧
      text.length < 2 ^ 63 ∧
        limit < (encode (chars .plain (guarded "test_tool" (some text) (.value value)).value)).length := by
  intro text value
  have htext : (Json.str text).size = 70002 := byteCount_stringChars_letters 70000
  have hlength : text.length = 70000 := by
    rw [← String.length_toList, String.toList_ofList, List.length_replicate]
  have hdepth : value.depth = 495 := depth_within 495 _
  have hsize : value.size = 70992 := by
    rw [size_within 495 (by omega), htext]
  have hlimit : limit = 65536 := rfl
  have hgives : GivesUp value :=
    .inr ⟨by omega, by rw [hdepth]; decide⟩
  obtain ⟨size, -, hexcuse⟩ := exists_excuse_of_givesUp hgives "test_tool" (some text)
  have hne : text ≠ "" := by
    intro hempty
    rw [hempty] at hlength
    cases hlength
  have hlong := byteCount_suggestion_lt_size_excuse (some text) size
  rw [suggestion_some hne] at hlong
  have hbytes : byteCount (stringChars false text) = 70002 := htext
  simp only [length_encode]
  refine ⟨by rw [hdepth]; decide, ?_, by omega, ?_⟩
  · change value.size < 2 ^ 63
    omega
  · rw [hexcuse]
    change limit < (excuse (some text) size).size
    omega

end BinaryStrings.Server.SizeGuard
