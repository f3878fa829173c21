import BinaryStrings.Proofs.Json.Members
import BinaryStrings.Proofs.Json.Strings

/-!
# Reading written values

A written value is read back, whatever the style: on one line or with one item a line, in full Unicode
or in ASCII.  This holds of the values that the reader can yield at all: numbers have no fraction and
not too many digits, the members of an object have distinct names, and lists and objects are not nested
beyond the limit of the reader.

The proofs follow the reader.  `IsReadBack` says of one value that it is read back in front of anything
that cannot continue it; a list or an object is read back if what is in it is.

Main results:

- Theorem `readNumber_int`: whole numbers.
- Theorem `IsReadable.isReadBack`: values of every kind.
- Theorem `read_valueChars`: whole texts, with blanks behind the value.
-/

namespace BinaryStrings.Json

/-- Values with at most so many levels of nesting that the reader can yield, apart from binary64
numbers. -/
inductive IsReadable : (levels : Nat) → Json → Prop
  | null {levels : Nat} : IsReadable levels .null
  | bool {levels : Nat} (value : Bool) : IsReadable levels (.bool value)
  | int {levels : Nat} {value : Int} (digits : Numeral.isShowable value) :
    IsReadable levels (.int value)
  | str {levels : Nat} (text : String) : IsReadable levels (.str text)
  | arr {levels : Nat} {items : List Json} (readable : ∀ item ∈ items, IsReadable levels item) :
    IsReadable (levels + 1) (.arr items)
  | obj {levels : Nat} {members : Members} (distinct : members.names.Nodup)
    (readable : ∀ member ∈ members, IsReadable levels member.2) :
    IsReadable (levels + 1) (.obj members)

/-- An object can be yielded if no name is given twice and its values can be, one level further down. -/
theorem isReadable_obj_iff {levels : Nat} {members : Members} :
    IsReadable levels (.obj members) ↔
      0 < levels ∧ members.names.Nodup ∧ ∀ member ∈ members, IsReadable (levels - 1) member.2 := by
  constructor
  · intro h
    cases h with
    | obj hnames hvalues => exact ⟨Nat.succ_pos _, hnames, hvalues⟩
  · rintro ⟨hpos, hnames, hvalues⟩
    have h := IsReadable.obj hnames hvalues
    rwa [Nat.sub_add_cancel hpos] at h

/-! ## Numbers -/

/-- Whether a character can continue a number. -/
def continuesNumber (c : Char) : Bool :=
  c.isDigit || c == '.' || c == 'e' || c == 'E'

/-- What is left does not continue a number. -/
def EndsNumber (rest : List Char) : Prop :=
  ∀ c ∈ rest.head?, continuesNumber c = false

/-- A number ends with the text. -/
@[simp] theorem endsNumber_nil : EndsNumber [] := by
  simp [EndsNumber]

/-- It ends before a character that does not go on with it. -/
@[simp] theorem endsNumber_cons {c : Char} {rest : List Char} :
    EndsNumber (c :: rest) ↔ continuesNumber c = false := by
  simp [EndsNumber]

/-- The digits of a number are read as the number. -/
theorem digitsValue_toDigits (n : Nat) : digitsValue (Nat.toDigits 10 n) = n := by
  have hfold : digitsValue (Nat.toDigits 10 n) = Nat.ofDigitChars 10 (Nat.toDigits 10 n) 0 := by
    unfold digitsValue Nat.ofDigitChars
    congr 1
    funext value c
    rw [Nat.mul_comm]
    rfl
  rw [hfold, Nat.ofDigitChars_toDigits (by decide) (by decide)]

/-- A number starts with a zero only if it is zero. -/
theorem head?_toDigits_ne {n : Nat} (hn : 0 < n) : (Nat.toDigits 10 n).head? ≠ some '0' := by
  induction n using Nat.strongRecOn with
  | ind n ih =>
    by_cases hsmall : n < 10
    · rw [Nat.toDigits_of_lt_base hsmall]
      have hdigit : ∀ d < 10, 0 < d → ([d.digitChar] : List Char).head? ≠ some '0' := by decide
      exact hdigit n hsmall hn
    · have hfirst := ih (n / 10) (by omega) (by omega)
      obtain ⟨c, more, hcons⟩ := List.exists_cons_of_ne_nil
        (Nat.toDigits_ne_nil (n := n / 10) (b := 10))
      rw [Nat.toDigits_of_base_le (by decide) (by omega), hcons]
      rwa [hcons] at hfirst

/-- Digits are taken up to where a number ends. -/
theorem takeWhile_digits {digits rest : List Char} (hdigits : ∀ c ∈ digits, c.isDigit = true)
    (hrest : EndsNumber rest) :
    (digits ++ rest).takeWhile Char.isDigit = digits ∧
      (digits ++ rest).dropWhile Char.isDigit = rest := by
  rw [List.takeWhile_append_of_pos hdigits, List.dropWhile_append_of_pos hdigits]
  cases rest with
  | nil => simp
  | cons c rest =>
    have hc : c.isDigit = false := by
      rw [endsNumber_cons, continuesNumber] at hrest
      simp_all
    simp [hc]

/-- The whole part of a written number is all of it. -/
theorem wholePart?_toDigits (n : Nat) {rest : List Char} (hrest : EndsNumber rest) :
    wholePart? (Nat.toDigits 10 n ++ rest) = some (Nat.toDigits 10 n, rest) := by
  have hdigits : ∀ c ∈ Nat.toDigits 10 n, c.isDigit = true := fun c hc =>
    Nat.isDigit_of_mem_toDigits (by decide) (by decide) hc
  by_cases hn : n = 0
  · subst hn
    rfl
  · obtain ⟨htake, hdrop⟩ := takeWhile_digits hdigits hrest
    have hhead := head?_toDigits_ne (Nat.pos_of_ne_zero hn)
    obtain ⟨c, more, hcons⟩ := List.exists_cons_of_ne_nil (Nat.toDigits_ne_nil (n := n) (b := 10))
    rw [hcons] at hdigits hhead htake hdrop ⊢
    have hc : c ≠ '0' := by simpa using hhead
    have hdigit : c.isDigit = true := hdigits c (by simp)
    rw [List.cons_append] at htake hdrop ⊢
    unfold wholePart?
    split
    · rename_i heq
      cases heq
      contradiction
    · rename_i heq
      cases heq
      rw [if_pos hdigit, htake, hdrop]
    · contradiction

/-- Where a number ends there is no fraction. -/
theorem fractionPart_of_endsNumber {rest : List Char} (hrest : EndsNumber rest) :
    fractionPart rest = ([], rest) := by
  unfold fractionPart
  split
  · simp [continuesNumber] at hrest
  · rfl

/-- Nor is there an exponent. -/
theorem exponentPart_of_endsNumber {rest : List Char} (hrest : EndsNumber rest) :
    exponentPart rest = (none, rest) := by
  unfold exponentPart
  split
  · rename_i e rest
    have he : (e == 'e' || e == 'E') = false := by
      rw [endsNumber_cons, continuesNumber] at hrest
      simp_all
    simp [he]
  · rfl

/-- A number that can be shown does not have too many digits to be read. -/
theorem length_toDigits_of_isShowable {value : Int} (hvalue : Numeral.isShowable value = true) :
    (Nat.toDigits 10 value.natAbs).length ≤ Numeral.mostDigits :=
  of_decide_eq_true hvalue

/-- The sign and the digits of a number. -/
theorem toList_toString_int (value : Int) :
    (toString value).toList =
      (if value < 0 then ['-'] else []) ++ Nat.toDigits 10 value.natAbs := by
  cases value with
  | ofNat n =>
    rw [show toString (Int.ofNat n) = n.repr from rfl, Nat.toList_repr]
    simp
  | negSucc n =>
    rw [show toString (Int.negSucc n) = "-" ++ (n + 1).repr from rfl, String.toList_append,
      Nat.toList_repr]
    simp

variable {rest : List Char}

/-- A negative whole number is read back. -/
theorem readNumber_minus {n : Nat} (hn : (Nat.toDigits 10 n).length ≤ Numeral.mostDigits)
    (hrest : EndsNumber rest) :
    readNumber ('-' :: (Nat.toDigits 10 n ++ rest)) = .ok (.int (-(n : Int)), rest) := by
  have hshort : ¬ Numeral.mostDigits < (Nat.toDigits 10 n).length := Nat.not_lt.2 hn
  unfold readNumber
  simp only [wholePart?_toDigits n hrest, fractionPart_of_endsNumber hrest,
    exponentPart_of_endsNumber hrest, digitsValue_toDigits, List.isEmpty_nil, Option.isNone_none,
    Bool.and_self, if_true]
  rw [if_neg hshort]

/-- So is one that is not negative. -/
theorem readNumber_digits {n : Nat} (hn : (Nat.toDigits 10 n).length ≤ Numeral.mostDigits)
    (hrest : EndsNumber rest) :
    readNumber (Nat.toDigits 10 n ++ rest) = .ok (.int n, rest) := by
  have hwhole := wholePart?_toDigits n hrest
  have hvalue := digitsValue_toDigits n
  have hdigits : ∀ c ∈ Nat.toDigits 10 n, c.isDigit = true := fun c hc =>
    Nat.isDigit_of_mem_toDigits (by decide) (by decide) hc
  obtain ⟨c, more, hcons⟩ := List.exists_cons_of_ne_nil (Nat.toDigits_ne_nil (n := n) (b := 10))
  rw [hcons, List.cons_append] at hwhole ⊢
  rw [hcons] at hvalue hdigits hn
  have hc : c ≠ '-' := by
    rintro rfl
    exact absurd (hdigits '-' (by simp)) (by decide)
  have hshort : ¬ Numeral.mostDigits < (c :: more).length := Nat.not_lt.2 hn
  unfold readNumber
  simp only [List.cons.injEq, hc, false_and, imp_false, not_false_eq_true, implies_true, hwhole,
    fractionPart_of_endsNumber hrest, exponentPart_of_endsNumber hrest, hvalue, List.isEmpty_nil,
    Option.isNone_none, Bool.and_self, if_true, Bool.false_eq_true, if_false]
  rw [if_neg hshort]

/-- A whole number is read back in front of anything that cannot continue it. -/
theorem readNumber_int {value : Int} (hvalue : Numeral.isShowable value = true)
    (hrest : EndsNumber rest) :
    readNumber ((toString value).toList ++ rest) = .ok (.int value, rest) := by
  have hlength := length_toDigits_of_isShowable hvalue
  clear hvalue
  rw [toList_toString_int]
  by_cases hnegative : value < 0
  · have habs : -(value.natAbs : Int) = value := by omega
    rw [if_pos hnegative, List.append_assoc, List.singleton_append, readNumber_minus hlength hrest,
      habs]
  · have habs : (value.natAbs : Int) = value := by omega
    rw [if_neg hnegative, List.nil_append, readNumber_digits hlength hrest, habs]

/-! ## Blanks -/

/-- Nothing but blanks. -/
def IsBlank (text : List Char) : Prop :=
  ∀ c ∈ text, isSpace c = true

/-- Blanks are skipped. -/
theorem skipSpace_append {blanks : List Char} (hblanks : IsBlank blanks) (text : List Char) :
    skipSpace (blanks ++ text) = skipSpace text :=
  List.dropWhile_append_of_pos hblanks

/-- Nothing else is. -/
theorem skipSpace_cons {c : Char} (hc : isSpace c = false) (text : List Char) :
    skipSpace (c :: text) = c :: text := by
  simp [skipSpace, hc]

/-- Behind the last blanks nothing is left. -/
theorem skipSpace_of_isBlank {blanks : List Char} (hblanks : IsBlank blanks) :
    skipSpace blanks = [] := by
  rw [← List.append_nil blanks, skipSpace_append hblanks]
  rfl

/-- A line break with its indentation is blank. -/
theorem isBlank_lineBreak (style : Style) (depth : Nat) : IsBlank (lineBreak style depth) := by
  unfold lineBreak
  cases style.indent with
  | none => simp [IsBlank]
  | some step =>
    intro c hc
    rcases List.mem_cons.1 hc with rfl | hspace
    · rfl
    · rw [(List.mem_replicate.1 hspace).2]
      rfl

/-- It is skipped up to what is behind it. -/
theorem skipSpace_lineBreak (style : Style) (depth : Nat) {c : Char} (hc : isSpace c = false)
    (rest : List Char) : skipSpace (lineBreak style depth ++ c :: rest) = c :: rest := by
  rw [skipSpace_append (isBlank_lineBreak style depth), skipSpace_cons hc]

/-- A separator is a comma with blanks behind it. -/
theorem exists_separator (style : Style) (depth : Nat) :
    ∃ blanks, IsBlank blanks ∧ separator style depth = ',' :: blanks := by
  unfold separator
  cases hindent : style.indent with
  | none => exact ⟨[' '], by simp [IsBlank, isSpace], rfl⟩
  | some step => exact ⟨_, isBlank_lineBreak style depth, rfl⟩

/-- A number ends before a line break, or before what is behind a missing one. -/
theorem endsNumber_lineBreak (style : Style) (depth : Nat) {c : Char} (hc : continuesNumber c = false)
    (rest : List Char) : EndsNumber (lineBreak style depth ++ c :: rest) := by
  unfold lineBreak
  cases style.indent with
  | none => simp [hc]
  | some step => simp [continuesNumber]

/-! ## Values -/

/-- Whether a character can be the first one of a value. -/
def startsValue (c : Char) : Bool :=
  !isSpace c && c != ']' && c != Char.ofNat 0xFEFF

/-- A value is read back in front of anything that cannot continue it. -/
structure IsReadBack (style : Style) (depth : Nat) (value : Json) : Prop where
  starts : ∃ c more, valueChars style depth value = c :: more ∧ startsValue c = true
  back : ∀ fuel rest, (valueChars style depth value).length ≤ fuel + 1 → EndsNumber rest →
    readValue (fuel + 1) depth (valueChars style depth value ++ rest) = .ok (value, rest)

variable {style : Style} {depth fuel : Nat} {value : Json}

/-- A value that is read back is so with enough fuel, if no number goes on behind it. -/
theorem IsReadBack.readValue_eq (h : IsReadBack style depth value) (fuel : Nat)
    (hfuel : (valueChars style depth value).length ≤ fuel) (hrest : EndsNumber rest) :
    readValue fuel depth (valueChars style depth value ++ rest) = .ok (value, rest) := by
  obtain ⟨c, more, hcons, -⟩ := h.starts
  cases fuel with
  | zero =>
    rw [hcons] at hfuel
    cases hfuel
  | succ fuel => exact h.back fuel rest hfuel hrest

/-- It does not start with a blank. -/
theorem IsReadBack.skipSpace_eq (h : IsReadBack style depth value) {blanks : List Char}
    (hblanks : IsBlank blanks) (rest : List Char) :
    skipSpace (blanks ++ (valueChars style depth value ++ rest)) =
      valueChars style depth value ++ rest := by
  obtain ⟨c, more, hcons, hc⟩ := h.starts
  have hspace : isSpace c = false := by
    unfold startsValue at hc
    simp_all
  rw [skipSpace_append hblanks, hcons, List.cons_append, skipSpace_cons hspace]

/-- The value null is read back. -/
theorem isReadBack_null : IsReadBack style depth .null := by
  refine ⟨⟨_, _, rfl, by decide⟩, fun fuel rest _ _ => ?_⟩
  simp [valueChars, readValue, readPlain, names]

/-- So are truth values. -/
theorem isReadBack_bool (value : Bool) : IsReadBack style depth (.bool value) := by
  cases value with
  | true =>
    refine ⟨⟨_, _, rfl, by decide⟩, fun fuel rest _ _ => ?_⟩
    simp [valueChars, readValue, readPlain, names]
  | false =>
    refine ⟨⟨_, _, rfl, by decide⟩, fun fuel rest _ _ => ?_⟩
    simp [valueChars, readValue, readPlain, names]

/-- A number starts with a digit, or with a sign and a digit behind it. -/
theorem exists_cons_of_int (value : Int) :
    ∃ c more, (toString value).toList = c :: more ∧
      (c.isDigit = true ∨ c = '-' ∧ ∃ d others, more = d :: others ∧ d.isDigit = true) := by
  have hdigits : ∀ c ∈ Nat.toDigits 10 value.natAbs, c.isDigit = true := fun c hc =>
    Nat.isDigit_of_mem_toDigits (by decide) (by decide) hc
  obtain ⟨d, others, hcons⟩ := List.exists_cons_of_ne_nil
    (Nat.toDigits_ne_nil (n := value.natAbs) (b := 10))
  rw [hcons] at hdigits
  have hd : d.isDigit = true := hdigits d (by simp)
  rw [toList_toString_int, hcons]
  by_cases hnegative : value < 0
  · rw [if_pos hnegative]
    exact ⟨'-', _, rfl, .inr ⟨rfl, d, others, rfl, hd⟩⟩
  · rw [if_neg hnegative]
    exact ⟨d, others, rfl, .inl hd⟩

/-- A digit is no other character. -/
theorem ne_of_isDigit {c d : Char} (hc : c.isDigit = true) (hd : d.isDigit = false) : c ≠ d := by
  rintro rfl
  rw [hc] at hd
  cases hd

/-- No fixed name of a value starts like a number. -/
theorem readPlain_of_number {c : Char} {more : List Char}
    (h : c.isDigit = true ∨ c = '-' ∧ ∃ d others, more = d :: others ∧ d.isDigit = true) :
    readPlain (c :: more) = readNumber (c :: more) := by
  have hnone : names.find? (fun name => name.1.isPrefixOf (c :: more)) = none := by
    rcases h with hc | ⟨rfl, d, others, rfl, hd⟩
    · have hne : 'n' ≠ c ∧ 't' ≠ c ∧ 'f' ≠ c ∧ 'N' ≠ c ∧ 'I' ≠ c ∧ '-' ≠ c := by
        refine ⟨?_, ?_, ?_, ?_, ?_, ?_⟩ <;> exact (ne_of_isDigit hc (by decide)).symm
      simp [names, hne]
    · have hne : 'I' ≠ d := (ne_of_isDigit hd (by decide)).symm
      simp [names, hne]
  rw [readPlain, hnone]

/-- Whole numbers that can be shown are read back. -/
theorem isReadBack_int {value : Int} (hvalue : Numeral.isShowable value = true) :
    IsReadBack style depth (.int value) := by
  have hnumber : ∀ rest, EndsNumber rest →
      readNumber ((toString value).toList ++ rest) = .ok (.int value, rest) := fun _ hrest =>
    readNumber_int hvalue hrest
  clear hvalue
  obtain ⟨c, more, hcons, hc⟩ := exists_cons_of_int value
  have hchars : valueChars style depth (.int value) = c :: more := hcons
  have hne : c ≠ '"' ∧ c ≠ '[' ∧ c ≠ '{' := by
    rcases hc with hc | ⟨rfl, -⟩
    · exact ⟨ne_of_isDigit hc (by decide), ne_of_isDigit hc (by decide),
        ne_of_isDigit hc (by decide)⟩
    · decide
  refine ⟨⟨c, more, hchars, ?_⟩, fun fuel rest _ hrest => ?_⟩
  · rcases hc with hc | ⟨rfl, -⟩
    · have hspace : c ≠ ' ' ∧ c ≠ '\t' ∧ c ≠ '\n' ∧ c ≠ '\r' ∧ c ≠ ']' ∧ c ≠ Char.ofNat 0xFEFF := by
        refine ⟨?_, ?_, ?_, ?_, ?_, ?_⟩ <;> exact ne_of_isDigit hc (by decide)
      simp [startsValue, isSpace, hspace]
    · decide
  · have hplain : readPlain (c :: (more ++ rest)) = readNumber (c :: (more ++ rest)) := by
      apply readPlain_of_number
      rcases hc with hc | ⟨hminus, d, others, rfl, hd⟩
      · exact .inl hc
      · exact .inr ⟨hminus, d, others ++ rest, rfl, hd⟩
    have hread := hnumber rest hrest
    rw [hcons, List.cons_append] at hread
    rw [hchars, List.cons_append]
    unfold readValue
    split
    · simp_all
    · simp_all
    · simp_all
    · rw [hplain, hread]

/-- So are strings. -/
theorem isReadBack_str (text : String) : IsReadBack style depth (.str text) := by
  refine ⟨⟨_, _, rfl, by decide⟩, fun fuel rest _ _ => ?_⟩
  have hlength := length_le_flatMap_stringChar style.asciiOnly text.toList
  rw [String.length_toList] at hlength
  simp only [valueChars, stringChars, List.cons_append, List.append_assoc, List.nil_append,
    readValue]
  rw [readString_stringChars]
  simp only [List.length_append, List.length_cons]
  omega

/-! ## Lists -/

/-- A number ends before the items behind it. -/
theorem endsNumber_itemChars (items : List Json) {tail : List Char} (htail : EndsNumber tail) :
    EndsNumber (itemChars style depth items ++ tail) := by
  cases items with
  | nil => exact htail
  | cons item items =>
    obtain ⟨blanks, -, hseparator⟩ := exists_separator style depth
    simp [itemChars, hseparator, continuesNumber]

/-- The items of a list are read back if each of them is. -/
theorem readItems_itemChars {items : List Json} (hitems : ∀ item ∈ items, IsReadBack style depth item)
    {item : Json} (hitem : IsReadBack style depth item) (read : List Json) (outer fuel : Nat)
    (rest : List Char) (hfuel : (valueChars style depth item).length +
      (itemChars style depth items).length < fuel) :
    readItems fuel depth read (valueChars style depth item ++
        (itemChars style depth items ++ (lineBreak style outer ++ ']' :: rest))) =
      .ok (.arr (read.reverse ++ item :: items), rest) := by
  induction items generalizing item read fuel with
  | nil =>
    obtain ⟨fuel, rfl⟩ := Nat.exists_eq_add_one_of_ne_zero (Nat.ne_zero_of_lt hfuel)
    have hclose : EndsNumber (lineBreak style outer ++ ']' :: rest) :=
      endsNumber_lineBreak style outer (by decide) rest
    have hvalue := hitem.readValue_eq fuel (by omega) hclose
    have hskip : skipSpace (lineBreak style outer ++ ']' :: rest) = ']' :: rest :=
      skipSpace_lineBreak style outer (by decide) rest
    simp [readItems, itemChars, hvalue, hskip]
  | cons next items ih =>
    obtain ⟨fuel, rfl⟩ := Nat.exists_eq_add_one_of_ne_zero (Nat.ne_zero_of_lt hfuel)
    rw [List.forall_mem_cons] at hitems
    obtain ⟨blanks, hblanks, hseparator⟩ := exists_separator style depth
    have hclose : EndsNumber (itemChars style depth (next :: items) ++
        (lineBreak style outer ++ ']' :: rest)) :=
      endsNumber_itemChars _ (endsNumber_lineBreak style outer (by decide) rest)
    have hlength : (itemChars style depth (next :: items)).length =
        blanks.length + 1 + (valueChars style depth next).length +
          (itemChars style depth items).length := by
      simp only [itemChars, hseparator, List.length_append, List.length_cons]
      omega
    have hvalue := hitem.readValue_eq fuel (by omega) hclose
    have hrest := ih hitems.2 hitems.1 (item :: read) fuel (by omega)
    simp only [itemChars, hseparator, List.cons_append, List.append_assoc] at hvalue ⊢
    simp only [readItems, hvalue, skipSpace_cons (show isSpace ',' = false by decide),
      hitems.1.skipSpace_eq hblanks, hrest, List.reverse_cons, List.append_assoc, List.cons_append,
      List.nil_append]

/-- A list that is not nested too deep is read back if its items are. -/
theorem isReadBack_arr {items : List Json} (hdepth : depth < deepest)
    (hitems : ∀ item ∈ items, IsReadBack style (depth + 1) item) :
    IsReadBack style depth (.arr items) := by
  have hshallow : ¬ deepest ≤ depth := Nat.not_le.2 hdepth
  cases items with
  | nil =>
    refine ⟨⟨_, _, rfl, by decide⟩, fun fuel rest _ _ => ?_⟩
    simp [valueChars, readValue, hshallow, skipSpace_cons (show isSpace ']' = false by decide)]
  | cons item items =>
    rw [List.forall_mem_cons] at hitems
    refine ⟨⟨_, _, rfl, by decide⟩, fun fuel rest hfuel _ => ?_⟩
    simp only [valueChars, List.length_cons, List.length_append] at hfuel
    have hread := readItems_itemChars hitems.2 hitems.1 [] depth fuel rest (by omega)
    have hskip := hitems.1.skipSpace_eq (isBlank_lineBreak style (depth + 1))
      (itemChars style (depth + 1) items ++ (lineBreak style depth ++ ']' :: rest))
    obtain ⟨c, more, hcons, hc⟩ := hitems.1.starts
    have hclose : c ≠ ']' := by
      rintro rfl
      exact absurd hc (by decide)
    simp only [valueChars, List.cons_append, List.append_assoc, List.nil_append, readValue,
      if_neg hshallow, hskip]
    rw [hcons, List.cons_append] at hread ⊢
    split
    · rename_i heq
      cases heq
      contradiction
    · rw [hread]
      rfl

/-! ## Objects -/

/-- One round of the reader of members: the last one, or one with a comma behind it. -/
theorem readMembers_memberChars {name : String} (hvalue : IsReadBack style depth value)
    {read : Members} {tail : List Char} (htail : EndsNumber tail)
    (hfuel : (valueChars style depth value).length ≤ fuel) :
    (skipSpace tail = '}' :: rest →
      readMembers (fuel + 1) depth read (memberChars style depth (name, value) ++ tail) =
        .ok (.obj (Members.set read name value), rest)) ∧
    (skipSpace tail = ',' :: rest →
      readMembers (fuel + 1) depth read (memberChars style depth (name, value) ++ tail) =
        readMembers fuel depth (Members.set read name value) (skipSpace rest)) := by
  have hlength := length_le_flatMap_stringChar style.asciiOnly name.toList
  rw [String.length_toList] at hlength
  have hskip := hvalue.skipSpace_eq (show IsBlank [' '] by simp [IsBlank, isSpace]) tail
  simp only [List.cons_append, List.nil_append] at hskip
  have hread := hvalue.readValue_eq fuel hfuel htail
  simp only [memberChars, stringChars, List.cons_append, List.append_assoc, List.nil_append]
  constructor
  all_goals
    intro hrest
    rw [readMembers, readString_stringChars]
    · simp only [skipSpace_cons (show isSpace ':' = false by decide), hskip, hread, hrest]
    · simp only [List.length_append, List.length_cons]
      omega

/-- It ends before the members behind it. -/
theorem endsNumber_memberListChars (members : Members) {tail : List Char}
    (htail : EndsNumber tail) : EndsNumber (memberListChars style depth members ++ tail) := by
  cases members with
  | nil => exact htail
  | cons member members =>
    obtain ⟨blanks, -, hseparator⟩ := exists_separator style depth
    simp [memberListChars, hseparator, continuesNumber]

/-- A member starts with a quote. -/
theorem skipSpace_memberChars {blanks : List Char} (hblanks : IsBlank blanks)
    (member : String × Json) (rest : List Char) :
    skipSpace (blanks ++ (memberChars style depth member ++ rest)) =
      memberChars style depth member ++ rest := by
  obtain ⟨name, value⟩ := member
  rw [skipSpace_append hblanks]
  exact skipSpace_cons (c := '"') (by decide) _

/-- The members of an object are read back if their values are and their names are distinct. -/
theorem readMembers_memberListChars {members : Members}
    (hmembers : ∀ member ∈ members, IsReadBack style depth member.2) {member : String × Json}
    (hvalue : IsReadBack style depth member.2) (read : Members) (outer fuel : Nat)
    (rest : List Char) (hnames : (read ++ member :: members).names.Nodup)
    (hfuel : (valueChars style depth member.2).length +
      (memberListChars style depth members).length < fuel) :
    readMembers fuel depth read (memberChars style depth member ++
        (memberListChars style depth members ++ (lineBreak style outer ++ '}' :: rest))) =
      .ok (.obj (read ++ member :: members), rest) := by
  induction members generalizing member read fuel with
  | nil =>
    obtain ⟨name, value⟩ := member
    obtain ⟨fuel, rfl⟩ := Nat.exists_eq_add_one_of_ne_zero (Nat.ne_zero_of_lt hfuel)
    have hname : name ∉ read.names := Members.not_mem_of_nodup hnames
    have hclose : EndsNumber (lineBreak style outer ++ '}' :: rest) :=
      endsNumber_lineBreak style outer (by decide) rest
    have hskip : skipSpace (lineBreak style outer ++ '}' :: rest) = '}' :: rest :=
      skipSpace_lineBreak style outer (by decide) rest
    rw [memberListChars, List.nil_append,
      (readMembers_memberChars hvalue hclose (by omega)).1 hskip, Members.set_of_not_mem hname]
  | cons next members ih =>
    obtain ⟨name, value⟩ := member
    obtain ⟨fuel, rfl⟩ := Nat.exists_eq_add_one_of_ne_zero (Nat.ne_zero_of_lt hfuel)
    rw [List.forall_mem_cons] at hmembers
    obtain ⟨blanks, hblanks, hseparator⟩ := exists_separator style depth
    have hname : name ∉ read.names := Members.not_mem_of_nodup hnames
    have hclose : EndsNumber (memberListChars style depth (next :: members) ++
        (lineBreak style outer ++ '}' :: rest)) :=
      endsNumber_memberListChars _ (endsNumber_lineBreak style outer (by decide) rest)
    have hlength : (memberListChars style depth (next :: members)).length =
        blanks.length + 1 + (memberChars style depth next).length +
          (memberListChars style depth members).length := by
      simp only [memberListChars, hseparator, List.length_append, List.length_cons]
      omega
    have hnext : (valueChars style depth next.2).length ≤ (memberChars style depth next).length := by
      obtain ⟨nextName, nextValue⟩ := next
      simp only [memberChars, List.length_append, List.length_cons]
      omega
    have hskip : skipSpace (memberListChars style depth (next :: members) ++
        (lineBreak style outer ++ '}' :: rest)) =
          ',' :: (blanks ++ (memberChars style depth next ++
            (memberListChars style depth members ++ (lineBreak style outer ++ '}' :: rest)))) := by
      simp only [memberListChars, hseparator, List.cons_append, List.append_assoc,
        skipSpace_cons (show isSpace ',' = false by decide)]
    rw [(readMembers_memberChars hvalue hclose (by omega)).2 hskip, skipSpace_memberChars hblanks,
      Members.set_of_not_mem hname]
    have hrest := ih hmembers.2 hmembers.1 (read ++ [(name, value)]) fuel (by simpa using hnames)
      (by omega)
    simpa using hrest

/-- An object that is not nested too deep is read back if its values are and its names are
distinct. -/
theorem isReadBack_obj {members : Members} (hdepth : depth < deepest)
    (hnames : members.names.Nodup)
    (hmembers : ∀ member ∈ members, IsReadBack style (depth + 1) member.2) :
    IsReadBack style depth (.obj members) := by
  have hshallow : ¬ deepest ≤ depth := Nat.not_le.2 hdepth
  cases members with
  | nil =>
    refine ⟨⟨_, _, rfl, by decide⟩, fun fuel rest _ _ => ?_⟩
    simp [valueChars, readValue, hshallow, skipSpace_cons (show isSpace '}' = false by decide)]
  | cons member members =>
    rw [List.forall_mem_cons] at hmembers
    refine ⟨⟨_, _, rfl, by decide⟩, fun fuel rest hfuel _ => ?_⟩
    have hvalue : (valueChars style (depth + 1) member.2).length ≤
        (memberChars style (depth + 1) member).length := by
      obtain ⟨name, value⟩ := member
      simp only [memberChars, List.length_append, List.length_cons]
      omega
    simp only [valueChars, List.length_cons, List.length_append] at hfuel
    have hread := readMembers_memberListChars hmembers.2 hmembers.1 [] depth fuel rest hnames
      (by omega)
    simp only [valueChars, List.cons_append, List.append_assoc, List.nil_append, readValue,
      if_neg hshallow, skipSpace_memberChars (isBlank_lineBreak style (depth + 1))]
    obtain ⟨name, value⟩ := member
    simp only [memberChars, stringChars, List.cons_append] at hread ⊢
    exact hread

/-! ## Texts -/

/-- Values of every kind are read back. -/
theorem IsReadable.isReadBack {levels : Nat} (h : IsReadable levels value)
    (hdepth : depth + levels ≤ deepest) : IsReadBack style depth value := by
  induction h generalizing depth with
  | null => exact isReadBack_null
  | bool value => exact isReadBack_bool value
  | int hdigits => exact isReadBack_int hdigits
  | str text => exact isReadBack_str text
  | arr _ ih => exact isReadBack_arr (by omega) fun item hitem => ih item hitem (by omega)
  | obj hnames _ ih =>
    exact isReadBack_obj (by omega) hnames fun member hmember => ih member hmember (by omega)

/-- It ends before blanks. -/
theorem endsNumber_of_isBlank {blanks : List Char} (hblanks : IsBlank blanks) :
    EndsNumber blanks := by
  cases blanks with
  | nil => exact endsNumber_nil
  | cons c blanks =>
    have hspace := hblanks c (by simp)
    simp only [isSpace, Bool.or_eq_true, beq_iff_eq] at hspace
    rcases hspace with ((rfl | rfl) | rfl) | rfl <;> simp [continuesNumber]

/-- A written value is read back, with blanks behind it. -/
theorem read_valueChars (style : Style) (h : IsReadable deepest value) {blanks : List Char}
    (hblanks : IsBlank blanks) : read (valueChars style 0 value ++ blanks) = .ok value := by
  have hback : IsReadBack style 0 value := h.isReadBack (by omega)
  have hstart : skipSpace (valueChars style 0 value ++ blanks) = valueChars style 0 value ++ blanks :=
    hback.skipSpace_eq (show IsBlank [] by simp [IsBlank]) blanks
  have hread := hback.readValue_eq (2 * (valueChars style 0 value ++ blanks).length + 2)
    (by rw [List.length_append]; omega) (endsNumber_of_isBlank hblanks)
  have hmark : ((valueChars style 0 value ++ blanks).head? == some (Char.ofNat 0xFEFF)) = false := by
    obtain ⟨c, more, hcons, hc⟩ := hback.starts
    unfold startsValue at hc
    rw [hcons]
    simp_all
  have hwhole : readWhole (valueChars style 0 value ++ blanks) = .ok value := by
    simp only [readWhole, hmark, hstart, hread, skipSpace_of_isBlank hblanks, Bool.false_eq_true,
      if_false, List.isEmpty_nil, if_true]
  rw [read, hwhole]
  rfl

end BinaryStrings.Json
