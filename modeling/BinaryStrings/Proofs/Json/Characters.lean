import BinaryStrings.Proofs.Json.RoundTrip
import BinaryStrings.Proofs.Json.Text

/-!
# Where the characters of JSON text come from

Apart from its strings, JSON text is made of printable ASCII and line feeds.  So what holds of all these
characters holds of a whole text exactly when it holds of the strings in it.

Main results:

- Theorem `IsReadable.isUpToTexts`: a property of all characters of a value is one of the characters of
  its strings.
- Theorem `isFrame_of_mem_stringChars`: strings in ASCII are printable as well.
- Theorem `forall_mem_stringChars_iff`: a property of all characters of a string in full Unicode is one
  of the characters of its text.
-/

namespace BinaryStrings.Json

/-! ## The texts in a value -/

mutual

/-- The texts in a value, names included. -/
def texts : Json → List String
  | .str text => [text]
  | .arr items => itemTexts items
  | .obj members => memberListTexts members
  | _ => []

/-- The texts in the items of a list. -/
def itemTexts : List Json → List String
  | [] => []
  | item :: rest => texts item ++ itemTexts rest

/-- The texts in the members of an object. -/
def memberListTexts : List (String × Json) → List String
  | [] => []
  | member :: rest => memberTexts member ++ memberListTexts rest

/-- The name of a member and the texts in its value. -/
def memberTexts : String × Json → List String
  | (name, value) => name :: texts value

end

/-- The texts in a list are those in its items. -/
theorem itemTexts_eq (items : List Json) : itemTexts items = items.flatMap texts := by
  induction items with
  | nil => rfl
  | cons item rest ih => rw [itemTexts, ih, List.flatMap_cons]

/-! ## Characters outside strings -/

/-- Printable ASCII and line feeds. -/
def IsFrame (c : Char) : Prop :=
  c = '\n' ∨ 0x20 ≤ c.toNat ∧ c.toNat < 0x7F

instance (c : Char) : Decidable (IsFrame c) :=
  inferInstanceAs (Decidable (_ ∨ _))

/-- Characters that are known to frame values. -/
theorem isFrame_of_mem (frame : List Char)
    (hframe : frame.all (fun c => decide (IsFrame c)) = true) (c : Char) (hc : c ∈ frame) :
    IsFrame c :=
  of_decide_eq_true (List.all_eq_true.1 hframe c hc)

/-- Digits are among them. -/
theorem isFrame_of_isDigit {c : Char} (hc : c.isDigit = true) : IsFrame c := by
  simp only [Char.isDigit, Bool.and_eq_true, decide_eq_true_eq, UInt32.le_iff_toNat_le] at hc
  have hnumbers : 0x30 ≤ c.toNat ∧ c.toNat ≤ 0x39 := hc
  exact .inr (by omega)

/-- So are all characters of an integer. -/
theorem isFrame_of_mem_int {value : Int} {c : Char} (hc : c ∈ (toString value).toList) :
    IsFrame c := by
  rw [toList_toString_int, List.mem_append] at hc
  rcases hc with hsign | hdigit
  · split at hsign
    · rw [List.mem_singleton.1 hsign]
      decide
    · cases hsign
  · exact isFrame_of_isDigit (Nat.isDigit_of_mem_toDigits (by decide) (by decide) hdigit)

/-- So are those of a line break with its indentation. -/
theorem isFrame_of_mem_lineBreak {style : Style} {depth : Nat} {c : Char}
    (hc : c ∈ lineBreak style depth) : IsFrame c := by
  unfold lineBreak at hc
  cases hindent : style.indent with
  | none => simp [hindent] at hc
  | some step =>
    rw [hindent] at hc
    rcases List.mem_cons.1 hc with rfl | hspace
    · exact .inl rfl
    · rw [(List.mem_replicate.1 hspace).2]
      decide

/-- So are those of a separator. -/
theorem isFrame_of_mem_separator {style : Style} {depth : Nat} {c : Char}
    (hc : c ∈ separator style depth) : IsFrame c := by
  unfold separator at hc
  split at hc
  · rcases List.mem_cons.1 hc with rfl | hbreak
    · decide
    · exact isFrame_of_mem_lineBreak hbreak
  · rw [List.mem_cons, List.mem_singleton] at hc
    rcases hc with rfl | rfl <;> decide

/-! ## Whole texts -/

/-- A property holds of all characters of a value, at whatever depth, exactly if it holds of the
characters of its strings. -/
def IsUpToTexts (p : Char → Prop) (style : Style) (value : Json) : Prop :=
  ∀ depth, (∀ c ∈ valueChars style depth value, p c) ↔
    ∀ text ∈ texts value, ∀ c ∈ stringChars style.asciiOnly text, p c

section

variable {p : Char → Prop} {style : Style} {levels : Nat} {value : Json}

/-- What holds of all such characters holds of a separator. -/
theorem forall_mem_separator_iff (hp : ∀ c, IsFrame c → p c) (depth : Nat) :
    (∀ c ∈ separator style depth, p c) ↔ True :=
  iff_true_intro fun c hc => hp c (isFrame_of_mem_separator hc)

/-- It holds of a line break. -/
theorem forall_mem_lineBreak_iff (hp : ∀ c, IsFrame c → p c) (depth : Nat) :
    (∀ c ∈ lineBreak style depth, p c) ↔ True :=
  iff_true_intro fun c hc => hp c (isFrame_of_mem_lineBreak hc)

/-- It holds of a list if it holds of the texts in it. -/
theorem forall_mem_itemChars_iff (hp : ∀ c, IsFrame c → p c) {items : List Json}
    (hitems : ∀ item ∈ items, IsUpToTexts p style item) (depth : Nat) :
    (∀ c ∈ itemChars style depth items, p c) ↔
      ∀ text ∈ itemTexts items, ∀ c ∈ stringChars style.asciiOnly text, p c := by
  induction items with
  | nil => simp [itemChars, itemTexts]
  | cons item items ih =>
    rw [List.forall_mem_cons] at hitems
    simp only [itemChars, itemTexts, List.forall_mem_append, forall_mem_separator_iff hp, true_and,
      hitems.1 depth, ih hitems.2]

/-- It holds of a member if it holds of its name and of the texts in its value. -/
theorem forall_mem_memberChars_iff (hp : ∀ c, IsFrame c → p c) {member : String × Json}
    (hmember : IsUpToTexts p style member.2) (depth : Nat) :
    (∀ c ∈ memberChars style depth member, p c) ↔
      ∀ text ∈ memberTexts member, ∀ c ∈ stringChars style.asciiOnly text, p c := by
  obtain ⟨name, value⟩ := member
  have hvalue := hmember depth
  have hcolon : p ':' := hp ':' (by decide)
  have hspace : p ' ' := hp ' ' (by decide)
  simp only [memberChars, memberTexts, List.forall_mem_append, List.forall_mem_cons, hcolon, hspace,
    true_and, hvalue]

/-- It holds of an object if it holds of the texts in its members. -/
theorem forall_mem_memberListChars_iff (hp : ∀ c, IsFrame c → p c) {members : Members}
    (hmembers : ∀ member ∈ members, IsUpToTexts p style member.2) (depth : Nat) :
    (∀ c ∈ memberListChars style depth members, p c) ↔
      ∀ text ∈ memberListTexts members, ∀ c ∈ stringChars style.asciiOnly text, p c := by
  induction members with
  | nil => simp [memberListChars, memberListTexts]
  | cons member members ih =>
    rw [List.forall_mem_cons] at hmembers
    simp only [memberListChars, memberListTexts, List.forall_mem_append,
      forall_mem_separator_iff hp, true_and, forall_mem_memberChars_iff hp hmembers.1,
      ih hmembers.2]

/-- A property of printable ASCII and line feeds holds of all characters of a value exactly if it holds
of the characters of its strings. -/
theorem IsReadable.isUpToTexts (hp : ∀ c, IsFrame c → p c) (h : IsReadable levels value) :
    IsUpToTexts p style value := by
  have hframe : ∀ {frame : List Char}, (∀ c ∈ frame, IsFrame c) → ((∀ c ∈ frame, p c) ↔
      ∀ text ∈ ([] : List String), ∀ c ∈ stringChars style.asciiOnly text, p c) :=
    fun hframe => by simpa using fun c hc => hp c (hframe c hc)
  induction h with
  | null => exact fun _ => hframe (isFrame_of_mem ['n', 'u', 'l', 'l'] (by decide))
  | bool value =>
    cases value with
    | true => exact fun _ => hframe (isFrame_of_mem ['t', 'r', 'u', 'e'] (by decide))
    | false => exact fun _ => hframe (isFrame_of_mem ['f', 'a', 'l', 's', 'e'] (by decide))
  | int _ => exact fun _ => hframe fun c hc => isFrame_of_mem_int hc
  | str text => simp [IsUpToTexts, valueChars, texts]
  | @arr _ items _ ih =>
    have hopen : p '[' := hp '[' (by decide)
    have hclose : p ']' := hp ']' (by decide)
    intro depth
    cases items with
    | nil => exact hframe (isFrame_of_mem ['[', ']'] (by decide))
    | cons item items =>
      rw [List.forall_mem_cons] at ih
      simp only [valueChars, texts, itemTexts, List.forall_mem_cons, List.forall_mem_append,
        forall_mem_lineBreak_iff hp, hopen, hclose, true_and, ih.1 (depth + 1),
        forall_mem_itemChars_iff hp ih.2 (depth + 1)]
      simp
  | @obj _ members _ _ ih =>
    have hopen : p '{' := hp '{' (by decide)
    have hclose : p '}' := hp '}' (by decide)
    intro depth
    cases members with
    | nil => exact hframe (isFrame_of_mem ['{', '}'] (by decide))
    | cons member members =>
      rw [List.forall_mem_cons] at ih
      simp only [valueChars, texts, memberListTexts, List.forall_mem_cons, List.forall_mem_append,
        forall_mem_lineBreak_iff hp, hopen, hclose, true_and,
        forall_mem_memberChars_iff hp ih.1 (depth + 1),
        forall_mem_memberListChars_iff hp ih.2 (depth + 1)]
      simp

end

/-! ## Strings -/

/-- An escape by number is written with characters that frame values. -/
theorem isFrame_of_mem_unitEscape {n : Nat} (hn : n < 0x10000) {c : Char}
    (hc : c ∈ unitEscape n) : IsFrame c := by
  have hdigit : ∀ d < 16, IsFrame d.digitChar := by decide
  rw [unitEscape, hexPadded_four hn] at hc
  simp only [List.mem_cons, List.not_mem_nil, or_false] at hc
  rcases hc with rfl | rfl | rfl | rfl | rfl | rfl
  · decide
  · decide
  · exact hdigit _ (by omega)
  · exact hdigit _ (by omega)
  · exact hdigit _ (by omega)
  · exact hdigit _ (by omega)

/-- So is a short escape. -/
theorem isFrame_of_escaped? {mark c : Char} (h : escaped? mark = some c) : IsFrame mark := by
  unfold escaped? at h
  split at h
  all_goals first
    | decide
    | cases h

/-- So is every character of a text that is written in ASCII. -/
theorem isFrame_of_mem_stringChar {c d : Char} (hd : d ∈ stringChar true c) : IsFrame d := by
  have hspells := spells_stringChar true c
  generalize stringChar true c = text at hspells hd
  cases hspells with
  | mark hmeans =>
    rw [List.mem_cons, List.mem_singleton] at hd
    rcases hd with rfl | rfl
    · decide
    · exact isFrame_of_escaped? hmeans
  | unit hsmall => exact isFrame_of_mem_unitEscape hsmall hd
  | plain hunmarked hleast hmost =>
    rw [List.mem_singleton.1 hd]
    exact .inr ⟨hleast, hmost rfl⟩
  | pair hfirst hsecond hpoint =>
    rcases List.mem_append.1 hd with hhigh | hlow
    · exact isFrame_of_mem_unitEscape (by omega) hhigh
    · exact isFrame_of_mem_unitEscape (by omega) hlow

/-- A string in ASCII is written in printable characters. -/
theorem isFrame_of_mem_stringChars {text : String} {c : Char} (hc : c ∈ stringChars true text) :
    IsFrame c := by
  simp only [stringChars, List.cons_append, List.mem_cons, List.mem_append, List.mem_flatMap,
    List.not_mem_nil, or_false] at hc
  rcases hc with rfl | ⟨d, -, hd⟩ | rfl
  · decide
  · exact isFrame_of_mem_stringChar hd
  · decide

/-- A character of ASCII is written in ASCII. -/
theorem all_stringChar_of_lt : ∀ n < 0x80,
    (stringChar false (Char.ofNat n)).all (fun d => decide (d.toNat < 0x80)) = true := by
  decide

/-- A property of ASCII holds of all characters of a string in full Unicode exactly if it holds of the
characters of its text. -/
theorem forall_mem_stringChars_iff {p : Char → Prop} (hp : ∀ c : Char, c.toNat < 0x80 → p c)
    (text : String) : (∀ c ∈ stringChars false text, p c) ↔ ∀ c ∈ text.toList, p c := by
  have hquote : p '"' := hp '"' (by decide)
  have hchar : ∀ c, (∀ d ∈ stringChar false c, p d) ↔ p c := by
    intro c
    by_cases hc : c.toNat < 0x80
    · have hlow := all_stringChar_of_lt c.toNat hc
      rw [Char.ofNat_toNat, List.all_eq_true] at hlow
      exact iff_of_true (fun d hd => hp d (of_decide_eq_true (hlow d hd))) (hp c hc)
    · have hmark : ¬ (c = '"' ∨ c = '\\') := by
        rintro (rfl | rfl) <;> exact hc (by decide)
      rw [stringChar_eq_self hmark (by omega), List.forall_mem_singleton]
  constructor
  · intro hall c hc
    refine (hchar c).1 fun d hd => hall d ?_
    simp only [stringChars, List.cons_append, List.mem_cons, List.mem_append, List.mem_flatMap]
    exact .inr (.inl ⟨c, hc, hd⟩)
  · intro hall d hd
    simp only [stringChars, List.cons_append, List.mem_cons, List.mem_append, List.mem_flatMap,
      List.not_mem_nil, or_false] at hd
    rcases hd with rfl | ⟨c, hc, hd⟩ | rfl
    · exact hquote
    · exact (hchar c).2 (hall c hc) d hd
    · exact hquote

end BinaryStrings.Json
