import BinaryStrings.Json.Writer
import BinaryStrings.Proofs.Text.Utf8

/-!
# The characters and the size of JSON text

JSON text on one line holds no control character, whatever the value: texts escape theirs, and
everything else is written in printable ASCII.  So writing JSON text as a JSON string once more at
most doubles its size, since only quotes and backslashes are escaped.

The size of a list or an object is, up to the brackets, the sum of the sizes of what is in it.

Main results:

- Theorem `isPrintable_chars`: no control character stands in JSON text on one line.
- Theorem `byteCount_stringChars_le_of_isPrintable`: a string of printable characters takes at most
  twice its bytes.
- Theorem `membersSize_set_le`: setting a member adds at most its size.
-/

namespace BinaryStrings.Json

open Utf8

/-! ## Characters -/

/-- No character of the text is a control character below the space. -/
def IsPrintable (text : List Char) : Prop :=
  ∀ c ∈ text, 0x20 ≤ c.toNat

instance (text : List Char) : Decidable (IsPrintable text) :=
  List.decidableBAll _ text

/-- The empty text has no control characters. -/
@[simp] theorem isPrintable_nil : IsPrintable [] := by
  simp [IsPrintable]

/-- A text is free of control characters if its first character and the rest are. -/
@[simp] theorem isPrintable_cons {c : Char} {text : List Char} :
    IsPrintable (c :: text) ↔ 0x20 ≤ c.toNat ∧ IsPrintable text := by
  simp [IsPrintable]

/-- Two texts together are free of control characters if both are. -/
@[simp] theorem isPrintable_append {text more : List Char} :
    IsPrintable (text ++ more) ↔ IsPrintable text ∧ IsPrintable more :=
  List.forall_mem_append

/-- So is a text of characters of such a text. -/
theorem IsPrintable.subset {text part : List Char} (htext : IsPrintable text)
    (hpart : part ⊆ text) : IsPrintable part :=
  fun c hc => htext c (hpart hc)

/-- Copies of a character that is no control character. -/
theorem isPrintable_replicate {count : Nat} {c : Char} (hc : 0x20 ≤ c.toNat) :
    IsPrintable (List.replicate count c) := by
  intro d hd
  rw [(List.mem_replicate.1 hd).2]
  exact hc

/-- The decimal digits of a number are ASCII digits. -/
theorem bounds_of_mem_nat {n : Nat} {c : Char} (hc : c ∈ (toString n).toList) :
    0x30 ≤ c.toNat ∧ c.toNat ≤ 0x39 := by
  rw [show (toString n).toList = Nat.toDigits 10 n from Nat.toList_repr] at hc
  have hdigit : c.isDigit = true := Nat.isDigit_of_mem_toDigits (by decide) (by decide) hc
  simp only [Char.isDigit, Bool.and_eq_true, decide_eq_true_eq, UInt32.le_iff_toNat_le] at hdigit
  exact hdigit

/-- Natural numbers are written in digits. -/
theorem isPrintable_nat (n : Nat) : IsPrintable (toString n).toList := by
  intro c hc
  have hbounds := bounds_of_mem_nat hc
  omega

/-- Integers are written in digits, with a sign. -/
theorem isPrintable_int (value : Int) : IsPrintable (toString value).toList := by
  cases value with
  | ofNat n => exact isPrintable_nat n
  | negSucc n =>
    rw [show toString (Int.negSucc n) = "-" ++ toString (n + 1) from rfl, String.toList_append]
    exact isPrintable_append.2 ⟨by decide, isPrintable_nat (n + 1)⟩

/-- Decimals are written in digits, with a point and an exponent. -/
theorem isPrintable_writeDecimal (style : Binary64.Layout) (digits : Nat) (power : Int) :
    IsPrintable (Binary64.writeDecimal style digits power).toList := by
  have hzeros : ∀ count, IsPrintable (List.replicate count '0') :=
    fun _ => isPrintable_replicate (by decide)
  have hdigits : ∀ n count, IsPrintable ((toString n : String).toList.take count) ∧
      IsPrintable ((toString n : String).toList.drop count) := fun n count =>
    ⟨(isPrintable_nat n).subset (List.take_subset _ _),
      (isPrintable_nat n).subset (List.drop_subset _ _)⟩
  unfold Binary64.writeDecimal
  dsimp only
  split
  · split
    · simp only [String.toList_append, String.toList_ofList, isPrintable_append]
      exact ⟨⟨isPrintable_nat _, hzeros _⟩, by decide⟩
    · split
      · simp only [String.toList_append, String.toList_ofList, isPrintable_append]
        exact ⟨⟨(hdigits _ _).1, by decide⟩, (hdigits _ _).2⟩
      · simp only [String.toList_append, String.toList_ofList, isPrintable_append]
        exact ⟨⟨by decide, hzeros _⟩, isPrintable_nat _⟩
  · simp only [String.toList_append, String.toList_ofList, isPrintable_append]
    refine ⟨⟨⟨⟨⟨(hdigits _ _).1, ?_⟩, by decide⟩, ?_⟩, hzeros _⟩, isPrintable_nat _⟩
    · split
      · decide
      · simp only [String.toList_append, String.toList_ofList, isPrintable_append]
        exact ⟨by decide, (hdigits _ _).2⟩
    · split
      · decide
      · decide

/-- So are floating-point numbers; some have names. -/
theorem isPrintable_float (value : Binary64) :
    IsPrintable (value.write Binary64.jsonLayout).toList := by
  have hsign : ∀ negative : Bool, IsPrintable (if negative then "-" else "" : String).toList := by
    decide
  cases value with
  | nan => decide
  | infinite negative =>
    simp only [Binary64.write, String.toList_append, isPrintable_append]
    exact ⟨hsign negative, by decide⟩
  | finite negative mantissa exponent =>
    simp only [Binary64.write]
    split
    · rw [String.toList_append, isPrintable_append]
      exact ⟨hsign negative, by decide⟩
    · rw [String.toList_append, isPrintable_append]
      exact ⟨hsign negative, isPrintable_writeDecimal _ _ _⟩

/-- The escape of a control character is none itself. -/
theorem isPrintable_unitEscape : ∀ n < 0x20, IsPrintable (unitEscape n) := by
  decide

/-- A character in a string is written without control characters. -/
theorem isPrintable_stringChar (c : Char) : IsPrintable (stringChar false c) := by
  unfold stringChar
  dsimp only
  split
  · rename_i hquote
    simp only [Bool.or_eq_true, beq_iff_eq] at hquote
    rcases hquote with rfl | rfl <;> decide
  iterate 5
    split
    · decide
  split
  · exact isPrintable_unitEscape _ ‹_›
  · rename_i hcontrol
    simp only [Bool.not_false, Bool.true_or, if_true, isPrintable_cons, isPrintable_nil, and_true]
    omega

/-- So is a string. -/
theorem isPrintable_stringChars (text : String) : IsPrintable (stringChars false text) := by
  unfold stringChars
  simp only [isPrintable_cons, isPrintable_append, isPrintable_nil, and_true]
  refine ⟨⟨by decide, ?_⟩, by decide⟩
  intro c hc
  obtain ⟨d, _, hd⟩ := List.mem_flatMap.1 hc
  exact isPrintable_stringChar d c hd

/-! ## Values on one line -/

/-- The plain style has no line breaks. -/
@[simp] theorem lineBreak_plain (depth : Nat) : lineBreak .plain depth = [] :=
  rfl

/-- In the plain style a comma and a space separate. -/
@[simp] theorem separator_plain (depth : Nat) : separator .plain depth = [',', ' '] :=
  rfl

/-- The plain style leaves characters as they are. -/
@[simp] theorem asciiOnly_plain : Style.plain.asciiOnly = false :=
  rfl

mutual

/-- In the plain style every value is written without control characters, at any depth. -/
theorem isPrintable_valueChars (depth : Nat) :
    ∀ value : Json, IsPrintable (valueChars .plain depth value)
  | .null => by simp [valueChars]
  | .bool true => by simp [valueChars]
  | .bool false => by simp [valueChars]
  | .int value => isPrintable_int value
  | .float value => isPrintable_float value
  | .str text => isPrintable_stringChars text
  | .arr [] => by simp [valueChars]
  | .arr (item :: rest) => by
    have hitem := isPrintable_valueChars (depth + 1) item
    have hrest := isPrintable_itemChars (depth + 1) rest
    simp [valueChars, hitem, hrest]
  | .obj [] => by simp [valueChars]
  | .obj (member :: rest) => by
    have hmember := isPrintable_memberChars (depth + 1) member
    have hrest := isPrintable_memberListChars (depth + 1) rest
    simp [valueChars, hmember, hrest]

/-- So are the items behind the first one of a list. -/
theorem isPrintable_itemChars (depth : Nat) :
    ∀ items : List Json, IsPrintable (itemChars .plain depth items)
  | [] => by simp [itemChars]
  | item :: rest => by
    have hitem := isPrintable_valueChars depth item
    have hrest := isPrintable_itemChars depth rest
    simp [itemChars, hitem, hrest]

/-- So are the members behind the first one of an object. -/
theorem isPrintable_memberListChars (depth : Nat) :
    ∀ members : List (String × Json), IsPrintable (memberListChars .plain depth members)
  | [] => by simp [memberListChars]
  | member :: rest => by
    have hmember := isPrintable_memberChars depth member
    have hrest := isPrintable_memberListChars depth rest
    simp [memberListChars, hmember, hrest]

/-- So is one member. -/
theorem isPrintable_memberChars (depth : Nat) :
    ∀ member : String × Json, IsPrintable (memberChars .plain depth member)
  | (name, value) => by
    have hname := isPrintable_stringChars name
    have hvalue := isPrintable_valueChars depth value
    simp [memberChars, hname, hvalue]

end

/-- A text in the plain style is that of its value at the outermost depth. -/
theorem chars_plain (value : Json) : chars .plain value = valueChars .plain 0 value :=
  rfl

/-- JSON text on one line holds no control character. -/
theorem isPrintable_chars (value : Json) : IsPrintable (chars .plain value) :=
  isPrintable_valueChars 0 value

mutual

/-- Text on one line does not depend on the depth. -/
theorem valueChars_plain (depth : Nat) :
    ∀ value : Json, valueChars .plain depth value = chars .plain value
  | .null => rfl
  | .bool true => rfl
  | .bool false => rfl
  | .int _ => rfl
  | .float _ => rfl
  | .str _ => rfl
  | .arr [] => rfl
  | .arr (item :: rest) => by
    have hitem := fun depth => valueChars_plain depth item
    have hrest := fun depth => itemChars_plain depth rest
    simp [chars_plain (.arr _), valueChars, hitem, hrest]
  | .obj [] => rfl
  | .obj (member :: rest) => by
    have hmember := fun depth => memberChars_plain depth member
    have hrest := fun depth => memberListChars_plain depth rest
    simp only [chars_plain (.obj _), valueChars, lineBreak_plain, hmember (depth + 1),
      hmember (0 + 1), hrest]

/-- In the plain style items are written as they are alone, at any depth, with a separator before each. -/
theorem itemChars_plain (depth : Nat) :
    ∀ items : List Json,
      itemChars .plain depth items = items.flatMap fun item => ',' :: ' ' :: chars .plain item
  | [] => rfl
  | item :: rest => by
    simp [itemChars, valueChars_plain depth item, itemChars_plain depth rest]

/-- So are members. -/
theorem memberListChars_plain (depth : Nat) :
    ∀ members : List (String × Json), memberListChars .plain depth members =
      members.flatMap fun member => ',' :: ' ' :: memberChars .plain 0 member
  | [] => rfl
  | member :: rest => by
    simp [memberListChars, memberChars_plain depth member, memberListChars_plain depth rest]

/-- A member is written alike at any depth. -/
theorem memberChars_plain (depth : Nat) :
    ∀ member : String × Json, memberChars .plain depth member = memberChars .plain 0 member
  | (name, value) => by
    simp [memberChars, valueChars_plain depth value, valueChars_plain 0 value]

end

/-! ## Sizes -/

/-- The bytes of the items of a list, with two for what stands around each. -/
def itemsSize : List Json → Nat
  | [] => 0
  | item :: rest => item.size + 2 + itemsSize rest

/-- The bytes of a member. -/
def memberSize (member : String × Json) : Nat :=
  byteCount (stringChars false member.1) + 2 + member.2.size

/-- The bytes of the members of an object, with two for what stands around each. -/
def membersSize : Members → Nat
  | [] => 0
  | member :: rest => memberSize member + 2 + membersSize rest

/-- Every item counts with the separator before it. -/
@[simp] theorem itemsSize_cons (item : Json) (rest : List Json) :
    itemsSize (item :: rest) = item.size + 2 + itemsSize rest :=
  rfl

/-- So does every member. -/
@[simp] theorem membersSize_cons (member : String × Json) (rest : Members) :
    membersSize (member :: rest) = memberSize member + 2 + membersSize rest :=
  rfl

/-- The size of a value is the number of bytes of its text, at any depth. -/
theorem byteCount_valueChars (depth : Nat) (value : Json) :
    byteCount (valueChars .plain depth value) = value.size := by
  rw [valueChars_plain]
  rfl

/-- So is that of a member. -/
theorem byteCount_memberChars (depth : Nat) (member : String × Json) :
    byteCount (memberChars .plain depth member) = memberSize member := by
  obtain ⟨name, value⟩ := member
  simp only [memberChars, memberSize, asciiOnly_plain, byteCount_append, byteCount_cons,
    byteCount_valueChars, width_of_lt, Char.reduceToNat, Nat.reduceLT]
  omega

/-- So is that of the items behind the first one. -/
theorem byteCount_itemChars (depth : Nat) (items : List Json) :
    byteCount (itemChars .plain depth items) = itemsSize items := by
  induction items with
  | nil => rfl
  | cons item rest ih =>
    simp only [itemChars, separator_plain, byteCount_append, byteCount_cons, byteCount_nil,
      byteCount_valueChars, ih, itemsSize_cons, width_of_lt, Char.reduceToNat, Nat.reduceLT]
    omega

/-- So is that of the members behind the first one. -/
theorem byteCount_memberListChars (depth : Nat) (members : Members) :
    byteCount (memberListChars .plain depth members) = membersSize members := by
  induction members with
  | nil => rfl
  | cons member rest ih =>
    simp only [memberListChars, separator_plain, byteCount_append, byteCount_cons, byteCount_nil,
      byteCount_memberChars, ih, membersSize_cons, width_of_lt, Char.reduceToNat, Nat.reduceLT]
    omega

/-- The size of a string. -/
theorem size_str (text : String) : (Json.str text).size = byteCount (stringChars false text) :=
  rfl

/-- A list is as large as its items, apart from the brackets of an empty one. -/
theorem size_arr (items : List Json) : (Json.arr items).size = max 2 (itemsSize items) := by
  rw [← byteCount_valueChars 0]
  cases items with
  | nil => rfl
  | cons item rest =>
    simp only [valueChars, lineBreak_plain, List.nil_append, byteCount_append, byteCount_cons,
      byteCount_nil, byteCount_valueChars, byteCount_itemChars, itemsSize_cons, width_of_lt,
      Char.reduceToNat, Nat.reduceLT]
    omega

/-- An object is as large as its members, apart from the braces of an empty one. -/
theorem size_obj (members : Members) :
    (Json.obj members).size = max 2 (membersSize members) := by
  rw [← byteCount_valueChars 0]
  cases members with
  | nil => rfl
  | cons member rest =>
    simp only [valueChars, lineBreak_plain, List.nil_append, byteCount_append, byteCount_cons,
      byteCount_nil, byteCount_memberChars, byteCount_memberListChars, membersSize_cons,
      width_of_lt, Char.reduceToNat, Nat.reduceLT]
    omega

/-- A list is at least as large as it is long. -/
theorem length_le_itemsSize (items : List Json) : items.length ≤ itemsSize items := by
  induction items with
  | nil => exact Nat.le_refl 0
  | cons item rest ih =>
    simp only [List.length_cons, itemsSize_cons]
    omega

/-- A first part of a list is not larger than the list. -/
theorem itemsSize_take_le (count : Nat) (items : List Json) :
    itemsSize (items.take count) ≤ itemsSize items := by
  induction items generalizing count with
  | nil => simp
  | cons item rest ih =>
    cases count with
    | zero => exact Nat.zero_le _
    | succ count =>
      have hrest := ih count
      simp only [List.take_succ_cons, itemsSize_cons]
      omega

/-- An object is at least as large as each of its members. -/
theorem memberSize_le_of_mem {member : String × Json} {members : Members}
    (hmember : member ∈ members) : memberSize member + 2 ≤ membersSize members := by
  induction members with
  | nil => cases hmember
  | cons first rest ih =>
    rw [membersSize_cons]
    rcases List.mem_cons.1 hmember with rfl | hrest
    · omega
    · have hmembers := ih hrest
      omega

/-- Setting a member adds at most its size. -/
theorem membersSize_set_le (members : Members) (name : String) (value : Json) :
    membersSize (Members.set members name value) ≤
      membersSize members + (memberSize (name, value) + 2) := by
  induction members with
  | nil =>
    simp only [Members.set, membersSize_cons]
    omega
  | cons member rest ih =>
    obtain ⟨known, old⟩ := member
    unfold Members.set
    split
    · rename_i hname
      rw [hname]
      simp only [membersSize_cons]
      omega
    · simp only [membersSize_cons]
      omega

/-! ## Strings -/

/-- A control character below the space is escaped, to at most six characters. -/
theorem byteCount_stringChar_control : ∀ n < 0x20,
    1 ≤ byteCount (stringChar false (Char.ofNat n)) ∧
      byteCount (stringChar false (Char.ofNat n)) ≤ 6 := by
  decide

/-- A character other than quotes, backslashes and control characters stands for itself. -/
theorem stringChar_eq_self {c : Char} (hmark : ¬ (c = '"' ∨ c = '\\')) (hc : 0x20 ≤ c.toNat) :
    stringChar false c = [c] := by
  have hne : ∀ d : Char, d.toNat < 0x20 → (c == d) = false := by
    intro d hd
    rw [beq_eq_false_iff_ne]
    rintro rfl
    omega
  have hquote : (c == '"' || c == '\\') = false := by
    simpa using hmark
  have hlow : (c.toNat == 0x08) = false ∧ (c.toNat == 0x0C) = false := by
    simp only [beq_eq_false_iff_ne]
    omega
  unfold stringChar
  simp only [hquote, hne '\n' (by decide), hne '\r' (by decide), hne '\t' (by decide), hlow,
    Bool.false_eq_true, if_false, Bool.not_false, Bool.true_or, if_true,
    if_neg (Nat.not_lt.2 hc)]

/-- A character takes at least its own bytes in a string and at most six times them, and at most
twice them unless it is a control character below the space. -/
theorem byteCount_stringChar (c : Char) :
    width c ≤ byteCount (stringChar false c) ∧ byteCount (stringChar false c) ≤ 6 * width c ∧
      (0x20 ≤ c.toNat → byteCount (stringChar false c) ≤ 2 * width c) := by
  by_cases hmark : c = '"' ∨ c = '\\'
  · rcases hmark with rfl | rfl <;> decide
  · by_cases hcontrol : c.toNat < 0x20
    · have hwidth : width c = 1 := width_of_lt (by omega)
      have hescape := byteCount_stringChar_control c.toNat hcontrol
      rw [Char.ofNat_toNat] at hescape
      exact ⟨by omega, by omega, fun hc => by omega⟩
    · rw [stringChar_eq_self hmark (by omega), byteCount_cons, byteCount_nil]
      exact ⟨by omega, by omega, fun _ => by omega⟩

/-- The bytes of a string are those of its characters and two quotation marks. -/
theorem byteCount_stringChars (text : String) :
    byteCount (stringChars false text) =
      byteCount (text.toList.flatMap (stringChar false)) + 2 := by
  simp only [stringChars, byteCount_append, byteCount_cons, byteCount_nil, width_of_lt,
    Char.reduceToNat, Nat.reduceLT]
  omega

/-- A string takes no fewer bytes than its text. -/
theorem byteCount_le_stringChars (text : String) :
    byteCount text.toList ≤ byteCount (stringChars false text) := by
  rw [byteCount_stringChars]
  induction text.toList with
  | nil => simp
  | cons c rest ih =>
    have hc := (byteCount_stringChar c).1
    simp only [List.flatMap_cons, byteCount_cons, byteCount_append]
    omega

/-- A string takes at most six times the bytes of its text, and the quotes. -/
theorem byteCount_stringChars_le (text : String) :
    byteCount (stringChars false text) ≤ 6 * byteCount text.toList + 2 := by
  rw [byteCount_stringChars]
  exact Nat.add_le_add_right (byteCount_flatMap_le fun c _ => (byteCount_stringChar c).2.1) 2

/-- A string of printable characters takes at most twice the bytes of its text, and the quotes. -/
theorem byteCount_stringChars_le_of_isPrintable {text : String}
    (htext : IsPrintable text.toList) :
    byteCount (stringChars false text) ≤ 2 * byteCount text.toList + 2 := by
  rw [byteCount_stringChars]
  exact Nat.add_le_add_right
    (byteCount_flatMap_le fun c hc => (byteCount_stringChar c).2.2 (htext c hc)) 2

end BinaryStrings.Json
