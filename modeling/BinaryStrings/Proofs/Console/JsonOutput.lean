import BinaryStrings.Listing
import BinaryStrings.Proofs.Json.Characters
import BinaryStrings.Proofs.Json.Ending

/-!
# Printed JSON

A report that is printed as JSON can be read back exactly if the console can write the texts in it.  The
remark behind a line with escapes makes it no JSON at all.

Main results:

- Theorem `holdsAll_json_iff`: what a console has to be able to write.
- Theorem `read_line_json`: what reading the printed line gives.
-/

namespace BinaryStrings

open Json (IsReadable)

/-- No number of a report has too many digits to be written. -/
structure Report.IsShowable (report : Report) : Prop where
  count : Numeral.isShowable report.count
  addresses : ∀ entry ∈ report.entries, Numeral.isShowable entry.address

/-- An entry can be yielded by the reader if its address can be shown. -/
theorem Entry.isReadable_toJson {levels : Nat} {entry : Entry}
    (hentry : Numeral.isShowable entry.address) : IsReadable (levels + 1) entry.toJson := by
  refine .obj (by simp [Json.Members.names]) ?_
  simp [IsReadable.str, IsReadable.int hentry]

/-- So can a report if all addresses can be. -/
theorem Report.isReadable_toJson {levels : Nat} {report : Report} (hreport : report.IsShowable) :
    IsReadable (levels + 3) report.toJson := by
  have hentries : IsReadable (levels + 2) (.arr (report.entries.map Entry.toJson)) := by
    refine .arr fun item hitem => ?_
    obtain ⟨entry, hentry, rfl⟩ := List.mem_map.1 hitem
    exact Entry.isReadable_toJson (hreport.addresses entry hentry)
  refine .obj (by simp [Json.Members.names]) ?_
  simp [hentries, IsReadable.int hreport.count]

namespace Console

variable {encoding : Encoding} {report : Report}

namespace Encoding

/-- Every encoding has the characters of ASCII. -/
theorem holds_of_lt {c : Char} (hc : c.toNat < 0x80) : encoding.holds c = true := by
  have hlimit : 0x80 ≤ encoding.limit := by cases encoding <;> decide
  exact decide_eq_true (Nat.lt_of_lt_of_le hc hlimit)

/-- This one has all characters. -/
theorem holds_utf8 (c : Char) : utf8.holds c = true :=
  decide_eq_true (Utf8.toNat_lt c)

/-- A text can be written if each of its characters can be. -/
theorem holdsAll_iff {text : String} :
    encoding.holdsAll text = true ↔ ∀ c ∈ text.toList, encoding.holds c = true :=
  List.all_eq_true

end Encoding

/-- The texts of a report besides its fixed names are the values and the labels. -/
theorem forall_mem_texts_iff {p : String → Prop}
    (hp : ∀ name ∈ ["strings", "value", "address", "section", "count"], p name) :
    (∀ text ∈ Json.texts report.toJson, p text) ↔
      ∀ entry ∈ report.entries, p entry.value ∧ p entry.label := by
  simp only [List.forall_mem_cons] at hp
  obtain ⟨hstrings, hvalue, haddress, hsection, hcount, -⟩ := hp
  simp only [Report.toJson, Entry.toJson, Json.texts, Json.memberListTexts, Json.memberTexts,
    Json.itemTexts_eq, List.forall_mem_cons, List.forall_mem_append, List.forall_mem_flatMap,
    List.forall_mem_map, List.not_mem_nil, false_implies, implies_true, and_true, true_and, hstrings,
    hvalue, haddress, hsection, hcount]

/-- A console can write the JSON text of a report if it can write the values and labels. -/
theorem holdsAll_json_iff (hreport : report.IsShowable) (indent : Option Nat) :
    encoding.holdsAll (Listing.json indent report) = true ↔
      ∀ entry ∈ report.entries,
        encoding.holdsAll entry.value = true ∧ encoding.holdsAll entry.label = true := by
  have hframe : ∀ c, Json.IsFrame c → encoding.holds c = true := by
    rintro c (rfl | hc)
    · exact Encoding.holds_of_lt (by decide)
    · exact Encoding.holds_of_lt (by omega)
  have hreadable : IsReadable 3 report.toJson := Report.isReadable_toJson hreport
  have hupTo : Json.IsUpToTexts (fun c => encoding.holds c = true) ⟨false, indent, false⟩
      report.toJson := hreadable.isUpToTexts hframe
  have htexts := hupTo 0
  have hnames : ∀ name ∈ ["strings", "value", "address", "section", "count"],
      encoding.holdsAll name = true := by
    cases encoding <;> decide
  simp only [Json.forall_mem_stringChars_iff fun _ => Encoding.holds_of_lt,
    ← Encoding.holdsAll_iff] at htexts
  rw [Encoding.holdsAll_iff, ← forall_mem_texts_iff hnames, ← htexts]
  simp [Listing.json, Json.write, Json.chars]

/-- A line with escapes is no JSON text, whatever was to be printed. -/
theorem read_line_ne_ok {text : String} (htext : encoding.holdsAll text = false) (value : Json) :
    Json.read (line encoding text).toList ≠ .ok value := by
  have hline : line encoding text =
      ended (encoding.escaped text ++ " (some characters replaced/escaped)") := by
    rw [line, htext]
    rfl
  have hblanks : Json.IsBlank ['\n'] := by simp [Json.IsBlank, Json.isSpace]
  refine Json.read_ne_ok (show Json.endsValue ')' = false by decide) (by decide) hblanks ?_ value
  refine ⟨(encoding.escaped text).toList ++ " (some characters replaced/escaped".toList, ?_⟩
  simp [hline, ended]

/-- A line without escapes is read back. -/
theorem read_line_of_holdsAll (hreport : report.IsShowable) {indent : Option Nat}
    (hholds : encoding.holdsAll (Listing.json indent report) = true) :
    Json.read (line encoding (Listing.json indent report)).toList = .ok report.toJson := by
  have hreadable : IsReadable (977 + 3) report.toJson := Report.isReadable_toJson hreport
  have hblanks : Json.IsBlank ['\n'] := by simp [Json.IsBlank, Json.isSpace]
  have hback := Json.read_valueChars ⟨false, indent, false⟩ hreadable hblanks
  rw [line, if_pos hholds]
  simpa [ended, Listing.json, Json.write, Json.chars] using hback

/-- Reading a report that is printed as JSON gives the report back, whatever the indentation, if the
console can write its values and labels, and gives nothing if it cannot.  In UTF-8 it always can. -/
theorem read_line_json (hreport : report.IsShowable) (encoding : Encoding) (indent : Option Nat) :
    ((∀ entry ∈ report.entries,
        encoding.holdsAll entry.value = true ∧ encoding.holdsAll entry.label = true) →
      Json.read (line encoding (Listing.json indent report)).toList = .ok report.toJson) ∧
    ((∃ entry ∈ report.entries,
        encoding.holdsAll entry.value = false ∨ encoding.holdsAll entry.label = false) →
      ∀ value, Json.read (line encoding (Listing.json indent report)).toList ≠ .ok value) ∧
    (encoding = .utf8 →
      Json.read (line encoding (Listing.json indent report)).toList = .ok report.toJson) := by
  refine ⟨fun hall => read_line_of_holdsAll hreport ((holdsAll_json_iff hreport indent).2 hall), ?_, ?_⟩
  · rintro ⟨entry, hentry, hlacks⟩ value
    refine read_line_ne_ok ?_ value
    rw [Bool.eq_false_iff]
    intro hholds
    obtain ⟨hvalue, hlabel⟩ := (holdsAll_json_iff hreport indent).1 hholds entry hentry
    simp [hvalue, hlabel] at hlacks
  · rintro rfl
    exact read_line_of_holdsAll hreport (Encoding.holdsAll_iff.2 fun c _ => Encoding.holds_utf8 c)

/-- One text with an accent. -/
def accented : Report := ⟨[⟨"é", 16, Label.code⟩]⟩

/-- The address of the accented letter can be shown. -/
theorem isShowable_accented : accented.IsShowable :=
  ⟨by decide +kernel, by decide +kernel⟩

/-- A console that has the letter prints a document that is read back. -/
theorem read_line_json_latin1 :
    Json.read (line .latin1 (Listing.json (some 2) accented)).toList = .ok accented.toJson :=
  (read_line_json isShowable_accented .latin1 (some 2)).1 (by decide)

/-- In ASCII the text with an accent is printed with an escape that JSON lacks and with a remark. -/
theorem read_line_json_ascii :
    line .ascii (Listing.json none accented) =
        "\x7b\"strings\": [\x7b\"value\": \"\\xe9\", \"address\": 16, \"section\": \".text\"\x7d], " ++
          "\"count\": 1\x7d (some characters replaced/escaped)\n" ∧
      ∀ value, Json.read (line .ascii (Listing.json none accented)).toList ≠ .ok value :=
  ⟨by decide +kernel, read_line_ne_ok (by decide +kernel)⟩

end Console

end BinaryStrings
