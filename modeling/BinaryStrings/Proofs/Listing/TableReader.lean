import BinaryStrings.Listing
import BinaryStrings.Proofs.Console.JsonOutput
import BinaryStrings.Proofs.Numeral.Hexadecimal
import Mathlib.Data.List.DropRight

/-!
# Reading a printed table

A table that is printed in full can be read back from its text.  Its lines are those between the
newlines.  The path of the file may have newlines and may look like a part of a table, so the reader
looks for the last line that tells a total: the lines behind it are the entries, one on each line, and
those in front of it the counts of the sections.

A line of an entry begins with its address.  The label is in columns of its own, so what the value looks
like does not matter.

Main results:

- Theorem `entryOfLine?_entryLine`: the line of an entry is read back.
- Theorem `read_table`: a table without newlines in its values is read back.
-/

namespace BinaryStrings.Listing

/-! ## Numbers in lines -/

/-- A text is read up to a character that does not belong to it. -/
theorem takeWhile_append_eq {p : Char → Bool} {text behind : List Char} (htext : ∀ c ∈ text, p c = true)
    (hbehind : ∀ c ∈ behind.head?, p c = false) : (text ++ behind).takeWhile p = text := by
  rw [List.takeWhile_append_of_pos htext]
  cases behind with
  | nil => simp
  | cons c rest => simp [hbehind c rfl]

/-- The decimal number between two fixed texts. -/
def numberBetween? (lead behind line : List Char) : Option Nat :=
  let digits := (line.drop lead.length).takeWhile Char.isDigit
  if line = lead ++ (digits ++ behind) then some (Numeral.valueOf 10 digits) else none

/-- A number is written in digits. -/
theorem isDigit_of_mem_toDigits {n : Nat} {c : Char} (hc : c ∈ Nat.toDigits 10 n) :
    c.isDigit = true := by
  have hdigits : ∀ d < 10, d.digitChar.isDigit = true := by decide
  obtain ⟨d, hd, rfl⟩ := Numeral.exists_digitChar_of_mem_toDigits (by decide) hc
  exact hdigits d hd

/-- Its text are these digits. -/
theorem toList_toString_nat (n : Nat) : (toString n).toList = Nat.toDigits 10 n :=
  String.toList_ofList

/-- A number between two texts is read, if the second one does not start with a digit. -/
theorem numberBetween?_eq (lead : List Char) {behind : List Char}
    (hbehind : ∀ c ∈ behind.head?, c.isDigit = false) (n : Nat) :
    numberBetween? lead behind (lead ++ ((toString n).toList ++ behind)) = some n := by
  have hdigits : (Nat.toDigits 10 n ++ behind).takeWhile Char.isDigit = Nat.toDigits 10 n :=
    takeWhile_append_eq (fun c hc => isDigit_of_mem_toDigits hc) hbehind
  rw [numberBetween?, toList_toString_nat, List.drop_left, hdigits]
  simp only [if_true, Numeral.valueOf_toDigits (by decide : 1 < 10) (by decide)]

/-- No number is read from a line that does not start as it should. -/
theorem numberBetween?_eq_none {lead behind line : List Char} (h : ¬ lead <+: line) :
    numberBetween? lead behind line = none := by
  refine if_neg fun heq => h ?_
  rw [heq]
  exact List.prefix_append _ _

/-! ## Columns -/

/-- A label as a table can show it. -/
structure IsColumnLabel (label : String) : Prop where
  plain : ∀ c ∈ label.toList, c ≠ ' ' ∧ c ≠ '\n'
  length_le : label.length ≤ labelWidth

/-- Declared labels fit their column. -/
theorem isColumnLabel_of_mem_declared {label : String} (h : label ∈ Label.declared) :
    IsColumnLabel label := by
  have hall : (Label.declared.all fun label =>
      (label.toList.all fun c => c != ' ' && c != '\n') && decide (label.length ≤ labelWidth)) = true := by
    decide +kernel
  have hlabel := List.all_eq_true.1 hall label h
  simp only [Bool.and_eq_true, List.all_eq_true, bne_iff_ne, decide_eq_true_eq] at hlabel
  exact ⟨hlabel.1, hlabel.2⟩

/-- The label in the columns of a line, and the text behind it. -/
def splitColumns? (columns : List Char) : Option (String × List Char) :=
  let label := String.ofList ((columns.take labelWidth).takeWhile (· != ' '))
  let text := columns.drop (labelWidth + 1)
  if columns = (padded labelWidth label).toList ++ ' ' :: text then some (label, text) else none

/-- Spaces fill a column. -/
theorem toList_padded (width : Nat) (text : String) :
    (padded width text).toList = text.toList ++ List.replicate (width - text.length) ' ' := by
  rw [padded, String.toList_append, String.toList_ofList]

/-- What is in a column is split from what is behind it. -/
theorem splitColumns?_padded {label : String} (hlabel : IsColumnLabel label) (text : List Char) :
    splitColumns? ((padded labelWidth label).toList ++ ' ' :: text) = some (label, text) := by
  have hlength : (padded labelWidth label).toList.length = labelWidth := by
    have hle := hlabel.length_le
    rw [toList_padded, List.length_append, List.length_replicate, String.length_toList]
    omega
  have hread : ((padded labelWidth label).toList).takeWhile (· != ' ') = label.toList := by
    rw [toList_padded]
    refine takeWhile_append_eq (fun c hc => bne_iff_ne.2 (hlabel.plain c hc).1) fun c hc => ?_
    rw [List.eq_of_mem_replicate (List.mem_of_head? hc)]
    rfl
  have htake : ((padded labelWidth label).toList ++ ' ' :: text).take labelWidth =
      (padded labelWidth label).toList :=
    List.take_left' hlength
  have hdrop : ((padded labelWidth label).toList ++ ' ' :: text).drop (labelWidth + 1) = text := by
    rw [← List.drop_drop, List.drop_left' hlength]
    rfl
  rw [splitColumns?, htake, hread, hdrop, String.ofList_toList]
  exact if_pos rfl

/-! ## Lines of entries -/

/-- The address, the label and the value in a line of an entry. -/
def entryOfLine? : List Char → Option Entry
  | ' ' :: ' ' :: '0' :: 'x' :: rest =>
    let digits := rest.takeWhile (· != ' ')
    match rest.drop digits.length with
    | ' ' :: ' ' :: columns =>
      (splitColumns? columns).map fun found =>
        ⟨String.ofList found.2, Numeral.valueOf 16 digits, found.1⟩
    | _ => none
  | _ => none

/-- A padded hexadecimal number is read back. -/
theorem valueOf_hexPadded (width n : Nat) : Numeral.valueOf 16 (Text.hexPadded width n) = n := by
  have hzeros : ∀ count, (List.replicate count '0').foldl
      (fun value c => value * 16 + (Numeral.digitOf? c).getD 0) 0 = 0 := by
    intro count
    induction count with
    | zero => rfl
    | succ count ih =>
      rw [List.replicate_succ, List.foldl_cons]
      exact ih
  rw [Text.hexPadded, Text.zeroPadded, Numeral.valueOf, List.foldl_append, hzeros]
  exact Numeral.valueOf_toDigits (by decide) (Nat.le_refl 16) n

/-- It has no spaces and no line breaks. -/
theorem plain_of_mem_hexPadded {width n : Nat} {c : Char} (hc : c ∈ Text.hexPadded width n) :
    c ≠ ' ' ∧ c ≠ '\n' := by
  have hdigits : ∀ d < 16, d.digitChar ≠ ' ' ∧ d.digitChar ≠ '\n' := by decide
  rcases List.mem_append.1 hc with hzero | hdigit
  · rw [List.eq_of_mem_replicate hzero]
    decide
  · obtain ⟨d, hd, rfl⟩ := Numeral.exists_digitChar_of_mem_toDigits (by decide) hdigit
    exact hdigits d hd

variable {entry : Entry}

/-- The characters of a line that shows an entry in full. -/
theorem toList_entryLine (width : Nat) (haddress : 0 ≤ entry.address) :
    (entryLine width true entry).toList =
      ' ' :: ' ' :: '0' :: 'x' :: (Text.hexPadded width entry.address.natAbs ++
        ' ' :: ' ' :: ((padded labelWidth entry.label).toList ++ ' ' :: entry.value.toList)) := by
  have hvalue : shownValue true entry.value = entry.value := by simp [shownValue]
  have haddress : Text.hexColumns width entry.address =
      String.ofList (Text.hexPadded width entry.address.natAbs) :=
    if_neg (Int.not_lt.2 haddress)
  simp [entryLine, hvalue, haddress]

/-- The line of an entry is read back, whatever the value looks like. -/
theorem entryOfLine?_entryLine (width : Nat) (haddress : 0 ≤ entry.address)
    (hlabel : IsColumnLabel entry.label) :
    entryOfLine? (entryLine width true entry).toList = some entry := by
  have hdigits : ∀ behind, (Text.hexPadded width entry.address.natAbs ++ ' ' :: behind).takeWhile
      (· != ' ') = Text.hexPadded width entry.address.natAbs := fun behind =>
    takeWhile_append_eq (fun c hc => bne_iff_ne.2 (plain_of_mem_hexPadded hc).1) (by simp)
  rw [toList_entryLine width haddress]
  simp only [entryOfLine?, hdigits, List.drop_left, splitColumns?_padded hlabel, Option.map_some,
    valueOf_hexPadded, String.ofList_toList, Int.natAbs_of_nonneg haddress]

/-- The line of an entry is one line if its value has no newline. -/
theorem newline_notMem_entryLine (width : Nat) (haddress : 0 ≤ entry.address)
    (hlabel : IsColumnLabel entry.label) (hvalue : '\n' ∉ entry.value.toList) :
    '\n' ∉ (entryLine width true entry).toList := by
  have hhex : '\n' ∉ Text.hexPadded width entry.address.natAbs := fun h =>
    (plain_of_mem_hexPadded h).2 rfl
  have hlabel : '\n' ∉ entry.label.toList := fun h => (hlabel.plain _ h).2 rfl
  simp [toList_entryLine width haddress, toList_padded, hhex, hlabel, hvalue, List.mem_replicate]

/-! ## Other lines -/

/-- The label and the count in a line of the counts. -/
def countOfLine? : List Char → Option (String × Nat)
  | ' ' :: ' ' :: columns =>
    match splitColumns? columns with
    | some (label, text) => (numberBetween? [] [] text).map (label, ·)
    | none => none
  | _ => none

/-- The number in the line that tells how many entries there are. -/
def totalOfLine? (line : List Char) : Option Nat :=
  numberBetween? "--- Strings (".toList " total) ---".toList line

/-- The number in the line that tells how many entries are not shown. -/
def moreOfLine? (line : List Char) : Option Nat :=
  numberBetween? "  ... ".toList " more (use --limit to show more)".toList line

/-- What a line behind the total says. -/
inductive Item where
  | entry (entry : Entry)
  | more (hidden : Nat)
  | nothing
  deriving DecidableEq, Repr

/-- What a line behind the total says. -/
def itemOfLine? (line : List Char) : Option Item :=
  match entryOfLine? line with
  | some entry => some (.entry entry)
  | none =>
    match moreOfLine? line with
    | some hidden => some (.more hidden)
    | none => if line = "  No strings found.".toList then some .nothing else none

/-- Nor has a decimal number. -/
theorem newline_notMem_toString (n : Nat) : '\n' ∉ (toString n).toList := by
  rw [toList_toString_nat]
  exact fun h => absurd (isDigit_of_mem_toDigits h) (by decide)

/-- The line of a count. -/
def countLine (label : String) (n : Nat) : String :=
  "  " ++ padded labelWidth label ++ s!" {n}"

/-- The characters of the line with a count. -/
theorem toList_countLine (label : String) (n : Nat) :
    (countLine label n).toList =
      ' ' :: ' ' :: ((padded labelWidth label).toList ++ ' ' :: (toString n).toList) := by
  simp [countLine, toString]

/-- It is one line. -/
theorem newline_notMem_countLine {label : String} (hlabel : IsColumnLabel label) (n : Nat) :
    '\n' ∉ (countLine label n).toList := by
  have hlabel : '\n' ∉ label.toList := fun h => (hlabel.plain _ h).2 rfl
  have hnumber := newline_notMem_toString n
  rw [toList_countLine]
  simp only [toList_padded, List.mem_cons, List.mem_append, List.mem_replicate, hlabel, hnumber]
  simp

/-- It is read back. -/
theorem countOfLine?_countLine {label : String} (hlabel : IsColumnLabel label) (n : Nat) :
    countOfLine? (countLine label n).toList = some (label, n) := by
  have hnumber : numberBetween? [] [] (toString n).toList = some n := by
    have hnone : ∀ c ∈ ([] : List Char).head?, c.isDigit = false := by simp
    simpa using numberBetween?_eq [] hnone n
  rw [toList_countLine, countOfLine?, splitColumns?_padded hlabel]
  simp only [hnumber, Option.map_some]

/-- The line that tells the total. -/
def totalLine (n : Nat) : String :=
  s!"--- Strings ({n} total) ---"

/-- The characters of the line with the total. -/
theorem toList_totalLine (n : Nat) :
    (totalLine n).toList =
      "--- Strings (".toList ++ ((toString n).toList ++ " total) ---".toList) := by
  simp [totalLine, toString]

/-- It is one line. -/
theorem newline_notMem_totalLine (n : Nat) : '\n' ∉ (totalLine n).toList := by
  have hnumber := newline_notMem_toString n
  rw [toList_totalLine]
  simp only [List.mem_append, hnumber, false_or]
  decide

/-- It is read back. -/
theorem totalOfLine?_totalLine (n : Nat) : totalOfLine? (totalLine n).toList = some n := by
  rw [toList_totalLine]
  exact numberBetween?_eq _ (by simp) n

/-- Lines that begin with a space tell no total. -/
theorem totalOfLine?_space (rest : List Char) : totalOfLine? (' ' :: rest) = none :=
  numberBetween?_eq_none fun h => by simp [List.prefix_cons_iff] at h

/-- An entry that a table shows on one line. -/
structure IsOneLine (entry : Entry) : Prop where
  address_nonneg : 0 ≤ entry.address
  label : IsColumnLabel entry.label
  value : '\n' ∉ entry.value.toList

namespace Item

/-- The line that says an item. -/
def line (width : Nat) : Item → String
  | .entry entry => entryLine width true entry
  | .more hidden => s!"  ... {hidden} more (use --limit to show more)"
  | .nothing => "  No strings found."

/-- An item whose entry, if it is one, is shown on one line. -/
def IsShown : Item → Prop
  | .entry entry => IsOneLine entry
  | _ => True

/-- The characters of the line with the number of entries that are not shown. -/
theorem toList_line_more (width n : Nat) :
    ((more n).line width).toList =
      "  ... ".toList ++ ((toString n).toList ++ " more (use --limit to show more)".toList) := by
  simp [line, toString]

/-- What is shown as an item is one line. -/
theorem newline_notMem_line (width : Nat) {item : Item} (h : item.IsShown) :
    '\n' ∉ (item.line width).toList := by
  cases item with
  | entry entry => exact newline_notMem_entryLine width h.address_nonneg h.label h.value
  | more hidden =>
    have hnumber := newline_notMem_toString hidden
    rw [toList_line_more]
    simp only [List.mem_append, hnumber, false_or]
    decide
  | nothing =>
    rw [line]
    decide

/-- No item is taken for a total. -/
theorem totalOfLine?_line (width : Nat) {item : Item} (h : item.IsShown) :
    totalOfLine? (item.line width).toList = none := by
  cases item with
  | entry entry =>
    rw [line, toList_entryLine width h.address_nonneg]
    exact totalOfLine?_space _
  | more hidden =>
    rw [toList_line_more]
    exact totalOfLine?_space _
  | nothing =>
    rw [line]
    exact totalOfLine?_space _

/-- Lines that begin with a period behind spaces are of no entry. -/
theorem entryOfLine?_period (rest : List Char) : entryOfLine? (' ' :: ' ' :: '.' :: rest) = none :=
  rfl

/-- The line of an item is read as this item. -/
theorem itemOfLine?_line (width : Nat) {item : Item} (h : item.IsShown) :
    itemOfLine? (item.line width).toList = some item := by
  cases item with
  | entry entry =>
    rw [line, itemOfLine?, entryOfLine?_entryLine width h.address_nonneg h.label]
  | more hidden =>
    have hentry : entryOfLine? ("  ... ".toList ++ ((toString hidden).toList ++
        " more (use --limit to show more)".toList)) = none := entryOfLine?_period _
    rw [toList_line_more, itemOfLine?, hentry, moreOfLine?, numberBetween?_eq _ (by simp) hidden]
  | nothing =>
    rw [line]
    decide +kernel

end Item

/-! ## Lines of a text -/

/-- The lines of a text, without the newlines that end them. -/
def linesOf (text : String) : List (List Char) :=
  (text.toList.splitOn '\n').dropLast

/-- A text is split at each of its line breaks. -/
theorem splitOn_append_newline (text behind : List Char) :
    (text ++ '\n' :: behind).splitOn '\n' = text.splitOn '\n' ++ behind.splitOn '\n' :=
  List.splitOnP_append_cons text behind (by simp)

/-- A text without line breaks is one line. -/
theorem splitOn_eq_singleton {text : List Char} (h : '\n' ∉ text) : text.splitOn '\n' = [text] :=
  List.splitOnP_eq_singleton fun _ hc => beq_eq_false_iff_ne.2 fun heq => h (heq ▸ hc)

/-- A console that can write every text ends each one with a newline. -/
theorem linesOf_lines (texts : List String) :
    linesOf (Console.lines .utf8 texts) = texts.flatMap fun text => text.toList.splitOn '\n' := by
  have hline : ∀ text, Console.line .utf8 text = text ++ "\n" := fun text =>
    if_pos (Console.Encoding.holdsAll_iff.2 fun c _ => Console.Encoding.holds_utf8 c)
  have hsplit : ∀ texts, (Console.lines .utf8 texts).toList.splitOn '\n' =
      (texts.flatMap fun text => text.toList.splitOn '\n') ++ [[]] := by
    intro texts
    induction texts with
    | nil => rfl
    | cons text rest ih =>
      have hcons : (Console.lines .utf8 (text :: rest)).toList =
          text.toList ++ '\n' :: (Console.lines .utf8 rest).toList := by
        simp [Console.lines, hline]
      rw [hcons, splitOn_append_newline, ih, List.flatMap_cons, List.append_assoc]
  rw [linesOf, hsplit, List.dropLast_concat]

/-! ## Tables -/

/-- What a reader finds in a table. -/
structure Reading where
  counts : List (String × Nat)
  total : Nat
  items : List Item
  deriving DecidableEq, Repr

/-- The reading of some lines: the last line that tells a total ends the counts and begins the
entries. -/
def Reading.ofLines? (lines : List (List Char)) : Option Reading :=
  let tellsNone := fun line => (totalOfLine? line).isNone
  match (lines.rdropWhile tellsNone).reverse with
  | last :: _ :: third :: second :: first :: _ => do
    let total ← totalOfLine? last
    let counts ← [first, second, third].mapM countOfLine?
    let items ← (lines.rtakeWhile tellsNone).mapM itemOfLine?
    return ⟨counts, total, items⟩
  | _ => none

/-- The reading of a printed table. -/
def read (text : String) : Option Reading :=
  Reading.ofLines? (linesOf text)

/-- What the lines behind the total say. -/
def itemsOf (report : Report) (limit : Option Int) : List Item :=
  let shown := shownEntries report limit
  let hidden := report.count - shown.length
  if shown.isEmpty then [.nothing]
  else shown.map .entry ++ if 0 < hidden then [.more hidden] else []

/-- What succeeds for each element succeeds for the list. -/
theorem mapM_eq_some {α β : Type} {f : α → Option β} {g : α → β} {list : List α}
    (h : ∀ a ∈ list, f a = some (g a)) : list.mapM f = some (list.map g) := by
  induction list with
  | nil => rfl
  | cons a rest ih =>
    obtain ⟨ha, hrest⟩ := List.forall_mem_cons.1 h
    simp [ha, ih hrest]

/-- Lines are read back by the last total among them: the counts before it, the items behind it. -/
theorem ofLines?_eq {front behind : List (List Char)} {first second third blank last : List Char}
    {counts : List (String × Nat)} {total : Nat} {items : List Item}
    (hlast : totalOfLine? last = some total)
    (hcounts : [first, second, third].mapM countOfLine? = some counts)
    (hbehind : ∀ line ∈ behind, totalOfLine? line = none)
    (hitems : behind.mapM itemOfLine? = some items) :
    Reading.ofLines? (front ++ ([first, second, third, blank, last] ++ behind)) =
      some ⟨counts, total, items⟩ := by
  have hreverse : (front ++ ([first, second, third, blank, last] ++ behind)).reverse =
      behind.reverse ++ last :: blank :: third :: second :: first :: front.reverse := by
    simp
  have hnone : ∀ line ∈ behind.reverse, (totalOfLine? line).isNone = true := by
    simpa using hbehind
  have hsome : (totalOfLine? last).isNone = false := by
    rw [hlast]
    rfl
  have hdrop : (front ++ ([first, second, third, blank, last] ++ behind)).rdropWhile
      (fun line => (totalOfLine? line).isNone) =
        (last :: blank :: third :: second :: first :: front.reverse).reverse := by
    rw [List.rdropWhile, hreverse, List.dropWhile_append_of_pos hnone, List.dropWhile_cons_of_neg (by simp [hsome])]
  have htake : (front ++ ([first, second, third, blank, last] ++ behind)).rtakeWhile
      (fun line => (totalOfLine? line).isNone) = behind := by
    rw [List.rtakeWhile, hreverse, List.takeWhile_append_of_pos hnone,
      List.takeWhile_cons_of_neg (by simp [hsome]), List.append_nil, List.reverse_reverse]
  simp only [Reading.ofLines?, hdrop, List.reverse_reverse, htake, hlast, hcounts, hitems]
  rfl

/-- What is shown is in the report. -/
theorem mem_of_mem_shownEntries {report : Report} {limit : Option Int} {entry : Entry}
    (h : entry ∈ shownEntries report limit) : entry ∈ report.entries := by
  unfold shownEntries at h
  split at h
  · exact h
  · split at h <;> exact List.mem_of_mem_take h

/-- The lines of entries are those of the items. -/
theorem entryLines_eq (report : Report) (limit : Option Int) :
    entryLines report limit true =
      (itemsOf report limit).map (Item.line (addressWidth (shownEntries report limit))) := by
  simp only [entryLines, itemsOf]
  split
  · rfl
  · split <;> simp [Item.line, Function.comp_def]

/-- Entries on one line each are shown as items. -/
theorem isShown_of_mem_itemsOf {report : Report} {limit : Option Int}
    (hreport : ∀ entry ∈ report.entries, IsOneLine entry) :
    ∀ item ∈ itemsOf report limit, item.IsShown := by
  intro item hitem
  cases item with
  | entry entry =>
    have hshown : entry ∈ shownEntries report limit := by
      simp only [itemsOf] at hitem
      split at hitem
      · simp at hitem
      · split at hitem <;> simpa using hitem
    exact hreport entry (mem_of_mem_shownEntries hshown)
  | more hidden => trivial
  | nothing => trivial

/-- The texts above the counts, which may have newlines. -/
def headTexts (heading : Heading) : List String :=
  ["[*] File: " ++ heading.path,
    "[*] Format: " ++ heading.format ++ s!"   Min Length: {heading.minLength}"] ++
  heading.warnings.map ("[!] " ++ ·)

/-- The texts of a table that is printed in full. -/
theorem table_eq (heading : Heading) (hverbose : heading.verbose = true) (report : Report) :
    table heading report = headTexts heading ++ (["\n--- Strings per Section ---"] ++
      Label.declared.map (fun label => countLine label (report.countOf label)) ++
      ["\n" ++ totalLine report.count] ++ (itemsOf report heading.limit).map
        (Item.line (addressWidth (shownEntries report heading.limit)))) := by
  have htotal : s!"\n--- Strings ({report.count} total) ---" = "\n" ++ totalLine report.count := by
    apply String.toList_inj.1
    simp [totalLine, toString]
  rw [← entryLines_eq, ← hverbose, ← htotal]
  simp [table, headTexts, countLines, countLine]

/-- Texts without line breaks are the lines. -/
theorem flatMap_splitOn_eq_map (texts : List String) (h : ∀ text ∈ texts, '\n' ∉ text.toList) :
    (texts.flatMap fun text => text.toList.splitOn '\n') = texts.map String.toList := by
  rw [List.map_eq_flatMap]
  exact List.flatMap_congr fun text htext => splitOn_eq_singleton (h text htext)

/-- The lines of a table.  Those above the counts may be any. -/
theorem linesOf_table (heading : Heading) (hverbose : heading.verbose = true) {report : Report}
    (hreport : ∀ entry ∈ report.entries, IsOneLine entry) :
    ∃ front width, linesOf (Console.lines .utf8 (table heading report)) =
      front ++ (Label.declared.map (fun label => (countLine label (report.countOf label)).toList) ++
        [[], (totalLine report.count).toList] ++
        (itemsOf report heading.limit).map fun item => (item.line width).toList) := by
  have hshown : ∀ item ∈ itemsOf report heading.limit, item.IsShown := isShown_of_mem_itemsOf hreport
  have htitle : "\n--- Strings per Section ---".toList.splitOn '\n' =
      [[], "--- Strings per Section ---".toList] := by
    decide +kernel
  have htotal : ("\n" ++ totalLine report.count).toList.splitOn '\n' =
      [[], (totalLine report.count).toList] := by
    have hlist : ("\n" ++ totalLine report.count).toList = [] ++ '\n' :: (totalLine report.count).toList := by
      simp
    rw [hlist, splitOn_append_newline, splitOn_eq_singleton (newline_notMem_totalLine _)]
    rfl
  have hcounts := flatMap_splitOn_eq_map
    (Label.declared.map fun label => countLine label (report.countOf label)) <| by
      rw [List.forall_mem_map]
      exact fun label hlabel => newline_notMem_countLine (isColumnLabel_of_mem_declared hlabel) _
  have hitems := flatMap_splitOn_eq_map ((itemsOf report heading.limit).map
    (Item.line (addressWidth (shownEntries report heading.limit)))) <| by
      rw [List.forall_mem_map]
      exact fun item hitem => Item.newline_notMem_line _ (hshown item hitem)
  refine ⟨((headTexts heading).flatMap fun text => text.toList.splitOn '\n') ++
    [[], "--- Strings per Section ---".toList], addressWidth (shownEntries report heading.limit), ?_⟩
  rw [linesOf_lines, table_eq heading hverbose]
  simp only [List.flatMap_append, List.flatMap_singleton, hcounts, hitems, htitle, htotal, List.map_map,
    List.append_assoc]
  rfl

/-- A table is read back: the counts of the sections, the total, and one line after the other behind it,
if each entry takes one line. -/
theorem read_table (heading : Heading) (hverbose : heading.verbose = true) {report : Report}
    (hreport : ∀ entry ∈ report.entries, IsOneLine entry) :
    read (Console.lines .utf8 (table heading report)) =
      some ⟨Label.declared.map fun label => (label, report.countOf label), report.count,
        itemsOf report heading.limit⟩ := by
  have hshown : ∀ item ∈ itemsOf report heading.limit, item.IsShown := isShown_of_mem_itemsOf hreport
  obtain ⟨front, width, hlines⟩ := linesOf_table heading hverbose hreport
  rw [read, hlines]
  refine ofLines?_eq (totalOfLine?_totalLine report.count) ?_ ?_ ?_
  · exact mapM_eq_some fun label hlabel =>
      countOfLine?_countLine (isColumnLabel_of_mem_declared hlabel) _
  · rw [List.forall_mem_map]
    exact fun item hitem => Item.totalOfLine?_line width (hshown item hitem)
  · rw [List.mapM_map]
    have hitems := mapM_eq_some fun item hitem => Item.itemOfLine?_line width (hshown item hitem)
    simpa [Function.comp_def] using hitems

end BinaryStrings.Listing
