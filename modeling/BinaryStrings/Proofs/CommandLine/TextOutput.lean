import BinaryStrings.CommandLine.Scan
import BinaryStrings.PlainReader
import BinaryStrings.Proofs.Image.Reports
import BinaryStrings.Proofs.Listing.TableReader
import BinaryStrings.Proofs.Report.SectionCounts
import BinaryStrings.Proofs.Report.Selecting

/-!
# Printed text and printed JSON

A run prints its report as a table or as JSON.  If the table is printed in full, then it says as much:
each entry that is shown has one line, from which it is read back, and these are the entries of the JSON
text of the same run.  No value has a newline, since no character of a run is a control character.

Main results:

- Theorem `Extraction.isNoControl_of_mem`: the characters of the values of a report.
- Theorem `Scan.shown_lossless`: what is read from a printed table.
-/

namespace BinaryStrings

/-! ## Values -/

/-- No run that is reported has a control character. -/
theorem Likely.isNoControl_of_mem_runsOf {data : Bytes} {minLength : Int} {run : Run}
    (h : run ∈ runsOf data minLength) : ∀ c ∈ run.text.toList, Scan.isNoControl c = true := by
  rcases List.mem_append.1 (List.mem_of_mem_filter h) with hascii | hutf8
  · exact fun c hc => Scan.isNoControl_of_isPrintableChar
      ((Scan.isMaximalRun_of_mem_ascii hascii).members c hc)
  · exact (Scan.isMaximalRun_of_mem_utf8 hutf8).members

/-- An entry of an extraction is of one of its sections, and its value has no control character. -/
theorem Extraction.isNoControl_of_mem {source : Source} {minLength workers : Int}
    {labels : List String} {report : Report}
    (hextract : (extract source minLength workers labels).2 = .ok report) {entry : Entry}
    (hentry : entry ∈ report.entries) :
    entry.label ∈ labels ∧ ∀ c ∈ entry.value.toList, Scan.isNoControl c = true := by
  rw [extract_eq] at hextract
  split at hextract
  · cases hextract
  · split at hextract <;> cases hextract
    have hfound := (Report.firsts_sublist _).subset (Report.mem_ofFindings.1 hentry)
    obtain ⟨hlabel, hmem⟩ := Report.mem_findings_of_mem_flatMap (label_of_mem_findings source _) hfound
    obtain ⟨region, -, run, hrun, heq⟩ := mem_findings_iff.1 hmem
    refine ⟨hlabel, ?_⟩
    rw [heq]
    exact Likely.isNoControl_of_mem_runsOf hrun

/-! ## Limits -/

namespace Listing

/-- The entry of an item, if it is one. -/
def Item.entry? : Item → Option Entry
  | .entry found => some found
  | _ => none

/-- The entries that a reader finds. -/
def Reading.entries (reading : Reading) : List Entry :=
  reading.items.filterMap Item.entry?

/-- A table shows the first entries up to its limit. -/
theorem shownEntries_eq {limit : Option Int} (hlimit : ∀ n ∈ limit, 0 ≤ n) (report : Report) :
    shownEntries report limit = (report.first (limit.map Int.toNat)).entries := by
  cases limit with
  | none => rfl
  | some n => exact if_pos (hlimit n rfl)

/-- The items of a table are the entries that are shown, and at most one more. -/
theorem exists_itemsOf_eq (report : Report) (limit : Option Int) :
    ∃ ending : List Item, ending.length ≤ 1 ∧ (∀ entry, .entry entry ∉ ending) ∧
      itemsOf report limit = (shownEntries report limit).map .entry ++ ending := by
  simp only [itemsOf]
  split
  · rename_i hempty
    exact ⟨[.nothing], by simp, by simp, by rw [List.isEmpty_iff.1 hempty]; rfl⟩
  · split
    · exact ⟨_, by simp, by simp, rfl⟩
    · exact ⟨[], by simp, by simp, rfl⟩

theorem filterMap_entry?_itemsOf (report : Report) (limit : Option Int) :
    (itemsOf report limit).filterMap Item.entry? = shownEntries report limit := by
  obtain ⟨ending, -, hending, heq⟩ := exists_itemsOf_eq report limit
  have hnone : ending.filterMap Item.entry? = [] := by
    rw [List.filterMap_eq_nil_iff]
    intro item hitem
    cases item with
    | entry entry => exact absurd hitem (hending entry)
    | more hidden => rfl
    | nothing => rfl
  have hmap : ((shownEntries report limit).map Item.entry).filterMap Item.entry? =
      shownEntries report limit := by
    rw [List.filterMap_map]
    exact List.filterMap_some
  rw [heq, List.filterMap_append, hnone, List.append_nil, hmap]

/-- How many entries a table shows. -/
theorem length_shownEntries {limit : Option Int} (hlimit : ∀ n ∈ limit, 1 ≤ n) (report : Report) :
    (shownEntries report limit).length = report.count ∧ (∀ n ∈ limit, report.count ≤ n) ∨
      ∃ n ∈ limit, ((shownEntries report limit).length : Int) = n ∧ n < report.count := by
  rw [shownEntries_eq fun n hn => Int.le_trans (by decide) (hlimit n hn)]
  cases limit with
  | none => exact .inl ⟨rfl, nofun⟩
  | some n =>
    have hn : 1 ≤ n := hlimit n rfl
    simp only [Option.map_some, Report.first, List.length_take, Report.count, Option.mem_some_iff,
      forall_eq', exists_eq_left']
    omega

/-- The line about more entries is there if some are not shown, and tells how many. -/
theorem more_mem_itemsOf_iff {report : Report} {limit : Option Int} (hlimit : ∀ n ∈ limit, 1 ≤ n)
    {hidden : Nat} : .more hidden ∈ itemsOf report limit ↔
      0 < hidden ∧ (shownEntries report limit).length + hidden = report.count := by
  have hmap : Item.more hidden ∉ (shownEntries report limit).map Item.entry := by simp
  have hlength := length_shownEntries hlimit report
  have hpos : ∀ n ∈ limit, 0 < n := fun n hn => hlimit n hn
  simp only [itemsOf]
  split
  · rename_i hempty
    have hnone : (shownEntries report limit).length = 0 := by rw [List.isEmpty_iff.1 hempty]; rfl
    have hcount : report.count = 0 := by
      rcases hlength with ⟨hall, -⟩ | ⟨n, hn, hshown, -⟩
      · omega
      · have := hpos n hn
        omega
    rw [List.mem_singleton]
    constructor
    · intro hmore
      cases hmore
    · omega
  · rw [List.mem_append]
    simp only [hmap, false_or]
    split
    · rw [List.mem_singleton, Item.more.injEq]
      omega
    · rw [List.mem_nil_iff, false_iff]
      omega

end Listing

/-! ## Runs -/

namespace CommandLine.Scan

/-- A table says the same as the JSON text of the report that is printed with the same limit. -/
structure AgreesWithJson (reading : Listing.Reading) (chosen : Report) (limit : Option Int)
    (json : String) : Prop where
  /-- One line after the other behind the total is an entry; only the last line can be none. -/
  items_eq : ∃ ending : List Listing.Item, ending.length ≤ 1 ∧ (∀ entry, .entry entry ∉ ending) ∧
    reading.items = reading.entries.map .entry ++ ending
  /-- The JSON text is that of the entries that are read. -/
  json_eq : json = Console.line .utf8 (Listing.json (some 2) ⟨reading.entries⟩)
  /-- It is read back, unless a number has too many digits to be written. -/
  json_read : (Report.mk reading.entries).IsShowable →
    Json.read json.toList = .ok (Report.toJson ⟨reading.entries⟩)
  total_eq : reading.total = chosen.count
  /-- There is a count for every section, and they add up to the total. -/
  counts_eq : reading.counts = Label.declared.map fun label => (label, chosen.countOf label)
  sum_counts : (reading.counts.map Prod.snd).sum = reading.total
  /-- The line about more entries is there exactly if the limit hides some. -/
  more_iff : (∃ hidden, .more hidden ∈ reading.items) ↔ ∃ n ∈ limit, n < reading.total
  /-- It tells how many. -/
  more_eq : ∀ hidden, .more hidden ∈ reading.items → reading.entries.length + hidden = reading.total

/-- What a reader finds in a table agrees with JSON. -/
theorem agreesWithJson {chosen : Report} {limit : Option Int} (hlimit : ∀ n ∈ limit, 1 ≤ n)
    (hdeclared : ∀ entry ∈ chosen.entries, entry.label ∈ Label.declared) :
    AgreesWithJson ⟨Label.declared.map fun label => (label, chosen.countOf label), chosen.count,
        Listing.itemsOf chosen limit⟩ chosen limit
      (Console.line .utf8 (Listing.json (some 2) ⟨Listing.shownEntries chosen limit⟩)) := by
  generalize hreading : (Listing.Reading.mk (Label.declared.map fun label =>
    (label, chosen.countOf label)) chosen.count (Listing.itemsOf chosen limit)) = reading
  have hitems : reading.items = Listing.itemsOf chosen limit := by rw [← hreading]
  have htotal : reading.total = chosen.count := by rw [← hreading]
  have hcounts : reading.counts = Label.declared.map fun label => (label, chosen.countOf label) := by
    rw [← hreading]
  have hentries : reading.entries = Listing.shownEntries chosen limit := by
    rw [Listing.Reading.entries, hitems, Listing.filterMap_entry?_itemsOf]
  refine ⟨?_, ?_, ?_, htotal, hcounts, ?_, ?_, ?_⟩
  · rw [hentries, hitems]
    exact Listing.exists_itemsOf_eq chosen limit
  · rw [hentries]
  · rw [hentries]
    exact fun hshowable => Console.read_line_of_holdsAll hshowable
      (Console.Encoding.holdsAll_iff.2 fun c _ => Console.Encoding.holds_utf8 c)
  · rw [hcounts, htotal, List.map_map]
    exact Report.sum_countOf (by decide) hdeclared
  · rw [hitems, htotal]
    simp only [Listing.more_mem_itemsOf_iff hlimit]
    rcases Listing.length_shownEntries hlimit chosen with ⟨hall, hle⟩ | ⟨n, hn, hshown, hless⟩
    · refine iff_of_false ?_ ?_
      · rintro ⟨hidden, hpos, hsum⟩
        omega
      · rintro ⟨n, hn, hless⟩
        have := hle n hn
        omega
    · exact iff_of_true ⟨chosen.count - (Listing.shownEntries chosen limit).length, by omega⟩
        ⟨n, hn, hless⟩
  · intro hidden hmore
    rw [hitems] at hmore
    rw [hentries, htotal]
    exact ((Listing.more_mem_itemsOf_iff hlimit).1 hmore).2

/-- A table that is printed in full is lossless.  It is read back from its text: its entries are those of
the JSON text of the same run, one on each line; the counts of the sections add up to its total; and it
says how many more there are exactly if its limit hides some.  The report is that of an extraction, or
what any selections leave of it. -/
theorem shown_lossless (surroundings : Surroundings) (hencoding : surroundings.encoding = .utf8)
    (request : Request) (hverbose : request.verbose = true) (hlimit : ∀ n ∈ request.limit, 1 ≤ n)
    (path : String) (source : Source) (minLength workers : Int) {report chosen : Report}
    (hextract : (Extraction.extract source minLength workers Label.declared).2 = .ok report)
    (characters : Unicode.CharacterNames) (selections : List Selection)
    (hselect : report.selectEach characters selections = .ok chosen)
    (hnonneg : ∀ entry ∈ chosen.entries, 0 ≤ entry.address) :
    ∃ reading, Listing.read
        (shown surroundings { request with json := false } path source chosen) = some reading ∧
      AgreesWithJson reading chosen request.limit
        (shown surroundings { request with json := true } path source chosen) := by
  have hone : ∀ entry ∈ chosen.entries, Listing.IsOneLine entry := by
    intro entry hentry
    obtain ⟨hlabel, hvalue⟩ := Extraction.isNoControl_of_mem hextract
      ((Report.sublist_of_selectEach hselect).subset hentry)
    exact ⟨hnonneg entry hentry, Listing.isColumnLabel_of_mem_declared hlabel,
      fun hnewline => absurd (hvalue _ hnewline) (by decide)⟩
  have hdeclared : ∀ entry ∈ chosen.entries, entry.label ∈ Label.declared := fun entry hentry =>
    (Extraction.isNoControl_of_mem hextract
      ((Report.sublist_of_selectEach hselect).subset hentry)).1
  have hread := Listing.read_table (heading { request with json := false } path source) hverbose hone
  have hfirst := Listing.shownEntries_eq (fun n hn => Int.le_trans (by decide) (hlimit n hn)) chosen
  have hjson : shown surroundings { request with json := true } path source chosen =
      Console.line .utf8 (Listing.json (some 2) ⟨Listing.shownEntries chosen request.limit⟩) := by
    rw [hfirst, ← hencoding]
    rfl
  have htext : shown surroundings { request with json := false } path source chosen =
      Console.lines .utf8 (Listing.table (heading { request with json := false } path source) chosen) := by
    rw [← hencoding]
    rfl
  rw [htext, hread, hjson]
  exact ⟨_, rfl, agreesWithJson hlimit hdeclared⟩

/-- A blob with two strings, the second of which looks like a line of the table; one of them is shown, and
the path of the blob looks like a total. -/
theorem shown_lossless_blob :
    let surroundings : Surroundings := ⟨.empty [], .all, .utf8⟩
    let request : Request := { Request.initial .usual with verbose := true, limit := some 1 }
    let path := "/work/blob\n--- Strings (7 total) ---"
    let source := Blob.source 16 (Bytes.ofAscii "hello world" ++ [0] ++
      Bytes.ofAscii "  0x00000000  .text         other text")
    let report : Report := ⟨[⟨"hello world", 16, ".text"⟩,
      ⟨"  0x00000000  .text         other text", 28, ".text"⟩]⟩
    (Extraction.extract source 4 1 Label.declared).2 = .ok report ∧
      report.selectEach .ascii [⟨none, [".text"], none, false⟩] = .ok report ∧
      ∃ reading, Listing.read
          (shown surroundings { request with json := false } path source report) = some reading ∧
        AgreesWithJson reading report (some 1)
          (shown surroundings { request with json := true } path source report) := by
  intro surroundings request path source report
  have hsorted : Report.ofFindings report.entries = report :=
    Report.ofFindings_eq_self (by decide) (by decide)
  have hextract : (Extraction.extract source 4 1 Label.declared).2 = .ok report := by
    rw [← hsorted]
    rfl
  have hselect : report.selectEach .ascii [⟨none, [".text"], none, false⟩] = .ok report := rfl
  exact ⟨hextract, hselect, shown_lossless surroundings rfl request rfl (by simp [request]) path source
    4 1 hextract .ascii _ hselect (by decide)⟩

end CommandLine.Scan

end BinaryStrings
