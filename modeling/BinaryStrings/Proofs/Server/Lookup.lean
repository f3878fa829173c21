import BinaryStrings.Proofs.Image.Addresses
import BinaryStrings.Proofs.Numeral.Hexadecimal
import BinaryStrings.Proofs.Report.Determined
import BinaryStrings.Proofs.Server.Detection

/-!
# Looking up addresses

The search for an address stops at the first entry that starts behind it.  It misses nothing, since the
entries of a report are in ascending order of their addresses.  What it finds is the first entry of
the report that reaches over the address.

Strings may overlap: an ASCII run may be a part of a UTF-8 run, and sections may lie over each other.
So an entry that starts at an address is hidden by one that starts before and reaches over it.

Main results:

- Theorem `find?_eq`: the search finds the first entry that covers the address.
- Theorem `answer_first`: the answer about an address, whatever is in the cache.
- Theorem `answer_listed`: the answer about the address of an entry that a page shows.
-/

namespace BinaryStrings.Server.Lookup

variable {found : List Entry} {report : Report} {address : Int} {entry other : Entry}

/-! ## The search -/

theorem size_eq (entry : Entry) : size entry = (Utf8.encode entry.value.toList).length :=
  (Utf8.length_encode _).symm

/-- The search finds the first entry that covers the address, although it may end before the last entry. -/
theorem find?_eq {entries : List Entry} (h : entries.Pairwise fun a b => a.address ≤ b.address)
    (address : Int) :
    find? address entries = entries.find? fun entry => decide (entry.Covers address) := by
  induction entries with
  | nil => rfl
  | cons entry rest ih =>
    obtain ⟨hbehind, hrest⟩ := List.pairwise_cons.1 h
    have hcovers : entry.Covers address ↔
        ¬ address < entry.address ∧ address < entry.address + size entry := by
      rw [size_eq, Entry.Covers, Int.not_lt]
    rw [find?, List.find?_cons]
    by_cases hbefore : address < entry.address
    · -- All entries that are left out start behind the address.
      have hnone : rest.find? (fun other => decide (other.Covers address)) = none := by
        refine List.find?_eq_none.2 fun other hother => ?_
        have hle := hbehind other hother
        rw [decide_eq_true_eq]
        rintro ⟨hstart, -⟩
        omega
      simp [hbefore, hcovers, hnone]
    · by_cases hwithin : address < entry.address + size entry
      · simp [hbefore, hwithin, hcovers]
      · simp [hbefore, hwithin, hcovers, ih hrest]

/-- An entry is the first one of a report that covers an address. -/
structure IsFirstOver (found : List Entry) (report : Report) (address : Int) (entry : Entry) :
    Prop where
  covers : entry.Covers address
  /-- No entry in front of it covers the address. -/
  first : ∃ before behind, report.entries = before ++ entry :: behind ∧
    ∀ other ∈ before, ¬ other.Covers address
  /-- Of the entries that cover the address it is the lowest one, and of the lowest ones it was found
  first. -/
  lowest : ∀ other ∈ report.entries, other.Covers address →
    other = entry ∨ Report.ComesBefore found entry other

namespace IsFirstOver

theorem mem (h : IsFirstOver found report address entry) : entry ∈ report.entries := by
  obtain ⟨before, behind, hentries, -⟩ := h.first
  rw [hentries]
  simp

/-- No entry that covers the address starts before it. -/
theorem address_le (h : IsFirstOver found report address entry) (hother : other ∈ report.entries)
    (hcovers : other.Covers address) : entry.address ≤ other.address := by
  rcases h.lowest other hother hcovers with rfl | hbehind
  · exact Int.le_refl _
  · exact hbehind.address_le

/-- The first entry over the address of an entry starts there exactly if no other one reaches over it
from before. -/
theorem address_eq_iff {first : Entry} (h : IsFirstOver found report entry.address first)
    (hentry : entry ∈ report.entries) (hcovers : entry.Covers entry.address) :
    first.address = entry.address ↔
      ∀ other ∈ report.entries, other.Covers entry.address → entry.address ≤ other.address := by
  constructor
  · intro heq other hother hover
    rw [← heq]
    exact h.address_le hother hover
  · intro hnone
    exact Int.le_antisymm (h.address_le hentry hcovers) (hnone first h.mem h.covers)

end IsFirstOver

/-- The first entry that the search meets is the first one in the order of the report. -/
theorem isFirstOver_of_find? (h : Report.IsReportOf found report)
    (hfind : find? address report.entries = some entry) :
    IsFirstOver found report address entry := by
  rw [find?_eq h.sorted, List.find?_eq_some_iff_append] at hfind
  obtain ⟨hcovers, before, behind, hentries, hbefore⟩ := hfind
  have hnone : ∀ other ∈ before, ¬ other.Covers address := fun other hother => by
    simpa using hbefore other hother
  refine ⟨of_decide_eq_true hcovers, ⟨before, behind, hentries, hnone⟩, fun other hother hover => ?_⟩
  have hordered := h.ordered
  rw [hentries] at hother hordered
  rcases List.mem_append.1 hother with hfront | hrest
  · exact absurd hover (hnone other hfront)
  · rcases List.mem_cons.1 hrest with rfl | hlater
    · exact .inl rfl
    · exact .inr ((List.pairwise_cons.1 (List.pairwise_append.1 hordered).2.1).1 other hlater)

theorem find?_eq_none_iff (h : Report.IsReportOf found report) :
    find? address report.entries = none ↔ ∀ entry ∈ report.entries, ¬ entry.Covers address := by
  rw [find?_eq h.sorted, List.find?_eq_none]
  simp

/-! ## The answer -/

/-- What is answered when an entry covers the address. -/
def foundMembers (entry : Entry) (address : Int) : Json.Members :=
  [("found", .bool true), ("string", entry.toJson),
    ("offset_in_string", .int (address - entry.address))]

/-- What is answered when no entry does. -/
def missingMembers (address : Int) : Json.Members :=
  [("found", .bool false), ("address", .str (Text.hexNumber address))]

/-- An answer says that an entry was found. -/
def IsFound (members : Json.Members) : Prop :=
  members.get? "found" = some (.bool true)

theorem isFound_foundMembers (entry : Entry) (address : Int) : IsFound (foundMembers entry address) :=
  rfl

theorem not_isFound_missingMembers (address : Int) : ¬ IsFound (missingMembers address) := by
  simp [IsFound, missingMembers, Json.Members.get?]

/-- The answer tells the first entry that covers the address, if there is one. -/
theorem answer_cases (h : Report.IsReportOf found report) (address : Int) :
    (∃ entry, IsFirstOver found report address entry ∧
        answer report address = .obj (foundMembers entry address)) ∨
      (∀ entry ∈ report.entries, ¬ entry.Covers address) ∧
        answer report address = .obj (missingMembers address) := by
  unfold answer
  cases hfind : find? address report.entries with
  | some entry => exact .inl ⟨entry, isFirstOver_of_find? h hfind, rfl⟩
  | none => exact .inr ⟨(find?_eq_none_iff h).1 hfind, rfl⟩

/-- A report of a source is the report of what is found in it. -/
theorem isReportOf_report (source : Source) (minLength : Int) :
    Report.IsReportOf (source.found minLength) (source.report minLength) :=
  Report.isReportOf_ofFindings _

/-! ## Calls -/

/-- What the arguments of a call about an address say. -/
structure Arguments where
  address : Nat
  path : Json
  minLength : Option GivenNumber
  mode : Option String

namespace Arguments

/-- The arguments of a call are accepted. -/
def IsGivenBy (arguments : Arguments) (given : Json.Members) : Prop :=
  ∃ address minLength mode,
    Tool.lookup.values given = .ok [address, arguments.path, minLength, mode] ∧
      Argument.address address = .ok arguments.address ∧
      Argument.minLength minLength = .ok arguments.minLength ∧
      Argument.mode mode = .ok arguments.mode

/-- What the call asks for when its path is accepted. -/
def inquiry (arguments : Arguments) (target : String) : Inquiry :=
  ⟨target, arguments.mode, arguments.minLength, fun report =>
    .ok (answer report arguments.address)⟩

/-- What the report depends on. -/
def key (host : Host) (server : Session) (arguments : Arguments) (target : String) : ReportKey :=
  (arguments.inquiry target).key host server

/-- The file as it is opened for the call. -/
def opened (host : Host) (server : Session) (arguments : Arguments) (target : String) :
    Except OpenError Source :=
  let key := arguments.key host server target
  (OpenFile.openSource host.tree host.readers target key.mode key.rawBase).2

end Arguments

variable {host : Host} {server session : Session} {target : String} {arguments : Arguments}
  {given : Json.Members}

/-- A call about an address asks for a report once its arguments and its path are accepted. -/
theorem Arguments.IsGivenBy.course_eq (hgiven : arguments.IsGivenBy given)
    (htarget : targetOf host server arguments.path = .ok target) :
    Tool.lookup.course host server given = .asks (arguments.inquiry target) := by
  obtain ⟨address, minLength, mode, hvalues, haddress, hminLength, hmode⟩ := hgiven
  rw [Tool.course, hvalues]
  simp only [Course.require, Tool.courseWith, course, haddress, hminLength, hmode, courseOf, htarget]
  rfl

/-- The answer to a call about an address, whatever is in the cache. -/
theorem run_call (hgiven : arguments.IsGivenBy given)
    (hsession : Page.IsSoundFor host server target session)
    (htarget : targetOf host server arguments.path = .ok target)
    (hreport : (arguments.inquiry target).fresh host server = .ok report) :
    (Call.run session (Tool.lookup.call host given)).1 = .ok (answer report arguments.address) := by
  rw [hsession.run_call (hgiven.course_eq htarget) rfl, hreport]
  rfl

/-! ## A greeting -/

/-- A greeting in UTF-8 that has a long part in ASCII. -/
def greetingBytes : Bytes := Utf8.encode "Grüße aus Köln".toList

/-- The whole greeting. -/
def greeting : Entry := ⟨"Grüße aus Köln", 0, ".text"⟩

/-- Its part in ASCII, which starts behind six bytes. -/
def greetingPart : Entry := ⟨"e aus K", 6, ".text"⟩

/-- A host with the greeting as a file. -/
def greetingHost : Host :=
  ⟨⟨["srv"], [(["srv"], .directory), (["srv", "blob"], .file greetingBytes)]⟩, .all, .usual⟩

theorem targetOf_greeting : targetOf greetingHost .initial (.str "blob") = .ok "blob" :=
  eq_ok_of_toOption (by decide +kernel)

theorem openSource_greeting :
    (OpenFile.openSource greetingHost.tree greetingHost.readers "blob" "raw" 0).2 =
      .ok (Blob.source 0 greetingBytes) :=
  rfl

theorem report_greeting : (Blob.source 0 greetingBytes).report 4 = ⟨[greeting, greetingPart]⟩ := by
  have hfound : (Blob.source 0 greetingBytes).found 4 = [greetingPart, greeting] := by
    decide +kernel
  refine (isReportOf_report _ 4).eq ?_
  rw [hfound]
  exact ⟨by decide, by decide, by decide, rfl⟩

theorem freshReport_greeting :
    (freshReport greetingHost "blob" "raw" 0 4).2 = .ok ⟨[greeting, greetingPart]⟩ := by
  rw [freshReport_eq (by decide), openSource_greeting, ← report_greeting, reportFrom,
    Blob.failure?_source]

theorem hasSameFile_greeting : Page.HasSameFile greetingHost "blob" greetingHost.tree where
  current := .of_directory (by decide) rfl
  realPath_eq := rfl
  fileAt?_eq := rfl

/-- The arguments by name of a call for the strings of the greeting. -/
def greetingGiven : Json.Members := [("file_path", .str "blob"), ("mode", .str "raw")]

/-- What they say. -/
def greetingAsked : Page.Arguments :=
  ⟨.str "blob", none, some "raw", [], ⟨200, false⟩, ⟨0, false⟩⟩

theorem isGivenBy_greetingAsked : greetingAsked.IsGivenBy greetingGiven :=
  ⟨.null, .str "raw", .null, .int 200, .int 0, rfl, rfl, rfl, rfl, rfl, rfl⟩

/-- The arguments by name of a call about an address in the file. -/
def givenOver (address : String) : Json.Members := ("address", .str address) :: greetingGiven

/-- What they say if the address can be read. -/
theorem isGivenBy_givenOver {text : String} {address : Nat}
    (haddress : Argument.address (.str text) = .ok address) :
    (⟨address, .str "blob", none, some "raw"⟩ : Arguments).IsGivenBy (givenOver text) :=
  ⟨.str text, .null, .str "raw", rfl, haddress, rfl, rfl⟩

/-- The session behind a call for the strings of the greeting. -/
def behindPage : Session :=
  [(greetingHost.tree, Tool.page, greetingGiven)].foldl (Page.behind greetingHost)
    (Session.initial.withCache .empty)

theorem isSoundFor_behindPage : Page.IsSoundFor greetingHost .initial "blob" behindPage :=
  (Page.IsSoundFor.start greetingHost .initial "blob").foldl_behind
    (isFile_of_targetOf targetOf_greeting)
    (List.forall_mem_singleton.2 hasSameFile_greeting)

/-- The page of the greeting lists the whole and its part. -/
theorem run_page_greeting :
    (Call.run (Session.initial.withCache .empty) (Tool.page.call greetingHost greetingGiven)).1 =
      .ok (.obj [("file", .str "blob"),
        ("strings", .arr [greeting.toJson, greetingPart.toJson]), ("count", .int 2),
        ("pagination_info", .obj [("offset", .int 0), ("limit", .int 200), ("returned", .int 2),
          ("has_more", .bool false)])]) := by
  have hfresh : (greetingAsked.inquiry "blob").fresh greetingHost .initial =
      .ok ⟨[greeting, greetingPart]⟩ := freshReport_greeting
  rw [(Page.IsSoundFor.start greetingHost .initial "blob").run_call
    (isGivenBy_greetingAsked.course_eq targetOf_greeting) rfl, hfresh]
  change Except.ok (SizeGuard.respond Page.toolName Page.advice _).value = _
  rw [SizeGuard.respond, if_pos (by decide +kernel)]
  rfl

/-! ## Answers -/

/-- A call about an address, after any calls that leave the file as it is.  It is answered as found
exactly if an entry of the report covers the address; then the first one is told, and how far in its
bytes the address lies.  The byte of the section there is that of its text. -/
theorem answer_first (host : Host) (server : Session) (target : String) (arguments : Arguments)
    (given : Json.Members) (report : Report) (hgiven : arguments.IsGivenBy given)
    (htarget : targetOf host server arguments.path = .ok target)
    (hreport : (arguments.inquiry target).fresh host server = .ok report)
    (earlier : List (FileTree × Tool × Json.Members))
    (hearlier : ∀ call ∈ earlier, Page.HasSameFile host target call.1) :
    ∃ source members, arguments.opened host server target = .ok source ∧
      report = source.report (arguments.key host server target).minLength ∧
      (Call.run (earlier.foldl (Page.behind host) (server.withCache .empty))
        (Tool.lookup.call host given)).1 = .ok (.obj members) ∧
      (IsFound members ↔ ∃ entry ∈ report.entries, entry.Covers arguments.address) ∧
      ((∃ entry, members = foundMembers entry arguments.address ∧
          IsFirstOver (source.found (arguments.key host server target).minLength) report
            arguments.address entry ∧
          source.HasByteOf entry arguments.address) ∨
        members = missingMembers arguments.address) := by
  obtain ⟨source, hopened, rfl⟩ := exists_source_of_freshReport hreport
  have hsession := (Page.IsSoundFor.start host server target).foldl_behind
    (isFile_of_targetOf htarget) hearlier
  have hrun := run_call hgiven hsession htarget hreport
  refine ⟨source, ?_⟩
  rcases answer_cases (isReportOf_report source _) arguments.address with
    ⟨entry, hfirst, hanswer⟩ | ⟨hnone, hanswer⟩
  · rw [hanswer] at hrun
    refine ⟨foundMembers entry arguments.address, hopened, rfl, hrun, ?_, .inl ⟨entry, rfl, hfirst, ?_⟩⟩
    · exact iff_of_true (isFound_foundMembers _ _) ⟨entry, hfirst.mem, hfirst.covers⟩
    · exact Source.hasByteOf_of_covers hfirst.mem hfirst.covers
  · rw [hanswer] at hrun
    refine ⟨missingMembers arguments.address, hopened, rfl, hrun, ?_, .inr rfl⟩
    refine iff_of_false (not_isFound_missingMembers _) ?_
    rintro ⟨entry, hentry, hcovers⟩
    exact hnone entry hentry hcovers

/-- Behind a page of the greeting, the byte at address 6 is told to lie six bytes behind the start of
the whole greeting. -/
theorem answer_first_greeting :
    Argument.address (.str "0x6") = .ok 6 ∧
      (Call.run behindPage (Tool.lookup.call greetingHost (givenOver "0x6"))).1 =
        .ok (.obj (foundMembers greeting 6)) ∧
      (Blob.source 0 greetingBytes).HasByteOf greeting 6 := by
  have haddress : Argument.address (.str "0x6") = .ok 6 := eq_ok_of_toOption (by decide +kernel)
  obtain ⟨source, members, hopened, -, hrun, hfound, htold⟩ := answer_first greetingHost .initial
    "blob" ⟨6, .str "blob", none, some "raw"⟩ (givenOver "0x6") ⟨[greeting, greetingPart]⟩
    (isGivenBy_givenOver haddress) targetOf_greeting freshReport_greeting
    [(greetingHost.tree, Tool.page, greetingGiven)]
    (List.forall_mem_singleton.2 hasSameFile_greeting)
  cases Except.ok.inj (openSource_greeting.symm.trans hopened)
  rcases htold with ⟨entry, rfl, hfirst, hbyte⟩ | rfl
  · -- The whole greeting covers the address too, and starts before the part.
    have hle : entry.address ≤ 0 := hfirst.address_le List.mem_cons_self (by decide)
    have hentry : entry = greeting ∨ entry = greetingPart := by simpa using hfirst.mem
    rcases hentry with rfl | rfl
    · exact ⟨haddress, hrun, hbyte⟩
    · exact absurd hle (by decide)
  · exact absurd (hfound.2 ⟨greeting, List.mem_cons_self, by decide⟩) (not_isFound_missingMembers _)

/-! ## Addresses of entries -/

/-- The call about an address of the file of a page. -/
def Arguments.ofPage (asked : Page.Arguments) (address : Nat) : Arguments :=
  ⟨address, asked.path, asked.minLength, asked.mode⟩

/-- It asks for the report that the page is of. -/
theorem fresh_ofPage (host : Host) (server : Session) (target : String) (asked : Page.Arguments)
    (address : Nat) : ((Arguments.ofPage asked address).inquiry target).fresh host server =
      (asked.inquiry target).fresh host server := by
  simp only [Inquiry.fresh, Inquiry.key, Arguments.inquiry, Page.Arguments.inquiry, Arguments.ofPage]

/-- The arguments by name of a call about an address in hexadecimal. -/
def givenHex (address : Int) (path minLength mode : Json) : Json.Members :=
  [("address", .str (Text.hexNumber address)), ("file_path", path), ("min_length", minLength),
    ("mode", mode)]

/-- The call can be given by the arguments of the page and the address in hexadecimal. -/
theorem exists_isGivenBy_ofPage {asked : Page.Arguments} (hasked : asked.IsGivenBy given)
    (address : Nat) : ∃ minLength mode, (Arguments.ofPage asked address).IsGivenBy
      (givenHex address asked.path minLength mode) := by
  obtain ⟨minLength, mode, _, _, _, _, hminLength, hmode, _⟩ := hasked
  refine ⟨minLength, mode, .str (Text.hexNumber address), minLength, mode, rfl, ?_, hminLength, hmode⟩
  rw [Argument.address, readAddress_hexNumber]
  rfl

/-- An entry that a page shows is one of the report. -/
theorem exists_report_of_shown {asked : Page.Arguments} (hgiven : asked.IsGivenBy given)
    (hsession : Page.IsSoundFor host server target session)
    (htarget : targetOf host server asked.path = .ok target) {members : Json.Members}
    (hpage : (Call.run session (Tool.page.call host given)).1 = .ok (.obj members))
    {items : List Json} (hitems : members.get? "strings" = some (.arr items))
    (hshown : entry.toJson ∈ items) :
    ∃ report, (asked.inquiry target).fresh host server = .ok report ∧ entry ∈ report.entries := by
  rw [hsession.run_call (hgiven.course_eq htarget) rfl, bind_eq_ok_iff] at hpage
  obtain ⟨report, hreport, hanswer⟩ := hpage
  refine ⟨report, hreport, ?_⟩
  obtain ⟨sent, hsent, -, -, hfirst⟩ :=
    Page.exists_sent target (report.inSections asked.labels) asked.offset asked.limit
  have hmembers : sent = members := by
    have heq : (SizeGuard.respond Page.toolName Page.advice (asked.pageOf target report)).value =
        .obj members := Except.ok.inj hanswer
    rw [Page.Arguments.pageOf, hsent] at heq
    exact Json.obj.inj heq
  rw [hmembers] at hfirst
  obtain ⟨listed, hlisted, heq⟩ := List.mem_map.1 ((hfirst items hitems).subset hshown)
  rw [← Entry.toJson_inj.1 heq]
  exact (report.inSections_sublist asked.labels).subset
    (List.drop_subset _ _ (List.take_subset _ _ hlisted))

/-- If the sections of executables have natural addresses, the address of an entry that a page shows is a
natural number, and can be asked for.  Every call
about it with the same path, mode and least length is answered as found.  What is told is the first entry
that covers the address.  It starts at the address exactly if no entry that starts before reaches over
it; an entry of the same section that does so has the one that was shown within itself. -/
theorem answer_listed (host : Host) (server : Session) (target : String) (asked : Page.Arguments)
    (askedBy : Json.Members) (haddressed : host.readers.AreAddressed)
    (hasked : asked.IsGivenBy askedBy)
    (htarget : targetOf host server asked.path = .ok target)
    (earlier later : List (FileTree × Tool × Json.Members))
    (hearlier : ∀ call ∈ earlier, Page.HasSameFile host target call.1)
    (hlater : ∀ call ∈ later, Page.HasSameFile host target call.1) (members : Json.Members)
    (hpage : (Call.run (earlier.foldl (Page.behind host) (server.withCache .empty))
      (Tool.page.call host askedBy)).1 = .ok (.obj members))
    (items : List Json) (hitems : members.get? "strings" = some (.arr items)) (entry : Entry)
    (hshown : entry.toJson ∈ items) :
    ∃ (source : Source) (address : Nat), asked.opened host server target = .ok source ∧
      entry.address = address ∧
      (∃ minLength mode, (Arguments.ofPage asked address).IsGivenBy
        (givenHex entry.address asked.path minLength mode)) ∧
      ∀ given, (Arguments.ofPage asked address).IsGivenBy given →
        let minLength := (asked.key host server target).minLength
        let report := source.report minLength
        ∃ first, (Call.run (later.foldl (Page.behind host) (server.withCache .empty))
            (Tool.lookup.call host given)).1 = .ok (.obj (foundMembers first entry.address)) ∧
          IsFirstOver (source.found minLength) report entry.address first ∧
          (first.address = entry.address ↔ ∀ other ∈ report.entries,
            other.Covers entry.address → entry.address ≤ other.address) ∧
          (first.address < entry.address → first.label = entry.label →
            source.HasWithin minLength entry first) := by
  have hstart := Page.IsSoundFor.start host server target
  have hfile := isFile_of_targetOf htarget
  obtain ⟨report, hreport, hentry⟩ := exists_report_of_shown hasked
    (hstart.foldl_behind hfile hearlier) htarget hpage hitems hshown
  obtain ⟨source, hopened, rfl⟩ := exists_source_of_freshReport hreport
  have hcovers := Source.covers_address hentry
  obtain ⟨address, haddress⟩ := Int.eq_ofNat_of_zero_le
    ((haddressed.openSource hopened).address_nonneg hentry)
  refine ⟨source, address, hopened, haddress, ?_, fun given hgiven => ?_⟩
  · rw [haddress]
    exact exists_isGivenBy_ofPage hasked address
  · rw [← fresh_ofPage host server target asked address] at hreport
    have hrun : (Call.run (later.foldl (Page.behind host) (server.withCache .empty))
        (Tool.lookup.call host given)).1 = .ok (answer _ address) :=
      run_call hgiven (hstart.foldl_behind hfile hlater) htarget hreport
    rw [← haddress] at hrun
    rcases answer_cases (isReportOf_report source _) entry.address with
      ⟨first, hfirst, hanswer⟩ | ⟨hnone, -⟩
    · rw [hanswer] at hrun
      refine ⟨first, hrun, hfirst, hfirst.address_eq_iff hentry hcovers, fun hbefore hlabel => ?_⟩
      exact Source.hasWithin_of_covers hentry hfirst.mem hlabel hbefore hfirst.covers
    · exact absurd hcovers (hnone entry hentry)

/-- The address of the whole greeting is answered by the greeting itself. -/
theorem answer_listed_greeting :
    greeting.address = 0 ∧ (Call.run behindPage (Tool.lookup.call greetingHost (givenOver "0x0"))).1 =
      .ok (.obj (foundMembers greeting 0)) := by
  have haddress : Argument.address (.str "0x0") = .ok 0 := eq_ok_of_toOption (by decide +kernel)
  obtain ⟨source, address, hopened, hzero, -, hanswer⟩ := answer_listed greetingHost .initial "blob"
    greetingAsked greetingGiven (Readers.areAddressed_plain true true) isGivenBy_greetingAsked
    targetOf_greeting []
    [(greetingHost.tree, Tool.page, greetingGiven)] (by simp)
    (List.forall_mem_singleton.2 hasSameFile_greeting) _ run_page_greeting _ rfl greeting
    List.mem_cons_self
  cases Except.ok.inj (openSource_greeting.symm.trans hopened)
  obtain rfl : address = 0 := Int.ofNat_inj.1 hzero.symm
  obtain ⟨first, hrun, hfirst, -, -⟩ := hanswer (givenOver "0x0")
    (isGivenBy_givenOver haddress)
  have hmem : first ∈ ((Blob.source 0 greetingBytes).report 4).entries := hfirst.mem
  rw [report_greeting, List.mem_cons, List.mem_singleton] at hmem
  rcases hmem with rfl | rfl
  · exact ⟨rfl, hrun⟩
  · exact absurd hfirst.covers (by decide)

/-- The part of the greeting is listed with its address, but the answer about this address is the whole
greeting, which starts before and reaches over it. -/
theorem answer_hidden_greeting :
    (∃ (members : Json.Members) (items : List Json),
      (Call.run (Session.initial.withCache .empty) (Tool.page.call greetingHost greetingGiven)).1 =
          .ok (.obj members) ∧
        members.get? "strings" = some (.arr items) ∧ greetingPart.toJson ∈ items) ∧
      greetingPart.address = 6 ∧ Argument.address (.str "0x6") = .ok 6 ∧
      (Call.run behindPage (Tool.lookup.call greetingHost (givenOver "0x6"))).1 =
        .ok (.obj [("found", .bool true), ("string", greeting.toJson), ("offset_in_string", .int 6)]) ∧
      greeting.address ≠ greetingPart.address := by
  have haddress : Argument.address (.str "0x6") = .ok 6 := eq_ok_of_toOption (by decide +kernel)
  refine ⟨⟨_, _, run_page_greeting, rfl, by simp⟩, rfl, haddress, ?_, by decide⟩
  exact run_call (isGivenBy_givenOver haddress) isSoundFor_behindPage targetOf_greeting freshReport_greeting

end BinaryStrings.Server.Lookup
