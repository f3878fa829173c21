import BinaryStrings.Proofs.FileTree.Putting
import BinaryStrings.Proofs.Report.Determined
import BinaryStrings.Proofs.Server.FreshAnswers

/-!
# Detection agrees with extraction

One tool describes the sections of a file and another one lists the strings in them.  Both open the
file, the one by the format that it has told from the first bytes and the other one by itself, and what
they say fits together: the same error, or strings within the sections that are described as
available.  An exception that a library raises against expectation ends both.

The description is subject to the size guard.  It has no list that could be cut, so if it is too large
it is replaced by a preview of its text, which describes no section.

Main results:

- Theorem `SizeGuard.respond_of_no_list`: what is sent for an object without lists.
- Theorem `Format.agrees`: the two tools agree, up to the size guard.
-/

namespace BinaryStrings

theorem Entry.toJson_inj {entry other : Entry} : entry.toJson = other.toJson ↔ entry = other := by
  cases entry
  cases other
  simp [Entry.toJson]

end BinaryStrings

namespace BinaryStrings.Server

/-! ## Objects without lists -/

namespace SizeGuard

variable {members : Json.Members}

theorem largestFrom_of_no_list (hlists : ∀ name items, (name, Json.arr items) ∉ members)
    (best : Option (String × List Json)) : largestFrom best members = best := by
  induction members with
  | nil => rfl
  | cons member rest ih =>
    obtain ⟨name, value⟩ := member
    have hrest := ih fun other items hmem => hlists other items (List.mem_cons_of_mem _ hmem)
    cases value with
    | arr items => exact absurd List.mem_cons_self (hlists name items)
    | _ => exact hrest

/-- An object without lists is sent as it is, or as a preview if it is too large. -/
theorem respond_of_no_list (hlists : ∀ name items, (name, Json.arr items) ∉ members)
    (tool : String) (advice : Option String) :
    (respond tool advice (.obj members)).value =
      if (Json.obj members).size ≤ limit then .obj members else preview (.obj members) := by
  simp only [respond]
  split
  · rfl
  · rename_i hlarge
    have hround : shrink advice (Json.obj members).size (.obj members) = none := by
      simp only [shrink, largestList, largestFrom_of_no_list hlists]
    have hrounds : shrinkRounds advice rounds (.obj members) = .obj members := by
      simp only [rounds, shrinkRounds, hround, ite_self]
    simp only [fitted, hrounds, if_pos (Nat.lt_of_not_le hlarge)]

end SizeGuard

namespace Format

/-! ## Descriptions of sections -/

/-- What is said about a section that is available. -/
def available (region : Region) : Json :=
  .obj [("available", .bool true), ("base_address", .str (Text.hexNumber region.base)),
    ("size", .int region.data.length)]

variable {source : Source}

/-- Of a section that does not fail something is said. -/
theorem exists_describe {label : String}
    (hreadable : ∀ raised, source.sectionAt label ≠ .error (.failure raised)) :
    ∃ described, describe (source.sectionAt label) = .ok described := by
  cases hsection : source.sectionAt label with
  | ok region => exact ⟨_, rfl⟩
  | error fault =>
    cases fault with
    | unavailable reason => exact ⟨_, rfl⟩
    | failure raised => exact absurd hsection (hreadable raised)

/-- If none fails, all sections are described, each as it is. -/
theorem exists_describeAll {labels : List String}
    (hreadable : ∀ label ∈ labels, ∀ raised, source.sectionAt label ≠ .error (.failure raised)) :
    ∃ sections : Json.Members, describeAll source labels = .ok sections ∧
      ∀ label ∈ labels, ∃ described, describe (source.sectionAt label) = .ok described ∧
        sections.get? label = some described := by
  induction labels with
  | nil => exact ⟨[], rfl, fun _ h => by cases h⟩
  | cons first rest ih =>
    obtain ⟨hnone, hothers⟩ := List.forall_mem_cons.1 hreadable
    obtain ⟨sections, hsections, hrest⟩ := ih hothers
    obtain ⟨described, hfirst⟩ := exists_describe hnone
    refine ⟨(first, described) :: sections, by simp only [describeAll, hfirst, hsections], ?_⟩
    intro label hlabel
    rw [Json.Members.get?_cons]
    by_cases heq : first = label
    · exact ⟨described, by rw [← heq, hfirst], by rw [if_pos heq]⟩
    · rw [if_neg heq]
      exact hrest label ((List.mem_cons.1 hlabel).resolve_left (Ne.symm heq))

/-- The exception of the first section that fails ends the description. -/
theorem describeAll_of_failure {labels : List String} {raised : Raised}
    (h : labels.findSome? (Extraction.failureAt? source) = some raised) :
    describeAll source labels = .error (.extraction (.failure raised)) := by
  induction labels with
  | nil => cases h
  | cons first rest ih =>
    rw [List.findSome?_cons] at h
    cases hfirst : Extraction.failureAt? source first with
    | some found =>
      rw [hfirst] at h
      cases h
      rw [describeAll, Extraction.failureAt?_eq_some_iff.1 hfirst]
      rfl
    | none =>
      rw [hfirst] at h
      obtain ⟨described, hdescribed⟩ := exists_describe (Extraction.failureAt?_eq_none_iff.1 hfirst)
      simp only [describeAll, hdescribed, ih h]

/-! ## Agreement -/

/-- The sections that are described say where an entry lies: its section is available, and its bytes are
between the base address and the end of the section. -/
def Locates (sections : Json.Members) (entry : Entry) : Prop :=
  ∃ region : Region, sections.get? entry.label = some (available region) ∧ region.Holds entry

/-- The string of an answer lies in a section that is described as available. -/
def IsLocated (described : Json.Members) (item : Json) : Prop :=
  ∃ entry sections, item = Entry.toJson entry ∧
    described.get? "sections" = some (.obj sections) ∧ Locates sections entry

/-- What is said about a file agrees with the answer to a call for its strings. -/
structure Agrees (described : Json.Members) (answer : Except CallError Json) : Prop where
  /-- The answer is an object, or the file is refused. -/
  answered : (∃ members, answer = .ok (.obj members)) ∨
    ∃ error, answer = .error error ∧ error.isRefusal = true
  /-- An error is told exactly if the file is refused, in the same words. -/
  error_iff : ∀ told, described.get? "error" = some told ↔
    ∃ error, answer = .error error ∧ error.isRefusal = true ∧ told = .str error.message
  /-- Every string of the answer lies in a section that is described as available. -/
  located : ∀ (members : Json.Members) items, answer = .ok (.obj members) →
    members.get? "strings" = some (.arr items) → ∀ item ∈ items, IsLocated described item
  /-- A section that is described as not available has no string in the answer. -/
  unavailable : ∀ (sections said : Json.Members) label,
    described.get? "sections" = some (.obj sections) → sections.get? label = some (.obj said) →
      said.get? "available" = some (.bool false) →
        ∀ (members : Json.Members) items, answer = .ok (.obj members) →
          members.get? "strings" = some (.arr items) →
            ∀ entry, Entry.toJson entry ∈ items → entry.label ≠ label

/-- The section of a string that is located is available. -/
theorem IsLocated.label_ne {described sections said : Json.Members} {label : String}
    {entry : Entry} (h : IsLocated described entry.toJson)
    (hsections : described.get? "sections" = some (.obj sections))
    (hsection : sections.get? label = some (.obj said))
    (hunavailable : said.get? "available" = some (.bool false)) : entry.label ≠ label := by
  rintro rfl
  obtain ⟨other, sections', hother, hsections', region, hregion, -⟩ := h
  obtain rfl : entry = other := Entry.toJson_inj.1 hother
  rw [hsections] at hsections'
  cases hsections'
  rw [hsection] at hregion
  cases hregion
  cases hunavailable

/-! ## What is said about a file -/

variable {host : Host} {server session : Session} {target : String} {data : Bytes}
  {format : ImageFormat}

/-- What is said about the sections of a file, by what opening it comes to: the error if it is rejected, and
else its sections. -/
def membersFrom : Except OpenError Source → Except CallError Json.Members
  | .error error =>
    if error.isRejection then .ok [("sections", .obj []), ("error", .str error.message)]
    else .error (.opening error)
  | .ok source => (describeAll source Label.declared).map fun sections => [("sections", .obj sections)]

/-- A section that fails ends the description of its source. -/
theorem membersFrom_of_failure {source : Source} {raised : Raised}
    (hfailure : source.failure? = some raised) :
    membersFrom (.ok source) = .error (.extraction (.failure raised)) := by
  rw [membersFrom, describeAll_of_failure hfailure]
  rfl

/-- A source none of whose sections fails is described by all of them. -/
theorem exists_membersFrom {source : Source} (hfailure : source.failure? = none) :
    ∃ sections : Json.Members, membersFrom (.ok source) = .ok [("sections", .obj sections)] ∧
      ∀ label ∈ Label.declared, ∃ described, describe (source.sectionAt label) = .ok described ∧
        sections.get? label = some described := by
  obtain ⟨sections, hsections, hdescribed⟩ :=
    exists_describeAll (Source.failure?_eq_none_iff.1 hfailure)
  refine ⟨sections, ?_, hdescribed⟩
  rw [membersFrom, hsections]
  rfl

/-- A file of a known format is described by what opening it comes to. -/
theorem detect_eq (hread : host.tree.read target = .ok data)
    (hformat : ImageFormat.ofMagic? (data.take Magic.size) = some format) :
    (detect host target).2 =
      (membersFrom (OpenFile.openFormat host.readers target (.ok data) format).2).map
        fun members => .obj (commonMembers host target data ++ members) := by
  simp only [detect, hread, hformat, sectionMembers]
  rcases OpenFile.openFormat host.readers target (.ok data) format with ⟨lines, error | source⟩
  · cases hrejection : error.isRejection <;> simp [membersFrom, hrejection]
  · rfl

/-- What is told about a file, made to fit. -/
theorem run_call {path : Json} (htarget : targetOf host session path = .ok target) :
    (Call.run session (Tool.format.call host [("file_path", path)])).1 =
      (detect host target).2.map fun found => (SizeGuard.respond toolName none found).value := by
  have hvalues : Tool.format.values [("file_path", path)] = .ok [path] := rfl
  rw [(Tool.run_call _ _ _ _).1, Tool.course, hvalues]
  cases hfound : (detect host target).2 <;>
    simp only [Course.require, Tool.courseWith, course, htarget, hfound, Course.result, Except.map]

/-- The size guard finds no list in what is said about a file. -/
theorem no_list_commonMembers {members : Json.Members}
    (hmembers : ∀ name items, (name, Json.arr items) ∉ members) (name : String) (items : List Json) :
    (name, Json.arr items) ∉ commonMembers host target data ++ members := by
  rw [List.mem_append, not_or]
  exact ⟨by simp [commonMembers], hmembers name items⟩

/-- What is told about a file is what is said about it, or a preview of this. -/
theorem run_call_of_membersFrom {path : Json} (htarget : targetOf host session path = .ok target)
    (hread : host.tree.read target = .ok data)
    (hformat : ImageFormat.ofMagic? (data.take Magic.size) = some format) {members : Json.Members}
    (hmembers : membersFrom (OpenFile.openFormat host.readers target (.ok data) format).2 =
      .ok members) (hlists : ∀ name items, (name, Json.arr items) ∉ members) :
    (Call.run session (Tool.format.call host [("file_path", path)])).1 =
      .ok (if (Json.obj (commonMembers host target data ++ members)).size ≤ SizeGuard.limit then
        .obj (commonMembers host target data ++ members)
      else SizeGuard.preview (.obj (commonMembers host target data ++ members))) := by
  rw [run_call htarget, detect_eq hread hformat, hmembers,
    ← SizeGuard.respond_of_no_list (no_list_commonMembers hlists) toolName none]
  rfl

/-- If the file cannot be described, nothing is told about it. -/
theorem run_call_of_membersFrom_error {path : Json} (htarget : targetOf host session path = .ok target)
    (hread : host.tree.read target = .ok data)
    (hformat : ImageFormat.ofMagic? (data.take Magic.size) = some format) {error : CallError}
    (hmembers : membersFrom (OpenFile.openFormat host.readers target (.ok data) format).2 =
      .error error) :
    (Call.run session (Tool.format.call host [("file_path", path)])).1 = .error error := by
  rw [run_call htarget, detect_eq hread hformat, hmembers]
  rfl

/-! ## The two tools -/

theorem agrees_of_rejection {error : OpenError} (hrejection : error.isRejection = true) :
    Agrees (commonMembers host target data ++
      [("sections", .obj []), ("error", .str error.message)]) (.error (.opening error)) where
  answered := .inr ⟨_, rfl, hrejection⟩
  error_iff told := by
    have htold : Json.Members.get? (commonMembers host target data ++
        [("sections", .obj []), ("error", .str error.message)]) "error" =
          some (.str error.message) := rfl
    rw [htold]
    constructor
    · rintro ⟨⟩
      exact ⟨_, rfl, hrejection, rfl⟩
    · rintro ⟨_, ⟨⟩, -, rfl⟩
      rfl
  located := by
    rintro _ _ ⟨⟩
  unavailable := by
    rintro _ _ _ _ _ _ _ _ ⟨⟩

theorem agrees_of_source {source : Source} {sections : Json.Members} {minLength : Int}
    {arguments : Page.Arguments} (hsections : ∀ label ∈ Label.declared, ∃ described,
      describe (source.sectionAt label) = .ok described ∧ sections.get? label = some described) :
    Agrees (commonMembers host target data ++ [("sections", .obj sections)])
      (.ok (SizeGuard.respond Page.toolName Page.advice
        (arguments.pageOf target (source.report minLength))).value) := by
  obtain ⟨sent, hsent, -, -, hstrings⟩ := Page.exists_sent target
    ((source.report minLength).inSections arguments.labels) arguments.offset arguments.limit
  have hvalue : (SizeGuard.respond Page.toolName Page.advice
      (arguments.pageOf target (source.report minLength))).value = .obj sent := hsent
  have hlocated : ∀ items, sent.get? "strings" = some (.arr items) → ∀ item ∈ items,
      IsLocated (commonMembers host target data ++ [("sections", .obj sections)]) item := by
    intro items hitems item hitem
    obtain ⟨entry, hentry, rfl⟩ := List.mem_map.1 ((hstrings items hitems).subset hitem)
    have hshown : entry ∈ ((source.report minLength).inSections arguments.labels).entries :=
      List.mem_of_mem_drop (List.mem_of_mem_take hentry)
    obtain ⟨hlabel, region, hsection, hholds⟩ :=
      Source.mem_report ((Report.inSections_sublist _ _).subset hshown)
    obtain ⟨described, hdescribed, hget⟩ := hsections _ hlabel
    rw [hsection] at hdescribed
    cases hdescribed
    exact ⟨entry, sections, rfl, rfl, region, hget, hholds⟩
  rw [hvalue]
  refine ⟨.inl ⟨_, rfl⟩, fun told => ?_, ?_, ?_⟩
  · have hnone : Json.Members.get? (commonMembers host target data ++
        [("sections", .obj sections)]) "error" = none := rfl
    rw [hnone]
    refine iff_of_false (by simp) ?_
    rintro ⟨_, ⟨⟩, -⟩
  · rintro _ items ⟨⟩ hitems item hitem
    exact hlocated items hitems item hitem
  · rintro _ _ _ hdescribed hsection hunavailable _ items ⟨⟩ hitems entry hentry
    exact (hlocated items hitems _ hentry).label_ne hdescribed hsection hunavailable

/-- A file of a known format that is not the loaded one is opened for a call without a mode as it is for
a description. -/
theorem opened_eq (hread : host.tree.read target = .ok data)
    (hformat : ImageFormat.ofMagic? (data.take Magic.size) = some format)
    (hloaded : server.file ≠ some target) {arguments : Page.Arguments}
    (hmode : arguments.mode = none) :
    arguments.opened host server target =
      (OpenFile.openFormat host.readers target (.ok data) format).2 := by
  have hauto : modeFor server target none = OpenMode.auto.name := by
    simp [modeFor, hloaded]
  have hname : OpenMode.ofName? OpenMode.auto.name = some .auto := by decide
  have hopened := FileTree.fileAt?_of_read hread
  simp only [arguments.opened_eq, hmode, hauto, OpenFile.openSource, hname, hopened,
    OpenFile.openFile, hformat]

/-! ## A small executable -/

/-- The code of a small executable: its own name, which makes it the string table as well, and a
text. -/
def smallCode : Bytes :=
  0 :: Bytes.ofAscii ".text" ++ 0 :: Bytes.ofAscii "hello world"

/-- A small executable, of which only the code is there. -/
def smallElf : Bytes :=
  ImageFormat.elfMagic ++ [1, 1, 1] ++ List.replicate 9 0 ++
    [2, 0, 3, 0, 1, 0, 0, 0] ++ List.replicate 8 0 ++ [52, 0, 0, 0] ++ List.replicate 4 0 ++
    [52, 0, 0, 0, 0, 0, 40, 0, 2, 0, 1, 0] ++ List.replicate 40 0 ++
    [1, 0, 0, 0, 1, 0, 0, 0] ++ List.replicate 4 0 ++ [0, 16, 0, 0, 132, 0, 0, 0, 18, 0, 0, 0] ++
    List.replicate 8 0 ++ [1, 0, 0, 0] ++ List.replicate 4 0 ++ smallCode

/-- The headers of the small executable. -/
def smallHeaders : PlainReader.Elf.Image :=
  ⟨smallElf, 150, ⟨false, .little⟩, 52, 40, 2, 1⟩

/-- The small executable as an open file. -/
def smallImage : Elf.Image :=
  ⟨fun name => (smallHeaders.lookUp name).mapError PlainReader.Elf.Error.raised⟩

theorem ofBytes_smallElf : PlainReader.Elf.Image.ofBytes smallElf = .ok smallHeaders := by
  cbv

theorem openFormat_smallElf (path : String) :
    (OpenFile.openFormat .all path (.ok smallElf) .elf).2 = .ok (smallImage.source path) := by
  have hparse : PlainReader.Elf.library.parse smallElf = .ok smallImage := by
    simp only [PlainReader.Elf.library, ofBytes_smallElf]
    rfl
  have helf : Readers.all.elf = some PlainReader.Elf.library := rfl
  simp only [OpenFile.openFormat, helf, OpenFile.openElf, hparse]

/-- What is said about a section that is missing. -/
def missing (label path : String) : Json :=
  .obj [("available", .bool false), ("reason", .str s!"No {label} section in {path}")]

/-- What is said about the sections of the small executable. -/
def smallSections (path : String) : Json.Members :=
  [(".text", available ⟨0x1000, smallCode⟩), (".rodata", missing ".rodata" path),
    (".data.rel.ro", missing ".data.rel.ro" path)]

theorem describeAll_small (path : String) :
    describeAll (smallImage.source path) Label.declared = .ok (smallSections path) :=
  rfl

/-- The strings of the small executable. -/
def smallEntries : List Entry :=
  [⟨".text", 0x1001, ".text"⟩, ⟨"hello world", 0x1007, ".text"⟩]

theorem failure?_small (path : String) : (smallImage.source path).failure? = none :=
  rfl

theorem report_small (path : String) : (smallImage.source path).report 4 = ⟨smallEntries⟩ := by
  have hfindings : Label.declared.flatMap (Extraction.findings (smallImage.source path)
      (Extraction.effectiveLength 4)) = smallEntries :=
    rfl
  rw [Source.report, hfindings, Report.ofFindings_eq_self (by decide) (by decide)]

/-- What a call says that gives a path and nothing else. -/
def pathArguments (path : String) : Page.Arguments :=
  ⟨.str path, none, none, [], ⟨200, false⟩, ⟨0, false⟩⟩

theorem isGivenBy_pathArguments (path : String) :
    (pathArguments path).IsGivenBy [("file_path", .str path)] :=
  ⟨.null, .null, .null, .int 200, .int 0, rfl, rfl, rfl, rfl, rfl, rfl⟩

/-! ## A description that is too large -/

/-- A name of control characters, which take six bytes each in JSON. -/
def deepName : String :=
  String.ofList (List.replicate 242 '\x01')

/-- The names of a file below several directories. -/
def deepNames : List String :=
  List.replicate 15 deepName

/-- The path of the file from the current directory. -/
def deepPath : String :=
  String.intercalate "/" deepNames

/-- A host with the small executable at a long path. -/
def deepHost : Host :=
  ⟨(FileTree.empty ["work"]).put (["work"] ++ deepNames) (.file smallElf), .all, .usual⟩

theorem toList_deepName : deepName.toList = List.replicate 242 '\x01' :=
  String.toList_ofList

theorem isPlain_deepName : Path.IsPlain deepName := by
  have hlength : deepName.toList.length = 242 := by rw [toList_deepName, List.length_replicate]
  have hne : ∀ other : String, other.toList.length ≠ 242 → deepName ≠ other :=
    fun other hother h => hother (h ▸ hlength)
  refine ⟨hne _ (by decide), hne _ (by decide), hne _ (by decide), ?_⟩
  rw [toList_deepName]
  exact fun hmem => absurd (List.eq_of_mem_replicate hmem) (by decide)

theorem isTooLong_deepName : FileTree.isTooLong deepName = false := by
  have hwidth : Utf8.width '\x01' = 1 := by decide
  rw [FileTree.isTooLong, toList_deepName, Utf8.length_encode, Utf8.byteCount_replicate, hwidth]
  decide

theorem read_deepPath : deepHost.tree.read deepPath = .ok smallElf := by
  refine FileTree.read_put (.empty ["work"]) (by simp [deepNames])
    (fun name hname => ?_) fun n => ?_
  · rw [List.eq_of_mem_replicate hname]
    exact ⟨isPlain_deepName, isTooLong_deepName⟩
  · unfold FileTree.nodeAt? FileTree.empty
    split
    · exact .inr rfl
    · rw [List.lookup_cons]
      split
      · exact .inr rfl
      · exact .inl rfl

theorem hasRealPath_deepPath : deepHost.tree.hasRealPath deepPath = true := by
  have hnull : Path.hasNull deepPath = false := by
    simp only [Path.hasNull, deepPath, deepNames, Path.toList_intercalate, List.map_replicate,
      toList_deepName]
    decide +kernel
  rw [FileTree.hasRealPath, hnull]
  rfl

/-- The path takes so many bytes in JSON, besides the quotes. -/
theorem byteCount_deepPath :
    Utf8.byteCount (deepPath.toList.flatMap (Json.stringChar false)) = 21794 := by
  have hname : Utf8.byteCount ((List.replicate 242 '\x01').flatMap (Json.stringChar false)) =
      1452 := by
    decide +kernel
  have hmark : Utf8.byteCount ([Path.separator].flatMap (Json.stringChar false)) = 1 := by
    decide
  simp only [deepPath, deepNames, Path.toList_intercalate, List.map_replicate, toList_deepName]
  generalize List.replicate 242 '\x01' = name at hname ⊢
  simp only [List.replicate, List.intercalate_cons_cons, List.intercalate_singleton,
    List.flatMap_append, Utf8.byteCount_append, hname, hmark]


/-- What is said about the small executable apart from its sections. -/
def smallCommon : Json.Members :=
  [("format", .str "elf"), ("format_hint", .str "ELF"), ("is_go", .bool false),
    ("library_support", .obj [("pefile", .bool true), ("pyelftools", .bool true),
      ("lief", .bool true)])]

theorem commonMembers_small (tree : FileTree) (path : String) :
    commonMembers ⟨tree, .all, .usual⟩ path smallElf = ("file", .str path) :: smallCommon := by
  have hformat : ImageFormat.ofMagic? (smallElf.take Magic.size) = some .elf := by decide
  have hgo : isGo smallElf = false := by decide +kernel
  simp only [commonMembers, Magic.hint, hformat, hgo]
  rfl

/-- The page of the strings of the small executable. -/
def smallPage : Json.Members :=
  [("strings", .arr (smallEntries.map Entry.toJson)), ("count", .int 2),
    ("pagination_info", .obj [("offset", .int 0), ("limit", .int 200), ("returned", .int 2),
      ("has_more", .bool false)])]

theorem pageOf_small (path : String) :
    (pathArguments path).pageOf path ⟨smallEntries⟩ = .obj (("file", .str path) :: smallPage) :=
  rfl

/-- What is said about the small executable at a path. -/
def smallMembers (path : String) : Json.Members :=
  ("file", .str path) :: smallCommon ++ [("sections", .obj (smallSections path))]

/-- The strings of the small executable are listed, whatever is in the cache. -/
theorem answer_small {tree : FileTree} {path : String} (hreal : tree.hasRealPath path = true)
    (hread : tree.read path = .ok smallElf)
    (hsession : Page.IsSoundFor ⟨tree, .all, .usual⟩ .initial path session) :
    (Call.run session (Tool.page.call ⟨tree, .all, .usual⟩ [("file_path", .str path)])).1 =
      .ok (SizeGuard.respond Page.toolName Page.advice
        ((pathArguments path).pageOf path ⟨smallEntries⟩)).value := by
  have hformat : ImageFormat.ofMagic? (smallElf.take Magic.size) = some .elf := by decide
  have htarget : targetOf ⟨tree, .all, .usual⟩ Session.initial (.str path) = .ok path :=
    targetOf_str rfl hreal (FileTree.isFile_of_read hread)
  have hopened : (pathArguments path).opened ⟨tree, .all, .usual⟩ .initial path =
      .ok (smallImage.source path) :=
    (opened_eq hread hformat (by simp [Session.initial]) rfl).trans (openFormat_smallElf path)
  have hworkers : 1 ≤ Startup.Defaults.usual.workers := by decide
  have hanswer := Page.answer_eq (isGivenBy_pathArguments path) hsession htarget hworkers
  rw [hopened, reportFrom, failure?_small] at hanswer
  rw [← report_small path]
  exact hanswer

/-- The two answers about the small executable at a path. -/
theorem answers_small {tree : FileTree} {path : String} (hreal : tree.hasRealPath path = true)
    (hread : tree.read path = .ok smallElf) :
    (Call.run .initial (Tool.format.call ⟨tree, .all, .usual⟩ [("file_path", .str path)])).1 =
        .ok (SizeGuard.respond toolName none (.obj (smallMembers path))).value ∧
      (Call.run .initial (Tool.page.call ⟨tree, .all, .usual⟩ [("file_path", .str path)])).1 =
        .ok (SizeGuard.respond Page.toolName Page.advice
          ((pathArguments path).pageOf path ⟨smallEntries⟩)).value := by
  have hformat : ImageFormat.ofMagic? (smallElf.take Magic.size) = some .elf := by decide
  have htarget : targetOf ⟨tree, .all, .usual⟩ Session.initial (.str path) = .ok path :=
    targetOf_str rfl hreal (FileTree.isFile_of_read hread)
  constructor
  · have hmembers : membersFrom (.ok (smallImage.source path)) =
        .ok [("sections", .obj (smallSections path))] := by
      rw [membersFrom, describeAll_small]
      rfl
    rw [run_call htarget, detect_eq hread hformat, openFormat_smallElf, hmembers, commonMembers_small]
    rfl
  · exact answer_small hreal hread (Page.IsSoundFor.start ⟨tree, .all, .usual⟩ .initial path)

section LongPath

open Json

variable {path : String} (hpath : Utf8.byteCount (path.toList.flatMap (stringChar false)) = 21794)

include hpath

theorem byteCount_stringChars_path : Utf8.byteCount (stringChars false path) = 21796 := by
  rw [byteCount_stringChars, hpath]

/-- The reason why a section is missing names the path. -/
theorem le_size_missing (label : String) : 21823 ≤ (missing label path).size := by
  have havailable : Utf8.byteCount (stringChars false "available") = 11 := by decide
  have hreason : Utf8.byteCount (stringChars false "reason") = 8 := by decide
  have htext : 21796 ≤ Utf8.byteCount (stringChars false s!"No {label} section in {path}") := by
    rw [byteCount_stringChars]
    simp only [toString, String.toList_append, List.flatMap_append, Utf8.byteCount_append, hpath]
    omega
  have hnil : membersSize [] = 0 := rfl
  simp only [missing, size_obj, membersSize_cons, havailable, hnil, memberSize, hreason, size_str]
  omega

/-- What is said about the small executable is too large. -/
theorem limit_lt_size_smallMembers : SizeGuard.limit < (Json.obj (smallMembers path)).size := by
  have hcommon : 126 ≤ membersSize smallCommon := by decide +kernel
  have hrodata := le_size_missing hpath ".rodata"
  have hrelro := le_size_missing hpath ".data.rel.ro"
  have hlimit : SizeGuard.limit = 65536 := rfl
  simp only [smallCommon, membersSize_cons] at hcommon
  simp only [smallMembers, smallCommon, smallSections, List.cons_append, List.nil_append, size_obj,
    membersSize_cons, memberSize, size_str, byteCount_stringChars_path hpath] at hcommon ⊢
  omega

/-- The strings fit. -/
theorem size_smallPage_le : (Json.obj (("file", .str path) :: smallPage)).size ≤ SizeGuard.limit := by
  have hpage : membersSize smallPage ≤ 300 := by decide +kernel
  have hfile : Utf8.byteCount (stringChars false "file") = 6 := by decide
  have hlimit : SizeGuard.limit = 65536 := rfl
  rw [size_obj, membersSize_cons, memberSize, size_str, byteCount_stringChars_path hpath, hfile]
  omega

end LongPath

/-! ## Detection and extraction -/

/-- Detection and extraction agree on every file of a known format that is not the loaded one, after any
calls that left the file as it is.  What is said about the file agrees with the strings that are
extracted without a mode, and it is sent as it is unless it is too large; then it is replaced by a
preview.  If a library raises against expectation, the exception ends both calls. -/
theorem agrees (host : Host) (server : Session) (path : Json) (target : String) (data : Bytes)
    (format : ImageFormat) (arguments : Page.Arguments) (given : Json.Members)
    (earlier : List (FileTree × Tool × Json.Members)) (hworkers : 1 ≤ host.defaults.workers)
    (htarget : targetOf host server path = .ok target) (hloaded : server.file ≠ some target)
    (hread : host.tree.read target = .ok data)
    (hformat : ImageFormat.ofMagic? (data.take Magic.size) = some format)
    (hgiven : arguments.IsGivenBy given) (hpath : arguments.path = path)
    (hmode : arguments.mode = none)
    (hearlier : ∀ call ∈ earlier, Page.HasSameFile host target call.1) :
    let session := earlier.foldl (Page.behind host) (server.withCache .empty)
    let answer := (Call.run session (Tool.page.call host given)).1
    let said := (Call.run session (Tool.format.call host [("file_path", path)])).1
    (∃ whole, Agrees whole answer ∧
      said = .ok (if (Json.obj whole).size ≤ SizeGuard.limit then .obj whole
        else SizeGuard.preview (.obj whole))) ∨
      ¬ host.readers.RaiseAsExpected ∧
        ∃ error raised, error.exception? = some raised ∧ answer = .error error ∧
          said = .error error := by
  intro session answer said
  subst hpath
  have hsession : Page.IsSoundFor host server target session :=
    (Page.IsSoundFor.start host server target).foldl_behind (isFile_of_targetOf htarget) hearlier
  have htarget' : targetOf host session arguments.path = .ok target := by
    rw [hsession.server_eq]
    exact htarget
  have hanswer : answer = _ := Page.answer_eq hgiven hsession htarget hworkers
  rw [opened_eq hread hformat hloaded hmode] at hanswer
  have hsaid := @run_call_of_membersFrom host session target data format arguments.path htarget' hread
    hformat
  have hraised := @run_call_of_membersFrom_error host session target data format arguments.path htarget'
    hread hformat
  have hexpected : host.readers.RaiseAsExpected → OpenFile.IsAsExpected
      (OpenFile.openFormat host.readers target (.ok data) format).2 :=
    fun hreaders => hreaders.openFormat target data format
  rw [hanswer]
  cases hopened : (OpenFile.openFormat host.readers target (.ok data) format).2 with
  | error error =>
    rw [hopened] at hexpected hraised hsaid
    rcases OpenFile.isRejectionOrRaised_openFormat hopened with hrejection | ⟨raised, rfl⟩
    · exact .inl ⟨_, agrees_of_rejection hrejection, hsaid (if_pos hrejection) (by simp)⟩
    · exact .inr ⟨fun hreaders => (hexpected hreaders).2 raised rfl, _, raised, rfl, rfl,
        hraised rfl⟩
  | ok source =>
    rw [hopened] at hexpected hraised hsaid
    cases hfailure : source.failure? with
    | some raised =>
      refine .inr ⟨fun hreaders => ?_, _, raised, rfl, by simp only [reportFrom, hfailure]; rfl,
        hraised (membersFrom_of_failure hfailure)⟩
      have hnone := Source.failure?_eq_none_iff.2 fun label _ => (hexpected hreaders).1 source rfl label
      cases hnone.symm.trans hfailure
    | none =>
      obtain ⟨sections, hmembers, hdescribed⟩ := exists_membersFrom hfailure
      refine .inl ⟨_, ?_, hsaid hmembers (by simp)⟩
      simp only [reportFrom, hfailure]
      exact agrees_of_source hdescribed

/-- A detection and an extraction of the small executable, after a summary of it. -/
theorem agrees_on_small_file :
    let host : Host := ⟨(FileTree.empty ["work"]).put ["work", "blob"] (.file smallElf), .all, .usual⟩
    let given : Json.Members := [("file_path", .str "blob")]
    let session := [(host.tree, Tool.summary, given)].foldl (Page.behind host)
      (Session.initial.withCache .empty)
    ∃ whole, Agrees whole (Call.run session (Tool.page.call host given)).1 ∧
      (Call.run session (Tool.format.call host given)).1 =
        .ok (if (Json.obj whole).size ≤ SizeGuard.limit then .obj whole
          else SizeGuard.preview (.obj whole)) := by
  intro host given session
  have hread : host.tree.read "blob" = .ok smallElf := eq_ok_of_toOption (by decide +kernel)
  have hreal : host.tree.hasRealPath "blob" = true := by decide
  have htarget : targetOf host Session.initial (.str "blob") = .ok "blob" :=
    targetOf_str rfl hreal (FileTree.isFile_of_read hread)
  have hcurrent : host.tree.IsSettled host.tree.current := .of_directory (by decide) rfl
  have hearlier : ∀ call ∈ [(host.tree, Tool.summary, given)],
      Page.HasSameFile host "blob" call.1 := by
    intro call hcall
    rw [List.mem_singleton.1 hcall]
    exact ⟨hcurrent, rfl, rfl⟩
  have hanswer := answer_small hreal hread
    ((Page.IsSoundFor.start host .initial "blob").foldl_behind (isFile_of_targetOf htarget) hearlier)
  refine (agrees host Session.initial (.str "blob") "blob" smallElf .elf (pathArguments "blob") given
    [(host.tree, Tool.summary, given)] (by decide) htarget (by decide) hread (by decide)
    (isGivenBy_pathArguments "blob") rfl rfl hearlier).resolve_right ?_
  rintro ⟨-, error, raised, -, herror, -⟩
  cases hanswer.symm.trans herror

/-- Two disagreements of the answers as they are sent.  At a long path the description of a file is
previewed and tells no section, though strings are extracted.  A file that cannot be opened is
described by an error, but a least length that is not accepted is refused before the file is opened. -/
theorem disagree_at_long_path_and_length_zero :
    (∃ described answer : Json.Members,
      (Call.run .initial (Tool.format.call deepHost [("file_path", .str deepPath)])).1 =
          .ok (.obj described) ∧
        (Call.run .initial (Tool.page.call deepHost [("file_path", .str deepPath)])).1 =
          .ok (.obj answer) ∧
        answer.get? "strings" = some (.arr (smallEntries.map Entry.toJson)) ∧
        described.get? "sections" = none ∧ ¬ Agrees described (.ok (.obj answer))) ∧
    ∃ described : Json.Members,
      let host : Host := ⟨⟨["work"], [(["work"], .directory),
        (["work", "blob"], .file (smallElf.take 40))]⟩, .all, .usual⟩
      let given : Json.Members := [("file_path", .str "blob")]
      (Call.run .initial (Tool.format.call host given)).1 = .ok (.obj described) ∧
        described.get? "error" =
          some (.str "Failed to parse ELF file blob: expected 2, found 0") ∧
        (Call.run .initial (Tool.page.call host (given ++ [("min_length", .int 0)]))).1 =
          .error .minLength := by
  constructor
  · obtain ⟨hdescribed, hanswer⟩ := answers_small hasRealPath_deepPath read_deepPath
    have hpreview : (SizeGuard.respond toolName none (.obj (smallMembers deepPath))).value =
        SizeGuard.preview (.obj (smallMembers deepPath)) := by
      have hlists : ∀ name items, (name, Json.arr items) ∉ smallMembers deepPath := by
        intro name items
        simp [smallMembers, smallCommon]
      rw [SizeGuard.respond_of_no_list hlists,
        if_neg (Nat.not_le.2 (limit_lt_size_smallMembers byteCount_deepPath))]
    have hpage : (SizeGuard.respond Page.toolName Page.advice
        ((pathArguments deepPath).pageOf deepPath ⟨smallEntries⟩)).value =
          .obj (("file", .str deepPath) :: smallPage) := by
      rw [pageOf_small, SizeGuard.respond, if_pos (size_smallPage_le byteCount_deepPath)]
    rw [hpreview] at hdescribed
    rw [hpage] at hanswer
    refine ⟨_, _, hdescribed, hanswer, rfl, rfl, fun hagrees => ?_⟩
    obtain ⟨_, sections, -, hsections, -⟩ :=
      hagrees.located _ _ rfl rfl (Entry.toJson ⟨".text", 0x1001, ".text"⟩) (by simp [smallEntries])
    cases hsections
  · refine ⟨("file", .str "blob") :: smallCommon ++ [("sections", .obj []),
      ("error", .str "Failed to parse ELF file blob: expected 2, found 0")], ?_, rfl, rfl⟩
    exact eq_ok_of_toOption (by decide +kernel)

end Format

end BinaryStrings.Server
