import BinaryStrings.Proofs.Outcome
import BinaryStrings.Proofs.Server.Inquiry
import BinaryStrings.Proofs.Server.Truncation

/-!
# Counts that responses declare

A page declares how many strings it returns and whether there are more, and a search how many matches
it returns.  These counts are made before the size guard: a response that the guard cuts keeps them,
and then declares more than it delivers.

Main results:

- Theorem `Page.View.declares_of_respond`: the counts of a page.
- Theorem `Search.View.declares_of_respond`: the counts of a search.
- Theorem `Tool.declares`: exactly the responses without a remark declare what they deliver.
-/

namespace BinaryStrings.Server

open SizeGuard (IsCut IsPlain remarkName respond)

/-! ## What clients read -/

/-- What a client reads from a page. -/
structure Page.View where
  strings : List Json
  count : Int
  offset : Int
  returned : Int
  hasMore : Bool

/-- A page as a client reads it, from the members of a response. -/
def Page.View.ofMembers? (members : Json.Members) : Option Page.View :=
  match members.get? "strings", (members.get? "count").bind Json.toInt?,
    members.get? "pagination_info" with
  | some (.arr strings), some count, some (.obj info) =>
    match (Json.Members.get? info "offset").bind Json.toInt?,
      (Json.Members.get? info "returned").bind Json.toInt?, Json.Members.get? info "has_more" with
    | some offset, some returned, some (.bool hasMore) =>
      some ⟨strings, count, offset, returned, hasMore⟩
    | _, _, _ => none
  | _, _, _ => none

/-- What a client reads from the response of a search. -/
structure Search.View where
  found : List Json
  total : Int
  returned : Int

/-- The response of a search as a client reads it, from its members. -/
def Search.View.ofMembers? (members : Json.Members) : Option Search.View :=
  match members.get? "matches", (members.get? "total_matches_found").bind Json.toInt?,
    (members.get? "returned_matches").bind Json.toInt? with
  | some (.arr found), some total, some returned => some ⟨found, total, returned⟩
  | _, _, _ => none

/-- The counts of a page, which is cut or not. -/
structure Page.View.Declares (view : Page.View) (cut : Bool) : Prop where
  /-- The number of strings is the declared one if the page is not cut. -/
  returned_eq_iff : view.returned = view.strings.length ↔ cut = false
  /-- The page says by its declared number of strings whether there are more. -/
  hasMore_iff : view.hasMore = true ↔ view.offset + view.returned < view.count
  /-- By the strings that it delivers, a page that is cut is wrong about this if it is the last. -/
  hasMore_right_iff : (view.hasMore = true ↔ view.offset + view.strings.length < view.count) ↔
    cut = false ∨ view.hasMore = true
  /-- A page that is cut delivers some strings, and there are more. -/
  of_cut : cut = true → 0 < view.strings.length ∧ view.strings.length < view.returned ∧
    view.offset + view.strings.length < view.count

namespace Page.View.Declares

variable {view : Page.View}

/-- A view of everything that it declares. -/
theorem of_whole (hreturned : view.returned = view.strings.length)
    (hmore : view.hasMore = true ↔ view.offset + view.returned < view.count) :
    view.Declares false where
  returned_eq_iff := by simp [hreturned]
  hasMore_iff := hmore
  hasMore_right_iff := by simp [hmore, hreturned]
  of_cut := fun h => by cases h

/-- A view of less than it declares, which was cut. -/
theorem of_shorter (hmore : view.hasMore = true ↔ view.offset + view.returned < view.count)
    (hsome : 0 < view.strings.length) (hcut : view.strings.length < view.returned)
    (hcount : view.offset + view.returned ≤ view.count) : view.Declares true where
  returned_eq_iff := by
    have hne : view.returned ≠ view.strings.length := by omega
    simp [hne]
  hasMore_iff := hmore
  hasMore_right_iff := by
    have hmissing : view.offset + view.strings.length < view.count := by omega
    simp [hmissing]
  of_cut := fun _ => ⟨hsome, hcut, by omega⟩

end Page.View.Declares

/-- The counts of a search, whose response is cut or not. -/
structure Search.View.Declares (view : Search.View) (cut : Bool) : Prop where
  /-- The number of matches is the declared one if the response is not cut. -/
  returned_eq_iff : view.returned = view.found.length ↔ cut = false
  /-- A response that is cut delivers some matches. -/
  of_cut : cut = true → 0 < view.found.length ∧ view.found.length < view.returned
  returned_le : view.returned ≤ view.total

namespace Search.View.Declares

variable {view : Search.View}

/-- A view of all matches that it declares. -/
theorem of_whole (hreturned : view.returned = view.found.length)
    (htotal : view.returned ≤ view.total) : view.Declares false where
  returned_eq_iff := by simp [hreturned]
  of_cut := fun h => by cases h
  returned_le := htotal

/-- A view of fewer matches than it declares. -/
theorem of_shorter (hsome : 0 < view.found.length) (hcut : view.found.length < view.returned)
    (htotal : view.returned ≤ view.total) : view.Declares true where
  returned_eq_iff := by
    have hne : view.returned ≠ view.found.length := by omega
    simp [hne]
  of_cut := fun _ => ⟨hsome, hcut⟩
  returned_le := htotal

end Search.View.Declares

/-! ## Given numbers -/

/-- A given number is read back from the value that gave it. -/
theorem GivenNumber.toInt?_toJson {value : Json} {number : GivenNumber}
    (h : GivenNumber.ofJson? value = some number) : number.toJson.toInt? = some number.value := by
  cases value with
  | bool value => cases value <;> cases h <;> rfl
  | int value => cases h; rfl
  | _ => cases h

/-- An offset that is accepted is a natural number. -/
theorem Argument.offset_eq_ok {value : Json} {number : GivenNumber}
    (h : Argument.offset value = .ok number) :
    GivenNumber.ofJson? value = some number ∧ 0 ≤ number.value := by
  unfold Argument.offset at h
  split at h
  · rename_i found hfound
    split at h
    · rename_i hnonneg
      cases h
      exact ⟨hfound, hnonneg⟩
    · cases h
  · cases h

/-- A limit that is accepted is a positive number. -/
theorem Argument.limit_eq_ok {value : Json} {number : GivenNumber}
    (h : Argument.limit value = .ok number) :
    GivenNumber.ofJson? value = some number ∧ 0 < number.value := by
  unfold Argument.limit at h
  split at h
  · rename_i found hfound
    split at h
    · rename_i hpos
      cases h
      exact ⟨hfound, hpos⟩
    · cases h
  · cases h

/-! ## Pages -/

namespace Page

/-- What a page says about its place among the others. -/
def pageInfo (report : Report) (offset limit : GivenNumber) : Json.Members :=
  let entries := shown report offset.value limit.value
  [("offset", offset.toJson), ("limit", limit.toJson), ("returned", .int entries.length),
    ("has_more", .bool (offset.value + entries.length < report.count))]

/-- The members of a page. -/
def pageMembers (target : String) (report : Report) (offset limit : GivenNumber) : Json.Members :=
  [("file", .str target),
    ("strings", .arr ((shown report offset.value limit.value).map Entry.toJson)),
    ("count", .int report.count), ("pagination_info", .obj (pageInfo report offset limit))]

theorem page_eq (target : String) (report : Report) (offset limit : GivenNumber) :
    page target report offset limit = .obj (pageMembers target report offset limit) :=
  rfl

/-- An object with the members of a page, apart from its strings, is read as this page with other
strings. -/
theorem View.ofMembers?_eq {target : String} {report : Report} {offset limit : GivenNumber}
    {members : Json.Members} {strings : List Json} (hoffset : offset.toJson.toInt? = some offset.value)
    (hstrings : members.get? "strings" = some (.arr strings))
    (hcount : members.get? "count" = (pageMembers target report offset limit).get? "count")
    (hinfo : members.get? "pagination_info" =
      (pageMembers target report offset limit).get? "pagination_info") :
    View.ofMembers? members =
      some ⟨strings, report.count, offset.value, (shown report offset.value limit.value).length,
        offset.value + (shown report offset.value limit.value).length < report.count⟩ := by
  have hcountValue : ((pageMembers target report offset limit).get? "count").bind Json.toInt? =
      some (report.count : Int) := rfl
  have hinfoValue : (pageMembers target report offset limit).get? "pagination_info" =
      some (.obj (pageInfo report offset limit)) := rfl
  have hoffsetValue : (Json.Members.get? (pageInfo report offset limit) "offset").bind Json.toInt? =
      some offset.value := hoffset
  simp only [View.ofMembers?, hstrings, hcount, hcountValue, hinfo, hinfoValue, hoffsetValue]
  rfl

/-- The strings are the only list of a page. -/
theorem eq_strings_of_list {target : String} {report : Report} {offset limit : GivenNumber}
    {name : String} {items : List Json}
    (h : (pageMembers target report offset limit).get? name = some (.arr items)) :
    name = "strings" := by
  simp only [pageMembers, Json.Members.get?_cons] at h
  grind [Json.Members.get?]

theorem isPlain_pageMembers (target : String) (report : Report) (offset limit : GivenNumber) :
    IsPlain (pageMembers target report offset limit) where
  nodup := by simp [pageMembers, Json.Members.names]
  remark := fun _ h => absurd (eq_strings_of_list h) (by decide)

/-- The number of entries on a page. -/
theorem length_shown (report : Report) (offset limit : Int) :
    (shown report offset limit).length = min limit.toNat (report.count - offset.toNat) := by
  simp [shown, Report.count]

/-- The counts of a page. -/
theorem View.declares_of_respond {target : String} {report : Report} {offset limit : GivenNumber}
    (hoffset : offset.toJson.toInt? = some offset.value) (hnonneg : 0 ≤ offset.value)
    {members : Json.Members}
    (hresponse : (respond toolName advice (page target report offset limit)).value = .obj members)
    {strings : List Json} (hstrings : members.get? "strings" = some (.arr strings)) :
    ∃ view, View.ofMembers? members = some view ∧ view.strings = strings ∧
      view.Declares (members.get? remarkName).isSome := by
  have hlist : (pageMembers target report offset limit).get? "strings" =
      some (.arr ((shown report offset.value limit.value).map Entry.toJson)) := rfl
  rw [page_eq] at hresponse
  rcases SizeGuard.respond_list_cases (isPlain_pageMembers _ _ _ _) hlist
      (fun _ _ => eq_strings_of_list) hresponse hstrings with
    ⟨rfl, rfl⟩ | ⟨kept, hpos, hkept, rfl, hcut⟩
  · refine ⟨_, View.ofMembers?_eq hoffset hlist rfl rfl, rfl, ?_⟩
    exact Declares.of_whole (by simp) (by simp)
  · have hcount := hcut.other "count" (by decide) fun _ h => by cases h
    have hinfo := hcut.other "pagination_info" (by decide) fun _ h => by cases h
    refine ⟨_, View.ofMembers?_eq hoffset hstrings hcount hinfo, rfl, ?_⟩
    obtain ⟨text, hremark⟩ := hcut.remark
    have hlength := length_shown report offset.value limit.value
    rw [List.length_map] at hkept
    rw [hremark]
    refine Declares.of_shorter (by simp) ?_ ?_ ?_ <;> simp only [List.length_take, List.length_map] <;>
      omega

end Page

/-! ## Searches -/

namespace Search

/-- The members of the response of a search. -/
def resultMembers (target : String) (found : Report) (limit : GivenNumber) : Json.Members :=
  [("file", .str target),
    ("matches", .arr ((found.entries.take limit.value.toNat).map Entry.toJson)),
    ("total_matches_found", .int found.count),
    ("returned_matches", returned limit found.count)]

theorem results_eq (target : String) (found : Report) (limit : GivenNumber) :
    results target found limit = .obj (resultMembers target found limit) :=
  rfl

/-- The declared number of matches is that of the first part of all matches. -/
theorem toInt?_returned {limit : GivenNumber} (hlimit : limit.toJson.toInt? = some limit.value)
    (hpos : 0 < limit.value) (found : Report) :
    (returned limit found.count).toInt? =
      some ((found.entries.take limit.value.toNat).length : Int) := by
  have hlength : found.count = found.entries.length := rfl
  unfold returned
  split
  · simp only [Json.toInt?, List.length_take]
    congr 1
    omega
  · rw [hlimit, List.length_take]
    congr 1
    omega

/-- What a response with some matches shows. -/
theorem View.ofMembers?_eq {target : String} {report : Report} {limit : GivenNumber}
    {members : Json.Members} {found : List Json} (hlimit : limit.toJson.toInt? = some limit.value)
    (hpos : 0 < limit.value) (hfound : members.get? "matches" = some (.arr found))
    (htotal : members.get? "total_matches_found" =
      (resultMembers target report limit).get? "total_matches_found")
    (hreturned : members.get? "returned_matches" =
      (resultMembers target report limit).get? "returned_matches") :
    View.ofMembers? members =
      some ⟨found, report.count, (report.entries.take limit.value.toNat).length⟩ := by
  have htotalValue : ((resultMembers target report limit).get? "total_matches_found").bind
      Json.toInt? = some (report.count : Int) := rfl
  have hreturnedValue : ((resultMembers target report limit).get? "returned_matches").bind
      Json.toInt? = some ((report.entries.take limit.value.toNat).length : Int) :=
    toInt?_returned hlimit hpos report
  simp only [View.ofMembers?, hfound, htotal, htotalValue, hreturned, hreturnedValue]

/-- The matches are the only list of the response of a search. -/
theorem eq_matches_of_list {target : String} {found : Report} {limit : GivenNumber}
    {name : String} {items : List Json}
    (h : (resultMembers target found limit).get? name = some (.arr items)) : name = "matches" := by
  have hreturned : ∀ items, returned limit found.count ≠ .arr items := by
    unfold returned GivenNumber.toJson
    intro items
    split <;> try split
    all_goals simp
  simp only [resultMembers, Json.Members.get?_cons] at h
  grind [Json.Members.get?]

theorem isPlain_resultMembers (target : String) (found : Report) (limit : GivenNumber) :
    IsPlain (resultMembers target found limit) where
  nodup := by simp [resultMembers, Json.Members.names]
  remark := fun _ h => absurd (eq_matches_of_list h) (by decide)

/-- The counts of a search. -/
theorem View.declares_of_respond {target : String} {report : Report} {limit : GivenNumber}
    (hlimit : limit.toJson.toInt? = some limit.value) (hpos : 0 < limit.value)
    {members : Json.Members}
    (hresponse : (respond toolName advice (results target report limit)).value = .obj members)
    {found : List Json} (hfound : members.get? "matches" = some (.arr found)) :
    ∃ view, View.ofMembers? members = some view ∧ view.found = found ∧
      view.Declares (members.get? remarkName).isSome := by
  have hlist : (resultMembers target report limit).get? "matches" =
      some (.arr ((report.entries.take limit.value.toNat).map Entry.toJson)) := rfl
  have htotal : (report.entries.take limit.value.toNat).length ≤ report.count :=
    List.length_take_le' _ _
  rw [results_eq] at hresponse
  rcases SizeGuard.respond_list_cases (isPlain_resultMembers _ _ _) hlist
      (fun _ _ => eq_matches_of_list) hresponse hfound with
    ⟨rfl, rfl⟩ | ⟨kept, hsome, hkept, rfl, hcut⟩
  · refine ⟨_, View.ofMembers?_eq hlimit hpos hlist rfl rfl, rfl, ?_⟩
    have hremark : (resultMembers target report limit).get? remarkName = none := by
      simp [resultMembers, Json.Members.get?, remarkName, List.lookup_cons]
    rw [hremark]
    exact Declares.of_whole (by simp) (Int.ofNat_le.2 htotal)
  · have htotalSame := hcut.other "total_matches_found" (by decide) fun _ h => by cases h
    have hreturnedSame := hcut.other "returned_matches" (by decide) fun _ h =>
      absurd (eq_matches_of_list h) (by decide)
    refine ⟨_, View.ofMembers?_eq hlimit hpos hfound htotalSame hreturnedSame, rfl, ?_⟩
    obtain ⟨text, hremark⟩ := hcut.remark
    rw [List.length_map] at hkept
    rw [hremark]
    refine Declares.of_shorter ?_ ?_ (Int.ofNat_le.2 htotal) <;>
      simp only [List.length_take, List.length_map] at hkept ⊢ <;> omega

end Search

/-! ## A page that is cut -/

open Json Utf8 in
/-- The size of an entry in a response. -/
theorem Entry.size_toJson (entry : Entry) :
    entry.toJson.size = byteCount (stringChars false entry.value) +
      (Json.int entry.address).size + byteCount (stringChars false entry.label) + 37 := by
  have hnames : byteCount (stringChars false "value") = 7 ∧
      byteCount (stringChars false "address") = 9 ∧
      byteCount (stringChars false "section") = 9 := by
    decide
  have hnil : membersSize [] = 0 := rfl
  unfold Entry.toJson
  simp only [size_obj, membersSize_cons, memberSize, size_str, hnames, hnil]
  omega

open Json Utf8 in
/-- A text of letters takes its length and two quotes. -/
theorem byteCount_stringChars_replicate {c : Char} (hc : stringChar false c = [c])
    (hwidth : width c = 1) (n : Nat) :
    byteCount (stringChars false (String.ofList (List.replicate n c))) = n + 2 := by
  have hself : (List.replicate n c).flatMap (stringChar false) = List.replicate n c := by
    induction n with
    | zero => rfl
    | succ n ih => rw [List.replicate_succ, List.flatMap_cons, hc, ih]; rfl
  rw [byteCount_stringChars, String.toList_ofList, hself, byteCount_replicate, hwidth, Nat.mul_one]

namespace Page

/-- The members of the only page of two entries. -/
def pairMembers (items : List Json) : Json.Members :=
  [("file", .str "blob"), ("strings", .arr items), ("count", .int 2),
    ("pagination_info", .obj [("offset", .int 0), ("limit", .int 200), ("returned", .int 2),
      ("has_more", .bool false)])]

theorem page_of_two (a b : Entry) :
    page "blob" ⟨[a, b]⟩ ⟨0, false⟩ ⟨200, false⟩ = .obj (pairMembers [a.toJson, b.toJson]) :=
  rfl

open Json Utf8 in
/-- The size of a page of two entries. -/
theorem size_pairMembers (items : List Json) :
    membersSize (pairMembers items) = (Json.arr items).size + 123 := by
  have hnames : byteCount (stringChars false "file") = 6 ∧
      byteCount (stringChars false "strings") = 9 ∧ byteCount (stringChars false "count") = 7 ∧
      byteCount (stringChars false "pagination_info") = 17 := by
    decide
  have hvalues : byteCount (stringChars false "blob") = 6 ∧ (Json.int 2).size = 1 := by
    decide
  have hinfo : (Json.obj [("offset", .int 0), ("limit", .int 200), ("returned", .int 2),
      ("has_more", .bool false)]).size = 61 := by
    decide
  have hnil : membersSize [] = 0 := rfl
  unfold pairMembers
  simp only [membersSize_cons, memberSize, size_str, hnames, hvalues, hinfo, hnil]
  omega

/-- An entry that is too long to share a response with another one. -/
def longEntry (c : Char) : Entry :=
  ⟨String.ofList (List.replicate 40000 c), 0, "data"⟩

/-- The size of an entry with a long text of plain characters. -/
theorem size_longEntry {c : Char} (hc : Json.stringChar false c = [c]) (hwidth : Utf8.width c = 1) :
    (longEntry c).toJson.size = 40046 := by
  have haddress : (Json.int 0).size = 1 := by decide
  have hlabel : Utf8.byteCount (Json.stringChars false "data") = 6 := by decide
  rw [Entry.size_toJson]
  simp only [longEntry, haddress, hlabel, byteCount_stringChars_replicate hc hwidth]

/-- What is left of the only page of two entries that do not fit together. -/
def cutMembers (item : Json) : Json.Members :=
  Json.Members.set (pairMembers [item]) remarkName (.str (SizeGuard.remark "strings" 2 1 advice))

open SizeGuard in
/-- Of two entries that do not fit together the second one is cut. -/
theorem respond_page_of_two {a b : Entry} (ha : a.toJson.size = 40046) (hb : b.toJson.size = 40046) :
    (respond toolName advice (page "blob" ⟨[a, b]⟩ ⟨0, false⟩ ⟨200, false⟩)).value =
      .obj (cutMembers a.toJson) := by
  have hnil : Json.itemsSize [] = 0 := rfl
  have hbefore : (Json.obj (pairMembers [a.toJson, b.toJson])).size = 80219 := by
    rw [Json.size_obj, size_pairMembers, Json.size_arr]
    simp only [Json.itemsSize_cons, ha, hb, hnil]
    omega
  have hafter : (Json.obj (cutMembers a.toJson)).size ≤ target := by
    have hset := Json.membersSize_set_le (pairMembers [a.toJson]) remarkName
      (.str (remark "strings" 2 1 advice))
    have hremark : Json.memberSize (remarkName, .str (remark "strings" 2 1 advice)) ≤ 1000 := by
      decide +kernel
    have htarget : target = 61440 := rfl
    rw [size_pairMembers, Json.size_arr, Json.itemsSize_cons, ha, hnil] at hset
    rw [Json.size_obj, cutMembers]
    omega
  have hkept : keptCount 80219 2 = 1 := by decide +kernel
  have hround : shrink advice 80219 (.obj (pairMembers [a.toJson, b.toJson])) =
      some (.obj (cutMembers a.toJson)) := by
    simp [shrink, largestList, largestFrom, cutMembers, pairMembers, hkept, Json.Members.set,
      remarkName]
  have hrounds : shrinkRounds advice rounds (.obj (pairMembers [a.toJson, b.toJson])) =
      .obj (cutMembers a.toJson) := by
    simp only [rounds, shrinkRounds, hbefore, hround, if_pos hafter]
    rfl
  have hfits : ¬ limit < (Json.obj (cutMembers a.toJson)).size :=
    Nat.not_lt.2 (Nat.le_trans hafter (by decide))
  have hlarge : ¬ (80219 ≤ limit) := by decide
  rw [page_of_two]
  simp only [respond, hbefore, if_neg hlarge, fitted, hrounds, if_neg hfits]

/-- The last page, of two strings that do not fit together: one of them is cut, but the page declares
both, and that there are no more. -/
theorem respond_two_long_strings :
    let report : Report := ⟨[longEntry 'y', longEntry 'z']⟩
    let response := (respond toolName advice (page "blob" report ⟨0, false⟩ ⟨200, false⟩)).value
    ∃ members view, response = .obj members ∧ View.ofMembers? members = some view ∧
      view.strings = [(longEntry 'y').toJson] ∧ view.count = 2 ∧
      view.returned ≠ view.strings.length ∧
      ¬ (view.hasMore = true ↔ view.offset + view.strings.length < view.count) := by
  intro report response
  have hy : (longEntry 'y').toJson.size = 40046 := size_longEntry (by decide) (by decide)
  have hz : (longEntry 'z').toJson.size = 40046 := size_longEntry (by decide) (by decide)
  exact ⟨_, _, respond_page_of_two hy hz, rfl, rfl, rfl, by decide, by decide⟩

end Page

/-! ## Calls -/

/-- A response that is an object with strings declares the counts of a page. -/
def Page.IsDeclared (response : Json) : Prop :=
  ∀ (members : Json.Members) (strings : List Json), response = .obj members →
    members.get? "strings" = some (.arr strings) → ∃ view, View.ofMembers? members = some view ∧ view.strings = strings ∧
      view.Declares (members.get? remarkName).isSome

/-- A response that is an object with matches declares the counts of a search. -/
def Search.IsDeclared (response : Json) : Prop :=
  ∀ (members : Json.Members) (found : List Json), response = .obj members →
    members.get? "matches" = some (.arr found) → ∃ view, View.ofMembers? members = some view ∧ view.found = found ∧
      view.Declares (members.get? remarkName).isSome

open Course Yields in
/-- A page declares what it delivers exactly if it was not cut. -/
theorem Page.yields (host : Host) (session : Session)
    (path minLength mode labels limit offset : Json) :
    (course host session path minLength mode labels limit offset).Yields IsDeclared := by
  refine require fun minLength _ => require fun mode _ => require fun labels _ => ?_
  refine require fun limit _ => require fun offset hoffset => ?_
  refine Yields.courseOf fun target report response hresponse members strings hmembers hstrings => ?_
  obtain ⟨hgiven, hnonneg⟩ := Argument.offset_eq_ok hoffset
  rw [hmembers] at hresponse
  exact View.declares_of_respond (GivenNumber.toInt?_toJson hgiven) hnonneg
    (Except.ok.inj hresponse) hstrings

open Course Yields in
/-- So does a search. -/
theorem Search.yields (host : Host) (session : Session)
    (patterns path minLength mode labels limit caseSensitive : Json) :
    (course host session patterns path minLength mode labels limit caseSensitive).Yields
      IsDeclared := by
  refine require fun count _ => require fun patterns _ => require fun limit hlimit => ?_
  refine require fun minLength _ => require fun mode _ => require fun labels _ => ?_
  refine Yields.courseOf fun target report response hresponse members strings hmembers hstrings => ?_
  obtain ⟨hgiven, hpos⟩ := Argument.limit_eq_ok hlimit
  rw [hmembers] at hresponse
  unfold answer at hresponse
  split at hresponse
  · exact View.declares_of_respond (GivenNumber.toInt?_toJson hgiven) hpos
      (Except.ok.inj hresponse) hstrings
  · cases hresponse

namespace Tool

/-- A call for a page, by its arguments. -/
theorem page_yields (host : Host) (session : Session) (given : Json.Members) :
    (Tool.page.course host session given).Yields Page.IsDeclared := by
  refine Course.Yields.require fun values _ => ?_
  unfold courseWith
  split
  case h_1 => exact Page.yields _ _ _ _ _ _ _ _
  case h_6 =>
    rintro response hnull members strings rfl
    cases hnull
  all_goals contradiction

/-- A call for a search, by its arguments. -/
theorem search_yields (host : Host) (session : Session) (given : Json.Members) :
    (Tool.search.course host session given).Yields Search.IsDeclared := by
  refine Course.Yields.require fun values _ => ?_
  unfold courseWith
  split
  case h_2 => exact Search.yields _ _ _ _ _ _ _ _ _
  case h_6 =>
    rintro response hnull members found rfl
    cases hnull
  all_goals contradiction

/-- What pages and searches declare.  A response that still has its list delivers what it declares if
it has no remark that it was cut.  One that was cut declares the number of strings or matches before
the cut, which is larger; a page then says by that number whether there are more, and the last page
says that there are none though it has left some out. -/
theorem declares (host : Host) (session : Session) (given members : Json.Members) :
    ((Call.run session (Tool.page.call host given)).1 = .ok (.obj members) →
      ∀ strings, members.get? "strings" = some (.arr strings) →
        ∃ view, Page.View.ofMembers? members = some view ∧ view.strings = strings ∧
          view.Declares (members.get? remarkName).isSome) ∧
    ((Call.run session (Tool.search.call host given)).1 = .ok (.obj members) →
      ∀ found, members.get? "matches" = some (.arr found) →
        ∃ view, Search.View.ofMembers? members = some view ∧ view.found = found ∧
          view.Declares (members.get? remarkName).isSome) := by
  constructor
  · intro hresponse strings hstrings
    rw [(Tool.run_call host session .page given).1] at hresponse
    have hdeclared : Page.IsDeclared (.obj members) :=
      (page_yields host session given).of_result hresponse
    exact hdeclared members strings rfl hstrings
  · intro hresponse found hfound
    rw [(Tool.run_call host session .search given).1] at hresponse
    have hdeclared : Search.IsDeclared (.obj members) :=
      (search_yields host session given).of_result hresponse
    exact hdeclared members found rfl hfound

/-- A page of a small file, which declares what it delivers. -/
theorem declares_hello :
    let host : Host := ⟨⟨["srv"], [(["srv"], .directory),
      (["srv", "blob"], .file (Bytes.ofAscii "hello world"))]⟩, .all, .usual⟩
    let given : Json.Members := [("file_path", .str "blob"), ("mode", .str "raw")]
    ∃ (members : Json.Members) (strings : List Json),
      (Call.run Session.initial (Tool.page.call host given)).1 = .ok (.obj members) ∧
      members.get? "strings" = some (.arr strings) ∧ strings.length = 1 ∧
      ∃ view, Page.View.ofMembers? members = some view ∧ view.strings = strings ∧
        view.Declares (members.get? remarkName).isSome := by
  intro host given
  let entry : Entry := ⟨"hello world", 0, ".text"⟩
  have hresponse : (Call.run Session.initial (Tool.page.call host given)).1 =
      .ok (Page.page "blob" ⟨[entry]⟩ ⟨0, false⟩ ⟨200, false⟩) :=
    eq_ok_of_toOption (by decide +kernel)
  refine ⟨_, [entry.toJson], hresponse, rfl, rfl, ?_⟩
  exact (declares host Session.initial given _).1 hresponse _ rfl

end Tool

end BinaryStrings.Server
