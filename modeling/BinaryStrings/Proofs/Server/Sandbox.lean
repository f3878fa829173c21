import Mathlib.Data.List.TakeWhile
import BinaryStrings.Proofs.FileTree.Access
import BinaryStrings.Server.Tool

/-!
# What the sandbox lets through

A path that leads somewhere gets past the check exactly when the place where it leads is at or below
the real place of an allowed path.  The file that is opened afterwards, by the path as it was given,
is the one at this place.

Two hosts are alike outside the sandbox when they have the same directories and links, the same
files below the allowed paths, and the same loaded file.  On such hosts a call gets the same path or
the same refusal, and a path that it gets has the same contents and the same report.

Main results:

- Theorem `Sandbox.check_realPath_eq_ok_iff`: what gets past the check.
- Theorem `Alike.targetOf_eq`: alike hosts give calls the same path.
- Theorem `Alike.reportOf_eq`: alike hosts give the same report of it.
-/

namespace BinaryStrings.Server

open FileTree

/-! ## The check -/

namespace Sandbox

/-- The allowed paths that are looked up: those in front of the first one that has no real path. -/
def lookedUp (tree : FileTree) (roots : List String) : List String :=
  roots.takeWhile tree.hasRealPath

/-- All allowed paths are looked up when all have real paths. -/
theorem lookedUp_eq_self {tree : FileTree} {roots : List String}
    (hreal : ∀ root ∈ roots, tree.hasRealPath root = true) : lookedUp tree roots = roots :=
  List.takeWhile_eq_self_iff.2 hreal

theorem exists_of_permits?_eq_none {tree : FileTree} {path : String} {roots : List String}
    (h : permits? tree path roots = none) : ∃ root ∈ roots, tree.hasRealPath root = false := by
  induction roots with
  | nil => cases h
  | cons root rest ih =>
    rw [permits?] at h
    cases hreal : tree.hasRealPath root with
    | false => exact ⟨root, List.mem_cons_self, hreal⟩
    | true =>
      have hrest : permits? tree path rest = none := by
        rw [hreal] at h
        by_cases hwithin : isWithin tree path root = true
        · rw [hwithin] at h
          cases h
        · simpa [hwithin] using h
      obtain ⟨found, hfound, hnone⟩ := ih hrest
      exact ⟨found, List.mem_cons_of_mem root hfound, hnone⟩

theorem permits?_eq_true_iff {tree : FileTree} {path : String} {roots : List String} :
    permits? tree path roots = some true ↔
      ∃ root ∈ lookedUp tree roots, isWithin tree path root = true := by
  induction roots with
  | nil => simp [permits?, lookedUp]
  | cons root rest ih =>
    unfold lookedUp at ih ⊢
    rw [permits?, List.takeWhile_cons]
    cases tree.hasRealPath root with
    | false => simp
    | true => by_cases hwithin : isWithin tree path root = true <;> simp [hwithin, ih]

theorem check_eq_ok_iff {tree : FileTree} {roots : List String} {path : String} :
    check tree (some roots) path = .ok () ↔ permits? tree path roots = some true := by
  simp only [check]
  split <;> simp_all

/-- A path that leads somewhere is let through when it leads below an allowed one. -/
theorem check_realPath_eq_ok_iff {tree : FileTree} {roots : List String} {path : String}
    {place : Place} (hcurrent : tree.IsSettled tree.current) (hpath : tree.LeadsTo path place) :
    check tree (some roots) (tree.realPath path) = .ok () ↔
      ∃ root ∈ lookedUp tree roots, tree.realPlace root <+: place := by
  simp only [check_eq_ok_iff, permits?_eq_true_iff, isWithin, realPlace_realPath hpath hcurrent,
    List.isPrefixOf_iff_prefix]

end Sandbox

/-- Only texts get past the check that have a real path, and those that the sandbox lets through. -/
theorem checkedPath_eq_ok_iff {host : Host} {session : Session} {path : Json} :
    checkedPath host session path = .ok () ↔
      ∃ text, path = .str text ∧ host.tree.hasRealPath text = true ∧
        Sandbox.check host.tree session.allowed (host.tree.realPath text) = .ok () := by
  cases path with
  | str text =>
    have hmap : ∀ outcome : Except Sandbox.Refusal Unit,
        outcome.mapError CallError.denied = .ok () ↔ outcome = .ok () := by
      intro outcome
      rcases outcome with refusal | ⟨⟩
      · exact ⟨nofun, nofun⟩
      · exact ⟨fun _ => rfl, fun _ => rfl⟩
    by_cases hreal : host.tree.hasRealPath text = true <;> simp [checkedPath, hmap, hreal]
  | _ => simp [checkedPath]

/-- The path of a call without one is that of the loaded file. -/
theorem chosenPath_null_eq_ok {session : Session} {chosen : Json}
    (h : chosenPath session .null = .ok chosen) :
    ∃ text, session.file = some text ∧ chosen = .str text := by
  unfold chosenPath at h
  cases hfile : session.file with
  | none => simp [hfile, Json.isTruthy] at h
  | some text =>
    simp only [hfile, Json.isTruthy, Option.map_some, Option.getD_some, Bool.false_eq_true,
      if_false] at h
    split at h
    · cases h
      exact ⟨text, rfl, rfl⟩
    · cases h

/-- Checks the path that was chosen, where the call gives one. -/
def admitted (host : Host) (session : Session) (path chosen : Json) : Except CallError Unit :=
  match path with
  | .null => .ok ()
  | _ => checkedPath host session chosen

theorem admitted_of_ne_null (host : Host) (session : Session) {path : Json} (chosen : Json)
    (hpath : path ≠ .null) : admitted host session path chosen = checkedPath host session chosen := by
  cases path with
  | null => exact absurd rfl hpath
  | _ => rfl

theorem targetOf_eq_match (host : Host) (session : Session) (path : Json) :
    targetOf host session path =
      match chosenPath session path with
      | .error error => .error error
      | .ok chosen =>
        match admitted host session path chosen with
        | .error error => .error error
        | .ok () =>
          if host.tree.isFile chosen.phrase then .ok chosen.phrase
          else .error (.notFound chosen.phrase) := by
  unfold targetOf
  cases chosenPath session path with
  | error error => rfl
  | ok chosen =>
    have hbind : ∀ outcome : Except CallError Unit,
        (outcome >>= fun _ =>
          if host.tree.isFile chosen.phrase then pure chosen.phrase
          else throw (.notFound chosen.phrase)) =
        match outcome with
        | .error error => .error error
        | .ok () =>
          if host.tree.isFile chosen.phrase then .ok chosen.phrase
          else .error (.notFound chosen.phrase) := by
      intro outcome
      cases outcome <;> rfl
    cases path with
    | null => rfl
    | _ => exact hbind _

/-- A server without restrictions accepts the path of every file. -/
theorem targetOf_str {host : Host} {session : Session} {path : String}
    (hallowed : session.allowed = none) (hreal : host.tree.hasRealPath path = true)
    (hfile : host.tree.isFile path = true) : targetOf host session (.str path) = .ok path := by
  have hchosen : chosenPath session (.str path) = .ok (.str path) := by
    simp [chosenPath, Json.isTruthy, isEmpty_of_isFile hfile]
  have hadmitted : admitted host session (.str path) (.str path) = .ok () := by
    have hne : Json.str path ≠ .null := nofun
    rw [admitted_of_ne_null _ _ _ hne, checkedPath_eq_ok_iff]
    exact ⟨path, rfl, hreal, by rw [hallowed]; rfl⟩
  have hphrase : (Json.str path).phrase = path := rfl
  rw [targetOf_eq_match, hchosen]
  simp only [hadmitted, hphrase, hfile, if_true]

/-- The error is the refusal of a path for the check: it has no real path, an allowed one has none, or
it is outside the allowed ones and its real path is named. -/
inductive IsRefusal (host : Host) (roots : List String) (text : String) : CallError → Prop where
  | noRealPath (hreal : host.tree.hasRealPath text = false) : IsRefusal host roots text .noRealPath
  | noRealRoot {root : String} (hroot : root ∈ roots) (hreal : host.tree.hasRealPath root = false) :
      IsRefusal host roots text (.denied .noRealPath)
  | outside : IsRefusal host roots text (.denied (.outside ⟨host.tree.realPath text, roots⟩))

/-- A path that does not get past the check is refused for it. -/
theorem targetOf_of_not_checked {host : Host} {session : Session} {roots : List String} {path : Json}
    {text : String} (hallowed : session.allowed = some roots) (hpath : path ≠ .null)
    (hchosen : chosenPath session path = .ok (.str text))
    (hchecked : checkedPath host session (.str text) ≠ .ok ()) :
    ∃ error, targetOf host session path = .error error ∧ IsRefusal host roots text error := by
  rw [targetOf_eq_match, hchosen]
  dsimp only
  rw [admitted_of_ne_null host session _ hpath]
  unfold checkedPath at hchecked ⊢
  dsimp only at hchecked ⊢
  rw [hallowed] at hchecked ⊢
  split at hchecked
  · rename_i hreal
    rw [if_pos hreal]
    unfold Sandbox.check at hchecked ⊢
    dsimp only at hchecked ⊢
    split at hchecked
    · exact absurd rfl hchecked
    · exact ⟨_, rfl, .outside⟩
    · rename_i hnone
      obtain ⟨root, hroot, hnull⟩ := Sandbox.exists_of_permits?_eq_none hnone
      exact ⟨_, rfl, .noRealRoot hroot hnull⟩
  · rename_i hreal
    rw [if_neg hreal]
    exact ⟨_, rfl, .noRealPath (Bool.eq_false_iff.2 hreal)⟩

/-- A call gets the path of a file. -/
theorem isFile_of_targetOf {host : Host} {session : Session} {path : Json} {target : String}
    (h : targetOf host session path = .ok target) : host.tree.isFile target = true := by
  rw [targetOf_eq_match] at h
  split at h
  · cases h
  · split at h
    · cases h
    · split at h
      · rename_i hfile
        cases h
        exact hfile
      · cases h

/-! ## Hosts that are alike outside the sandbox -/

/-- Two hosts that differ at most in files that are neither below the allowed paths nor the loaded
file. -/
structure Alike (file : Option String) (roots : List String) (host other : Host) : Prop where
  readers_eq : host.readers = other.readers
  defaults_eq : host.defaults = other.defaults
  shape : SameShape host.tree other.tree
  below : ∀ root ∈ roots, ∀ place, host.tree.realPlace root <+: place →
    ∀ node : FileNode, node.opened?.isSome →
      (host.tree.nodeAt? place = some node ↔ other.tree.nodeAt? place = some node)
  loaded : ∀ path, file = some path → host.tree.fileAt? path = other.tree.fileAt? path

namespace Alike

variable {file : Option String} {roots : List String} {host other : Host}

theorem symm (h : Alike file roots host other) : Alike file roots other host where
  readers_eq := h.readers_eq.symm
  defaults_eq := h.defaults_eq.symm
  shape := h.shape.symm
  below := fun root hroot place hplace node hnode =>
    (h.below root hroot place (by rw [h.shape.realPlace_eq]; exact hplace) node hnode).symm
  loaded := fun path hpath => (h.loaded path hpath).symm

/-- A file that is let through on one host is there on the other. -/
theorem fileAt?_of_check (h : Alike file roots host other)
    (hcurrent : host.tree.IsSettled host.tree.current) {path : String}
    {opened : Except FileError Bytes}
    (hcheck : Sandbox.check host.tree (some roots) (host.tree.realPath path) = .ok ())
    (hopened : host.tree.fileAt? path = some opened) : other.tree.fileAt? path = some opened := by
  obtain ⟨place, node, hfind, hnode⟩ := fileAt?_eq_some_iff.1 hopened
  obtain ⟨root, hroot, hbegins⟩ :=
    (Sandbox.check_realPath_eq_ok_iff hcurrent (leadsTo_of_find hfind)).1 hcheck
  have hisFile : node.opened?.isSome := by simp [hnode]
  have hfile := (h.below root ((List.takeWhile_sublist _).subset hroot) place hbegins node hisFile).1
    (nodeAt?_of_find hisFile hfind)
  exact fileAt?_eq_some_iff.2 ⟨place, node, h.shape.find_eq_file hisFile hfile hfind, hnode⟩

theorem check_eq (h : Alike file roots host other) (path : String) :
    Sandbox.check host.tree (some roots) path = Sandbox.check other.tree (some roots) path := by
  have hpermits : ∀ roots, Sandbox.permits? host.tree path roots =
      Sandbox.permits? other.tree path roots := by
    intro roots
    induction roots with
    | nil => rfl
    | cons root rest ih =>
      rw [Sandbox.permits?, Sandbox.permits?, Sandbox.isWithin, Sandbox.isWithin,
        h.shape.hasRealPath_eq, h.shape.realPlace_eq, h.shape.realPlace_eq, ih]
  simp only [Sandbox.check, hpermits]

/-- A path that is let through leads to the same file on both hosts. -/
theorem fileAt?_eq_of_check (h : Alike file roots host other)
    (hcurrent : host.tree.IsSettled host.tree.current) {path : String}
    (hcheck : Sandbox.check host.tree (some roots) (host.tree.realPath path) = .ok ()) :
    host.tree.fileAt? path = other.tree.fileAt? path := by
  refine Option.ext fun opened =>
    ⟨h.fileAt?_of_check hcurrent hcheck, h.symm.fileAt?_of_check ?_ ?_⟩
  · exact h.shape.isSettled_current hcurrent
  · rw [← h.check_eq, ← h.shape.realPath_eq]
    exact hcheck

/-- A file that is neither below an allowed path nor loaded may have other contents. -/
theorem putNode_file {place : Place} {data : Bytes} (contents : Bytes) (hplace : place ≠ [])
    (hfile : host.tree.nodeAt? place = some (.file data))
    (houtside : ∀ root ∈ roots, ¬ host.tree.realPlace root <+: place)
    (hloaded : ∀ path, file = some path → host.tree.realPlace path ≠ place) :
    Alike file roots host { host with tree := host.tree.putNode place (.file contents) } where
  readers_eq := rfl
  defaults_eq := rfl
  shape := SameShape.putNode_file host.tree contents hplace hfile
  below := by
    intro root hroot front hfront node _
    have hne : front ≠ place := by
      rintro rfl
      exact houtside root hroot hfront
    rw [nodeAt?_putNode host.tree _ front hplace, if_neg hne]
  loaded := by
    intro path hpath
    have hshape := SameShape.putNode_file host.tree contents hplace hfile
    have hnode : (host.tree.putNode place (.file contents)).nodeAt? (host.tree.realPlace path) =
        host.tree.nodeAt? (host.tree.realPlace path) := by
      rw [nodeAt?_putNode host.tree _ _ hplace, if_neg (hloaded path hpath)]
    refine Option.ext fun opened => ?_
    rw [fileAt?_eq_some_iff, fileAt?_eq_some_iff]
    refine exists_congr fun found => exists_congr fun node =>
      and_congr_left fun hopened => ⟨fun hfind => ?_, fun hfind => ?_⟩
    · obtain rfl := realPlace_eq_of_leadsTo (leadsTo_of_find hfind)
      have hisFile : node.opened?.isSome := by simp [hopened]
      exact hshape.find_eq_file hisFile (hnode.trans (nodeAt?_of_find hisFile hfind)) hfind
    · have hreal := realPlace_eq_of_leadsTo (leadsTo_of_find hfind)
      rw [← hshape.realPlace_eq] at hreal
      subst hreal
      have hisFile : node.opened?.isSome := by simp [hopened]
      exact hshape.symm.find_eq_file hisFile
        (hnode.symm.trans (nodeAt?_of_find hisFile hfind)) hfind

/-! ## The file of a call -/

section

variable {session : Session} {path : Json}

theorem admitted_eq (h : Alike file roots host other) (hallowed : session.allowed = some roots)
    (path chosen : Json) : admitted host session path chosen = admitted other session path chosen := by
  have hchecked : checkedPath host session chosen = checkedPath other session chosen := by
    cases chosen with
    | str text =>
      simp only [checkedPath, hallowed, h.shape.realPath_eq, h.shape.hasRealPath_eq, h.check_eq]
    | _ => rfl
  cases path with
  | null => rfl
  | _ => exact hchecked

/-- A path that is chosen and admitted leads to the same file on both hosts. -/
theorem fileAt?_eq_of_admitted (h : Alike file roots host other)
    (hcurrent : host.tree.IsSettled host.tree.current) (hfile : session.file = file)
    (hallowed : session.allowed = some roots) {chosen : Json}
    (hchosen : chosenPath session path = .ok chosen)
    (hadmitted : admitted host session path chosen = .ok ()) :
    host.tree.fileAt? chosen.phrase = other.tree.fileAt? chosen.phrase := by
  by_cases hpath : path = .null
  · rw [hpath] at hchosen
    obtain ⟨text, hloaded, rfl⟩ := chosenPath_null_eq_ok hchosen
    exact h.loaded text (hfile ▸ hloaded)
  · rw [admitted_of_ne_null host session chosen hpath, checkedPath_eq_ok_iff, hallowed] at hadmitted
    obtain ⟨text, rfl, -, hcheck⟩ := hadmitted
    exact h.fileAt?_eq_of_check hcurrent hcheck

/-- A call gets the same path or the same refusal on both hosts. -/
theorem targetOf_eq (h : Alike file roots host other)
    (hcurrent : host.tree.IsSettled host.tree.current) (hfile : session.file = file)
    (hallowed : session.allowed = some roots) (path : Json) :
    targetOf host session path = targetOf other session path := by
  rw [targetOf_eq_match, targetOf_eq_match]
  cases hchosen : chosenPath session path with
  | error error => rfl
  | ok chosen =>
    dsimp only
    rw [← h.admitted_eq hallowed]
    cases hadmitted : admitted host session path chosen with
    | error error => rfl
    | ok done =>
      have hopened := h.fileAt?_eq_of_admitted hcurrent hfile hallowed hchosen hadmitted
      have hisFile : host.tree.isFile chosen.phrase = other.tree.isFile chosen.phrase := by
        rw [isFile, isFile, hopened]
      rw [hisFile]

/-- The path that a call gets leads to the same file on both hosts. -/
theorem fileAt?_eq_of_targetOf (h : Alike file roots host other)
    (hcurrent : host.tree.IsSettled host.tree.current) (hfile : session.file = file)
    (hallowed : session.allowed = some roots) {target : String}
    (htarget : targetOf host session path = .ok target) :
    host.tree.fileAt? target = other.tree.fileAt? target := by
  rw [targetOf_eq_match] at htarget
  split at htarget
  · cases htarget
  · rename_i chosen hchosen
    split at htarget
    · cases htarget
    · rename_i hadmitted
      split at htarget
      · cases htarget
        exact h.fileAt?_eq_of_admitted hcurrent hfile hallowed hchosen hadmitted
      · cases htarget

end

/-! ## Reports -/

theorem freshReport_eq (h : Alike file roots host other) {target : String}
    (hopened : host.tree.fileAt? target = other.tree.fileAt? target) (mode : String)
    (rawBase minLength : Int) :
    freshReport host target mode rawBase minLength =
      freshReport other target mode rawBase minLength := by
  have hopen : OpenFile.openSource host.tree host.readers target mode rawBase =
      OpenFile.openSource other.tree other.readers target mode rawBase := by
    simp only [OpenFile.openSource, hopened, h.readers_eq]
  simp only [freshReport, hopen, h.defaults_eq]

theorem keyFor_eq (h : Alike file roots host other) (session : Session) (target : String)
    (mode : Option String) (minLength : Option GivenNumber) :
    keyFor host session target mode minLength = keyFor other session target mode minLength := by
  simp only [keyFor, minLengthFor, h.shape.realPath_eq, h.defaults_eq]

/-- Both hosts give the same report of a path that leads to the same file, in every session. -/
theorem reportOf_eq (h : Alike file roots host other) {target : String}
    (hopened : host.tree.fileAt? target = other.tree.fileAt? target) (mode : Option String)
    (minLength : Option GivenNumber) :
    reportOf host target mode minLength = reportOf other target mode minLength := by
  simp only [reportOf, h.keyFor_eq, h.freshReport_eq hopened, minLengthFor, h.defaults_eq]

/-- Both hosts tell the same format of a path that leads to the same file. -/
theorem detect_eq (h : Alike file roots host other) {target : String}
    (hisFile : host.tree.isFile target = true)
    (hopened : host.tree.fileAt? target = other.tree.fileAt? target) :
    Format.detect host target = Format.detect other target := by
  have hread := read_eq_of_fileAt?_eq hisFile hopened
  have hsections : Format.sectionMembers host = Format.sectionMembers other := by
    funext path data format
    cases format with
    | none => rfl
    | some format => simp only [Format.sectionMembers, h.readers_eq]
  simp only [Format.detect, Format.commonMembers, hread, hsections, h.readers_eq]

end Alike

end BinaryStrings.Server
