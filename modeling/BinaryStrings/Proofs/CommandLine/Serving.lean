import BinaryStrings.CommandLine.Program
import BinaryStrings.PlainReader
import BinaryStrings.Proofs.CommandLine.NamedFlags
import BinaryStrings.Proofs.Server.Isolation
import BinaryStrings.Proofs.Settings.AllowedPaths

/-!
# The sandbox of a server that is started

The allowed paths of a server come from the command line or else from the settings, and once some are
told, none of the steps between drops them: there is no restriction exactly if nothing is told, and a
text that lists no path allows nothing.

Main results:

- Theorem `exists_starts_iff`: when the server is started.
- Theorem `Starts.allowed_eq_none_iff` and `Starts.allowed_eq_iff`: the allowed paths of a server that is
  started.
- Theorem `Tool.call_of_nothing_allowed`: without allowed paths every path is refused.
- Theorem `Program.starts_sandboxed`: what becomes of the sandbox that is told.
-/

namespace BinaryStrings

namespace Server

/-! ## Nothing allowed -/

variable {host : Host} {session : Session}

theorem Sandbox.check_nil (tree : FileTree) (path : String) :
    check tree (some []) path = .error (.outside ⟨path, []⟩) :=
  rfl

/-- With an empty list of allowed paths, no path is accepted. -/
theorem exists_targetOf_eq_error (hallowed : session.allowed = some []) {path : Json}
    (hpath : path ≠ .null) : ∃ error, targetOf host session path = .error error := by
  rw [targetOf_eq_match]
  cases chosenPath session path with
  | error error => exact ⟨error, rfl⟩
  | ok chosen =>
    dsimp only
    rw [admitted_of_ne_null host session chosen hpath]
    cases hchecked : checkedPath host session chosen with
    | error error => exact ⟨error, rfl⟩
    | ok =>
      obtain ⟨text, -, -, hcheck⟩ := checkedPath_eq_ok_iff.1 hchecked
      rw [hallowed, Sandbox.check_nil] at hcheck
      cases hcheck

/-- With an empty list of allowed paths, every call that gives a path is refused. -/
theorem Tool.call_of_nothing_allowed (hallowed : session.allowed = some []) (tool : Tool)
    {given : Json.Members} (hgiven : pathOf given ≠ .null) :
    ∃ error, (Call.run session (tool.call host given)).1 = .error error ∧
      (Call.run session (tool.call host given)).2.session = session := by
  obtain ⟨error, herror⟩ : ∃ error, targetOf host session (pathOf given) = .error error :=
    exists_targetOf_eq_error hallowed hgiven
  obtain ⟨found, hfound, hsession, -⟩ := call_isRefused tool herror ⟨session, [], []⟩ rfl
  exact ⟨found, hfound, hsession⟩

end Server

namespace CommandLine

/-! ## Runs that start the server -/

/-- A run starts the server. -/
structure Starts (world : World) (words : List String) (outcome : Outcome) : Prop where
  run_eq : Program.run world words = .ok outcome
  transport_ne : outcome.serving.transport ≠ none

/-- The input file of a request is there, if it has one. -/
def HasInput (tree : FileTree) (request : Request) (path : Option String) : Prop :=
  Program.inputPath tree request = .ok path ∧ ∀ file, path = some file → tree.isFile file = true

variable {world : World} {words : List String} {outcome : Outcome} {members : Json.Members}

/-- The allowed paths of a request, by those of its own or by the settings. -/
theorem Serve.allowedPaths_eq {request : Request} (hne : request.allowedPaths ≠ some []) :
    Serve.allowedPaths world.environment world.settings request =
      match request.allowedPaths with
      | some paths => ([], .ok (some paths))
      | none => Settings.allowedPaths world.environment world.settings := by
  unfold Serve.allowedPaths
  split
  · rename_i hpaths
    rw [hpaths]
  · rename_i hother
    cases hpaths : request.allowedPaths with
    | none => rfl
    | some paths =>
      cases paths with
      | nil => exact absurd hpaths hne
      | cons path paths => exact absurd hpaths (hother path paths)

/-- A request starts the server with a session: it asks for that, there is a server library, and its
allowed paths can be had. -/
structure Serves (world : World) (request : Request) (path : Option String)
    (session : Server.Session) : Prop where
  server : request.server = true
  library : world.serverLibrary = true
  allowed : ∃ lines allowed,
    Serve.allowedPaths world.environment world.settings request = (lines, .ok allowed) ∧
      session = Serve.session request path allowed

theorem Program.act_of_serves {request : Request} {path : Option String} {session : Server.Session}
    (h : Serves world request path session) : ∃ outcome, Program.act world request path = .ok outcome ∧
      outcome.serving.transport ≠ none ∧ outcome.serving.session = session := by
  obtain ⟨hserver, hlibrary, lines, allowed, hallowed, rfl⟩ := h
  unfold Program.act Serve.run
  rw [if_pos hserver, hlibrary, hallowed]
  exact ⟨_, rfl, nofun, rfl⟩

theorem Program.serves_of_act {request : Request} {path : Option String}
    (hact : Program.act world request path = .ok outcome) (htransport : outcome.serving.transport ≠ none) :
    Serves world request path outcome.serving.session := by
  unfold Program.act at hact
  split at hact
  · rename_i hserver
    unfold Serve.run at hact
    split at hact
    · cases hact
    · rename_i lines exit serving hrun
      cases hact
      split at hrun
      · cases hrun
        exact absurd rfl htransport
      · rename_i hlibrary
        split at hrun
        · cases hrun
        · rename_i more allowed hallowed
          cases hrun
          exact ⟨hserver, by simpa using hlibrary, more, allowed, hallowed, rfl⟩
  · split at hact
    · cases hact
      exact absurd rfl htransport
    · split at hact
      · cases hact
      · cases hact
        exact absurd rfl htransport

/-- What a run does whose input file is there. -/
theorem Program.runRequest_of_hasInput {request : Request} {path : Option String}
    (h : HasInput world.surroundings.tree request path) :
    Program.runRequest world request = Program.act world request path := by
  obtain ⟨hpath, hfile⟩ := h
  unfold Program.runRequest
  rw [hpath]
  cases path with
  | none => rfl
  | some path =>
    dsimp only
    rw [if_pos (hfile path rfl)]

/-- A run starts the server with a session exactly if its words are read and its input file is there. -/
theorem starts_iff {session : Server.Session} :
    (∃ outcome, Starts world words outcome ∧ outcome.serving.session = session) ↔
      ∃ request path, read world.defaults words = .ok request ∧
        HasInput world.surroundings.tree request path ∧ Serves world request path session := by
  constructor
  · rintro ⟨outcome, ⟨hrun, htransport⟩, rfl⟩
    unfold Program.run at hrun
    split at hrun
    · cases hrun
      exact absurd rfl htransport
    · cases hrun
      exact absurd rfl htransport
    · rename_i request hread
      unfold Program.runRequest at hrun
      split at hrun
      · cases hrun
      · rename_i hpath
        exact ⟨request, none, hread, ⟨hpath, nofun⟩, Program.serves_of_act hrun htransport⟩
      · rename_i path hpath
        split at hrun
        · rename_i hfile
          refine ⟨request, some path, hread, ⟨hpath, ?_⟩, Program.serves_of_act hrun htransport⟩
          rintro _ ⟨⟩
          exact hfile
        · cases hrun
          exact absurd rfl htransport
  · rintro ⟨request, path, hread, hinput, hserves⟩
    obtain ⟨outcome, hact, htransport, hsession⟩ := Program.act_of_serves hserves
    refine ⟨outcome, ⟨?_, htransport⟩, hsession⟩
    rw [Program.run, hread]
    exact (Program.runRequest_of_hasInput hinput).trans hact

/-! ## The sandbox -/

/-- The allowed paths of a server that is started are those that its command line names, or else those
of the settings. -/
theorem Serves.allowed_cases {request : Request} {path : Option String} {session : Server.Session}
    (h : Serves world request path session) (hread : read world.defaults words = .ok request) :
    (∃ paths, request.allowedPaths = some paths ∧ session.allowed = some paths) ∨
      request.allowedPaths = none ∧
        ∃ lines, Settings.allowedPaths world.environment world.settings = (lines, .ok session.allowed) := by
  obtain ⟨-, -, lines, allowed, hallowed, rfl⟩ := h
  rw [Serve.allowedPaths_eq (allowedPaths_ne_nil hread)] at hallowed
  cases hpaths : request.allowedPaths with
  | some paths =>
    rw [hpaths] at hallowed
    cases hallowed
    exact .inl ⟨paths, rfl, rfl⟩
  | none =>
    rw [hpaths] at hallowed
    exact .inr ⟨rfl, lines, hallowed⟩

/-- With settings that are read, the allowed paths of a request can be had. -/
theorem exists_serves {request : Request} (hload : (Settings.load world.settings).2 = .ok members)
    (hread : read world.defaults words = .ok request) (hserver : request.server = true)
    (hlibrary : world.serverLibrary = true) (path : Option String) :
    ∃ session, Serves world request path session := by
  have hallowed : ∃ lines allowed,
      Serve.allowedPaths world.environment world.settings request = (lines, .ok allowed) := by
    rw [Serve.allowedPaths_eq (allowedPaths_ne_nil hread)]
    cases request.allowedPaths with
    | some paths => exact ⟨_, _, rfl⟩
    | none =>
      obtain ⟨lines, allowed, hallowed, -⟩ := Settings.exists_allowedPaths hload
      exact ⟨lines, allowed, hallowed⟩
  obtain ⟨lines, allowed, hallowed⟩ := hallowed
  exact ⟨_, hserver, hlibrary, lines, allowed, hallowed, rfl⟩

theorem Starts.exists_serves (h : Starts world words outcome) :
    ∃ request path, read world.defaults words = .ok request ∧
      HasInput world.surroundings.tree request path ∧
      Serves world request path outcome.serving.session :=
  starts_iff.1 ⟨outcome, h, rfl⟩

/-- A command line names these allowed paths. -/
def NamesPaths (world : World) (words : List String) (paths : List String) : Prop :=
  ∃ request, read world.defaults words = .ok request ∧ request.allowedPaths = some paths

/-- The allowed paths that are named are those of the server. -/
theorem Starts.allowed_of_namesPaths {paths : List String} (h : Starts world words outcome)
    (hpaths : NamesPaths world words paths) : outcome.serving.session.allowed = some paths := by
  obtain ⟨request, path, hread, -, hserves⟩ := h.exists_serves
  obtain ⟨other, hother, hnamed⟩ := hpaths
  cases hread.symm.trans hother
  rcases hserves.allowed_cases hread with ⟨named, hsame, hallowed⟩ | ⟨hnone, -⟩
  · rw [hallowed, ← hsame, hnamed]
  · rw [hnone] at hnamed
    cases hnamed

/-- Without named paths the allowed ones are those of the settings. -/
theorem Starts.allowed_of_not_names (h : Starts world words outcome)
    (hnames : ¬ Names words .allowedPaths) : ∃ lines,
      Settings.allowedPaths world.environment world.settings =
        (lines, .ok outcome.serving.session.allowed) := by
  obtain ⟨request, path, hread, -, hserves⟩ := h.exists_serves
  rcases hserves.allowed_cases hread with ⟨paths, hpaths, -⟩ | ⟨-, hsettings⟩
  · refine absurd ((has_iff_names (.inr rfl) hread).1 ?_) hnames
    rw [Request.Has, hpaths]
    exact Option.some_ne_none paths
  · exact hsettings

theorem Starts.allowed_ne_none (h : Starts world words outcome) (hnames : Names words .allowedPaths) :
    outcome.serving.session.allowed ≠ none := by
  obtain ⟨request, path, hread, -, hserves⟩ := h.exists_serves
  rcases hserves.allowed_cases hread with ⟨paths, -, hallowed⟩ | ⟨hnone, -⟩
  · rw [hallowed]
    exact Option.some_ne_none paths
  · exact absurd hnone ((has_iff_names (.inr rfl) hread).2 hnames)

/-- When the server is started. -/
theorem exists_starts_iff (hload : (Settings.load world.settings).2 = .ok members) :
    (∃ outcome, Starts world words outcome) ↔
      Names words .server ∧ world.serverLibrary = true ∧
        ∃ request path, read world.defaults words = .ok request ∧
          HasInput world.surroundings.tree request path := by
  constructor
  · rintro ⟨outcome, hstarts⟩
    obtain ⟨request, path, hread, hinput, hserves⟩ := hstarts.exists_serves
    exact ⟨(has_iff_names (.inl rfl) hread).1 hserves.server, hserves.library, request, path, hread,
      hinput⟩
  · rintro ⟨hnames, hlibrary, request, path, hread, hinput⟩
    have hserver : request.server = true := (has_iff_names (.inl rfl) hread).2 hnames
    obtain ⟨session, hserves⟩ := exists_serves hload hread hserver hlibrary path
    obtain ⟨outcome, hstarts, -⟩ := starts_iff.2 ⟨request, path, hread, hinput, hserves⟩
    exact ⟨outcome, hstarts⟩

/-- There is no restriction exactly if no paths are told. -/
theorem Starts.allowed_eq_none_iff (hload : (Settings.load world.settings).2 = .ok members)
    (h : Starts world words outcome) : outcome.serving.session.allowed = none ↔
      ¬ Names words .allowedPaths ∧
        ∀ text, Settings.IsConfigured world.environment members text → text = "" := by
  by_cases hnames : Names words .allowedPaths
  · exact iff_of_false (h.allowed_ne_none hnames) fun hnone => hnone.1 hnames
  · obtain ⟨lines, hsettings⟩ := h.allowed_of_not_names hnames
    obtain ⟨others, allowed, hallowed, hnone, -⟩ := Settings.exists_allowedPaths hload
    cases hsettings.symm.trans hallowed
    rw [hnone, and_iff_right hnames]

/-- The paths that a text in the settings lists are the allowed ones. -/
theorem Starts.allowed_eq_iff (hload : (Settings.load world.settings).2 = .ok members)
    (h : Starts world words outcome) (hnames : ¬ Names words .allowedPaths) {text : String}
    (htext : Settings.IsConfigured world.environment members text) (hne : text ≠ "")
    (paths : List String) : outcome.serving.session.allowed = some paths ↔
      Settings.IsListing paths text.toList := by
  obtain ⟨lines, hsettings⟩ := h.allowed_of_not_names hnames
  obtain ⟨others, allowed, hallowed, -, hlisted⟩ := Settings.exists_allowedPaths hload
  cases hsettings.symm.trans hallowed
  exact hlisted text paths htext hne

/-- The sandbox of a server that is started.  There is no restriction exactly if neither the command line
nor a text in the settings tells paths.  A text of nothing but marks allows nothing, so that every call
with a path is refused.  A text that lists paths decides like a command line with these paths, on every
file tree and for every path. -/
theorem Program.starts_sandboxed (world : World) (words : List String) (members : Json.Members)
    (hload : (Settings.load world.settings).2 = .ok members) :
    ((∃ outcome, Starts world words outcome) ↔
      Names words .server ∧ world.serverLibrary = true ∧
        ∃ request path, read world.defaults words = .ok request ∧
          HasInput world.surroundings.tree request path) ∧
    (∀ paths, (∀ path ∈ paths, path ≠ "" ∧ ':' ∉ path.toList) →
      Settings.IsListing paths (String.intercalate ":" paths).toList) ∧
    ∀ outcome, Starts world words outcome →
      let allowed := outcome.serving.session.allowed
      (allowed = none ↔ ¬ Names words .allowedPaths ∧
        ∀ text, Settings.IsConfigured world.environment members text → text = "") ∧
      (∀ text, ¬ Names words .allowedPaths →
        Settings.IsConfigured world.environment members text → text ≠ "" →
          ((∀ c ∈ text.toList, c = ':') → allowed = some []) ∧
          ∀ paths, Settings.IsListing paths text.toList →
            ∀ other others compared, Starts other others compared → NamesPaths other others paths →
              ∀ tree path, Server.Sandbox.check tree allowed path =
                Server.Sandbox.check tree compared.serving.session.allowed path) ∧
      (allowed = some [] → ∀ session host tool given, session.allowed = allowed →
        Server.Tool.pathOf given ≠ .null →
          ∃ error, (Server.Call.run session (Server.Tool.call host tool given)).1 = .error error) := by
  refine ⟨exists_starts_iff hload, ?_, ?_⟩
  · exact fun paths hpaths => Settings.isListing_intercalate fun path hpath =>
      ⟨(hpaths path hpath).1, (hpaths path hpath).2⟩
  · intro outcome hstarts allowed
    refine ⟨hstarts.allowed_eq_none_iff hload, ?_, ?_⟩
    · intro text hnames htext hne
      have hallowed := hstarts.allowed_eq_iff hload hnames htext hne
      refine ⟨fun hmarks => (hallowed []).2 (Settings.isListing_nil_iff.2 hmarks), ?_⟩
      intro paths hlisting other others compared hother hpaths tree path
      rw [hother.allowed_of_namesPaths hpaths]
      exact congrArg (Server.Sandbox.check tree · path) ((hallowed paths).2 hlisting)
    · intro hnothing session host tool given hsession hgiven
      obtain ⟨error, herror, -⟩ := Server.Tool.call_of_nothing_allowed (hsession.trans hnothing) tool hgiven
      exact ⟨error, herror⟩

/-- A command line for the server. -/
def servingWords : List String := ["--mcp-server"]

/-- A command line for the server with two allowed paths. -/
def pathWords : List String := ["--mcp-server", "--allowed-paths", "/srv", "/tmp"]

/-- A world without files, with a text for the allowed paths in its environment. -/
def emptyWorld (text : String) : World :=
  ⟨"binstrings", ⟨FileTree.empty ["work"], .all, .utf8⟩, .usual, [("BINSTRINGS_ALLOWED_PATHS", text)],
    ⟨"config.json", .missing⟩, true, false, .finished⟩

/-- A listing with more marks than it needs decides like the paths on a command line, and marks alone
allow nothing. -/
theorem Program.starts_sandboxed_two_paths :
    ∃ listed compared nothing, Starts (emptyWorld "::/srv::/tmp:") servingWords listed ∧
      Starts (emptyWorld "") pathWords compared ∧ Starts (emptyWorld "::") servingWords nothing ∧
      (∀ tree path, Server.Sandbox.check tree listed.serving.session.allowed path =
        Server.Sandbox.check tree compared.serving.session.allowed path) ∧
      nothing.serving.session.allowed = some [] ∧
      ∃ error, (Server.Call.run nothing.serving.session
        (Server.Tool.call ⟨FileTree.empty ["work"], .all, .usual⟩ .summary
          [("file_path", .str "/srv/blob")])).1 = .error error := by
  have hserving : Word.readAll servingWords =
      .ok [(.use ⟨.server, false, none⟩, "--mcp-server")] := eq_ok_of_toOption (by decide +kernel)
  have hpaths : Word.readAll pathWords = .ok [(.use ⟨.server, false, none⟩, "--mcp-server"),
      (.use ⟨.allowedPaths, false, none⟩, "--allowed-paths"), (.value, "/srv"), (.value, "/tmp")] :=
    eq_ok_of_toOption (by decide +kernel)
  have hreadServing : read .usual servingWords = .ok { Request.initial .usual with server := true } :=
    eq_ok_of_toOption (by decide +kernel)
  have hreadPaths : read .usual pathWords = .ok
      { Request.initial .usual with server := true, allowedPaths := some ["/srv", "/tmp"] } :=
    eq_ok_of_toOption (by decide +kernel)
  have hnoPaths : ¬ Names servingWords .allowedPaths := by
    rintro ⟨kinds, hkinds, found, text, hmem, hflag⟩
    cases hserving.symm.trans hkinds
    cases List.mem_singleton.1 hmem
    cases hflag
  have hconfigured : ∀ text, text ≠ "" →
      Settings.IsConfigured (emptyWorld text).environment [] text := fun text hne =>
    .ofEnvironment (by simp [emptyWorld]) hne
  have hsandbox : ∀ text words, _ := fun text words =>
    Program.starts_sandboxed (emptyWorld text) words [] rfl
  obtain ⟨listed, hlisted⟩ := (hsandbox "::/srv::/tmp:" servingWords).1.2
    ⟨⟨_, hserving, _, _, List.mem_cons_self, rfl⟩, rfl, _, none, hreadServing, rfl, nofun⟩
  obtain ⟨compared, hcompared⟩ := (hsandbox "" pathWords).1.2
    ⟨⟨_, hpaths, _, _, List.mem_cons_self, rfl⟩, rfl, _, none, hreadPaths, rfl, nofun⟩
  obtain ⟨nothing, hnothing⟩ := (hsandbox "::" servingWords).1.2
    ⟨⟨_, hserving, _, _, List.mem_cons_self, rfl⟩, rfl, _, none, hreadServing, rfl, nofun⟩
  refine ⟨listed, compared, nothing, hlisted, hcompared, hnothing, ?_⟩
  have hlisting : Settings.IsListing ["/srv", "/tmp"] "::/srv::/tmp:".toList :=
    Settings.pathsOf_eq_iff.1 (by decide +kernel)
  have hdecides := ((hsandbox _ _).2.2 listed hlisted).2.1 _ hnoPaths (hconfigured _ (by decide))
    (by decide)
  obtain ⟨-, hmarks, hrefused⟩ := (hsandbox _ _).2.2 nothing hnothing
  have hnone := (hmarks _ hnoPaths (hconfigured _ (by decide)) (by decide)).1 (by simp)
  have hgiven : Server.Tool.pathOf [("file_path", .str "/srv/blob")] = .str "/srv/blob" := rfl
  exact ⟨hdecides.2 _ hlisting _ _ compared hcompared ⟨_, hreadPaths, rfl⟩, hnone,
    hrefused hnone _ _ _ _ rfl (by rw [hgiven]; nofun)⟩

end CommandLine

end BinaryStrings
