import JavaGraph.Proofs.Scan.Comments
import JavaGraph.Proofs.Scan.Unrecorded
import JavaGraph.Session
/-!
# What a configuration decides

Which tokens are collected and whether comments are attached decides nothing about the graph and the
reports. Whether uses of fields are recorded decides whether the graph has them, and nothing else.
-/

namespace JavaGraph

open JavaGraph.Action

/-! ### Projects -/

namespace Project

/-- The project without the uses of fields that are recorded in its graph. -/
def withoutAccesses (project : Project) : Project :=
  { project with store := project.store.withoutAccesses }

instance {ε : Type} (path : String) :
    Commutes withoutAccesses (fileId path : Action ε Project FileId) := ⟨fun _ => rfl⟩

instance {α : Type} (action : GraphAction α) [Commutes Graph.withoutAccesses action] :
    Commutes withoutAccesses (onGraph action) :=
  commutes_within (ψ := Store.withoutAccesses) inferInstance (fun _ => rfl) fun _ _ => rfl

instance (path text : String) : Commutes withoutAccesses (scanText path text) := by
  unfold scanText
  infer_instance

end Project

/-! ### Scans in a scope -/

namespace OpenProject

/-- The project without the uses of fields that are recorded in its graph. -/
def withoutAccesses (opened : OpenProject) : OpenProject :=
  { opened with toProject := opened.toProject.withoutAccesses }

instance {ε α : Type} (action : Action ε Project α) [h : Commutes Project.withoutAccesses action] :
    Commutes withoutAccesses (onProject action) :=
  commutes_within h (fun _ => rfl) fun _ _ => rfl

instance {α : Type} (action : GraphAction α) [Commutes Graph.withoutAccesses action] :
    Commutes withoutAccesses (onGraph action) :=
  inferInstanceAs (Commutes withoutAccesses (onProject (Project.onGraph action)))

instance (unit : UnitId) (file : FileId) (path : String) :
    Commutes withoutAccesses (rescan unit file path) := by
  have := commutes_check (φ := withoutAccesses)
    (f := fun opened => opened.store.graph.units.get unit) fun _ => rfl
  unfold rescan
  infer_instance

/-- A scan of one file in the open scope. -/
private theorem mirrors_scan {α : Type} (diagnostics : List Diagnostic)
    {action other : ScanAction α} (h : Mirrors ScanState.withoutAccesses action other) :
    Mirrors withoutAccesses (scan diagnostics action) (scan diagnostics other) := by
  have hread : Commutes ScanState.withoutAccesses (read (·.diagnostics) : ScanAction _) :=
    commutes_read fun _ => rfl
  have hall := h.bind fun result => (Mirrors.of_commutes (read (·.diagnostics))).bind
    fun diagnostics => .of_commutes (pure (result, diagnostics))
  exact fun opened => MirrorsAt.within (hall _) rfl fun _ => rfl

/-- A new unit. -/
private theorem mirrors_scanNew (file : FileId) (path : String) (parsed : ParsedSource) :
    Mirrors withoutAccesses (scanNew true file path parsed) (scanNew false file path parsed) := by
  have hread : Commutes withoutAccesses (read (·.scope.artifact?) : OpenAction _) :=
    commutes_read fun _ => rfl
  refine (Mirrors.of_commutes _).bind fun artifact => (Mirrors.of_commutes _).bind fun unit =>
    (Mirrors.of_commutes _).bind fun _ => ?_
  exact (mirrors_scan _ (mirrors_scanTypes _ _ path parsed.root)).bind fun _ => .of_commutes _

/-- A parsed file. -/
theorem mirrors_scanParsed (path : String) (parsed : ParsedSource) :
    Mirrors withoutAccesses (scanParsed true path parsed) (scanParsed false path parsed) := by
  have hread : Commutes withoutAccesses (read fun opened : OpenProject =>
      opened.store.graph.unitAt? path opened.scope.artifact? : OpenAction _) :=
    commutes_read fun _ => rfl
  refine (Mirrors.of_commutes _).bind fun file => (Mirrors.of_commutes _).bind fun existing => ?_
  cases existing with
  | none => exact mirrors_scanNew file path parsed
  | some unit => exact .of_commutes _

variable (config : ScanConfig)

/-- A file that was read. -/
private theorem mirrors_scanDecoded (path : String) (decoded : Text.Decoded) :
    Mirrors withoutAccesses (scanDecoded { config with recordAccesses := true } path decoded)
      (scanDecoded { config with recordAccesses := false } path decoded) := by
  have hsource := mirrors_scanParsed path (parseSource decoded.text (config.parseOptions path))
  exact Mirrors.ite (hsource.bind fun report => .of_commutes _) (.of_commutes _)

/-- A file. -/
theorem mirrors_scanFile (tree : FileTree) (path : String) :
    Mirrors withoutAccesses (scanFile { config with recordAccesses := true } tree path)
      (scanFile { config with recordAccesses := false } tree path) := by
  refine Mirrors.ite ?_ (.of_commutes _)
  cases readText tree path with
  | error e => exact .of_commutes _
  | ok decoded => exact (mirrors_scanDecoded config path decoded).mapError _

/-- A file among several. -/
theorem mirrors_scanCollected (tree : FileTree) (path : String) :
    Mirrors withoutAccesses (scanCollected { config with recordAccesses := true } tree path)
      (scanCollected { config with recordAccesses := false } tree path) := by
  unfold scanCollected
  cases readText tree path with
  | error e => exact .of_commutes _
  | ok decoded => exact mirrors_scanDecoded config path decoded

variable (hiddenTokens : List TokenKind) (attachComments : Bool)

/-- Whichever tokens are collected. -/
private theorem scanDecoded_hidden (path : String) (decoded : Text.Decoded) :
    scanDecoded { config with hiddenTokens, attachComments } path decoded =
      scanDecoded config path decoded := by
  unfold scanDecoded
  rw [scanSource_hidden]
  rfl

/-- A file is scanned in the same way, whichever of its tokens are collected. -/
theorem scanFile_hidden (tree : FileTree) (path : String) :
    scanFile { config with hiddenTokens, attachComments } tree path =
      scanFile config tree path := by
  unfold scanFile
  simp only [scanDecoded_hidden]
  rfl

/-- A file among several is scanned in the same way, whichever of its tokens are collected. -/
theorem scanCollected_hidden (tree : FileTree) (path : String) :
    scanCollected { config with hiddenTokens, attachComments } tree path =
      scanCollected config tree path := by
  unfold scanCollected
  simp only [scanDecoded_hidden]

end OpenProject

/-! ### Artifacts that are loaded -/

namespace Project

/-- A scope is entered and left again. -/
private theorem mirrors_inScope {α : Type} (artifact : Option ArtifactId)
    {action other : OpenAction α} (h : Mirrors OpenProject.withoutAccesses action other) :
    Mirrors withoutAccesses (inScope artifact action) (inScope artifact other) := by
  intro project
  have henter : Scope.enter project.withoutAccesses.store.graph artifact =
      Scope.enter project.store.graph artifact := Scope.enter_withoutAccesses ..
  simp only [MirrorsAt, inScope, henter]
  cases Scope.enter project.store.graph artifact with
  | error e => rfl
  | ok scope =>
    have hrun : other { project.withoutAccesses with scope } = _ := h { project with scope }
    simp only [hrun]
    rcases action { project with scope } with ⟨result, opened⟩
    have hleave : opened.withoutAccesses.scope.leave opened.withoutAccesses.store = _ :=
      Commutes.commutes (φ := Store.withoutAccesses) opened.store
    simp only [hleave]
    rfl

variable (config : ScanConfig)

/-- The files of an artifact. -/
private theorem mirrors_loadFiles (tree : FileTree) (spec : ArtifactSpec) (files : List String) :
    Mirrors withoutAccesses (loadFiles { config with recordAccesses := true } tree spec files)
      (loadFiles { config with recordAccesses := false } tree spec files) := by
  refine (Mirrors.of_commutes _).bind fun artifact => mirrors_inScope _ ?_
  exact (Mirrors.mapEach (OpenProject.mirrors_scanCollected config tree)).bind fun _ => .of_commutes _

/-- An artifact. -/
theorem mirrors_load (tree : FileTree) (spec : ArtifactSpec) :
    Mirrors withoutAccesses (load { config with recordAccesses := true } tree spec)
      (load { config with recordAccesses := false } tree spec) := by
  have hfiles : collectFiles { config with recordAccesses := true } tree =
      collectFiles { config with recordAccesses := false } tree := rfl
  unfold load
  rw [hfiles]
  cases spec.roots.mapM (collectFiles { config with recordAccesses := false } tree) with
  | error e => exact .of_commutes _
  | ok files => exact (mirrors_loadFiles config tree spec files.flatten).mapError _

/-- An artifact with identifiers for paths of its own. -/
theorem mirrors_loadAlone (tree : FileTree) (spec : ArtifactSpec) :
    Mirrors withoutAccesses (loadAlone { config with recordAccesses := true } tree spec)
      (loadAlone { config with recordAccesses := false } tree spec) := by
  have hforget : Commutes withoutAccesses
      (change fun project => { project with files := {} } : Action LoadError Project Unit) :=
    commutes_change fun _ => rfl
  exact (Mirrors.of_commutes _).bind fun _ => mirrors_load config tree spec

/-- An artifact is loaded in the same way, whichever tokens of its files are collected. -/
theorem load_hidden (hiddenTokens : List TokenKind) (attachComments : Bool) (tree : FileTree)
    (spec : ArtifactSpec) :
    load { config with hiddenTokens, attachComments } tree spec = load config tree spec := by
  have hscan : OpenProject.scanCollected { config with hiddenTokens, attachComments } tree =
      OpenProject.scanCollected config tree :=
    funext fun path => OpenProject.scanCollected_hidden config hiddenTokens attachComments tree path
  unfold load loadFiles
  simp only [hscan]
  rfl

end Project

/-! ### Sessions -/

namespace Session

variable {ε α : Type}

/-- What can be done with a session, whose scopes may be nested. -/
inductive Command where
  | addArtifact (name : String) (dependencies : List ArtifactId)
  /-- From now on the store answers queries, or it does not. -/
  | answer (answers : Bool)
  /-- Go on with a scanner that knows other paths. -/
  | scanner (files : FileSet)
  /-- Enter a scope within those that are open. -/
  | enter (artifact : Option ArtifactId)
  /-- Leave the innermost scope. -/
  | leave
  /-- Scan a text in the innermost scope. -/
  | scanSource (path text : String)
  /-- Scan a parsed file in the innermost scope. -/
  | scanParsed (path : String) (parsed : ParsedSource)
  /-- Scan a file in the innermost scope. -/
  | scanFile (tree : FileTree) (path : String)
  | scanText (path text : String)
  /-- Load an artifact. -/
  | load (tree : FileTree) (spec : ArtifactSpec)
  /-- Load an artifact with identifiers for paths of its own. -/
  | loadAlone (tree : FileTree) (spec : ArtifactSpec)

/-- What a command gives. -/
inductive Answer where
  | artifact (result : Except GraphError ArtifactId)
  | entered (result : Except GraphError Scope)
  | left (result : Except GraphError Unit)
  | source (result : Except GraphError UnitReport)
  | file (result : Except LoadError FileOutcome)
  | text (result : Except GraphError TextFileId)
  | loaded (result : Except LoadError ArtifactReport)
  | done
  /-- No scope is open. -/
  | noScope

/-- An action with what it gives as an answer. -/
def answering (answer : Except ε α → Answer) (action : Action ε Session α) (session : Session) :
    Answer × Session :=
  (answer (action session).1, (action session).2)

/-- An action in the innermost scope with what it gives as an answer. -/
def answeringInScope (answer : Except ε α → Answer) (action : Action ε OpenProject α)
    (session : Session) : Answer × Session :=
  match session.inScope? action with
  | some (result, after) => (answer result, after)
  | none => (.noScope, session)

/-- The answer to a command and the session after it, whether it succeeds or fails. Files are scanned
as a configuration says. -/
def Command.run (config : ScanConfig) (session : Session) : Command → Answer × Session
  | .addArtifact name dependencies =>
    answering .artifact (Session.onGraph (Graph.addArtifact name dependencies)) session
  | .answer answers => (.done, { session with project.store.answers := answers })
  | .scanner files => (.done, { session with project.files := files })
  | .enter artifact => answering .entered (Session.enter artifact) session
  | .leave =>
    match session.leave? with
    | some (result, after) => (.left result, after)
    | none => (.noScope, session)
  | .scanSource path text =>
    answeringInScope .source (OpenProject.scanSource config path text) session
  | .scanParsed path parsed =>
    answeringInScope .source (OpenProject.scanParsed config.recordAccesses path parsed) session
  | .scanFile tree path => answeringInScope .file (OpenProject.scanFile config tree path) session
  | .scanText path text =>
    answering .text (Session.onProject (Project.scanText path text)) session
  | .load tree spec =>
    answering .loaded (Session.onProject (Project.load config tree spec)) session
  | .loadAlone tree spec =>
    answering .loaded (Session.onProject (Project.loadAlone config tree spec)) session

/-- The answers to some commands and the session after them. -/
def carryOut (config : ScanConfig) : List Command → Session → List Answer × Session
  | [], session => ([], session)
  | command :: rest, session =>
    let (answer, session) := command.run config session
    let (answers, session) := carryOut config rest session
    (answer :: answers, session)

/-- The session without the uses of fields that are recorded in its graph. -/
def withoutAccesses (session : Session) : Session :=
  { session with project := session.project.withoutAccesses }

/-- An action on the project. -/
private theorem mirrors_onProject {action other : Action ε Project α}
    (h : Mirrors Project.withoutAccesses action other) :
    Mirrors withoutAccesses (onProject action) (onProject other) :=
  fun session => MirrorsAt.within (h session.project) rfl fun _ => rfl

/-- A scope is entered. -/
private theorem mirrors_enter (artifact : Option ArtifactId) :
    Mirrors withoutAccesses (enter artifact) (enter artifact) := by
  intro session
  have henter : Scope.enter session.withoutAccesses.project.store.graph artifact =
      Scope.enter session.project.store.graph artifact := Scope.enter_withoutAccesses ..
  simp only [MirrorsAt, enter, henter]
  cases Scope.enter session.project.store.graph artifact <;> rfl

/-- The answer is the same. -/
private theorem answering_withoutAccesses (answer : Except ε α → Answer)
    {action other : Action ε Session α} (h : Mirrors withoutAccesses action other)
    (session : Session) :
    answering answer other session.withoutAccesses =
      ((answering answer action session).1, (answering answer action session).2.withoutAccesses) := by
  have hrun : other session.withoutAccesses = _ := h session
  simp only [answering, hrun]

/-- The answer in the innermost scope is the same. -/
private theorem answeringInScope_withoutAccesses (answer : Except ε α → Answer)
    {action other : Action ε OpenProject α} (h : Mirrors OpenProject.withoutAccesses action other)
    (session : Session) :
    answeringInScope answer other session.withoutAccesses =
      ((answeringInScope answer action session).1,
        (answeringInScope answer action session).2.withoutAccesses) := by
  obtain ⟨project, scopes⟩ := session
  cases scopes with
  | nil => rfl
  | cons scope scopes =>
    have hrun : other { project.withoutAccesses with scope } = _ := h { project with scope }
    simp only [answeringInScope, inScope?, withoutAccesses, hrun]
    rfl

/-- A command gives the same answer if uses of fields are not recorded, and leaves the same session but
for them. -/
theorem Command.run_withoutAccesses (config : ScanConfig) (command : Command) (session : Session) :
    command.run { config with recordAccesses := false } session.withoutAccesses =
      ((command.run { config with recordAccesses := true } session).1,
        (command.run { config with recordAccesses := true } session).2.withoutAccesses) := by
  cases command with
  | addArtifact name dependencies =>
    exact answering_withoutAccesses _ (mirrors_onProject (.of_commutes _)) session
  | answer answers => rfl
  | scanner files => rfl
  | enter artifact => exact answering_withoutAccesses _ (mirrors_enter artifact) session
  | leave =>
    obtain ⟨project, scopes⟩ := session
    cases scopes with
    | nil => rfl
    | cons scope scopes =>
      have hleave : scope.leave project.withoutAccesses.store = _ :=
        Commutes.commutes (φ := Store.withoutAccesses) project.store
      simp only [run, leave?, Session.withoutAccesses, hleave]
      rfl
  | scanSource path text =>
    exact answeringInScope_withoutAccesses _ (OpenProject.mirrors_scanParsed path
      (parseSource text (config.parseOptions path))) session
  | scanParsed path parsed =>
    exact answeringInScope_withoutAccesses _ (OpenProject.mirrors_scanParsed path parsed) session
  | scanFile tree path =>
    exact answeringInScope_withoutAccesses _ (OpenProject.mirrors_scanFile config tree path) session
  | scanText path text =>
    exact answering_withoutAccesses _ (mirrors_onProject (.of_commutes _)) session
  | load tree spec =>
    exact answering_withoutAccesses _ (mirrors_onProject (Project.mirrors_load config tree spec))
      session
  | loadAlone tree spec =>
    exact answering_withoutAccesses _
      (mirrors_onProject (Project.mirrors_loadAlone config tree spec)) session

/-- So do all commands. -/
theorem carryOut_withoutAccesses (config : ScanConfig) (commands : List Command) :
    ∀ session : Session,
      carryOut { config with recordAccesses := false } commands session.withoutAccesses =
        ((carryOut { config with recordAccesses := true } commands session).1,
          (carryOut { config with recordAccesses := true } commands session).2.withoutAccesses) := by
  induction commands with
  | nil => exact fun _ => rfl
  | cons command rest ih =>
    intro session
    simp only [carryOut, Command.run_withoutAccesses, ih]

/-- A command does the same, whichever tokens of files are collected. -/
theorem Command.run_hidden (config : ScanConfig) (hiddenTokens : List TokenKind) (attachComments : Bool)
    (command : Command) (session : Session) :
    command.run { config with hiddenTokens, attachComments } session =
      command.run config session := by
  cases command with
  | scanSource path text => simp only [run, OpenProject.scanSource_hidden]
  | scanFile tree path => simp only [run, OpenProject.scanFile_hidden]
  | load tree spec => simp only [run, Project.load_hidden]
  | loadAlone tree spec => simp only [run, Project.loadAlone, Project.load_hidden]
  | _ => rfl

/-- So do all commands. -/
theorem carryOut_hidden (config : ScanConfig) (hiddenTokens : List TokenKind)
    (attachComments : Bool) (commands : List Command) :
    ∀ session : Session, carryOut { config with hiddenTokens, attachComments } commands session =
      carryOut config commands session := by
  induction commands with
  | nil => exact fun _ => rfl
  | cons command rest ih =>
    intro session
    simp only [carryOut, Command.run_hidden, ih]

/-- Whatever is done, beginning with an empty store: all answers and the whole session are the same,
whichever tokens are collected, and whether or not comments are attached. If uses of fields are not
recorded, all answers are the same, and the session is the same but for the uses that its graph has. -/
theorem configuration_contained (config : ScanConfig) (commands : List Command) :
    (∀ hiddenTokens attachComments,
      carryOut { config with hiddenTokens, attachComments } commands {} =
        carryOut config commands {}) ∧
    let recorded := carryOut { config with recordAccesses := true } commands {}
    let unrecorded := carryOut { config with recordAccesses := false } commands {}
    unrecorded.1 = recorded.1 ∧
      unrecorded.2 = { recorded.2 with project.store.graph.accesses := #[] } := by
  refine ⟨fun hiddenTokens attachComments =>
    carryOut_hidden config hiddenTokens attachComments commands {}, ?_⟩
  intro recorded unrecorded
  have hsame : unrecorded = (recorded.1, recorded.2.withoutAccesses) :=
    carryOut_withoutAccesses config commands {}
  rw [hsame]
  exact ⟨rfl, rfl⟩

end Session

end JavaGraph
