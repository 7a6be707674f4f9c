import JavaGraph.Proofs.Graph.Nesting
import JavaGraph.Proofs.Session.Reported
import JavaGraph.Proofs.Text.Utf8
/-!
# Loading is all or nothing

An artifact is loaded if its roots are directories and its dependencies are known. Once it is made,
nothing can go wrong any more: its scope is entered, every file is scanned, recorded or skipped, and
the scope is left. So a load that fails leaves the store as it was, and a load that succeeds accounts
for every file that was collected.

A load does what a session does step by step, and what holds after every run of a session holds
after every load.
-/

namespace JavaGraph

open JavaGraph.Action

/-! ### What becomes of files -/

/-- What is to become of a file. -/
inductive Fate where
  | source
  | text
  | skipped (reason : SkipReason)
deriving DecidableEq

/-- A file that cannot be read is skipped. A source is scanned, whatever its bytes are; any other
file is recorded if it is text in UTF-8. -/
def ScanConfig.fate (config : ScanConfig) (tree : FileTree) (path : String) : Fate :=
  match tree.read path with
  | .error fault => .skipped (.unreadable (.unreadable path fault))
  | .ok bytes =>
    if config.isSource path then .source
    else if Text.IsUtf8 bytes then .text
    else .skipped .binary

/-- What became of a file is what was to become of it. -/
def FileOutcome.Fits (config : ScanConfig) (tree : FileTree) (artifact : ArtifactId) (graph : Graph)
    (path : String) : FileOutcome → Prop
  | .source report => config.fate tree path = .source ∧ report.path = path ∧
    ∃ node, graph.units.get? report.unit = some node ∧ node.path = path ∧
      node.artifact = some artifact
  | .text file => config.fate tree path = .text ∧
    ∃ node, graph.textFiles.get? file = some node ∧ node.path = path
  | .skipped other reason => other = path ∧ config.fate tree path = .skipped reason

namespace Graph

/-- Units and text files stay, under their paths. -/
structure KeepsFiles (before after : Graph) : Prop where
  unit : ∀ {id x}, before.units.get? id = some x →
    ∃ y, after.units.get? id = some y ∧ y.path = x.path ∧ y.artifact = x.artifact
  textFile : ∀ {id x}, before.textFiles.get? id = some x →
    ∃ y, after.textFiles.get? id = some y ∧ y.path = x.path

instance : Action.Guarantee KeepsFiles where
  refl _ := ⟨fun hx => ⟨_, hx, rfl, rfl⟩, fun hx => ⟨_, hx, rfl⟩⟩
  trans hab hbc := by
    refine ⟨fun hx => ?_, fun hx => ?_⟩
    · obtain ⟨y, hy, hp, ha⟩ := hab.unit hx
      obtain ⟨z, hz, hp', ha'⟩ := hbc.unit hy
      exact ⟨z, hz, hp'.trans hp, ha'.trans ha⟩
    · obtain ⟨y, hy, hp⟩ := hab.textFile hx
      obtain ⟨z, hz, hp'⟩ := hbc.textFile hy
      exact ⟨z, hz, hp'.trans hp⟩

variable {before after : Graph}

theorem KeepsFiles.of_eq (hu : after.units = before.units)
    (ht : after.textFiles = before.textFiles) : KeepsFiles before after :=
  ⟨fun hx => ⟨_, hu ▸ hx, rfl, rfl⟩, fun hx => ⟨_, ht ▸ hx, rfl⟩⟩

end Graph

/-- A file that is accounted for stays so. -/
theorem FileOutcome.Fits.mono {config : ScanConfig} {tree : FileTree} {artifact : ArtifactId}
    {before after : Graph} {path : String} {outcome : FileOutcome}
    (h : outcome.Fits config tree artifact before path) (hk : Graph.KeepsFiles before after) :
    outcome.Fits config tree artifact after path := by
  cases outcome with
  | source report =>
    obtain ⟨hfate, hpath, x, hx, hp, ha⟩ := h
    obtain ⟨y, hy, hp', ha'⟩ := hk.unit hx
    exact ⟨hfate, hpath, y, hy, hp'.trans hp, ha'.trans ha⟩
  | text file =>
    obtain ⟨hfate, x, hx, hp⟩ := h
    obtain ⟨y, hy, hp'⟩ := hk.textFile hx
    exact ⟨hfate, y, hy, hp'.trans hp⟩
  | skipped other reason => exact h

/-- The text files among outcomes. -/
private abbrev textFilesOf (outcomes : List FileOutcome) : List TextFileId :=
  ArtifactReport.textFiles ⟨⟨0⟩, outcomes⟩

/-! ### Text files -/

namespace Graph

variable {graph : Graph}

/-- A line comes to a file whose lines are known. -/
private theorem addLine_known {file : TextFileId} {node : TextFile}
    (hf : graph.textFiles.get? file = some node)
    (hl : ∀ line ∈ node.lines, ∃ x, graph.lines.get? line = some x) (text : String) :
    ∃ lines, addLine file text graph = (.ok graph.lines.nextId, { graph with
        textFiles := graph.textFiles.modify file fun node =>
          { node with lines := node.lines ++ [graph.lines.nextId] }
        lines }) ∧
      ∀ line ∈ node.lines ++ [graph.lines.nextId], ∃ x, lines.get? line = some x := by
  have hpushed : ∀ line ∈ node.lines ++ [graph.lines.nextId],
      ∃ x, (graph.lines.push { file, number := node.lines.length, text }).get? line = some x := by
    intro line hm
    rw [Arena.get?_push]
    split
    · exact ⟨_, rfl⟩
    · next hne =>
      rcases List.mem_append.1 hm with hm | hm
      · exact hl line hm
      · exact absurd (List.mem_singleton.1 hm) hne
  unfold addLine
  rw [Action.read_bind, checkTextFile_bind hf, Action.bind_of_ok (updateTextFile_known _ hf),
    Action.change_bind]
  cases hlast : node.lines.getLast? with
  | none => exact ⟨_, rfl, hpushed⟩
  | some previous =>
    obtain ⟨x, hx⟩ := hpushed previous
      (List.mem_append_left _ (List.mem_of_mem_getLast? hlast))
    refine ⟨(graph.lines.push { file, number := node.lines.length, text }).modify previous
      fun line => { line with next := some graph.lines.nextId }, ?_, ?_⟩
    · simp only [updateLine, Action.tryChange, Arena.update_of_get? _ hx, Bind.bind, Except.bind,
        pure, Except.pure]
    · intro line hm
      obtain ⟨y, hy⟩ := hpushed line hm
      rw [Arena.get?_modify, hy]
      split <;> exact ⟨_, rfl⟩

/-- Lines come to a file whose lines are known. -/
private theorem addLines_known (texts : List String) {file : TextFileId} :
    ∀ {graph : Graph} {node : TextFile}, graph.textFiles.get? file = some node →
      (∀ line ∈ node.lines, ∃ x, graph.lines.get? line = some x) →
      ∃ after node', (forEach texts fun text => discard (addLine file text)) graph =
          (.ok (), after) ∧
        KeepsFiles graph after ∧ after.textFiles.get? file = some node' ∧
        node'.path = node.path := by
  induction texts with
  | nil => exact fun {graph node} hf _ => ⟨graph, node, rfl, Guarantee.refl _, hf, rfl⟩
  | cons text rest ih =>
    intro graph node hf hl
    obtain ⟨lines, hrun, hlines⟩ := addLine_known hf hl text
    generalize hmiddle : ({ graph with
      textFiles := graph.textFiles.modify file fun node =>
        { node with lines := node.lines ++ [graph.lines.nextId] }
      lines } : Graph) = middle at hrun
    have hkeeps : KeepsFiles graph middle := by
      rw [← hmiddle]
      refine ⟨fun hx => ⟨_, hx, rfl, rfl⟩, fun {id x} hx => ?_⟩
      simp only [Arena.get?_modify, hx]
      split <;> exact ⟨_, rfl, rfl⟩
    have hself : middle.textFiles.get? file =
        some { node with lines := node.lines ++ [graph.lines.nextId] } := by
      rw [← hmiddle]
      simp only [Arena.get?_modify, if_true, hf, Option.map_some]
    obtain ⟨after, node', hrest, hk, hafter, hpath⟩ := ih hself (by rw [← hmiddle]; exact hlines)
    refine ⟨after, node', ?_, Guarantee.trans hkeeps hk, hafter, hpath⟩
    have hdiscard : (discard (addLine file text) : GraphAction Unit) graph = (.ok (), middle) :=
      Action.bind_of_ok hrun
    rw [forEach, Action.bind_of_ok hdiscard, hrest]

/-- A text is recorded as a new file under its path. -/
theorem recordText_run (path : String) (texts : List String) (graph : Graph) :
    ∃ after node, (do
        let file ← addTextFile path
        forEach texts fun text => discard (addLine file text)
        return file : GraphAction TextFileId) graph = (.ok graph.textFiles.nextId, after) ∧
      KeepsFiles graph after ∧ after.textFiles.get? graph.textFiles.nextId = some node ∧
      node.path = path := by
  have hself : ({ graph with textFiles := graph.textFiles.push { path } } : Graph).textFiles.get?
      graph.textFiles.nextId = some { path } :=
    (Arena.get?_push ..).trans (if_pos rfl)
  have hkeeps : KeepsFiles graph { graph with textFiles := graph.textFiles.push { path } } := by
    refine ⟨fun hx => ⟨_, hx, rfl, rfl⟩, fun {id x} hx => ⟨x, ?_, rfl⟩⟩
    simp only [Arena.get?_push, if_neg (Arena.ne_nextId hx), hx]
  obtain ⟨after, node, hrun, hk, hnode, hpath⟩ :=
    addLines_known texts hself (List.forall_mem_nil _)
  refine ⟨after, node, ?_, Guarantee.trans hkeeps hk, hnode, hpath⟩
  have hadd : addTextFile path graph = (.ok graph.textFiles.nextId,
    { graph with textFiles := graph.textFiles.push { path } }) := rfl
  rw [Action.bind_of_ok hadd, Action.bind_of_ok hrun]
  rfl

end Graph

/-! ### Files in the scope of an artifact -/

namespace OpenProject

variable {opened : OpenProject}

/-- The scan of a source keeps files, and the scope stays that of its artifact. -/
private theorem keepsFiles_scanOne (hs : opened.Sound) (ht : opened.Tidy) (config : ScanConfig)
    (source : SourceText) :
    Graph.KeepsFiles opened.store.graph (scanOne config source opened).2.store.graph ∧
      (scanOne config source opened).2.scope.artifact? = opened.scope.artifact? := by
  cases hu : opened.store.graph.unitAt? source.path opened.scope.artifact? with
  | none =>
    have hp := paired_passes hs ht config source
    rw [scanOne_new config hs hu]
    have hsince : Graph.Since opened.store.graph.units.nextId opened.scope.artifact?
        opened.store.graph (passes config opened source).2.store.graph :=
      (since_withSource ..).trans hp.graphs.since
    have htext : (passes config opened source).2.store.graph.textFiles =
      opened.store.graph.textFiles := hp.graphs.surroundings.textFiles
    exact ⟨⟨hsince.extended.unit, fun hx => ⟨_, htext ▸ hx, rfl⟩⟩, hp.scope⟩
  | some unit =>
    obtain ⟨node, hn, -⟩ := Graph.get?_of_unitAt? hu
    rw [scanOne_existing config hu hn]
    exact ⟨Guarantee.refl _, rfl⟩

end OpenProject

namespace Session

/-- A run that goes on for one more step. -/
private theorem run_concat (steps : List Step) (step : Step) :
    run (steps ++ [step]) = step.run (run steps) := by
  simp [run, List.foldl_append]

/-- The project in the scope of an artifact that a run has left open. -/
private structure OpenFor (artifact : ArtifactId) (steps : List Step) (opened : OpenProject) :
    Prop where
  run : run steps = { project := opened.toProject, scopes := [opened.scope] }
  artifact : opened.scope.artifact? = some artifact

/-- What the scan of one of several files leads to. -/
private structure Accounts (config : ScanConfig) (tree : FileTree) (artifact : ArtifactId)
    (path : String) (opened : OpenProject) (outcome : FileOutcome) (after : OpenProject) : Prop where
  keeps : Graph.KeepsFiles opened.store.graph after.store.graph
  fits : outcome.Fits config tree artifact after.store.graph path
  fresh : ∀ file, outcome = .text file → opened.store.graph.textFiles.get? file = none

variable {artifact : ArtifactId} {steps : List Step} {opened : OpenProject}

/-- A source is scanned, and its report takes its place. -/
private theorem scanSource_accounts (h : OpenFor artifact steps opened) (config : ScanConfig)
    (path text : String) :
    ∃ report after more, OpenProject.scanSource config path text opened = (.ok report, after) ∧
      OpenFor artifact (steps ++ more) after ∧
      Graph.KeepsFiles opened.store.graph after.store.graph ∧ report.path = path ∧
      ∃ node, after.store.graph.units.get? report.unit = some node ∧ node.path = path ∧
        node.artifact = some artifact := by
  have hscopes : (run steps).scopes = [opened.scope] := by rw [h.run]
  have hopened : ({ (run steps).project with scope := opened.scope } : OpenProject) = opened := by
    rw [h.run]
  have hs := (sound_run steps).opened hscopes
  have ht := (tidy_run steps).opened hscopes
  have hm := mains_run steps
  rw [hopened] at hs ht
  rw [h.run] at hm
  obtain ⟨report, after, hrun, hr⟩ := OpenProject.reported_scanOne config hs ht
    (fun hnone => by rw [h.artifact] at hnone; cases hnone) hm ⟨path, text⟩
  obtain ⟨hk, ha⟩ := OpenProject.keepsFiles_scanOne hs ht config ⟨path, text⟩
  rw [hrun] at hk ha
  obtain ⟨node, hn, hpath, hartifact⟩ := hr.unit
  refine ⟨report, after, [.scan config path text], hrun, ⟨?_, ha.trans h.artifact⟩, hk, hr.path,
    node, hn, hpath, hartifact.trans h.artifact⟩
  rw [run_concat, h.run]
  have hrun' : OpenProject.scanSource config path text opened = (.ok report, after) := hrun
  simp only [Step.run, inScope?]
  change ({
    project := (OpenProject.scanSource config path text opened).2.toProject
    scopes := [(OpenProject.scanSource config path text opened).2.scope] } : Session) = _
  rw [hrun']

/-- A text is recorded, and its file takes its place. -/
private theorem scanText_accounts (h : OpenFor artifact steps opened) (path text : String) :
    ∃ file after more,
      OpenProject.onProject (Project.scanText path text) opened = (.ok file, after) ∧
      OpenFor artifact (steps ++ more) after ∧
      Graph.KeepsFiles opened.store.graph after.store.graph ∧
      opened.store.graph.textFiles.get? file = none ∧
      ∃ node, after.store.graph.textFiles.get? file = some node ∧ node.path = path := by
  obtain ⟨graph, node, hrun, hk, hnode, hpath⟩ :=
    Graph.recordText_run path (Text.lines text) opened.store.graph
  have hscan : Project.scanText path text opened.toProject =
      (.ok opened.store.graph.textFiles.nextId,
        { store := { opened.store with graph }, files := opened.files.insert path }) := by
    have hseen : (discard (Project.fileId path) : ProjectAction Unit) opened.toProject =
      (.ok (), { opened.toProject with files := opened.files.insert path }) := rfl
    unfold Project.scanText
    rw [Action.bind_of_ok hseen]
    simp only [Project.onGraph, Store.onGraph, Action.within, hrun]
  refine ⟨_, { opened with
      store := { opened.store with graph }, files := opened.files.insert path },
    [.scanText path text], ?_, ⟨?_, h.artifact⟩, hk, Arena.get?_nextId _, node, hnode, hpath⟩
  · simp only [OpenProject.onProject, Action.within, hscan]
  · rw [run_concat, h.run]
    simp only [Step.run, Session.onProject, Action.within, hscan]

/-- Every file is scanned, recorded or skipped, as it is to be. -/
private theorem scanCollected_accounts (h : OpenFor artifact steps opened) (config : ScanConfig)
    (tree : FileTree) (path : String) :
    ∃ outcome after more,
      OpenProject.scanCollected config tree path opened = (.ok outcome, after) ∧
      OpenFor artifact (steps ++ more) after ∧
      Accounts config tree artifact path opened outcome after := by
  unfold OpenProject.scanCollected readText
  cases hr : tree.read path with
  | error fault =>
    refine ⟨_, opened, [], rfl, by rwa [List.append_nil], Guarantee.refl _, ⟨rfl, ?_⟩, nofun⟩
    simp [ScanConfig.fate, hr]
  | ok bytes =>
    dsimp only
    unfold OpenProject.scanDecoded
    by_cases hsource : config.isSource path = true
    · obtain ⟨report, after, more, hrun, ho, hk, hpath, hnode⟩ :=
        scanSource_accounts h config path (Text.decode bytes).text
      have hfate : config.fate tree path = .source := by simp [ScanConfig.fate, hr, hsource]
      refine ⟨.source (if (Text.decode bytes).lossy then report.noteLossyDecoding else report), after,
        more, ?_, ho, hk, ?_, nofun⟩
      · rw [if_pos hsource, Action.bind_of_ok hrun]
        rfl
      · cases (Text.decode bytes).lossy <;> exact ⟨hfate, hpath, hnode⟩
    · rw [if_neg hsource]
      by_cases hlossy : (Text.decode bytes).lossy = true
      · have hbinary : ¬ Text.IsUtf8 bytes := by
          rw [← Text.lossy_decode_eq_false_iff, hlossy]
          exact Bool.noConfusion
        refine ⟨.skipped path .binary, opened, [], by rw [if_pos hlossy]; rfl,
          by rwa [List.append_nil], Guarantee.refl _, ⟨rfl, ?_⟩, nofun⟩
        simp [ScanConfig.fate, hr, hsource, hbinary]
      · have htext : Text.IsUtf8 bytes :=
          (Text.lossy_decode_eq_false_iff bytes).1 (Bool.eq_false_iff.2 hlossy)
        have hfate : config.fate tree path = .text := by
          simp [ScanConfig.fate, hr, hsource, htext]
        obtain ⟨file, after, more, hrun, ho, hk, hfresh, hnode⟩ :=
          scanText_accounts h path (Text.decode bytes).text
        refine ⟨.text file, after, more, ?_, ho, hk, ⟨hfate, hnode⟩, ?_⟩
        · rw [if_neg hlossy, Action.bind_of_ok hrun]
          rfl
        · rintro _ ⟨⟩
          exact hfresh

/-- All files are scanned, recorded or skipped, in their order. -/
private theorem scanAll_accounts (config : ScanConfig) (tree : FileTree) (files : List String) :
    ∀ {steps : List Step} {opened : OpenProject}, OpenFor artifact steps opened →
      ∃ outcomes after more,
        Action.mapEach files (OpenProject.scanCollected config tree) opened =
          (.ok outcomes, after) ∧
        OpenFor artifact (steps ++ more) after ∧
        Graph.KeepsFiles opened.store.graph after.store.graph ∧
        List.Forall₂ (FileOutcome.Fits config tree artifact after.store.graph) files outcomes ∧
        (∀ file ∈ textFilesOf outcomes, opened.store.graph.textFiles.get? file = none) ∧
        (textFilesOf outcomes).Nodup := by
  induction files with
  | nil =>
    intro steps opened h
    exact ⟨[], opened, [], rfl, by rwa [List.append_nil], Guarantee.refl _, .nil,
      List.forall_mem_nil _, .nil⟩
  | cons path rest ih =>
    intro steps opened h
    obtain ⟨outcome, middle, more, hrun, ho, hkeeps, hfits, hfresh⟩ :=
      scanCollected_accounts h config tree path
    obtain ⟨outcomes, after, more', hrest, ho', hkeeps', hall, hlater, hnodup⟩ := ih ho
    -- What is recorded later was not known before either.
    have hunknown : ∀ file ∈ textFilesOf outcomes,
        opened.store.graph.textFiles.get? file = none := by
      intro file hm
      cases hx : opened.store.graph.textFiles.get? file with
      | none => rfl
      | some x =>
        obtain ⟨y, hy, -⟩ := hkeeps.textFile hx
        rw [hlater file hm] at hy
        cases hy
    refine ⟨outcome :: outcomes, after, more ++ more', ?_, by rwa [← List.append_assoc],
      Guarantee.trans hkeeps hkeeps', .cons (hfits.mono hkeeps') hall, ?_, ?_⟩
    · rw [mapEach, Action.bind_of_ok hrun, Action.bind_of_ok hrest]
      rfl
    · cases outcome with
      | text file => exact List.forall_mem_cons.2 ⟨hfresh file rfl, hunknown⟩
      | source report => exact hunknown
      | skipped other reason => exact hunknown
    · cases outcome with
      | text file =>
        refine List.nodup_cons.2 ⟨fun hm => ?_, hnodup⟩
        obtain ⟨-, x, hx, -⟩ := hfits
        rw [hlater file hm] at hx
        cases hx
      | source report => exact hnodup
      | skipped other reason => exact hnodup

end Session

/-! ### What a load leaves -/

/-- Every file is accounted for: sources that can be read by a report, other files in UTF-8 as text,
and the rest as skipped, each in the order of the files. -/
structure ArtifactReport.Covers (report : ArtifactReport) (config : ScanConfig) (tree : FileTree)
    (files : List String) (graph : Graph) : Prop where
  units : report.units.map (·.path) = files.filter fun path => config.fate tree path = .source
  /-- The reports are on units of the artifact. -/
  scanned : ∀ unit ∈ report.units, ∃ node, graph.units.get? unit.unit = some node ∧
    node.path = unit.path ∧ node.artifact = some report.artifact
  textFiles : report.textFiles.map (fun file => (graph.textFiles.get? file).map (·.path)) =
    (files.filter fun path => config.fate tree path = .text).map some
  /-- Every text is recorded as a file of its own. -/
  recorded : report.textFiles.Nodup
  skipped : report.skipped = files.filterMap fun path =>
    match config.fate tree path with
    | .skipped reason => some (path, reason)
    | _ => none
  /-- No file is left out, and none is counted twice. -/
  total : report.units.length + report.textFiles.length + report.skipped.length = files.length

/-- Every outcome is in one of the lists of a report. -/
private theorem length_outcomes (artifact : ArtifactId) (outcomes : List FileOutcome) :
    (ArtifactReport.units ⟨artifact, outcomes⟩).length +
      (ArtifactReport.textFiles ⟨artifact, outcomes⟩).length +
        (ArtifactReport.skipped ⟨artifact, outcomes⟩).length = outcomes.length := by
  simp only [ArtifactReport.units, ArtifactReport.textFiles, ArtifactReport.skipped]
  induction outcomes with
  | nil => rfl
  | cons outcome rest ih =>
    cases outcome <;> simp only [List.filterMap_cons, List.length_cons] <;> omega

/-- Outcomes that fit the files cover them. -/
private theorem covers_of_fits {config : ScanConfig} {tree : FileTree} {artifact : ArtifactId}
    {graph : Graph} {files : List String} {outcomes : List FileOutcome}
    (h : List.Forall₂ (FileOutcome.Fits config tree artifact graph) files outcomes)
    (hn : (textFilesOf outcomes).Nodup) :
    ArtifactReport.Covers ⟨artifact, outcomes⟩ config tree files graph := by
  have htotal := (length_outcomes artifact outcomes).trans h.length_eq.symm
  suffices hlists : (ArtifactReport.units ⟨artifact, outcomes⟩).map (·.path) =
        files.filter (fun path => config.fate tree path = .source) ∧
      (∀ unit ∈ ArtifactReport.units ⟨artifact, outcomes⟩, ∃ node,
        graph.units.get? unit.unit = some node ∧ node.path = unit.path ∧
          node.artifact = some artifact) ∧
      (textFilesOf outcomes).map (fun file => (graph.textFiles.get? file).map (·.path)) =
        (files.filter fun path => config.fate tree path = .text).map some ∧
      ArtifactReport.skipped ⟨artifact, outcomes⟩ = files.filterMap fun path =>
        match config.fate tree path with
        | .skipped reason => some (path, reason)
        | _ => none by
    obtain ⟨hunits, hscanned, htext, hskipped⟩ := hlists
    exact ⟨hunits, hscanned, htext, hn, hskipped, htotal⟩
  clear hn htotal
  induction h with
  | nil => exact ⟨rfl, List.forall_mem_nil _, rfl, rfl⟩
  | @cons path outcome files outcomes hfits _ ih =>
    obtain ⟨hunits, hscanned, htext, hskipped⟩ := ih
    simp only [ArtifactReport.units, ArtifactReport.textFiles, ArtifactReport.skipped] at *
    cases outcome with
    | source report =>
      obtain ⟨hfate, rfl, hnode⟩ := hfits
      exact ⟨by simp [hfate, hunits], List.forall_mem_cons.2 ⟨hnode, hscanned⟩,
        by simpa [hfate] using htext, by simpa [hfate] using hskipped⟩
    | text file =>
      obtain ⟨hfate, node, hnode, rfl⟩ := hfits
      exact ⟨by simpa [hfate] using hunits, hscanned, by simp [hfate, hnode, htext],
        by simpa [hfate] using hskipped⟩
    | skipped other reason =>
      obtain ⟨rfl, hfate⟩ := hfits
      exact ⟨by simpa [hfate] using hunits, hscanned, by simpa [hfate] using htext,
        by simp [hfate, hskipped]⟩

/-- Leaving a scope keeps files. -/
private theorem Scope.keepsFiles_leave (scope : Scope) (store : Store) :
    Graph.KeepsFiles store.graph (scope.leave store).2.graph := by
  cases scope with
  | ofArtifact scope =>
    have hupdate (id : TypeId) : Keeps Graph.KeepsFiles
        (Graph.updateType id (·.setRequiredBy none)) := by
      refine ⟨fun graph => ?_⟩
      cases hx : graph.types.get? id with
      | none =>
        have he := Arena.update_eq_error_iff (f := (·.setRequiredBy none)) |>.2 ⟨hx, rfl⟩
        simp only [Graph.updateType, tryChange, he, Bind.bind, Except.bind]
        exact Guarantee.refl graph
      | some x =>
        rw [Graph.updateType_known _ hx]
        exact .of_eq rfl rfl
    have hk : Keeps Graph.KeepsFiles (forEach scope.created fun id =>
      Graph.updateType id (·.setRequiredBy none)) := inferInstance
    exact hk.keeps store.graph
  | global => exact Guarantee.refl _

namespace Session

/-- The project that a run leaves behind, with no scope open. -/
def Leaves (steps : List Step) (project : Project) : Prop :=
  run steps = { project, scopes := [] }

variable {steps : List Step} {project : Project}

/-- An artifact is made, and its scope is entered. -/
private theorem enter_accounts (h : Leaves steps project) {name : String}
    {dependencies : List ArtifactId}
    (hrun : Graph.addArtifact name dependencies project.store.graph =
      (.ok project.store.graph.artifacts.nextId, { project.store.graph with
        artifacts := project.store.graph.artifacts.push { name, dependencies } })) :
    ∃ middle scope more, Project.onGraph (Graph.addArtifact name dependencies) project =
        (.ok project.store.graph.artifacts.nextId, middle) ∧
      Scope.enter middle.store.graph (some project.store.graph.artifacts.nextId) = .ok scope ∧
      OpenFor project.store.graph.artifacts.nextId (steps ++ more) { middle with scope } := by
  generalize hmiddle : ({ project with store := { project.store with
    graph := { project.store.graph with
      artifacts := project.store.graph.artifacts.push { name, dependencies } } } } : Project) =
      middle
  have hmade : Project.onGraph (Graph.addArtifact name dependencies) project =
      (.ok project.store.graph.artifacts.nextId, middle) := by
    simp only [Project.onGraph, Store.onGraph, Action.within, hrun, ← hmiddle]
  have hleaves : Leaves (steps ++ [.addArtifact name dependencies]) middle := by
    rw [Leaves, run_concat, h]
    simp only [Step.run, Session.onGraph, Session.onProject, Action.within, hmade]
  have hsound := sound_run (steps ++ [.addArtifact name dependencies])
  rw [hleaves] at hsound
  have hnode : middle.store.graph.artifacts.get? project.store.graph.artifacts.nextId =
      some { name, dependencies } := by
    rw [← hmiddle]
    exact (Arena.get?_push ..).trans (if_pos rfl)
  obtain ⟨known, hknown, -⟩ := ArtifactScope.enter_ok hsound.1 hsound.2.1 hnode
  have henter : Scope.enter middle.store.graph (some project.store.graph.artifacts.nextId) =
      .ok (.ofArtifact ⟨project.store.graph.artifacts.nextId, dependencies, known, {}, []⟩) := by
    simp only [Scope.enter, hknown, Functor.map, Except.map]
  refine ⟨middle, _, [.addArtifact name dependencies,
    .enter (some project.store.graph.artifacts.nextId)], hmade, henter, ?_, rfl⟩
  have hsteps : steps ++ [.addArtifact name dependencies,
      .enter (some project.store.graph.artifacts.nextId)] =
    (steps ++ [.addArtifact name dependencies]) ++
      [.enter (some project.store.graph.artifacts.nextId)] := by simp
  rw [hsteps, run_concat, hleaves]
  simp only [Step.run, Session.enter, henter, List.isEmpty_nil, if_true]

/-- The scope of an artifact is left. -/
private theorem leave_accounts {opened : OpenProject} {artifact : ArtifactId}
    (h : OpenFor artifact steps opened) :
    ∃ store, opened.scope.leave opened.store = (.ok (), store) ∧
      Leaves (steps ++ [.leave]) { opened.toProject with store } ∧
      Graph.KeepsFiles opened.store.graph store.graph := by
  have hsound := sound_run steps
  rw [h.run] at hsound
  obtain ⟨after, hrun, -⟩ := Scope.leave_sound opened.store.answers hsound
  have hleave : opened.scope.leave opened.store =
    (.ok (), { graph := after, answers := opened.store.answers }) := hrun
  have hk := Scope.keepsFiles_leave opened.scope opened.store
  rw [hleave] at hk
  refine ⟨_, hleave, ?_, hk⟩
  rw [Leaves, run_concat, h.run]
  simp only [Step.run, Session.leave?, hleave]

/-- Once the artifact is made, all its files are accounted for. -/
private theorem loadFiles_accounts (h : Leaves steps project) (config : ScanConfig)
    (tree : FileTree) (spec : ArtifactSpec) (files : List String) :
    (∃ dependency ∈ spec.dependencies, project.store.graph.artifacts.get? dependency = none ∧
      Project.loadFiles config tree spec files project =
        (.error (.unknownId .artifact dependency.index), project)) ∨
    ∃ report after more, Project.loadFiles config tree spec files project = (.ok report, after) ∧
      Leaves (steps ++ more) after ∧
      (∀ dependency ∈ spec.dependencies, ∃ node,
        project.store.graph.artifacts.get? dependency = some node) ∧
      report.artifact = project.store.graph.artifacts.nextId ∧
      report.Covers config tree files after.store.graph := by
  unfold Project.loadFiles
  rcases Graph.addArtifact_run project.store.graph spec.name spec.dependencies with
    ⟨dependency, hm, hx, hrun⟩ | ⟨hknown, hrun⟩
  · refine .inl ⟨dependency, hm, hx, Action.bind_of_error ?_⟩
    simp only [Project.onGraph, Store.onGraph, Action.within, hrun]
  · right
    obtain ⟨middle, scope, more, hmade, henter, ho⟩ := enter_accounts h hrun
    obtain ⟨outcomes, opened, more', hfiles, ho', -, hfits, -, hnodup⟩ :=
      scanAll_accounts config tree files ho
    obtain ⟨store, hleave, hleaves, hkeeps⟩ := leave_accounts ho'
    refine ⟨⟨project.store.graph.artifacts.nextId, outcomes⟩, { opened.toProject with store },
      more ++ more' ++ [.leave], ?_, by simpa only [← List.append_assoc] using hleaves, hknown, rfl,
      covers_of_fits (hfits.imp fun _ _ hfit => hfit.mono hkeeps) hnodup⟩
    rw [Action.bind_of_ok hmade]
    unfold Project.inScope
    rw [henter]
    dsimp only
    rw [Action.bind_of_ok hfiles]
    simp only [Pure.pure, hleave, Bind.bind, Except.bind, Except.pure]

end Session

/-! ### Loads -/

/-- Some path is that of a directory. -/
def FileTree.IsDirectory (tree : FileTree) (path : String) : Prop :=
  ∃ entries, tree.find path = .ok (.directory entries)

/-- Files are collected from all roots, or some root is no directory. -/
private theorem collected_cases (config : ScanConfig) (tree : FileTree) (roots : List String) :
    (∃ root ∈ roots, ¬ tree.IsDirectory root ∧
      roots.mapM (collectFiles config tree) = .error (.notADirectory root)) ∨
    (∀ root ∈ roots, tree.IsDirectory root) ∧
      ∃ found, roots.mapM (collectFiles config tree) = .ok found := by
  induction roots with
  | nil => exact .inr ⟨List.forall_mem_nil _, [], rfl⟩
  | cons root rest ih =>
    rw [List.mapM_cons]
    cases hfiles : collectFiles config tree root with
    | error e =>
      refine .inl ⟨root, List.mem_cons_self .., ?_⟩
      unfold collectFiles at hfiles
      split at hfiles
      · cases hfiles
      · next hno =>
        cases hfiles
        exact ⟨fun ⟨entries, hfind⟩ => hno entries hfind, rfl⟩
    | ok files =>
      have hdirectory : tree.IsDirectory root := by
        unfold collectFiles at hfiles
        split at hfiles
        · next entries hfind => exact ⟨entries, hfind⟩
        · cases hfiles
      rcases ih with ⟨other, hm, hno, he⟩ | ⟨hall, found, he⟩
      · exact .inl ⟨other, List.mem_cons_of_mem _ hm, hno, by rw [he]; rfl⟩
      · exact .inr ⟨List.forall_mem_cons.2 ⟨hdirectory, hall⟩, files :: found, by rw [he]; rfl⟩

/-- The loading of an artifact. -/
structure Load where
  config : ScanConfig
  tree : FileTree
  spec : ArtifactSpec
  /-- Whether paths keep the identifiers that they have from loads before. -/
  shared : Bool

namespace Load

/-- What the load does to a project. -/
def run (load : Load) : Action LoadError Project ArtifactReport :=
  if load.shared then Project.load load.config load.tree load.spec
  else Project.loadAlone load.config load.tree load.spec

/-- Why an artifact cannot be loaded. -/
inductive Fails (load : Load) (graph : Graph) : LoadError → Prop
  | root {path : String} : path ∈ load.spec.roots → ¬ load.tree.IsDirectory path →
    Fails load graph (.notADirectory path)
  | dependency {id : ArtifactId} : (∀ root ∈ load.spec.roots, load.tree.IsDirectory root) →
    id ∈ load.spec.dependencies → graph.artifacts.get? id = none →
    Fails load graph (.graph (.unknownId .artifact id.index))

/-- What the load of an artifact gives if nothing speaks against it. -/
structure Succeeds (load : Load) (before : Graph) (report : ArtifactReport) (after : Graph) :
    Prop where
  roots : ∀ root ∈ load.spec.roots, load.tree.IsDirectory root
  dependencies : ∀ dependency ∈ load.spec.dependencies,
    ∃ node, before.artifacts.get? dependency = some node
  artifact : report.artifact = before.artifacts.nextId
  /-- The files that are collected from the roots, root by root. -/
  files : ∃ found, load.spec.roots.mapM (collectFiles load.config load.tree) = .ok found ∧
    report.Covers load.config load.tree found.flatten after

end Load

namespace Session

variable {steps : List Step} {project : Project}

/-- A load leaves the store as it was, or accounts for all files. -/
private theorem load_accounts (h : Leaves steps project) (config : ScanConfig) (tree : FileTree)
    (spec : ArtifactSpec) (shared : Bool) :
    (∃ e, Project.load config tree spec project = (.error e, project) ∧
      Load.Fails ⟨config, tree, spec, shared⟩ project.store.graph e) ∨
    ∃ report after more, Project.load config tree spec project = (.ok report, after) ∧
      Leaves (steps ++ more) after ∧
      Load.Succeeds ⟨config, tree, spec, shared⟩ project.store.graph report after.store.graph := by
  unfold Project.load
  rcases collected_cases config tree spec.roots with ⟨root, hm, hno, he⟩ | ⟨hroots, found, he⟩
  · rw [he]
    exact .inl ⟨_, rfl, .root hm hno⟩
  · rw [he]
    dsimp only
    rcases loadFiles_accounts h config tree spec found.flatten with
      ⟨dependency, hm, hx, hrun⟩ | ⟨report, after, more, hrun, hleaves, hknown, ha, hcovers⟩
    · refine .inl ⟨_, ?_, .dependency hroots hm hx⟩
      simp only [Action.mapError, hrun, Except.mapError]
    · refine .inr ⟨report, after, more, ?_, hleaves, hroots, hknown, ha, found, he, hcovers⟩
      simp only [Action.mapError, hrun, Except.mapError]

/-- So does a load that begins with identifiers for paths of its own. -/
private theorem run_accounts (h : Leaves steps project) (load : Load) :
    (∃ e after more, load.run project = (.error e, after) ∧ Leaves (steps ++ more) after ∧
      after.store = project.store ∧ load.Fails project.store.graph e) ∨
    ∃ report after more, load.run project = (.ok report, after) ∧ Leaves (steps ++ more) after ∧
      load.Succeeds project.store.graph report after.store.graph := by
  obtain ⟨config, tree, spec, shared⟩ := load
  unfold Load.run
  cases shared with
  | true =>
    rcases load_accounts h config tree spec true with ⟨e, hrun, hfails⟩ | hsucceeds
    · exact .inl ⟨e, project, [], hrun, by rwa [List.append_nil], rfl, hfails⟩
    · exact .inr hsucceeds
  | false =>
    have hforgets : Leaves (steps ++ [.scanner {}]) { project with files := {} } := by
      rw [Leaves, run_concat, h]
      rfl
    have hload : Project.loadAlone config tree spec project =
      Project.load config tree spec { project with files := {} } := rfl
    rw [if_neg Bool.false_ne_true, hload]
    rcases load_accounts hforgets config tree spec false with
      ⟨e, hrun, hfails⟩ | ⟨report, after, more, hrun, hleaves, hsucceeds⟩
    · exact .inl ⟨e, _, [.scanner {}], hrun, hforgets, rfl, hfails⟩
    · exact .inr ⟨report, after, .scanner {} :: more, hrun, by simpa [List.append_assoc] using hleaves,
        hsucceeds⟩

end Session

namespace Project

/-- The project after some loads, beginning with an empty store that answers queries or does not. -/
def loaded (answers : Bool) (loads : List Load) : Project :=
  loads.foldl (fun project load => (load.run project).2) { store := { answers } }

/-- What loads leave is what some run of a session leaves. -/
theorem leaves_loaded (answers : Bool) (loads : List Load) :
    ∃ steps, Session.Leaves steps (loaded answers loads) := by
  induction loads using List.reverseRecOn with
  | nil => exact ⟨[.answer answers], rfl⟩
  | append_singleton loads load ih =>
    obtain ⟨steps, h⟩ := ih
    have hnext : loaded answers (loads ++ [load]) = (load.run (loaded answers loads)).2 := by
      simp [loaded, List.foldl_append]
    rw [hnext]
    rcases Session.run_accounts h load with
      ⟨_, after, more, hrun, hleaves, -⟩ | ⟨_, after, more, hrun, hleaves, -⟩
    · exact ⟨steps ++ more, by rwa [hrun]⟩
    · exact ⟨steps ++ more, by rwa [hrun]⟩

/-- After any loads, a load fails and leaves the store as it was, because of a root or a dependency,
or it succeeds and accounts for every file that was collected. -/
theorem all_or_nothing (answers : Bool) (loads : List Load) (load : Load) :
    match load.run (loaded answers loads) with
    | (.error e, after) => after.store = (loaded answers loads).store ∧
      load.Fails (loaded answers loads).store.graph e
    | (.ok report, after) =>
      load.Succeeds (loaded answers loads).store.graph report after.store.graph := by
  obtain ⟨steps, h⟩ := leaves_loaded answers loads
  rcases Session.run_accounts h load with
    ⟨e, after, -, hrun, -, hstore, hfails⟩ | ⟨report, after, -, hrun, -, hsucceeds⟩
  · rw [hrun]
    exact ⟨hstore, hfails⟩
  · rw [hrun]
    exact hsucceeds

end Project

end JavaGraph
