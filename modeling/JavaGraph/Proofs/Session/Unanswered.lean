import JavaGraph.Proofs.Scan.Settled
import JavaGraph.Proofs.Scan.Warned
import JavaGraph.Proofs.Session.Order
/-!
# Files that are scanned without an answer

Files are scanned one after the other in the scope of an artifact while the store does not answer.
Each scan does what it does if the artifact depends on nothing: it begins with the same types, leaves
the same graph but for the lists of dependencies, and reports the same but for the lookups that have
failed.
-/

namespace JavaGraph

open JavaGraph.Action

/-! ### Reports -/

/-- The report without the lookups that have failed. -/
def UnitReport.withoutLookupFailures (report : UnitReport) : UnitReport :=
  { report with diagnostics := report.diagnostics.filter (!·.isLookupFailure) }

/-- What is wrong with a header is no lookup. -/
theorem Header.isLookupFailure_ofTree (file : FileId) (root : Tree) :
    ∀ diagnostic ∈ (Header.ofTree file root).2, diagnostic.isLookupFailure = false := by
  have hadd : ∀ (header : Header) item, ∀ diagnostic ∈ (header.add file item).2,
      diagnostic.isLookupFailure = false := by
    intro header item diagnostic hm
    unfold Header.add at hm
    split at hm
    · cases hm
    · split at hm
      · cases hm
      · split at hm
        · cases hm
        · rw [List.mem_singleton.1 hm]
          rfl
  have hall : ∀ items (header : Header), ∀ diagnostic ∈ (header.addAll file items).2,
      diagnostic.isLookupFailure = false := by
    intro items
    induction items with
    | nil => exact fun _ _ hm => by cases hm
    | cons item rest ih =>
      intro header diagnostic hm
      rcases List.mem_append.1 hm with hm | hm
      · exact hadd _ _ _ hm
      · exact ih _ _ hm
  exact hall _ _

/-! ### Units -/

namespace Graph

variable {graph : Graph} {artifact : ArtifactId}

/-- A new unit comes in without what it depends on. -/
theorem withoutDependencies_withSource (graph : Graph) (artifact : ArtifactId) (path : String)
    (home : Option ArtifactId) (package : Option String) (mayNotCompile : Bool) :
    (OpenProject.withSource graph path home package mayNotCompile).withoutDependencies artifact =
      OpenProject.withSource (graph.withoutDependencies artifact) path home package
        mayNotCompile := by
  have hartifacts :
      ((OpenProject.withSource graph path home package mayNotCompile).withoutDependencies
          artifact).artifacts =
        (OpenProject.withSource (graph.withoutDependencies artifact) path home package
          mayNotCompile).artifacts := by
    refine Arena.ext_get? fun id => ?_
    rw [get?_artifacts_withoutDependencies, OpenProject.get?_artifacts_withSource,
      OpenProject.get?_artifacts_withSource, get?_artifacts_withoutDependencies]
    cases graph.artifacts.get? id with
    | none => rfl
    | some node =>
      simp only [Option.map_some]
      rw [nextId_withoutDependencies]
      split <;> split <;> rfl
  have hunits :
      ((OpenProject.withSource graph path home package mayNotCompile).withoutDependencies
          artifact).units =
        (OpenProject.withSource (graph.withoutDependencies artifact) path home package
          mayNotCompile).units := by
    refine Arena.ext_get? fun k => ?_
    rw [get?_units_withoutDependencies, OpenProject.get?_units_withSource,
      OpenProject.get?_units_withSource, get?_units_withoutDependencies,
      nextId_withoutDependencies, dependenciesOf_withoutDependencies]
    split
    · simp only [Option.map_some, CompilationUnit.withoutDependencies]
      split <;> rfl
    · rfl
  change Graph.mk ((OpenProject.withSource graph path home package
    mayNotCompile).withoutDependencies artifact).artifacts ((OpenProject.withSource graph path home
    package mayNotCompile).withoutDependencies artifact).units _ _ _ _ _ _ _ _ = _
  rw [hartifacts, hunits]
  rfl

end Graph

/-! ### Scopes -/

namespace ArtifactScope

/-- The scope begins with the same types. -/
private theorem seed_withoutDependencies (graph : Graph) (artifact : ArtifactId)
    (units : List UnitId) :
    seed (graph.withoutDependencies artifact) units = seed graph units := by
  unfold seed
  congr 1
  funext known unit
  have hget : (graph.withoutDependencies artifact).units.get unit =
      (graph.units.get unit).map (·.withoutDependencies artifact) := by
    unfold Arena.get
    rw [Graph.get?_units_withoutDependencies]
    cases graph.units.get? unit <;> rfl
  rw [hget]
  cases graph.units.get unit with
  | error e => rfl
  | ok node =>
    have hdeclared : (node.withoutDependencies artifact).declaredTypes = node.declaredTypes := by
      unfold CompilationUnit.withoutDependencies
      split <;> rfl
    have hrequired : (node.withoutDependencies artifact).requiredTypes = node.requiredTypes := by
      unfold CompilationUnit.withoutDependencies
      split <;> rfl
    simp only [Except.map, bind, Except.bind, hdeclared, hrequired]
    rfl

end ArtifactScope

namespace Scope

/-- The scope of an artifact that depends on nothing is entered. -/
theorem enter_withoutDependencies {graph : Graph} {artifact : ArtifactId} {scope : Scope}
    (h : enter graph (some artifact) = .ok scope) :
    enter (graph.withoutDependencies artifact) (some artifact) = .ok scope.withoutDependencies := by
  unfold enter ArtifactScope.enter Arena.get at h ⊢
  simp only [Graph.get?_artifacts_withoutDependencies, if_pos,
    ArtifactScope.seed_withoutDependencies] at h ⊢
  generalize graph.artifacts.get? artifact = found at h ⊢
  cases found with
  | none => cases h
  | some node =>
    simp only [Option.map_some, bind, Except.bind] at h ⊢
    generalize ArtifactScope.seed graph node.units = seeded at h ⊢
    cases seeded with
    | error e => cases h
    | ok known =>
      cases h
      rfl

/-- Placeholders are released. -/
theorem leave_withoutDependencies (scope : Scope) (artifact : ArtifactId) (graph : Graph)
    (answers answers' : Bool) :
    scope.withoutDependencies.leave ⟨graph.withoutDependencies artifact, answers'⟩ =
      ((scope.leave ⟨graph, answers⟩).1,
        ⟨(scope.leave ⟨graph, answers⟩).2.graph.withoutDependencies artifact, answers'⟩) := by
  cases scope with
  | global => rfl
  | ofArtifact scope =>
    have hc : Commutes (Graph.withoutDependencies artifact)
        (Action.forEach scope.created fun id => Graph.updateType id (·.setRequiredBy none)) :=
      inferInstance
    have hrun := hc.commutes graph
    unfold CommutesAt at hrun
    unfold Scope.leave Scope.withoutDependencies ArtifactScope.leave Store.onGraph within
    simp only [hrun, ArtifactScope.withoutDependencies]

end Scope

/-! ### Files -/

namespace OpenProject

variable {opened : OpenProject}

/-- The project in which the artifact of the scope depends on nothing. -/
def alone (artifact : ArtifactId) (answers : Bool) (opened : OpenProject) : OpenProject :=
  { opened with
    store := ⟨opened.store.graph.withoutDependencies artifact, answers⟩
    scope := opened.scope.withoutDependencies }

/-- The scope of an artifact with dependencies is open, and the store knows nothing about them. -/
structure Unanswered (opened : OpenProject) : Prop where
  sound : opened.Sound
  tidy : opened.Tidy
  answers : opened.store.answers = false
  scope : opened.scope.Unaided

variable (artifact : ArtifactId) (answers : Bool)

/-- No lookup has failed when the scan of a new file begins. -/
theorem isLookupFailure_initial (opened : OpenProject) (file : FileId) (path : String)
    (parsed : ParsedSource) : ∀ diagnostic ∈ (opened.initial file path parsed).diagnostics,
      diagnostic.isLookupFailure = false := by
  intro diagnostic hm
  rcases List.mem_append.1 hm with hm | hm
  · obtain ⟨error, -, rfl⟩ := List.mem_map.1 hm
    rfl
  · exact Header.isLookupFailure_ofTree file parsed.root diagnostic hm

/-- The scan of a new file begins as it does without dependencies. -/
private theorem initial_alone (opened : OpenProject) (file : FileId) (path : String)
    (parsed : ParsedSource) :
    (opened.alone artifact answers).initial file path parsed =
      (opened.initial file path parsed).alone artifact answers := by
  have hd : (opened.initial file path parsed).diagnostics.filter (!·.isLookupFailure) =
      (opened.initial file path parsed).diagnostics := by
    refine List.filter_eq_self.2 fun diagnostic hm => ?_
    rw [isLookupFailure_initial opened file path parsed diagnostic hm]
    rfl
  unfold ScanState.alone
  rw [hd]
  unfold initial alone
  simp only [Scope.artifact?_withoutDependencies, Graph.withoutDependencies_withSource]

/-- The scan of a new file begins unanswered. -/
theorem Unanswered.initial (h : opened.Unanswered) (file : FileId) (path : String)
    (parsed : ParsedSource) :
    (opened.initial file path parsed).Unanswered opened.store.graph.units.nextId :=
  ⟨initial_sound file path parsed h.sound, h.answers, h.scope⟩

/-- A path that has been seen does not matter. -/
theorem Unanswered.seeing (h : opened.Unanswered) (path : String) :
    (opened.seeing path).Unanswered :=
  ⟨h.sound, ⟨h.tidy.graph, h.tidy.borrowed⟩, h.answers, h.scope⟩

/-- The three passes over a new file do not fail, and do the same without dependencies. -/
theorem Unanswered.passes_alone (h : opened.Unanswered) (config : ScanConfig)
    (source : SourceText) :
    ∃ declared s, passes config opened source = (.ok declared, s) ∧
      s.Unanswered opened.store.graph.units.nextId ∧
      ∀ artifact answers, passes config (opened.alone artifact answers) source =
        (.ok declared, s.alone artifact answers) := by
  have ha : opened.scope.artifact?.isSome := by
    obtain ⟨own, hown, -⟩ := h.scope
    rw [hown]
    rfl
  obtain ⟨declared, -, -, hok, -⟩ := reached_passes h.sound h.tidy config source ha
  have hrun : passes config opened source = (.ok declared, (passes config opened source).2) :=
    Prod.ext hok rfl
  have hinitial := (h.seeing source.path).initial (opened.fileOf source) source.path
    (parsed config source)
  have hk : Keeps (ScanState.Stays (ScanState.Unanswered opened.store.graph.units.nextId))
      (scanTypes config.recordAccesses ⟨opened.store.graph.units.nextId, opened.fileOf source⟩
        (Header.ofTree (opened.fileOf source) (parsed config source).root).1 source.path
        (parsed config source).root) := inferInstance
  refine ⟨declared, _, hrun, hk.keeps _ hinitial, fun artifact answers => ?_⟩
  have hnext : (opened.alone artifact answers).store.graph.units.nextId =
      opened.store.graph.units.nextId := Arena.nextId_map ..
  have halone := initial_alone artifact answers (opened.seeing source.path) (opened.fileOf source)
    source.path (parsed config source)
  change scanTypes _ ⟨(opened.alone artifact answers).store.graph.units.nextId, _⟩ _ _ _
    (((opened.seeing source.path).alone artifact answers).initial _ _ _) = _
  rw [hnext]
  obtain ⟨hstate, hiff⟩ := (ScanState.oblivious_alone artifact answers
    ⟨opened.store.graph.units.nextId, opened.fileOf source⟩).run_scanTypes hinitial
    config.recordAccesses (Header.ofTree (opened.fileOf source) (parsed config source).root).1
    source.path (parsed config source).root
  exact (congrArg _ halone).trans (Prod.ext ((hiff declared).1 hok) hstate)

/-- The scan of a file gives the same report without dependencies, but for the lookups that have
failed, and leaves the same project but for the dependencies. -/
theorem Unanswered.scanOne (h : opened.Unanswered) (config : ScanConfig) (source : SourceText) :
    ∃ report after, scanOne config source opened = (.ok report, after) ∧ after.Unanswered ∧
      ∀ artifact answers, OpenProject.scanOne config source (opened.alone artifact answers) =
        (.ok report.withoutLookupFailures, after.alone artifact answers) := by
  have hat : ∀ artifact answers, (opened.alone artifact answers).store.graph.unitAt? source.path
      (opened.alone artifact answers).scope.artifact? =
        opened.store.graph.unitAt? source.path opened.scope.artifact? := by
    intro artifact answers
    change (opened.store.graph.withoutDependencies artifact).unitAt? source.path
      opened.scope.withoutDependencies.artifact? = _
    rw [Scope.artifact?_withoutDependencies, Graph.unitAt?_withoutDependencies]
  cases hu : opened.store.graph.unitAt? source.path opened.scope.artifact? with
  | some unit =>
    obtain ⟨node, hn, -⟩ := Graph.get?_of_unitAt? hu
    refine ⟨_, _, scanOne_existing config hu hn, h.seeing source.path, fun artifact answers => ?_⟩
    have hn' : (opened.alone artifact answers).store.graph.units.get? unit =
        some (node.withoutDependencies artifact) := by
      simp [alone, Graph.withoutDependencies, hn]
    have hreport : oldReport unit (opened.fileOf source) source.path
        (node.withoutDependencies artifact) =
        (oldReport unit (opened.fileOf source) source.path node).withoutLookupFailures := by
      unfold CompilationUnit.withoutDependencies
      split <;> rfl
    rw [scanOne_existing config ((hat artifact answers).trans hu) hn', ← hreport]
    rfl
  | none =>
    obtain ⟨declared, s, hrun, hs, hrun'⟩ := h.passes_alone config source
    have htidy := scanSource_tidy h.sound h.tidy config source.path source.text
    have hscan := scanOne_new config h.sound hu
    change (OpenProject.scanOne config source opened).2.Tidy at htidy
    rw [hscan] at htidy
    rw [hrun] at hscan htidy
    refine ⟨_, _, hscan, ⟨hs.sound.1, htidy, hs.answers, hs.scope⟩, fun artifact answers => ?_⟩
    have hsound : (opened.alone artifact answers).Sound := h.sound.withoutDependencies artifact
    have hscan' := scanOne_new config hsound ((hat artifact answers).trans hu)
    have hnext : (opened.alone artifact answers).store.graph.units.nextId =
        opened.store.graph.units.nextId := Arena.nextId_map ..
    rw [hrun', hnext] at hscan'
    exact hscan'

/-- Files that are scanned one after the other. -/
theorem Unanswered.scanAll (config : ScanConfig) (sources : List SourceText) :
    ∀ {opened : OpenProject}, opened.Unanswered →
    ∃ reports after, OpenProject.scanAll config sources opened = (.ok reports, after) ∧
      after.Unanswered ∧
      ∀ artifact answers,
        OpenProject.scanAll config sources (opened.alone artifact answers) =
          (.ok (reports.map UnitReport.withoutLookupFailures), after.alone artifact answers) := by
  induction sources with
  | nil => exact fun h => ⟨[], _, rfl, h, fun _ _ => rfl⟩
  | cons source rest ih =>
    intro opened h
    obtain ⟨report, middle, hrun, hm, hrun'⟩ := h.scanOne config source
    obtain ⟨reports, after, hrest, ha, hrest'⟩ := ih hm
    refine ⟨report :: reports, after, ?_, ha, fun artifact answers => ?_⟩
    · unfold OpenProject.scanAll at hrest ⊢
      rw [Action.mapEach, bind_of_ok hrun, bind_of_ok hrest]
      rfl
    · unfold OpenProject.scanAll at hrest' ⊢
      rw [Action.mapEach, bind_of_ok (hrun' artifact answers),
        bind_of_ok (hrest' artifact answers)]
      rfl

end OpenProject

end JavaGraph

/-!
## Scans of an artifact whose dependencies cannot be looked up

If the store does not answer, the files of an artifact are scanned as if it had no dependencies: the
graph is the same, and so are the reports but for one warning for each placeholder that was made. It
is at the first reference to the name of the placeholder.
-/

namespace JavaGraph

open List (Forall₂)
open JavaGraph.Action

/-- The lookups that have failed, by the report. -/
def UnitReport.lookupFailures (report : UnitReport) : List Diagnostic :=
  Diagnostic.lookupFailures report.diagnostics

/-! ### References of files -/

namespace OpenProject

/-- What a file refers to if it is scanned now. A path with a unit is not scanned again. -/
def references (config : ScanConfig) (opened : OpenProject) (source : SourceText) :
    List Reference :=
  match opened.store.graph.unitAt? source.path opened.scope.artifact? with
  | some _ => []
  | none =>
    ScanState.references ⟨opened.store.graph.units.nextId, opened.fileOf source⟩
      (Header.ofTree (opened.fileOf source) (parsed config source).root).1 source.path
      (parsed config source).root
      ((opened.seeing source.path).initial (opened.fileOf source) source.path
        (parsed config source))

/-- What files refer to that are scanned one after the other. -/
def referencesAll (config : ScanConfig) : OpenProject → List SourceText → List Reference
  | _, [] => []
  | opened, source :: rest =>
    references config opened source ++ referencesAll config (opened.after config source) rest

/-! ### Warnings of files -/

/-- References in files have made placeholders and warnings. -/
structure Warns (refs : List Reference) (found : List Diagnostic) (opened after : OpenProject) :
    Prop where
  artifact : after.scope.artifact? = opened.scope.artifact?
  warned : ∃ created, after.scope.created = opened.scope.created ++ created ∧
    Graph.Warns opened.scope.artifact? refs created found opened.store.graph after.store.graph

variable {opened middle after : OpenProject} {refs refs' : List Reference}
  {found found' : List Diagnostic} {config : ScanConfig}

/-- Nothing is scanned. -/
private theorem Warns.of_eq (hg : after.store.graph = opened.store.graph)
    (hs : after.scope = opened.scope) : Warns [] [] opened after := by
  refine ⟨by rw [hs], [], by rw [hs, List.append_nil], ?_⟩
  rw [hg]
  exact .refl ..

/-- Files that follow others have made placeholders for other names. -/
private theorem Warns.trans (h : Warns refs found opened middle)
    (h' : Warns refs' found' middle after) :
    Warns (refs ++ refs') (found ++ found') opened after := by
  obtain ⟨created, hc, hg⟩ := h.warned
  obtain ⟨created', hc', hg'⟩ := h'.warned
  refine ⟨h'.artifact.trans h.artifact, created ++ created', ?_, hg.trans ?_⟩
  · rw [hc', hc, List.append_assoc]
  · rwa [h.artifact] at hg'

/-- The scan of a file warns of the placeholders that it makes. -/
private theorem Unanswered.warns_scanOne (h : opened.Unanswered) {source : SourceText}
    {report : UnitReport} (hrun : OpenProject.scanOne config source opened = (.ok report, after)) :
    Warns (references config opened source) report.lookupFailures opened after := by
  unfold references
  cases hu : opened.store.graph.unitAt? source.path opened.scope.artifact? with
  | some unit =>
    obtain ⟨node, hn, -⟩ := Graph.get?_of_unitAt? hu
    rw [scanOne_existing config hu hn] at hrun
    cases hrun
    exact .of_eq rfl rfl
  | none =>
    obtain ⟨declared, s, hpasses, -⟩ := h.passes_alone config source
    have hinitial := (h.seeing source.path).initial (opened.fileOf source) source.path
      (parsed config source)
    obtain ⟨-, ha, created, found, hc, hd, hg⟩ := ScanState.Unanswered.warns hinitial hpasses
    have hnew : Graph.Warns opened.scope.artifact? [] [] [] opened.store.graph
        ((opened.seeing source.path).initial (opened.fileOf source) source.path
          (parsed config source)).store.graph := .of_label id fun hx hi => ⟨_, hx, hi⟩
    have hnone := List.filter_eq_nil_iff.2 fun diagnostic hm => Bool.not_eq_true _ ▸
      isLookupFailure_initial (opened.seeing source.path) (opened.fileOf source) source.path
        (parsed config source) diagnostic hm
    rw [scanOne_new config h.sound hu, hpasses] at hrun
    cases hrun
    rw [Diagnostic.lookupFailures, Diagnostic.lookupFailures, hnone] at hd
    exact ⟨ha, created, hc, hnew.trans (hd ▸ hg)⟩

/-- Files that are scanned one after the other warn of the placeholders that they make. -/
theorem Unanswered.warns_scanAll (sources : List SourceText) :
    ∀ {opened : OpenProject} {reports}, opened.Unanswered →
      OpenProject.scanAll config sources opened = (.ok reports, after) →
      Warns (referencesAll config opened sources) (reports.flatMap UnitReport.lookupFailures) opened
        after := by
  induction sources with
  | nil =>
    intro opened reports h hrun
    cases hrun
    exact .of_eq rfl rfl
  | cons source rest ih =>
    intro opened reports h hrun
    obtain ⟨report, middle, hone, hm, -⟩ := h.scanOne config source
    unfold OpenProject.scanAll at hrun ih
    rw [Action.mapEach, bind_of_ok hone] at hrun
    obtain ⟨others, last, hrest, hrun⟩ := ok_of_bind hrun
    cases hrun
    have hafter : opened.after config source = middle := by
      unfold OpenProject.after
      rw [hone]
    unfold referencesAll
    rw [hafter]
    exact (h.warns_scanOne hone).trans (ih hm hrest)

end OpenProject

/-! ### A scope of its own -/

/-- Releasing placeholders makes none. -/
theorem Graph.Released.warns {before after : Graph} (h : Released before after) (home : Universe) :
    Warns home [] [] [] before after := by
  refine .of_label (fun hl => (h.label _).trans hl) fun {id x} hx hc => ?_
  obtain ⟨y, hy, rfl | ⟨hi, -⟩⟩ := h.type hx
  · exact ⟨x, hy, hc⟩
  · exact ⟨y, hy, hi⟩

namespace Project

variable {project : Project} {artifact : ArtifactId} {scope : Scope}

/-- The project in which an artifact depends on nothing. -/
def alone (artifact : ArtifactId) (answers : Bool) (project : Project) : Project :=
  { project with store := ⟨project.store.graph.withoutDependencies artifact, answers⟩ }

/-- What files refer to that are scanned in the scope of an artifact. -/
def referencesOf (config : ScanConfig) (artifact : ArtifactId) (sources : List SourceText)
    (project : Project) : List Reference :=
  match Scope.enter project.store.graph (some artifact) with
  | .error _ => []
  | .ok scope => OpenProject.referencesAll config { project with scope } sources

/-- The placeholders that are made when files are scanned in the scope of an artifact. -/
def placeholdersOf (config : ScanConfig) (artifact : ArtifactId) (sources : List SourceText)
    (project : Project) : List TypeId :=
  match Scope.enter project.store.graph (some artifact) with
  | .error _ => []
  | .ok scope => (OpenProject.scanAll config sources { project with scope }).2.scope.created

/-- What does the same in a scope without dependencies does so in a scope of its own. -/
theorem inScope_alone {α : Type} {action action' : OpenAction α} {value value' : α}
    {opened : OpenProject} (he : Scope.enter project.store.graph (some artifact) = .ok scope)
    (hr : action { project with scope } = (.ok value, opened)) (hs : opened.Sound)
    (hr' : ∀ answers, action' (OpenProject.alone artifact answers { project with scope }) =
      (.ok value', opened.alone artifact answers)) :
    ∃ after, inScope (some artifact) action project = (.ok value, after) ∧
      (∀ answers, inScope (some artifact) action' (project.alone artifact answers) =
        (.ok value', after.alone artifact answers)) ∧
      Graph.Released opened.store.graph after.store.graph := by
  obtain ⟨graph, hl, -⟩ := Scope.leave_sound opened.store.answers hs
  have hreleased := Scope.released_leave opened.scope opened.store
  rw [hl] at hreleased
  refine ⟨{ opened.toProject with store := ⟨graph, opened.store.answers⟩ }, ?_, fun answers => ?_,
    hreleased⟩
  · unfold inScope
    rw [he]
    simp only [hr, hl]
    rfl
  · have hl' := Scope.leave_withoutDependencies opened.scope artifact opened.store.graph
      opened.store.answers answers
    rw [hl] at hl'
    have hrun := hr' answers
    unfold OpenProject.alone at hrun
    unfold inScope alone
    rw [Scope.enter_withoutDependencies he]
    simp only [hrun, hl']
    rfl

end Project

/-! ### Runs -/

namespace Session

/-- After every run, if the store does not answer, files are scanned in the scope of an artifact
with dependencies as they are if it has none. The graph is the same but for the dependencies of the
artifact and its units. The reports are the same but for warnings: there is exactly one for each
placeholder that was made, and it is at the first reference to the name. -/
theorem scanFiles_unanswered (steps : List Step) {artifact : ArtifactId} {node : Artifact}
    (config : ScanConfig) (sources : List SourceText) (hs : (run steps).scopes = [])
    (ha : (run steps).project.store.graph.artifacts.get? artifact = some node)
    (hd : node.dependencies ≠ []) (hf : (run steps).project.store.answers = false) :
    ∃ reports after,
      Project.scanFiles config artifact sources (run steps).project = (.ok reports, after) ∧
      (∀ answers,
        Project.scanFiles config artifact sources ((run steps).project.alone artifact answers) =
          (.ok (reports.map UnitReport.withoutLookupFailures), after.alone artifact answers)) ∧
      Graph.Warns (some artifact)
        (Project.referencesOf config artifact sources (run steps).project)
        (Project.placeholdersOf config artifact sources (run steps).project)
        (reports.flatMap UnitReport.lookupFailures)
        (run steps).project.store.graph after.store.graph := by
  obtain ⟨known, he, hsound, htidy⟩ := enter_artifact (sound_run steps) (tidy_run steps) hs ha
  have hu : OpenProject.Unanswered { (run steps).project with
      scope := .ofArtifact { artifact, dependencies := node.dependencies, known } } :=
    ⟨hsound, htidy, hf, _, rfl, hd, fun _ => rfl⟩
  obtain ⟨reports, opened, hrun, hopened, hrun'⟩ := hu.scanAll config sources
  obtain ⟨after, hafter, hafter', hreleased⟩ :=
    Project.inScope_alone he hrun hopened.sound (hrun' artifact)
  refine ⟨reports, after, hafter, hafter', ?_⟩
  obtain ⟨-, created, hc, hg⟩ := hu.warns_scanAll sources hrun
  have hwarns := hg.trans (hreleased.warns _)
  simp only [List.append_nil] at hwarns
  unfold Project.referencesOf Project.placeholdersOf
  simp only [he, hrun, hc]
  exact hwarns

/-- An artifact that depends on another one, in a store that does not answer. -/
def baseUnanswered : List Step :=
  [.addArtifact "base" [], .addArtifact "app" [⟨0⟩], .answer false]

/-- The second file declares a name of the first one, and shares another one with it. -/
def sharedNames : List SourceText :=
  [⟨"A.java", "class A { B b; C c; B d; }"⟩, ⟨"B.java", "class B { C c; D d; }"⟩]

/-- Three placeholders are made for five references. -/
theorem scanFiles_sharedNames :
    (run baseUnanswered).scopes = [] ∧
      (run baseUnanswered).project.store.graph.artifacts.get? ⟨1⟩ =
        some { name := "app", dependencies := [⟨0⟩] } ∧
      (run baseUnanswered).project.store.answers = false ∧
      (Project.referencesOf {} ⟨1⟩ sharedNames (run baseUnanswered).project).map (·.name.text) =
        ["B", "C", "B", "C", "D"] ∧
      Project.placeholdersOf {} ⟨1⟩ sharedNames (run baseUnanswered).project = [⟨1⟩, ⟨2⟩, ⟨3⟩] ∧
      ∃ reports after,
        Project.scanFiles {} ⟨1⟩ sharedNames (run baseUnanswered).project = (.ok reports, after) ∧
        (∀ answers,
          Project.scanFiles {} ⟨1⟩ sharedNames ((run baseUnanswered).project.alone ⟨1⟩ answers) =
            (.ok (reports.map UnitReport.withoutLookupFailures), after.alone ⟨1⟩ answers)) ∧
        Graph.Warns (some ⟨1⟩)
          (Project.referencesOf {} ⟨1⟩ sharedNames (run baseUnanswered).project)
          (Project.placeholdersOf {} ⟨1⟩ sharedNames (run baseUnanswered).project)
          (reports.flatMap UnitReport.lookupFailures)
          (run baseUnanswered).project.store.graph after.store.graph := by
  have hs : (run baseUnanswered).scopes = [] := by decide +kernel
  have ha : (run baseUnanswered).project.store.graph.artifacts.get? ⟨1⟩ =
      some { name := "app", dependencies := [⟨0⟩] } := by decide +kernel
  have hf : (run baseUnanswered).project.store.answers = false := by decide +kernel
  have hrefs : (Project.referencesOf {} ⟨1⟩ sharedNames
      (run baseUnanswered).project).map (·.name.text) = ["B", "C", "B", "C", "D"] := by
    decide +kernel
  have hids : Project.placeholdersOf {} ⟨1⟩ sharedNames (run baseUnanswered).project =
      [⟨1⟩, ⟨2⟩, ⟨3⟩] := by decide +kernel
  exact ⟨hs, ha, hf, hrefs, hids,
    scanFiles_unanswered baseUnanswered {} sharedNames hs ha (by decide) hf⟩

end Session

end JavaGraph
