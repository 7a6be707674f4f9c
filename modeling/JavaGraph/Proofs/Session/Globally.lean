import JavaGraph.Proofs.Scan.Settled
import JavaGraph.Proofs.Scan.Confined
import JavaGraph.Proofs.Session.Order
/-!
# An artifact of its own or the global universe

Files that are scanned in an artifact that depends on nothing are scanned as they are in the global
scope. An empty project becomes the same in both, and the reports are the same, except that the
types and units of the one belong to the artifact and those of the other belong to none.
-/

namespace JavaGraph

open JavaGraph.Action

/-! ### Units -/

namespace Graph

variable {graph after : Graph} {home : Universe}

/-- A path has the same unit without the artifact. -/
theorem unitAt?_forgotten (h : graph.Sole home) (path : String) :
    graph.forgotten.unitAt? path none = graph.unitAt? path home := by
  unfold unitAt? Arena.idsWhere Arena.ids
  simp only [without, Arena.size_map, Arena.get?_map, Option.any_map]
  congr 2
  funext id
  cases hx : graph.units.get? id with
  | none => rfl
  | some x => simp [CompilationUnit.unplaced, h.units hx]

/-- A new unit comes in without its artifact. -/
theorem forgotten_withSource (path : String) (package : Option String) (mayNotCompile : Bool)
    (h : graph.dependenciesOf home = []) :
    (OpenProject.withSource graph path home package mayNotCompile).forgotten =
      OpenProject.withSource graph.forgotten path none package mayNotCompile := by
  have hunits : (OpenProject.withSource graph path home package mayNotCompile).forgotten.units =
      (OpenProject.withSource graph.forgotten path none package mayNotCompile).units := by
    refine Arena.ext_get? fun k => ?_
    rw [OpenProject.get?_units_withSource]
    simp only [without, Arena.get?_map, OpenProject.get?_units_withSource, Arena.nextId_map, h]
    split <;> rfl
  change Graph.mk _ (OpenProject.withSource graph path home package mayNotCompile).forgotten.units
    _ _ _ _ _ _ _ _ = _
  rw [hunits]
  rfl

/-- A new unit of the universe. -/
theorem Sole.withSource (h : graph.Sole home) (path : String) (package : Option String)
    (mayNotCompile : Bool) :
    (OpenProject.withSource graph path home package mayNotCompile).Sole home where
  types := h.types
  units := by
    intro k x hx
    rw [OpenProject.get?_units_withSource] at hx
    split at hx
    · cases hx
      rfl
    · exact h.units hx

/-- Nothing has changed but for which units placeholders are held. -/
def SameForgotten (before after : Graph) : Prop := after.forgotten = before.forgotten

instance : Action.Guarantee SameForgotten where
  refl _ := rfl
  trans h h' := h'.trans h

/-- Placeholders are released. -/
instance (id : TypeId) : Keeps SameForgotten (updateType id (·.setRequiredBy none)) := by
  constructor
  intro graph
  cases hx : graph.types.get? id with
  | none =>
    have he := Arena.update_eq_error_iff (f := (·.setRequiredBy none)) |>.2 ⟨hx, rfl⟩
    simp only [updateType, tryChange, he, bind, Except.bind]
    rfl
  | some x =>
    rw [updateType_known _ hx]
    unfold SameForgotten
    simp only [forgotten, without,
      Arena.map_modify_eq graph.types fun type => type.forgotten_setRequiredBy none]

/-- Leaving a scope releases placeholders, and that is all. -/
theorem forgotten_leave (scope : Scope) (store : Store) :
    (scope.leave store).2.graph.forgotten = store.graph.forgotten := by
  cases scope with
  | global => rfl
  | ofArtifact scope =>
    have hk : Keeps SameForgotten (Action.forEach scope.created fun id =>
      updateType id (·.setRequiredBy none)) := inferInstance
    exact hk.keeps store.graph

/-- What has forgotten everything does not change any more. -/
theorem unplaced_forgotten (graph : Graph) : graph.forgotten.unplaced = graph.forgotten := by
  have htypes : graph.forgotten.types.map TypeNode.unplaced = graph.forgotten.types := by
    refine Arena.ext_get? fun k => ?_
    simp only [without, Arena.get?_map]
    cases graph.types.get? k <;> rfl
  have hunits : graph.forgotten.units.map CompilationUnit.unplaced = graph.forgotten.units := by
    refine Arena.ext_get? fun k => ?_
    simp only [without, Arena.get?_map]
    cases graph.units.get? k <;> rfl
  change Graph.mk _ (graph.forgotten.units.map _) (graph.forgotten.types.map _) _ _ _ _ _ _ _ = _
  rw [htypes, hunits]
  rfl

/-- If nothing is held, only artifacts are forgotten. -/
theorem Unheld.forgotten_eq (h : graph.Unheld) : graph.forgotten = graph.unplaced := by
  have htypes : graph.types.map TypeNode.forgotten = graph.types.map TypeNode.unplaced := by
    refine Arena.ext_get? fun k => ?_
    rw [Arena.get?_map, Arena.get?_map]
    cases hx : graph.types.get? k with
    | none => rfl
    | some x => exact congrArg some (TypeNode.forgotten_of_unheld (h hx))
  unfold forgotten unplaced without
  rw [htypes]

end Graph

/-! ### Files -/

namespace OpenProject

variable {opened : OpenProject}

/-- The project in the global scope, without the artifact. -/
def globally (opened : OpenProject) : OpenProject :=
  { opened with
    store := { opened.store with graph := opened.store.graph.forgotten }
    scope := .global }

/-- The scope of an artifact without dependencies is open, and everything belongs to the
artifact. -/
structure Confined (opened : OpenProject) : Prop extends opened.Independent where
  answers : opened.store.answers = true
  sole : opened.store.graph.Sole opened.scope.artifact?
  dependencies : opened.store.graph.dependenciesOf opened.scope.artifact? = []

/-- The scan of a new file begins as it does in the global scope. -/
private theorem Confined.initial_globally (h : opened.Confined) (file : FileId) (path : String)
    (parsed : ParsedSource) :
    opened.globally.initial file path parsed = (opened.initial file path parsed).globally := by
  unfold initial ScanState.globally
  simp only [Graph.forgotten_withSource _ _ _ h.dependencies]
  rfl

/-- The scan of a new file begins confined. -/
private theorem Confined.initial (h : opened.Confined) (file : FileId) (path : String)
    (parsed : ParsedSource) :
    (opened.initial file path parsed).Confined opened.store.graph.units.nextId :=
  ⟨initial_sound file path parsed h.sound, h.scope, h.answers, h.sole.withSource ..⟩

/-- A path that has been seen does not matter. -/
private theorem Confined.seeing (h : opened.Confined) (path : String) :
    (opened.seeing path).Confined where
  sound := h.sound
  tidy := ⟨h.tidy.graph, h.tidy.borrowed⟩
  scope := h.scope
  answers := h.answers
  sole := h.sole
  dependencies := h.dependencies

/-- The three passes over a new file do not fail, and do the same in the global scope. -/
private theorem Confined.passes_globally (h : opened.Confined) (config : ScanConfig)
    (source : SourceText) :
    ∃ declared s, passes config opened source = (.ok declared, s) ∧
      passes config opened.globally source = (.ok declared, s.globally) ∧
      s.Confined opened.store.graph.units.nextId := by
  obtain ⟨declared, hok, -⟩ := h.toIndependent.passes_ok config source
  have hrun : passes config opened source = (.ok declared, (passes config opened source).2) :=
    Prod.ext hok rfl
  have hinitial := (h.seeing source.path).initial (opened.fileOf source) source.path
    (parsed config source)
  refine ⟨declared, _, hrun, ?_, ?_⟩
  · have hglobal := (h.seeing source.path).initial_globally (opened.fileOf source) source.path
      (parsed config source)
    have hnext : opened.globally.store.graph.units.nextId = opened.store.graph.units.nextId :=
      Arena.nextId_map ..
    change scanTypes _ ⟨opened.globally.store.graph.units.nextId, _⟩ _ _ _
      ((opened.seeing source.path).globally.initial _ _ _) = _
    rw [hnext]
    obtain ⟨hstate, hiff⟩ := (ScanState.oblivious_globally
      ⟨opened.store.graph.units.nextId, opened.fileOf source⟩).run_scanTypes hinitial
      config.recordAccesses (Header.ofTree (opened.fileOf source) (parsed config source).root).1
      source.path (parsed config source).root
    exact (congrArg _ hglobal).trans (Prod.ext ((hiff declared).1 hok) hstate)
  · have hk : Keeps (ScanState.Stays (ScanState.Confined opened.store.graph.units.nextId))
        (scanTypes config.recordAccesses
          ⟨opened.store.graph.units.nextId, opened.fileOf source⟩
          (Header.ofTree (opened.fileOf source) (parsed config source).root).1 source.path
          (parsed config source).root) := inferInstance
    exact hk.keeps _ hinitial

/-- The scan of a file gives the same report in the global scope, and leaves the same project but
for what the artifact is there for. -/
private theorem Confined.scanOne (h : opened.Confined) (config : ScanConfig) (source : SourceText) :
    ∃ report after, scanOne config source opened = (.ok report, after) ∧
      OpenProject.scanOne config source opened.globally = (.ok report, after.globally) ∧
      after.Confined := by
  have hat := Graph.unitAt?_forgotten h.sole source.path
  have hsound : opened.globally.Sound := h.sound.consistent.sound_global h.sole
  cases hu : opened.store.graph.unitAt? source.path opened.scope.artifact? with
  | some unit =>
    obtain ⟨node, hn, -⟩ := Graph.get?_of_unitAt? hu
    have hn' : opened.globally.store.graph.units.get? unit = some node.unplaced := by
      simp [globally, Graph.without, hn]
    have hscan' := scanOne_existing config (hat.trans hu) hn'
    exact ⟨_, _, scanOne_existing config hu hn, hscan', h.seeing source.path⟩
  | none =>
    obtain ⟨declared, s, hrun, hrun', hs⟩ := h.passes_globally config source
    have hpaired := paired_passes h.sound h.tidy config source
    have htidy := scanSource_tidy h.sound h.tidy config source.path source.text
    have hscan := scanOne_new config h.sound hu
    have hscan' := scanOne_new config hsound (hat.trans hu)
    change (OpenProject.scanOne config source opened).2.Tidy at htidy
    rw [hscan] at htidy
    rw [hrun] at hpaired hscan htidy
    rw [hrun'] at hscan'
    have hnext : opened.globally.store.graph.units.nextId = opened.store.graph.units.nextId :=
      Arena.nextId_map ..
    rw [hnext] at hscan'
    refine ⟨_, _, hscan, hscan', ⟨hs.sound.1, htidy, hs.scope⟩, hs.answers, hs.sole, ?_⟩
    change s.store.graph.dependenciesOf s.scope.artifact? = []
    rw [hpaired.scope, hpaired.graphs.since.dependencies]
    have hsource := since_withSource opened.store.graph source.path opened.scope.artifact? none
      (Header.ofTree (opened.fileOf source) (parsed config source).root).1.package
      (parsed config source).hasErrors
    exact (hsource.dependencies opened.scope.artifact?).trans h.dependencies

/-- Files that are scanned one after the other. -/
private theorem Confined.scanAll (config : ScanConfig) (sources : List SourceText) :
    ∀ {opened : OpenProject}, opened.Confined →
    ∃ reports after, OpenProject.scanAll config sources opened = (.ok reports, after) ∧
      OpenProject.scanAll config sources opened.globally = (.ok reports, after.globally) ∧
      after.Confined := by
  induction sources with
  | nil => exact fun h => ⟨[], _, rfl, rfl, h⟩
  | cons source rest ih =>
    intro opened h
    obtain ⟨report, middle, hrun, hrun', hm⟩ := h.scanOne config source
    obtain ⟨reports, after, hrest, hrest', ha⟩ := ih hm
    refine ⟨report :: reports, after, ?_, ?_, ha⟩
    · unfold OpenProject.scanAll at hrest ⊢
      rw [Action.mapEach, bind_of_ok hrun, bind_of_ok hrest]
      rfl
    · unfold OpenProject.scanAll at hrest' ⊢
      rw [Action.mapEach, bind_of_ok hrun', bind_of_ok hrest']
      rfl

/-- A new artifact without dependencies has a scope of its own in an empty project. -/
private theorem confined_first (name : String) :
    ∃ scope, Scope.enter (Session.run [.addArtifact name []]).project.store.graph (some ⟨0⟩) =
        .ok scope ∧
      OpenProject.Confined { (Session.run [.addArtifact name []]).project with scope } ∧
      OpenProject.globally { (Session.run [.addArtifact name []]).project with scope } =
        { ({} : Project) with scope := .global } := by
  have hs : (Session.run [.addArtifact name []]).Sound := Session.sound_run _
  have hfirst : (Session.run [.addArtifact name []]).project.store.graph.artifacts.get? ⟨0⟩ =
      some { name, dependencies := [], units := [] } := rfl
  obtain ⟨scope, he, hi⟩ := Session.enter_independent hs (Session.tidy_run _) rfl hfirst rfl
  obtain ⟨hc, hv, hu⟩ := hs
  have hartifact := (Scope.enter_sound hc hv hu he).2
  refine ⟨scope, he, ⟨hi, rfl, ⟨nofun, nofun⟩, ?_⟩, ?_⟩
  · change Graph.dependenciesOf _ scope.artifact? = []
    rw [hartifact]
    rfl
  · have hgraph : (Session.run [.addArtifact name []]).project.store.graph.forgotten = {} := by
      change Graph.mk {} (Arena.map _ {}) (Arena.map _ {}) {} {} {} #[] {} {} {} = _
      rw [Arena.map_empty, Arena.map_empty]
    unfold OpenProject.globally
    rw [hgraph]
    rfl

end OpenProject

/-! ### Projects -/

namespace Project

/-- Some files are scanned into an empty project, once in the global scope and once in an artifact
that depends on nothing. The reports are the same, and so are the projects, up to what belongs to
the artifact. -/
theorem unplaced_scanAll (config : ScanConfig) (sources : List SourceText) (name : String) :
    ∃ reports after after',
      inScope none (OpenProject.scanAll config sources) {} = (.ok reports, after) ∧
      inScope (some ⟨0⟩) (OpenProject.scanAll config sources)
        (Session.run [.addArtifact name []]).project = (.ok reports, after') ∧
      after'.files = after.files ∧
      after'.store.graph.unplaced = after.store.graph.unplaced := by
  obtain ⟨scope, he, hconfined, hglobally⟩ := OpenProject.confined_first name
  obtain ⟨reports, opened, hrun, hrun', ho⟩ := hconfined.scanAll config sources
  obtain ⟨graph, hleave, -, -, hunheld⟩ := Scope.leave_sound opened.store.answers ho.sound
  change opened.scope.leave opened.store = _ at hleave
  have hforgotten := Graph.forgotten_leave opened.scope opened.store
  rw [hleave] at hforgotten
  rw [hglobally] at hrun'
  refine ⟨reports, opened.globally.toProject,
    { opened.toProject with store := ⟨graph, opened.store.answers⟩ }, ?_, ?_, rfl, ?_⟩
  · unfold inScope
    simp only [Scope.enter, hrun']
    rfl
  · unfold inScope
    rw [he]
    simp only [hrun, hleave]
    rfl
  · change graph.unplaced = opened.store.graph.forgotten.unplaced
    rw [← hunheld.forgotten_eq, Graph.unplaced_forgotten]
    exact hforgotten

end Project

end JavaGraph
