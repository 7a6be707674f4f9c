import JavaGraph.Proofs.Graph.Correspondence
import JavaGraph.Proofs.Scan.Step
import JavaGraph.Proofs.Scope.Lifecycle
/-!
# Scans keep the graph sound

A file that is scanned in a sound scope leaves it sound, whatever its text is, whether its path is
new or not, and whether the scan succeeds or fails.
-/

namespace JavaGraph

open JavaGraph.Action

/-! ### The scan of a file -/

namespace ScanState

/-- The open scope and the graph are sound, and the unit belongs to the scope. -/
def Sound (unit : UnitId) (state : ScanState) : Prop :=
  Scope.Sound state.store.graph state.scope ∧ Scope.Serves state.store.graph state.scope unit

/-- Soundness is passed on. -/
def PassesOn (unit : UnitId) (before after : ScanState) : Prop :=
  before.Sound unit → after.Sound unit

variable {unit : UnitId}

/-- What a unit has declared belongs to its universe. -/
theorem Sound.home_of_complete {s : ScanState} (hs : s.Sound unit) {id : TypeId} {x : TypeNode}
    (hx : s.store.graph.types.get? id = some x) (hc : x.state = .complete unit) :
    x.home = s.scope.artifact? := by
  obtain ⟨node, hn, hartifact⟩ := hs.2
  obtain ⟨node', hn', hm⟩ := hs.1.consistent.complete_declared hx hc
  cases hn.symm.trans hn'
  obtain ⟨y, hy, -, -, hh⟩ := hs.1.consistent.declared_complete hn hm
  cases hx.symm.trans hy
  exact hh.trans hartifact

instance : Action.Guarantee (PassesOn unit) where
  refl _ := id
  trans h h' := h' ∘ h

private theorem keeps_inScope {operation : Scope → StoreAction (TypeId × Scope)}
    (h : ∀ graph answers scope, Scope.Sound graph scope → Scope.Serves graph scope unit →
      Scope.Leaves scope unit (operation scope ⟨graph, answers⟩)) :
    Keeps (PassesOn unit) (inScope operation) := by
  constructor
  intro state hs
  obtain ⟨hsound, hserves⟩ := hs
  have hl := h state.store.graph state.store.answers state.scope hsound hserves
  unfold inScope
  change Scope.Leaves state.scope unit (operation state.scope state.store) at hl
  cases ho : operation state.scope state.store with
  | mk result store =>
    rw [ho] at hl
    cases result with
    | ok value => exact hl
    | error e => exact hl

private theorem sound_of_sameLedger {before after : Graph} {scope : Scope}
    (hs : Graph.SameLedger before after) (h : Scope.Sound before scope) :
    Scope.Sound after scope := by
  refine ⟨h.consistent.of_sameLedger hs, fun id => Graph.CoveredAt.of_sameLedger (h.covered id) hs,
    ?_⟩
  cases scope with
  | ofArtifact scope => exact ArtifactScope.Fits.of_sameLedger h.fits hs
  | global => exact Graph.Unheld.of_sameLedger h.fits hs

private theorem serves_of_sameLedger {before after : Graph} {scope : Scope}
    (hs : Graph.SameLedger before after) (h : Scope.Serves before scope unit) :
    Scope.Serves after scope unit := by
  refine h.of_units rfl ?_
  intro node hn
  obtain ⟨node', hn', -, ha, -⟩ := hs.unit' hn
  exact ⟨node', hn', ha⟩

/-- What does not touch the ledger is passed on. -/
theorem keeps_onGraph {α : Type} (action : GraphAction α)
    (h : Keeps Graph.SameLedger action) : Keeps (PassesOn unit) (onGraph action) := by
  constructor
  intro state hs
  have hk := h.keeps state.store.graph
  exact ⟨sound_of_sameLedger hk hs.1, serves_of_sameLedger hk hs.2⟩

instance : Guarantee unit (PassesOn unit) where
  report _ := ⟨fun _ => id⟩
  note source target := by
    constructor
    intro state h
    unfold noteDependency
    split <;> exact h
  resolve name := keeps_inScope fun _ _ _ => Scope.resolve_leaves
  require name := keeps_inScope fun _ _ _ => Scope.require_leaves
  declare name := keeps_inScope fun _ _ _ => Scope.declare_leaves
  record action h _ := keeps_onGraph action h
  mainType _ := keeps_onGraph _ inferInstance

end ScanState

/-! ### Files in an open scope -/

namespace OpenProject

/-- The open scope and the graph are sound. -/
def Sound (opened : OpenProject) : Prop := Scope.Sound opened.store.graph opened.scope

private theorem withUnit_sound {graph : Graph} {scope : Scope} {path : String}
    {dependencies : List ArtifactId} (h : Scope.Sound graph scope) :
    let after := graph.withUnit path scope.artifact? dependencies
    Scope.Sound after scope ∧ Scope.Serves after scope graph.units.nextId := by
  refine ⟨⟨h.consistent.withUnit fun owner ho => h.artifact_known ho, h.covered.withUnit, ?_⟩, ?_⟩
  · cases scope with
    | ofArtifact scope =>
      have hf : scope.Fits graph := h.fits
      refine ⟨?_, hf.known_iff, hf.created_of_held, hf.created_known⟩
      obtain ⟨node, hn⟩ := hf.artifact_known
      unfold Graph.withUnit Scope.artifact?
      simp only
      rw [Arena.get?_modify, if_pos rfl, hn]
      exact ⟨_, rfl⟩
    | global => exact h.fits
  · exact ⟨_, Graph.get?_withUnit_nextId .., rfl⟩

/-- An action on the graph leaves everything else as it is. -/
theorem onGraph_run {α : Type} {action : GraphAction α} {opened : OpenProject} {after : Graph}
    {result : Except GraphError α} (h : action opened.store.graph = (result, after)) :
    onGraph action opened =
      (result, { opened with store := { opened.store with graph := after } }) := by
  unfold onGraph onProject Project.onGraph Store.onGraph within
  simp only [h]

/-- The graph with the unit of a file that is about to be scanned. -/
def withSource (graph : Graph) (path : String) (artifact : Option ArtifactId)
    (package : Option String) (mayNotCompile : Bool) : Graph :=
  let after := graph.withUnit path artifact (graph.dependenciesOf artifact)
  { after with units := after.units.modify graph.units.nextId fun node =>
      { node with package, mayNotCompile } }

/-- The unit of the file is new, and the other units are as they were. -/
theorem get?_units_withSource (graph : Graph) (path : String) (artifact : Option ArtifactId)
    (package : Option String) (mayNotCompile : Bool) (k : UnitId) :
    (withSource graph path artifact package mayNotCompile).units.get? k =
      if k = graph.units.nextId then
        some { path, artifact, dependencies := graph.dependenciesOf artifact, package, mayNotCompile }
      else graph.units.get? k := by
  unfold withSource Graph.withUnit
  simp only
  rw [Arena.get?_modify, Arena.get?_push]
  split
  · rfl
  · rfl

/-- The artifact of the file lists the new unit last. -/
theorem get?_artifacts_withSource (graph : Graph) (path : String) (artifact : Option ArtifactId)
    (package : Option String) (mayNotCompile : Bool) (id : ArtifactId) :
    (withSource graph path artifact package mayNotCompile).artifacts.get? id =
      (graph.artifacts.get? id).map fun x =>
        if artifact = some id then { x with units := x.units ++ [graph.units.nextId] } else x := by
  unfold withSource Graph.withUnit
  cases artifact with
  | none => cases graph.artifacts.get? id <;> rfl
  | some owner =>
    simp only
    rw [Arena.get?_modify]
    by_cases hid : id = owner
    · simp [hid]
    · cases graph.artifacts.get? id <;> simp [hid, Ne.symm hid]

/-- Everything that was there is still there. -/
theorem extends_withSource (graph : Graph) (path : String) (artifact : Option ArtifactId)
    (package : Option String) (mayNotCompile : Bool) :
    Graph.Extends graph (withSource graph path artifact package mayNotCompile) := by
  refine ⟨id, ?_, id, id, id⟩
  intro k x hx
  rw [get?_units_withSource, if_neg (Arena.ne_nextId hx)]
  exact ⟨x, hx, rfl, rfl⟩

/-- The state in which the scan of a new unit begins. -/
def initial (opened : OpenProject) (file : FileId) (path : String) (parsed : ParsedSource) :
    ScanState where
  store := { opened.store with
    graph := withSource opened.store.graph path opened.scope.artifact?
      (Header.ofTree file parsed.root).1.package parsed.hasErrors }
  scope := opened.scope
  diagnostics := parsed.errors.map (.ofParseError file) ++ (Header.ofTree file parsed.root).2

/-- The report on a new unit. -/
def newReport (unit : UnitId) (file : FileId) (path : String) (parsed : ParsedSource)
    (declared : Declarations) (diagnostics : List Diagnostic) : UnitReport where
  unit := unit
  file := file
  path := path
  rescanned := false
  mayNotCompile := parsed.hasErrors
  declaredTypes := declared.types.map (·.id)
  diagnostics := diagnostics

/-- A scan in the open scope changes the store and the scope. -/
private theorem scan_run {α : Type} (diagnostics : List Diagnostic) (action : ScanAction α)
    (opened : OpenProject) :
    scan diagnostics action opened =
      let after := action { store := opened.store, scope := opened.scope, diagnostics }
      (after.1.map fun value => (value, after.2.diagnostics),
        { opened with store := after.2.store, scope := after.2.scope }) := by
  unfold scan within
  simp only
  cases hr : action { store := opened.store, scope := opened.scope, diagnostics } with
  | mk result after =>
    cases result with
    | ok value =>
      rw [bind_of_ok hr]
      rfl
    | error e =>
      rw [bind_of_error hr]
      rfl

/-- The three passes over the file are all there is to the scan of a new unit. -/
theorem scanNew_run {opened : OpenProject} {recordAccesses : Bool} {file : FileId} {path : String}
    {parsed : ParsedSource} {result : Except GraphError Declarations} {after : ScanState}
    (h : ∀ {owner}, opened.scope.artifact? = some owner →
      ∃ node, opened.store.graph.artifacts.get? owner = some node)
    (hn : opened.store.graph.unitAt? path opened.scope.artifact? = none)
    (hr : scanTypes recordAccesses ⟨opened.store.graph.units.nextId, file⟩
      (Header.ofTree file parsed.root).1 path parsed.root (opened.initial file path parsed) =
        (result, after)) :
    scanNew recordAccesses file path parsed opened =
      (result.map fun declared => newReport opened.store.graph.units.nextId file path parsed
          declared after.diagnostics,
        { opened with store := after.store, scope := after.scope }) := by
  have hrun := Graph.addUnit_new hn fun owner ho => h ho
  have hu := Graph.get?_withUnit_nextId opened.store.graph path opened.scope.artifact?
    (opened.store.graph.dependenciesOf opened.scope.artifact?)
  have hupdate := Graph.updateUnit_known (fun node : CompilationUnit => { node with
    package := (Header.ofTree file parsed.root).1.package, mayNotCompile := parsed.hasErrors }) hu
  have hscan := scan_run (opened.initial file path parsed).diagnostics
    (scanTypes recordAccesses ⟨opened.store.graph.units.nextId, file⟩
      (Header.ofTree file parsed.root).1 path parsed.root)
    { opened with store := (opened.initial file path parsed).store }
  have hinitial : (⟨(opened.initial file path parsed).store, opened.scope,
      (opened.initial file path parsed).diagnostics, []⟩ : ScanState) =
      opened.initial file path parsed := rfl
  simp only [hinitial, hr] at hscan
  unfold scanNew
  rw [read_bind, bind_of_ok (onGraph_run hrun)]
  simp only
  rw [bind_of_ok (onGraph_run hupdate)]
  cases result with
  | ok declared => exact bind_of_ok hscan
  | error e => exact bind_of_error hscan

/-- The scan of a new unit begins in a sound state. -/
theorem initial_sound {opened : OpenProject} (file : FileId) (path : String)
    (parsed : ParsedSource) (h : opened.Sound) :
    (opened.initial file path parsed).Sound opened.store.graph.units.nextId := by
  have hk := Graph.keeps_updateUnit opened.store.graph.units.nextId (fun node =>
    { node with
      package := (Header.ofTree file parsed.root).1.package, mayNotCompile := parsed.hasErrors })
    fun _ => rfl
  have hs := hk.keeps (opened.store.graph.withUnit path opened.scope.artifact?
    (opened.store.graph.dependenciesOf opened.scope.artifact?))
  rw [Graph.updateUnit_known _ (Graph.get?_withUnit_nextId ..)] at hs
  obtain ⟨hsound, hserves⟩ := withUnit_sound h
  exact ⟨ScanState.sound_of_sameLedger hs hsound, ScanState.serves_of_sameLedger hs hserves⟩

/-- A file whose path is new is scanned soundly. -/
private theorem scanNew_sound {opened : OpenProject} (recordAccesses : Bool) (file : FileId)
    (path : String) (parsed : ParsedSource) (h : opened.Sound)
    (hn : opened.store.graph.unitAt? path opened.scope.artifact? = none) :
    (scanNew recordAccesses file path parsed opened).2.Sound := by
  have hk : Keeps (ScanState.PassesOn opened.store.graph.units.nextId)
      (scanTypes recordAccesses ⟨opened.store.graph.units.nextId, file⟩
        (Header.ofTree file parsed.root).1 path parsed.root) := inferInstance
  rw [scanNew_run h.artifact_known hn rfl]
  exact (hk.keeps _ (initial_sound file path parsed h)).1

/-- The project in which a path has been seen. -/
def seeing (opened : OpenProject) (path : String) : OpenProject :=
  { opened with files := (opened.files.idOf path).2 }

/-- The report on a unit that was there already. -/
def oldReport (unit : UnitId) (file : FileId) (path : String) (node : CompilationUnit) :
    UnitReport where
  unit := unit
  file := file
  path := path
  rescanned := true
  mayNotCompile := node.mayNotCompile
  declaredTypes := node.declaredTypes
  diagnostics := []

/-- A path without a unit is scanned as a new unit. -/
theorem scanParsed_new {opened : OpenProject} {path : String} (recordAccesses : Bool)
    (parsed : ParsedSource)
    (hn : opened.store.graph.unitAt? path opened.scope.artifact? = none) :
    scanParsed recordAccesses path parsed opened =
      scanNew recordAccesses (opened.files.idOf path).1 path parsed (opened.seeing path) := by
  have hf : onProject (Project.fileId path) opened = ((.ok (opened.files.idOf path).1,
      opened.seeing path) : Except GraphError FileId × _) := rfl
  have hn' : (opened.seeing path).store.graph.unitAt? path (opened.seeing path).scope.artifact? =
      none := hn
  unfold scanParsed
  rw [bind_of_ok hf, read_bind, hn']

/-- A path with a unit is left as it is. -/
theorem scanParsed_existing {opened : OpenProject} {path : String} {unit : UnitId}
    {node : CompilationUnit} (recordAccesses : Bool) (parsed : ParsedSource)
    (hu : opened.store.graph.unitAt? path opened.scope.artifact? = some unit)
    (hn : opened.store.graph.units.get? unit = some node) :
    scanParsed recordAccesses path parsed opened =
      (.ok (oldReport unit (opened.files.idOf path).1 path node), opened.seeing path) := by
  have hf : onProject (Project.fileId path) opened = ((.ok (opened.files.idOf path).1,
      opened.seeing path) : Except GraphError FileId × _) := rfl
  have hu' : (opened.seeing path).store.graph.unitAt? path (opened.seeing path).scope.artifact? =
      some unit := hu
  have hc : (check fun opened : OpenProject => opened.store.graph.units.get unit : OpenAction _)
      (opened.seeing path) = (.ok node, opened.seeing path) := by
    have hn' : (opened.seeing path).store.graph.units.get? unit = some node := hn
    simp only [check, Arena.get, hn']
  unfold scanParsed
  rw [bind_of_ok hf, read_bind, hu']
  unfold rescan
  simp only
  rw [bind_of_ok hc]
  rfl

/-- A file is scanned soundly, whether its path is new or not. -/
private theorem scanParsed_sound {opened : OpenProject} (recordAccesses : Bool) (path : String)
    (parsed : ParsedSource) (h : opened.Sound) :
    (scanParsed recordAccesses path parsed opened).2.Sound := by
  cases hu : opened.store.graph.unitAt? path opened.scope.artifact? with
  | none =>
    have hs : (opened.seeing path).Sound := h
    rw [scanParsed_new recordAccesses parsed hu]
    exact scanNew_sound recordAccesses _ path parsed hs hu
  | some unit =>
    obtain ⟨node, hn, -⟩ := Graph.get?_of_unitAt? hu
    rw [scanParsed_existing recordAccesses parsed hu hn]
    exact h

/-- The scan of any text keeps the open scope and the graph sound. -/
theorem scanSource_sound (opened : OpenProject) (config : ScanConfig) (path text : String)
    (h : opened.Sound) : (scanSource config path text opened).2.Sound :=
  scanParsed_sound config.recordAccesses path _ h

end OpenProject

end JavaGraph
