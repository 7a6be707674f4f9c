import JavaGraph.Proofs.Scan.Trace
import JavaGraph.Proofs.Session.Settled
/-!
# Files that are scanned again

Once a path was scanned in the scope of an artifact, or in the global one, it has a unit there.
Whatever the run goes on to do, the path keeps its identifier and the unit keeps what is reported
of it. So at any later time the path is left as it is, and reported as it was.
-/

/-!
## What a unit has of the report on its file

The report on a new file is put together from what the passes over it give, and the report on a
file that was scanned before is read off its unit. Each type is listed in the unit when it is
declared, and what is read afterwards does not change the list, so both reports list the same.
-/

namespace JavaGraph

open JavaGraph.Action

/-! ### Units that list types -/

/-- A unit is that of the same file, and lists some declared types more, behind the others. -/
structure CompilationUnit.Lists (types : List TypeId) (before after : CompilationUnit) : Prop where
  path : after.path = before.path
  artifact : after.artifact = before.artifact
  mayNotCompile : after.mayNotCompile = before.mayNotCompile
  declaredTypes : after.declaredTypes = before.declaredTypes ++ types

namespace Graph

/-- A unit of the graph lists some declared types more. -/
def Lists (unit : UnitId) (types : List TypeId) (before after : Graph) : Prop :=
  ∀ x, before.units.get? unit = some x →
    ∃ y, after.units.get? unit = some y ∧ CompilationUnit.Lists types x y

variable {graph middle after : Graph} {unit : UnitId} {types others : List TypeId}

/-- What does not touch the units lists nothing. -/
theorem Lists.of_units (h : after.units = graph.units) : Lists unit [] graph after :=
  fun x hx => ⟨x, h ▸ hx, rfl, rfl, rfl, (List.append_nil _).symm⟩

/-- More and more types are listed. -/
theorem Lists.trans (h : Lists unit types graph middle) (h' : Lists unit others middle after) :
    Lists unit (types ++ others) graph after := by
  intro x hx
  obtain ⟨y, hy, hxy⟩ := h x hx
  obtain ⟨z, hz, hyz⟩ := h' y hy
  exact ⟨z, hz, hyz.path.trans hxy.path, hyz.artifact.trans hxy.artifact,
    hyz.mayNotCompile.trans hxy.mayNotCompile,
    by rw [hyz.declaredTypes, hxy.declaredTypes, List.append_assoc]⟩

instance (unit : UnitId) : Action.Guarantee (Lists unit []) where
  refl _ := .of_units rfl
  trans h h' := h.trans h'

/-- A unit that changes in nothing that is reported lists nothing more. -/
private theorem lists_updateUnit (unit id : UnitId) (f : CompilationUnit → CompilationUnit)
    (hf : ∀ x, CompilationUnit.Lists [] x (f x)) : Keeps (Lists unit []) (updateUnit id f) := by
  constructor
  intro graph
  cases hu : graph.units.get? id with
  | none =>
    have he := Arena.update_eq_error_iff (f := f) |>.2 ⟨hu, rfl⟩
    simp only [updateUnit, tryChange, he, bind, Except.bind]
    exact Guarantee.refl graph
  | some node =>
    rw [updateUnit_known f hu]
    intro x hx
    simp only
    rw [Arena.get?_modify, hx]
    split
    · exact ⟨f x, rfl, hf x⟩
    · exact ⟨x, rfl, rfl, rfl, rfl, (List.append_nil _).symm⟩

private theorem lists_of_sameUnits {α : Type} (unit : UnitId) {action : GraphAction α}
    (h : Keeps SameUnits action) : Keeps (Lists unit []) action :=
  ⟨fun graph => .of_units (h.keeps graph)⟩

private theorem lists_setMainType (unit id : UnitId) (type : TypeId) :
    Keeps (Lists unit []) (setMainType id type) := by
  have := lists_updateUnit unit id (fun node => { node with mainType := some type }) fun x =>
    ⟨rfl, rfl, rfl, (List.append_nil _).symm⟩
  unfold setMainType
  infer_instance

instance (unit : UnitId) : Placing (Lists unit []) where
  addType name home := by
    refine lists_of_sameUnits unit ?_
    have := sameUnits_change (fun graph => { graph with types := graph.types.push { name, home } })
      fun _ => rfl
    unfold addType
    infer_instance
  addRequirement id type := by
    have := lists_of_sameUnits unit (sameUnits_change (fun graph =>
      let known := (graph.requirers.find? type).getD []
      { graph with requirers := graph.requirers.insert type (known ++ [id]) }) fun _ => rfl)
    have := lists_updateUnit unit id (fun node =>
      { node with requiredTypes := node.requiredTypes ++ [type] }) fun x =>
        ⟨rfl, rfl, rfl, (List.append_nil _).symm⟩
    unfold addRequirement
    infer_instance
  hold _ _ := lists_of_sameUnits unit inferInstance

/-- While declared types are read, no unit lists more of them. -/
instance (unit id : UnitId) : ScanState.Recording id (ScanState.OnGraph (Lists unit [])) where
  toAnswering := inferInstance
  record _ _ h := ⟨fun s => (lists_of_sameUnits unit h).keeps s.store.graph⟩
  mainType type := ⟨fun s => (lists_setMainType unit id type).keeps s.store.graph⟩

/-- A unit lists the type that it declares. -/
theorem lists_withDeclaration (graph : Graph) (id : TypeId) (unit : UnitId)
    (artifact : Option ArtifactId) :
    Lists unit [id] graph (graph.withDeclaration id unit artifact) := by
  intro x hx
  rw [get?_units_withDeclaration, hx]
  exact ⟨_, rfl, rfl, rfl, rfl, if_pos rfl⟩

end Graph

/-! ### Declarations -/

namespace Site

variable {source : SourceUnit} {s t : ScanState}

instance (unit : UnitId) (outer : Option DeclaredType) (id : TypeId) :
    Keeps (ScanState.OnGraph (Graph.Lists unit [])) (listWithin outer id) := by
  unfold listWithin
  cases outer with
  | none => infer_instance
  | some outer =>
    exact ScanState.Recording.record unit _
      (Graph.keeps_updateType _ _ fun _ => ⟨rfl, rfl⟩) inferInstance

/-- A declaration of a site leaves it out, or its type is listed. -/
private theorem lists_of_declareAs {site : Site} {outer type : Option DeclaredType}
    {name : QualifiedName} (hs : s.Sound source.unit)
    (h : site.declareAs source outer name s = (.ok type, t)) :
    Graph.Lists source.unit (type.toList.map (·.id)) s.store.graph t.store.graph := by
  rcases Twins.inScope_declare_cases hs rfl name with ⟨existing, -, hrun⟩ | ⟨id, middle, ha, hrun⟩
  · rw [declareAs_duplicate hrun] at h
    cases h
    exact .of_units rfl
  · rw [declareAs_new hrun (Twins.updated_of_awaits _ ha rfl site outer)] at h
    obtain ⟨_, m, hl, hp⟩ := ok_of_bind h
    cases hp
    have hmiddle : Graph.Lists source.unit [] s.store.graph middle := by
      rcases ha.2 with rfl | ⟨rfl, -, -⟩ <;> exact .of_units rfl
    have hdeclared : Graph.Lists source.unit [id] middle
        (Twins.declaredGraph site outer middle id source.unit s.scope.artifact?) :=
      Graph.lists_withDeclaration middle id source.unit _
    have hk : Keeps (ScanState.OnGraph (Graph.Lists source.unit [])) (listWithin outer id) :=
      inferInstance
    have hlisted : Graph.Lists source.unit []
        (Twins.declaredGraph site outer middle id source.unit s.scope.artifact?) t.store.graph :=
      hk.of_run hl
    exact hmiddle.trans (hdeclared.trans hlisted)

/-- Whatever the sites are, the declared types are listed in their order. -/
private theorem Declared.lists {types : List DeclaredType} (h : Declared source s types t)
    (hs : s.Sound source.unit) :
    Graph.Lists source.unit (types.map (·.id)) s.store.graph t.store.graph := by
  induction h with
  | nothing s => exact .of_units rfl
  | malformed s diagnostic => exact .of_units rfl
  | site hn h => exact lists_of_declareAs hs h
  | append hfirst _ ih ih' =>
    rw [List.map_append]
    exact (ih hs).trans (ih' (hfirst.enrolled hs).sound)

end Site

/-- The types that a file declares are listed in its unit. -/
private theorem Declarations.lists_declare {source : SourceUnit} {header : Header} {root : Tree}
    {declared : Declarations} {s t : ScanState} (hs : s.Sound source.unit)
    (h : Declarations.declare source header root s = (.ok declared, t)) :
    Graph.Lists source.unit (declared.types.map (·.id)) s.store.graph t.store.graph := by
  unfold Declarations.declare at h
  obtain ⟨types, _, hr, hp⟩ := ok_of_bind h
  cases hp
  exact (Site.declared_of_declareAll _ (fun _ => Site.numbered_ofTree) hr).lists hs

/-- The unit of a file lists the types that the three passes over the file give. -/
theorem lists_scanTypes {recordAccesses : Bool} {source : SourceUnit} {header : Header}
    {path : String} {root : Tree} {declared : Declarations} {s t : ScanState}
    (hs : s.Sound source.unit)
    (h : scanTypes recordAccesses source header path root s = (.ok declared, t)) :
    Graph.Lists source.unit (declared.types.map (·.id)) s.store.graph t.store.graph := by
  unfold scanTypes at h
  obtain ⟨other, m, hd, h⟩ := ok_of_bind h
  have hdeclared := Declarations.lists_declare hs hd
  -- What follows reads the declared types and gives them back.
  have hread : ∀ {m'}, readTypes recordAccesses source other m' = (.ok declared, t) →
      other = declared ∧ Graph.Lists source.unit [] m'.store.graph t.store.graph := by
    intro m' hr
    have hk : Keeps (ScanState.OnGraph (Graph.Lists source.unit []))
        (readTypes recordAccesses source other) := inferInstance
    exact ⟨(eq_of_readTypes hr).symm, hk.of_run hr⟩
  rw [← List.append_nil (declared.types.map (·.id))]
  cases hm : other.mainType? path with
  | none =>
    rw [hm] at h
    obtain ⟨rfl, hkept⟩ := hread h
    exact hdeclared.trans hkept
  | some type =>
    rw [hm] at h
    have hk : Keeps (ScanState.OnGraph (Graph.Lists source.unit []))
        (ScanState.onGraph (Graph.setMainType source.unit type.id)) :=
      ScanState.Recording.mainType type.id
    obtain ⟨_, m', hr, h⟩ := ok_of_bind h
    have hchosen : Graph.Lists source.unit [] m.store.graph m'.store.graph := hk.of_run hr
    obtain ⟨rfl, hkept⟩ := hread h
    exact hdeclared.trans (hchosen.trans hkept)

/-! ### Known paths -/

/-- A known path has the identifier that leads to it. -/
theorem FileSet.idOf_of_path? {files : FileSet} {file : FileId} {path : String}
    (h : files.path? file = some path) : files.idOf path = (file, files) := by
  obtain ⟨hlt, hget⟩ := List.getElem?_eq_some_iff.1 h
  have hindex : files.paths.idxOf path = file.index := by
    rw [← hget, files.nodup.idxOf_getElem file.index hlt]
  have hknown : files.insert path = files := by
    unfold insert
    exact dif_pos (hget ▸ List.getElem_mem hlt)
  unfold idOf
  rw [hindex, hknown]

/-! ### Reports on units -/

/-- A report on a path that was scanned before in the scope of an artifact, as the project is now. -/
structure Project.Rescans (project : Project) (path : String) (artifact : Option ArtifactId)
    (report : UnitReport) : Prop where
  file : project.files.path? report.file = some path
  unit : ∃ node, project.store.graph.units.get? report.unit = some node ∧ node.path = path ∧
    node.artifact = artifact ∧ report = OpenProject.oldReport report.unit report.file path node

namespace Project.Rescans

variable {project after : Project} {path : String} {artifact : Option ArtifactId}
  {report : UnitReport}

/-- The report on a unit. -/
theorem of_unit {file : FileId} {unit : UnitId} {node : CompilationUnit}
    (hf : project.files.path? file = some path)
    (hn : project.store.graph.units.get? unit = some node) (hp : node.path = path)
    (ha : node.artifact = artifact) :
    project.Rescans path artifact (OpenProject.oldReport unit file path node) :=
  ⟨hf, node, hn, hp, ha, rfl⟩

/-- The report is on a path that was scanned before. -/
theorem rescanned (h : project.Rescans path artifact report) : report.rescanned = true := by
  obtain ⟨-, node, -, -, -, hr⟩ := h
  rw [hr]
  rfl

/-- Nothing is said of the file. -/
theorem diagnostics (h : project.Rescans path artifact report) : report.diagnostics = [] := by
  obtain ⟨-, node, -, -, -, hr⟩ := h
  rw [hr]
  rfl

/-- The report stays the same while the path is known and its unit lists nothing more. -/
theorem mono (h : project.Rescans path artifact report)
    (hf : ∀ {file path}, project.files.path? file = some path → after.files.path? file = some path)
    (hu : Graph.Lists report.unit [] project.store.graph after.store.graph) :
    after.Rescans path artifact report := by
  obtain ⟨hfile, node, hn, hp, ha, hr⟩ := h
  obtain ⟨node', hn', hlists⟩ := hu node hn
  refine ⟨hf hfile, node', hn', hlists.path.trans hp, hlists.artifact.trans ha, hr.trans ?_⟩
  unfold OpenProject.oldReport
  rw [hlists.mayNotCompile, hlists.declaredTypes, List.append_nil]

end Project.Rescans

namespace OpenProject

variable {opened : OpenProject} {path : String}

/-- Whatever is scanned, its path is known from then on, and else the known paths are as before. -/
theorem files_scanSource (config : ScanConfig) (hs : opened.Sound) (path text : String) :
    (scanSource config path text opened).2.files = (opened.seeing path).files := by
  change (scanOne config ⟨path, text⟩ opened).2.files = _
  cases hu : opened.store.graph.unitAt? path opened.scope.artifact? with
  | some unit =>
    obtain ⟨node, hn, -⟩ := Graph.get?_of_unitAt? hu
    rw [scanOne_existing config hu hn]
  | none => rw [scanOne_new config hs hu]

/-- A path that was scanned before is reported as it is in the project, and nothing changes. -/
theorem scanSource_of_rescans (config : ScanConfig) (text : String)
    (ht : opened.store.graph.Tidy) {report : UnitReport}
    (h : opened.Rescans path opened.scope.artifact? report) :
    scanSource config path text opened = (.ok report, opened) := by
  obtain ⟨hfile, node, hn, hp, ha, hr⟩ := h
  have hid := FileSet.idOf_of_path? hfile
  have hu : opened.store.graph.unitAt? path opened.scope.artifact? = some report.unit := by
    cases hu : opened.store.graph.unitAt? path opened.scope.artifact? with
    | none => exact absurd ha (Graph.ne_of_unitAt?_eq_none hu hn hp)
    | some other =>
      obtain ⟨node', hn', hp', ha'⟩ := Graph.get?_of_unitAt? hu
      rw [ht.path hn' hn (hp'.trans hp.symm) (ha'.trans ha.symm)]
  have hseeing : opened.seeing path = opened := by
    unfold seeing
    rw [hid]
  unfold scanSource
  rw [scanParsed_existing _ _ hu hn, hseeing, hid, ← hr]

/-- What the scan of a path reports is reported from then on, but for the diagnostics. Also if the
scan has failed there is a report from then on. -/
theorem rescans_scanSource (config : ScanConfig) (path text : String) (hs : opened.Sound)
    (ht : opened.Tidy) : ∃ report,
      (scanSource config path text opened).2.Rescans path opened.scope.artifact? report ∧
      ∀ first, (scanSource config path text opened).1 = .ok first →
        report = { first with rescanned := true, diagnostics := [] } := by
  let source : SourceText := ⟨path, text⟩
  change ∃ report, (scanOne config source opened).2.Rescans path opened.scope.artifact? report ∧
    ∀ first, (scanOne config source opened).1 = .ok first →
      report = { first with rescanned := true, diagnostics := [] }
  cases hu : opened.store.graph.unitAt? path opened.scope.artifact? with
  | some unit =>
    obtain ⟨node, hn, hp, ha⟩ := Graph.get?_of_unitAt? hu
    rw [scanOne_existing config hu hn]
    refine ⟨_, .of_unit (FileSet.path?_idOf ..) hn hp ha, fun first hf => ?_⟩
    cases hf
    rfl
  | none =>
    have hs' : (opened.seeing path).Sound := hs
    have hinitial := initial_sound (opened.fileOf source) path (parsed config source) hs'
    have hunit := unit_initial (opened.seeing path) (opened.fileOf source) path
      (parsed config source)
    rw [scanOne_new config hs hu]
    cases hr : passes config opened source with
    | mk result s =>
      cases result with
      | ok declared =>
        obtain ⟨node, hn, hlists⟩ := lists_scanTypes hinitial hr _ hunit
        have hagain : oldReport opened.store.graph.units.nextId (opened.fileOf source) path node =
            { newReport opened.store.graph.units.nextId (opened.fileOf source) path
                (parsed config source) declared s.diagnostics with
              rescanned := true
              diagnostics := [] } := by
          unfold oldReport
          rw [hlists.mayNotCompile, hlists.declaredTypes]
          rfl
        refine ⟨_, .of_unit (FileSet.path?_idOf ..) hn hlists.path hlists.artifact, ?_⟩
        intro first hf
        cases hf
        exact hagain
      | error e =>
        obtain ⟨hp, -, -⟩ := scanned_diagonal hs' ⟨ht.graph, ht.borrowed⟩ hr
        obtain ⟨node, hn, hpath, hartifact⟩ := hp.graphs.since.extended.unit hunit
        exact ⟨_, .of_unit (FileSet.path?_idOf ..) hn hpath hartifact, nofun⟩

end OpenProject

end JavaGraph

/-! ## Runs -/

namespace JavaGraph.Session

variable {session : Session} {path : String} {artifact : Option ArtifactId} {report : UnitReport}

/-- Whether a step goes on with the same scanner. -/
def Step.keepsScanner : Step → Bool
  | .scanner _ => false
  | _ => true

/-- Known paths keep their identifiers in a step of the same scanner. -/
private theorem path?_step (hs : session.Sound) {step : Step} (hk : step.keepsScanner = true)
    {file : FileId} {path : String} (hf : session.project.files.path? file = some path) :
    (step.run session).project.files.path? file = some path := by
  cases step with
  | addArtifact name dependencies => exact hf
  | answer answers => exact hf
  | scanner files => cases hk
  | enter artifact =>
    simp only [Step.run]
    split
    · unfold Session.enter
      split <;> exact hf
    · exact hf
  | scan config other text =>
    unfold Step.run inScope?
    cases hm : session.scopes with
    | nil => exact hf
    | cons scope rest =>
      change (OpenProject.scanSource config other text _).2.files.path? file = some path
      rw [OpenProject.files_scanSource config (hs.opened hm)]
      exact FileSet.path?_insert hf
  | scanText other text => exact FileSet.path?_insert hf
  | leave =>
    unfold Step.run leave?
    cases session.scopes <;> exact hf

/-- No step changes what a unit lists: the scan of another file releases the unit from what that
file declares, and changes nothing else of it. -/
private theorem lists_step (hs : session.Sound) (ht : session.Tidy) (step : Step) (unit : UnitId) :
    Graph.Lists unit [] session.project.store.graph (step.run session).project.store.graph := by
  rcases step_cases hs step with hr | ⟨scope, config, source, rfl, hnew⟩
  · exact .of_units hr.units
  · obtain ⟨hsound, htidy⟩ := hnew.opened hs ht
    have h := OpenProject.appended_scanSource hsound htidy config source.text hnew.path
    unfold Step.run inScope?
    simp only [hnew.scopes]
    exact fun x hx => ⟨_, h.unit hx, rfl, rfl, rfl, (List.append_nil _).symm⟩

/-- What is reported of a path is reported after every step of the same scanner. -/
theorem rescans_step (hs : session.Sound) (ht : session.Tidy) {step : Step}
    (hk : step.keepsScanner = true) (h : session.project.Rescans path artifact report) :
    (step.run session).project.Rescans path artifact report :=
  h.mono (path?_step hs hk) (lists_step hs ht step report.unit)

/-- What is reported of a path is reported at any later time. -/
private theorem rescans_foldl (steps : List Step) :
    ∀ session : Session, session.Sound → session.Tidy →
      (∀ step ∈ steps, step.keepsScanner = true) → session.project.Rescans path artifact report →
      (steps.foldl Step.run session).project.Rescans path artifact report := by
  induction steps with
  | nil => exact fun _ _ _ _ h => h
  | cons step rest ih =>
    intro session hs ht hk h
    exact ih _ (hs.step step) (ht.step hs step) (fun other ho => hk other (List.mem_cons_of_mem _ ho))
      (rescans_step hs ht (hk step (List.mem_cons_self ..)) h)

/-- A path that has a report in the open scope is reported so, and nothing changes. -/
private theorem rescan {scope : Scope} {rest : List Scope} {config : ScanConfig} {text : String}
    (ht : session.Tidy) (hm : session.scopes = scope :: rest)
    (h : session.project.Rescans path scope.artifact? report) :
    inScope? (OpenProject.scanSource config path text) session = some (.ok report, session) := by
  have hrun : OpenProject.scanSource config path text { session.project with scope } =
      (.ok report, { session.project with scope }) :=
    OpenProject.scanSource_of_rescans config text ht.graph h
  obtain ⟨project, scopes⟩ := session
  subst hm
  unfold inScope?
  simp only [hrun]

/-- In every run, a path that was scanned in the scope of an artifact, or in the global one, and is
scanned there once more at any later time, with whatever text, changes nothing. It is reported as
rescanned and without diagnostics, and but for that as it was the first time. There is such a report
also if the first scan has failed. -/
theorem rescan_run {before between : List Step} {scope later : Scope} {config config' : ScanConfig}
    {text text' : String} {first : Except GraphError UnitReport} {after : Session}
    (hs : (run before).scopes = [scope])
    (hr : inScope? (OpenProject.scanSource config path text) (run before) = some (first, after))
    (hk : ∀ step ∈ between, step.keepsScanner = true)
    (hl : (run (before ++ .scan config path text :: between)).scopes = [later])
    (ha : later.artifact? = scope.artifact?) :
    ∃ report, inScope? (OpenProject.scanSource config' path text')
        (run (before ++ .scan config path text :: between)) =
          some (.ok report, run (before ++ .scan config path text :: between)) ∧
      report.rescanned = true ∧ report.diagnostics = [] ∧
      ∀ earlier, first = .ok earlier →
        report = { earlier with rescanned := true, diagnostics := [] } := by
  have hsound := sound_run before
  have htidy := tidy_run before
  have hrun : run (before ++ .scan config path text :: between) =
      between.foldl Step.run (Step.run (run before) (.scan config path text)) := by
    simp [run, List.foldl_append]
  have htidy' := tidy_run (before ++ .scan config path text :: between)
  -- The first scan leaves a report behind, which the run keeps.
  obtain ⟨report, hreport, hagain⟩ := OpenProject.rescans_scanSource config path text
    (hsound.opened hs) (htidy.opened hs)
  have hscanned : (Step.run (run before) (.scan config path text)).project.Rescans path
      scope.artifact? report := by
    unfold Step.run inScope?
    simp only [hs]
    exact hreport
  have hrescans := rescans_foldl between _ (hsound.step _) (htidy.step hsound _) hk hscanned
  rw [← hrun, ← ha] at hrescans
  generalize run (before ++ .scan config path text :: between) = session at hl htidy' hrescans ⊢
  refine ⟨report, rescan htidy' hl hrescans, hrescans.rescanned, hrescans.diagnostics, ?_⟩
  intro earlier he
  unfold inScope? at hr
  simp only [hs, Option.some.injEq, Prod.mk.injEq] at hr
  exact hagain earlier (hr.1.trans he)

/-- A file with a syntax error and a duplicate is scanned again, with another text, after a file that
declares what it requires and after a scan of its path in the global scope. -/
theorem rescan_run_changed :
    let before : List Step := [.addArtifact "app" [], .enter (some ⟨0⟩)]
    let text := "class A \x7b class B \x7b \x7d class B \x7b \x7d C c; \x7d )"
    let between : List Step := [.scan {} "C.java" "class C \x7b A a; \x7d", .leave, .enter none,
      .scan {} "A.java" "class Z \x7b \x7d", .leave, .enter (some ⟨0⟩)]
    ∃ scope later report after, (run before).scopes = [scope] ∧
      inScope? (OpenProject.scanSource {} "A.java" text) (run before) = some (.ok report, after) ∧
      (∀ step ∈ between, step.keepsScanner = true) ∧
      (run (before ++ .scan {} "A.java" text :: between)).scopes = [later] ∧
      later.artifact? = scope.artifact? ∧
      report.mayNotCompile = true ∧ report.declaredTypes.length = 2 ∧
      report.diagnostics.length = 2 ∧
      inScope? (OpenProject.scanSource {} "A.java" "interface D \x7b \x7d")
          (run (before ++ .scan {} "A.java" text :: between)) =
        some (.ok { report with rescanned := true, diagnostics := [] },
          run (before ++ .scan {} "A.java" text :: between)) := by
  intro before text between
  have hscopes : (run before).scopes.map (·.artifact?) = [some ⟨0⟩] := by decide +kernel
  have hscopes' : (run (before ++ .scan {} "A.java" text :: between)).scopes.map (·.artifact?) =
      [some ⟨0⟩] := by decide +kernel
  obtain ⟨scope, hs, hartifact⟩ := List.map_eq_singleton_iff.1 hscopes
  obtain ⟨later, hl, hartifact'⟩ := List.map_eq_singleton_iff.1 hscopes'
  have hk : ∀ step ∈ between, step.keepsScanner = true := by decide
  have ha : later.artifact? = scope.artifact? := hartifact'.trans hartifact.symm
  have hreport : (inScope? (OpenProject.scanSource {} "A.java" text) (run before)).any
      (fun result => result.1.toOption.any fun report =>
        report.mayNotCompile = true ∧ report.declaredTypes.length = 2 ∧
          report.diagnostics.length = 2) = true := by
    decide +kernel
  obtain ⟨⟨result, after⟩, hr, hany⟩ := (Option.any_eq_true ..).1 hreport
  cases result with
  | error e => cases hany
  | ok report =>
    obtain ⟨hbroken, htypes, hsaid⟩ := of_decide_eq_true hany
    obtain ⟨again, hagain, -, -, he⟩ := rescan_run hs hr hk hl ha
    exact ⟨scope, later, report, after, hs, hr, hk, hl, ha, hbroken, htypes, hsaid,
      he report rfl ▸ hagain⟩

end JavaGraph.Session
