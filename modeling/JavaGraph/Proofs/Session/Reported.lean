import JavaGraph.Proofs.Session.Settled
/-!
# Every scan gives a report

Whatever is written in a file, its scan gives a report. A fault of the file is said in the report
and never makes the scan fail, and neither does a store that does not answer what the dependencies
of an artifact declare.
-/

namespace JavaGraph

open JavaGraph.Action
open JavaGraph.Graph (MainsDeclared)

namespace OpenProject

/-- What a report on a file says of the project after the scan. -/
structure Reported (config : ScanConfig) (opened : OpenProject) (source : SourceText)
    (report : UnitReport) (after : OpenProject) : Prop where
  path : report.path = source.path
  file : after.files.path? report.file = some source.path
  /-- The unit of the file. -/
  unit : ∃ node, after.store.graph.units.get? report.unit = some node ∧
    node.path = source.path ∧ node.artifact = opened.scope.artifact?
  /-- What is listed as declared is known and declared by the unit. -/
  declared : ∀ id ∈ report.declaredTypes, ∃ type,
    after.store.graph.types.get? id = some type ∧ type.state = .complete report.unit
  /-- Main types, that of the new unit too, are types that their units declare. -/
  mains : after.store.graph.MainsDeclared
  rescanned : report.rescanned =
    (opened.store.graph.unitAt? source.path opened.scope.artifact?).isSome
  /-- A file that was scanned before is left as it was. -/
  kept : report.rescanned = true → after.store = opened.store ∧ report.diagnostics = []
  /-- Of a new file, syntax errors, malformed imports, and the declarations that are refused are
  said, in this order; all other declarations are declared. -/
  faults : report.rescanned = false → ∃ types found,
    report.declaredTypes = types.map (·.id) ∧
    Site.Accounted ⟨report.unit, report.file⟩
      (Header.ofTree report.file (parsed config source).root).1.package opened.scope.artifact?
      after.store.graph none (Site.ofTree (parsed config source).root) types found ∧
    (parsed config source).errors.map (.ofParseError report.file) ++
      (Header.ofTree report.file (parsed config source).root).2 ++ found <+: report.diagnostics

variable {opened : OpenProject} {source : SourceText}

/-- The main types of units stay declared types when a file is scanned. -/
theorem mains_passes (config : ScanConfig) (source : SourceText)
    (hm : opened.store.graph.MainsDeclared) :
    (passes config opened source).2.store.graph.MainsDeclared := by
  refine upheld_scanTypes (R := Graph.PassesMains) _ _ _ _ _ _ ?_
  intro unit node main hn hmain
  unfold initial at hn
  rw [get?_units_withSource] at hn
  split at hn
  · cases hn
    cases hmain
  · exact hm unit node main hn hmain

/-- Before a new file is read, all its declarations are declared or refused. What is said then is
said in the end, and what is declared stays so. -/
private theorem accounted_passes (config : ScanConfig) (hs : opened.Sound) {source : SourceText}
    {declared : Declarations} {s : ScanState}
    (hr : passes config opened source = (.ok declared, s)) :
    ∃ found, Site.Accounted ⟨opened.store.graph.units.nextId, opened.fileOf source⟩
        (Header.ofTree (opened.fileOf source) (parsed config source).root).1.package
        opened.scope.artifact? s.store.graph none (Site.ofTree (parsed config source).root)
        declared.types found ∧
      (parsed config source).errors.map (.ofParseError (opened.fileOf source)) ++
        (Header.ofTree (opened.fileOf source) (parsed config source).root).2 ++ found <+:
          s.diagnostics := by
  have hs' : (opened.seeing source.path).Sound := hs
  have hinitial := initial_sound (opened.fileOf source) source.path (parsed config source) hs'
  obtain ⟨other, m, m', hscan, hread⟩ := scanTypes_run
    ⟨opened.store.graph.units.nextId, opened.fileOf source⟩ hinitial
    config.recordAccesses (Header.ofTree (opened.fileOf source) (parsed config source).root).1
    source.path (parsed config source).root
  unfold passes at hr
  rw [hread] at hr
  obtain rfl := eq_of_readTypes hr
  obtain ⟨found, hfound, haccounted⟩ := hscan.reported
  have htells : Keeps ScanState.Tells (readTypes config.recordAccesses
    ⟨opened.store.graph.units.nextId, opened.fileOf source⟩ declared) := inferInstance
  have hpersists : Keeps (ScanState.OnGraph Graph.Persists) (readTypes config.recordAccesses
    ⟨opened.store.graph.units.nextId, opened.fileOf source⟩ declared) := inferInstance
  have htells := htells.of_run hr
  have hpersists := hpersists.of_run hr
  refine ⟨found, haccounted.mono hpersists, ?_⟩
  unfold ScanState.Tells at htells
  rw [hfound] at htells
  exact htells

/-- The report on a new file. -/
private theorem reported_new (config : ScanConfig) (hs : opened.Sound) (ht : opened.Tidy)
    (ha : opened.scope.artifact? = none → opened.store.answers = true)
    (hm : opened.store.graph.MainsDeclared)
    (hn : opened.store.graph.unitAt? source.path opened.scope.artifact? = none) :
    ∃ report after, scanOne config source opened = (.ok report, after) ∧
      opened.Reported config source report after := by
  have hs' : (opened.seeing source.path).Sound := hs
  have ht' : (opened.seeing source.path).Tidy := ⟨ht.graph, ht.borrowed⟩
  have hmains := mains_passes config source hm
  have hrun := scanOne_new config hs hn
  cases hr : passes config opened source with
  | mk result s =>
    rw [hr] at hmains hrun
    obtain ⟨hp, -, hgives⟩ := scanned_diagonal hs' ht' hr
    cases result with
    | error e =>
      have hyes : opened.store.answers = false := hgives.2
      rw [ha hgives.1] at hyes
      cases hyes
    | ok declared =>
      obtain ⟨found, haccounted, hfound⟩ := accounted_passes config hs hr
      obtain ⟨node, hnode, hpath, hartifact⟩ := hp.graphs.since.extended.unit
        (unit_initial (opened.seeing source.path) (opened.fileOf source) source.path
          (parsed config source))
      refine ⟨_, _, hrun, rfl, FileSet.path?_idOf .., ⟨node, hnode, hpath, hartifact⟩, ?_,
        hmains, ?_, nofun, fun _ => ⟨declared.types, found, rfl, haccounted, hfound⟩⟩
      · intro id hid
        obtain ⟨type, htype, rfl⟩ := List.mem_map.1 hid
        obtain ⟨x, hx, -, -, hc⟩ := haccounted.complete type htype
        exact ⟨x, hx, hc⟩
      · rw [hn]
        rfl

/-- The report on a file that is there already. -/
private theorem reported_existing (config : ScanConfig) (hs : opened.Sound)
    (hm : opened.store.graph.MainsDeclared) {unit : UnitId}
    (hu : opened.store.graph.unitAt? source.path opened.scope.artifact? = some unit) :
    ∃ report after, scanOne config source opened = (.ok report, after) ∧
      opened.Reported config source report after := by
  obtain ⟨node, hn, hpath, hartifact⟩ := Graph.get?_of_unitAt? hu
  refine ⟨_, _, scanOne_existing config hu hn, rfl, FileSet.path?_idOf ..,
    ⟨node, hn, hpath, hartifact⟩, fun id hid => ?_, hm, ?_, fun _ => ⟨rfl, rfl⟩, nofun⟩
  · obtain ⟨type, hx, hc, -⟩ := hs.consistent.declared_complete hn hid
    exact ⟨type, hx, hc⟩
  · rw [hu]
    rfl

/-- The scan of a file gives a report, unless the scope is the global one and the store does not
answer. -/
theorem reported_scanOne (config : ScanConfig) (hs : opened.Sound) (ht : opened.Tidy)
    (ha : opened.scope.artifact? = none → opened.store.answers = true)
    (hm : opened.store.graph.MainsDeclared) (source : SourceText) :
    ∃ report after, scanOne config source opened = (.ok report, after) ∧
      opened.Reported config source report after := by
  cases hu : opened.store.graph.unitAt? source.path opened.scope.artifact? with
  | none => exact reported_new config hs ht ha hm hu
  | some unit => exact reported_existing config hs hm hu

end OpenProject

namespace Session

/-- Every step passes on that main types are declared. -/
private theorem mains_step {session : Session} (hs : session.Sound) (ht : session.Tidy)
    (hm : session.project.store.graph.MainsDeclared) (step : Step) :
    (step.run session).project.store.graph.MainsDeclared := by
  rcases step_cases hs step with hr | ⟨scope, config, source, rfl, hnew⟩
  · exact hm.of_units hr.units
  · rw [hnew.graph hs ht config]
    exact OpenProject.mains_passes config source hm

/-- After every run, the main type of every unit is one of the types that the unit declares. -/
theorem mains_run (steps : List Step) : (run steps).project.store.graph.MainsDeclared := by
  induction steps using List.reverseRecOn with
  | nil =>
    intro unit node main hn
    simp [run, Arena.get?] at hn
  | append_singleton steps step ih =>
    have hrun : run (steps ++ [step]) = step.run (run steps) := by simp [run, List.foldl_append]
    rw [hrun]
    exact mains_step (sound_run steps) (tidy_run steps) ih step

/-- After every run, the scan of any text under any path gives a report. Whether the store answers
does not matter in the scope of an artifact; in the global scope it has to know global types. -/
theorem reported_scan (steps : List Step) {scope : Scope} (config : ScanConfig)
    (source : SourceText) (hs : (run steps).scopes = [scope])
    (ha : scope.artifact? = none → (run steps).project.store.answers = true) :
    ∃ report after,
      inScope? (OpenProject.scanSource config source.path source.text) (run steps) =
        some (.ok report, { project := after.toProject, scopes := [after.scope] }) ∧
      OpenProject.Reported config { (run steps).project with scope } source report after := by
  have hsound := sound_run steps
  have htidy := tidy_run steps
  unfold Sound at hsound
  rw [hs] at hsound
  have hopened : OpenProject.Sound { (run steps).project with scope } := hsound
  obtain ⟨report, after, hrun, hr⟩ := OpenProject.reported_scanOne config hopened
    ⟨htidy.graph, htidy.borrowed scope (by rw [hs]; exact List.mem_cons_self ..)⟩ ha
    (mains_run steps) source
  refine ⟨report, after, ?_, hr⟩
  unfold OpenProject.scanOne at hrun
  unfold inScope?
  simp only [hs, hrun]

/-- The store does not answer, and the file declares a name twice and uses one that nobody
declares. -/
theorem reported_scan_unanswered :
    let steps : List Step := [.addArtifact "lib" [], .addArtifact "app" [⟨0⟩], .answer false,
      .enter (some ⟨1⟩)]
    let source : SourceText := ⟨"A.java", "class A \x7b Missing m; \x7d class A \x7b \x7d"⟩
    ∃ scope, (run steps).scopes = [scope] ∧ (run steps).project.store.answers = false ∧
      (scope.artifact? = none → (run steps).project.store.answers = true) ∧
      ∃ report after,
        inScope? (OpenProject.scanSource {} source.path source.text) (run steps) =
          some (.ok report, { project := after.toProject, scopes := [after.scope] }) ∧
        OpenProject.Reported {} { (run steps).project with scope } source report after := by
  intro steps source
  have hscopes : (run steps).scopes.map (·.artifact?) = [some ⟨1⟩] := by decide +kernel
  obtain ⟨scope, hs, hartifact⟩ := List.map_eq_singleton_iff.1 hscopes
  have ha : scope.artifact? = none → (run steps).project.store.answers = true := by
    rw [hartifact]
    exact nofun
  exact ⟨scope, hs, by decide +kernel, ha, reported_scan steps {} source hs ha⟩

end Session

end JavaGraph
