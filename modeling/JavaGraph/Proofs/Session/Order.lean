import JavaGraph.Proofs.Scan.Order
import JavaGraph.Proofs.Session.Lifecycle
/-!
# The order in which files are scanned

The files of an artifact without dependencies can be scanned in any order: the graphs are the same
up to identifiers, and so are the reports, if no two files have the same path or declare the same
name.
-/

namespace JavaGraph

open List (Forall₂)
open JavaGraph.Action

/-! ### Files in a scope of their own -/

namespace Project

/-- Scan some files in the scope of an artifact. -/
def scanFiles (config : ScanConfig) (artifact : ArtifactId) (sources : List SourceText) :
    ProjectAction (List UnitReport) :=
  inScope (some artifact) (OpenProject.scanAll config sources)

/-- The names that a file of an artifact declares if it is scanned alone. -/
def namesAlone (config : ScanConfig) (artifact : ArtifactId) (project : Project)
    (source : SourceText) : List QualifiedName :=
  match inScope (some artifact) (OpenProject.scanOne config source) project with
  | (.ok report, after) => after.store.graph.namesDeclaredBy report.unit
  | (.error _, _) => []

variable {project : Project} {artifact : ArtifactId} {scope : Scope}

/-- What succeeds in a scope succeeds in a scope of its own, which only releases placeholders. -/
theorem inScope_ok {α : Type} {action : OpenAction α} {value : α} {opened : OpenProject}
    (he : Scope.enter project.store.graph (some artifact) = .ok scope)
    (hr : action { project with scope } = (.ok value, opened)) (hs : opened.Sound) :
    ∃ after, inScope (some artifact) action project = (.ok value, after) ∧
      after.files = opened.files ∧
      Graph.Released opened.store.graph after.store.graph := by
  obtain ⟨graph, hl, -⟩ := Scope.leave_sound opened.store.answers hs
  change opened.scope.leave opened.store = _ at hl
  have hreleased := Scope.released_leave opened.scope opened.store
  rw [hl] at hreleased
  refine ⟨{ opened.toProject with store := ⟨graph, opened.store.answers⟩ }, ?_, rfl, hreleased⟩
  unfold inScope
  rw [he]
  simp only [hr, hl]
  rfl

/-- The names of a file are those it declares in the open scope. -/
theorem namesAlone_eq (config : ScanConfig) (source : SourceText)
    (he : Scope.enter project.store.graph (some artifact) = .ok scope)
    (hi : OpenProject.Independent { project with scope }) :
    namesAlone config artifact project source =
      OpenProject.declaredNames config { project with scope } source := by
  obtain ⟨report, next, hrun, hn, -⟩ := (OpenProject.Scanned.nil config hi).scan hi source
    (fun _ hm => by cases hm) fun _ hm => by cases hm
  obtain ⟨after, hafter, -, hr⟩ := inScope_ok he hrun hn.independent.sound
  unfold namesAlone OpenProject.declaredNames
  rw [hafter, hrun]
  simp only
  unfold Graph.namesDeclaredBy
  rw [hr.units]
  have hname : ∀ id, (after.store.graph.types.get? id).map (·.name) =
      (next.store.graph.types.get? id).map (·.name) := by
    intro id
    rcases hr.types id with hid | ⟨x, hx, -, hy⟩
    · rw [hid]
    · rw [hx, hy]
      rfl
  simp only [hname]

end Project

/-! ### Runs -/

namespace Session

open OpenProject (scanAll)

/-- The scope of a known artifact is entered if none is open. It has borrowed nothing. -/
theorem enter_artifact {session : Session} (hs : session.Sound) (ht : session.Tidy)
    (hn : session.scopes = []) {artifact : ArtifactId} {node : Artifact}
    (ha : session.project.store.graph.artifacts.get? artifact = some node) :
    ∃ known, Scope.enter session.project.store.graph (some artifact) =
        .ok (.ofArtifact { artifact, dependencies := node.dependencies, known }) ∧
      OpenProject.Sound { session.project with
        scope := .ofArtifact { artifact, dependencies := node.dependencies, known } } ∧
      OpenProject.Tidy { session.project with
        scope := .ofArtifact { artifact, dependencies := node.dependencies, known } } := by
  unfold Sound at hs
  rw [hn] at hs
  obtain ⟨hc, hv, hu⟩ := hs
  obtain ⟨known, hrun, -⟩ := ArtifactScope.enter_ok hc hv ha
  have he : Scope.enter session.project.store.graph (some artifact) =
      .ok (.ofArtifact { artifact, dependencies := node.dependencies, known }) := by
    unfold Scope.enter
    simp only [hrun]
    rfl
  exact ⟨known, he, (Scope.enter_sound hc hv hu he).1, ht.graph,
    Scope.borrowed_enter hc hv hu he⟩

/-- The scope of a known artifact without dependencies is independent. -/
theorem enter_independent {session : Session} (hs : session.Sound) (ht : session.Tidy)
    (hn : session.scopes = []) {artifact : ArtifactId} {node : Artifact}
    (ha : session.project.store.graph.artifacts.get? artifact = some node)
    (hd : node.dependencies = []) :
    ∃ scope, Scope.enter session.project.store.graph (some artifact) = .ok scope ∧
      OpenProject.Independent { session.project with scope } := by
  obtain ⟨known, he, hsound, htidy⟩ := enter_artifact hs ht hn ha
  exact ⟨_, he, hsound, htidy, _, rfl, hd, fun _ => rfl⟩

/-- The reports on files have their paths. -/
private theorem paths_eq {config : ScanConfig} {first next : OpenProject} (hs : first.Sound)
    {sources : List SourceText} {reports : List UnitReport}
    (h : Forall₂ (first.Reports config · next ·) sources reports) :
    reports.map (·.path) = sources.map (·.path) :=
  map_eq_of_forall₂ h.flip fun hr => OpenProject.Reports.path_eq hs hr

/-- The reports on a file in two orders are the same up to identifiers. -/
private theorem reports_alike {config : ScanConfig} {first next next' : OpenProject}
    {source : SourceText} {report report' : UnitReport}
    (h : first.Reports config source next report) (h' : first.Reports config source next' report') :
    UnitReport.Alike (FileSet.SameFile next.files next'.files)
      (Graph.SameUnit next.store.graph next'.store.graph)
      (Graph.SameType next.store.graph next'.store.graph) report report' := by
  obtain ⟨other, hr, halike⟩ := h
  obtain ⟨other', hr', halike'⟩ := h'
  rw [hr] at hr'
  cases hr'
  refine halike.both ?_ (fun _ _ _ hu hu' => hu.both hu') (fun _ _ _ ht ht' => ht.both ht') halike'
  rintro c a b ⟨path, hc, ha⟩ ⟨path', hc', hb⟩
  rw [hc] at hc'
  cases hc'
  exact ⟨path, ha, hb⟩

/-- After every run, some files of an artifact without dependencies can be scanned in any order. If
their paths differ, and so do the names that they declare when each is scanned alone, the graphs
and the reports are the same up to identifiers. -/
theorem corresponds_of_perm (steps : List Step) {artifact : ArtifactId} {node : Artifact}
    (config : ScanConfig) {sources order : List SourceText} (hs : (run steps).scopes = [])
    (ha : (run steps).project.store.graph.artifacts.get? artifact = some node)
    (hd : node.dependencies = []) (hp : (sources.map (·.path)).Nodup)
    (hn : sources.Pairwise fun a b =>
      (Project.namesAlone config artifact (run steps).project a).Disjoint
        (Project.namesAlone config artifact (run steps).project b))
    (ho : sources.Perm order) :
    ∃ reports reports' after after',
      Project.scanFiles config artifact sources (run steps).project = (.ok reports, after) ∧
      Project.scanFiles config artifact order (run steps).project = (.ok reports', after') ∧
      Graph.Corresponds after.store.graph after'.store.graph ∧
      reports.map (·.path) = sources.map (·.path) ∧
      reports'.map (·.path) = order.map (·.path) ∧
      ∀ report ∈ reports, ∀ report' ∈ reports', report.path = report'.path →
        UnitReport.Alike (FileSet.SameFile after.files after'.files)
          (Graph.SameUnit after.store.graph after'.store.graph)
          (Graph.SameType after.store.graph after'.store.graph) report report' := by
  obtain ⟨scope, he, hi⟩ := enter_independent (sound_run steps) (tidy_run steps) hs ha hd
  have hapart : OpenProject.Apart config { (run steps).project with scope } sources := by
    refine ⟨List.pairwise_map.1 hp, hn.imp fun {a b} hab => ?_⟩
    rwa [Project.namesAlone_eq config a he hi, Project.namesAlone_eq config b he hi] at hab
  have hnil := OpenProject.Scanned.nil config hi
  obtain ⟨reports, next, hrun, hnext, hreports, -⟩ := hnil.scanAll hi sources hapart
  obtain ⟨reports', next', hrun', hnext', hreports', -⟩ :=
    hnil.scanAll hi order (hapart.perm ho)
  obtain ⟨after, hafter, hfiles, hreleased⟩ :=
    Project.inScope_ok he hrun hnext.independent.sound
  obtain ⟨after', hafter', hfiles', hreleased'⟩ :=
    Project.inScope_ok he hrun' hnext'.independent.sound
  have hcorresponds := hnext.corresponds hi hnext' ho.mem_iff
  refine ⟨reports, reports', after, after', hafter, hafter',
    hcorresponds.released hreleased hreleased', paths_eq hi.sound hreports,
    paths_eq hi.sound hreports', ?_⟩
  intro report hm report' hm' hpath
  obtain ⟨source, hsource, hr⟩ := mem_of_forall₂ hreports.flip hm
  obtain ⟨source', hsource', hr'⟩ := mem_of_forall₂ hreports'.flip hm'
  have hpaths : source.path = source'.path := by
    rw [← OpenProject.Reports.path_eq hi.sound hr, ← OpenProject.Reports.path_eq hi.sound hr', hpath]
  obtain rfl := List.inj_on_of_nodup_map hp hsource (ho.mem_iff.2 hsource') hpaths
  rw [hfiles, hfiles']
  exact (reports_alike hr hr').imp id (fun hu => hu.mono hreleased.extended hreleased'.extended)
    fun ht => ht.mono hreleased.extended hreleased'.extended

/-- A file that uses a class can be scanned before or after the one that declares it. -/
theorem corresponds_of_swap :
    ∃ reports reports' after after',
      Project.scanFiles {} ⟨0⟩ [⟨"A.java", "class A \x7b B b; \x7d"⟩, ⟨"B.java", "class B \x7b \x7d"⟩]
        (run [.addArtifact "app" []]).project = (.ok reports, after) ∧
      Project.scanFiles {} ⟨0⟩ [⟨"B.java", "class B \x7b \x7d"⟩, ⟨"A.java", "class A \x7b B b; \x7d"⟩]
        (run [.addArtifact "app" []]).project = (.ok reports', after') ∧
      Graph.Corresponds after.store.graph after'.store.graph := by
  have hnames : ∀ name ∈ Project.namesAlone {} ⟨0⟩ (run [.addArtifact "app" []]).project
      ⟨"A.java", "class A \x7b B b; \x7d"⟩,
      name ∉ Project.namesAlone {} ⟨0⟩ (run [.addArtifact "app" []]).project
        ⟨"B.java", "class B \x7b \x7d"⟩ := by decide +kernel
  obtain ⟨reports, reports', after, after', hrun, hrun', hc, -⟩ :=
    corresponds_of_perm [.addArtifact "app" []] {} rfl rfl rfl (by decide)
      (List.pairwise_pair.2 fun name ha hb => hnames name ha hb) (.swap ..)
  exact ⟨reports, reports', after, after', hrun, hrun', hc⟩

end Session

end JavaGraph
