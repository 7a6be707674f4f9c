import JavaGraph.Proofs.Scan.Boundary
import JavaGraph.Proofs.Session.Settled
/-!
# Runs stay within dependencies

Whatever is scanned, and in whatever scopes, a type refers to types of its own universe, and, if
that is an artifact, to what is declared in the direct dependencies of the artifact. What a
dependency only requires, or what its own dependencies declare, is out of reach.
-/

namespace JavaGraph

open JavaGraph.Action

/-- What the new unit of a file declares refers to what is admitted in its universe, and the scope
goes on to borrow only from its dependencies. -/
theorem OpenProject.admits_passes {opened : OpenProject} (hs : opened.Sound) (ht : opened.Tidy)
    (hh : Scope.Honest opened.store.graph opened.scope) (config : ScanConfig)
    (source : SourceText) :
    Scope.Honest (passes config opened source).2.store.graph (passes config opened source).2.scope ∧
      ∀ {id x}, (passes config opened source).2.store.graph.types.get? id = some x →
        x.state = .complete opened.store.graph.units.nextId →
        (passes config opened source).2.store.graph.Within
          ((passes config opened source).2.store.graph.Admits x.home) x := by
  have hs' : (opened.seeing source.path).Sound := hs
  have ht' : (opened.seeing source.path).Tidy := ⟨ht.graph, ht.borrowed⟩
  have hkeeps : Keeps ScanState.StaysHonest (scanTypes config.recordAccesses
      ⟨opened.store.graph.units.nextId, opened.fileOf source⟩
      (Header.ofTree (opened.fileOf source) (parsed config source).root).1 source.path
      (parsed config source).root) := inferInstance
  have hafter : Scope.Honest (passes config opened source).2.store.graph
      (passes config opened source).2.scope := by
    exact (hkeeps.keeps _).scope (honest_initial _ hs'.consistent hh _ _ _)
  refine ⟨hafter, fun {id x} hx hsx => ?_⟩
  have hhome : x.home = opened.scope.artifact? := home_passes hs ht hx hsx
  cases hr : passes config opened source with
  | mk result s =>
    rw [hr] at hafter hx
    obtain ⟨declared, m, done, hreached, -⟩ := reached_scanTypes hs' ht' hr
    refine (hreached.within hx hsx).mono (.refl _) fun {target} hsettled => ?_
    obtain ⟨y, hy, hown | ⟨⟨own, hscope, hb⟩, -⟩⟩ := hsettled
    · exact .inl ⟨y, hy, hown.trans hhome.symm⟩
    · have ho := hafter.borrowed own _ _ hscope hb
      have hartifact : s.scope.artifact? = opened.scope.artifact? := hreached.scope
      rw [hscope] at hartifact
      exact .inr ⟨own.artifact, hhome.trans hartifact.symm, ho⟩

namespace Session

/-- References stay within dependencies, and so does what the open scopes borrow. -/
structure Bounded (session : Session) : Prop where
  graph : session.project.store.graph.Bounded
  scopes : ∀ scope ∈ session.scopes, Scope.Honest session.project.store.graph scope

variable {session : Session}

/-- Nothing is scanned if no scope is open. -/
private theorem run_scan_closed {config : ScanConfig} {path text : String}
    (h : session.scopes = []) : Step.run session (.scan config path text) = session := by
  unfold Step.run inScope?
  simp only [h]

/-- A file is scanned in the only scope that is open. -/
private theorem run_scan_open {config : ScanConfig} {path text : String} {scope : Scope}
    (h : session.scopes = [scope]) : Step.run session (.scan config path text) =
      let after := (OpenProject.scanOne config ⟨path, text⟩
        { session.project with scope := scope }).2
      { project := after.toProject, scopes := [after.scope] } := by
  unfold Step.run inScope? OpenProject.scanOne
  simp only [h]

/-- Artifacts keep their dependencies. -/
private theorem dependencies_step (hs : session.Sound) (ht : session.Tidy) (step : Step)
    {id : ArtifactId} {x : Artifact}
    (hx : session.project.store.graph.artifacts.get? id = some x) :
    ∃ y, (step.run session).project.store.graph.artifacts.get? id = some y ∧
      y.dependencies = x.dependencies := by
  cases step with
  | addArtifact name dependencies =>
    change ∃ y, (Graph.addArtifact name dependencies session.project.store.graph).2.artifacts.get?
      id = some y ∧ _
    rcases Graph.addArtifact_cases _ name dependencies with he | ⟨-, he⟩ <;> rw [he]
    · exact ⟨x, hx, rfl⟩
    · exact ⟨x, Graph.get?_push_of_get? _ hx, rfl⟩
  | answer answers => exact ⟨x, hx, rfl⟩
  | scanner files => exact ⟨x, hx, rfl⟩
  | enter artifact =>
    simp only [Step.run]
    split
    · unfold Session.enter
      split <;> exact ⟨x, hx, rfl⟩
    · exact ⟨x, hx, rfl⟩
  | scan config path text =>
    cases hm : session.scopes with
    | nil =>
      rw [run_scan_closed hm]
      exact ⟨x, hx, rfl⟩
    | cons scope rest =>
      obtain rfl : rest = [] := hs.rest_eq_nil hm
      rw [run_scan_open hm]
      cases hu : session.project.store.graph.unitAt? path scope.artifact? with
      | none =>
        have hnew : session.ScansNew scope ⟨path, text⟩ := ⟨hm, hu⟩
        obtain ⟨hsound, htidy⟩ := hnew.opened hs ht
        refine ⟨_, (OpenProject.appended_scanSource hsound htidy config text hu).artifact hx, ?_⟩
        split <;> rfl
      | some unit =>
        obtain ⟨node, hn, -⟩ := Graph.get?_of_unitAt? hu
        have hrun : OpenProject.scanOne config ⟨path, text⟩ { session.project with scope } = _ :=
          OpenProject.scanOne_existing config hu hn
        rw [hrun]
        exact ⟨x, hx, rfl⟩
  | scanText path text =>
    refine ⟨x, ?_, rfl⟩
    change (Project.scanText path text session.project).2.store.graph.artifacts.get? id = some x
    rw [(Project.sameLedger_scanText session.project path text).artifacts]
    exact hx
  | leave =>
    unfold Step.run leave?
    cases session.scopes with
    | nil => exact ⟨x, hx, rfl⟩
    | cons scope rest =>
      refine ⟨x, ?_, rfl⟩
      change (scope.leave session.project.store).2.graph.artifacts.get? id = some x
      have hp : Keeps (Store.OnGraph Graph.Persists) scope.leave := inferInstance
      rw [(hp.keeps session.project.store).artifacts]
      exact hx

/-- Every step widens the graph. -/
private theorem widens_step (hs : session.Sound) (ht : session.Tidy) (step : Step) :
    Graph.Widens session.project.store.graph (step.run session).project.store.graph where
  known hx := by
    obtain ⟨y, hy, -, hh⟩ := (preserves_step hs ht step).known hx
    exact ⟨y, hy, hh⟩
  declared hx hc := ⟨_, (preserves_step hs ht step).declared hx hc, hc, rfl⟩
  dependencies artifact := by
    unfold Graph.dependenciesOf
    cases artifact with
    | none => exact List.Subset.refl _
    | some artifact =>
      simp only
      cases hx : session.project.store.graph.artifacts.get? artifact with
      | none => exact List.nil_subset _
      | some x =>
        obtain ⟨y, hy, hd⟩ := dependencies_step hs ht step hx
        simp [hy, hd]

/-- What follows in a run widens the graph. -/
theorem widens_run (steps later : List Step) :
    Graph.Widens (run steps).project.store.graph (run (steps ++ later)).project.store.graph := by
  induction later using List.reverseRecOn with
  | nil =>
    rw [List.append_nil]
    exact .refl _
  | append_singleton later step ih =>
    have hstep := widens_step (sound_run (steps ++ later)) (tidy_run (steps ++ later)) step
    have hrun : run (steps ++ later ++ [step]) = step.run (run (steps ++ later)) := by
      simp [run, List.foldl_append]
    rw [← List.append_assoc, hrun]
    exact ih.trans hstep

/-- The scopes that are open after a step were open before, or are new. -/
private theorem honest_step (hs : session.Sound) (ht : session.Tidy) (h : session.Bounded)
    (step : Step) {scope : Scope} (hm : scope ∈ (step.run session).scopes) :
    Scope.Honest (step.run session).project.store.graph scope := by
  have hold : scope ∈ session.scopes →
      Scope.Honest (step.run session).project.store.graph scope :=
    fun hm => (h.scopes scope hm).mono (widens_step hs ht step)
  cases step with
  | addArtifact name dependencies => exact hold hm
  | answer answers => exact hold hm
  | scanner files => exact hold hm
  | scanText path text => exact hold hm
  | enter artifact =>
    simp only [Step.run] at hm hold ⊢
    split at hm
    · next he =>
      rw [List.isEmpty_iff] at he
      rw [if_pos (by rw [he]; rfl)] at hold ⊢
      unfold Sound at hs
      rw [he] at hs
      unfold Session.enter at hm hold ⊢
      cases hr : Scope.enter session.project.store.graph artifact with
      | error e =>
        simp only [hr] at hm hold ⊢
        exact hold hm
      | ok entered =>
        simp only [hr, he, List.mem_singleton] at hm
        simp only
        rw [hm]
        exact Scope.honest_enter hs.1 hs.2.1 hr
    · next he =>
      rw [if_neg he] at hold ⊢
      exact hold hm
  | scan config path text =>
    cases hscopes : session.scopes with
    | nil =>
      rw [run_scan_closed hscopes] at hm hold ⊢
      exact hold hm
    | cons current rest =>
      obtain rfl : rest = [] := hs.rest_eq_nil hscopes
      cases hu : session.project.store.graph.unitAt? path current.artifact? with
      | none =>
        have hnew : session.ScansNew current ⟨path, text⟩ := ⟨hscopes, hu⟩
        obtain ⟨hsound, htidy⟩ := hnew.opened hs ht
        have hrun := OpenProject.scanOne_new config hsound hnew.path
        have hh := (OpenProject.admits_passes hsound htidy
          (h.scopes current (hscopes ▸ List.mem_singleton_self _)) config ⟨path, text⟩).1
        rw [run_scan_open hscopes, hrun] at hm ⊢
        rw [List.mem_singleton.1 hm]
        exact hh
      | some unit =>
        obtain ⟨node, hn, -⟩ := Graph.get?_of_unitAt? hu
        have hrun : OpenProject.scanOne config ⟨path, text⟩
            { session.project with scope := current } = _ :=
          OpenProject.scanOne_existing config hu hn
        rw [run_scan_open hscopes, hrun] at hm hold ⊢
        exact hold (hscopes ▸ hm)
  | leave =>
    have hclosed : (Step.leave.run session).scopes = [] := by
      unfold Step.run leave?
      cases hscopes : session.scopes with
      | nil => exact hscopes
      | cons current rest => exact hs.rest_eq_nil hscopes
    rw [hclosed] at hm
    cases hm

/-- Every step keeps references within dependencies. -/
private theorem Bounded.step (hs : session.Sound) (ht : session.Tidy) (h : session.Bounded)
    (step : Step) : (step.run session).Bounded where
  scopes _ hm := honest_step hs ht h step hm
  graph := by
    intro id x hx
    have hwidens := widens_step hs ht step
    have hmembers := (preserves_step hs ht step).toKeepsMembers
    cases hc : x.isComplete with
    | false =>
      -- A placeholder refers to nothing.
      obtain ⟨holder, hblank⟩ := (ht.step hs step).graph.blank hx hc
      exact .of_unread (by rw [hblank]; rfl)
    | true =>
      have hold : session.project.store.graph.types.get? id = some x →
          (step.run session).project.store.graph.Within
            ((step.run session).project.store.graph.Admits x.home) x :=
        fun hx => (h.graph id x hx).mono hmembers fun ht => ht.mono hwidens
      rcases step_cases hs step with hr | ⟨scope, config, source, rfl, hnew⟩
      · obtain ⟨y, hy, rfl | ⟨-, rfl⟩⟩ := hr.type hx
        · exact hold hy
        · cases hc
      · obtain ⟨hsound, htidy⟩ := hnew.opened hs ht
        rw [hnew.graph hs ht config] at hx hold ⊢
        rcases OpenProject.complete_passes hsound htidy config source hx hc with hx | hsx
        · exact hold hx
        · exact (OpenProject.admits_passes hsound htidy
            (h.scopes scope (hnew.scopes ▸ List.mem_singleton_self _)) config source).2 hx hsx

/-- References stay within dependencies in every run. -/
theorem bounded_run (steps : List Step) : (run steps).Bounded := by
  induction steps using List.reverseRecOn with
  | nil =>
    refine ⟨fun id x hx => ?_, nofun⟩
    simp [run, Arena.get?] at hx
  | append_singleton steps step ih =>
    have hrun : run (steps ++ [step]) = step.run (run steps) := by simp [run, List.foldl_append]
    rw [hrun]
    exact ih.step (sound_run steps) (tidy_run steps) step

/-- After every run, what a global type refers to is global. What a type of an artifact refers to
belongs to the artifact, or is declared in one of its direct dependencies. -/
theorem refers_admitted_run (steps : List Step) {id target : TypeId} {x : TypeNode}
    (hx : (run steps).project.store.graph.types.get? id = some x)
    (hr : (run steps).project.store.graph.Refers x target) :
    ∃ y, (run steps).project.store.graph.types.get? target = some y ∧
      match x.home with
      | none => y.home = none
      | some artifact => y.home = some artifact ∨
          y.isComplete = true ∧ ∃ node owner,
            (run steps).project.store.graph.artifacts.get? artifact = some node ∧
              y.artifact = some owner ∧ owner ∈ node.dependencies := by
  rcases ((bounded_run steps).graph id x hx).of_refers hr with
    ⟨y, hy, hh⟩ | ⟨artifact, hh, y, owner, hy, hc, ha, hm⟩
  · refine ⟨y, hy, ?_⟩
    rw [hh]
    cases x.home with
    | none => rfl
    | some artifact => exact .inl rfl
  · refine ⟨y, hy, ?_⟩
    rw [hh]
    simp only [Graph.dependenciesOf] at hm
    cases hn : (run steps).project.store.graph.artifacts.get? artifact with
    | none =>
      rw [hn] at hm
      cases hm
    | some node =>
      rw [hn] at hm
      exact .inr ⟨hc, node, owner, hn, ha, hm⟩

/-- An artifact uses what its dependency declares, and the name of something that only a dependency
of the dependency declares. -/
def chainedArtifacts : List Step :=
  [.addArtifact "base" [], .addArtifact "lib" [⟨0⟩], .addArtifact "app" [⟨1⟩],
    .enter (some ⟨0⟩), .scan {} "Base.java" "class Base { }", .leave,
    .enter (some ⟨1⟩), .scan {} "Lib.java" "class Lib extends Base { }", .leave,
    .enter (some ⟨2⟩), .scan {} "App.java" "class App extends Lib { Base base; }", .leave]

/-- Its superclass is declared in the dependency. -/
theorem refers_admitted_chainedArtifacts :
    ∃ x, (run chainedArtifacts).project.store.graph.types.get? ⟨2⟩ = some x ∧
      x.home = some ⟨2⟩ ∧ (run chainedArtifacts).project.store.graph.Refers x ⟨1⟩ ∧
      ∃ y, (run chainedArtifacts).project.store.graph.types.get? ⟨1⟩ = some y ∧
        match x.home with
        | none => y.home = none
        | some artifact => y.home = some artifact ∨
            y.isComplete = true ∧ ∃ node owner,
              (run chainedArtifacts).project.store.graph.artifacts.get? artifact = some node ∧
                y.artifact = some owner ∧ owner ∈ node.dependencies := by
  have h : ((run chainedArtifacts).project.store.graph.types.get? ⟨2⟩).map
      (fun x => (x.home, x.superclass)) = some (some ⟨2⟩, some ⟨1⟩) := by decide +kernel
  obtain ⟨x, hx, he⟩ := Option.map_eq_some_iff.1 h
  simp only [Prod.mk.injEq] at he
  exact ⟨x, hx, he.1, .superclass he.2, refers_admitted_run chainedArtifacts hx (.superclass he.2)⟩

end Session

end JavaGraph
