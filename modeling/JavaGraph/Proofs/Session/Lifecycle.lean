import JavaGraph.Proofs.Graph.Released
import JavaGraph.Proofs.Scan.Tidy
import JavaGraph.Proofs.Scope.Passage
import JavaGraph.Session
/-!
# The life of a type over a run

A run begins with an empty store. It makes artifacts, enters scopes one at a time, scans files in
them, and leaves them. After every step the states of the types agree with what the units declare
and require, and while no scope is open nothing is held for a unit.
-/

namespace JavaGraph

open JavaGraph.Action

/-! ### Steps without a scope -/

namespace Graph

variable {graph : Graph}

/-- The check of dependencies changes nothing. All of them are known, or one that is not is the
error. -/
private theorem checked_run (graph : Graph) (dependencies : List ArtifactId) :
    let check : GraphAction Unit := forEach dependencies fun dependency => do
      discard <| .check fun graph : Graph => graph.artifacts.get dependency
    (∃ dependency ∈ dependencies, graph.artifacts.get? dependency = none ∧
      check graph = (.error (.unknownId .artifact dependency.index), graph)) ∨
    (∀ dependency ∈ dependencies, ∃ node, graph.artifacts.get? dependency = some node) ∧
      check graph = (.ok (), graph) := by
  induction dependencies with
  | nil => exact .inr ⟨nofun, rfl⟩
  | cons dependency rest ih =>
    have hc : (discard (.check fun graph : Graph => graph.artifacts.get dependency) :
        GraphAction Unit) graph = ((graph.artifacts.get dependency).map fun _ => (), graph) := by
      unfold discard
      cases hg : graph.artifacts.get dependency with
      | ok node => exact (bind_of_ok (congrArg (·, graph) hg)).trans rfl
      | error e => exact (bind_of_error (congrArg (·, graph) hg)).trans rfl
    unfold forEach
    cases hx : graph.artifacts.get? dependency with
    | none =>
      exact .inl ⟨dependency, List.mem_cons_self .., hx,
        bind_of_error (hc.trans (by rw [Arena.get, hx]; rfl))⟩
    | some node =>
      have hrun : forEach (dependency :: rest) (fun dependency => do
          discard <| .check fun graph : Graph => graph.artifacts.get dependency : _ → GraphAction Unit)
            graph = forEach rest _ graph :=
        bind_of_ok (hc.trans (by rw [Arena.get, hx]; rfl))
      rcases ih with ⟨other, hm, ho, he⟩ | ⟨hk, he⟩
      · exact .inl ⟨other, List.mem_cons_of_mem _ hm, ho, hrun.trans he⟩
      · exact .inr ⟨List.forall_mem_cons.2 ⟨⟨node, hx⟩, hk⟩, hrun.trans he⟩

/-- A new artifact comes in, unless it is to depend on an unknown one; then nothing changes. -/
theorem addArtifact_run (graph : Graph) (name : String) (dependencies : List ArtifactId) :
    (∃ dependency ∈ dependencies, graph.artifacts.get? dependency = none ∧
      addArtifact name dependencies graph =
        (.error (.unknownId .artifact dependency.index), graph)) ∨
    (∀ dependency ∈ dependencies, ∃ node, graph.artifacts.get? dependency = some node) ∧
      addArtifact name dependencies graph = (.ok graph.artifacts.nextId,
        { graph with artifacts := graph.artifacts.push { name, dependencies } }) := by
  unfold addArtifact
  rcases checked_run graph dependencies with ⟨dependency, hm, hx, hrun⟩ | ⟨hk, hrun⟩
  · exact .inl ⟨dependency, hm, hx, bind_of_error hrun⟩
  · exact .inr ⟨hk, bind_of_ok hrun⟩

/-- A new artifact, which depends on known ones, is the only change, if there is one. -/
theorem addArtifact_cases (graph : Graph) (name : String) (dependencies : List ArtifactId) :
    (addArtifact name dependencies graph).2 = graph ∨
      (∀ dependency ∈ dependencies, ∃ node, graph.artifacts.get? dependency = some node) ∧
        (addArtifact name dependencies graph).2 =
          { graph with artifacts := graph.artifacts.push { name, dependencies } } := by
  rcases addArtifact_run graph name dependencies with ⟨_, _, _, hrun⟩ | ⟨hk, hrun⟩
  · exact .inl (by rw [hrun])
  · exact .inr ⟨hk, by rw [hrun]⟩

instance (path : String) : Keeps SameLedger (addTextFile path) := by
  have := keeps_change (fun graph => { graph with textFiles := graph.textFiles.push { path } })
    fun _ => SameLedger.of_eq rfl rfl rfl rfl
  unfold addTextFile
  infer_instance

instance (id : TextFileId) (f : TextFile → TextFile) : Keeps SameLedger (updateTextFile id f) := by
  constructor
  intro graph
  cases h : graph.textFiles.update id f with
  | error e =>
    simp only [updateTextFile, tryChange, h, bind, Except.bind]
    exact Guarantee.refl graph
  | ok textFiles =>
    simp only [updateTextFile, tryChange, h, bind, Except.bind, pure, Except.pure]
    exact SameLedger.of_eq rfl rfl rfl rfl

instance (id : LineId) (f : Line → Line) : Keeps SameLedger (updateLine id f) := by
  constructor
  intro graph
  cases h : graph.lines.update id f with
  | error e =>
    simp only [updateLine, tryChange, h, bind, Except.bind]
    exact Guarantee.refl graph
  | ok lines =>
    simp only [updateLine, tryChange, h, bind, Except.bind, pure, Except.pure]
    exact SameLedger.of_eq rfl rfl rfl rfl

instance (file : TextFileId) (text : String) : Keeps SameLedger (addLine file text) := by
  have := fun line => keeps_change (fun graph => { graph with lines := graph.lines.push line })
    fun _ => SameLedger.of_eq rfl rfl rfl rfl
  unfold addLine
  refine Keeps.bind inferInstance fun _ => Keeps.bind inferInstance ?_
  intro node
  refine Keeps.bind inferInstance fun _ => Keeps.bind inferInstance ?_
  intro _
  dsimp only
  split <;> infer_instance

end Graph

/-- Plain text is recorded without a change to types and units. -/
theorem Project.sameLedger_scanText (project : Project) (path text : String) :
    Graph.SameLedger project.store.graph (scanText path text project).2.store.graph := by
  have hk : Keeps Graph.SameLedger (do
      let file ← Graph.addTextFile path
      forEach (Text.lines text) fun line => discard (Graph.addLine file line)
      return file) := inferInstance
  exact hk.keeps project.store.graph

/-! ### Runs -/

namespace Session

/-- What can be done with a session in which at most one scope is open at a time. -/
inductive Step where
  | addArtifact (name : String) (dependencies : List ArtifactId)
  /-- From now on the store answers queries, or it does not. -/
  | answer (answers : Bool)
  /-- Go on with a scanner that knows other paths. -/
  | scanner (files : FileSet)
  /-- Enter a scope, if none is open. -/
  | enter (artifact : Option ArtifactId)
  /-- Scan a source file in the open scope, if there is one. -/
  | scan (config : ScanConfig) (path text : String)
  | scanText (path text : String)
  /-- Leave the open scope, if there is one. -/
  | leave

/-- The session after a step, whether it succeeds or fails. -/
def Step.run (session : Session) : Step → Session
  | .addArtifact name dependencies =>
    (Session.onGraph (Graph.addArtifact name dependencies) session).2
  | .answer answers =>
    { session with project.store.answers := answers }
  | .scanner files => { session with project.files := files }
  | .enter artifact =>
    if session.scopes.isEmpty then (Session.enter artifact session).2 else session
  | .scan config path text =>
    match session.inScope? (OpenProject.scanSource config path text) with
    | some (_, after) => after
    | none => session
  | .scanText path text => (Session.onProject (Project.scanText path text) session).2
  | .leave =>
    match session.leave? with
    | some (_, after) => after
    | none => session

/-- The session after some steps, beginning with an empty store. -/
def run (steps : List Step) : Session := steps.foldl Step.run {}

/-- At most one scope is open. The graph is sound for it, or nothing is held if none is open. -/
def Sound (session : Session) : Prop :=
  let graph := session.project.store.graph
  match session.scopes with
  | [] => graph.Consistent ∧ graph.Covered ∧ graph.Unheld
  | [scope] => Scope.Sound graph scope
  | _ => False

/-- What is sound stays so if the graph changes in a way that keeps every open scope sound. -/
private theorem Sound.of_graph {before after : Session} (h : before.Sound)
    (hs : after.scopes = before.scopes)
    (hc : before.project.store.graph.Consistent → after.project.store.graph.Consistent)
    (hv : before.project.store.graph.Covered → after.project.store.graph.Covered)
    (hu : before.project.store.graph.Unheld → after.project.store.graph.Unheld)
    (hf : ∀ scope : ArtifactScope, scope.Fits before.project.store.graph →
      scope.Fits after.project.store.graph) : after.Sound := by
  unfold Sound at h ⊢
  rw [hs]
  match hm : before.scopes with
  | [] =>
    rw [hm] at h
    exact ⟨hc h.1, hv h.2.1, hu h.2.2⟩
  | [.ofArtifact scope] =>
    rw [hm] at h
    exact ⟨hc h.consistent, hv h.covered, hf scope h.fits⟩
  | [.global] =>
    rw [hm] at h
    exact ⟨hc h.consistent, hv h.covered, hu h.fits⟩
  | _ :: _ :: _ =>
    rw [hm] at h
    exact h.elim

private theorem sound_of_sameLedger {before after : Session} (h : before.Sound)
    (hs : after.scopes = before.scopes)
    (hl : Graph.SameLedger before.project.store.graph after.project.store.graph) : after.Sound :=
  h.of_graph hs (·.of_sameLedger hl) (fun hv id => Graph.CoveredAt.of_sameLedger (hv id) hl)
    (·.of_sameLedger hl) fun _ hf => hf.of_sameLedger hl

private theorem sound_addArtifact {session : Session} (h : session.Sound) (name : String)
    (dependencies : List ArtifactId) : (Step.run session (.addArtifact name dependencies)).Sound := by
  have hg : (Step.run session (.addArtifact name dependencies)).project.store.graph =
      (Graph.addArtifact name dependencies session.project.store.graph).2 := rfl
  rcases Graph.addArtifact_cases _ name dependencies with he | ⟨-, he⟩
  · rw [he] at hg
    exact sound_of_sameLedger h rfl (hg ▸ Action.Guarantee.refl _)
  · rw [he] at hg
    refine h.of_graph rfl ?_ ?_ ?_ ?_ <;> rw [hg]
    · exact fun hc => hc.withArtifact
    · exact fun hv => hv
    · exact fun hu => hu
    · intro scope hf
      obtain ⟨node, hn⟩ := hf.artifact_known
      exact ⟨⟨node, Graph.get?_push_of_get? _ hn⟩, hf.known_iff, hf.created_of_held,
        hf.created_known⟩

private theorem sound_enter {session : Session} (h : session.Sound)
    (artifact : Option ArtifactId) : (Step.run session (.enter artifact)).Sound := by
  simp only [Step.run]
  split
  · next hs =>
    rw [List.isEmpty_iff] at hs
    unfold Sound at h
    rw [hs] at h
    unfold Session.enter
    cases he : Scope.enter session.project.store.graph artifact with
    | error e =>
      simp only
      unfold Sound
      rw [hs]
      exact h
    | ok scope =>
      simp only
      unfold Sound
      rw [hs]
      exact (Scope.enter_sound h.1 h.2.1 h.2.2 he).1
  · exact h

private theorem sound_scan {session : Session} (h : session.Sound) (config : ScanConfig)
    (path text : String) : (Step.run session (.scan config path text)).Sound := by
  unfold Step.run inScope?
  match hm : session.scopes with
  | [] => exact h
  | [scope] =>
    unfold Sound at h
    rw [hm] at h
    exact OpenProject.scanSource_sound { session.project with scope } config path text h
  | _ :: _ :: _ =>
    unfold Sound at h
    rw [hm] at h
    exact h.elim

private theorem sound_leave {session : Session} (h : session.Sound) :
    (Step.run session .leave).Sound := by
  unfold Step.run leave?
  match hm : session.scopes with
  | [] => exact h
  | [scope] =>
    unfold Sound at h
    rw [hm] at h
    obtain ⟨after, hrun, hs⟩ := Scope.leave_sound session.project.store.answers h
    change scope.leave session.project.store = _ at hrun
    simp only [hrun]
    exact hs
  | _ :: _ :: _ =>
    unfold Sound at h
    rw [hm] at h
    exact h.elim

/-- Every step keeps a session sound. -/
theorem Sound.step {session : Session} (h : session.Sound) (step : Step) :
    (step.run session).Sound := by
  cases step with
  | addArtifact name dependencies => exact sound_addArtifact h name dependencies
  | answer answers => exact sound_of_sameLedger h rfl (Action.Guarantee.refl _)
  | scanner files => exact sound_of_sameLedger h rfl (Action.Guarantee.refl _)
  | enter artifact => exact sound_enter h artifact
  | scan config path text => exact sound_scan h config path text
  | scanText path text =>
    exact sound_of_sameLedger h rfl (Project.sameLedger_scanText session.project path text)
  | leave => exact sound_leave h

private theorem sound_empty : Sound {} := by
  refine ⟨⟨?_, ?_, ?_, ?_, ?_, ?_, ?_, ?_, ?_, ?_, ?_⟩, ?_, ?_⟩ <;>
    simp [Graph.Covered, Graph.CoveredAt, Graph.Unheld, Arena.get?]

private theorem sound_foldl (steps : List Step) :
    ∀ session : Session, session.Sound → (steps.foldl Step.run session).Sound := by
  induction steps with
  | nil => exact fun _ h => h
  | cons step rest ih => exact fun session h => ih _ (h.step step)

/-- A run leaves a sound session. -/
theorem sound_run (steps : List Step) : (run steps).Sound := sound_foldl steps {} sound_empty

/-- After every run the states of the types agree with what the units declare and require. If no
scope is open, nothing is held for a unit, and every known artifact can be entered: its scope
begins with exactly the types of its universe. -/
theorem lifecycle_run (steps : List Step) :
    let session := run steps
    let graph := session.project.store.graph
    graph.Lifecycle ∧
      (session.scopes = [] → graph.Unheld ∧
        ∀ artifact node, graph.artifacts.get? artifact = some node →
          ∃ scope, ArtifactScope.enter graph artifact = .ok scope ∧
            ∀ name id, scope.known.find? name = some id ↔
              ∃ type, graph.types.get? id = some type ∧ type.name = name ∧
                type.home = some artifact) := by
  intro session graph
  have h := sound_run steps
  change Sound session at h
  unfold Sound at h
  match hm : session.scopes with
  | [] =>
    rw [hm] at h
    obtain ⟨hc, hv, hu⟩ := h
    refine ⟨hc.lifecycle hv, fun _ => ⟨hu, ?_⟩⟩
    intro artifact node hn
    obtain ⟨known, hrun, hknown⟩ := ArtifactScope.enter_ok hc hv hn
    exact ⟨_, hrun, fun name id => hknown⟩
  | [scope] =>
    rw [hm] at h
    exact ⟨h.consistent.lifecycle h.covered, fun he => by cases he⟩
  | _ :: _ :: _ =>
    rw [hm] at h
    exact h.elim

end Session

end JavaGraph

/-!
## Runs leave tidy graphs

Whatever a run does, everything in its graph refers to nodes that there are.
-/

namespace JavaGraph

open JavaGraph.Action

/-- A tidy graph stays tidy when placeholders are released. -/
theorem Graph.Tidy.released {graph after : Graph} (h : graph.Tidy) (hr : Released graph after) :
    after.Tidy where
  blank := by
    intro id y hy hc
    obtain ⟨x, hx, rfl | ⟨hcx, rfl⟩⟩ := hr.type hy
    · exact h.blank hx hc
    · obtain ⟨holder, he⟩ := h.blank hx hcx
      exact ⟨none, by rw [he]; rfl⟩
  type := by
    intro id y hy hc
    obtain ⟨x, hx, rfl | ⟨-, rfl⟩⟩ := hr.type hy
    · exact (h.type hx hc).mono hr.extended hr.extended
    · cases hc
  unit := by
    intro k x hx
    rw [hr.units] at hx
    exact (h.unit hx).imp fun hab => hab.mono hr.extended hr.extended
  access := by
    intro access hm
    rw [hr.accesses] at hm
    have hk : ∀ {id : TypeId} {x}, graph.types.get? id = some x → x.isComplete = true →
        after.types.get? id = some x := by
      intro id x hx hc
      rcases hr.types id with he | ⟨y, hy, hcy, -⟩
      · rw [he, hx]
      · rw [hx] at hy
        cases hy
        rw [hc] at hcy
        cases hcy
    obtain ⟨⟨owner, x, hx, hc, hf⟩, owner', x', hx', hc', hf'⟩ := h.access hm
    exact ⟨⟨owner, x, hk hx hc, hc, hf⟩, owner', x', hk hx' hc', hc', hf'⟩
  path := by
    intro a b x y hx hy hpath hartifact
    rw [hr.units] at hx hy
    exact h.path hx hy hpath hartifact

/-- A scope that is entered has borrowed nothing. -/
theorem Scope.borrowed_enter {graph : Graph} {artifact : Option ArtifactId} {scope : Scope}
    (hc : graph.Consistent) (hv : graph.Covered) (hu : graph.Unheld)
    (h : Scope.enter graph artifact = .ok scope) : Twins.BorrowedKnown graph scope := by
  obtain ⟨hsound, ha⟩ := Scope.enter_sound hc hv hu h
  intro own name id hs hb
  cases artifact with
  | none =>
    rw [hs] at ha
    cases ha
  | some artifact =>
    obtain ⟨node, hn⟩ := hsound.artifact_known ha
    subst hs
    obtain ⟨known, hrun, -⟩ := ArtifactScope.enter_ok hc hv hn
    unfold Scope.enter at h
    simp only [hrun] at h
    cases h
    cases hb

/-- Leaving a scope releases its placeholders. -/
theorem Scope.released_leave (scope : Scope) (store : Store) :
    Graph.Released store.graph (scope.leave store).2.graph := by
  cases scope with
  | ofArtifact scope =>
    have hk : Keeps Graph.Released (forEach scope.created fun id =>
      Graph.updateType id (·.setRequiredBy none)) := inferInstance
    exact hk.keeps store.graph
  | global => exact Guarantee.refl _

namespace Session

/-- At most one scope is open. -/
theorem Sound.rest_eq_nil {session : Session} (h : session.Sound) {scope : Scope}
    {rest : List Scope} (hm : session.scopes = scope :: rest) : rest = [] := by
  unfold Sound at h
  rw [hm] at h
  cases rest with
  | nil => rfl
  | cons _ _ => exact h.elim

/-- The graph is tidy, and so are the scopes that are open. -/
structure Tidy (session : Session) : Prop where
  graph : session.project.store.graph.Tidy
  borrowed : ∀ scope ∈ session.scopes,
    Twins.BorrowedKnown session.project.store.graph scope

/-- The project of a sound session is sound with the scope that is open. -/
theorem Sound.opened {session : Session} (h : session.Sound) {scope : Scope} {rest : List Scope}
    (hm : session.scopes = scope :: rest) : OpenProject.Sound { session.project with scope } := by
  obtain rfl := h.rest_eq_nil hm
  unfold Sound at h
  rw [hm] at h
  exact h

/-- The project of a tidy session is tidy with the scope that is open. -/
theorem Tidy.opened {session : Session} (h : session.Tidy) {scope : Scope} {rest : List Scope}
    (hm : session.scopes = scope :: rest) : OpenProject.Tidy { session.project with scope } :=
  ⟨h.graph, h.borrowed scope (hm ▸ List.mem_cons_self ..)⟩

/-- A step that changes no scope. -/
private theorem Tidy.of_graph {before after : Session} (h : before.Tidy)
    (hs : after.scopes = before.scopes)
    (ht : after.project.store.graph.Tidy)
    (he : Graph.Extends before.project.store.graph after.project.store.graph) : after.Tidy := by
  refine ⟨ht, fun scope hm => ?_⟩
  rw [hs] at hm
  refine (h.borrowed scope hm).of_known fun hx => ?_
  obtain ⟨y, hy, hl⟩ := Graph.get?_of_label (he.label (Graph.label_of_get? hx))
  exact ⟨y, hy, congrArg Prod.fst hl⟩

/-- Every step leaves a sound session tidy. -/
theorem Tidy.step {session : Session} (hs : session.Sound) (h : session.Tidy) (step : Step) :
    (step.run session).Tidy := by
  cases step with
  | addArtifact name dependencies =>
    have hg : (Step.run session (.addArtifact name dependencies)).project.store.graph =
        (Graph.addArtifact name dependencies session.project.store.graph).2 := rfl
    have hr : Graph.Released session.project.store.graph
        (Graph.addArtifact name dependencies session.project.store.graph).2 := by
      rcases Graph.addArtifact_cases _ name dependencies with he | ⟨-, he⟩ <;> rw [he]
      · exact Guarantee.refl _
      · exact .of_eq rfl rfl rfl rfl rfl rfl
    exact h.of_graph rfl (hg ▸ h.graph.released hr) (hg ▸ hr.extended)
  | answer answers => exact h.of_graph rfl h.graph (.refl _)
  | scanner files => exact h.of_graph rfl h.graph (.refl _)
  | enter artifact =>
    simp only [Step.run]
    split
    · next he =>
      rw [List.isEmpty_iff] at he
      unfold Sound at hs
      rw [he] at hs
      unfold Session.enter
      cases hr : Scope.enter session.project.store.graph artifact with
      | error e => exact h
      | ok scope =>
        refine ⟨h.graph, fun other hm => ?_⟩
        simp only [he, List.mem_singleton] at hm
        rw [hm]
        exact Scope.borrowed_enter hs.1 hs.2.1 hs.2.2 hr
    · exact h
  | scan config path text =>
    unfold Step.run inScope?
    cases hm : session.scopes with
    | nil => exact h
    | cons scope rest =>
      obtain rfl : rest = [] := hs.rest_eq_nil hm
      have ht := OpenProject.scanSource_tidy (hs.opened hm) (h.opened hm) config path text
      refine ⟨ht.graph, fun other ho => ?_⟩
      rw [List.mem_singleton.1 ho]
      exact ht.borrowed
  | scanText path text =>
    have hk : Keeps Graph.Released (do
        let file ← Graph.addTextFile path
        forEach (Text.lines text) fun line => discard (Graph.addLine file line)
        return file) := inferInstance
    have hr := hk.keeps session.project.store.graph
    exact h.of_graph rfl (h.graph.released hr) hr.extended
  | leave =>
    unfold Step.run leave?
    cases hm : session.scopes with
    | nil => exact h
    | cons scope rest =>
      obtain rfl : rest = [] := hs.rest_eq_nil hm
      have hr := Scope.released_leave scope session.project.store
      exact ⟨h.graph.released hr, fun other ho => by cases ho⟩

private theorem tidy_empty : Tidy {} where
  graph := by
    refine ⟨?_, ?_, ?_, ?_, ?_⟩ <;> simp [Twins.Blank, Arena.get?]
  borrowed _ hm := by cases hm

private theorem tidy_foldl (steps : List Step) : ∀ session : Session, session.Sound →
    session.Tidy → (steps.foldl Step.run session).Tidy := by
  induction steps with
  | nil => exact fun _ _ h => h
  | cons step rest ih => exact fun session hs h => ih _ (hs.step step) (h.step hs step)

/-- Every run leaves a tidy graph. -/
theorem tidy_run (steps : List Step) : (run steps).Tidy :=
  tidy_foldl steps {} (sound_run []) tidy_empty

end Session

end JavaGraph
