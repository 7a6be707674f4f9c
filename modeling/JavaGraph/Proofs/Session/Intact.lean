import JavaGraph.Proofs.Scan.Intact
import JavaGraph.Proofs.Session.Lifecycle
/-!
# Runs leave intact graphs

Whatever is scanned in scopes that are entered one at a time, no identifier in the graph dangles,
both ends of what is kept twice agree, and types are nested, described and used as they are
declared.
-/

namespace JavaGraph

open JavaGraph.Action

namespace Graph

/-- An intact graph stays intact. -/
def StaysIntact (before after : Graph) : Prop := before.Intact → after.Intact

instance : Action.Guarantee StaysIntact where
  refl _ := id
  trans h h' := h' ∘ h

/-! ### Steps without a scan -/

variable {graph : Graph}

/-- A new artifact depends on known ones. -/
theorem Intact.addArtifact (h : graph.Intact) (name : String) (dependencies : List ArtifactId) :
    (Graph.addArtifact name dependencies graph).2.Intact := by
  rcases addArtifact_cases graph name dependencies with he | ⟨hd, he⟩ <;> rw [he]
  · exact h
  · refine h.withArtifact fun dependency hm => ?_
    obtain ⟨node, hn⟩ := hd dependency hm
    exact Arena.lt_size_of_get? hn

/-- A placeholder is no longer held. -/
theorem Intact.unheld (h : graph.Intact) (id : TypeId) :
    (Graph.updateType id (·.setRequiredBy none) graph).2.Intact := by
  cases hx : graph.types.get? id with
  | none =>
    have he := Arena.update_eq_error_iff (f := (·.setRequiredBy none)) |>.2 ⟨hx, rfl⟩
    simp only [updateType, tryChange, he, Bind.bind, Except.bind]
    exact h
  | some x =>
    rw [updateType_known _ hx]
    have hk : Retouches (·.setRequiredBy none) := by
      refine ⟨?_, ?_, ?_, ?_, ?_⟩ <;> intro x <;> unfold TypeNode.setRequiredBy <;>
        cases hs : x.state <;> simp [hs]
    refine (h.retouched hk id [] ?_ ?_ ?_ (fun _ hm => by cases hm) ?_).1
    · intro x
      unfold TypeNode.setRequiredBy
      split <;> rfl
    · intro x
      unfold TypeNode.setRequiredBy
      split <;> exact ⟨rfl, rfl⟩
    · intro y _ ref
      unfold TypeNode.setRequiredBy
      split
      · next hs =>
        simp only [TypeNode.refs, TypeState.declaredBy, TypeState.requiredBy, refsOf, hs,
          Option.toList_none, List.map_nil, List.append_nil, List.mem_append]
        tauto
      · simp
    · intro y hy hm
      refine h.irreflexive hy ?_
      unfold TypeNode.setRequiredBy at hm
      split at hm <;> exact hm

instance (id : TypeId) : Keeps StaysIntact (Graph.updateType id (·.setRequiredBy none)) :=
  ⟨fun _ h => h.unheld id⟩

instance (path : String) : Keeps StaysIntact (addTextFile path) :=
  ⟨fun _ h => h.withTextFile path⟩

instance (file : TextFileId) (text : String) : Keeps StaysIntact (addLine file text) :=
  ⟨fun _ h => h.addLine file text⟩

end Graph

/-! ### Files in an open scope -/

namespace OpenProject

variable {opened : OpenProject}

/-- The unit of a new file comes into the artifact of the scope. -/
private theorem withSource_eq (graph : Graph) (path : String) (artifact : Option ArtifactId)
    (package : Option String) (mayNotCompile : Bool) :
    withSource graph path artifact package mayNotCompile = { graph with
      artifacts := match artifact with
        | none => graph.artifacts
        | some owner => graph.artifacts.modify owner fun node =>
          { node with units := node.units ++ [graph.units.nextId] }
      units := graph.units.push
        { path, artifact, dependencies := graph.dependenciesOf artifact, package,
          mayNotCompile } } := by
  cases artifact <;> simp only [withSource, Graph.withUnit, Arena.modify_push]

/-- What the units of an artifact may resolve names against is known. -/
private theorem knows_of_dependenciesOf {graph : Graph} (hi : graph.Intact)
    {artifact : Option ArtifactId} {dependency : ArtifactId}
    (hm : dependency ∈ graph.dependenciesOf artifact) :
    graph.Knows ⟨.artifact, dependency⟩ := by
  cases artifact with
  | none => cases hm
  | some owner =>
    simp only [Graph.dependenciesOf] at hm
    cases hx : graph.artifacts.get? owner with
    | none =>
      rw [hx] at hm
      cases hm
    | some node =>
      rw [hx] at hm
      exact Graph.knows_of_artifact hi.closed hx (by
        exact List.mem_append_right _ (mem_refsOf.2 ⟨dependency, hm, rfl⟩))

/-- The scan of a new unit begins in a whole state. -/
private theorem whole_initial (path : String) (parsed : ParsedSource) (hs : opened.Sound)
    (hi : opened.store.graph.Intact)
    (hb : Twins.BorrowedKnown opened.store.graph opened.scope) (file : FileId) :
    (opened.initial file path parsed).Whole opened.store.graph.units.nextId := by
  have hgraph : (opened.initial file path parsed).store.graph =
      _ := withSource_eq opened.store.graph path opened.scope.artifact?
        (Header.ofTree file parsed.root).1.package parsed.hasErrors
  obtain ⟨hintact, hg⟩ := hi.withUnit {
      path, artifact := opened.scope.artifact?
      dependencies := opened.store.graph.dependenciesOf opened.scope.artifact?
      package := (Header.ofTree file parsed.root).1.package, mayNotCompile := parsed.hasErrors }
    rfl rfl rfl
    (fun artifact ha => by
      obtain ⟨node, hn⟩ := hs.artifact_known ha
      exact Arena.lt_size_of_get? hn)
    fun _ hm => knows_of_dependenciesOf hi hm
  refine ⟨initial_sound file path parsed hs, hgraph ▸ hintact, ?_, fun _ hm => by cases hm⟩
  rw [hgraph]
  refine hb.of_known fun hx => ?_
  obtain ⟨y, hy, hny, -⟩ := hg.type hx
  exact ⟨y, hy, hny⟩

/-- The scan of any text leaves an intact graph. -/
theorem scanSource_intact (hs : opened.Sound) (ht : opened.Tidy) (hi : opened.store.graph.Intact)
    (config : ScanConfig) (path text : String) :
    (scanSource config path text opened).2.store.graph.Intact := by
  unfold scanSource
  cases hu : opened.store.graph.unitAt? path opened.scope.artifact? with
  | none =>
    have hs' : (opened.seeing path).Sound := hs
    rw [scanParsed_new _ _ hu]
    have hwhole := whole_initial path (parseSource text (config.parseOptions path)) hs' hi
      ht.borrowed (opened.files.idOf path).1
    rw [scanNew_run hs'.artifact_known hu rfl]
    exact (hwhole.scanTypes config.recordAccesses _ path _).intact
  | some unit =>
    obtain ⟨node, hn, -⟩ := Graph.get?_of_unitAt? hu
    rw [scanParsed_existing _ _ hu hn]
    exact hi

end OpenProject

/-! ### Runs -/

/-- Leaving a scope leaves an intact graph. -/
theorem Scope.intact_leave (scope : Scope) {store : Store} (hi : store.graph.Intact) :
    (scope.leave store).2.graph.Intact := by
  cases scope with
  | ofArtifact scope =>
    have hk : Keeps Graph.StaysIntact (forEach scope.created fun id =>
      Graph.updateType id (·.setRequiredBy none)) := inferInstance
    exact hk.keeps store.graph hi
  | global => exact hi

namespace Session

/-- Every step leaves an intact graph. -/
theorem intact_step {session : Session} (hs : session.Sound) (ht : session.Tidy)
    (hi : session.project.store.graph.Intact) (step : Step) :
    (step.run session).project.store.graph.Intact := by
  cases step with
  | addArtifact name dependencies => exact hi.addArtifact name dependencies
  | answer answers => exact hi
  | scanner files => exact hi
  | enter artifact =>
    simp only [Step.run]
    split
    · unfold Session.enter
      split <;> exact hi
    · exact hi
  | scan config path text =>
    unfold Step.run inScope?
    cases hm : session.scopes with
    | nil => exact hi
    | cons scope rest =>
      exact OpenProject.scanSource_intact (hs.opened hm) (ht.opened hm) hi config path text
  | scanText path text =>
    have hk : Keeps Graph.StaysIntact (do
        let file ← Graph.addTextFile path
        forEach (Text.lines text) fun line => discard (Graph.addLine file line)
        return file) := inferInstance
    exact hk.keeps _ hi
  | leave =>
    unfold Step.run leave?
    cases hm : session.scopes with
    | nil => exact hi
    | cons scope rest => exact scope.intact_leave hi

private theorem intact_empty : ({} : Graph).Intact := by
  have hr : ({} : Graph).refs = [] := rfl
  refine ⟨fun ref hm => ?_, ⟨?_, ?_⟩, ⟨?_, ?_⟩, ⟨?_, ?_⟩, ⟨?_, ?_⟩, ?_, ?_, ?_, ?_, ?_⟩
  · rw [hr] at hm
    cases hm
  all_goals simp [Arena.get?]

private theorem intact_foldl (steps : List Step) : ∀ session : Session, session.Sound →
    session.Tidy → session.project.store.graph.Intact →
      (steps.foldl Step.run session).project.store.graph.Intact := by
  induction steps with
  | nil => exact fun _ _ _ h => h
  | cons step rest ih =>
    exact fun session hs ht hi =>
      ih _ (hs.step step) (ht.step hs step) (intact_step hs ht hi step)

/-- The graph of a run is intact. -/
theorem intact_graph (steps : List Step) : (run steps).project.store.graph.Intact :=
  intact_foldl steps {} (sound_run []) (tidy_run []) intact_empty

/-- Every run leaves an intact graph, in which no type is within itself. -/
theorem intact_run (steps : List Step) :
    let graph := (run steps).project.store.graph
    graph.Intact ∧ ∀ id, ¬ Relation.TransGen graph.DeclaredIn id id := by
  have hi : (run steps).project.store.graph.Intact :=
    intact_foldl steps {} (sound_run []) (tidy_run []) intact_empty
  exact ⟨hi, hi.acyclic⟩

end Session

end JavaGraph
