import Mathlib.Logic.Function.Basic
import JavaGraph.Proofs.Scan.Together
import JavaGraph.Proofs.Session.Intact
/-!
# Artifacts that are scanned at the same time

Several artifacts may be scanned at the same time, each in an open scope of its own: the scans of
their files follow each other in any order. What belongs to an artifact in the end, and what is
reported on its files, is the same as if nothing else had been done, as long as nothing is done to
its dependencies.
-/

namespace JavaGraph

open List (Forall₂)
open JavaGraph.Action
open JavaGraph.Graph (SameType SameUnit SameField SameFunction Extends Elsewhere CorrespondsIn
  SameDeclared Released)

/-! ### A graph and itself -/

namespace Graph

variable {graph : Graph}

/-- The types that a type refers to are known. -/
private theorem Intact.sameType (h : graph.Intact) {id target : TypeId} {x : TypeNode}
    (hx : graph.types.get? id = some x) (ht : (⟨.type, target⟩ : Ref) ∈ x.refs) :
    SameType graph graph target target := by
  have hk : graph.Knows ⟨.type, target⟩ := h.closed _ (by
    unfold refs
    simp only [List.mem_append]
    exact .inl (.inl (.inl (.inl (.inl (.inl (.inr (Arena.mem_refs.2 ⟨id, x, hx, ht⟩))))))))
  obtain ⟨y, hy⟩ := Arena.get?_of_lt_size hk
  exact ⟨_, label_of_get? hy, label_of_get? hy⟩

/-- Types match themselves. -/
private theorem nodesMatch_self (ht : graph.Tidy) (hi : graph.Intact) {id : TypeId} {x : TypeNode}
    (hx : graph.types.get? id = some x) : NodesMatch graph graph x x := by
  cases hc : x.isComplete with
  | true =>
    refine ⟨ht.type hx hc, ?_, List.forall₂_same.2 fun target hm => hi.sameType hx ?_⟩
    · cases hs : x.superclass with
      | none => exact .none
      | some target =>
        refine .some (hi.sameType hx ?_)
        simp [TypeNode.refs, hs]
    · simp [TypeNode.refs, hm]
  | false =>
    obtain ⟨holder, hb⟩ := ht.blank hx hc
    rw [hb]
    exact nodesMatch_blank ..

/-- A graph corresponds to itself in every universe. -/
theorem CorrespondsIn.refl (hc : graph.Consistent) (ht : graph.Tidy) (hi : graph.Intact)
    (home : Universe) : CorrespondsIn home graph graph where
  types _ := Iff.rfl
  type := by
    intro a b x y hab hx hy hh
    obtain ⟨x', y', hx', hy', hn, hhome⟩ := hab.get?
    cases hx.symm.trans hx'
    cases hy.symm.trans hy'
    obtain rfl := hc.unique hx hy hn hhome
    cases hx.symm.trans hy
    exact nodesMatch_self ht hi hx
  accesses := by
    intro a b x y f g place hab hx hy hh hf hg
    obtain ⟨x', y', hx', hy', hn, hhome⟩ := hab.get?
    cases hx.symm.trans hx'
    cases hy.symm.trans hy'
    obtain rfl := hc.unique hx hy hn hhome
    cases hx.symm.trans hy
    cases hf.symm.trans hg
    refine List.forall₂_same.2 fun access hm => ?_
    obtain ⟨⟨owner, u, hu, -, hfield⟩, owner', v, hv, -, hfunction⟩ :=
      ht.access (List.mem_of_mem_filter hm)
    obtain ⟨i, hi⟩ := List.mem_iff_getElem?.1 hfield
    obtain ⟨j, hj⟩ := List.mem_iff_getElem?.1 hfunction
    exact ⟨⟨owner', owner', v, v, j, .of_get? hv hv rfl rfl, hv, hv, hj, hj⟩,
      ⟨owner, owner, u, u, i, .of_get? hu hu rfl rfl, hu, hu, hi, hi⟩, rfl, rfl⟩
  units _ := Iff.rfl
  unit := by
    rintro a b x y ⟨x', y', hx', hy', hp, ha⟩ hx hy -
    cases hx.symm.trans hx'
    cases hy.symm.trans hy'
    obtain rfl := ht.path hx hy hp ha
    cases hx.symm.trans hy
    refine ⟨ht.unit hx, List.forall₂_same.2 fun id hm => ?_⟩
    obtain ⟨z, hz, -⟩ := hc.required_placeholder hx hm
    exact .of_get? hz hz rfl rfl
  artifact id _ := by
    cases hx : graph.artifacts.get? id with
    | none => exact .none
    | some x =>
      refine .some ⟨rfl, List.forall₂_same.2 fun unit hm => ?_, rfl⟩
      obtain ⟨node, hn, -⟩ := (hc.units_iff hx).1 hm
      exact ⟨node, node, hn, hn, rfl, rfl⟩

end Graph

/-! ### Events -/

/-- A project in which artifacts are scanned at the same time. -/
structure Parallel where
  project : Project
  /-- The open scope of an artifact, if it has one. -/
  scopes : ArtifactId → Option Scope := fun _ => none
  /-- What the scans of files have given, oldest first. -/
  reports : List (ArtifactId × Except GraphError UnitReport) := []

namespace Parallel

/-- The graph. -/
abbrev graph (state : Parallel) : Graph := state.project.store.graph

/-- What the scans of files in the scope of an artifact have given. -/
def reportsOn (state : Parallel) (artifact : ArtifactId) : List (Except GraphError UnitReport) :=
  (state.reports.filter (·.1 = artifact)).map (·.2)

/-- The open scope of an artifact, or that it has none, from now on. -/
def withScope (state : Parallel) (artifact : ArtifactId) (scope : Option Scope) : Parallel :=
  { state with scopes := Function.update state.scopes artifact scope }

/-- Make an artifact. -/
def addArtifact (name : String) (dependencies : List ArtifactId) (state : Parallel) : Parallel :=
  { state with project := (Project.onGraph (Graph.addArtifact name dependencies) state.project).2 }

/-- Enter the scope of an artifact, if it is not open. -/
def enter (artifact : ArtifactId) (state : Parallel) : Parallel :=
  match state.scopes artifact, Scope.enter state.graph (some artifact) with
  | none, .ok scope => state.withScope artifact (some scope)
  | _, _ => state

/-- Scan a file in the open scope of an artifact, if there is one. -/
def scan (artifact : ArtifactId) (config : ScanConfig) (source : SourceText) (state : Parallel) :
    Parallel :=
  match state.scopes artifact with
  | none => state
  | some scope =>
    let (result, opened) := OpenProject.scanOne config source { state.project with scope }
    { state.withScope artifact (some opened.scope) with
      project := opened.toProject
      reports := state.reports ++ [(artifact, result)] }

/-- Leave the open scope of an artifact, if there is one. -/
def leave (artifact : ArtifactId) (state : Parallel) : Parallel :=
  match state.scopes artifact with
  | none => state
  | some scope =>
    { state.withScope artifact none with
      project := { state.project with store := (scope.leave state.project.store).2 } }

/-- What can happen while artifacts are scanned. -/
inductive Event where
  | addArtifact (name : String) (dependencies : List ArtifactId)
  | enter (artifact : ArtifactId)
  | scan (artifact : ArtifactId) (config : ScanConfig) (source : SourceText)
  | leave (artifact : ArtifactId)

/-- Whether something is done to an artifact that there is. -/
def Event.concerns (artifact : ArtifactId) : Event → Bool
  | .addArtifact .. => false
  | .enter other | .scan other .. | .leave other => other = artifact

/-- What there is after an event, whether what is done succeeds or fails. -/
def Event.run (state : Parallel) : Event → Parallel
  | .addArtifact name dependencies => state.addArtifact name dependencies
  | .enter artifact => state.enter artifact
  | .scan artifact config source => state.scan artifact config source
  | .leave artifact => state.leave artifact

/-- What there is after some events. -/
def run (state : Parallel) (events : List Event) : Parallel := events.foldl Event.run state

variable {state : Parallel} {artifact other : ArtifactId} {scope : Scope}

/-- A scope is entered, or nothing happens. -/
theorem enter_cases (artifact : ArtifactId) (state : Parallel) :
    state.enter artifact = state ∨ ∃ scope, state.scopes artifact = none ∧
      Scope.enter state.graph (some artifact) = .ok scope ∧
      state.enter artifact = state.withScope artifact (some scope) := by
  unfold enter
  split
  · next scope hs he => exact .inr ⟨scope, hs, he, rfl⟩
  · exact .inl rfl

/-- A scope that is open is not entered again. -/
theorem enter_of_open (hs : state.scopes artifact = some scope) : state.enter artifact = state := by
  unfold enter
  rw [hs]

/-- A scope that is not open is entered. -/
theorem enter_of_closed (hs : state.scopes artifact = none)
    (he : Scope.enter state.graph (some artifact) = .ok scope) :
    state.enter artifact = state.withScope artifact (some scope) := by
  unfold enter
  rw [hs, he]

/-- A file is scanned in the open scope of its artifact. -/
theorem scan_of_open {config : ScanConfig} {source : SourceText}
    {result : Except GraphError UnitReport} {after : OpenProject}
    (hs : state.scopes artifact = some scope)
    (hr : OpenProject.scanOne config source { state.project with scope } = (result, after)) :
    state.scan artifact config source =
      { state.withScope artifact (some after.scope) with
        project := after.toProject, reports := state.reports ++ [(artifact, result)] } := by
  unfold scan
  simp only [hs, hr]

/-- An artifact without an open scope scans nothing. -/
theorem scan_of_closed (config : ScanConfig) (source : SourceText)
    (hs : state.scopes artifact = none) : state.scan artifact config source = state := by
  unfold scan
  rw [hs]

/-- An open scope is left. -/
theorem leave_of_open {result : Except GraphError Unit} {after : Store}
    (hs : state.scopes artifact = some scope)
    (hr : scope.leave state.project.store = (result, after)) :
    state.leave artifact =
      { state.withScope artifact none with project := { state.project with store := after } } := by
  unfold leave
  simp only [hs, hr]

/-- An artifact without an open scope has nothing to leave. -/
theorem leave_of_closed (hs : state.scopes artifact = none) :
    state.leave artifact = state := by
  unfold leave
  rw [hs]

/-! ### Open scopes -/

/-- The graph is sound and tidy, and the scopes are open over it. -/
structure Sound (state : Parallel) : Prop where
  consistent : state.graph.Consistent
  covered : state.graph.Covered
  tidy : state.graph.Tidy
  scopes : ∀ {artifact scope}, state.scopes artifact = some scope →
    scope.OpenIn state.graph artifact

/-- Scopes that are open in another state are so in this one. -/
private theorem scopes_withScope {scope : Option Scope} {P : ArtifactId → Scope → Prop}
    (hs : ∀ {s}, scope = some s → P artifact s)
    (ho : ∀ {other s}, other ≠ artifact → state.scopes other = some s → P other s) {other : ArtifactId}
    {s : Scope} (h : (state.withScope artifact scope).scopes other = some s) : P other s := by
  unfold withScope at h
  simp only [Function.update_apply] at h
  split at h
  · next he =>
    rw [he]
    exact hs h
  · next hne => exact ho hne h

/-- A new artifact lets go of nothing. -/
theorem released_addArtifact (name : String) (dependencies : List ArtifactId)
    (graph : Graph) : Released graph (Graph.addArtifact name dependencies graph).2 := by
  rcases Graph.addArtifact_cases graph name dependencies with he | ⟨-, he⟩ <;> rw [he]
  · exact Guarantee.refl _
  · exact .of_eq rfl rfl rfl rfl rfl rfl

/-- A known artifact stays as it is when another one comes in. -/
theorem artifact_addArtifact (name : String) (dependencies : List ArtifactId)
    {graph : Graph} {id : ArtifactId} {node : Artifact} (hn : graph.artifacts.get? id = some node) :
    (Graph.addArtifact name dependencies graph).2.artifacts.get? id = some node := by
  rcases Graph.addArtifact_cases graph name dependencies with he | ⟨-, he⟩ <;> rw [he]
  · exact hn
  · exact Graph.get?_push_of_get? _ hn

/-- The dependencies of other artifacts stay. -/
private theorem dependencies_addArtifact (name : String) (dependencies : List ArtifactId)
    (graph : Graph) (owner : Option ArtifactId) : graph.dependenciesOf owner ⊆
      (Graph.addArtifact name dependencies graph).2.dependenciesOf owner := by
  unfold Graph.dependenciesOf
  cases owner with
  | none => exact List.Subset.refl _
  | some owner =>
    cases hx : graph.artifacts.get? owner with
    | none => simp [hx]
    | some node => simp [hx, artifact_addArtifact name dependencies hx]

private theorem Sound.addArtifact (h : state.Sound) (name : String)
    (dependencies : List ArtifactId) : (state.addArtifact name dependencies).Sound := by
  have hr := released_addArtifact name dependencies state.graph
  have hc : (Graph.addArtifact name dependencies state.graph).2.Consistent := by
    rcases Graph.addArtifact_cases state.graph name dependencies with he | ⟨-, he⟩ <;> rw [he]
    · exact h.consistent
    · exact h.consistent.withArtifact
  have hv : (Graph.addArtifact name dependencies state.graph).2.Covered := by
    rcases Graph.addArtifact_cases state.graph name dependencies with he | ⟨-, he⟩ <;> rw [he]
    · exact h.covered
    · exact h.covered
  refine ⟨hc, hv, h.tidy.released hr, fun {artifact scope} hs => ?_⟩
  have ho := h.scopes hs
  obtain ⟨extra, hsound⟩ := ho.sound
  obtain ⟨node, hn⟩ := hsound.artifact_known ((Scope.artifact?_lending ..).trans ho.artifact)
  exact ho.released hr hc hv ⟨node, artifact_addArtifact name dependencies hn⟩
    (dependencies_addArtifact name dependencies state.graph)

private theorem Sound.enter (h : state.Sound) (artifact : ArtifactId) :
    (state.enter artifact).Sound := by
  rcases enter_cases artifact state with he | ⟨scope, -, hscope, he⟩ <;> rw [he]
  · exact h
  · exact ⟨h.consistent, h.covered, h.tidy, scopes_withScope
      (fun hs => Option.some.inj hs ▸ Scope.openIn_enter h.consistent h.covered hscope)
      fun _ hs => h.scopes hs⟩

private theorem Sound.scan (h : state.Sound) (artifact : ArtifactId) (config : ScanConfig)
    (source : SourceText) : (state.scan artifact config source).Sound := by
  cases hs : state.scopes artifact with
  | none =>
    rw [scan_of_closed config source hs]
    exact h
  | some scope =>
    obtain ⟨report, after, hrun, hp⟩ := OpenProject.proceeds_scanOne
      { state.project with scope } (h.scopes hs) h.tidy config source
    rw [scan_of_open hs hrun]
    obtain ⟨extra, hsound⟩ := hp.scope.sound
    refine ⟨hsound.consistent, hsound.covered, hp.tidy, scopes_withScope
      (fun hs => Option.some.inj hs ▸ hp.scope) fun {other s} hne ho => ?_⟩
    have hopen := h.scopes ho
    rcases hp.graph with he | he
    · change s.OpenIn after.store.graph other
      rw [he]
      exact hopen
    · exact hopen.elsewhere (he (some other) fun h => hne (Option.some.inj h)) h.consistent
        hsound.consistent hsound.covered

private theorem Sound.leave (h : state.Sound) (artifact : ArtifactId) :
    (state.leave artifact).Sound := by
  cases hs : state.scopes artifact with
  | none =>
    rw [leave_of_closed hs]
    exact h
  | some scope =>
    obtain ⟨after, hrun, hledger, hreleased⟩ := (h.scopes hs).leave state.project.store.answers
    rw [leave_of_open hs hrun]
    have hc := h.consistent.of_sameLedger hledger
    have hv : after.Covered := fun id => Graph.CoveredAt.of_sameLedger (h.covered id) hledger
    refine ⟨hc, hv, h.tidy.released hreleased, scopes_withScope nofun fun {other s} _ ho => ?_⟩
    have hopen := h.scopes ho
    obtain ⟨extra, hsound⟩ := hopen.sound
    have hknown := hsound.artifact_known ((Scope.artifact?_lending ..).trans hopen.artifact)
    refine hopen.released hreleased hc hv (hledger.artifacts ▸ hknown) fun owner => ?_
    unfold Graph.dependenciesOf
    rw [hledger.artifacts]
    exact List.Subset.refl _

/-- Every event leaves a sound state. -/
theorem Sound.step (h : state.Sound) (event : Event) : (event.run state).Sound := by
  cases event with
  | addArtifact name dependencies => exact h.addArtifact name dependencies
  | enter artifact => exact h.enter artifact
  | scan artifact config source => exact h.scan artifact config source
  | leave artifact => exact h.leave artifact

end Parallel

end JavaGraph
