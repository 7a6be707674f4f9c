import Mathlib.Data.List.Induction
import JavaGraph.Proofs.Scan.Upheld
import JavaGraph.Proofs.Session.Lifecycle
import JavaGraph.Proofs.Session.Names
/-!
# Operations of a scope that fail

A scope may be asked for a name on behalf of a unit that there is not. The global scope looks for the
unit before it does anything. The scope of an artifact notices it at last: by then a new type is in
the graph, or a placeholder is declared, and stays so. Whatever else makes an operation fail, nothing
is changed by it.
-/

namespace JavaGraph

open JavaGraph.Action

namespace Graph

/-- A relation between graphs that is kept by whatever is done in a session. -/
class Enduring (R : Graph → Graph → Prop) : Prop extends Upheld R where
  sameLedger : ∀ {graph after}, SameLedger graph after → R graph after
  addUnit : ∀ path artifact, Keeps R (addUnit path artifact)
  addArtifact : ∀ name dependencies, Keeps R (addArtifact name dependencies)

/-! ### Units that are listed for placeholders -/

/-- The units that are listed for placeholders are known. -/
def RequirersKnown (graph : Graph) : Prop :=
  ∀ type, ∀ unit ∈ (graph.requirers.find? type).getD [], (graph.units.get? unit).isSome

/-- Units stay known, and so do those that are listed for placeholders. -/
structure PassesRequirers (before after : Graph) : Prop where
  units : ∀ id, (before.units.get? id).isSome → (after.units.get? id).isSome
  requirers : before.RequirersKnown → after.RequirersKnown

instance : Action.Guarantee PassesRequirers where
  refl _ := ⟨fun _ => id, id⟩
  trans h h' := ⟨fun id => h'.units id ∘ h.units id, h'.requirers ∘ h.requirers⟩

variable {graph after : Graph}

/-- Units stay known, and nothing new is listed. -/
theorem PassesRequirers.of_find? (hu : ∀ id, (graph.units.get? id).isSome →
    (after.units.get? id).isSome)
    (hr : ∀ type, (after.requirers.find? type).getD [] ⊆ (graph.requirers.find? type).getD []) :
    PassesRequirers graph after :=
  ⟨hu, fun h type unit hm => hu unit (h type unit (hr type hm))⟩

/-- The same units, and the same list. -/
private theorem PassesRequirers.of_eq (hu : after.units = graph.units)
    (hr : after.requirers = graph.requirers) : PassesRequirers graph after :=
  .of_find? (fun _ h => hu ▸ h) fun _ => hr ▸ List.Subset.refl _

instance (id : TypeId) (f : TypeNode → TypeNode) : Keeps PassesRequirers (updateType id f) := by
  constructor
  intro graph
  cases h : graph.types.update id f <;>
    simp only [updateType, tryChange, h, bind, Except.bind, pure, Except.pure] <;>
    exact .of_eq rfl rfl

instance (id : ArtifactId) (f : Artifact → Artifact) :
    Keeps PassesRequirers (updateArtifact id f) := by
  constructor
  intro graph
  cases h : graph.artifacts.update id f <;>
    simp only [updateArtifact, tryChange, h, bind, Except.bind, pure, Except.pure] <;>
    exact .of_eq rfl rfl

instance (id : UnitId) (f : CompilationUnit → CompilationUnit) :
    Keeps PassesRequirers (updateUnit id f) := by
  constructor
  intro graph
  cases hu : graph.units.get? id with
  | none =>
    have he := Arena.update_eq_error_iff (f := f) |>.2 ⟨hu, rfl⟩
    simp only [updateUnit, tryChange, he, bind, Except.bind]
    exact Guarantee.refl graph
  | some node =>
    rw [updateUnit_known f hu]
    refine .of_find? (fun k hk => ?_) fun _ => List.Subset.refl _
    simp only
    rw [Arena.get?_modify]
    split
    · rwa [Option.isSome_map]
    · exact hk

/-- What does not touch the ledger passes requirers on. -/
theorem PassesRequirers.of_sameLedger (h : SameLedger graph after) :
    PassesRequirers graph after := by
  refine .of_find? (fun id hk => ?_) fun _ => h.requirers ▸ List.Subset.refl _
  obtain ⟨x, hx⟩ := Option.isSome_iff_exists.1 hk
  obtain ⟨y, hy, -⟩ := h.unit' hx
  rw [hy]
  rfl

/-- A unit that is listed is known by then. -/
private theorem passesRequirers_addRequirement (unit : UnitId) (type : TypeId) :
    Keeps PassesRequirers (addRequirement unit type) := by
  constructor
  intro graph
  have hk := (inferInstance : Keeps PassesRequirers (updateUnit unit fun node =>
    { node with requiredTypes := node.requiredTypes ++ [type] })).keeps graph
  cases hu : graph.units.get? unit with
  | none =>
    have he : updateUnit unit (fun node =>
        { node with requiredTypes := node.requiredTypes ++ [type] }) graph =
        (.error (.unknownId .unit unit.index), graph) := by
      have := Arena.update_eq_error_iff (f := fun node : CompilationUnit =>
        { node with requiredTypes := node.requiredTypes ++ [type] }) |>.2 ⟨hu, rfl⟩
      simp only [updateUnit, tryChange, this, bind, Except.bind]
    unfold addRequirement
    rw [bind_of_error he]
    exact Guarantee.refl graph
  | some node =>
    rw [updateUnit_known _ hu] at hk
    rw [addRequirement_known graph type hu]
    refine ⟨hk.units, fun h other listed hm => hk.units listed ?_⟩
    unfold withRequirement at hm
    simp only [Table.find?_insert] at hm
    split at hm
    · rcases List.mem_append.1 hm with hm | hm
      · exact h type listed hm
      · rw [List.mem_singleton.1 hm, hu]
        rfl
    · exact h other listed hm

private theorem passesRequirers_releaseRequirement (type : TypeId) :
    Keeps PassesRequirers (releaseRequirement type) := by
  have : Keeps PassesRequirers (change fun graph =>
      { graph with requirers := graph.requirers.erase type } : GraphAction Unit) := by
    refine ⟨fun graph => .of_find? (fun _ h => h) fun other => ?_⟩
    change ((graph.requirers.erase type).find? other).getD [] ⊆ _
    rw [Table.find?_erase]
    split
    · exact List.nil_subset _
    · exact List.Subset.refl _
  unfold releaseRequirement
  infer_instance

instance : Upheld PassesRequirers where
  addType _ _ := ⟨fun _ => .of_eq rfl rfl⟩
  addRequirement := passesRequirers_addRequirement
  hold _ _ := inferInstance
  declareType type unit artifact := by
    have := passesRequirers_releaseRequirement
    unfold declareType completeType
    refine Keeps.bind inferInstance fun node => ?_
    split
    · infer_instance
    · refine Keeps.bind (Keeps.bind inferInstance fun other => ?_) inferInstance
      split <;> infer_instance
  record _ h _ := ⟨fun graph => .of_sameLedger (h.keeps graph)⟩
  mainType unit type :=
    have h : Keeps SameLedger (setMainType unit type) := inferInstance
    ⟨fun graph => .of_sameLedger (h.keeps graph)⟩

private theorem passesRequirers_addUnit (path : String) (artifact : Option ArtifactId) :
    Keeps PassesRequirers (addUnit path artifact) := by
  have hpush : ∀ dependencies, Keeps PassesRequirers (change fun graph =>
      { graph with units := graph.units.push { path, artifact, dependencies } } :
        GraphAction Unit) := by
    refine fun dependencies => ⟨fun graph => .of_find? (fun id hk => ?_) fun _ =>
      List.Subset.refl _⟩
    obtain ⟨x, hx⟩ := Option.isSome_iff_exists.1 hk
    exact Option.isSome_iff_exists.2 ⟨x, get?_push_of_get? _ hx⟩
  unfold addUnit
  refine Keeps.bind inferInstance fun existing => ?_
  cases existing with
  | some existing => infer_instance
  | none =>
    refine Keeps.bind inferInstance fun id => ?_
    cases artifact with
    | none => infer_instance
    | some owner => infer_instance

instance : Enduring PassesRequirers where
  sameLedger := .of_sameLedger
  addUnit := passesRequirers_addUnit
  addArtifact name dependencies := ⟨fun graph => by
    rcases addArtifact_cases graph name dependencies with he | ⟨-, he⟩ <;> rw [he] <;>
      exact .of_eq rfl rfl⟩

end Graph

namespace OpenProject

/-- The graphs of two open projects are related. -/
def OnGraph (R : Graph → Graph → Prop) (before after : OpenProject) : Prop :=
  R before.store.graph after.store.graph

section

variable {R : Graph → Graph → Prop}

instance [h : Action.Guarantee R] : Action.Guarantee (OnGraph R) where
  refl opened := h.refl opened.store.graph
  trans hab hbc := h.trans hab hbc

instance {α : Type} (action : GraphAction α) [h : Keeps R action] :
    Keeps (OnGraph R) (onGraph action) :=
  ⟨fun opened => h.keeps opened.store.graph⟩

instance [h : Action.Guarantee R] (path : String) :
    Keeps (OnGraph R) (onProject (Project.fileId path) : OpenAction FileId) :=
  ⟨fun opened => h.refl opened.store.graph⟩

/-- A scan in the open scope keeps what its action keeps. -/
instance [Graph.Upheld R] {α : Type} (diagnostics : List Diagnostic) (action : ScanAction α)
    [Keeps (ScanState.OnGraph R) action] : Keeps (OnGraph R) (scan diagnostics action) := by
  have hk : Keeps (ScanState.OnGraph R)
      (do let result ← action; return (result, ← .read (·.diagnostics)) :
        ScanAction (α × List Diagnostic)) := inferInstance
  exact ⟨fun opened => hk.keeps ⟨opened.store, opened.scope, diagnostics, []⟩⟩

end

/-- The scan of any text keeps what its steps keep. -/
theorem keeps_scanSource {R : OpenProject → OpenProject → Prop} [Action.Guarantee R]
    {config : ScanConfig} {path text : String}
    (hfile : Keeps R (onProject (Project.fileId path) : OpenAction FileId))
    (hunit : ∀ artifact, Keeps R (onGraph (Graph.addUnit path artifact)))
    (hheader : ∀ unit f, (∀ node : CompilationUnit, (f node).ledger = node.ledger) →
      Keeps R (onGraph (Graph.updateUnit unit f)))
    (hscan : ∀ diagnostics source header root, Keeps R
      (scan diagnostics (scanTypes config.recordAccesses source header path root))) :
    Keeps R (scanSource config path text) := by
  unfold scanSource scanParsed
  refine Keeps.bind hfile fun file => Keeps.bind inferInstance fun existing => ?_
  cases existing with
  | some unit =>
    unfold rescan
    infer_instance
  | none =>
    unfold scanNew
    refine Keeps.bind inferInstance fun artifact => Keeps.bind (hunit _) fun unit => ?_
    exact Keeps.bind (hheader _ _ fun _ => rfl) fun _ => Keeps.bind (hscan ..) inferInstance

/-- The scan of any text keeps what whatever is done in a session keeps. -/
instance {R : Graph → Graph → Prop} [h : Graph.Enduring R] (config : ScanConfig)
    (path text : String) : Keeps (OnGraph R) (scanSource config path text) := by
  have := h.addUnit
  refine keeps_scanSource inferInstance inferInstance (fun unit f hf => ?_) inferInstance
  have : Keeps R (Graph.updateUnit unit f) :=
    ⟨fun graph => h.sameLedger ((Graph.keeps_updateUnit unit f hf).keeps graph)⟩
  infer_instance

end OpenProject

/-! ### What failing operations leave -/

namespace Graph

variable {graph after : Graph} {id : TypeId} {unit : UnitId} {artifact : Option ArtifactId}
  {e : GraphError}

/-- The declaration of a placeholder can only fail because its unit is not known. Then the placeholder
is declared all the same. -/
theorem declareType_placeholder_failed {x : TypeNode} (hk : graph.RequirersKnown)
    (hx : graph.types.get? id = some x) (hs : x.isComplete = false)
    (h : declareType id unit artifact graph = (.error e, after)) :
    e = .unknownId .unit unit.index ∧ (after.types.get? id).map (·.isComplete) = some true := by
  cases hu : graph.units.get? unit with
  | some node =>
    rw [declareType_placeholder graph artifact hx hs hu (hk id)] at h
    cases h
  | none =>
    have hd : x.state.declaredBy = none := by
      unfold TypeNode.isComplete at hs
      cases hst : x.state <;> simp_all [TypeState.isComplete, TypeState.declaredBy]
    have hc : completeType id unit artifact graph =
        (.ok (), graph.completed id unit artifact) := by
      unfold completeType
      rw [checkType_bind hx]
      simp only [hs, Bool.false_eq_true, if_false]
      exact updateType_known _ hx
    have hmissing : ((graph.completed id unit artifact).released id).units.get? unit = none := by
      rw [get?_units_released]
      exact congrArg (Option.map _) hu
    have he := Arena.update_eq_error_iff (f := fun node : CompilationUnit =>
      { node with declaredTypes := node.declaredTypes ++ [id] }) |>.2 ⟨hmissing, rfl⟩
    unfold declareType at h
    rw [checkType_bind hx] at h
    simp only [hd] at h
    rw [bind_of_ok hc,
      bind_of_ok (releaseRequirement_known (graph.completed id unit artifact) (hk id))] at h
    simp only [updateUnit, tryChange, he, bind, Except.bind] at h
    cases h
    refine ⟨rfl, ?_⟩
    unfold released completed
    simp only
    rw [Arena.get?_modify, if_pos rfl, hx]
    rfl

/-- What is no placeholder is not declared, and nothing changes. -/
theorem declareType_refused (h : declareType id unit artifact graph = (.error e, after))
    (hs : (graph.types.get? id).map (·.isComplete) ≠ some false) :
    e ≠ .unknownId .unit unit.index ∧ after = graph := by
  cases hx : graph.types.get? id with
  | none =>
    have hc : (check fun graph : Graph => graph.types.get id : GraphAction TypeNode) graph =
        (.error (.unknownId .type id.index), graph) := by simp [check, Arena.get, hx]
    unfold declareType at h
    rw [bind_of_error hc] at h
    cases h
    exact ⟨by simp, rfl⟩
  | some x =>
    have hc : x.isComplete = true := by simpa [hx] using hs
    obtain ⟨existing, hstate⟩ := TypeNode.isComplete_eq_true.1 hc
    rw [declareType_complete unit artifact hx hstate] at h
    cases h
    exact ⟨by simp, rfl⟩

end Graph

/-- A new type changes the graph. -/
private theorem Graph.withType_ne (graph : Graph) (name : QualifiedName) (home : Universe) :
    graph.withType name home ≠ graph := by
  intro h
  have hs := congrArg (·.types.size) h
  unfold withType at hs
  simp at hs

/-- A unit that is not known is what a failing operation trips over. -/
inductive Scope.Failure (unit : UnitId) (before after : Store) (e : GraphError) : Prop where
  /-- Something else is wrong, and nothing is changed. -/
  | harmless : e ≠ .unknownId .unit unit.index → after = before → Failure unit before after e
  /-- The unit is not known, and the graph is changed. -/
  | untidy : e = .unknownId .unit unit.index → after.graph ≠ before.graph →
      Failure unit before after e

namespace ArtifactScope

variable {scope : ArtifactScope} {name : QualifiedName} {unit : UnitId} {store after : Store}
  {e : GraphError}

/-- What a failed requirement leaves. -/
theorem require_failed (h : scope.require name unit store = (.error e, after)) :
    Scope.Failure unit store after e := by
  obtain ⟨graph, answers⟩ := store
  cases hk : scope.known.find? name with
  | some id =>
    rw [require_known hk] at h
    cases h
  | none =>
    unfold require at h
    simp only [hk] at h
    cases ht : graph.typeIn? name.text (some scope.artifact) with
    | some id =>
      rw [bind_of_ok (Store.onGraph_run (placeholder_existing ht))] at h
      cases h
    | none =>
      cases hu : graph.units.get? unit with
      | some node =>
        rw [bind_of_ok (Store.onGraph_run (placeholder_new ht hu))] at h
        cases h
      | none =>
        have he := Arena.update_eq_error_iff (f := fun node : CompilationUnit =>
          { node with requiredTypes := node.requiredTypes ++ [graph.types.nextId] }) |>.2 ⟨hu, rfl⟩
        have hrun : placeholder scope.artifact name unit graph =
            (.error (.unknownId .unit unit.index), graph.withType name (some scope.artifact)) := by
          unfold placeholder
          rw [read_bind, ht]
          simp only
          rw [bind_of_ok (Graph.addType_run name (some scope.artifact))]
          apply bind_of_error
          apply bind_of_error
          unfold Graph.withType
          simp only [Graph.updateUnit, tryChange, he, bind, Except.bind]
        rw [bind_of_error (Store.onGraph_run hrun)] at h
        cases h
        exact .untidy rfl (Graph.withType_ne graph name _)

/-- What a failed resolution leaves. -/
theorem resolve_failed (h : scope.resolve name unit store = (.error e, after)) :
    Scope.Failure unit store after e := by
  cases hc : scope.cached? name with
  | some id =>
    rw [resolve_cached hc] at h
    cases h
  | none =>
    rw [resolve_new hc] at h
    split at h
    · next found hf =>
      cases h
      refine .harmless ?_ rfl
      rintro rfl
      split at hf
      · cases hf
      · unfold Store.findDeclaredType Store.query at hf
        split at hf <;> cases hf
    · cases h
    · exact require_failed h

/-- What a failed declaration leaves. -/
theorem declare_failed (hk : store.graph.RequirersKnown)
    (h : scope.declare name unit store = (.error e, after)) : Scope.Failure unit store after e := by
  obtain ⟨graph, answers⟩ := store
  have hfailed : ∀ {id : TypeId} {middle : Graph} {value : TypeId × ArtifactScope},
      (((Graph.declareType id unit (some scope.artifact) middle).1.map fun _ => value,
        ⟨(Graph.declareType id unit (some scope.artifact) middle).2, answers⟩) :
          Except GraphError (TypeId × ArtifactScope) × Store) = (.error e, after) →
      ∃ left, Graph.declareType id unit (some scope.artifact) middle = (.error e, left) ∧
        after = ⟨left, answers⟩ := by
    intro id middle value h
    cases hd : Graph.declareType id unit (some scope.artifact) middle with
    | mk result left =>
      rw [hd] at h
      cases result with
      | ok value => cases h
      | error e =>
        cases h
        exact ⟨left, rfl, rfl⟩
  rw [declare_run] at h
  cases hn : scope.known.find? name with
  | some id =>
    rw [hn] at h
    obtain ⟨left, hd, rfl⟩ := hfailed h
    by_cases hs : (graph.types.get? id).map (·.isComplete) = some false
    · obtain ⟨x, hx, hx'⟩ := Option.map_eq_some_iff.1 hs
      obtain ⟨he, hafter⟩ := Graph.declareType_placeholder_failed hk hx hx' hd
      refine .untidy he fun hg => ?_
      simp only at hg
      rw [hg, hs] at hafter
      cases hafter
    · obtain ⟨he, rfl⟩ := Graph.declareType_refused hd hs
      exact .harmless he rfl
  | none =>
    rw [hn] at h
    obtain ⟨left, hd, rfl⟩ := hfailed h
    have hk' : (graph.withType name (some scope.artifact)).RequirersKnown := hk
    obtain ⟨he, hafter⟩ := Graph.declareType_placeholder_failed hk'
      (Graph.get?_withType_nextId graph name _) rfl hd
    refine .untidy he fun hg => ?_
    simp only at hg
    rw [hg, Arena.get?_nextId] at hafter
    cases hafter

end ArtifactScope

namespace GlobalScope

variable {name : QualifiedName} {unit : UnitId} {store after : Store} {e : GraphError}

/-- A failed resolution changes nothing. -/
theorem resolve_failed (h : resolve name store = (.error e, after)) : after = store := by
  obtain ⟨graph, answers⟩ := store
  rw [resolve_run] at h
  split at h
  · split at h <;> cases h
  · cases h
    rfl

/-- A failed declaration changes nothing, since the unit is looked up first. -/
theorem declare_failed (hk : store.graph.RequirersKnown)
    (h : declare name unit store = (.error e, after)) : after = store := by
  obtain ⟨graph, answers⟩ := store
  cases hu : graph.units.get? unit with
  | none =>
    have hc : (check fun graph : Graph => graph.units.get unit : GraphAction CompilationUnit)
        graph = (.error (.unknownId .unit unit.index), graph) := by simp [check, Arena.get, hu]
    unfold declare at h
    rw [Store.onGraph_run (bind_of_error hc)] at h
    cases h
    rfl
  | some source =>
    -- The unit is known, so only a declared type is refused.
    have hrefused : ∀ {id : TypeId} {middle left : Graph}, middle.RequirersKnown →
        middle.units = graph.units →
        Graph.declareType id unit source.artifact middle = (.error e, left) →
        (middle.types.get? id).map (·.isComplete) ≠ some false ∧ left = middle := by
      intro id middle left hm hunits hd
      have hs : (middle.types.get? id).map (·.isComplete) ≠ some false := by
        intro hs
        obtain ⟨x, hx, hx'⟩ := Option.map_eq_some_iff.1 hs
        rw [Graph.declareType_placeholder middle source.artifact hx hx' (hunits ▸ hu) (hm id)] at hd
        cases hd
      exact ⟨hs, (Graph.declareType_refused hd hs).2⟩
    have hrun : ∀ {id : TypeId} {middle : Graph}, typeFor name graph = (.ok id, middle) →
        ∃ left, Graph.declareType id unit source.artifact middle = (.error e, left) ∧
          after = ⟨left, answers⟩ := by
      intro id middle ht
      rw [declare_of_run hu ht] at h
      cases hd : Graph.declareType id unit source.artifact middle with
      | mk result left =>
        rw [hd] at h
        cases result with
        | ok value => cases h
        | error e =>
          cases h
          exact ⟨left, rfl, rfl⟩
    cases hg : graph.globalType? name with
    | some id =>
      obtain ⟨left, hd, rfl⟩ := hrun (typeFor_existing hg)
      rw [(hrefused hk rfl hd).2]
    | none =>
      obtain ⟨left, hd, -⟩ := hrun (typeFor_new hg)
      have hk' : (graph.withType name none).RequirersKnown := hk
      refine absurd ?_ (hrefused hk' rfl hd).1
      rw [Graph.get?_withType_nextId graph name none]
      rfl

end GlobalScope

/-! ### Failing steps of a session -/

namespace Session

variable {request : Request} {name : QualifiedName} {unit : UnitId} {scope : Scope}
  {store after : Store} {e : GraphError}

/-- A scope changes nothing if it fails, unless it is the scope of an artifact and the unit is not
known. -/
theorem Request.failed_iff (hk : store.graph.RequirersKnown)
    (h : request.operation name unit scope store = (.error e, after)) :
    after = store ↔ scope.isGlobal = true ∨ e ≠ .unknownId .unit unit.index := by
  have hmap : ∀ {α : Type} {f : α → TypeId × Scope} {result : Except GraphError α × Store},
      (result.1.map f, result.2) = (.error e, after) → result = (.error e, after) := by
    rintro α f ⟨result | value, left⟩ h
    · cases h
      rfl
    · cases h
  cases scope with
  | global =>
    refine iff_of_true ?_ (.inl rfl)
    cases request with
    | resolve =>
      rw [operation, Scope.resolve_global] at h
      exact GlobalScope.resolve_failed (hmap h)
    | require =>
      rw [operation, Scope.require_global, Scope.resolve_global] at h
      exact GlobalScope.resolve_failed (hmap h)
    | declare =>
      rw [operation, Scope.declare_global] at h
      exact GlobalScope.declare_failed hk (hmap h)
  | ofArtifact own =>
    have hf : Scope.Failure unit store after e := by
      cases request with
      | resolve =>
        rw [operation, Scope.resolve_ofArtifact] at h
        exact ArtifactScope.resolve_failed (hmap h)
      | require =>
        rw [operation, Scope.require_ofArtifact] at h
        exact ArtifactScope.require_failed (hmap h)
      | declare =>
        rw [operation, Scope.declare_ofArtifact] at h
        exact ArtifactScope.declare_failed hk (hmap h)
    rcases hf with ⟨he, ha⟩ | ⟨he, hne⟩
    · exact iff_of_true ha (.inr he)
    · refine iff_of_false (fun ha => hne (congrArg (·.graph) ha)) ?_
      rintro (hg | hn)
      · cases hg
      · exact hn he

/-- What can be done with a session whose scopes are nested, files included. -/
inductive MixedStep where
  | nested (step : NestedStep)
  /-- Scan a source file in the innermost scope, if there is one. -/
  | scan (config : ScanConfig) (path text : String)
  | scanText (path text : String)

/-- The session after a step, whether it succeeds or fails. -/
def MixedStep.run (session : Session) : MixedStep → Session
  | .nested step => step.run session
  | .scan config path text => Step.run session (.scan config path text)
  | .scanText path text => Step.run session (.scanText path text)

/-- The session after some steps, beginning with an empty store. -/
def runMixed (steps : List MixedStep) : Session := steps.foldl MixedStep.run {}

/-- Every step keeps what whatever is done in a session keeps. -/
theorem enduring_step {R : Graph → Graph → Prop} [h : Graph.Enduring R] (session : Session)
    (step : MixedStep) :
    R session.project.store.graph (step.run session).project.store.graph := by
  cases step with
  | scanText path text =>
    exact h.sameLedger (Project.sameLedger_scanText session.project path text)
  | scan config path text =>
    have hk : Keeps (OpenProject.OnGraph R) (OpenProject.scanSource config path text) :=
      inferInstance
    unfold MixedStep.run Step.run inScope?
    cases session.scopes with
    | nil => exact Guarantee.refl _
    | cons scope rest => exact hk.keeps { session.project with scope }
  | nested step =>
    cases step with
    | addArtifact name dependencies => exact (h.addArtifact name dependencies).keeps _
    | addUnit path artifact => exact (h.addUnit path artifact).keeps _
    | answer answers => exact Guarantee.refl _
    | enter artifact =>
      unfold MixedStep.run NestedStep.run Session.enter
      simp only
      split <;> exact Guarantee.refl _
    | ask request name unit =>
      cases hs : session.scopes with
      | nil =>
        unfold MixedStep.run NestedStep.run inScope?
        simp only [hs]
        exact Guarantee.refl _
      | cons scope rest =>
        have hk : Keeps (Store.OnGraph R) (request.operation name unit scope) := by
          unfold Request.operation
          cases request <;> infer_instance
        unfold MixedStep.run
        rw [graph_ask hs]
        exact hk.keeps session.project.store
    | leave =>
      unfold MixedStep.run NestedStep.run leave?
      cases session.scopes with
      | nil => exact Guarantee.refl _
      | cons scope rest => exact Keeps.keeps (R := Store.OnGraph R) session.project.store

/-- In every run the units that are listed for placeholders are known. -/
private theorem requirersKnown_runMixed (steps : List MixedStep) :
    (runMixed steps).project.store.graph.RequirersKnown := by
  induction steps using List.reverseRecOn with
  | nil => exact fun type unit hm => by cases hm
  | append_singleton steps step ih =>
    have hrun : runMixed (steps ++ [step]) = step.run (runMixed steps) := by
      simp [runMixed, List.foldl_append]
    rw [hrun]
    exact (enduring_step (R := Graph.PassesRequirers) _ step).requirers ih

/-- In a session reached by any run, an operation of the innermost scope that fails leaves the
session as it was, exactly if the scope is the global one or the failure is not that of an unknown
unit. -/
theorem run_ask_failed_iff (steps : List MixedStep) {scopes : List Scope}
    (hs : (runMixed steps).scopes = scope :: scopes)
    (hf : (request.operation name unit scope (runMixed steps).project.store).1 = .error e) :
    (NestedStep.ask request name unit).run (runMixed steps) = runMixed steps ↔
      scope.isGlobal = true ∨ e ≠ .unknownId .unit unit.index := by
  generalize hsession : runMixed steps = session at hs hf ⊢
  have hk : session.project.store.graph.RequirersKnown := hsession ▸ requirersKnown_runMixed steps
  obtain ⟨project, opened⟩ := session
  cases hs
  cases hr : request.operation name unit scope project.store with
  | mk result after =>
    rw [hr] at hf
    cases hf
    rw [← Request.failed_iff hk hr]
    unfold NestedStep.run inScope? OpenProject.inScope
    simp only [hr]
    obtain ⟨store, files⟩ := project
    simp

/-- What an operation of the open scopes fails with. -/
private def failures (session : Session) (request : Request) (name : QualifiedName)
    (unit : UnitId) : List (Option GraphError) :=
  session.scopes.map fun scope =>
    match (request.operation name unit scope session.project.store).1 with
    | .ok _ => none
    | .error e => some e

private theorem of_failures {session : Session} {failure : GraphError}
    (h : session.failures request name unit = [some failure]) :
    ∃ scope, session.scopes = [scope] ∧
      (request.operation name unit scope session.project.store).1 = .error failure := by
  unfold failures at h
  obtain ⟨scope, hs, hf⟩ := List.map_eq_singleton_iff.1 h
  refine ⟨scope, hs, ?_⟩
  split at hf
  · cases hf
  · next he =>
    cases hf
    exact he

/-- A unit declares a name. -/
def declaredOnce : List MixedStep :=
  [.nested (.addArtifact "app" []), .nested (.addUnit "A.java" (some ⟨0⟩)),
    .nested (.enter (some ⟨0⟩)), .nested (.ask .declare missedName ⟨0⟩)]

/-- If it declares the name again, nothing is changed. -/
theorem run_ask_failed_duplicate :
    ∃ scope, (runMixed declaredOnce).scopes = [scope] ∧
      (Request.declare.operation missedName ⟨0⟩ scope (runMixed declaredOnce).project.store).1 =
        .error (.duplicateDeclaration missedName ⟨0⟩) ∧
      (NestedStep.ask .declare missedName ⟨0⟩).run (runMixed declaredOnce) =
        runMixed declaredOnce := by
  have h : (runMixed declaredOnce).failures .declare missedName ⟨0⟩ =
      [some (.duplicateDeclaration missedName ⟨0⟩)] := by decide +kernel
  obtain ⟨scope, hs, hf⟩ := of_failures h
  exact ⟨scope, hs, hf, (run_ask_failed_iff declaredOnce hs hf).2 (.inr (by decide))⟩

/-- The scope of an artifact that has no units. -/
def unitless : List MixedStep :=
  [.nested (.addArtifact "app" []), .nested (.enter (some ⟨0⟩))]

/-- A name that is resolved for a unit that there is not fails, and gets a type all the same. -/
theorem run_ask_unknownUnit_ne :
    ∃ scope, (runMixed unitless).scopes = [scope] ∧
      (Request.resolve.operation missedName ⟨0⟩ scope (runMixed unitless).project.store).1 =
        .error (.unknownId .unit 0) ∧
      (NestedStep.ask .resolve missedName ⟨0⟩).run (runMixed unitless) ≠ runMixed unitless := by
  have h : (runMixed unitless).failures .resolve missedName ⟨0⟩ =
      [some (.unknownId .unit 0)] := by decide +kernel
  have hbefore : (runMixed unitless).project.store.graph.types.size = 0 := by decide +kernel
  have hafter : ((NestedStep.ask .resolve missedName ⟨0⟩).run
      (runMixed unitless)).project.store.graph.types.size = 1 := by decide +kernel
  obtain ⟨scope, hs, hf⟩ := of_failures h
  refine ⟨scope, hs, hf, fun heq => ?_⟩
  rw [heq, hbefore] at hafter
  cases hafter

end Session

end JavaGraph
