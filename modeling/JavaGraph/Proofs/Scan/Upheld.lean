import JavaGraph.Proofs.Scan.Lifecycle
import JavaGraph.Proofs.Scope.Operations
/-!
# What scans uphold in the graph

Scopes and scans change the graph by a few operations. A relation between graphs that these keep is
kept by every scan. So a declared type stays declared by the same unit, and the main type of a unit
is always one of the types that the unit declares.
-/

namespace JavaGraph

open JavaGraph.Action

namespace Graph

/-- A relation between graphs that is kept when placeholders come in. -/
class Placing (R : Graph → Graph → Prop) : Prop extends Action.Guarantee R where
  addType : ∀ name home, Keeps R (addType name home)
  addRequirement : ∀ unit type, Keeps R (addRequirement unit type)
  /-- A placeholder is held for a unit or released. -/
  hold : ∀ id holder, Keeps R (updateType id (·.setRequiredBy holder))

/-- A relation between graphs that the operations of scopes and scans keep. -/
class Upheld (R : Graph → Graph → Prop) : Prop extends Placing R where
  declareType : ∀ type unit artifact, Keeps R (declareType type unit artifact)
  record : ∀ {α : Type} (action : GraphAction α), Keeps SameLedger action →
    Keeps SameUnits action → Keeps R action
  mainType : ∀ unit type, Keeps R (setMainType unit type)

end Graph

variable {R : Graph → Graph → Prop}

/-- The graphs of two stores are related. -/
def Store.OnGraph (R : Graph → Graph → Prop) (before after : Store) : Prop :=
  R before.graph after.graph

/-- The graphs of two states of a scan are related. -/
def ScanState.OnGraph (R : Graph → Graph → Prop) (before after : ScanState) : Prop :=
  R before.store.graph after.store.graph

/-! ### Placeholders -/

section

variable [h : Graph.Placing R]

instance : Action.Guarantee (Store.OnGraph R) where
  refl store := h.refl store.graph
  trans hab hbc := h.trans hab hbc

omit h in
instance {α : Type} (action : GraphAction α) [hk : Keeps R action] :
    Keeps (Store.OnGraph R) (Store.onGraph action) :=
  ⟨fun store => hk.keeps store.graph⟩

instance (artifact : ArtifactId) (name : QualifiedName) (unit : UnitId) :
    Keeps R (ArtifactScope.placeholder artifact name unit) := by
  have := h.addType
  have := h.addRequirement
  have := h.hold
  unfold ArtifactScope.placeholder
  refine Keeps.bind inferInstance fun found => ?_
  cases found <;> infer_instance

instance (name : QualifiedName) : Keeps R (GlobalScope.typeFor name) := by
  have := h.addType
  unfold GlobalScope.typeFor
  refine Keeps.bind inferInstance fun found => ?_
  cases found <;> infer_instance

instance (scope : ArtifactScope) (name : QualifiedName) (unit : UnitId) :
    Keeps (Store.OnGraph R) (scope.require name unit) := by
  unfold ArtifactScope.require
  split <;> infer_instance

instance (scope : ArtifactScope) (name : QualifiedName) (unit : UnitId) :
    Keeps (Store.OnGraph R) (scope.resolve name unit) := by
  unfold ArtifactScope.resolve
  split
  · infer_instance
  · dsimp only
    split <;> refine Keeps.bind inferInstance fun found => ?_ <;> cases found <;> infer_instance

instance (name : QualifiedName) : Keeps (Store.OnGraph R) (GlobalScope.resolve name) := by
  unfold GlobalScope.resolve
  refine Keeps.bind inferInstance fun found => ?_
  cases found <;> infer_instance

instance (scope : Scope) (name : QualifiedName) (unit : UnitId) :
    Keeps (Store.OnGraph R) (scope.resolve name unit) := by
  unfold Scope.resolve
  cases scope <;> infer_instance

instance (scope : Scope) (name : QualifiedName) (unit : UnitId) :
    Keeps (Store.OnGraph R) (scope.require name unit) := by
  unfold Scope.require
  cases scope <;> infer_instance

instance (scope : Scope) : Keeps (Store.OnGraph R) scope.leave := by
  have := h.hold
  unfold Scope.leave
  cases scope with
  | global => infer_instance
  | ofArtifact scope =>
    unfold ArtifactScope.leave
    infer_instance

namespace ScanState

instance : Action.Guarantee (OnGraph R) where
  refl state := h.refl state.store.graph
  trans hab hbc := h.trans hab hbc

omit h in
private theorem onGraph_inScope {operation : Scope → StoreAction (TypeId × Scope)}
    (ho : ∀ scope, Keeps (Store.OnGraph R) (operation scope)) :
    Keeps (OnGraph R) (inScope operation) := by
  constructor
  intro state
  have hk := (ho state.scope).keeps state.store
  unfold inScope
  cases hr : operation state.scope state.store with
  | mk result store =>
    rw [hr] at hk
    cases result <;> exact hk

/-- What is kept when placeholders come in is kept by the primitive steps of references. -/
instance refers_onGraph (unit : UnitId) : Refers unit (OnGraph R) where
  report _ := ⟨fun state => h.refl state.store.graph⟩
  note source target := by
    constructor
    intro state
    unfold noteDependency
    split <;> exact h.refl state.store.graph
  resolve _ := onGraph_inScope inferInstance
  require _ := onGraph_inScope inferInstance

end ScanState

end

/-! ### Declarations and scans -/

section

variable [h : Graph.Upheld R]

instance (scope : ArtifactScope) (name : QualifiedName) (unit : UnitId) :
    Keeps (Store.OnGraph R) (scope.declare name unit) := by
  have := h.addType
  have := h.declareType
  unfold ArtifactScope.declare
  dsimp only
  split <;> infer_instance

instance (name : QualifiedName) (unit : UnitId) :
    Keeps (Store.OnGraph R) (GlobalScope.declare name unit) := by
  have := h.declareType
  unfold GlobalScope.declare
  infer_instance

instance (scope : Scope) (name : QualifiedName) (unit : UnitId) :
    Keeps (Store.OnGraph R) (scope.declare name unit) := by
  unfold Scope.declare
  cases scope <;> infer_instance

namespace ScanState

/-- What the operations of the graph keep is kept by the primitive steps of scans. -/
instance (unit : UnitId) : Guarantee unit (OnGraph R) where
  toRefers := refers_onGraph unit
  declare _ := onGraph_inScope inferInstance
  record action hl hu := ⟨fun state => (h.record action hl hu).keeps state.store.graph⟩
  mainType type := ⟨fun state => (h.mainType unit type).keeps state.store.graph⟩

end ScanState

/-- A scan keeps what the operations of the graph keep. -/
theorem upheld_scanTypes (recordAccesses : Bool) (source : SourceUnit) (header : Header)
    (path : String) (root : Tree) (s : ScanState) :
    R s.store.graph (scanTypes recordAccesses source header path root s).2.store.graph :=
  Keeps.keeps (R := ScanState.OnGraph R) s

end

/-! ### Declared types -/

namespace Graph

/-- Types keep their names, and a declared type stays declared by the same unit. Artifacts are as
they were. -/
structure Persists (before after : Graph) : Prop where
  artifacts : after.artifacts = before.artifacts
  type : ∀ {id x}, before.types.get? id = some x → ∃ y, after.types.get? id = some y ∧
    y.name = x.name ∧ y.home = x.home ∧
      ∀ unit, x.state = .complete unit → y.state = .complete unit ∧ y.artifact = x.artifact

instance : Action.Guarantee Persists where
  refl _ := ⟨rfl, fun hx => ⟨_, hx, rfl, rfl, fun _ hs => ⟨hs, rfl⟩⟩⟩
  trans h h' := by
    refine ⟨h'.artifacts.trans h.artifacts, ?_⟩
    intro id x hx
    obtain ⟨y, hy, hn, hh, hs⟩ := h.type hx
    obtain ⟨z, hz, hn', hh', hs'⟩ := h'.type hy
    refine ⟨z, hz, hn'.trans hn, hh'.trans hh, fun unit hu => ?_⟩
    obtain ⟨hy', ha⟩ := hs unit hu
    obtain ⟨hz', ha'⟩ := hs' unit hy'
    exact ⟨hz', ha'.trans ha⟩

/-- What does not touch the types lets them persist. -/
theorem Persists.of_types {before after : Graph} (ha : after.artifacts = before.artifacts)
    (h : after.types = before.types) : Persists before after :=
  ⟨ha, fun hx => ⟨_, h ▸ hx, rfl, rfl, fun _ hs => ⟨hs, rfl⟩⟩⟩

/-- What does not touch the ledger lets types persist. -/
theorem Persists.of_sameLedger {before after : Graph} (h : SameLedger before after) :
    Persists before after := by
  refine ⟨h.artifacts, ?_⟩
  intro id x hx
  obtain ⟨y, hy, hn, hh, hd, ha⟩ := h.type' hx
  refine ⟨y, hy, hn, hh, fun unit hs => ⟨?_, ha⟩⟩
  rw [← TypeState.declaredBy_eq_some, hd, TypeState.declaredBy_eq_some, hs]

/-- A type that is changed, if at all, while it is a placeholder. -/
private theorem persists_updateType {graph : Graph} {id : TypeId} {x : TypeNode}
    {f : TypeNode → TypeNode} (hx : graph.types.get? id = some x) (hn : (f x).name = x.name)
    (hh : (f x).home = x.home)
    (hs : ∀ unit, x.state = .complete unit → (f x).state = .complete unit ∧
      (f x).artifact = x.artifact) : Persists graph (updateType id f graph).2 := by
  rw [updateType_known f hx]
  refine ⟨rfl, ?_⟩
  intro k y hy
  simp only
  rw [Arena.get?_modify]
  split
  · next hk =>
    obtain rfl := hk
    cases hx.symm.trans hy
    exact ⟨f x, by rw [hx]; rfl, hn, hh, hs⟩
  · exact ⟨y, hy, rfl, rfl, fun _ hs => ⟨hs, rfl⟩⟩

private theorem persists_hold (id : TypeId) (holder : Option UnitId) :
    Keeps Persists (updateType id (·.setRequiredBy holder)) := by
  constructor
  intro graph
  cases hx : graph.types.get? id with
  | none =>
    have he := Arena.update_eq_error_iff (f := (·.setRequiredBy holder)) |>.2 ⟨hx, rfl⟩
    simp only [updateType, tryChange, he, bind, Except.bind]
    exact Guarantee.refl graph
  | some x =>
    refine persists_updateType hx ?_ ?_ fun unit hs => ?_
    · unfold TypeNode.setRequiredBy
      split <;> rfl
    · unfold TypeNode.setRequiredBy
      split <;> rfl
    · unfold TypeNode.setRequiredBy
      rw [hs]
      exact ⟨hs, rfl⟩

instance (id : UnitId) (f : CompilationUnit → CompilationUnit) :
    Keeps Persists (updateUnit id f) := by
  constructor
  intro graph
  cases h : graph.units.update id f <;>
    simp only [updateUnit, tryChange, h, bind, Except.bind, pure, Except.pure] <;>
    exact .of_types rfl rfl

private theorem persists_change {f : Graph → Graph}
    (ha : ∀ graph, (f graph).artifacts = graph.artifacts)
    (h : ∀ graph, (f graph).types = graph.types) : Keeps Persists (change f : GraphAction Unit) :=
  ⟨fun graph => .of_types (ha graph) (h graph)⟩

instance (type : TypeId) : Keeps Persists (releaseRequirement type) := by
  have := persists_change (f := fun graph => { graph with requirers := graph.requirers.erase type })
    (fun _ => rfl) fun _ => rfl
  unfold releaseRequirement
  infer_instance

private theorem persists_completeType (type : TypeId) (unit : UnitId)
    (artifact : Option ArtifactId) : Keeps Persists (completeType type unit artifact) := by
  constructor
  intro graph
  unfold completeType
  cases hx : graph.types.get? type with
  | none =>
    have hc : (check fun graph : Graph => graph.types.get type : GraphAction TypeNode) graph =
        (.error (.unknownId .type type.index), graph) := by
      simp [check, Arena.get, hx]
    rw [bind_of_error hc]
    exact Guarantee.refl graph
  | some x =>
    rw [checkType_bind hx]
    split
    · exact Guarantee.refl graph
    · next hi =>
      refine persists_updateType hx rfl rfl fun other hs => ?_
      exact absurd (TypeNode.isComplete_eq_true.2 ⟨other, hs⟩) hi

instance : Upheld Persists where
  addType name home := by
    constructor
    intro graph
    rw [addType_run]
    exact ⟨rfl, fun hx => ⟨_, get?_push_of_get? _ hx, rfl, rfl, fun _ hs => ⟨hs, rfl⟩⟩⟩
  addRequirement unit type := by
    have := persists_change (f := fun graph =>
      let known := (graph.requirers.find? type).getD []
      { graph with requirers := graph.requirers.insert type (known ++ [unit]) }) (fun _ => rfl)
      fun _ => rfl
    unfold addRequirement
    infer_instance
  hold := persists_hold
  declareType type unit artifact := by
    have := persists_completeType type unit artifact
    unfold declareType
    refine Keeps.bind inferInstance fun node => ?_
    split <;> infer_instance
  record action h _ := ⟨fun graph => .of_sameLedger (h.keeps graph)⟩
  mainType unit type :=
    have h : Keeps SameLedger (setMainType unit type) := inferInstance
    ⟨fun graph => .of_sameLedger (h.keeps graph)⟩

/-! ### Main types -/

/-- The main type of every unit is one of the types that the unit declares. -/
def MainsDeclared (graph : Graph) : Prop :=
  ∀ unit node main, graph.units.get? unit = some node → node.mainType = some main →
    main ∈ node.declaredTypes

/-- That is passed on. -/
def PassesMains (before after : Graph) : Prop := before.MainsDeclared → after.MainsDeclared

instance : Action.Guarantee PassesMains where
  refl _ := id
  trans h h' := h' ∘ h

/-- What does not touch the units passes that on. -/
theorem MainsDeclared.of_units {before after : Graph} (h : before.MainsDeclared)
    (hu : after.units = before.units) : after.MainsDeclared := by
  intro unit node main hn
  rw [hu] at hn
  exact h unit node main hn

/-- A unit may change if its main type is declared then. -/
private theorem MainsDeclared.updateUnit {graph : Graph} {id : UnitId}
    {f : CompilationUnit → CompilationUnit} (h : graph.MainsDeclared)
    (hf : ∀ {node main}, graph.units.get? id = some node → (f node).mainType = some main →
      main ∈ (f node).declaredTypes) : (updateUnit id f graph).2.MainsDeclared := by
  cases hu : graph.units.get? id with
  | none =>
    have he := Arena.update_eq_error_iff (f := f) |>.2 ⟨hu, rfl⟩
    simp only [Graph.updateUnit, tryChange, he, bind, Except.bind]
    exact h
  | some node =>
    rw [updateUnit_known f hu]
    intro unit other main ho hm
    simp only at ho
    rw [Arena.get?_modify] at ho
    split at ho
    · next hk =>
      rw [hk, hu] at ho
      cases ho
      exact hf hu hm
    · exact h unit other main ho hm

/-- A unit that keeps its main type and goes on declaring what it has declared. -/
theorem passesMains_updateUnit (id : UnitId) (f : CompilationUnit → CompilationUnit)
    (hm : ∀ node, (f node).mainType = node.mainType)
    (hd : ∀ node : CompilationUnit, node.declaredTypes ⊆ (f node).declaredTypes) :
    Keeps PassesMains (updateUnit id f) := by
  constructor
  intro graph h
  refine MainsDeclared.updateUnit h fun hn hmain => hd _ (h _ _ _ hn ?_)
  rw [← hm, hmain]

private theorem passesMains_of_sameUnits {α : Type} {action : GraphAction α}
    (h : Keeps SameUnits action) : Keeps PassesMains action :=
  ⟨fun graph hm => hm.of_units (h.keeps graph)⟩

instance (id : TypeId) (f : TypeNode → TypeNode) : Keeps PassesMains (updateType id f) :=
  passesMains_of_sameUnits inferInstance

private theorem passesMains_change {f : Graph → Graph}
    (h : ∀ graph, (f graph).units = graph.units) :
    Keeps PassesMains (change f : GraphAction Unit) :=
  passesMains_of_sameUnits (sameUnits_change f h)

private theorem passesMains_releaseRequirement (type : TypeId) :
    Keeps PassesMains (releaseRequirement type) := by
  have := passesMains_change
    (f := fun graph => { graph with requirers := graph.requirers.erase type }) fun _ => rfl
  have := fun unit => passesMains_updateUnit unit (fun node =>
    { node with requiredTypes := node.requiredTypes.filter (· ≠ type) }) (fun _ => rfl)
    fun _ => List.Subset.refl _
  unfold releaseRequirement
  infer_instance

private theorem passesMains_setMainType (unit : UnitId) (type : TypeId) :
    Keeps PassesMains (setMainType unit type) := by
  constructor
  intro graph h
  unfold setMainType
  cases hu : graph.units.get? unit with
  | none =>
    have hc : (check fun graph : Graph => graph.units.get unit : GraphAction CompilationUnit)
        graph = (.error (.unknownId .unit unit.index), graph) := by
      simp [check, Arena.get, hu]
    rw [bind_of_error hc]
    exact h
  | some node =>
    rw [checkUnit_bind hu]
    split
    · next hm =>
      refine MainsDeclared.updateUnit h fun hn hmain => ?_
      cases hu.symm.trans hn
      cases hmain
      exact List.contains_iff_mem.1 hm
    · exact h

instance : Upheld PassesMains where
  addType name home := by
    have := passesMains_change (f := fun graph =>
      { graph with types := graph.types.push { name, home } }) fun _ => rfl
    unfold addType
    infer_instance
  addRequirement unit type := by
    have := passesMains_change (f := fun graph =>
      let known := (graph.requirers.find? type).getD []
      { graph with requirers := graph.requirers.insert type (known ++ [unit]) }) fun _ => rfl
    have := passesMains_updateUnit unit (fun node =>
      { node with requiredTypes := node.requiredTypes ++ [type] }) (fun _ => rfl)
      fun _ => List.Subset.refl _
    unfold addRequirement
    infer_instance
  hold _ _ := inferInstance
  declareType type unit artifact := by
    have := passesMains_releaseRequirement
    have := passesMains_updateUnit unit (fun node =>
      { node with declaredTypes := node.declaredTypes ++ [type] }) (fun _ => rfl)
      fun _ => List.subset_append_left ..
    unfold declareType completeType
    refine Keeps.bind inferInstance fun node => ?_
    split
    · infer_instance
    · refine Keeps.bind (Keeps.bind inferInstance fun other => ?_) inferInstance
      split <;> infer_instance
  record _ _ h := passesMains_of_sameUnits h
  mainType := passesMains_setMainType

end Graph

end JavaGraph
