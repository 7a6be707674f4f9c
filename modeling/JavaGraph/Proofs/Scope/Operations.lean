import JavaGraph.Proofs.Graph.Names
import JavaGraph.Scope.Basic
/-!
# What the operations of a scope do

A scope that knows exactly the types of its universe answers by its own table. `Scope.Fits` says
that it does, and the equations say what each operation gives and the graph it leaves.
-/

namespace JavaGraph

/-! ### Scopes that fit a graph -/

namespace Graph

/-- No placeholder is held for a unit. -/
def Unheld (graph : Graph) : Prop :=
  ∀ {id type}, graph.types.get? id = some type → type.state.requiredBy = none

end Graph

/-- A scope knows exactly the types of its universe, and it created all placeholders that are held
for a unit. -/
structure ArtifactScope.Fits (scope : ArtifactScope) (graph : Graph) : Prop where
  artifact_known : ∃ node, graph.artifacts.get? scope.artifact = some node
  known_iff : ∀ {name id}, scope.known.find? name = some id ↔
    ∃ type, graph.types.get? id = some type ∧ type.name = name ∧ type.home = some scope.artifact
  created_of_held : ∀ {id type unit}, graph.types.get? id = some type →
    type.state.requiredBy = some unit → id ∈ scope.created
  created_known : ∀ {id}, id ∈ scope.created → ∃ type, graph.types.get? id = some type

/-- The global scope has no table, and nothing is held while it is open. -/
def Scope.Fits (graph : Graph) : Scope → Prop
  | .ofArtifact scope => scope.Fits graph
  | .global => graph.Unheld

/-- A unit belongs to the universe of a scope. -/
def Scope.Serves (graph : Graph) (scope : Scope) (unit : UnitId) : Prop :=
  ∃ node, graph.units.get? unit = some node ∧ node.artifact = scope.artifact?

/-- An action on the graph leaves everything else of the store as it is. -/
theorem Store.onGraph_run {α : Type} {action : GraphAction α} {graph after : Graph}
    {answers : Bool} {result : Except GraphError α} (h : action graph = (result, after)) :
    Store.onGraph action ⟨graph, answers⟩ = (result, ⟨after, answers⟩) := by
  unfold Store.onGraph Action.within
  simp only [h]

variable {graph : Graph} {answers : Bool} {name : QualifiedName} {unit : UnitId}

namespace ArtifactScope

variable {scope : ArtifactScope}

/-- A name that a fitting scope does not know has no type in its universe. -/
theorem Fits.lacks (h : scope.Fits graph) (hn : scope.known.find? name = none) :
    graph.Lacks name (some scope.artifact) := by
  intro id type ht hname hhome
  have hs := h.known_iff.2 ⟨type, ht, hname, hhome⟩
  rw [hn] at hs
  cases hs

end ArtifactScope

namespace Graph

/-- A universe that lacks a name answers so. -/
theorem Lacks.typeIn?_eq_none {home : Universe} (h : graph.Lacks name home) :
    graph.typeIn? name.text home = none := by
  cases hn : graph.typeIn? name.text home with
  | none => rfl
  | some id =>
    obtain ⟨type, ht, hname, hhome⟩ := get?_of_typeIn? hn
    exact absurd hhome (h ht (QualifiedName.text_inj.1 hname))

/-- If nothing is found under a name, the universe lacks it. -/
theorem lacks_of_typeIn? {home : Universe} (h : graph.typeIn? name.text home = none) :
    graph.Lacks name home := by
  intro id type ht hname
  exact ne_of_typeIn?_eq_none h ht (hname ▸ rfl)

end Graph

/-! ### Placeholders -/

namespace ArtifactScope

variable {scope : ArtifactScope}

/-- A name that has a type needs no placeholder. -/
theorem placeholder_existing {artifact : ArtifactId} {id : TypeId}
    (h : graph.typeIn? name.text (some artifact) = some id) :
    placeholder artifact name unit graph = (.ok (id, false), graph) := by
  unfold placeholder
  rw [Action.read_bind, h]
  rfl

/-- A name without a type gets a placeholder that is held for the unit. -/
theorem placeholder_new {artifact : ArtifactId} {source : CompilationUnit}
    (h : graph.typeIn? name.text (some artifact) = none)
    (hu : graph.units.get? unit = some source) :
    placeholder artifact name unit graph =
      (.ok (graph.types.nextId, true), graph.withPlaceholder artifact name unit) := by
  unfold placeholder
  rw [Action.read_bind, h]
  simp only
  have ht : ((graph.withType name (some artifact)).withRequirement unit
      graph.types.nextId).types.get? graph.types.nextId = some { name, home := some artifact } :=
    Graph.get?_withType_nextId ..
  rw [Action.bind_of_ok (Graph.addType_run name (some artifact)),
    Action.bind_of_ok (Graph.addRequirement_known (graph.withType name (some artifact))
      graph.types.nextId hu),
    Action.bind_of_ok (Graph.updateType_known _ ht)]
  unfold Graph.withPlaceholder Graph.withRequirement Graph.withType
  simp only [Arena.modify_push]
  rfl

/-- What a scope knows it does not look up. -/
theorem require_known {store : Store} {id : TypeId} (h : scope.known.find? name = some id) :
    scope.require name unit store = (.ok (id, scope), store) := by
  unfold require
  rw [h]
  rfl

/-- A scope with a new placeholder. -/
def withCreated (scope : ArtifactScope) (name : QualifiedName) (id : TypeId) : ArtifactScope :=
  { scope with known := scope.known.insert name id, created := scope.created ++ [id] }

/-- A name that its universe lacks gets a placeholder. -/
theorem require_new {source : CompilationUnit} (h : scope.known.find? name = none)
    (hl : graph.Lacks name (some scope.artifact)) (hu : graph.units.get? unit = some source) :
    scope.require name unit ⟨graph, answers⟩ =
      (.ok (graph.types.nextId, scope.withCreated name graph.types.nextId),
        ⟨graph.withPlaceholder scope.artifact name unit, answers⟩) := by
  unfold require
  rw [h]
  simp only
  rw [Action.bind_of_ok (Store.onGraph_run (placeholder_new hl.typeIn?_eq_none hu))]
  rfl

/-- What a scope has found is not looked up again. -/
theorem resolve_cached {store : Store} {id : TypeId} (h : scope.cached? name = some id) :
    scope.resolve name unit store = (.ok (id, scope), store) := by
  unfold resolve
  rw [h]
  rfl

/-- A scope that borrows a type. -/
def withBorrowed (scope : ArtifactScope) (name : QualifiedName) (id : TypeId) : ArtifactScope :=
  { scope with borrowed := scope.borrowed.insert name id }

/-- A name that is not known is looked up in the dependencies, and then required. -/
theorem resolve_new {store : Store} (h : scope.cached? name = none) :
    scope.resolve name unit store =
      match (if scope.dependencies.isEmpty then .ok none
        else store.findDeclaredType name scope.dependencies) with
      | .error e => (.error e, store)
      | .ok (some id) => (.ok (id, scope.withBorrowed name id), store)
      | .ok none => scope.require name unit store := by
  unfold resolve
  rw [h]
  simp only
  by_cases hd : scope.dependencies.isEmpty = true
  · simp only [hd, if_true]
    rfl
  · simp only [hd, Bool.false_eq_true, if_false]
    cases hf : store.findDeclaredType name scope.dependencies with
    | error e =>
      exact Action.bind_of_error (by simp only [Action.check, hf])
    | ok found =>
      rw [Action.check_bind (f := fun store : Store =>
        store.findDeclaredType name scope.dependencies) hf]
      cases found <;> rfl

/-! ### Declarations -/

/-- The scope that has declared a name. -/
def withDeclared (scope : ArtifactScope) (name : QualifiedName) (id : TypeId) : ArtifactScope :=
  { scope with known := scope.known.insert name id }

private theorem declareType_bind (id : TypeId) (artifact : Option ArtifactId) (after : ArtifactScope) :
    (do
      Store.onGraph (Graph.declareType id unit artifact)
      return (id, after) : StoreAction (TypeId × ArtifactScope)) ⟨graph, answers⟩ =
      ((Graph.declareType id unit artifact graph).1.map fun _ => (id, after),
        ⟨(Graph.declareType id unit artifact graph).2, answers⟩) := by
  cases hd : Graph.declareType id unit artifact graph with
  | mk result left =>
    cases result with
    | ok value => rw [Action.bind_of_ok (Store.onGraph_run hd)]; rfl
    | error e => rw [Action.bind_of_error (Store.onGraph_run hd)]; rfl

/-- A declaration completes the type that the scope knows, or a new one. -/
theorem declare_run :
    scope.declare name unit ⟨graph, answers⟩ =
      match scope.known.find? name with
      | some id =>
        ((Graph.declareType id unit (some scope.artifact) graph).1.map fun _ =>
            (id, scope.withDeclared name id),
          ⟨(Graph.declareType id unit (some scope.artifact) graph).2, answers⟩)
      | none =>
        let id := graph.types.nextId
        let middle := graph.withType name (some scope.artifact)
        ((Graph.declareType id unit (some scope.artifact) middle).1.map fun _ =>
            (id, scope.withDeclared name id),
          ⟨(Graph.declareType id unit (some scope.artifact) middle).2, answers⟩) := by
  unfold declare
  cases scope.known.find? name with
  | some id =>
    simp only
    rw [Action.pure_bind]
    exact declareType_bind id _ _
  | none =>
    simp only
    rw [Action.bind_of_ok (Store.onGraph_run (Graph.addType_run name (some scope.artifact)))]
    exact declareType_bind _ _ _

/-- A placeholder that the scope knows is declared. -/
theorem declare_known {id : TypeId} {type : TypeNode} {source : CompilationUnit}
    (hg : graph.Consistent) (h : scope.known.find? name = some id)
    (ht : graph.types.get? id = some type) (hs : type.isComplete = false)
    (hu : graph.units.get? unit = some source) :
    scope.declare name unit ⟨graph, answers⟩ =
      (.ok (id, scope.withDeclared name id),
        ⟨graph.withDeclaration id unit (some scope.artifact), answers⟩) := by
  rw [declare_run, h]
  simp only
  rw [Graph.declareType_placeholder graph _ ht hs hu hg.requirers_known]
  rfl

/-- A name that the scope does not know is declared as a new type. -/
theorem declare_new {source : CompilationUnit} (hg : graph.Consistent)
    (h : scope.known.find? name = none) (hu : graph.units.get? unit = some source) :
    scope.declare name unit ⟨graph, answers⟩ =
      (.ok (graph.types.nextId, scope.withDeclared name graph.types.nextId),
        ⟨(graph.withType name (some scope.artifact)).withDeclaration graph.types.nextId unit
          (some scope.artifact), answers⟩) := by
  rw [declare_run, h]
  simp only
  rw [Graph.declareType_placeholder (graph.withType name (some scope.artifact)) _
    (Graph.get?_withType_nextId ..) rfl hu hg.requirers_known]
  rfl

/-- A type that is declared is a duplicate, and nothing changes. -/
theorem declare_duplicate {id : TypeId} {type : TypeNode} {existing : UnitId}
    (h : scope.known.find? name = some id) (ht : graph.types.get? id = some type)
    (hs : type.state = .complete existing) :
    scope.declare name unit ⟨graph, answers⟩ =
      (.error (.duplicateDeclaration type.name existing), ⟨graph, answers⟩) := by
  rw [declare_run, h]
  simp only
  rw [Graph.declareType_complete unit (some scope.artifact) ht hs]
  rfl

end ArtifactScope

/-! ### The global scope -/

namespace GlobalScope

/-- A name that has a global type gets it. -/
theorem typeFor_existing {id : TypeId} (h : graph.globalType? name = some id) :
    typeFor name graph = (.ok id, graph) := by
  unfold typeFor
  rw [Action.read_bind, h]
  rfl

/-- A name without a global type gets a new one. -/
theorem typeFor_new (h : graph.globalType? name = none) :
    typeFor name graph = (.ok graph.types.nextId, graph.withType name none) := by
  unfold typeFor
  rw [Action.read_bind, h]
  rfl

/-- A name resolves to its global type, which is new if there is none. -/
theorem resolve_run :
    resolve name ⟨graph, answers⟩ =
      if answers then
        match graph.globalType? name with
        | some id => (.ok id, ⟨graph, answers⟩)
        | none => (.ok graph.types.nextId, ⟨graph.withType name none, answers⟩)
      else (.error (.queryFailed "connection reset"), ⟨graph, answers⟩) := by
  unfold resolve
  cases answers with
  | false => rfl
  | true =>
    have hf : Store.findGlobalType ⟨graph, true⟩ name = .ok (graph.globalType? name) := rfl
    rw [Action.check_bind (f := fun store : Store => store.findGlobalType name) hf]
    cases h : graph.globalType? name with
    | some id => rfl
    | none => exact Store.onGraph_run (typeFor_new h)

/-- A declaration for a known unit is one of the type that the name gets. -/
theorem declare_of_run {id : TypeId} {source : CompilationUnit} {middle : Graph}
    (hu : graph.units.get? unit = some source) (hi : typeFor name graph = (.ok id, middle)) :
    declare name unit ⟨graph, answers⟩ =
      ((Graph.declareType id unit source.artifact middle).1.map fun _ => id,
        ⟨(Graph.declareType id unit source.artifact middle).2, answers⟩) := by
  apply Store.onGraph_run
  rw [Graph.checkUnit_bind hu, Action.bind_of_ok hi]
  cases hd : Graph.declareType id unit source.artifact middle with
  | mk result after =>
    cases result with
    | ok value => rw [Action.bind_of_ok hd]; rfl
    | error e => rw [Action.bind_of_error hd]; rfl

/-- A global placeholder is declared. -/
theorem declare_known {id : TypeId} {type : TypeNode} {source : CompilationUnit}
    (hg : graph.Consistent) (h : graph.globalType? name = some id)
    (ht : graph.types.get? id = some type) (hs : type.isComplete = false)
    (hu : graph.units.get? unit = some source) :
    declare name unit ⟨graph, answers⟩ =
      (.ok id, ⟨graph.withDeclaration id unit source.artifact, answers⟩) := by
  rw [declare_of_run hu (typeFor_existing h),
    Graph.declareType_placeholder graph source.artifact ht hs hu hg.requirers_known]
  rfl

/-- A name without a global type is declared as a new one. -/
theorem declare_new {source : CompilationUnit} (hg : graph.Consistent)
    (h : graph.globalType? name = none) (hu : graph.units.get? unit = some source) :
    declare name unit ⟨graph, answers⟩ =
      (.ok graph.types.nextId,
        ⟨(graph.withType name none).withDeclaration graph.types.nextId unit source.artifact,
          answers⟩) := by
  rw [declare_of_run hu (typeFor_new h),
    Graph.declareType_placeholder (graph.withType name none) source.artifact
      (Graph.get?_withType_nextId ..) rfl hu hg.requirers_known]
  rfl

/-- A global type that is declared is a duplicate, and nothing changes. -/
theorem declare_duplicate {id : TypeId} {type : TypeNode} {existing : UnitId}
    {source : CompilationUnit} (h : graph.globalType? name = some id)
    (ht : graph.types.get? id = some type) (hs : type.state = .complete existing)
    (hu : graph.units.get? unit = some source) :
    declare name unit ⟨graph, answers⟩ =
      (.error (.duplicateDeclaration type.name existing), ⟨graph, answers⟩) := by
  rw [declare_of_run hu (typeFor_existing h),
    Graph.declareType_complete unit source.artifact ht hs]
  rfl

end GlobalScope

/-! ### Either scope -/

namespace Scope

variable {store : Store}

private theorem ofArtifact_bind {action : StoreAction (TypeId × ArtifactScope)} :
    (do
      let (id, scope) ← action
      return (id, Scope.ofArtifact scope) : StoreAction (TypeId × Scope)) store =
      ((action store).1.map fun (id, scope) => (id, Scope.ofArtifact scope), (action store).2) := by
  cases h : action store with
  | mk result left =>
    cases result with
    | ok value => rw [Action.bind_of_ok h]; rfl
    | error e => rw [Action.bind_of_error h]; rfl

private theorem global_bind {action : StoreAction TypeId} :
    (do return (← action, Scope.global) : StoreAction (TypeId × Scope)) store =
      ((action store).1.map fun id => (id, Scope.global), (action store).2) := by
  cases h : action store with
  | mk result left =>
    cases result with
    | ok value => rw [Action.bind_of_ok h]; rfl
    | error e => rw [Action.bind_of_error h]; rfl

/-- The scope of an artifact resolves by itself. -/
theorem resolve_ofArtifact (scope : ArtifactScope) :
    (ofArtifact scope).resolve name unit store =
      ((scope.resolve name unit store).1.map fun (id, scope) => (id, .ofArtifact scope),
        (scope.resolve name unit store).2) :=
  ofArtifact_bind

/-- The scope of an artifact requires by itself. -/
theorem require_ofArtifact (scope : ArtifactScope) :
    (ofArtifact scope).require name unit store =
      ((scope.require name unit store).1.map fun (id, scope) => (id, .ofArtifact scope),
        (scope.require name unit store).2) :=
  ofArtifact_bind

/-- The scope of an artifact declares by itself. -/
theorem declare_ofArtifact (scope : ArtifactScope) :
    (ofArtifact scope).declare name unit store =
      ((scope.declare name unit store).1.map fun (id, scope) => (id, .ofArtifact scope),
        (scope.declare name unit store).2) :=
  ofArtifact_bind

/-- The global scope resolves as it is. -/
theorem resolve_global :
    global.resolve name unit store =
      ((GlobalScope.resolve name store).1.map fun id => (id, global),
        (GlobalScope.resolve name store).2) :=
  global_bind

/-- The global scope requires what it resolves. -/
theorem require_global : global.require name unit store = global.resolve name unit store := rfl

/-- The global scope declares as it is. -/
theorem declare_global :
    global.declare name unit store =
      ((GlobalScope.declare name unit store).1.map fun id => (id, global),
        (GlobalScope.declare name unit store).2) :=
  global_bind

end Scope

end JavaGraph

/-!
## Scopes and ambiguous names

Every operation of a scope that makes a type looks the name up in the graph before, except for the
declaration in the scope of an artifact: that one looks only at what the scope knows.
-/

namespace JavaGraph

open JavaGraph.Action

/-! ### The operations of a scope -/

/-- The graph of a store keeps its names. -/
def Store.NamesKept (before after : Store) : Prop := Graph.NamesKept before.graph after.graph

instance : Action.Guarantee Store.NamesKept where
  refl store := Action.Guarantee.refl store.graph
  trans h h' := Action.Guarantee.trans (R := Graph.NamesKept) h h'

instance {α : Type} (action : GraphAction α) [h : Keeps Graph.NamesKept action] :
    Keeps Store.NamesKept (Store.onGraph action) :=
  ⟨fun store => h.keeps store.graph⟩

/-- A name without a type is looked up before a placeholder is made. -/
instance (artifact : ArtifactId) (name : QualifiedName) (unit : UnitId) :
    Keeps Graph.NamesKept (ArtifactScope.placeholder artifact name unit) := by
  constructor
  intro graph
  unfold ArtifactScope.placeholder
  rw [read_bind]
  cases h : graph.typeIn? name.text (some artifact) with
  | some id => exact Action.Guarantee.refl graph
  | none =>
    simp only
    rw [bind_of_ok (Graph.addType_run name (some artifact))]
    have hw := Graph.namesKept_withType (Graph.lacks_iff_not_has.1 (Graph.lacks_of_typeIn? h))
    have := Graph.namesKept_updateType graph.types.nextId (·.setRequiredBy (some unit)) (by
      intro type
      unfold TypeNode.setRequiredBy
      split <;> exact ⟨rfl, rfl⟩)
    exact Action.Guarantee.trans (R := Graph.NamesKept) hw (Keeps.keeps (R := Graph.NamesKept) _)

/-- A global name is looked up before a type is made. -/
instance (name : QualifiedName) : Keeps Graph.NamesKept (GlobalScope.typeFor name) := by
  constructor
  intro graph
  cases h : graph.globalType? name with
  | some id =>
    rw [GlobalScope.typeFor_existing h]
    exact Action.Guarantee.refl graph
  | none =>
    rw [GlobalScope.typeFor_new h]
    exact Graph.namesKept_withType (Graph.lacks_iff_not_has.1 (Graph.lacks_of_typeIn? h))

instance (name : QualifiedName) : Keeps Store.NamesKept (GlobalScope.resolve name) := by
  unfold GlobalScope.resolve
  refine Keeps.bind inferInstance ?_
  intro found
  cases found <;> infer_instance

instance (name : QualifiedName) (unit : UnitId) :
    Keeps Store.NamesKept (GlobalScope.declare name unit) := by
  unfold GlobalScope.declare
  infer_instance

instance (scope : ArtifactScope) (name : QualifiedName) (unit : UnitId) :
    Keeps Store.NamesKept (scope.require name unit) := by
  unfold ArtifactScope.require
  split <;> infer_instance

instance (scope : ArtifactScope) (name : QualifiedName) (unit : UnitId) :
    Keeps Store.NamesKept (scope.resolve name unit) := by
  unfold ArtifactScope.resolve
  split
  · infer_instance
  · dsimp only
    split
    · refine Keeps.bind inferInstance ?_
      intro found
      cases found <;> infer_instance
    · refine Keeps.bind inferInstance ?_
      intro found
      cases found <;> infer_instance

instance (scope : ArtifactScope) : Keeps Store.NamesKept scope.leave := by
  have := fun id => Graph.namesKept_updateType id (·.setRequiredBy none) (by
    intro type
    unfold TypeNode.setRequiredBy
    split <;> exact ⟨rfl, rfl⟩)
  unfold ArtifactScope.leave
  infer_instance

namespace Scope

instance (scope : Scope) (name : QualifiedName) (unit : UnitId) :
    Keeps Store.NamesKept (scope.resolve name unit) := by
  unfold resolve
  cases scope <;> infer_instance

instance (scope : Scope) (name : QualifiedName) (unit : UnitId) :
    Keeps Store.NamesKept (scope.require name unit) := by
  unfold require
  cases scope <;> infer_instance

instance (scope : Scope) : Keeps Store.NamesKept scope.leave := by
  unfold leave
  cases scope <;> infer_instance

/-- A scope has missed a name: it does not know the name, and its universe has it. -/
def Missed (graph : Graph) (name : QualifiedName) : Scope → Prop
  | .ofArtifact scope =>
    scope.known.find? name = none ∧ graph.Has name (some scope.artifact)
  | .global => False

variable {store : Store} {name : QualifiedName} {unit : UnitId}

/-- A declaration of a name that the scope has not missed keeps the names. -/
theorem namesKept_declare {scope : Scope} (h : ¬ scope.Missed store.graph name) :
    Store.NamesKept store (scope.declare name unit store).2 := by
  cases scope with
  | global =>
    rw [declare_global]
    exact Keeps.keeps (R := Store.NamesKept) store
  | ofArtifact scope =>
    obtain ⟨graph, answers⟩ := store
    rw [declare_ofArtifact, ArtifactScope.declare_run]
    cases hk : scope.known.find? name with
    | some id => exact Keeps.keeps (R := Graph.NamesKept) graph
    | none =>
      have hn : ¬ graph.Has name (some scope.artifact) := fun hh => h ⟨hk, hh⟩
      exact Action.Guarantee.trans (R := Graph.NamesKept) (Graph.namesKept_withType hn)
        (Keeps.keeps (R := Graph.NamesKept) _)

/-- A declaration of a name that the scope has missed makes the name ambiguous. -/
theorem ambiguous_declare {scope : Scope} (h : scope.Missed store.graph name) :
    ¬ (scope.declare name unit store).2.graph.Unambiguous := by
  cases scope with
  | global => exact h.elim
  | ofArtifact scope =>
    obtain ⟨graph, answers⟩ := store
    obtain ⟨hk, hh⟩ := h
    rw [declare_ofArtifact, ArtifactScope.declare_run, hk]
    have hd : Graph.NamesKept (graph.withType name (some scope.artifact))
        (Graph.declareType graph.types.nextId unit (some scope.artifact)
          (graph.withType name (some scope.artifact))).2 :=
      Keeps.keeps (R := Graph.NamesKept) _
    exact hd.ambiguous (Graph.ambiguous_withType hh)

end Scope

end JavaGraph
