import JavaGraph.Proofs.Graph.Members
/-!
# Graphs without their artifacts

What belongs to which artifact can be forgotten. Most operations do not look at that: they give the
same in the graph that has forgotten it, and leave the same graph but for that.
-/

namespace JavaGraph

/-! ### Arenas -/

namespace Arena

variable {kind : EntityKind} {α : Type}

/-- The arena with every node changed. -/
def map (f : α → α) (arena : Arena kind α) : Arena kind α := ⟨arena.nodes.map f⟩

variable (f g : α → α) (arena : Arena kind α)

/-- A node is found as it was changed. -/
@[simp] theorem get?_map (id : Id kind) : (arena.map f).get? id = (arena.get? id).map f := by
  simp [map, get?]

/-- There is nothing to change. -/
@[simp] theorem map_empty : map f ({} : Arena kind α) = {} := by simp [map]

/-- There are as many nodes. -/
@[simp] theorem size_map : (arena.map f).size = arena.size := by simp [map, size]

/-- The next identifier is the same. -/
@[simp] theorem nextId_map : (arena.map f).nextId = arena.nextId := by simp [nextId]

/-- Arenas with the same nodes are the same. -/
theorem ext_get? {arena after : Arena kind α} (h : ∀ id, arena.get? id = after.get? id) :
    arena = after := by
  obtain ⟨nodes⟩ := arena
  obtain ⟨nodes'⟩ := after
  congr 1
  exact Array.ext_getElem? fun i => h ⟨i⟩

/-- A new node is changed with the others. -/
theorem map_push (node : α) : (arena.push node).map f = (arena.map f).push (f node) := by
  simp [map, push]

variable {f g}

/-- Changes that do not interfere can be made in either order. -/
theorem map_modify (h : ∀ node, f (g node) = g (f node)) (id : Id kind) :
    (arena.modify id g).map f = (arena.map f).modify id g := by
  refine ext_get? fun k => ?_
  simp only [get?_map, get?_modify]
  split
  · cases arena.get? k with
    | none => rfl
    | some node => exact congrArg some (h node)
  · rfl

/-- A change that is lost. -/
theorem map_modify_eq (h : ∀ node, f (g node) = f node) (id : Id kind) :
    (arena.modify id g).map f = arena.map f := by
  refine ext_get? fun k => ?_
  simp only [get?_map, get?_modify]
  split
  · cases arena.get? k with
    | none => rfl
    | some node => exact congrArg some (h node)
  · rfl

/-- The same for a change that may fail. -/
theorem update_map (h : ∀ node, f (g node) = g (f node)) (id : Id kind) :
    (arena.map f).update id g = (arena.update id g).map (·.map f) := by
  cases hx : arena.get? id with
  | none =>
    have hx' : (arena.map f).get? id = none := by rw [get?_map, hx]; rfl
    rw [update_eq_error_iff.2 ⟨hx, rfl⟩, update_eq_error_iff.2 ⟨hx', rfl⟩]
    rfl
  | some node =>
    have hx' : (arena.map f).get? id = some (f node) := by rw [get?_map, hx]; rfl
    rw [update_of_get? g hx, update_of_get? g hx', ← map_modify arena h]
    rfl

end Arena

/-! ### What is forgotten -/

/-- The type without the artifact that it belongs to. -/
def TypeNode.unplaced (type : TypeNode) : TypeNode := { type with home := none, artifact := none }

/-- The state without the unit that a placeholder is held for. -/
def TypeState.released : TypeState → TypeState
  | .incomplete _ => .incomplete none
  | .complete unit => .complete unit

/-- The type without its artifact and without the unit that it is held for. -/
def TypeNode.forgotten (type : TypeNode) : TypeNode :=
  { type.unplaced with state := type.state.released }

/-- The unit without its artifact and without the types that it requires there. -/
def CompilationUnit.unplaced (unit : CompilationUnit) : CompilationUnit :=
  { unit with artifact := none, requiredTypes := [] }

namespace Graph

/-- The graph without its artifacts, and with every type changed. -/
def without (f : TypeNode → TypeNode) (graph : Graph) : Graph :=
  { graph with
    artifacts := {}
    units := graph.units.map CompilationUnit.unplaced
    types := graph.types.map f
    requirers := {} }

/-- The graph without its artifacts, and without what tells to which of them its types and units
belong and which types the units require, from either end. -/
abbrev unplaced (graph : Graph) : Graph := graph.without TypeNode.unplaced

/-- The graph that has also forgotten for which units placeholders are held. -/
abbrev forgotten (graph : Graph) : Graph := graph.without TypeNode.forgotten

end Graph

namespace TypeNode

/-- If a type is held for no unit, only its artifact is forgotten. -/
theorem forgotten_of_unheld {type : TypeNode} (h : type.state.requiredBy = none) :
    type.forgotten = type.unplaced := by
  obtain ⟨name, home, state⟩ := type
  cases state with
  | incomplete holder =>
    obtain rfl : holder = none := h
    rfl
  | complete unit => rfl

/-- Whether the type is declared is not forgotten. -/
@[simp] theorem isComplete_forgotten (type : TypeNode) :
    type.forgotten.isComplete = type.isComplete := by
  obtain ⟨name, home, state⟩ := type
  cases state <;> rfl

/-- What is forgotten cannot be forgotten again. -/
@[simp] theorem forgotten_forgotten (type : TypeNode) : type.forgotten.forgotten = type.forgotten := by
  obtain ⟨name, home, state⟩ := type
  cases state <;> rfl

/-- For which unit a type is held is forgotten. -/
theorem forgotten_setRequiredBy (type : TypeNode) (holder : Option UnitId) :
    (type.setRequiredBy holder).forgotten = type.forgotten := by
  obtain ⟨name, home, state⟩ := type
  cases state <;> rfl

end TypeNode

namespace Graph

variable {graph : Graph}

/-! ### Operations that do not look at artifacts -/

open JavaGraph.Action

/-- What may change in a graph without being noticed when types and members are recorded:
artifacts and requirers, and of units and types whatever does not interfere with that. -/
structure Blur where
  artifacts : Arena .artifact Artifact → Arena .artifact Artifact
  units : CompilationUnit → CompilationUnit
  types : TypeNode → TypeNode
  requirers : Table TypeId (List UnitId) → Table TypeId (List UnitId)
  declaredTypes : ∀ unit, (units unit).declaredTypes = unit.declaredTypes
  mainType : ∀ main unit,
    units { unit with mainType := main } = { units unit with mainType := main }
  recorded : ∀ {f : TypeNode → TypeNode}, (∀ type, (f type).forgotten = f type.forgotten) →
    ∀ type, types (f type) = f (types type)

namespace Blur

/-- The graph in which that is changed. -/
def apply (blur : Blur) (graph : Graph) : Graph :=
  { graph with
    artifacts := blur.artifacts graph.artifacts
    units := graph.units.map blur.units
    types := graph.types.map blur.types
    requirers := blur.requirers graph.requirers }

/-- Artifacts are forgotten, and for which units types are held: this gives `Graph.forgotten`. -/
def forgetting : Blur where
  artifacts _ := {}
  units := CompilationUnit.unplaced
  types := TypeNode.forgotten
  requirers _ := {}
  declaredTypes _ := rfl
  mainType _ _ := rfl
  recorded h := h

variable (blur : Blur)

/-- A type is changed. -/
theorem commutes_updateType (id : TypeId) {f : TypeNode → TypeNode}
    (h : ∀ type, (f type).forgotten = f type.forgotten) :
    Commutes blur.apply (updateType id f) := by
  refine commutes_tryChange fun graph => ?_
  simp only [apply, Arena.update_map graph.types (blur.recorded h)]
  cases graph.types.update id f <;> rfl

/-- A unit is changed. -/
theorem commutes_updateUnit (id : UnitId) {f : CompilationUnit → CompilationUnit}
    (h : ∀ unit, blur.units (f unit) = f (blur.units unit)) :
    Commutes blur.apply (updateUnit id f) := by
  refine commutes_tryChange fun graph => ?_
  simp only [apply, Arena.update_map graph.units h]
  cases graph.units.update id f <;> rfl

instance (id : FunctionId) (f : Function → Function) :
    Commutes blur.apply (updateFunction id f) := by
  refine commutes_tryChange fun graph => ?_
  simp only [apply]
  cases graph.functions.update id f <;> rfl

instance (field : Field) : Commutes blur.apply (addField field) := by
  have := commutes_read (ε := GraphError) (φ := blur.apply) (f := fun graph => graph.fields.nextId)
    fun _ => rfl
  have := fun id : FieldId => blur.commutes_updateType field.declaringType
    (f := fun node => { node with fields := node.fields ++ [id] }) fun _ => rfl
  have := commutes_change (ε := GraphError) (φ := blur.apply)
    (f := fun graph => { graph with fields := graph.fields.push field }) fun _ => rfl
  unfold addField
  infer_instance

instance (function : Function) : Commutes blur.apply (addFunction function) := by
  have := commutes_read (ε := GraphError) (φ := blur.apply)
    (f := fun graph => graph.functions.nextId) fun _ => rfl
  have := fun id : FunctionId => blur.commutes_updateType function.declaringType
    (f := fun node => { node with functions := node.functions ++ [id] }) fun _ => rfl
  have := commutes_change (ε := GraphError) (φ := blur.apply)
    (f := fun graph => { graph with functions := graph.functions.push function }) fun _ => rfl
  unfold addFunction
  infer_instance

instance (parameter : Parameter) : Commutes blur.apply (addParameter parameter) := by
  have := commutes_read (ε := GraphError) (φ := blur.apply)
    (f := fun graph => graph.parameters.nextId) fun _ => rfl
  have := commutes_change (ε := GraphError) (φ := blur.apply)
    (f := fun graph => { graph with parameters := graph.parameters.push parameter }) fun _ => rfl
  unfold addParameter
  infer_instance

instance (access : Access) : Commutes blur.apply (addAccess access) := by
  have := commutes_check (ε := GraphError) (φ := blur.apply)
    (f := fun graph => graph.functions.get access.function) fun _ => rfl
  have := commutes_check (ε := GraphError) (φ := blur.apply)
    (f := fun graph => graph.fields.get access.field) fun _ => rfl
  have := commutes_change (ε := GraphError) (φ := blur.apply)
    (f := fun graph => { graph with accesses := graph.accesses.push access }) fun _ => rfl
  unfold addAccess
  infer_instance

instance (unit : UnitId) (type : TypeId) : Commutes blur.apply (setMainType unit type) := by
  have hupdate := blur.commutes_updateUnit unit (blur.mainType (some type))
  constructor
  intro graph
  cases hu : graph.units.get? unit with
  | none =>
    have hu' : (blur.apply graph).units.get? unit = none := by simp [apply, hu]
    have hfail : ∀ {graph : Graph}, graph.units.get? unit = none →
        setMainType unit type graph = (.error (.unknownId .unit unit.index), graph) := by
      intro graph hu
      exact bind_of_error (by simp [check, Arena.get, hu])
    unfold CommutesAt
    rw [hfail hu, hfail hu']
  | some node =>
    have hu' : (blur.apply graph).units.get? unit = some (blur.units node) := by simp [apply, hu]
    unfold CommutesAt setMainType
    rw [checkUnit_bind hu, checkUnit_bind hu', blur.declaredTypes]
    split
    · exact hupdate.commutes graph
    · rfl

end Blur

/-! ### Placeholders and declarations -/

/-- A placeholder comes in for a universe. -/
theorem forgotten_withType (graph : Graph) (name : QualifiedName) (home : Universe) :
    (graph.withType name home).forgotten = graph.forgotten.withType name none := by
  simp only [forgotten, without, withType, Arena.map_push]
  rfl

/-- A placeholder comes in that a unit requires. -/
theorem forgotten_withPlaceholder (graph : Graph) (artifact : ArtifactId) (name : QualifiedName)
    (unit : UnitId) :
    (graph.withPlaceholder artifact name unit).forgotten = graph.forgotten.withType name none := by
  simp only [forgotten, without, withPlaceholder, withRequirement, withType, Arena.map_push,
    Arena.map_modify_eq graph.units (f := CompilationUnit.unplaced) (g := fun node =>
      { node with requiredTypes := node.requiredTypes ++ [graph.types.nextId] }) fun _ => rfl]
  rfl

/-- A placeholder is declared. -/
theorem forgotten_withDeclaration (graph : Graph) (type : TypeId) (unit : UnitId)
    (artifact : Option ArtifactId) :
    (graph.withDeclaration type unit artifact).forgotten =
      graph.forgotten.withDeclaration type unit none := by
  have htypes : (graph.withDeclaration type unit artifact).forgotten.types =
      (graph.forgotten.withDeclaration type unit none).types := by
    refine Arena.ext_get? fun k => ?_
    rw [get?_types_withDeclaration]
    simp only [without, Arena.get?_map, get?_types_withDeclaration]
    split
    · cases graph.types.get? k <;> rfl
    · rfl
  have hunits : (graph.withDeclaration type unit artifact).forgotten.units =
      (graph.forgotten.withDeclaration type unit none).units := by
    refine Arena.ext_get? fun k => ?_
    rw [get?_units_withDeclaration]
    simp only [without, Arena.get?_map, get?_units_withDeclaration]
    cases graph.units.get? k with
    | none => rfl
    | some node => simp [CompilationUnit.unplaced, Table.find?]
  change Graph.mk _ (graph.withDeclaration type unit artifact).forgotten.units
    (graph.withDeclaration type unit artifact).forgotten.types _ _ _ _ _ _ _ = _
  rw [htypes, hunits]
  rfl

end Graph

end JavaGraph

/-!
## Graphs without the dependencies of an artifact

What an artifact depends on is listed in the artifact and in each of its units. These lists are read
when a scope is entered and when a unit is made; everything else does the same if they are empty.
-/

namespace JavaGraph

open JavaGraph.Action

/-- The unit, without its dependencies if it belongs to an artifact. -/
def CompilationUnit.withoutDependencies (artifact : ArtifactId) (unit : CompilationUnit) :
    CompilationUnit :=
  if unit.artifact = some artifact then { unit with dependencies := [] } else unit

namespace Graph

/-- The graph in which an artifact and its units depend on nothing. -/
def withoutDependencies (artifact : ArtifactId) (graph : Graph) : Graph :=
  { graph with
    artifacts := graph.artifacts.modify artifact fun node => { node with dependencies := [] }
    units := graph.units.map (·.withoutDependencies artifact) }

variable {graph : Graph} {artifact : ArtifactId}

/-! ### Operations that do not look at dependencies -/

/-- Members and main types are recorded without a look at dependencies. -/
theorem commutes_withoutDependencies {α : Type} {action : GraphAction α}
    (h : ∀ blur : Blur, Commutes blur.apply action) :
    Commutes (withoutDependencies artifact) action := by
  let blur : Blur := {
    artifacts := (·.modify artifact fun node => { node with dependencies := [] })
    units := (·.withoutDependencies artifact)
    types := id
    requirers := id
    declaredTypes := fun unit => by
      unfold CompilationUnit.withoutDependencies
      split <;> rfl
    mainType := fun main unit => by
      unfold CompilationUnit.withoutDependencies
      split <;> rfl
    recorded := fun _ _ => rfl }
  have hblur : blur.apply = withoutDependencies artifact := by
    funext graph
    have htypes : graph.types.map id = graph.types := Arena.ext_get? fun id => by simp
    unfold Blur.apply withoutDependencies
    rw [htypes]
    rfl
  rw [← hblur]
  exact h blur

instance (id : TypeId) (f : TypeNode → TypeNode) :
    Commutes (withoutDependencies artifact) (updateType id f) := by
  refine commutes_tryChange fun graph => ?_
  simp only [withoutDependencies]
  cases graph.types.update id f <;> rfl

/-- What changes in a unit is not what it depends on. -/
theorem commutes_updateUnit (artifact : ArtifactId) (id : UnitId)
    {f : CompilationUnit → CompilationUnit}
    (h : ∀ unit : CompilationUnit,
      (f unit).withoutDependencies artifact = f (unit.withoutDependencies artifact)) :
    Commutes (withoutDependencies artifact) (updateUnit id f) := by
  refine commutes_tryChange fun graph => ?_
  simp only [withoutDependencies, Arena.update_map graph.units h]
  cases graph.units.update id f <;> rfl

instance (type : TypeId) : Commutes (withoutDependencies artifact) (releaseRequirement type) := by
  have := commutes_read (ε := GraphError) (φ := withoutDependencies artifact)
    (f := fun graph => (graph.requirers.find? type).getD []) fun _ => rfl
  have := commutes_change (ε := GraphError) (φ := withoutDependencies artifact)
    (f := fun graph => { graph with requirers := graph.requirers.erase type }) fun _ => rfl
  have := fun unit => commutes_updateUnit artifact unit
    (f := fun node => { node with requiredTypes := node.requiredTypes.filter (· ≠ type) })
    fun node => by
      unfold CompilationUnit.withoutDependencies
      split <;> rfl
  unfold releaseRequirement
  infer_instance

instance (type : TypeId) (unit : UnitId) (home : Option ArtifactId) :
    Commutes (withoutDependencies artifact) (declareType type unit home) := by
  have hget := commutes_check (ε := GraphError) (φ := withoutDependencies artifact)
    (f := fun graph => graph.types.get type) fun _ => rfl
  have hcomplete : Commutes (withoutDependencies artifact) (completeType type unit home) := by
    unfold completeType
    refine ⟨fun graph => (hget.commutes graph).bind fun node => ?_⟩
    split <;> infer_instance
  have := commutes_updateUnit artifact unit
    (f := fun node => { node with declaredTypes := node.declaredTypes ++ [type] }) fun node => by
      unfold CompilationUnit.withoutDependencies
      split <;> rfl
  unfold declareType
  refine ⟨fun graph => (hget.commutes graph).bind fun node => ?_⟩
  split <;> infer_instance

/-- A placeholder comes in that a unit requires. -/
theorem withoutDependencies_withPlaceholder (graph : Graph) (home : ArtifactId)
    (name : QualifiedName) (unit : UnitId) :
    (graph.withPlaceholder home name unit).withoutDependencies artifact =
      (graph.withoutDependencies artifact).withPlaceholder home name unit := by
  simp only [withoutDependencies, withPlaceholder, withRequirement]
  rw [Arena.map_modify graph.units fun node => ?_]
  unfold CompilationUnit.withoutDependencies
  split <;> rfl

/-! ### What is left -/

/-- An artifact keeps its units. -/
theorem get?_artifacts_withoutDependencies (graph : Graph) (artifact id : ArtifactId) :
    (graph.withoutDependencies artifact).artifacts.get? id =
      (graph.artifacts.get? id).map fun node =>
        if id = artifact then { node with dependencies := [] } else node := by
  change (graph.artifacts.modify artifact _).get? id = _
  rw [Arena.get?_modify]
  split <;> simp

/-- A unit keeps everything else. -/
theorem get?_units_withoutDependencies (graph : Graph) (artifact : ArtifactId) (id : UnitId) :
    (graph.withoutDependencies artifact).units.get? id =
      (graph.units.get? id).map (·.withoutDependencies artifact) :=
  Arena.get?_map ..

/-- The next unit gets the same identifier. -/
theorem nextId_withoutDependencies (graph : Graph) (artifact : ArtifactId) :
    (graph.withoutDependencies artifact).units.nextId = graph.units.nextId :=
  Arena.nextId_map ..

/-- The artifact depends on nothing any more. -/
theorem dependenciesOf_withoutDependencies (graph : Graph) (artifact : ArtifactId)
    (home : Option ArtifactId) :
    (graph.withoutDependencies artifact).dependenciesOf home =
      if home = some artifact then [] else graph.dependenciesOf home := by
  cases home with
  | none => rfl
  | some owner =>
    simp only [dependenciesOf, get?_artifacts_withoutDependencies, Option.some.injEq]
    split <;> cases graph.artifacts.get? owner <;> rfl

/-- A path has the same unit. -/
theorem unitAt?_withoutDependencies (graph : Graph) (artifact : ArtifactId) (path : String)
    (home : Option ArtifactId) :
    (graph.withoutDependencies artifact).unitAt? path home = graph.unitAt? path home := by
  unfold unitAt? Arena.idsWhere Arena.ids
  simp only [withoutDependencies, Arena.size_map, Arena.get?_map, Option.any_map]
  congr 2
  funext id
  cases graph.units.get? id with
  | none => rfl
  | some node =>
    simp only [Option.any_some, CompilationUnit.withoutDependencies]
    split <;> rfl

/-- Dependencies do not make a graph consistent or not. -/
theorem Consistent.withoutDependencies (h : graph.Consistent) (artifact : ArtifactId) :
    (graph.withoutDependencies artifact).Consistent := by
  have hunits : SameLedger graph
      { graph with units := graph.units.map (·.withoutDependencies artifact) } := by
    refine ⟨fun _ => rfl, fun hx hr => ⟨_, hx, hr⟩, fun id => ?_, rfl, rfl⟩
    rw [Arena.get?_map, Option.map_map]
    congr 1
    funext node
    simp only [Function.comp_apply, CompilationUnit.withoutDependencies]
    split <;> rfl
  have hc := h.of_sameLedger hunits
  refine { hc with
    units_iff := fun {id owner unit} ho => ?_
    artifact_known := fun {unit node id} hn ha => ?_ }
  · rw [get?_artifacts_withoutDependencies] at ho
    obtain ⟨node, hnode, rfl⟩ := Option.map_eq_some_iff.1 ho
    have hiff : unit ∈ node.units ↔ _ := hc.units_iff hnode
    split <;> exact hiff
  · obtain ⟨owner, ho⟩ := hc.artifact_known hn ha
    rw [get?_artifacts_withoutDependencies]
    exact ⟨_, congrArg (Option.map _) ho⟩

/-- Placeholders are required by the same units. -/
theorem Covered.withoutDependencies (h : graph.Covered) (artifact : ArtifactId) :
    (graph.withoutDependencies artifact).Covered := by
  intro id type hx hc hh
  obtain ⟨unit, node, hn, hm⟩ := h id hx hc hh
  refine ⟨unit, node.withoutDependencies artifact, ?_, ?_⟩
  · rw [get?_units_withoutDependencies, hn]
    rfl
  · unfold CompilationUnit.withoutDependencies
    split <;> exact hm

end Graph

end JavaGraph
