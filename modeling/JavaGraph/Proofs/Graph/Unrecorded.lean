import JavaGraph.Proofs.Graph.Unplaced
import JavaGraph.Scope.Basic
/-!
# Graphs without the uses of fields

Uses of fields are recorded and never looked at. Every operation of the graph and of scopes, except for
the one that records them, gives the same in the graph that has none, and leaves the same graph but for
that.
-/

namespace JavaGraph

open JavaGraph.Action

namespace Graph

/-- The graph without the uses of fields that are recorded in it. -/
def withoutAccesses (graph : Graph) : Graph := { graph with accesses := #[] }

/-! ### Operations of the graph -/

section

variable {α : Type}

/-- Something else is read. -/
private theorem commutes_reading {f : Graph → α} (h : ∀ graph, f graph.withoutAccesses = f graph) :
    Commutes withoutAccesses (read f : GraphAction α) := commutes_read h

/-- Something else is looked up. -/
private theorem commutes_checking {f : Graph → Except GraphError α}
    (h : ∀ graph, f graph.withoutAccesses = f graph) :
    Commutes withoutAccesses (check f : GraphAction α) := commutes_check h

/-- Something else changes. -/
private theorem commutes_changing {f : Graph → Graph}
    (h : ∀ graph, f graph.withoutAccesses = (f graph).withoutAccesses) :
    Commutes withoutAccesses (change f : GraphAction Unit) := commutes_change h

end

instance (id : ArtifactId) (f : Artifact → Artifact) :
    Commutes withoutAccesses (updateArtifact id f) := by
  refine commutes_tryChange fun graph => ?_
  simp only [withoutAccesses]
  cases graph.artifacts.update id f <;> rfl

instance (id : UnitId) (f : CompilationUnit → CompilationUnit) :
    Commutes withoutAccesses (updateUnit id f) := by
  refine commutes_tryChange fun graph => ?_
  simp only [withoutAccesses]
  cases graph.units.update id f <;> rfl

instance (id : TypeId) (f : TypeNode → TypeNode) :
    Commutes withoutAccesses (updateType id f) := by
  refine commutes_tryChange fun graph => ?_
  simp only [withoutAccesses]
  cases graph.types.update id f <;> rfl

instance (id : FunctionId) (f : Function → Function) :
    Commutes withoutAccesses (updateFunction id f) := by
  refine commutes_tryChange fun graph => ?_
  simp only [withoutAccesses]
  cases graph.functions.update id f <;> rfl

instance (id : TextFileId) (f : TextFile → TextFile) :
    Commutes withoutAccesses (updateTextFile id f) := by
  refine commutes_tryChange fun graph => ?_
  simp only [withoutAccesses]
  cases graph.textFiles.update id f <;> rfl

instance (id : LineId) (f : Line → Line) : Commutes withoutAccesses (updateLine id f) := by
  refine commutes_tryChange fun graph => ?_
  simp only [withoutAccesses]
  cases graph.lines.update id f <;> rfl

instance (name : String) (dependencies : List ArtifactId) :
    Commutes withoutAccesses (addArtifact name dependencies) := by
  have := fun id => commutes_checking (f := fun graph => graph.artifacts.get id) fun _ => rfl
  have := commutes_reading (f := fun graph => graph.artifacts.nextId) fun _ => rfl
  have := commutes_changing (f := fun graph =>
    { graph with artifacts := graph.artifacts.push { name, dependencies } }) fun _ => rfl
  unfold addArtifact
  infer_instance

instance (path : String) (artifact : Option ArtifactId) :
    Commutes withoutAccesses (addUnit path artifact) := by
  have := commutes_reading (f := fun graph => graph.unitAt? path artifact) fun _ => rfl
  have := commutes_reading (f := fun graph => graph.units.nextId) fun _ => rfl
  have := fun id => commutes_checking (f := fun graph => graph.artifacts.get id) fun _ => rfl
  have := fun dependencies => commutes_changing (f := fun graph =>
    { graph with units := graph.units.push { path, artifact, dependencies } }) fun _ => rfl
  unfold addUnit
  refine Commutes.bind inferInstance fun existing => ?_
  cases existing with
  | some existing => infer_instance
  | none => cases artifact <;> infer_instance

instance (unit : UnitId) (type : TypeId) : Commutes withoutAccesses (setMainType unit type) := by
  have := commutes_checking (f := fun graph => graph.units.get unit) fun _ => rfl
  unfold setMainType
  infer_instance

instance (name : QualifiedName) (home : Universe) :
    Commutes withoutAccesses (addType name home) := ⟨fun _ => rfl⟩

instance (unit : UnitId) (type : TypeId) : Commutes withoutAccesses (addRequirement unit type) := by
  have := commutes_changing (f := fun graph =>
    let known := (graph.requirers.find? type).getD []
    { graph with requirers := graph.requirers.insert type (known ++ [unit]) }) fun _ => rfl
  unfold addRequirement
  infer_instance

instance (type : TypeId) : Commutes withoutAccesses (releaseRequirement type) := by
  have := commutes_reading (f := fun graph => (graph.requirers.find? type).getD []) fun _ => rfl
  have := commutes_changing
    (f := fun graph => { graph with requirers := graph.requirers.erase type }) fun _ => rfl
  unfold releaseRequirement
  infer_instance

instance (type : TypeId) (unit : UnitId) (artifact : Option ArtifactId) :
    Commutes withoutAccesses (declareType type unit artifact) := by
  have := commutes_checking (f := fun graph => graph.types.get type) fun _ => rfl
  have hcomplete : Commutes withoutAccesses (completeType type unit artifact) := by
    unfold completeType
    infer_instance
  unfold declareType
  refine Commutes.bind inferInstance fun node => ?_
  split <;> infer_instance

instance (field : Field) : Commutes withoutAccesses (addField field) := by
  have := commutes_reading (f := fun graph => graph.fields.nextId) fun _ => rfl
  have := commutes_changing
    (f := fun graph => { graph with fields := graph.fields.push field }) fun _ => rfl
  unfold addField
  infer_instance

instance (function : Function) : Commutes withoutAccesses (addFunction function) := by
  have := commutes_reading (f := fun graph => graph.functions.nextId) fun _ => rfl
  have := commutes_changing
    (f := fun graph => { graph with functions := graph.functions.push function }) fun _ => rfl
  unfold addFunction
  infer_instance

instance (parameter : Parameter) : Commutes withoutAccesses (addParameter parameter) := by
  have := commutes_reading (f := fun graph => graph.parameters.nextId) fun _ => rfl
  have := commutes_changing
    (f := fun graph => { graph with parameters := graph.parameters.push parameter }) fun _ => rfl
  unfold addParameter
  infer_instance

instance (path : String) : Commutes withoutAccesses (addTextFile path) := ⟨fun _ => rfl⟩

instance (file : TextFileId) (text : String) : Commutes withoutAccesses (addLine file text) := by
  have := commutes_reading (f := fun graph => graph.lines.nextId) fun _ => rfl
  have := commutes_checking (f := fun graph => graph.textFiles.get file) fun _ => rfl
  have := fun line => commutes_changing
    (f := fun graph => { graph with lines := graph.lines.push line }) fun _ => rfl
  unfold addLine
  refine Commutes.bind inferInstance fun id => Commutes.bind inferInstance fun node =>
    Commutes.bind inferInstance fun _ => Commutes.bind inferInstance fun _ => ?_
  cases node.lines.getLast? <;> infer_instance

end Graph

/-! ### Operations of scopes -/

namespace Store

/-- The store without the uses of fields that are recorded in it. -/
def withoutAccesses (store : Store) : Store := { store with graph := store.graph.withoutAccesses }

instance {α : Type} (action : GraphAction α) [h : Commutes Graph.withoutAccesses action] :
    Commutes withoutAccesses (onGraph action) :=
  commutes_within h (fun _ => rfl) fun _ _ => rfl

end Store

instance (artifact : ArtifactId) (name : QualifiedName) (unit : UnitId) :
    Commutes Graph.withoutAccesses (ArtifactScope.placeholder artifact name unit) := by
  have := commutes_read (ε := GraphError) (φ := Graph.withoutAccesses)
    (f := fun graph => graph.typeIn? name.text (some artifact)) fun _ => rfl
  unfold ArtifactScope.placeholder
  refine Commutes.bind inferInstance fun found => ?_
  cases found <;> infer_instance

instance (name : QualifiedName) : Commutes Graph.withoutAccesses (GlobalScope.typeFor name) := by
  have := commutes_read (ε := GraphError) (φ := Graph.withoutAccesses)
    (f := fun graph => graph.globalType? name) fun _ => rfl
  unfold GlobalScope.typeFor
  refine Commutes.bind inferInstance fun found => ?_
  cases found <;> infer_instance

instance (scope : ArtifactScope) (name : QualifiedName) (unit : UnitId) :
    Commutes Store.withoutAccesses (scope.require name unit) := by
  unfold ArtifactScope.require
  split <;> infer_instance

instance (scope : ArtifactScope) (name : QualifiedName) (unit : UnitId) :
    Commutes Store.withoutAccesses (scope.resolve name unit) := by
  have := commutes_check (φ := Store.withoutAccesses)
    (f := fun store => store.findDeclaredType name scope.dependencies) fun _ => rfl
  unfold ArtifactScope.resolve
  split
  · infer_instance
  · dsimp only
    split <;> refine Commutes.bind inferInstance fun found => ?_ <;> cases found <;> infer_instance

instance (scope : ArtifactScope) (name : QualifiedName) (unit : UnitId) :
    Commutes Store.withoutAccesses (scope.declare name unit) := by
  unfold ArtifactScope.declare
  dsimp only
  split <;> infer_instance

instance (name : QualifiedName) : Commutes Store.withoutAccesses (GlobalScope.resolve name) := by
  have := commutes_check (φ := Store.withoutAccesses)
    (f := fun store => store.findGlobalType name) fun _ => rfl
  unfold GlobalScope.resolve
  refine Commutes.bind inferInstance fun found => ?_
  cases found <;> infer_instance

instance (name : QualifiedName) (unit : UnitId) :
    Commutes Store.withoutAccesses (GlobalScope.declare name unit) := by
  have := commutes_check (φ := Graph.withoutAccesses)
    (f := fun graph => graph.units.get unit) fun _ => rfl
  unfold GlobalScope.declare
  infer_instance

instance (scope : Scope) (name : QualifiedName) (unit : UnitId) :
    Commutes Store.withoutAccesses (scope.resolve name unit) := by
  unfold Scope.resolve
  cases scope <;> infer_instance

instance (scope : Scope) (name : QualifiedName) (unit : UnitId) :
    Commutes Store.withoutAccesses (scope.require name unit) := by
  unfold Scope.require
  cases scope <;> infer_instance

instance (scope : Scope) (name : QualifiedName) (unit : UnitId) :
    Commutes Store.withoutAccesses (scope.declare name unit) := by
  unfold Scope.declare
  cases scope <;> infer_instance

instance (scope : Scope) : Commutes Store.withoutAccesses scope.leave := by
  unfold Scope.leave
  cases scope with
  | global => infer_instance
  | ofArtifact scope =>
    unfold ArtifactScope.leave
    infer_instance

/-- The same scope is entered. -/
theorem Scope.enter_withoutAccesses (graph : Graph) (artifact : Option ArtifactId) :
    Scope.enter graph.withoutAccesses artifact = Scope.enter graph artifact := rfl

end JavaGraph
