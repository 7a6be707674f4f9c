import JavaGraph.Graph.Lookup
/-!
# Scopes

A store holds a graph and answers queries by name. It may stop answering them; everything else
about the graph goes on working then.

A scope turns names into types. The scope of an artifact knows the types of its units, looks
other names up in the artifacts it depends on, and makes placeholders for what nobody declares.
The global scope looks every name up in the global universe.

A scope gives the same type for the same name every time. If one of its operations fails, the
scope is as it was before; what the failed operation has done to the graph stays.
-/

namespace JavaGraph

/-! ### The store -/

/-- A graph, and whether queries by name are answered. -/
structure Store where
  graph : Graph := {}
  answers : Bool := true

/-- An action on a store. -/
abbrev StoreAction := Action GraphError Store

namespace Store

/-- The answer to a query, if queries are answered. -/
def query {α : Type} (store : Store) (answer : Graph → α) : Except GraphError α :=
  if store.answers then .ok (answer store.graph) else .error (.queryFailed "connection reset")

/-- The type with a name in the global universe. -/
def findGlobalType (store : Store) (name : QualifiedName) : Except GraphError (Option TypeId) :=
  store.query (·.globalType? name)

/-- A type with a name that one of some artifacts declares. -/
def findDeclaredType (store : Store) (name : QualifiedName) (artifacts : List ArtifactId) :
    Except GraphError (Option TypeId) :=
  store.query (·.typeDeclaredInAny? name artifacts)

/-- An action on the graph of a store. -/
def onGraph {α : Type} (action : GraphAction α) : StoreAction α :=
  action.within (·.graph) fun graph store => { store with graph }

end Store

/-! ### The scope of an artifact -/

/-- The scope of an artifact. -/
structure ArtifactScope where
  artifact : ArtifactId
  dependencies : List ArtifactId
  /-- The types of the artifact's own universe, by name. -/
  known : Table QualifiedName TypeId
  /-- The types found in dependencies, by name. -/
  borrowed : Table QualifiedName TypeId := {}
  /-- The placeholders made by this scope, oldest first. -/
  created : List TypeId := []

namespace ArtifactScope

/-- Every type that the units of an artifact declare or require, by name. -/
def seed (graph : Graph) (units : List UnitId) : Except GraphError (Table QualifiedName TypeId) :=
  units.foldlM (fun known unit => do
    let node ← graph.units.get unit
    (node.declaredTypes ++ node.requiredTypes).foldlM (fun known id => do
      let type ← graph.types.get id
      return known.insertIfNew type.name id) known) {}

/-- The scope of an artifact when it is entered. -/
def enter (graph : Graph) (artifact : ArtifactId) : Except GraphError ArtifactScope := do
  let node ← graph.artifacts.get artifact
  let known ← seed graph node.units
  return { artifact, dependencies := node.dependencies, known }

/-- The type a name is known to stand for. -/
def cached? (scope : ArtifactScope) (name : QualifiedName) : Option TypeId :=
  (scope.known.find? name).or (scope.borrowed.find? name)

/-- The type of a name in the artifact's own universe, and whether it is new. A new one is a
placeholder that the unit requires. -/
def placeholder (artifact : ArtifactId) (name : QualifiedName) (unit : UnitId) :
    GraphAction (TypeId × Bool) := do
  match ← .read fun graph => graph.typeIn? name.text (some artifact) with
  | some existing => return (existing, false)
  | none =>
    let id ← Graph.addType name (some artifact)
    Graph.addRequirement unit id
    Graph.updateType id (·.setRequiredBy (some unit))
    return (id, true)

/-- The type of a name without a look at dependencies. -/
def require (scope : ArtifactScope) (name : QualifiedName) (unit : UnitId) :
    StoreAction (TypeId × ArtifactScope) := do
  match scope.known.find? name with
  | some id => return (id, scope)
  | none =>
    let (id, isNew) ← Store.onGraph (placeholder scope.artifact name unit)
    let created := if isNew then scope.created ++ [id] else scope.created
    return (id, { scope with known := scope.known.insert name id, created })

/-- The type of a name: of the artifact itself, of a dependency, or a placeholder. -/
def resolve (scope : ArtifactScope) (name : QualifiedName) (unit : UnitId) :
    StoreAction (TypeId × ArtifactScope) := do
  match scope.cached? name with
  | some id => return (id, scope)
  | none =>
    let found ← if scope.dependencies.isEmpty then pure none
      else .check fun store : Store => store.findDeclaredType name scope.dependencies
    match found with
    | some id => return (id, { scope with borrowed := scope.borrowed.insert name id })
    | none => scope.require name unit

/-- The type of a name, declared by a unit. A placeholder for it is completed; a type that is
complete already is a duplicate. -/
def declare (scope : ArtifactScope) (name : QualifiedName) (unit : UnitId) :
    StoreAction (TypeId × ArtifactScope) := do
  let id ← match scope.known.find? name with
    | some id => pure id
    | none => Store.onGraph (Graph.addType name (some scope.artifact))
  Store.onGraph (Graph.declareType id unit (some scope.artifact))
  return (id, { scope with known := scope.known.insert name id })

/-- Leave the scope: its placeholders are no longer held for a unit. -/
def leave (scope : ArtifactScope) : StoreAction Unit :=
  Store.onGraph <| Action.forEach scope.created fun id =>
    Graph.updateType id (·.setRequiredBy none)

end ArtifactScope

namespace GlobalScope

/-- The type of a name in the global universe, which is new if there is none. -/
def typeFor (name : QualifiedName) : GraphAction TypeId := do
  match ← .read fun graph => graph.globalType? name with
  | some id => return id
  | none => Graph.addType name none

/-- The type of a name. -/
def resolve (name : QualifiedName) : StoreAction TypeId := do
  match ← .check fun store : Store => store.findGlobalType name with
  | some id => return id
  | none => Store.onGraph (typeFor name)

/-- The type of a name, declared by a unit. -/
def declare (name : QualifiedName) (unit : UnitId) : StoreAction TypeId :=
  Store.onGraph do
    let node ← .check fun graph : Graph => graph.units.get unit
    let id ← typeFor name
    Graph.declareType id unit node.artifact
    return id

end GlobalScope

/-- What names are resolved in. -/
inductive Scope where
  | ofArtifact (scope : ArtifactScope)
  | global

namespace Scope

/-- Enter the scope of an artifact, or the global one. -/
def enter (graph : Graph) (artifact : Option ArtifactId) : Except GraphError Scope :=
  match artifact with
  | some artifact => .ofArtifact <$> ArtifactScope.enter graph artifact
  | none => .ok .global

/-- The artifact of the scope. -/
def artifact? : Scope → Option ArtifactId
  | .ofArtifact scope => some scope.artifact
  | .global => none

/-- Whether the scope is the global one. -/
def isGlobal (scope : Scope) : Bool := scope.artifact?.isNone

/-- The type that a name stands for, for a unit that refers to it. -/
def resolve (scope : Scope) (name : QualifiedName) (unit : UnitId) :
    StoreAction (TypeId × Scope) := do
  match scope with
  | .ofArtifact scope =>
    let (id, scope) ← scope.resolve name unit
    return (id, .ofArtifact scope)
  | .global => return (← GlobalScope.resolve name, .global)

/-- The type that a name stands for, declared by a unit. -/
def declare (scope : Scope) (name : QualifiedName) (unit : UnitId) :
    StoreAction (TypeId × Scope) := do
  match scope with
  | .ofArtifact scope =>
    let (id, scope) ← scope.declare name unit
    return (id, .ofArtifact scope)
  | .global => return (← GlobalScope.declare name unit, .global)

/-- The type that a name stands for without a look at dependencies. -/
def require (scope : Scope) (name : QualifiedName) (unit : UnitId) :
    StoreAction (TypeId × Scope) := do
  match scope with
  | .ofArtifact scope =>
    let (id, scope) ← scope.require name unit
    return (id, .ofArtifact scope)
  | .global => return (← GlobalScope.resolve name, .global)

/-- Leave the scope. -/
def leave : Scope → StoreAction Unit
  | .ofArtifact scope => scope.leave
  | .global => pure ()

/-- A scope as text. -/
def render : Scope → String
  | .ofArtifact scope =>
    let dependencies := ", ".intercalate (scope.dependencies.map Id.render)
    s!"ArtifactScoped(ArtifactScope \x7b artifact: {scope.artifact.render}, " ++
      s!"dependencies: [{dependencies}], local: {scope.known.size}, " ++
      s!"created: {scope.created.length} \x7d)"
  | .global => "Global(GlobalScope \x7b .. \x7d)"

/-- Open scopes, outermost first, as text. -/
def renderAll (scopes : List Scope) : String :=
  let inner := ", ".intercalate (scopes.map render)
  s!"ScopeStack \x7b scopes: [{inner}], .. \x7d"

end Scope

end JavaGraph
