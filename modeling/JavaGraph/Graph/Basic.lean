import JavaGraph.Action
import JavaGraph.Graph.Arena
import JavaGraph.Graph.Node
import JavaGraph.Table
/-!
# The graph

All nodes, in one arena per kind, and the operations that make and change them. An operation that
fails midway leaves what it has done so far; what that is, is said where it can happen.

Two things are kept twice so that they can be found from both ends: a placeholder stands in the
required types of units, and `requirers` lists those units.
-/

namespace JavaGraph

/-- All nodes and edges. -/
structure Graph where
  artifacts : Arena .artifact Artifact := {}
  units : Arena .unit CompilationUnit := {}
  types : Arena .type TypeNode := {}
  fields : Arena .field Field := {}
  functions : Arena .function Function := {}
  parameters : Arena .parameter Parameter := {}
  /-- The uses of fields, oldest first. -/
  accesses : Array Access := #[]
  textFiles : Arena .textFile TextFile := {}
  lines : Arena .line Line := {}
  /-- The units that list a placeholder among their required types. -/
  requirers : Table TypeId (List UnitId) := {}

/-- An action on the graph. -/
abbrev GraphAction := Action GraphError Graph

namespace Graph

/-! ### Finding nodes -/

/-- The types with a name, in every universe, oldest first. -/
def typesNamed (graph : Graph) (name : String) : List TypeId :=
  graph.types.idsWhere (·.name.text = name)

/-- The oldest type with a name in a universe. -/
def typeIn? (graph : Graph) (name : String) (home : Universe) : Option TypeId :=
  (graph.typesNamed name).find? fun id => (graph.types.get? id).any (·.home = home)

/-- The oldest type with a name in the global universe. -/
def globalType? (graph : Graph) (name : QualifiedName) : Option TypeId :=
  graph.typeIn? name.text none

/-- The oldest type with a name that is declared in an artifact. -/
def typeDeclaredIn? (graph : Graph) (name : QualifiedName) (artifact : ArtifactId) :
    Option TypeId :=
  (graph.typesNamed name.text).find? fun id =>
    (graph.types.get? id).any fun type => type.isComplete && type.artifact = some artifact

/-- A type with a name that is declared in the first of some artifacts that declares one. -/
def typeDeclaredInAny? (graph : Graph) (name : QualifiedName) (artifacts : List ArtifactId) :
    Option TypeId :=
  artifacts.findSome? (graph.typeDeclaredIn? name)

/-- The unit of a path in an artifact, or outside all artifacts. -/
def unitAt? (graph : Graph) (path : String) (artifact : Option ArtifactId) : Option UnitId :=
  (graph.units.idsWhere fun unit => unit.path = path ∧ unit.artifact = artifact).head?

/-! ### Changing nodes -/

/-- Change an artifact. -/
def updateArtifact (id : ArtifactId) (f : Artifact → Artifact) : GraphAction Unit :=
  .tryChange fun graph => return { graph with artifacts := ← graph.artifacts.update id f }

/-- Change a unit. -/
def updateUnit (id : UnitId) (f : CompilationUnit → CompilationUnit) : GraphAction Unit :=
  .tryChange fun graph => return { graph with units := ← graph.units.update id f }

/-- Change a type. -/
def updateType (id : TypeId) (f : TypeNode → TypeNode) : GraphAction Unit :=
  .tryChange fun graph => return { graph with types := ← graph.types.update id f }

/-- Change a function. -/
def updateFunction (id : FunctionId) (f : Function → Function) : GraphAction Unit :=
  .tryChange fun graph => return { graph with functions := ← graph.functions.update id f }

/-- Change a text file. -/
def updateTextFile (id : TextFileId) (f : TextFile → TextFile) : GraphAction Unit :=
  .tryChange fun graph => return { graph with textFiles := ← graph.textFiles.update id f }

/-- Change a line. -/
def updateLine (id : LineId) (f : Line → Line) : GraphAction Unit :=
  .tryChange fun graph => return { graph with lines := ← graph.lines.update id f }

/-! ### Artifacts and units -/

/-- A new artifact. Its dependencies have to exist. -/
def addArtifact (name : String) (dependencies : List ArtifactId) : GraphAction ArtifactId := do
  Action.forEach dependencies fun dependency => do
    discard <| .check fun graph : Graph => graph.artifacts.get dependency
  let id ← .read fun graph => graph.artifacts.nextId
  .change fun graph => { graph with artifacts := graph.artifacts.push { name, dependencies } }
  return id

/-- The unit of a path in an artifact, which is new if there is none. It may resolve names against
what the artifact depends on. -/
def addUnit (path : String) (artifact : Option ArtifactId) : GraphAction UnitId := do
  match ← .read fun graph => graph.unitAt? path artifact with
  | some existing => return existing
  | none =>
    let id ← .read fun graph => graph.units.nextId
    let dependencies ← match artifact with
      | none => pure []
      | some owner =>
        updateArtifact owner fun node => { node with units := node.units ++ [id] }
        let node ← .check fun graph : Graph => graph.artifacts.get owner
        pure node.dependencies
    .change fun graph =>
      { graph with units := graph.units.push { path, artifact, dependencies } }
    return id

/-- Make one of its declared types the main type of a unit. -/
def setMainType (unit : UnitId) (type : TypeId) : GraphAction Unit := do
  let node ← .check fun graph : Graph => graph.units.get unit
  if node.declaredTypes.contains type then
    updateUnit unit fun node => { node with mainType := some type }
  else .fail (.mainTypeNotDeclared unit type)

/-! ### Types -/

/-- A new placeholder in a universe. -/
def addType (name : QualifiedName) (home : Universe) : GraphAction TypeId := do
  let id ← .read fun graph => graph.types.nextId
  .change fun graph => { graph with types := graph.types.push { name, home } }
  return id

/-- Record that a unit needs a placeholder. -/
def addRequirement (unit : UnitId) (type : TypeId) : GraphAction Unit := do
  updateUnit unit fun node => { node with requiredTypes := node.requiredTypes ++ [type] }
  .change fun graph =>
    let known := (graph.requirers.find? type).getD []
    { graph with requirers := graph.requirers.insert type (known ++ [unit]) }

/-- Drop a type from the required types of all units that list it. -/
def releaseRequirement (type : TypeId) : GraphAction Unit := do
  let units ← .read fun graph => (graph.requirers.find? type).getD []
  .change fun graph => { graph with requirers := graph.requirers.erase type }
  Action.forEach units fun unit =>
    updateUnit unit fun node =>
      { node with requiredTypes := node.requiredTypes.filter (· ≠ type) }

/-- Record that a placeholder is declared by a unit of an artifact. -/
def completeType (type : TypeId) (unit : UnitId) (artifact : Option ArtifactId) :
    GraphAction Unit := do
  let node ← .check fun graph : Graph => graph.types.get type
  if node.isComplete then .fail (.alreadyComplete node.name)
  else updateType type fun node => { node with state := .complete unit, artifact }

/-- Declare a type by a unit: complete it, release it from the units that require it, and add it
to what the unit declares. A complete type is a duplicate. If the unit does not exist, the type is
complete and released all the same. -/
def declareType (type : TypeId) (unit : UnitId) (artifact : Option ArtifactId) :
    GraphAction Unit := do
  let node ← .check fun graph : Graph => graph.types.get type
  match node.state.declaredBy with
  | some existing => .fail (.duplicateDeclaration node.name existing)
  | none =>
    completeType type unit artifact
    releaseRequirement type
    updateUnit unit fun node => { node with declaredTypes := node.declaredTypes ++ [type] }

/-! ### Members -/

/-- A new field of its declaring type. -/
def addField (field : Field) : GraphAction FieldId := do
  let id ← .read fun graph => graph.fields.nextId
  updateType field.declaringType fun node => { node with fields := node.fields ++ [id] }
  .change fun graph => { graph with fields := graph.fields.push field }
  return id

/-- A new function of its declaring type. -/
def addFunction (function : Function) : GraphAction FunctionId := do
  let id ← .read fun graph => graph.functions.nextId
  updateType function.declaringType fun node => { node with functions := node.functions ++ [id] }
  .change fun graph => { graph with functions := graph.functions.push function }
  return id

/-- A new parameter of its function. -/
def addParameter (parameter : Parameter) : GraphAction ParameterId := do
  let id ← .read fun graph => graph.parameters.nextId
  updateFunction parameter.function fun node => { node with parameters := node.parameters ++ [id] }
  .change fun graph => { graph with parameters := graph.parameters.push parameter }
  return id

/-- Record a use of a field by a function; both have to exist. -/
def addAccess (access : Access) : GraphAction Unit := do
  discard <| .check fun graph : Graph => graph.functions.get access.function
  discard <| .check fun graph : Graph => graph.fields.get access.field
  .change fun graph => { graph with accesses := graph.accesses.push access }

/-! ### Plain text -/

/-- A new text file without lines. -/
def addTextFile (path : String) : GraphAction TextFileId := do
  let id ← .read fun graph => graph.textFiles.nextId
  .change fun graph => { graph with textFiles := graph.textFiles.push { path } }
  return id

/-- A new line at the end of a text file, linked from the line before it. -/
def addLine (file : TextFileId) (text : String) : GraphAction LineId := do
  let id ← .read fun graph => graph.lines.nextId
  let node ← .check fun graph : Graph => graph.textFiles.get file
  updateTextFile file fun node => { node with lines := node.lines ++ [id] }
  .change fun graph =>
    { graph with lines := graph.lines.push { file, number := node.lines.length, text } }
  match node.lines.getLast? with
  | none => pure ()
  | some previous => updateLine previous fun line => { line with next := some id }
  return id

end Graph

end JavaGraph
