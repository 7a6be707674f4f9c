import JavaGraph.Graph.Basic
/-!
# Questions about a graph

Answers that are put together from the nodes: the members of a type by name, the types that still
miss their declaration, and who uses a field.
-/

namespace JavaGraph.Graph

/-- The types that are not declared, oldest first. -/
def incompleteTypes (graph : Graph) : List TypeId :=
  graph.types.idsWhere fun type => !type.isComplete

/-- The placeholders that open scopes hold for a unit, oldest first. -/
def typesRequiredBy (graph : Graph) (unit : UnitId) : List TypeId :=
  graph.types.idsWhere fun type => type.state.requiredBy = some unit

/-- Whether a unit lists a type among its required types. -/
def requires (graph : Graph) (unit : UnitId) (type : TypeId) : Except GraphError Bool :=
  return (← graph.units.get unit).requiredTypes.contains type

/-- The first field of a type with a name. -/
def fieldNamed? (graph : Graph) (type : TypeId) (name : String) : Option FieldId := do
  let node ← graph.types.get? type
  node.fields.find? fun id => (graph.fields.get? id).any (·.name = name)

/-- The functions of a type with a name, in the order of their declarations. -/
def functionsNamed (graph : Graph) (type : TypeId) (name : String) : List FunctionId :=
  match graph.types.get? type with
  | none => []
  | some node => node.functions.filter fun id => (graph.functions.get? id).any (·.name = name)

/-- The uses of a field, oldest first. -/
def accessesOf (graph : Graph) (field : FieldId) : List Access :=
  graph.accesses.toList.filter (·.field = field)

/-- The uses of fields by a function, oldest first. -/
def accessesFrom (graph : Graph) (function : FunctionId) : List Access :=
  graph.accesses.toList.filter (·.function = function)

/-- The number of uses of a field of one kind. -/
def accessCount (graph : Graph) (field : FieldId) (kind : AccessKind) : Nat :=
  ((graph.accessesOf field).filter (·.kind = kind)).length

/-- The numbers of nodes as text. -/
def summary (graph : Graph) : String :=
  s!"Graph \x7b artifacts: {graph.artifacts.size}, units: {graph.units.size}, " ++
    s!"types: {graph.types.size}, fields: {graph.fields.size}, " ++
    s!"functions: {graph.functions.size}, accesses: {graph.accesses.size}, " ++
    s!"lines: {graph.lines.size} \x7d"

end JavaGraph.Graph
