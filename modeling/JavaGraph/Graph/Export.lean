import JavaGraph.Document.Yaml
import JavaGraph.Graph.Basic
/-!
# Exporting a graph

The documents that nodes and whole graphs are written as. Every node is a record of all that is
known of it; identifiers are numbers, and alternatives are written by their names.
-/

namespace JavaGraph

/-- An identifier as a number. -/
def Id.toDocument {kind : EntityKind} (id : Id kind) : Document := .number id.index

/-- The name of a visibility. -/
def Visibility.name : Visibility → String
  | .publicAccess => "Public"
  | .protectedAccess => "Protected"
  | .packageAccess => "Package"
  | .privateAccess => "Private"

/-- The name of a kind of types. -/
def TypeKind.name : TypeKind → String
  | .classType => "Class"
  | .interfaceType => "Interface"
  | .enumType => "Enum"
  | .annotationType => "Annotation"

/-- The name of a kind of functions. -/
def FunctionKind.name : FunctionKind → String
  | .method => "Method"
  | .constructor => "Constructor"
  | .initializer => "Initializer"

/-- The name of a way to use a field. -/
def AccessKind.name : AccessKind → String
  | .read => "Read"
  | .write => "Write"

/-- Modifiers as a document. -/
def Modifiers.toDocument (modifiers : Modifiers) : Document :=
  .record [
    ("visibility", .text modifiers.visibility.name),
    ("is_static", .bool modifiers.isStatic),
    ("is_final", .bool modifiers.isFinal),
    ("is_abstract", .bool modifiers.isAbstract),
    ("is_transient", .bool modifiers.isTransient),
    ("is_volatile", .bool modifiers.isVolatile),
    ("is_synchronized", .bool modifiers.isSynchronized),
    ("is_native", .bool modifiers.isNative)]

/-- A range of lines as a document. -/
def Text.LineSpan.toDocument (span : Text.LineSpan) : Document :=
  .record [("start", .number span.first), ("end", .number span.last)]

/-- The state of a type as a document. -/
def TypeState.toDocument : TypeState → Document
  | .incomplete unit =>
    .variant "Incomplete" (.record [("required_by", .ofOption Id.toDocument unit)])
  | .complete unit => .variant "Complete" (.record [("declared_by", unit.toDocument)])

/-- What a use of a type names, as a document. -/
def TypeBase.toDocument : TypeBase → Document
  | .primitive name => .variant "Primitive" (.text name)
  | .declared type => .variant "Declared" type.toDocument
  | .typeVariable name => .variant "Variable" (.text name)

/-- A use of a type as a document. -/
def TypeUse.toDocument (use : TypeUse) : Document :=
  .record [("base", use.base.toDocument), ("dims", .number use.dimensions)]

/-- An artifact as a document. -/
def Artifact.toDocument (id : ArtifactId) (artifact : Artifact) : Document :=
  .record [
    ("id", id.toDocument),
    ("name", .text artifact.name),
    ("units", .ofList Id.toDocument artifact.units),
    ("dependencies", .ofList Id.toDocument artifact.dependencies)]

/-- A unit as a document. -/
def CompilationUnit.toDocument (id : UnitId) (unit : CompilationUnit) : Document :=
  .record [
    ("id", id.toDocument),
    ("path", .text unit.path),
    ("package", .ofOption .text unit.package),
    ("artifact", .ofOption Id.toDocument unit.artifact),
    ("may_not_compile", .bool unit.mayNotCompile),
    ("declared_types", .ofList Id.toDocument unit.declaredTypes),
    ("main_type", .ofOption Id.toDocument unit.mainType),
    ("required_types", .ofList Id.toDocument unit.requiredTypes),
    ("dependencies", .ofList Id.toDocument unit.dependencies)]

/-- A type as a document. -/
def TypeNode.toDocument (id : TypeId) (type : TypeNode) : Document :=
  .record [
    ("id", id.toDocument),
    ("name", .text type.name.text),
    ("universe", .ofOption Id.toDocument type.home),
    ("state", type.state.toDocument),
    ("artifact", .ofOption Id.toDocument type.artifact),
    ("kind", .ofOption (fun kind => .text kind.name) type.kind),
    ("modifiers", type.modifiers.toDocument),
    ("span", .ofOption Text.LineSpan.toDocument type.span),
    ("superclass", .ofOption Id.toDocument type.superclass),
    ("interfaces", .ofList Id.toDocument type.interfaces),
    ("inner_types", .ofList Id.toDocument type.innerTypes),
    ("declaring_type", .ofOption Id.toDocument type.declaringType),
    ("anonymous_index", .ofOption .number type.anonymousIndex),
    ("fields", .ofList Id.toDocument type.fields),
    ("functions", .ofList Id.toDocument type.functions),
    ("depends_on", .ofList Id.toDocument type.dependsOn)]

/-- A field as a document. -/
def Field.toDocument (id : FieldId) (field : Field) : Document :=
  .record [
    ("id", id.toDocument),
    ("name", .text field.name),
    ("declaring_type", field.declaringType.toDocument),
    ("type_use", field.typeUse.toDocument),
    ("modifiers", field.modifiers.toDocument),
    ("line", .number field.line),
    ("signature", .text field.signature)]

/-- A function as a document. -/
def Function.toDocument (id : FunctionId) (function : Function) : Document :=
  .record [
    ("id", id.toDocument),
    ("name", .text function.name),
    ("kind", .text function.kind.name),
    ("declaring_type", function.declaringType.toDocument),
    ("parameters", .ofList Id.toDocument function.parameters),
    ("returns", .ofOption TypeUse.toDocument function.returns),
    ("throws", .ofList Id.toDocument function.throws),
    ("modifiers", function.modifiers.toDocument),
    ("span", function.span.toDocument),
    ("signature", .text function.signature)]

/-- A parameter as a document. -/
def Parameter.toDocument (id : ParameterId) (parameter : Parameter) : Document :=
  .record [
    ("id", id.toDocument),
    ("name", .text parameter.name),
    ("index", .number parameter.index),
    ("type_use", parameter.typeUse.toDocument),
    ("function", parameter.function.toDocument),
    ("is_varargs", .bool parameter.isVarargs)]

/-- A use of a field as a document. -/
def Access.toDocument (access : Access) : Document :=
  .record [
    ("function", access.function.toDocument),
    ("field", access.field.toDocument),
    ("line", .number access.line),
    ("kind", .text access.kind.name)]

/-- A text file as a document. -/
def TextFile.toDocument (id : TextFileId) (file : TextFile) : Document :=
  .record [
    ("id", id.toDocument),
    ("path", .text file.path),
    ("lines", .ofList Id.toDocument file.lines)]

/-- A line of plain text as a document. -/
def Line.toDocument (id : LineId) (line : Line) : Document :=
  .record [
    ("id", id.toDocument),
    ("file", line.file.toDocument),
    ("number", .number line.number),
    ("text", .text line.text),
    ("next", .ofOption Id.toDocument line.next)]

/-- The nodes of an arena as documents, in the order of their identifiers. -/
def Arena.toDocument {kind : EntityKind} {α : Type} (arena : Arena kind α)
    (write : Id kind → α → Document) : Document :=
  .list (arena.toList.zipIdx.map fun (node, index) => write ⟨index⟩ node)

/-- A graph as a document. -/
def Graph.toDocument (graph : Graph) : Document :=
  .record [
    ("artifacts", graph.artifacts.toDocument Artifact.toDocument),
    ("units", graph.units.toDocument CompilationUnit.toDocument),
    ("types", graph.types.toDocument TypeNode.toDocument),
    ("fields", graph.fields.toDocument Field.toDocument),
    ("functions", graph.functions.toDocument Function.toDocument),
    ("parameters", graph.parameters.toDocument Parameter.toDocument),
    ("accesses", .ofList Access.toDocument graph.accesses.toList),
    ("text_files", graph.textFiles.toDocument TextFile.toDocument),
    ("lines", graph.lines.toDocument Line.toDocument)]

/-- A graph as JSON. -/
def Graph.toJson (graph : Graph) : String := graph.toDocument.toJson

/-- A graph as YAML. -/
def Graph.toYaml (graph : Graph) : String := graph.toDocument.toYaml

end JavaGraph
