/-!
# Identifiers

Every node of the graph has an identifier: its kind and its number among the nodes of that kind.
The kind is part of the type, so the identifier of a field is never taken for one of a type.
-/

namespace JavaGraph

/-- The kinds of nodes. -/
inductive EntityKind where
  | artifact | unit | type | field | function | parameter | textFile | line
deriving DecidableEq, Repr

/-- What a kind of nodes is called. -/
def EntityKind.label : EntityKind → String
  | .artifact => "artifact"
  | .unit => "unit"
  | .type => "type"
  | .field => "field"
  | .function => "function"
  | .parameter => "parameter"
  | .textFile => "text file"
  | .line => "line"

/-- The identifier of a node of a kind. -/
structure Id (kind : EntityKind) where
  index : Nat
deriving DecidableEq, Repr

/-- An identifier as text. -/
def Id.render {kind : EntityKind} (id : Id kind) : String :=
  s!"{kind.label}#{id.index}"

/-- An artifact: units that resolve names together. -/
abbrev ArtifactId := Id .artifact

/-- A compilation unit: one source file. -/
abbrev UnitId := Id .unit

/-- A type, declared or only referenced. -/
abbrev TypeId := Id .type

/-- A field of a type. -/
abbrev FieldId := Id .field

/-- A method, a constructor or an initialiser block. -/
abbrev FunctionId := Id .function

/-- A parameter of a function. -/
abbrev ParameterId := Id .parameter

/-- A file recorded as plain text. -/
abbrev TextFileId := Id .textFile

/-- A line of plain text. -/
abbrev LineId := Id .line

/-- A path known to a scanner. -/
structure FileId where
  index : Nat
deriving DecidableEq, Repr

/-- A file identifier as text. -/
def FileId.render (id : FileId) : String := s!"file#{id.index}"

/-- A file identifier as text for debugging. -/
def FileId.debug (id : FileId) : String := s!"FileId({id.index})"

end JavaGraph
