import JavaGraph.Graph.Id
import JavaGraph.Name
import JavaGraph.Text.Position
/-!
# Nodes of the graph

What is recorded of artifacts, compilation units, types, fields, functions, parameters, accesses
and plain text. Edges are identifiers held by the node they start from.

A type begins as a placeholder, when its name is referenced before or without its declaration,
and becomes complete once, when it is declared.
-/

namespace JavaGraph

/-- From where something may be used. -/
inductive Visibility where
  | publicAccess | protectedAccess | packageAccess | privateAccess
deriving DecidableEq, Repr

/-- The modifiers of a declaration. -/
structure Modifiers where
  visibility : Visibility := .packageAccess
  isStatic : Bool := false
  isFinal : Bool := false
  isAbstract : Bool := false
  isTransient : Bool := false
  isVolatile : Bool := false
  isSynchronized : Bool := false
  isNative : Bool := false
deriving DecidableEq, Repr

/-- Units that resolve names together, and the artifacts they may resolve names against. -/
structure Artifact where
  name : String
  units : List UnitId := []
  dependencies : List ArtifactId := []
deriving DecidableEq, Repr

/-- A source file. -/
structure CompilationUnit where
  path : String
  package : Option String := none
  artifact : Option ArtifactId := none
  /-- Whether the file has syntactic faults. -/
  mayNotCompile : Bool := false
  declaredTypes : List TypeId := []
  /-- One of the declared types. -/
  mainType : Option TypeId := none
  /-- The placeholders that were created for this unit and are not declared yet. -/
  requiredTypes : List TypeId := []
  /-- The artifacts that names may be resolved against. -/
  dependencies : List ArtifactId := []
deriving DecidableEq, Repr

/-- The kinds of declared types. -/
inductive TypeKind where
  | classType | interfaceType | enumType | annotationType
deriving DecidableEq, Repr

/-- How far a type has come. -/
inductive TypeState where
  /-- A placeholder. While the scope that created it is open, it names the unit that needs it. -/
  | incomplete (requiredBy : Option UnitId)
  /-- Declared by a unit. -/
  | complete (declaredBy : UnitId)
deriving DecidableEq, Repr

namespace TypeState

/-- Whether the type is declared. -/
def isComplete : TypeState → Bool
  | .incomplete _ => false
  | .complete _ => true

/-- The unit that declares the type. -/
def declaredBy : TypeState → Option UnitId
  | .incomplete _ => none
  | .complete unit => some unit

/-- The unit that needs the placeholder. -/
def requiredBy : TypeState → Option UnitId
  | .incomplete unit => unit
  | .complete _ => none

end TypeState

/-- Where a name stands for one type only: an artifact, or everything outside artifacts. -/
abbrev Universe := Option ArtifactId

/-- A type. -/
structure TypeNode where
  name : QualifiedName
  /-- The universe the type belongs to. -/
  home : Universe
  state : TypeState := .incomplete none
  /-- The artifact of the unit that declares it. -/
  artifact : Option ArtifactId := none
  kind : Option TypeKind := none
  modifiers : Modifiers := {}
  /-- The lines of the declaration. -/
  span : Option Text.LineSpan := none
  superclass : Option TypeId := none
  interfaces : List TypeId := []
  innerTypes : List TypeId := []
  declaringType : Option TypeId := none
  /-- The number of an anonymous class among those of its declaring type, from 1. -/
  anonymousIndex : Option Nat := none
  fields : List FieldId := []
  functions : List FunctionId := []
  /-- The types that the declaration and its bodies refer to, each once. -/
  dependsOn : List TypeId := []
deriving DecidableEq

namespace TypeNode

/-- Whether the type is declared. -/
def isComplete (type : TypeNode) : Bool := type.state.isComplete

/-- The placeholder with another unit that needs it; a declared type stays as it is. -/
def setRequiredBy (type : TypeNode) (unit : Option UnitId) : TypeNode :=
  match type.state with
  | .incomplete _ => { type with state := .incomplete unit }
  | .complete _ => type

end TypeNode

/-- What a use of a type names. -/
inductive TypeBase where
  /-- A primitive type or `void`. -/
  | primitive (name : String)
  | declared (type : TypeId)
  /-- A type parameter. -/
  | typeVariable (name : String)
deriving DecidableEq, Repr

/-- A use of a type. -/
structure TypeUse where
  base : TypeBase
  /-- The number of array dimensions; it is not counted beyond 255. -/
  dimensions : Nat := 0
deriving DecidableEq, Repr

/-- The declared type that is used. -/
def TypeUse.declared? (use : TypeUse) : Option TypeId :=
  match use.base with
  | .declared type => some type
  | _ => none

/-- A field of a type. -/
structure Field where
  name : String
  declaringType : TypeId
  typeUse : TypeUse
  modifiers : Modifiers := {}
  line : Nat
  /-- The type and the name. -/
  signature : String
deriving DecidableEq, Repr

/-- The kinds of functions. -/
inductive FunctionKind where
  | method | constructor | initializer
deriving DecidableEq, Repr

/-- A function of a type. -/
structure Function where
  name : String
  kind : FunctionKind
  declaringType : TypeId
  parameters : List ParameterId := []
  /-- What a method returns. -/
  returns : Option TypeUse := none
  throws : List TypeId := []
  modifiers : Modifiers := {}
  span : Text.LineSpan
  /-- The name and the types of the parameters. -/
  signature : String
deriving DecidableEq, Repr

/-- A parameter of a function. -/
structure Parameter where
  name : String
  /-- Its place among the parameters, from 0. -/
  index : Nat
  typeUse : TypeUse
  function : FunctionId
  isVarargs : Bool := false
deriving DecidableEq, Repr

/-- The two ways to use a field. -/
inductive AccessKind where
  | read | write
deriving DecidableEq, Repr

/-- One use of a field by a function. -/
structure Access where
  function : FunctionId
  field : FieldId
  line : Nat
  kind : AccessKind
deriving DecidableEq, Repr

/-- A file recorded as plain text. -/
structure TextFile where
  path : String
  lines : List LineId := []
deriving DecidableEq, Repr

/-- A line of a plain text. -/
structure Line where
  file : TextFileId
  /-- Its place in the file, from 0. -/
  number : Nat
  text : String
  /-- The line behind it in the same file. -/
  next : Option LineId := none
deriving DecidableEq, Repr

end JavaGraph
