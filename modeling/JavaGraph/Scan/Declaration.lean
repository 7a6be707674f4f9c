import JavaGraph.Graph.Node
import JavaGraph.Scan.Header
import JavaGraph.Scan.Site
/-!
# The types of a file, and what names mean among them

`Declarations` holds what a file declares, once all of it is declared. `Declarations.qualify` tells
which name written segments stand for, seen from inside one of the types. A simple name is looked
up, in this order, among

1. the type itself and the types around it, each with the types directly within it, innermost first,
2. the types at the top level of the file,
3. the imports of single types,
4. if it is capitalised, the types every file sees, and else the package of the file.

A dotted name whose first segment is found this way goes on with nested types. Any other is taken
as it is written.
-/

namespace JavaGraph

/-- A type that a file declares. -/
structure DeclaredType where
  id : TypeId
  name : QualifiedName
  /-- What the type is called within the file; anonymous classes are called nothing. -/
  sourceName? : Option String
  kind : TypeKind
  site : Site
  /-- The types around it, innermost first. -/
  outer : List TypeId

namespace Tree

/-- The names of the type parameters that a node lists. -/
def typeParameterNames (tree : Tree) : List String :=
  (tree.childrenOfKind .typeParameter).filterMap fun parameter =>
    parameter.declaredName?.map (·.text)

/-- The modifiers written on a declaration; of several visibilities the last one counts. -/
def declaredModifiers (tree : Tree) : Modifiers :=
  match tree.childOfKind? .modifiers with
  | none => {}
  | some list => list.childTokens.foldl (fun modifiers token =>
    match token.kind with
    | .kwPublic => { modifiers with visibility := .publicAccess }
    | .kwProtected => { modifiers with visibility := .protectedAccess }
    | .kwPrivate => { modifiers with visibility := .privateAccess }
    | .kwStatic => { modifiers with isStatic := true }
    | .kwFinal => { modifiers with isFinal := true }
    | .kwAbstract => { modifiers with isAbstract := true }
    | .kwTransient => { modifiers with isTransient := true }
    | .kwVolatile => { modifiers with isVolatile := true }
    | .kwSynchronized => { modifiers with isSynchronized := true }
    | .kwNative => { modifiers with isNative := true }
    | _ => modifiers) {}

/-- The annotations written on a declaration. -/
def annotationUses (tree : Tree) : List Tree :=
  match tree.childOfKind? .modifiers with
  | none => []
  | some list => list.childrenOfKind .annotationUse

/-- The number of opening brackets directly below a node, which is not counted beyond 255. -/
def bracketCount (tree : Tree) : Nat :=
  min 255 (tree.childTokens.countP (·.kind == .lBracket))

end Tree

namespace DeclaredType

/-- The declaration, or the class body of an anonymous class. -/
def node (type : DeclaredType) : Tree := type.site.node

/-- The body with the members. -/
def body? (type : DeclaredType) : Option Tree :=
  if type.site.base?.isSome then some type.node
  else (type.node.childOfKind? .classBody).or (type.node.childOfKind? .enumBody)

/-- The type parameters of the declaration. -/
def typeParameters (type : DeclaredType) : List String :=
  ((type.node.childOfKind? .typeParameters).map Tree.typeParameterNames).getD []

/-- Whether members are those of an interface: public, and fields constant. -/
def isInterfaceLike (type : DeclaredType) : Bool :=
  type.kind = .interfaceType || type.kind = .annotationType

end DeclaredType

/-- What a file declares. -/
structure Declarations where
  header : Header
  /-- The names written on the declarations at the top level, refused ones included. -/
  topLevel : List String
  /-- The declared types, each before those within it. -/
  types : List DeclaredType

namespace Declarations

/-- The declared type with an identifier. -/
def find? (declared : Declarations) (id : TypeId) : Option DeclaredType :=
  declared.types.find? (·.id = id)

/-- A type and the types around it, innermost first. -/
def around (declared : Declarations) (type : DeclaredType) : List DeclaredType :=
  type :: type.outer.filterMap declared.find?

/-- The types directly within a type. -/
def within (declared : Declarations) (type : DeclaredType) : List DeclaredType :=
  declared.types.filter (·.outer.head? = some type.id)

/-- What a simple name stands for at a type: the type itself, or the last type directly within it
that is called so. -/
def nameAt? (declared : Declarations) (simple : String) (type : DeclaredType) :
    Option QualifiedName :=
  if type.sourceName? = some simple then some type.name
  else
    (((declared.within type).filter (·.sourceName? = some simple)).getLast?).map (·.name)

/-- What a simple name stands for at the top level of the file. -/
def topLevelName? (declared : Declarations) (simple : String) : Option QualifiedName :=
  if declared.topLevel.contains simple then
    (QualifiedName.inPackage declared.header.package simple).toOption
  else none

/-- What a simple name stands for by the declarations and imports of the file. -/
def simpleName? (declared : Declarations) (owner : DeclaredType) (simple : String) :
    Option QualifiedName :=
  ((declared.around owner).findSome? (declared.nameAt? simple)).or
    ((declared.topLevelName? simple).or (declared.header.imports.find? simple))

/-- The text of the name that written segments stand for inside a type. -/
def qualifiedText (declared : Declarations) (owner : DeclaredType) (segments : List String) :
    String :=
  match segments with
  | [] => ""
  | first :: rest =>
    let nested := rest.foldl (fun text segment => text ++ "$" ++ segment)
    match declared.simpleName? owner first with
    | some name => nested name.text
    | none =>
      if Text.startsUppercase first then nested (declared.header.fallback first)
      else Name.binary segments

/-- The name that written segments stand for inside a type. -/
def qualify (declared : Declarations) (owner : DeclaredType) (segments : List String) :
    Except NameError QualifiedName :=
  QualifiedName.parse (declared.qualifiedText owner segments)

/-- Whether a simple name is a type parameter of a type, of a type around it, or one of some
others. -/
def isTypeVariable (declared : Declarations) (owner : DeclaredType) (others : List String)
    (simple : String) : Bool :=
  others.contains simple || (declared.around owner).any (·.typeParameters.contains simple)

end Declarations

end JavaGraph
