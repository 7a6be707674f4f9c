import JavaGraph.Name
import JavaGraph.Scan.Diagnostic
import JavaGraph.Table
import JavaGraph.Text.Uppercase
/-!
# Headers of source files

The package a file belongs to and the types it imports one by one. Together with the types that
every file sees without an import, they tell what a written name stands for that no declaration of
the file explains.
-/

namespace JavaGraph

namespace Name

/-- Join written segments to a name. A segment that begins with an uppercase character is taken
for a type, and what follows it for types nested in it. -/
def binaryFrom (nested : Bool) : List String → String
  | [] => ""
  | [segment] => segment
  | segment :: rest =>
    let nested := nested || Text.startsUppercase segment
    segment ++ (if nested then "$" else ".") ++ binaryFrom nested rest

/-- The name that dotted segments stand for: `java.util.Map$Entry` for `java.util.Map.Entry`. -/
def binary (segments : List String) : String := binaryFrom false segments

end Name

/-- The types of the package `java.lang` that every file sees. -/
def standardTypes : List String :=
  ["AbstractMethodError", "Appendable", "ArithmeticException", "ArrayIndexOutOfBoundsException",
    "ArrayStoreException", "AssertionError", "AutoCloseable", "Boolean", "Byte", "CharSequence",
    "Character", "Class", "ClassCastException", "ClassLoader", "ClassNotFoundException",
    "CloneNotSupportedException", "Cloneable", "Comparable", "Deprecated", "Double", "Enum",
    "Error", "Exception", "Float", "FunctionalInterface", "IllegalAccessException",
    "IllegalArgumentException", "IllegalStateException", "IndexOutOfBoundsException",
    "InstantiationException", "Integer", "InterruptedException", "Iterable", "Long", "Math",
    "NegativeArraySizeException", "NoSuchFieldException", "NoSuchMethodException",
    "NullPointerException", "Number", "NumberFormatException", "Object", "OutOfMemoryError",
    "Override", "Process", "Readable", "Record", "ReflectiveOperationException", "Runnable",
    "Runtime", "RuntimeException", "SafeVarargs", "SecurityException", "Short",
    "StackOverflowError", "StrictMath", "String", "StringBuffer", "StringBuilder",
    "StringIndexOutOfBoundsException", "SuppressWarnings", "System", "Thread", "ThreadLocal",
    "Throwable", "UnsupportedOperationException", "Void"]

/-- The identifiers directly below a node. -/
def Tree.identifiers (tree : Tree) : List Token :=
  tree.childTokens.filter (·.kind == .ident)

/-- The identifiers of the first qualified name directly below a node. -/
def Tree.qualifiedName? (tree : Tree) : Option (List Token) :=
  (tree.childOfKind? .qualifiedName).map identifiers

/-- What is written before the types of a file. -/
structure Header where
  package : Option String := none
  /-- The types imported one by one, by the last segment of their names. -/
  imports : Table String QualifiedName := {}

namespace Header

/-- A piece of a header, as it is written. -/
inductive Item where
  | package (segments : List String)
  /-- The import of one type; an import of static members or of a whole package is none. -/
  | importType (declaration : Tree) (segments : List String)

/-- The piece of a header that a node of the file is. -/
def item? (node : Tree) : Option Item :=
  let segments := node.qualifiedName?.map (List.map Token.text)
  match node.kind with
  | .packageDecl => segments.map .package
  | .importDecl =>
    if node.hasChildToken .kwStatic || node.hasChildToken .star then none
    else segments.map (.importType node)
  | _ => none

/-- The header with one more piece, and what is wrong with that piece. -/
def add (file : FileId) (header : Header) (item : Item) : Header × List Diagnostic :=
  match item with
  | .package segments => ({ header with package := some (".".intercalate segments) }, [])
  | .importType declaration segments =>
    match segments.getLast? with
    | none => (header, [])
    | some simple =>
      match QualifiedName.parse (Name.binary segments) with
      | .ok name => ({ header with imports := header.imports.insert simple name }, [])
      | .error _ =>
        (header, [.atNode file declaration (.malformedName (".".intercalate segments))])

/-- A header with more pieces, and what is wrong with them. -/
def addAll (file : FileId) (header : Header) : List Item → Header × List Diagnostic
  | [] => (header, [])
  | item :: rest =>
    let (header, found) := header.add file item
    let (header, others) := addAll file header rest
    (header, found ++ others)

/-- The header of a file, and what is wrong with it. -/
def ofTree (file : FileId) (root : Tree) : Header × List Diagnostic :=
  addAll file {} (root.children.filterMap item?)

/-- What a capitalised simple name stands for that nothing in the file explains: a type that every
file sees, or one of the same package. -/
def fallback (header : Header) (simple : String) : String :=
  if standardTypes.contains simple then "java.lang." ++ simple
  else
    match header.package with
    | some package => package ++ "." ++ simple
    | none => simple

end Header

end JavaGraph
