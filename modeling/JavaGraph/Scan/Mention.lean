import JavaGraph.Scan.Declaration
/-!
# Mentions of types

What a reference to a type mentions, read off the tree alone: the names of annotations on it and
of its type arguments, in the order they are written, and at last its own name. A primitive type
has no name to mention.
-/

namespace JavaGraph

/-- A mention of a type. -/
inductive Mention where
  /-- The name of an annotation. -/
  | annotationName (segments : List Token)
  /-- The name of a type; a single segment may name a type parameter instead. -/
  | typeName (segments : List Token)

namespace Mention

/-- The name that an annotation mentions. -/
def ofAnnotation (node : Tree) : List Mention :=
  match node.qualifiedName? with
  | none => []
  | some segments => [.annotationName segments]

/-- The primitive type that a type reference names. -/
def primitive? (node : Tree) : Option Token :=
  (node.childTokens.filter (·.kind.isPrimitiveType)).getLast?

/-- The name that a type reference itself mentions. -/
def own (node : Tree) : List Mention :=
  if (primitive? node).isSome || node.identifiers.isEmpty then []
  else [.typeName node.identifiers]

mutual

/-- All that a type reference mentions. -/
def ofTypeRef : Tree → List Mention
  | .error _ _ => []
  | .node kind anchor extent comments children =>
    ofParts children ++ own (.node kind anchor extent comments children)

/-- What the parts of a type reference mention: annotations and type arguments. -/
def ofParts : List Tree → List Mention
  | [] => []
  | part :: rest => ofPart part ++ ofParts rest

/-- What a part of a type reference mentions. -/
def ofPart : Tree → List Mention
  | .error _ _ => []
  | .node kind anchor extent comments children =>
    if kind = .annotationUse then ofAnnotation (.node kind anchor extent comments children)
    else if kind = .typeArguments then ofArguments children
    else []

/-- What type arguments mention. -/
def ofArguments : List Tree → List Mention
  | [] => []
  | argument :: rest => ofArgument argument ++ ofArguments rest

/-- What a type argument mentions: a type, or a wildcard with a bound. -/
def ofArgument : Tree → List Mention
  | .error _ _ => []
  | .node kind anchor extent comments children =>
    if kind = .typeRef then
      ofParts children ++ own (.node kind anchor extent comments children)
    else if kind = .wildcard then ofBound children
    else []

/-- What the first type reference among some nodes mentions. -/
def ofBound : List Tree → List Mention
  | [] => []
  | node :: rest => if node.kind = .typeRef then ofTypeRef node else ofBound rest

end

end Mention

end JavaGraph
