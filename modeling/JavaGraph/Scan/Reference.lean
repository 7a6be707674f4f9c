import JavaGraph.Scan.Mention
import JavaGraph.Scan.State
/-!
# References to types

A mention of a type is qualified, and the scope says which type the name stands for. Every
reference is a dependency of the type it is written in. A malformed name is reported and refers to
nothing. If the store does not answer, the name is recorded as if no dependency declared it, and
that is reported.
-/

namespace JavaGraph

/-- Where references are written: the file, what it declares, and the type around them. -/
structure ReferenceSite where
  source : SourceUnit
  declared : Declarations
  owner : DeclaredType

namespace ReferenceSite

/-- The type that a name stands for; `place` is where it is written. -/
def resolve (site : ReferenceSite) (name : QualifiedName) (place : Token) :
    ScanAction TypeId := do
  match ← (ScanState.inScope (·.resolve name site.source.unit)).attempt with
  | .ok id => return id
  | .error e =>
    if e.isStoreFailure then
      ScanState.report (.atToken site.source.file place (.lookupFailed name.text))
      ScanState.inScope (·.require name site.source.unit)
    else .fail e

/-- The type that written segments refer to. -/
def refer (site : ReferenceSite) (segments : List Token) : ScanAction (Option TypeId) := do
  match segments with
  | [] => return none
  | first :: _ =>
    let texts := segments.map (·.text)
    match site.declared.qualify site.owner texts with
    | .error _ =>
      let finding := Finding.malformedName (".".intercalate texts)
      ScanState.report (.atToken site.source.file first finding)
      return none
    | .ok name =>
      let id ← site.resolve name first
      ScanState.noteDependency site.owner.id id
      return some id

/-- Whether segments are the name of a type parameter, of the types around or one of `others`. -/
def isVariable (site : ReferenceSite) (others : List String) (segments : List Token) : Bool :=
  match segments with
  | [single] => site.declared.isTypeVariable site.owner others single.text
  | _ => false

/-- Record a mention. -/
def mention (site : ReferenceSite) (typeVariables : List String) : Mention → ScanAction Unit
  | .annotationName segments => discard (site.refer segments)
  | .typeName segments =>
    if site.isVariable typeVariables segments then pure () else discard (site.refer segments)

/-- Record mentions in order. -/
def mentionAll (site : ReferenceSite) (typeVariables : List String) (mentions : List Mention) :
    ScanAction Unit :=
  .forEach mentions (site.mention typeVariables)

/-- Record an annotation. -/
def annotationUse (site : ReferenceSite) (node : Tree) : ScanAction Unit :=
  site.mentionAll [] (Mention.ofAnnotation node)

/-- Record the annotations of a declaration. -/
def annotationUses (site : ReferenceSite) (declaration : Tree) : ScanAction Unit :=
  .forEach declaration.annotationUses site.annotationUse

/-- What a type reference names. There is nothing if its name is malformed. -/
def typeBase (site : ReferenceSite) (typeVariables : List String) (node : Tree) :
    ScanAction (Option TypeBase) := do
  match Mention.primitive? node with
  | some token => return some (.primitive token.text)
  | none =>
    if site.isVariable typeVariables node.identifiers then
      return node.identifiers.head?.map fun token => .typeVariable token.text
    else return (← site.refer node.identifiers).map .declared

/-- The use of a type that a type reference is, with some more array dimensions. Its type arguments
and annotations are recorded and not part of the use. -/
def typeUse (site : ReferenceSite) (typeVariables : List String) (node : Tree) (dimensions : Nat) :
    ScanAction (Option TypeUse) := do
  site.mentionAll typeVariables (Mention.ofParts node.children)
  let base ← site.typeBase typeVariables node
  return base.map fun base =>
    { base, dimensions := min 255 (dimensions + node.bracketCount) }

/-- The declared type that a type reference refers to. -/
def declaredType (site : ReferenceSite) (typeVariables : List String) (node : Tree) :
    ScanAction (Option TypeId) := do
  let use ← site.typeUse typeVariables node 0
  return use.bind (·.declared?)

/-- The declared types that the type references directly below a node refer to. -/
def declaredTypes (site : ReferenceSite) (typeVariables : List String) (node : Tree) :
    ScanAction (List TypeId) :=
  .collect (node.childrenOfKind .typeRef) (site.declaredType typeVariables)

end ReferenceSite

/-- A use of a type as text: `java.util.List`, `int[]`, `T`. -/
def TypeUse.display (graph : Graph) (use : TypeUse) : String :=
  let base := match use.base with
    | .primitive name | .typeVariable name => name
    | .declared id => ((graph.types.get? id).map (·.name.text)).getD id.render
  base ++ String.join (List.replicate use.dimensions "[]")

end JavaGraph
