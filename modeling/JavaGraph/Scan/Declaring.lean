import JavaGraph.Scan.Declaration
import JavaGraph.Scan.State
/-!
# Declaring the types of a file

Every site of a file is declared before any reference of the file is looked at, so a reference
finds the declared type wherever in the file it is declared. The name of a type within another is
the name of that one, a `$`, and the site's label.

A site whose name is malformed, or declared already, is reported and left out with all that is
within it.
-/

namespace JavaGraph

/-- The kind of type that a declaration declares; an anonymous class is a class. -/
def TypeKind.ofNode : NodeKind → TypeKind
  | .interfaceDecl => .interfaceType
  | .enumDecl => .enumType
  | .annotationDecl => .annotationType
  | _ => .classType

/-- The modifiers of a type within another: in interfaces everything is public and static, and
what is no class is static everywhere. -/
def Modifiers.ofNestedType (modifiers : Modifiers) (kind : TypeKind) (outer : DeclaredType) :
    Modifiers :=
  { modifiers with
    visibility := if outer.isInterfaceLike then .publicAccess else modifiers.visibility
    isStatic := modifiers.isStatic || outer.isInterfaceLike || kind != .classType }

namespace Site

/-- The name of the type that a site declares. -/
def qualifiedName (site : Site) (package : Option String) (outer : Option DeclaredType) :
    Except NameError QualifiedName :=
  match outer with
  | none => QualifiedName.inPackage package site.label
  | some outer => outer.name.nested site.label

/-- What the type of a site is called within the file: a local class by its written name, any
other by the last segment of its name. -/
def sourceName? (site : Site) (name : QualifiedName) : Option String :=
  site.name?.map fun token => if site.number?.isSome then token.text else name.simpleName

/-- The remark that the name of a site is malformed. -/
def malformed (site : Site) (file : FileId) : Diagnostic :=
  match site.name? with
  | some token => .atToken file token (.malformedName token.text)
  | none => .atNode file site.node (.malformedName site.label)

/-- What is known of the type of a site from the declaration alone. -/
def declaredNode (site : Site) (outer : Option DeclaredType) (type : TypeNode) : TypeNode :=
  let kind := TypeKind.ofNode site.node.kind
  let modifiers := site.node.declaredModifiers
  { type with
    kind := some kind
    modifiers :=
      match outer with
      | none => modifiers
      | some outer => modifiers.ofNestedType kind outer
    span := some (.between site.node.line site.node.lastLine)
    declaringType := outer.map (·.id)
    anonymousIndex := if site.isAnonymous then site.number? else none }

/-- Declare the type of a site under a name. There is none if the name is declared already. -/
def declareAs (site : Site) (source : SourceUnit) (outer : Option DeclaredType)
    (name : QualifiedName) : ScanAction (Option DeclaredType) := do
  match ← (ScanState.inScope (·.declare name source.unit)).attempt with
  | .error (.duplicateDeclaration name existing) =>
    ScanState.report (.atNode source.file site.node (.duplicateDeclaration name.text existing))
    return none
  | .error e => .fail e
  | .ok id =>
    ScanState.onGraph (Graph.updateType id (site.declaredNode outer))
    match outer with
    | none => pure ()
    | some outer =>
      ScanState.onGraph <| Graph.updateType outer.id fun type =>
        { type with innerTypes := type.innerTypes ++ [id] }
    return some {
      id, name, site
      sourceName? := site.sourceName? name
      kind := TypeKind.ofNode site.node.kind
      outer := match outer with
        | none => []
        | some outer => outer.id :: outer.outer }

/-- Declare the type of a site, if its name allows that. -/
def declare (site : Site) (source : SourceUnit) (package : Option String)
    (outer : Option DeclaredType) : ScanAction (Option DeclaredType) := do
  match site.qualifiedName package outer with
  | .error _ =>
    ScanState.report (site.malformed source.file)
    return none
  | .ok name => site.declareAs source outer name

mutual

/-- Declare the type of a site and the types within it. -/
def declareTree (source : SourceUnit) (package : Option String) (outer : Option DeclaredType) :
    Site → ScanAction (List DeclaredType)
  | ⟨name?, number?, base?, node, within⟩ => do
    match ← declare ⟨name?, number?, base?, node, within⟩ source package outer with
    | none => return []
    | some type => return type :: (← declareAll source package (some type) within)

/-- Declare the types of sites and the types within them, in order. -/
def declareAll (source : SourceUnit) (package : Option String) (outer : Option DeclaredType) :
    List Site → ScanAction (List DeclaredType)
  | [] => return []
  | site :: rest => do
    let here ← declareTree source package outer site
    let others ← declareAll source package outer rest
    return here ++ others

end

end Site

/-- Declare all types of a file. -/
def Declarations.declare (source : SourceUnit) (header : Header) (root : Tree) :
    ScanAction Declarations := do
  let sites := Site.ofTree root
  let types ← Site.declareAll source header.package none sites
  return { header, types, topLevel := sites.filterMap fun site => site.name?.map (·.text) }

/-- The name of a file without the folders around it and without its extension. -/
def fileStem (path : String) : String :=
  let name := (path.toList.reverse.takeWhile fun c => c != '/' && c != '\\').reverse
  match name.reverse.dropWhile (· != '.') with
  | [] => String.ofList name
  | _ :: reversed => String.ofList reversed.reverse

/-- The main type of a file: of the types at its top level the one that is called like the file,
or else the first public one, or else the first one. -/
def Declarations.mainType? (declared : Declarations) (path : String) : Option DeclaredType :=
  let topLevel := declared.types.filter (·.outer.isEmpty)
  (topLevel.find? (·.sourceName? = some (fileStem path))).or
    ((topLevel.find? (·.node.declaredModifiers.visibility = .publicAccess)).or topLevel.head?)

end JavaGraph
