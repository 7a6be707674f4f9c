import JavaGraph.Scan.Reference
/-!
# Members

Supertypes, fields, functions and parameters of the declared types, in the order they are written.
What a function or an initial value executes is not looked at here but handed on as `Body`s.
-/

namespace JavaGraph

/-- Code that belongs to a type. -/
structure Body where
  /-- The function that executes it; initial values belong to no function. -/
  function : Option FunctionId := none
  node : Tree
  /-- The parameters of the function. -/
  locals : List String := []
  /-- The type parameters of the function. -/
  typeParameters : List String := []

/-- What is recorded of some members. -/
structure MemberRecord where
  /-- The fields by their names. -/
  fields : List (String × FieldId) := []
  bodies : List Body := []

namespace MemberRecord

/-- The records of two groups of members together. -/
def append (a b : MemberRecord) : MemberRecord := ⟨a.fields ++ b.fields, a.bodies ++ b.bodies⟩

/-- The records of some groups of members together. -/
def join : List MemberRecord → MemberRecord
  | [] => {}
  | record :: rest => record.append (join rest)

/-- The field with a name; of several the last one. -/
def field? (record : MemberRecord) (name : String) : Option FieldId :=
  (record.fields.reverse.find? (·.1 = name)).map (·.2)

end MemberRecord

/-- The modifiers of a member: in interfaces it is public unless it says otherwise, and abstract if
it has no body where it could have one and is not static. -/
def Modifiers.ofMember (modifiers : Modifiers) (owner : DeclaredType) (bodiless : Bool) :
    Modifiers :=
  if owner.isInterfaceLike then
    { modifiers with
      visibility :=
        if modifiers.visibility = .packageAccess then .publicAccess else modifiers.visibility
      isAbstract := modifiers.isAbstract || (bodiless && !modifiers.isStatic) }
  else modifiers

/-- The modifiers of a field: in interfaces it is a constant. -/
def Modifiers.ofField (modifiers : Modifiers) (owner : DeclaredType) : Modifiers :=
  let modifiers := modifiers.ofMember owner false
  { modifiers with
    isStatic := modifiers.isStatic || owner.isInterfaceLike
    isFinal := modifiers.isFinal || owner.isInterfaceLike }

/-- The modifiers of an enum constant. -/
def Modifiers.ofEnumConstant : Modifiers :=
  { visibility := .publicAccess, isStatic := true, isFinal := true }

namespace ReferenceSite

/-! ### Supertypes -/

/-- The types of the clause of a kind that a declaration may have. -/
def clause (site : ReferenceSite) (kind : NodeKind) : ScanAction (List TypeId) :=
  match site.owner.node.childOfKind? kind with
  | none => pure []
  | some clause => site.declaredTypes [] clause

/-- The superclass and the interfaces of the type. What an anonymous class is based on is one of
its interfaces if it is known as an interface at this moment, and else its superclass. -/
def supertypes (site : ReferenceSite) : ScanAction (Option TypeId × List TypeId) := do
  match site.owner.node.kind, site.owner.site.base? with
  | .classDecl, _ =>
    let extended ← site.clause .extendsClause
    let implemented ← site.clause .implementsClause
    return (extended.head?, implemented)
  | .interfaceDecl, _ => return (none, ← site.clause .extendsClause)
  | .enumDecl, _ => return (none, ← site.clause .implementsClause)
  | _, some .enclosingEnum => return (site.owner.outer.head?, [])
  | _, some (.typeRef node) =>
    match ← site.declaredType [] node with
    | none => return (none, [])
    | some base =>
      let type ← ScanState.readGraph fun graph => graph.types.get base
      return if type.kind = some .interfaceType then (none, [base]) else (some base, [])
  | _, none => return (none, [])

/-- Record the supertypes of the type. -/
def recordSupertypes (site : ReferenceSite) : ScanAction Unit := do
  let (superclass, interfaces) ← site.supertypes
  ScanState.onGraph <| Graph.updateType site.owner.id fun type =>
    { type with superclass, interfaces }

/-! ### Fields -/

/-- Record the field of a declarator; `typeRef` is the type written before the declarators. -/
def recordField (site : ReferenceSite) (typeRef : Tree) (modifiers : Modifiers)
    (declarator : Tree) : ScanAction (Option MemberRecord) := do
  match declarator.declaredName? with
  | none => return none
  | some name =>
    match ← site.typeUse [] typeRef declarator.bracketCount with
    | none => return none
    | some typeUse =>
      let display ← ScanState.readGraph fun graph => .ok (typeUse.display graph)
      let id ← ScanState.onGraph <| Graph.addField {
        name := name.text
        declaringType := site.owner.id
        typeUse, modifiers
        line := declarator.line
        signature := display ++ " " ++ name.text }
      return some {
        fields := [(name.text, id)]
        bodies := (declarator.nodes.head?.map fun node => { node }).toList }

/-- Record the fields of a declaration. -/
def recordFields (site : ReferenceSite) (node : Tree) : ScanAction MemberRecord := do
  site.annotationUses node
  match node.childOfKind? .typeRef with
  | none => return {}
  | some typeRef =>
    let modifiers := node.declaredModifiers.ofField site.owner
    let declarators := node.childrenOfKind .variableDeclarator
    return .join (← .collect declarators (site.recordField typeRef modifiers))

/-- Record the field that an enum constant is. -/
def recordEnumConstant (site : ReferenceSite) (node : Tree) : ScanAction MemberRecord := do
  site.annotationUses node
  match node.declaredName? with
  | none => return {}
  | some name =>
    let id ← ScanState.onGraph <| Graph.addField {
      name := name.text
      declaringType := site.owner.id
      typeUse := { base := .declared site.owner.id }
      modifiers := .ofEnumConstant
      line := node.line
      signature := site.owner.name.text ++ " " ++ name.text }
    return {
      fields := [(name.text, id)]
      bodies := ((node.childOfKind? .arguments).map fun node => { node }).toList }

/-! ### Functions -/

/-- The type parameters of a function. Their bounds are recorded. -/
def functionTypeParameters (site : ReferenceSite) (node : Tree) : ScanAction (List String) :=
  match node.childOfKind? .typeParameters with
  | none => pure []
  | some list => do
    let names := list.typeParameterNames
    .forEach (list.childrenOfKind .typeParameter) fun parameter =>
      .forEach (parameter.childrenOfKind .typeRef) fun bound =>
        discard (site.typeUse names bound 0)
    return names

/-- The kind and the name of a function; a method without a name is none. -/
def functionHead? (node : Tree) : Option (FunctionKind × String) :=
  match node.kind with
  | .constructorDecl => some (.constructor, "<init>")
  | .initializer =>
    some (.initializer, if node.hasChildToken .kwStatic then "<clinit>" else "<instinit>")
  | _ => node.declaredName?.map fun name => (.method, name.text)

/-- What a method returns. -/
def returnType (site : ReferenceSite) (typeVariables : List String) (node : Tree) :
    ScanAction (Option TypeUse) :=
  match node.childToken? .kwVoid with
  | some token => pure (some { base := .primitive token.text })
  | none =>
    match node.childOfKind? .typeRef with
    | some typeRef => site.typeUse typeVariables typeRef node.bracketCount
    | none => pure none

/-- What is written of a parameter. -/
structure ParameterHead where
  name : String
  typeUse : TypeUse
  isVarargs : Bool

/-- A parameter of a function. A receiver parameter has no name and is none. -/
def parameterHead (site : ReferenceSite) (typeVariables : List String) (node : Tree) :
    ScanAction (Option ParameterHead) := do
  site.annotationUses node
  match node.declaredName?, node.childOfKind? .typeRef with
  | some name, some typeRef =>
    let isVarargs := node.hasChildToken .ellipsis
    let dimensions := node.bracketCount + if isVarargs then 1 else 0
    let use ← site.typeUse typeVariables typeRef dimensions
    return use.map fun typeUse => { name := name.text, typeUse, isVarargs }
  | _, _ => return none

/-- The parameters of a function. -/
def parameterHeads (site : ReferenceSite) (typeVariables : List String) (node : Tree) :
    ScanAction (List ParameterHead) :=
  match node.childOfKind? .formalParameters with
  | none => pure []
  | some list => .collect (list.childrenOfKind .parameter) (site.parameterHead typeVariables)

/-- The modifiers of a function. -/
def functionModifiers (site : ReferenceSite) (kind : FunctionKind) (node : Tree) : Modifiers :=
  match kind with
  | .method => node.declaredModifiers.ofMember site.owner (node.childOfKind? .block).isNone
  | .initializer => { isStatic := node.hasChildToken .kwStatic }
  | .constructor => node.declaredModifiers

/-- Add parameters to a function, in order. -/
def addParameters (function : FunctionId) (heads : List ParameterHead) : GraphAction Unit :=
  .forEach heads.zipIdx fun (head, index) =>
    discard <| Graph.addParameter {
      name := head.name
      index
      typeUse := head.typeUse
      function
      isVarargs := head.isVarargs }

/-- Record a method, a constructor or an initialiser. -/
def recordFunction (site : ReferenceSite) (node : Tree) : ScanAction MemberRecord := do
  site.annotationUses node
  let typeParameters ← site.functionTypeParameters node
  match functionHead? node with
  | none => return {}
  | some (kind, name) =>
    let returns ← if kind = .method then site.returnType typeParameters node else pure none
    let parameters ← site.parameterHeads typeParameters node
    let throws ← match node.childOfKind? .throwsClause with
      | none => pure []
      | some clause => site.declaredTypes typeParameters clause
    let displays ← ScanState.readGraph fun graph =>
      .ok (parameters.map (·.typeUse.display graph))
    let id ← ScanState.onGraph do
      let id ← Graph.addFunction {
        name, kind, returns, throws
        declaringType := site.owner.id
        modifiers := site.functionModifiers kind node
        span := .between node.line node.lastLine
        signature := name ++ "(" ++ ",".intercalate displays ++ ")" }
      addParameters id parameters
      return id
    let body? := (node.childOfKind? .block).map fun block => ({
      function := some id
      node := block
      locals := parameters.map (·.name)
      typeParameters } : Body)
    return { bodies := body?.toList }

/-! ### Types -/

/-- Record a member of the type, unless it is a type itself. -/
def recordMember (site : ReferenceSite) (node : Tree) : ScanAction MemberRecord :=
  match node.kind with
  | .fieldDecl => site.recordFields node
  | .enumConstant => site.recordEnumConstant node
  | .methodDecl | .constructorDecl | .initializer => site.recordFunction node
  | _ => pure {}

/-- Record supertypes, annotations and members of the type. -/
def recordMembers (site : ReferenceSite) : ScanAction MemberRecord := do
  site.recordSupertypes
  site.annotationUses site.owner.node
  match site.owner.body? with
  | none => return {}
  | some body => return .join (← .mapEach body.children site.recordMember)

end ReferenceSite

end JavaGraph
