import JavaGraph.Scan.Member
/-!
# Bodies

What code refers to and which fields it uses, read off the tree alone as a list of events.

Names are followed through blocks: a simple name is a field of the type or of a type around it,
unless a local variable of that name is in scope. `this.name` is a field of the type itself. A
capitalised name in front of a dot that is neither a variable nor a field names a type. Compound
assignments, `++` and `--` read and write; a type declared within the code is left out, since it is
looked at as a type of its own.
-/

namespace JavaGraph

/-- What happens in code. -/
inductive BodyEvent where
  /-- A reference to a type, with arguments and annotations. -/
  | typeRef (node : Tree)
  | annotationUse (node : Tree)
  /-- A simple name that names a type. -/
  | typeName (token : Token)
  | access (field : FieldId) (line : Nat) (kind : AccessKind)

/-- The fields that code sees. -/
structure VisibleFields where
  /-- The fields of the type itself. -/
  own : MemberRecord
  /-- The fields of the types around it, innermost first. -/
  outer : List MemberRecord

namespace VisibleFields

/-- The field of the type itself with a name. -/
def own? (fields : VisibleFields) (name : String) : Option FieldId := fields.own.field? name

/-- The field that a simple name stands for. -/
def find? (fields : VisibleFields) (name : String) : Option FieldId :=
  (fields.own :: fields.outer).findSome? (·.field? name)

end VisibleFields

namespace BodyEvent

/-- Whether local variables declared in a construct end with it. -/
def opensScope : NodeKind → Bool
  | .block | .forStmt | .forEachStmt | .catchClause | .lambdaExpr | .tryStmt | .switchStmt
  | .switchCase => true
  | _ => false

/-- The local variables that a construct declares itself. -/
def declaredLocals (node : Tree) : List String :=
  match node.kind with
  | .variableDeclarator | .forEachStmt | .catchClause | .parameter | .instanceOfExpr =>
    node.declaredName?.toList.map (·.text)
  | .lambdaParams => node.identifiers.map (·.text)
  | _ => []

/-- A use of a field, and its line. -/
structure Target where
  field : FieldId
  line : Nat

/-- The field that a simple name or a `this.name` denotes. -/
def namedTarget? (fields : VisibleFields) (locals : List String) (node : Tree) : Option Target :=
  match node.kind, node.childToken? .ident with
  | .nameRef, some name =>
    if locals.contains name.text then none
    else (fields.find? name.text).map fun field => ⟨field, name.line⟩
  | .fieldAccess, some name =>
    if node.children.head?.any (·.kind == .thisExpr) then
      (fields.own? name.text).map fun field => ⟨field, name.line⟩
    else none
  | _, _ => none

mutual

/-- The field that an expression denotes, through any parentheses. -/
def target? (fields : VisibleFields) (locals : List String) : Tree → Option Target
  | .error _ _ => none
  | .node kind anchor extent comments children =>
    if kind = .parenExpr then firstTarget? fields locals children
    else namedTarget? fields locals (.node kind anchor extent comments children)

/-- The field that the first composite node among some denotes. -/
def firstTarget? (fields : VisibleFields) (locals : List String) : List Tree → Option Target
  | [] => none
  | node :: rest =>
    if node.isComposite then target? fields locals node else firstTarget? fields locals rest

end

/-- The type that an expression in front of a dot names. -/
def typeTarget? (fields : VisibleFields) (locals : List String) (node : Tree) : Option Token :=
  if node.kind = .nameRef then
    (node.childToken? .ident).filter fun name =>
      Text.startsUppercase name.text && !locals.contains name.text &&
        (fields.find? name.text).isNone
  else none

/-- The events of an access. -/
def reads (target : Target) : List BodyEvent := [.access target.field target.line .read]

/-- The events of an access that writes. -/
def writes (target : Target) : List BodyEvent := [.access target.field target.line .write]

/-- Whether an assignment does not read what it writes. -/
def isPlainAssignment (children : List Tree) : Bool :=
  children.tail.filterMap Tree.tokenKind? == [.assign]

/-- Whether a unary expression changes its operand. -/
def isStep (children : List Tree) : Bool :=
  children.any fun node => node.tokenKind? == some .plusPlus || node.tokenKind? == some .minusMinus

/-- What the walk over a piece of code gives: its events, and the local variables in scope behind
it. -/
abbrev Walk := List BodyEvent × List String

mutual

/-- The events of a node. -/
def ofNode (fields : VisibleFields) (locals : List String) : Tree → Walk
  | .error _ _ => ([], locals)
  | .node kind anchor extent comments children =>
    let node := Tree.node kind anchor extent comments children
    if kind.isTypeDeclaration || kind = .classBody then ([], locals)
    else if kind = .typeRef then ([.typeRef node], locals)
    else if kind = .annotationUse then ([.annotationUse node], locals)
    else
      let walk :=
        if kind = .assignExpr then ofAssignment fields locals children
        else if (kind = .unaryExpr ∨ kind = .postfixExpr) ∧ isStep children then
          match firstTarget? fields locals children with
          | some target => (reads target ++ writes target, locals)
          | none => ofNodes fields locals children
        else if kind = .nameRef then
          match target? fields locals node with
          | some target => (reads target, locals)
          | none => ([], locals)
        else if kind = .fieldAccess then
          match target? fields locals node with
          | some target => (reads target, locals)
          | none => ofQualified fields locals children
        else if kind = .methodCall ∨ kind = .methodRef ∨ kind = .classLiteral then
          ofQualified fields locals children
        else ofNodes fields (locals ++ declaredLocals node) children
      if opensScope kind then (walk.1, locals) else walk

/-- The events of nodes in order. -/
def ofNodes (fields : VisibleFields) (locals : List String) : List Tree → Walk
  | [] => ([], locals)
  | node :: rest =>
    let (events, locals) := ofNode fields locals node
    let (others, locals) := ofNodes fields locals rest
    (events ++ others, locals)

/-- The events of an expression whose first part may name a type. -/
def ofQualified (fields : VisibleFields) (locals : List String) : List Tree → Walk
  | [] => ([], locals)
  | node :: rest =>
    if node.isComposite then
      let (events, locals) :=
        match typeTarget? fields locals node with
        | some name => ([.typeName name], locals)
        | none => ofNode fields locals node
      let (others, locals) := ofNodes fields locals rest
      (events ++ others, locals)
    else ofQualified fields locals rest

/-- The events of an assignment: what it assigns to, and then the value. -/
def ofAssignment (fields : VisibleFields) (locals : List String) : List Tree → Walk
  | [] => ([], locals)
  | node :: rest =>
    let (events, locals) :=
      match target? fields locals node with
      | some target =>
        ((if isPlainAssignment (node :: rest) then [] else reads target) ++ writes target, locals)
      | none => ofNode fields locals node
    let (others, locals) := ofNodes fields locals rest
    (events ++ others, locals)

end

end BodyEvent

namespace Body

/-- What happens in a body. -/
def events (body : Body) (fields : VisibleFields) : List BodyEvent :=
  (BodyEvent.ofNode fields body.locals body.node).1

/-- The uses of fields in a body, which are those of its function. -/
def accesses (body : Body) (fields : VisibleFields) : List Access :=
  match body.function with
  | none => []
  | some function => (body.events fields).filterMap fun event =>
    match event with
    | .access field line kind => some { function, field, line, kind }
    | _ => none

end Body

namespace ReferenceSite

/-- Record what an event refers to. -/
def recordEvent (site : ReferenceSite) (typeVariables : List String) : BodyEvent → ScanAction Unit
  | .typeRef node => discard (site.typeUse typeVariables node 0)
  | .annotationUse node => site.annotationUse node
  | .typeName token => discard (site.refer [token])
  | .access _ _ _ => pure ()

/-- Record what a body refers to. -/
def recordBody (site : ReferenceSite) (fields : VisibleFields) (body : Body) : ScanAction Unit :=
  .forEach (body.events fields) (site.recordEvent body.typeParameters)

end ReferenceSite

end JavaGraph
