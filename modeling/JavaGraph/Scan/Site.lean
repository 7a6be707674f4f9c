import JavaGraph.Table
import JavaGraph.Tree.Basic
/-!
# Declaration sites

Where a file declares types: declarations at the top level, in class bodies and in blocks, class
bodies behind `new`, and class bodies of enum constants. `Site.ofTree` finds them all, each with
those within it, in the order they are written in. Nothing here depends on what names mean or on
what is declared elsewhere.

Local and anonymous classes are numbered within the innermost site around them: anonymous ones
together, local ones by their names. What is written in the parentheses of `new` belongs to the
site around it and not to the anonymous class.
-/

namespace JavaGraph

/-- What an anonymous class extends or implements. -/
inductive AnonymousBase where
  /-- The type behind `new`. -/
  | typeRef (node : Tree)
  /-- The class body belongs to a constant of the enum around it. -/
  | enclosingEnum

/-- A place where a type is declared. -/
structure Site where
  /-- The name as it is written; anonymous classes have none. -/
  name? : Option Token
  /-- The number of a local or anonymous class. -/
  number? : Option Nat
  /-- What an anonymous class extends or implements. -/
  base? : Option AnonymousBase
  /-- The declaration, or the class body of an anonymous class. -/
  node : Tree
  /-- The sites for which this one is the innermost around them. -/
  within : List Site

namespace Tree

/-- The name that a declaration declares. -/
def declaredName? (tree : Tree) : Option Token := tree.childToken? .ident

/-- The kind of the body that a type declaration has among its children: a class body, if there is
one. -/
def bodyKind (children : List Tree) : NodeKind :=
  if children.any (·.kind == .classBody) then .classBody else .enumBody

end Tree

namespace Site

/-- The classes numbered so far within a site. -/
structure Numbering where
  anonymous : Nat := 0
  /-- Local classes by their names. -/
  named : Table String Nat := {}

namespace Numbering

/-- The number of the next anonymous class. -/
def nextAnonymous (numbering : Numbering) : Nat × Numbering :=
  (numbering.anonymous + 1, { numbering with anonymous := numbering.anonymous + 1 })

/-- The number of the next local class with a name. -/
def nextNamed (numbering : Numbering) (name : String) : Nat × Numbering :=
  let number := (numbering.named.find? name).getD 0 + 1
  (number, { numbering with named := numbering.named.insert name number })

end Numbering

/-- The base of the anonymous class that a `new` expression may have. -/
def newBase? (children : List Tree) : Option AnonymousBase :=
  if children.any (·.kind == .classBody) then
    (children.find? (·.kind == .typeRef)).map .typeRef
  else none

/-- The first class body among some nodes. -/
def classBody? (children : List Tree) : Option Tree := children.find? (·.kind == .classBody)

mutual

/-- The sites in the members of a body. -/
def ofMembers (numbering : Numbering) : List Tree → List Site × Numbering
  | [] => ([], numbering)
  | member :: rest =>
    let (sites, numbering) := ofMember numbering member
    let (others, numbering) := ofMembers numbering rest
    (sites ++ others, numbering)

/-- The sites in a member of a body. -/
def ofMember (numbering : Numbering) : Tree → List Site × Numbering
  | .error _ _ => ([], numbering)
  | .node kind anchor extent comments children =>
    let node := Tree.node kind anchor extent comments children
    if kind.isTypeDeclaration then
      match node.declaredName? with
      | none => ([], numbering)
      | some name =>
        ([⟨some name, none, none, node, ofFirstBody (Tree.bodyKind children) children⟩], numbering)
    else if kind = .enumConstant then
      let (sites, numbering) := ofFirstArguments numbering children
      match classBody? children with
      | none => (sites, numbering)
      | some body =>
        let (number, numbering) := numbering.nextAnonymous
        let site : Site :=
          ⟨none, some number, some .enclosingEnum, body, ofFirstBody .classBody children⟩
        (sites ++ [site], numbering)
    else if kind = .token then ([], numbering)
    else ofCode numbering children

/-- The sites below some nodes of a member or of code. -/
def ofCode (numbering : Numbering) : List Tree → List Site × Numbering
  | [] => ([], numbering)
  | node :: rest =>
    let (sites, numbering) := ofCodeNode numbering node
    let (others, numbering) := ofCode numbering rest
    (sites ++ others, numbering)

/-- The sites at and below a node of a member or of code. A class body is one of a `new`
expression, and its members belong to the site that it makes. -/
def ofCodeNode (numbering : Numbering) : Tree → List Site × Numbering
  | .error _ _ => ([], numbering)
  | .node kind anchor extent comments children =>
    let node := Tree.node kind anchor extent comments children
    if kind.isTypeDeclaration then
      match node.declaredName? with
      | none => ([], numbering)
      | some name =>
        let (number, numbering) := numbering.nextNamed name.text
        let within := ofFirstBody (Tree.bodyKind children) children
        ([⟨some name, some number, none, node, within⟩], numbering)
    else if kind = .newObject then
      match newBase? children, classBody? children with
      | some base, some body =>
        let (number, numbering) := numbering.nextAnonymous
        let site : Site := ⟨none, some number, some base, body, ofFirstBody .classBody children⟩
        let (others, numbering) := ofCode numbering children
        (site :: others, numbering)
      | _, _ => ofCode numbering children
    else if kind = .classBody then ([], numbering)
    else ofCode numbering children

/-- The sites in the first body of a kind among some nodes. -/
def ofFirstBody (bodyKind : NodeKind) : List Tree → List Site
  | [] => []
  | .node kind _ _ _ members :: rest =>
    if kind = bodyKind then (ofMembers {} members).1 else ofFirstBody bodyKind rest
  | .error _ _ :: rest => ofFirstBody bodyKind rest

/-- The sites below the first arguments among some nodes. -/
def ofFirstArguments (numbering : Numbering) : List Tree → List Site × Numbering
  | [] => ([], numbering)
  | .node kind _ _ _ arguments :: rest =>
    if kind = .arguments then ofCode numbering arguments else ofFirstArguments numbering rest
  | .error _ _ :: rest => ofFirstArguments numbering rest

end

/-- The site of a type declaration at the top level of a file. -/
def ofTopLevel? (node : Tree) : Option Site :=
  if node.kind.isTypeDeclaration then
    node.declaredName?.map fun name =>
      ⟨some name, none, none, node, ofFirstBody (Tree.bodyKind node.children) node.children⟩
  else none

/-- All sites of a file. -/
def ofTree (root : Tree) : List Site := root.children.filterMap ofTopLevel?

/-- What the name of the site's type adds to the name of the type around it: the written name, the
number, or the number and the written name. -/
def label (site : Site) : String :=
  (match site.number? with
    | some number => toString number
    | none => "") ++ (site.name?.map Token.text).getD ""

/-- Whether the site is that of an anonymous class. -/
def isAnonymous (site : Site) : Bool := site.name?.isNone

end Site

end JavaGraph
