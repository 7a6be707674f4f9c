import JavaGraph.Proofs.Tree.Shape
import JavaGraph.Scan.Body
/-!
# Uses of a name

Where code writes a name, alone or behind `this`, and what is done there: `usesOf` reads this off
the tree for one name, without a look at what the name stands for. The bodies of the types declared
in the code and error nodes are left out. A name is an operand through any parentheses.
-/

namespace JavaGraph

/-- What is done with a variable. -/
inductive Role where
  | read
  /-- It is read and written: by `++`, by `--`, or by a compound assignment. -/
  | updated
  /-- It is the target of a plain assignment. -/
  | assigned
deriving DecidableEq, Repr

/-- How the variable is accessed, in order. -/
def Role.accesses : Role → List AccessKind
  | .read => [.read]
  | .updated => [.read, .write]
  | .assigned => [.write]

/-- A place in code where a certain name is written. -/
structure NameUse where
  /-- Whether it is written behind `this`. -/
  ofThis : Bool
  /-- Whether a local variable of that name is in scope. -/
  bound : Bool
  role : Role
deriving DecidableEq, Repr

/-- The field that a use denotes: a field of the type itself behind `this`, and else the one that
the code sees, unless a local variable hides it. -/
def NameUse.field? (own seen : Option FieldId) (use : NameUse) : Option FieldId :=
  if use.ofThis then own else if use.bound then none else seen

/-- The number of accesses of a kind to a field among uses of its name. -/
def NameUse.count (own seen : Option FieldId) (field : FieldId) (kind : AccessKind)
    (uses : List NameUse) : Nat :=
  uses.countP fun use => use.field? own seen = some field && use.role.accesses.contains kind

namespace Tree

/-- Whether a node is a name alone. -/
def isName (name : String) (tree : Tree) : Bool :=
  tree.kind == .nameRef && (tree.childToken? .ident).any (·.text == name)

/-- Whether a node is a name behind `this`. -/
def isNameOfThis (name : String) (tree : Tree) : Bool :=
  tree.kind == .fieldAccess && tree.children.head?.any (·.kind == .thisExpr) &&
    (tree.childToken? .ident).any (·.text == name)

mutual

/-- The nodes of code outside error nodes and the bodies of types declared there. -/
def codeNodes : Tree → List Tree
  | .error _ _ => []
  | .node kind anchor extent comments children =>
    if kind.isTypeDeclaration || kind = .classBody then []
    else .node kind anchor extent comments children :: codeNodesOf children

/-- The nodes of some pieces of code. -/
def codeNodesOf : List Tree → List Tree
  | [] => []
  | child :: rest => child.codeNodes ++ codeNodesOf rest

end

end Tree

namespace BodyEvent

/-- The use that a node itself is. -/
def useAt (name : String) (role : Role) (bound : Bool) (node : Tree) : List NameUse :=
  if node.isName name then [⟨false, bound, role⟩]
  else if node.isNameOfThis name then [⟨true, bound, role⟩]
  else []

mutual

/-- The uses of a name in code, and whether a local variable of that name is in scope behind it.
The role is what is done with the code as a whole. -/
def usesOf (name : String) (role : Role) (bound : Bool) : Tree → List NameUse × Bool
  | .error _ _ => ([], bound)
  | .node kind anchor extent comments children =>
    let node := Tree.node kind anchor extent comments children
    if kind.isTypeDeclaration || kind = .classBody then ([], bound)
    else
      let inner := bound || (declaredLocals node).contains name
      let below :=
        if kind = .assignExpr then
          let role := if isPlainAssignment children then .assigned else .updated
          usesFrom name role inner children
        else if kind = .parenExpr then usesThrough name role inner children
        else if (kind = .unaryExpr ∨ kind = .postfixExpr) ∧ isStep children then
          usesThrough name .updated inner children
        else usesFrom name .read inner children
      (useAt name role bound node ++ below.1, if opensScope kind then bound else below.2)

/-- The uses of a name in pieces of code of which the first has a role and the others are read. -/
def usesFrom (name : String) (role : Role) (bound : Bool) : List Tree → List NameUse × Bool
  | [] => ([], bound)
  | node :: rest =>
    let here := usesOf name role bound node
    let others := usesFrom name .read here.2 rest
    (here.1 ++ others.1, others.2)

/-- The uses of a name in pieces of code of which the first composite one has a role. -/
def usesThrough (name : String) (role : Role) (bound : Bool) : List Tree → List NameUse × Bool
  | [] => ([], bound)
  | node :: rest =>
    if node.isComposite then
      let here := usesOf name role bound node
      let others := usesFrom name .read here.2 rest
      (here.1 ++ others.1, others.2)
    else usesThrough name role bound rest

end

variable {name : String} {role : Role} {bound : Bool} {kind : NodeKind} {anchor : Token}
  {extent : Option Extent} {comments : Comments} {children : List Tree}

/-! ### What has no uses -/

/-- Nothing below a node, and not the node itself, is a use of a name. -/
def Unused (name : String) (tree : Tree) : Prop :=
  ∀ role bound, usesOf name role bound tree = ([], bound)

theorem usesFrom_unused (h : ∀ child ∈ children, Unused name child) :
    usesFrom name role bound children = ([], bound) := by
  induction children generalizing role with
  | nil => rw [usesFrom]
  | cons child rest ih =>
    rw [usesFrom, h child (List.mem_cons_self ..)]
    simp only
    rw [ih fun other ho => h other (List.mem_cons_of_mem _ ho), List.nil_append]

theorem usesThrough_unused (h : ∀ child ∈ children, Unused name child) :
    usesThrough name role bound children = ([], bound) := by
  induction children with
  | nil => rw [usesThrough]
  | cons child rest ih =>
    have hrest : ∀ other ∈ rest, Unused name other :=
      fun other ho => h other (List.mem_cons_of_mem _ ho)
    rw [usesThrough]
    split
    · rw [h child (List.mem_cons_self ..)]
      simp only
      rw [usesFrom_unused hrest, List.nil_append]
    · exact ih hrest

/-- A node that is no use and declares nothing, with unused nodes below it. -/
theorem unused_node (hk : kind ≠ .nameRef) (hf : kind ≠ .fieldAccess)
    (hd : declaredLocals (.node kind anchor extent comments children) = [])
    (h : ∀ child ∈ children, Unused name child) :
    Unused name (.node kind anchor extent comments children) := by
  intro role bound
  have hhere : useAt name role bound (.node kind anchor extent comments children) = [] := by
    simp [useAt, Tree.isName, Tree.isNameOfThis, Tree.kind, hk, hf]
  rw [usesOf, hhere, hd]
  simp only [usesFrom_unused h, usesThrough_unused h, ite_self, List.contains_nil, Bool.or_false,
    List.append_nil]

theorem unused_error (region : Region) : Unused name (.error region comments) := by
  intro role bound
  rw [usesOf]

/-- Nodes that are not composite have no uses. -/
theorem unused_of_not_composite {tree : Tree} (hs : tree.Shaped)
    (h : tree.isComposite = false) : Unused name tree := by
  have herror : ∀ {tree : Tree}, tree.isError = true → Unused name tree := by
    intro tree h
    cases tree with
    | error region comments => exact unused_error region
    | node kind anchor extent comments children => cases h
  rcases hs.error_or_leaf h with he | ⟨hk, hc⟩
  · exact herror he
  · cases tree with
    | error region comments => cases hk
    | node kind anchor extent comments children =>
      obtain rfl : kind = .token := hk
      exact unused_node nofun nofun rfl fun child hm => herror (hc child hm)

/-- What types are written with. -/
def isTypeSyntax : NodeKind → Bool
  | .typeRef | .typeArguments | .wildcard | .annotationUse | .annotationArgs | .qualifiedName => true
  | _ => false

/-- Below the nodes of types there are only nodes of types. -/
private theorem among_typeSyntax : ∀ {kind : NodeKind}, isTypeSyntax kind = true →
    ∃ kinds, Rule.among kinds ∈ Rule.ofKind kind ∧ kinds.all isTypeSyntax = true
  | .typeRef, _ | .typeArguments, _ | .annotationUse, _ | .annotationArgs, _ | .qualifiedName, _ =>
    ⟨_, List.mem_singleton_self _, rfl⟩
  | .wildcard, _ => ⟨_, List.mem_cons_self .., rfl⟩

/-- A type declares no local variables. -/
private theorem declaredLocals_typeSyntax : ∀ {kind : NodeKind}, isTypeSyntax kind = true →
    declaredLocals (.node kind anchor extent comments children) = []
  | .typeRef, _ | .typeArguments, _ | .wildcard, _ | .annotationUse, _ | .annotationArgs, _
  | .qualifiedName, _ => rfl

mutual

/-- A type has no uses of a name. -/
theorem unused_of_typeSyntax : ∀ (tree : Tree), tree.Shaped →
    isTypeSyntax tree.kind = true → Unused name tree
  | .error region comments => fun _ _ => unused_error region
  | .node kind anchor extent comments children => by
    intro hs hk
    obtain ⟨kinds, hr, hall⟩ := among_typeSyntax hk
    have hchildren := unused_of_typeSyntaxes children (Tree.shaped_node.1 hs).2 fun child hc hm =>
      List.all_eq_true.1 hall _ (hs.kind_mem hr hc hm)
    refine unused_node ?_ ?_ (declaredLocals_typeSyntax hk) hchildren
    · rintro rfl
      cases hk
    · rintro rfl
      cases hk

/-- Types have no uses of a name. -/
private theorem unused_of_typeSyntaxes : ∀ (trees : List Tree), (∀ tree ∈ trees, tree.Shaped) →
    (∀ tree ∈ trees, tree.isComposite = true → isTypeSyntax tree.kind = true) →
    ∀ tree ∈ trees, Unused name tree
  | [] => fun _ _ _ ht => by cases ht
  | first :: rest => by
    simp only [List.forall_mem_cons]
    intro hs hk
    refine ⟨?_, unused_of_typeSyntaxes rest hs.2 hk.2⟩
    cases hc : first.isComposite with
    | true => exact unused_of_typeSyntax first hs.1 (hk.1 hc)
    | false => exact unused_of_not_composite hs.1 hc

end

/-! ### Uses and nodes -/

/-- Whether a node is a name, alone or behind `this`. -/
def isUse (name : String) (node : Tree) : Bool := node.isName name || node.isNameOfThis name

/-- A node is one use or none. -/
private theorem length_useAt (node : Tree) :
    (useAt name role bound node).length = if isUse name node then 1 else 0 := by
  unfold useAt isUse
  cases node.isName name <;> cases node.isNameOfThis name <;> rfl

/-- What is not composite is no use. -/
private theorem countP_codeNodes_of_not_composite {tree : Tree} (hs : tree.Shaped)
    (h : tree.isComposite = false) : tree.codeNodes.countP (isUse name) = 0 := by
  have herror : ∀ {tree : Tree}, tree.isError = true → tree.codeNodes = [] := by
    intro tree h
    cases tree with
    | error region comments => rw [Tree.codeNodes]
    | node kind anchor extent comments children => cases h
  have herrors : ∀ trees : List Tree, (∀ tree ∈ trees, tree.isError = true) →
      Tree.codeNodesOf trees = [] := by
    intro trees h
    induction trees with
    | nil => rw [Tree.codeNodesOf]
    | cons first rest ih =>
      rw [List.forall_mem_cons] at h
      rw [Tree.codeNodesOf, herror h.1, ih h.2, List.nil_append]
  rcases hs.error_or_leaf h with he | ⟨hk, hc⟩
  · rw [herror he]
    rfl
  · cases tree with
    | error region comments => cases hk
    | node kind anchor extent comments children =>
      obtain rfl : kind = .token := hk
      rw [Tree.codeNodes, herrors children hc]
      rfl

mutual

/-- Every node that is the name is one use. -/
theorem length_usesOf : ∀ (tree : Tree), tree.Shaped → ∀ role bound,
    (usesOf name role bound tree).1.length = tree.codeNodes.countP (isUse name)
  | .error region comments => by
    intro _ role bound
    rw [usesOf, Tree.codeNodes]
    rfl
  | .node kind anchor extent comments children => by
    intro hs role bound
    have hfrom := length_usesFrom children (Tree.shaped_node.1 hs).2
    have hthrough := length_usesThrough children (Tree.shaped_node.1 hs).2
    rw [usesOf, Tree.codeNodes]
    split
    · rfl
    · rw [List.countP_cons, Nat.add_comm, List.length_append, length_useAt]
      congr 1
      split
      · exact hfrom _ _
      · split
        · exact hthrough _ _
        · split
          · exact hthrough _ _
          · exact hfrom _ _

/-- The uses in pieces of code. -/
private theorem length_usesFrom : ∀ (trees : List Tree), (∀ tree ∈ trees, tree.Shaped) →
    ∀ role bound, (usesFrom name role bound trees).1.length =
      (Tree.codeNodesOf trees).countP (isUse name)
  | [] => by
    intro _ role bound
    rw [usesFrom, Tree.codeNodesOf]
    rfl
  | first :: rest => by
    rw [List.forall_mem_cons]
    intro hs role bound
    rw [usesFrom, Tree.codeNodesOf, List.countP_append, ← length_usesOf first hs.1 role bound,
      ← length_usesFrom rest hs.2 .read (usesOf name role bound first).2, ← List.length_append]

/-- The uses in an operand. -/
private theorem length_usesThrough : ∀ (trees : List Tree), (∀ tree ∈ trees, tree.Shaped) →
    ∀ role bound, (usesThrough name role bound trees).1.length =
      (Tree.codeNodesOf trees).countP (isUse name)
  | [] => by
    intro _ role bound
    rw [usesThrough, Tree.codeNodesOf]
    rfl
  | first :: rest => by
    rw [List.forall_mem_cons]
    intro hs role bound
    rw [usesThrough, Tree.codeNodesOf, List.countP_append]
    cases hc : first.isComposite with
    | true =>
      rw [← length_usesOf first hs.1 role bound,
        ← length_usesFrom rest hs.2 .read (usesOf name role bound first).2, ← List.length_append]
      rfl
    | false =>
      rw [countP_codeNodes_of_not_composite hs.1 hc, Nat.zero_add,
        ← length_usesThrough rest hs.2 role bound]
      rfl

end

/-! ### Names that no local variable hides -/

/-- No local variable hides the name where it is used, and none of that name is in scope behind. -/
structure Unbound (uses : List NameUse × Bool) : Prop where
  free : ∀ use ∈ uses.1, use.bound = false
  behind : uses.2 = false

/-- Nothing is used. -/
private theorem unbound_nothing : Unbound ([], false) := ⟨List.forall_mem_nil _, rfl⟩

/-- Uses in sequence. -/
private theorem Unbound.append {first rest : List NameUse × Bool} (h : Unbound first)
    (h' : Unbound rest) : Unbound (first.1 ++ rest.1, rest.2) :=
  ⟨List.forall_mem_append.2 ⟨h.free, h'.free⟩, h'.behind⟩

/-- A node with what is below it. -/
private theorem Unbound.below {uses : List NameUse × Bool} (h : Unbound uses) (role : Role)
    (node : Tree) (closes : Bool) :
    Unbound (useAt name role false node ++ uses.1, if closes then false else uses.2) := by
  constructor
  · refine List.forall_mem_append.2 ⟨?_, h.free⟩
    unfold useAt
    split
    · exact List.forall_mem_singleton.2 rfl
    · split
      · exact List.forall_mem_singleton.2 rfl
      · exact List.forall_mem_nil _
  · cases closes with
    | true => rfl
    | false => exact h.behind

mutual

/-- Without a local variable of the name all its uses are unbound. -/
private theorem unbound_tree : ∀ (tree : Tree),
    (∀ node ∈ tree.codeNodes, name ∉ declaredLocals node) →
    ∀ role, Unbound (usesOf name role false tree)
  | .error region comments => by
    intro _ role
    rw [usesOf]
    exact unbound_nothing
  | .node kind anchor extent comments children => by
    intro h role
    rw [Tree.codeNodes] at h
    rw [usesOf]
    split
    · exact unbound_nothing
    · next hl =>
      rw [if_neg hl, List.forall_mem_cons] at h
      have hlocals : (declaredLocals (.node kind anchor extent comments children)).contains name =
          false := by simpa using h.1
      have hfrom := unbound_usesFrom children h.2
      have hthrough := unbound_usesThrough children h.2
      simp only [hlocals, Bool.or_false]
      refine Unbound.below ?_ role _ (opensScope kind)
      split
      · exact hfrom _
      · split
        · exact hthrough _
        · split
          · exact hthrough _
          · exact hfrom _

/-- The uses in pieces of code. -/
private theorem unbound_usesFrom : ∀ (trees : List Tree),
    (∀ node ∈ Tree.codeNodesOf trees, name ∉ declaredLocals node) →
    ∀ role, Unbound (usesFrom name role false trees)
  | [] => by
    intro _ role
    rw [usesFrom]
    exact unbound_nothing
  | first :: rest => by
    intro h role
    rw [Tree.codeNodesOf, List.forall_mem_append] at h
    have hfirst := unbound_tree first h.1 role
    rw [usesFrom, hfirst.behind]
    exact hfirst.append (unbound_usesFrom rest h.2 .read)

/-- The uses in an operand. -/
private theorem unbound_usesThrough : ∀ (trees : List Tree),
    (∀ node ∈ Tree.codeNodesOf trees, name ∉ declaredLocals node) →
    ∀ role, Unbound (usesThrough name role false trees)
  | [] => by
    intro _ role
    rw [usesThrough]
    exact unbound_nothing
  | first :: rest => by
    intro h role
    rw [Tree.codeNodesOf, List.forall_mem_append] at h
    rw [usesThrough]
    split
    · have hfirst := unbound_tree first h.1 role
      dsimp only
      rw [hfirst.behind]
      exact hfirst.append (unbound_usesFrom rest h.2 .read)
    · exact unbound_usesThrough rest h.2 role

end

/-- Without a local variable of the name all its uses are unbound. -/
theorem unbound_usesOf {tree : Tree} (h : ∀ node ∈ tree.codeNodes, name ∉ declaredLocals node) :
    ∀ use ∈ (usesOf name .read false tree).1, use.bound = false :=
  (unbound_tree tree h .read).free

end BodyEvent

/-- The uses of a name in a body. -/
def Body.uses (body : Body) (name : String) : List NameUse :=
  (BodyEvent.usesOf name .read (body.locals.contains name) body.node).1

end JavaGraph
