import Mathlib.Computability.RegularExpressions
import Mathlib.Order.CompletePartialOrder
import JavaGraph.Proofs.Tree.Measured
/-!
# The shape of trees

What may stand below a node of a kind. Of the leaves only identifiers and `void` are told apart, and
an error node counts for nothing, so what is said of the children of a node is said of a word of
signs. In a tree of the right shape the children of every node keep the rules of its kind.

The words that a construct can lead to are those of a regular expression. That all of them keep a
rule is found by computing with the expression.
-/

namespace JavaGraph

/-- What is seen of a child. -/
inductive Sign where
  | identifier
  | void
  /-- Any other leaf. -/
  | token
  | node (kind : NodeKind)
deriving DecidableEq, Repr

namespace Sign

/-- The sign of a leaf. -/
def ofToken : TokenKind → Sign
  | .ident => .identifier
  | .kwVoid => .void
  | _ => .token

/-- Whether a child is no leaf. -/
def isNode : Sign → Bool
  | .node _ => true
  | _ => false

/-- Signs of two sorts that exclude each other are counted one after the other. -/
theorem countP_or {p q : Sign → Bool} (h : ∀ sign, p sign = true → q sign = false)
    (word : List Sign) : word.countP (fun sign => p sign || q sign) = word.countP p + word.countP q := by
  induction word with
  | nil => rfl
  | cons sign rest ih =>
    simp only [List.countP_cons, ih]
    cases hp : p sign with
    | true =>
      rw [h sign hp]
      simp only [Bool.true_or, if_true, Bool.false_eq_true, if_false]
      omega
    | false =>
      simp only [Bool.false_or, Bool.false_eq_true, if_false]
      omega

end Sign

namespace Tree

/-- The sign of a child; an error node has none. -/
def sign? : Tree → Option Sign
  | .node kind anchor _ _ _ =>
    some (if kind = .token then Sign.ofToken anchor.kind else .node kind)
  | .error _ _ => none

/-- The signs of some nodes. -/
def signs (trees : List Tree) : List Sign := trees.filterMap sign?

@[simp] theorem signs_nil : signs [] = [] := rfl

@[simp] theorem signs_append (a b : List Tree) : signs (a ++ b) = signs a ++ signs b :=
  List.filterMap_append ..

/-- The sign of a composite node is its kind. -/
theorem sign?_of_isComposite {tree : Tree} (h : tree.isComposite = true) :
    tree.sign? = some (.node tree.kind) := by
  cases tree with
  | node kind anchor extent comments children =>
    have hk : kind ≠ .token := by
      rintro rfl
      cases h
    rw [sign?, if_neg hk, Tree.kind]
  | error region comments => cases h

/-- Only a composite node has the sign of a node. -/
theorem of_sign?_node {tree : Tree} {kind : NodeKind} (h : tree.sign? = some (.node kind)) :
    tree.kind = kind ∧ tree.isComposite = true := by
  cases tree with
  | error region comments => cases h
  | node other anchor extent comments children =>
    rw [sign?, Option.some.injEq] at h
    split at h
    · unfold Sign.ofToken at h
      split at h <;> cases h
    · next hk =>
      cases h
      exact ⟨rfl, by simpa [isComposite, isError, Tree.kind] using hk⟩

/-- Only an identifier has the sign of one. -/
theorem of_sign?_identifier {tree : Tree} (h : tree.sign? = some .identifier) :
    ∃ token, tree.token? = some token ∧ token.kind = .ident := by
  cases tree with
  | error region comments => cases h
  | node kind anchor extent comments children =>
    rw [sign?, Option.some.injEq] at h
    split at h
    · next hk =>
      subst hk
      unfold Sign.ofToken at h
      split at h
      · next hanchor => exact ⟨anchor, rfl, hanchor⟩
      · cases h
      · cases h
    · cases h

end Tree

/-! ### Rules -/

/-- A rule on the children of a node. -/
inductive Rule where
  /-- All nodes are of such kinds. -/
  | only (kinds : NodeKind → Bool)
  /-- There are no more than so many of a sort. -/
  | atMost (count : Nat) (sort : Sign → Bool)
  /-- There is one of a sort. -/
  | one (sort : Sign → Bool)

/-- What a word of signs has to be like. -/
def Rule.Holds (word : List Sign) : Rule → Prop
  | .only kinds => ∀ kind, .node kind ∈ word → kinds kind = true
  | .atMost count sort => word.countP sort ≤ count
  | .one sort => ∃ sign ∈ word, sort sign = true

namespace NodeKind

/-- What an expression is a node of. -/
def isExpression : NodeKind → Bool
  | .assignExpr | .conditionalExpr | .binaryExpr | .instanceOfExpr | .unaryExpr | .postfixExpr
  | .castExpr | .parenExpr | .fieldAccess | .methodCall | .arrayAccess | .newObject | .newArray
  | .arrayInit | .literal | .nameRef | .thisExpr | .superExpr | .classLiteral | .lambdaExpr
  | .methodRef => true
  | _ => false

/-- What a statement that declares nothing is a node of. -/
def isStatement : NodeKind → Bool
  | .block | .exprStmt | .ifStmt | .whileStmt | .doStmt | .forStmt | .forEachStmt | .returnStmt
  | .throwStmt | .breakStmt | .continueStmt | .switchStmt | .tryStmt | .syncStmt | .labeledStmt
  | .assertStmt | .emptyStmt => true
  | _ => false

/-- What the parts of expressions and statements are nodes of. -/
def isCode (kind : NodeKind) : Bool :=
  kind.isExpression || kind.isStatement || kind.isTypeDeclaration || match kind with
  | .localVarDecl | .variableDeclarator | .forInit | .forUpdate | .switchCase | .resourceSpec
  | .catchClause | .finallyClause | .arguments | .lambdaParams | .parameter | .modifiers
  | .typeRef | .typeArguments | .annotationUse => true
  | _ => false

/-- What a member of a class is a node of. -/
def isMember (kind : NodeKind) : Bool :=
  kind.isTypeDeclaration || match kind with
  | .fieldDecl | .methodDecl | .constructorDecl | .initializer => true
  | _ => false

/-- What the body of a type is a node of. -/
def isBody : NodeKind → Bool
  | .classBody | .enumBody => true
  | _ => false

end NodeKind

namespace Rule

/-- All nodes are of one of some kinds. -/
def among (kinds : List NodeKind) : Rule := .only kinds.contains

/-- There is at most one node of a kind. -/
def single (kind : NodeKind) : Rule := .atMost 1 (· == .node kind)

/-- The rules on what a function is put together from. -/
def ofFunction : List Rule :=
  [.only fun kind => kind.isExpression || match kind with
    | .modifiers | .typeParameters | .typeRef | .formalParameters | .throwsClause | .block
    | .annotationUse => true
    | _ => false,
   single .typeParameters, single .formalParameters, single .throwsClause, single .block]

/-- The rules on the children of a node of a kind. -/
def ofKind : NodeKind → List Rule
  | .error => []
  | .token => [.atMost 0 fun _ => true]
  | .compilationUnit =>
    [.only fun kind => kind.isTypeDeclaration || kind == .packageDecl || kind == .importDecl]
  | .packageDecl | .importDecl => [among [.modifiers, .qualifiedName]]
  | .qualifiedName | .annotationArgs | .literal | .nameRef | .thisExpr | .superExpr => [among []]
  | .modifiers => [among [.annotationUse]]
  | .annotationUse => [among [.qualifiedName, .annotationArgs]]
  | .classDecl =>
    [among [.modifiers, .typeParameters, .extendsClause, .implementsClause, .classBody],
     single .extendsClause, single .implementsClause, single .classBody,
     .one (· == .identifier)]
  | .interfaceDecl =>
    [among [.modifiers, .typeParameters, .extendsClause, .classBody], single .extendsClause,
     single .classBody, .one (· == .identifier)]
  | .enumDecl =>
    [among [.modifiers, .implementsClause, .enumBody], single .implementsClause,
     single .enumBody, .one (· == .identifier)]
  | .annotationDecl =>
    [among [.modifiers, .classBody], single .classBody, .one (· == .identifier)]
  | .typeParameters => [among [.typeParameter]]
  | .typeParameter => [among [.annotationUse, .typeRef]]
  | .extendsClause | .implementsClause | .throwsClause => [among [.typeRef]]
  | .classBody => [.only (·.isMember)]
  | .enumBody => [.only fun kind => kind.isMember || kind == .enumConstant]
  | .enumConstant =>
    [among [.modifiers, .arguments, .classBody], single .arguments, single .classBody,
     .one (· == .identifier)]
  | .fieldDecl =>
    [among [.modifiers, .typeParameters, .typeRef, .variableDeclarator], single .typeRef,
     .one (· == .node .variableDeclarator)]
  | .variableDeclarator =>
    [.only (·.isExpression), .atMost 1 (·.isNode), .one (· == .identifier)]
  | .methodDecl =>
    .atMost 1 (fun sign => sign == .node .typeRef || sign == .void) ::
      .one (· == .identifier) :: ofFunction
  | .constructorDecl => .atMost 0 (· == .node .typeRef) :: ofFunction
  | .initializer => [among [.block], single .block]
  | .formalParameters | .lambdaParams => [among [.parameter]]
  | .parameter => [among [.modifiers, .typeRef], single .typeRef]
  | .typeRef => [among [.annotationUse, .typeArguments]]
  | .typeArguments => [among [.typeRef, .wildcard]]
  | .wildcard => [among [.typeRef], single .typeRef]
  | .unaryExpr | .postfixExpr | .parenExpr => [.only (·.isExpression), .atMost 1 (·.isNode)]
  | .fieldAccess =>
    [.only (·.isExpression), .atMost 2 fun sign => sign.isNode || sign == .identifier]
  | .newObject =>
    [among [.typeArguments, .typeRef, .arguments, .classBody], single .classBody,
     .one (· == .node .typeRef)]
  | _ => [.only (·.isCode)]

end Rule

/-- The children of every node keep the rules of its kind. -/
def Tree.Shaped (tree : Tree) : Prop :=
  ∀ node ∈ tree.descendants, ∀ rule ∈ Rule.ofKind node.kind, rule.Holds (signs node.children)

namespace Tree

variable {kind : NodeKind} {anchor : Token} {extent : Option Extent} {comments : Comments}
  {children : List Tree} {region : Region}

theorem shaped_node : (node kind anchor extent comments children).Shaped ↔
    (∀ rule ∈ Rule.ofKind kind, rule.Holds (signs children)) ∧
      ∀ child ∈ children, child.Shaped := by
  unfold Shaped
  rw [descendants]
  simp only [List.forall_mem_cons, Tree.kind, Tree.children, mem_descendantsOf,
    forall_exists_index, and_imp]
  exact and_congr_right' ⟨fun h child hc node hn => h node child hc hn,
    fun h node child hc hn => h child hc node hn⟩

theorem shaped_error : (error region comments).Shaped := by
  intro node hn
  rw [descendants, List.mem_singleton] at hn
  subst hn
  exact fun _ hr => by cases hr

theorem shaped_leaf (token : Token) : (leaf token).Shaped := by
  unfold leaf
  rw [shaped_node]
  constructor
  · intro rule hr
    rw [List.mem_singleton.1 hr]
    exact Nat.le_refl 0
  · intro child hc
    cases hc

/-- The children of a node of the right shape have the right shape. -/
theorem Shaped.of_mem {tree child : Tree} (h : tree.Shaped) (hc : child ∈ tree.children) :
    child.Shaped := by
  cases tree with
  | node kind anchor extent comments children => exact (shaped_node.1 h).2 child hc
  | error region comments => cases hc

/-- The children of a node of the right shape keep the rules of its kind. -/
theorem Shaped.holds {tree : Tree} (h : tree.Shaped) {rule : Rule}
    (hr : rule ∈ Rule.ofKind tree.kind) : rule.Holds (signs tree.children) :=
  h tree tree.mem_descendants_self rule hr

/-- What is not composite is an error node, or a leaf with at most error nodes below it. -/
theorem Shaped.error_or_leaf {tree : Tree} (hs : tree.Shaped)
    (h : tree.isComposite = false) : tree.isError = true ∨
      tree.kind = .token ∧ ∀ child ∈ tree.children, child.isError = true := by
  cases tree with
  | error region comments => exact .inl rfl
  | node kind anchor extent comments children =>
    obtain rfl : kind = .token := by simpa [isComposite, isError, Tree.kind] using h
    have hsigns : (Rule.atMost 0 fun _ => true).Holds _ := hs.holds (List.mem_singleton_self _)
    have hnone : signs children = [] := by simpa [Rule.Holds, Tree.children] using hsigns
    refine .inr ⟨rfl, fun child hc => ?_⟩
    have hsign : child.sign? = none := List.filterMap_eq_nil_iff.1 hnone child hc
    cases child with
    | error region comments => rfl
    | node kind anchor extent comments children => cases hsign

/-- Composite children of a node are of the kinds that a rule allows. -/
theorem Shaped.kind_of_only {tree child : Tree} (hs : tree.Shaped) {kinds : NodeKind → Bool}
    (hr : Rule.only kinds ∈ Rule.ofKind tree.kind) (hc : child ∈ tree.children)
    (hcomposite : child.isComposite = true) : kinds child.kind = true :=
  hs.holds hr child.kind (List.mem_filterMap.2 ⟨child, hc, sign?_of_isComposite hcomposite⟩)

/-- Composite children of a node are of the kinds that a rule lists. -/
theorem Shaped.kind_mem {tree child : Tree} (hs : tree.Shaped) {kinds : List NodeKind}
    (hr : Rule.among kinds ∈ Rule.ofKind tree.kind) (hc : child ∈ tree.children)
    (hcomposite : child.isComposite = true) : child.kind ∈ kinds := by
  have hh : kinds.contains child.kind = true := hs.kind_of_only hr hc hcomposite
  simpa using hh

/-- A node that a rule demands is there. -/
theorem Shaped.exists_child {tree : Tree} (kind : NodeKind) (hs : tree.Shaped)
    (hr : Rule.one (· == .node kind) ∈ Rule.ofKind tree.kind) :
    ∃ child ∈ tree.children, child.kind = kind ∧ child.isComposite = true := by
  obtain ⟨sign, hsign, he⟩ : ∃ sign ∈ signs tree.children, (sign == .node kind) = true := hs.holds hr
  obtain ⟨child, hm, hchild⟩ := List.mem_filterMap.1 hsign
  rw [beq_iff_eq.1 he] at hchild
  exact ⟨child, hm, of_sign?_node hchild⟩

/-- An identifier that a rule demands is there. -/
theorem Shaped.childToken?_ident {tree : Tree} (hs : tree.Shaped)
    (hr : Rule.one (· == .identifier) ∈ Rule.ofKind tree.kind) :
    (tree.childToken? .ident).isSome = true := by
  obtain ⟨sign, hsign, he⟩ : ∃ sign ∈ signs tree.children, (sign == .identifier) = true :=
    hs.holds hr
  obtain ⟨child, hm, hchild⟩ := List.mem_filterMap.1 hsign
  rw [beq_iff_eq.1 he] at hchild
  obtain ⟨token, ht, hk⟩ := of_sign?_identifier hchild
  unfold childToken? childTokens
  rw [List.find?_isSome]
  exact ⟨token, List.mem_filterMap.2 ⟨child, hm, ht⟩, beq_iff_eq.2 hk⟩

/-- There are as many children of a kind as signs of it. -/
theorem countP_kind {tree : Tree} {kind : NodeKind} (ht : kind ≠ .token) (he : kind ≠ .error) :
    tree.children.countP (·.kind == kind) = (signs tree.children).countP (· == .node kind) := by
  rw [signs, List.countP_filterMap]
  refine List.countP_congr fun child _ => ⟨fun h => ?_, fun h => ?_⟩
  · have hk : child.kind = kind := beq_iff_eq.1 h
    have hcomposite : child.isComposite = true := by
      cases child with
      | error region comments => exact absurd hk.symm he
      | node other anchor extent comments children =>
        obtain rfl : other = kind := hk
        simpa [isComposite, isError, Tree.kind] using ht
    rw [sign?_of_isComposite hcomposite, hk]
    exact beq_self_eq_true _
  · cases hsign : child.sign? with
    | none =>
      rw [hsign] at h
      cases h
    | some sign =>
      rw [hsign] at h
      have hnode : sign = .node kind := beq_iff_eq.1 h
      exact beq_iff_eq.2 (of_sign?_node (hnode ▸ hsign)).1

/-- There are as many children of a kind as the rules allow. -/
theorem Shaped.countP_kind_le {tree : Tree} {kind : NodeKind} (hs : tree.Shaped)
    (hr : Rule.single kind ∈ Rule.ofKind tree.kind) (ht : kind ≠ .token) (he : kind ≠ .error) :
    tree.children.countP (·.kind == kind) ≤ 1 := by
  have hsigns : (signs tree.children).countP (· == .node kind) ≤ 1 := hs.holds hr
  rwa [countP_kind ht he]

/-- The only child of a kind is the first one. -/
theorem childOfKind?_of_single {tree child : Tree} {kind : NodeKind} (hm : child ∈ tree.children)
    (hk : child.kind = kind) (h : (Rule.single kind).Holds (signs tree.children))
    (ht : kind ≠ .token) (he : kind ≠ .error) : tree.childOfKind? kind = some child := by
  have hle : (signs tree.children).countP (· == .node kind) ≤ 1 := h
  rw [← countP_kind ht he] at hle
  obtain ⟨first, rest, hsplit⟩ := List.append_of_mem hm
  have hpos : (child.kind == kind) = true := beq_iff_eq.2 hk
  rw [hsplit, List.countP_append, List.countP_cons, if_pos hpos] at hle
  have hnone : first.countP (·.kind == kind) = 0 := by omega
  unfold childOfKind?
  rw [hsplit, List.find?_append, List.find?_eq_none.2 (List.countP_eq_zero.1 hnone),
    Option.none_or, List.find?_cons, hpos]

/-- If there is one composite child at most, it is the first one. -/
theorem head?_nodes {tree child : Tree}
    (h : (Rule.atMost 1 (·.isNode)).Holds (signs tree.children)) (hm : child ∈ tree.children)
    (hc : child.isComposite = true) : tree.nodes.head? = some child := by
  have hle : (signs tree.children).countP Sign.isNode ≤ 1 := h
  have hsigns : ∀ child : Tree, child.isComposite = true →
      (child.sign?.map Sign.isNode).getD false = true := by
    intro child hc
    rw [sign?_of_isComposite hc]
    rfl
  rw [signs, List.countP_filterMap] at hle
  have hlength : tree.nodes.length ≤ 1 := by
    unfold nodes
    rw [← List.countP_eq_length_filter]
    exact (List.countP_mono_left fun child _ => hsigns child).trans hle
  have hnodes : child ∈ tree.nodes := List.mem_filter.2 ⟨hm, hc⟩
  cases hn : tree.nodes with
  | nil =>
    rw [hn] at hnodes
    cases hnodes
  | cons first rest =>
    rw [hn] at hlength hnodes
    obtain rfl : rest = [] := List.length_eq_zero_iff.1 (Nat.le_zero.1 (Nat.le_of_succ_le_succ hlength))
    rw [List.mem_singleton.1 hnodes]
    rfl

/-- A composite node has the sign of its kind. -/
theorem signs_cons {first : Tree} (rest : List Tree) (h : first.isComposite = true) :
    signs (first :: rest) = .node first.kind :: signs rest :=
  List.filterMap_cons_some (sign?_of_isComposite h)

end Tree

/-! ### Expressions for words -/

/-- An expression for the words of signs that something can lead to. -/
abbrev Outline := RegularExpression Sign

namespace Outline

/-- Any one of some signs. -/
def oneOf : List Sign → Outline
  | [] => .zero
  | sign :: rest => .plus (.char sign) (oneOf rest)

/-- Whether every sign is of a sort. -/
def all (sort : Sign → Bool) : Outline → Bool
  | .zero | .epsilon => true
  | .char sign => sort sign
  | .plus a b | .comp a b => all sort a && all sort b
  | .star a => all sort a

/-- Whether every word has a sign of a sort. -/
def any (sort : Sign → Bool) : Outline → Bool
  | .zero => true
  | .epsilon | .star _ => false
  | .char sign => sort sign
  | .plus a b => any sort a && any sort b
  | .comp a b => any sort a || any sort b

/-- How many signs of a sort a word has at most, if there is a bound. -/
def most? (sort : Sign → Bool) : Outline → Option Nat
  | .zero | .epsilon => some 0
  | .char sign => some (if sort sign then 1 else 0)
  | .plus a b => (most? sort a).bind fun n => (most? sort b).map (max n)
  | .comp a b => (most? sort a).bind fun n => (most? sort b).map (n + ·)
  | .star a => if all (!sort ·) a then some 0 else none

/-- Whether there are no words. -/
def isNone : Outline → Bool
  | .zero => true
  | .epsilon | .star _ | .char _ => false
  | .plus a b => isNone a && isNone b
  | .comp a b => isNone a || isNone b

/-- Whether every word has exactly one sign, which is of a sort. -/
def single (sort : Sign → Bool) : Outline → Bool
  | .zero => true
  | .epsilon | .star _ => false
  | .char sign => sort sign
  | .plus a b => single sort a && single sort b
  | .comp a b =>
    isNone a || isNone b || (single sort a && all (fun _ => false) b) ||
      (all (fun _ => false) a && single sort b)

variable {sort : Sign → Bool} {word : List Sign}

theorem sort_of_all {outline : Outline} (h : all sort outline = true)
    (hw : word ∈ outline.matches') : ∀ sign ∈ word, sort sign = true := by
  induction outline generalizing word with
  | zero => cases hw
  | epsilon =>
    cases hw
    simp
  | char sign =>
    cases hw
    simpa [all] using h
  | plus a b iha ihb =>
    simp only [all, Bool.and_eq_true] at h
    rcases hw with hw | hw
    · exact iha h.1 hw
    · exact ihb h.2 hw
  | comp a b iha ihb =>
    simp only [all, Bool.and_eq_true] at h
    obtain ⟨u, hu, v, hv, rfl⟩ := Language.mem_mul.1 hw
    rw [List.forall_mem_append]
    exact ⟨iha h.1 hu, ihb h.2 hv⟩
  | star a iha =>
    obtain ⟨words, rfl, hwords⟩ := Language.mem_kstar.1 hw
    intro sign hs
    obtain ⟨u, hu, hs⟩ := List.mem_flatten.1 hs
    exact iha h (hwords u hu) sign hs

/-- A word without signs is empty. -/
theorem eq_nil_of_all {outline : Outline} (h : all (fun _ => false) outline = true)
    (hw : word ∈ outline.matches') : word = [] :=
  List.eq_nil_iff_forall_not_mem.2 fun sign hs => absurd (sort_of_all h hw sign hs) (by simp)

theorem exists_of_any {outline : Outline} (h : any sort outline = true)
    (hw : word ∈ outline.matches') : ∃ sign ∈ word, sort sign = true := by
  induction outline generalizing word with
  | zero => cases hw
  | epsilon => cases h
  | char sign =>
    cases hw
    exact ⟨sign, List.mem_singleton_self _, h⟩
  | plus a b iha ihb =>
    simp only [any, Bool.and_eq_true] at h
    rcases hw with hw | hw
    · exact iha h.1 hw
    · exact ihb h.2 hw
  | comp a b iha ihb =>
    simp only [any, Bool.or_eq_true] at h
    obtain ⟨u, hu, v, hv, rfl⟩ := Language.mem_mul.1 hw
    rcases h with h | h
    · obtain ⟨sign, hs, hsort⟩ := iha h hu
      exact ⟨sign, List.mem_append_left _ hs, hsort⟩
    · obtain ⟨sign, hs, hsort⟩ := ihb h hv
      exact ⟨sign, List.mem_append_right _ hs, hsort⟩
  | star a iha => cases h

theorem countP_le_of_most? {outline : Outline} {count : Nat} (h : most? sort outline = some count)
    (hw : word ∈ outline.matches') : word.countP sort ≤ count := by
  induction outline generalizing word count with
  | zero => cases hw
  | epsilon =>
    cases hw
    simp
  | char sign =>
    cases hw
    cases h
    rw [List.countP_singleton]
  | plus a b iha ihb =>
    obtain ⟨n, ha, hmap⟩ := Option.bind_eq_some_iff.1 h
    obtain ⟨m, hb, rfl⟩ := Option.map_eq_some_iff.1 hmap
    rcases hw with hw | hw
    · exact (iha ha hw).trans (Nat.le_max_left n m)
    · exact (ihb hb hw).trans (Nat.le_max_right n m)
  | comp a b iha ihb =>
    obtain ⟨n, ha, hmap⟩ := Option.bind_eq_some_iff.1 h
    obtain ⟨m, hb, rfl⟩ := Option.map_eq_some_iff.1 hmap
    obtain ⟨u, hu, v, hv, rfl⟩ := Language.mem_mul.1 hw
    rw [List.countP_append]
    exact Nat.add_le_add (iha ha hu) (ihb hb hv)
  | star a iha =>
    rw [most?] at h
    split at h
    · next hall =>
      cases h
      have hstar : all (!sort ·) (.star a) = true := hall
      have hnone := sort_of_all hstar hw
      exact (List.countP_eq_zero.2 fun sign hs => by simpa using hnone sign hs).le
    · cases h

theorem not_mem_of_isNone {outline : Outline} (h : isNone outline = true) :
    word ∉ outline.matches' := by
  intro hw
  induction outline generalizing word with
  | zero => cases hw
  | epsilon => cases h
  | char sign => cases h
  | plus a b iha ihb =>
    simp only [isNone, Bool.and_eq_true] at h
    rcases hw with hw | hw
    · exact iha h.1 hw
    · exact ihb h.2 hw
  | comp a b iha ihb =>
    simp only [isNone, Bool.or_eq_true] at h
    obtain ⟨u, hu, v, hv, rfl⟩ := Language.mem_mul.1 hw
    rcases h with h | h
    · exact iha h hu
    · exact ihb h hv
  | star a iha => cases h

theorem eq_singleton_of_single {outline : Outline} (h : single sort outline = true)
    (hw : word ∈ outline.matches') : ∃ sign, sort sign = true ∧ word = [sign] := by
  induction outline generalizing word with
  | zero => cases hw
  | epsilon => cases h
  | char sign =>
    cases hw
    exact ⟨sign, h, rfl⟩
  | plus a b iha ihb =>
    simp only [single, Bool.and_eq_true] at h
    rcases hw with hw | hw
    · exact iha h.1 hw
    · exact ihb h.2 hw
  | comp a b iha ihb =>
    simp only [single, Bool.or_eq_true, Bool.and_eq_true] at h
    obtain ⟨u, hu, v, hv, rfl⟩ := Language.mem_mul.1 hw
    rcases h with ((h | h) | ⟨h, he⟩) | ⟨he, h⟩
    · exact absurd hu (not_mem_of_isNone h)
    · exact absurd hv (not_mem_of_isNone h)
    · obtain ⟨sign, hs, rfl⟩ := iha h hu
      exact ⟨sign, hs, by rw [eq_nil_of_all he hv, List.append_nil]⟩
    · obtain ⟨sign, hs, rfl⟩ := ihb h hv
      exact ⟨sign, hs, by rw [eq_nil_of_all he hu, List.nil_append]⟩
  | star a iha => cases h

end Outline

/-- Whether all words of an expression keep a rule. -/
def Rule.check (outline : Outline) : Rule → Bool
  | .only kinds => outline.all fun
    | .node kind => kinds kind
    | _ => true
  | .atMost count sort => (outline.most? sort).any (· ≤ count)
  | .one sort => outline.any sort

/-- Whether all words of an expression keep the rules of a kind. -/
def Rule.fits (kind : NodeKind) (outline : Outline) : Bool :=
  (Rule.ofKind kind).all (·.check outline)

theorem Rule.holds_of_check {rule : Rule} {outline : Outline} {word : List Sign}
    (h : rule.check outline = true) (hw : word ∈ outline.matches') : rule.Holds word := by
  cases rule with
  | only kinds => exact fun kind hk => Outline.sort_of_all h hw (.node kind) hk
  | atMost count sort =>
    obtain ⟨n, hn, hle⟩ := (Option.any_eq_true ..).1 h
    exact (Outline.countP_le_of_most? hn hw).trans (by simpa using hle)
  | one sort => exact Outline.exists_of_any h hw

/-- A node is of the right shape if its children are, and their word is one of an expression that
keeps the rules. -/
theorem Tree.shaped_of_fits {kind : NodeKind} {anchor : Token} {extent : Option Extent}
    {comments : Comments} {children : List Tree} {outline : Outline}
    (h : Rule.fits kind outline = true) (hw : signs children ∈ outline.matches')
    (hc : ∀ child ∈ children, child.Shaped) : (node kind anchor extent comments children).Shaped :=
  shaped_node.2 ⟨fun rule hr => Rule.holds_of_check (List.all_eq_true.1 h rule hr) hw, hc⟩

end JavaGraph
