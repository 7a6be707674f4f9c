import JavaGraph.Parser.Lookahead
import JavaGraph.Proofs.Tree.Measured
import JavaGraph.Proofs.Tree.Seated
/-!
# Trees that are formed by the grammar

Three things are said of every composite node of a tree. It is anchored on its first token, except that
a member behind empty modifiers is anchored on its name. The operands of a binary operator bind as
the precedence of the operator demands. A type has a name.
-/

namespace JavaGraph

namespace NodeKind

/-- What an expression is a node of that no operator between two operands is the outermost of. -/
def isTight : NodeKind → Bool
  | .unaryExpr | .postfixExpr | .castExpr | .parenExpr | .fieldAccess | .methodCall | .arrayAccess
  | .newObject | .newArray | .arrayInit | .literal | .nameRef | .thisExpr | .superExpr
  | .classLiteral | .methodRef => true
  | _ => false

/-- What an operand of a binary operator is a node of. -/
def isOperand : NodeKind → Bool
  | .binaryExpr | .instanceOfExpr => true
  | kind => kind.isTight

/-- The members that are begun behind a type: they are anchored on it, or else on a name. -/
def isTyped : NodeKind → Bool
  | .fieldDecl | .methodDecl | .constructorDecl => true
  | _ => false

end NodeKind

namespace Tree

variable {kind : NodeKind} {anchor first : Token} {extent : Option Extent} {comments : Comments}
  {children moved more : List Tree} {ahead : List Token} {tree child : Tree}

/-! ### Anchors -/

/-- The token that a node was begun at. -/
def anchor? : Tree → Option Token
  | .node _ anchor _ _ _ => some anchor
  | .error _ _ => none

theorem text_of_anchor? (h : tree.anchor? = some first) : tree.text = first.text := by
  cases tree with
  | node kind anchor extent comments children =>
    cases h
    rfl
  | error region comments => cases h

/-- What a method, a constructor or the first variable of a field is called. -/
def memberName? (tree : Tree) : Option Token :=
  match tree.kind with
  | .methodDecl | .constructorDecl => tree.childToken? .ident
  | .fieldDecl => (tree.childOfKind? .variableDeclarator).bind (·.childToken? .ident)
  | _ => none

/-- Whether the first child covers no token. -/
def beginsEmpty (tree : Tree) : Bool :=
  tree.children.head?.any (·.tokens.isEmpty)

/-- The token that a node with the first token `first` is anchored on. -/
def anchorFrom (tree : Tree) (first : Token) : Token :=
  if tree.beginsEmpty then tree.memberName?.getD first else first

/-- A node with a first token is anchored as `anchorFrom` says, or its first child is empty although
it is of a kind that never is. -/
def Begun (tree : Tree) : Prop :=
  ∀ first ∈ tree.tokens.head?, tree.anchor? = some (tree.anchorFrom first) ∨
    ∃ child ∈ tree.children.head?, child.tokens = [] ∧ child.kind.mayBeEmpty = false

/-- A node is begun around `moved`, where the tokens of `rest` follow. -/
def Anchored (anchor : Token) (moved : List Tree) (rest : List Token) : Prop :=
  match moved.head?.bind fun child => child.tokens.head? with
  | some first => anchor = first
  | none => ∀ next ∈ rest.head?, anchor = next

/-- If the first of some trees is empty in its own right, so are the others. -/
def Firm (trees : List Tree) : Prop :=
  ∀ first ∈ trees.head?, first.tokens = [] → first.kind.mayBeEmpty = true → tokensOf trees = []

theorem firm_nil : Firm [] := nofun

theorem firm_singleton (tree : Tree) : Firm [tree] := by
  intro first hf ht _
  cases hf
  rw [tokensOf, tokensOf, ht]
  rfl

/-- Only members are anchored on their names. -/
theorem memberName?_eq_none (h : tree.kind.isTyped = false) : tree.memberName? = none := by
  unfold memberName?
  split
  · next hk => rw [hk] at h; cases h
  · next hk => rw [hk] at h; cases h
  · next hk => rw [hk] at h; cases h
  · rfl

/-- A node that is no member is anchored on its first token. -/
theorem anchorFrom_of_not_typed (h : tree.kind.isTyped = false) (first : Token) :
    tree.anchorFrom first = first := by
  unfold anchorFrom
  rw [memberName?_eq_none h]
  split <;> rfl

/-- The first token among those of trees and what follows is theirs, if they have one. -/
theorem eq_of_head? (h : ∀ next ∈ (tokensOf more ++ ahead).head?, anchor = next)
    (hf : first ∈ (tokensOf more).head?) : anchor = first := by
  refine h first ?_
  rw [List.head?_append, Option.mem_def.1 hf]
  rfl

/-- A node that is no member is begun at its first token. -/
theorem begun_of_firm (hk : kind ≠ .token) (ht : kind.isTyped = false) (hm : Firm moved)
    (ha : Anchored anchor moved (tokensOf more ++ ahead)) :
    (node kind anchor extent comments (moved ++ more)).Begun := by
  intro first hf
  have hplain : (node kind anchor extent comments (moved ++ more)).anchorFrom first = first :=
    @anchorFrom_of_not_typed (node kind anchor extent comments (moved ++ more)) ht first
  rw [hplain, anchor?, Option.some.injEq]
  rw [tokens, if_neg hk, tokensOf_append] at hf
  cases moved with
  | nil => exact .inl (eq_of_head? ha hf)
  | cons child rest =>
    cases hc : child.tokens with
    | cons token others =>
      simp only [Anchored, List.head?_cons, Option.bind_some, hc] at ha
      rw [tokensOf, hc] at hf
      cases hf
      exact .inl ha
    | nil =>
      cases hmay : child.kind.mayBeEmpty with
      | false => exact .inr ⟨child, rfl, hc, hmay⟩
      | true =>
        simp only [Anchored, List.head?_cons, Option.bind_some, hc, List.head?_nil] at ha
        rw [hm child rfl hc hmay, List.nil_append] at hf
        exact .inl (eq_of_head? ha hf)

/-- A member is begun at its first token, or at its name if its first child is empty. -/
theorem begun_of_typed (hk : kind ≠ .token)
    (hname : (node kind anchor extent comments (child :: moved ++ more)).memberName? =
      (tokensOf more).head?)
    (hmore : tokensOf more ≠ []) (ha : Anchored anchor (child :: moved) (tokensOf more ++ ahead)) :
    (node kind anchor extent comments (child :: moved ++ more)).Begun := by
  intro first hf
  left
  rw [anchor?, Option.some.injEq]
  unfold anchorFrom beginsEmpty
  cases hc : child.tokens with
  | cons token others =>
    simp only [Anchored, List.head?_cons, Option.bind_some, hc] at ha
    rw [tokens, if_neg hk, List.cons_append, tokensOf, hc] at hf
    cases hf
    simpa [Tree.children, hc] using ha
  | nil =>
    simp only [Anchored, List.head?_cons, Option.bind_some, hc, List.head?_nil] at ha
    have hhead := List.head?_eq_some_head hmore
    rw [hname, hhead]
    simpa [Tree.children, hc] using eq_of_head? ha hhead

/-! ### Members -/

/-- Whether trees stand in front of a name: none of them is an identifier or declares a variable. -/
def Nameless (trees : List Tree) : Prop :=
  ∀ tree ∈ trees, (∀ token ∈ tree.token?, token.kind ≠ .ident) ∧ tree.kind ≠ .variableDeclarator

/-- Trees that begin with an identifier. -/
def BeginsNamed (trees : List Tree) : Prop :=
  ∃ name rest, trees = leaf name :: rest ∧ name.kind = .ident

/-- Trees that begin with the declaration of a variable. -/
def BeginsVariable (trees : List Tree) : Prop :=
  ∃ declarator rest, trees = declarator :: rest ∧ declarator.kind = .variableDeclarator ∧
    BeginsNamed declarator.children

/-- The first identifier is behind what is nameless. -/
theorem childToken?_of_nameless (hm : Nameless moved) {name : Token} {rest : List Tree}
    (hn : name.kind = .ident) :
    (node kind anchor extent comments (moved ++ leaf name :: rest)).childToken? .ident =
      some name := by
  have hnone : (moved.filterMap token?).find? (·.kind == .ident) = none := by
    rw [List.find?_eq_none]
    intro token ht
    obtain ⟨tree, htree, ht⟩ := List.mem_filterMap.1 ht
    simpa using (hm tree htree).1 token ht
  unfold childToken? childTokens
  rw [Tree.children, List.filterMap_append, List.find?_append, hnone, Option.none_or,
    List.filterMap_cons_some (show (leaf name).token? = some name from rfl),
    List.find?_cons_of_pos (by simpa using hn)]

/-- The first variable is behind what is nameless. -/
theorem childOfKind?_of_nameless (hm : Nameless moved) {declarator : Tree} {rest : List Tree}
    (hd : declarator.kind = .variableDeclarator) :
    (node kind anchor extent comments (moved ++ declarator :: rest)).childOfKind?
      .variableDeclarator = some declarator := by
  have hnone : moved.find? (·.kind == .variableDeclarator) = none := by
    rw [List.find?_eq_none]
    intro tree htree
    simpa using (hm tree htree).2
  unfold childOfKind?
  rw [Tree.children, List.find?_append, hnone, Option.none_or,
    List.find?_cons_of_pos (by simpa using hd)]

/-- A method or constructor is begun behind what stands in front of its name. -/
theorem begun_function (hk : kind = .methodDecl ∨ kind = .constructorDecl)
    (hm : Nameless (child :: moved)) (hn : BeginsNamed more)
    (ha : Anchored anchor (child :: moved) (tokensOf more ++ ahead)) :
    (node kind anchor extent comments (child :: moved ++ more)).Begun := by
  obtain ⟨name, rest, rfl, hname⟩ := hn
  have hne : kind ≠ .token := by
    rintro rfl
    obtain h | h := hk <;> cases h
  refine begun_of_typed hne ?_ (by simp [tokensOf]) ha
  have htoken : (node kind anchor extent comments
      (child :: moved ++ leaf name :: rest)).childToken? .ident = some name :=
    childToken?_of_nameless hm hname
  simp only [tokensOf, tokens_leaf, List.singleton_append, List.head?_cons]
  rw [← htoken]
  unfold memberName?
  obtain rfl | rfl := hk <;> rfl

/-- Fields are begun behind what stands in front of the first variable. -/
theorem begun_field (hm : Nameless (child :: moved)) (hv : BeginsVariable more)
    (ha : Anchored anchor (child :: moved) (tokensOf more ++ ahead)) :
    (node .fieldDecl anchor extent comments (child :: moved ++ more)).Begun := by
  obtain ⟨declarator, rest, rfl, hd, name, others, hc, hname⟩ := hv
  obtain ⟨token, declared⟩ : ∃ token, declarator.tokens.head? = some token ∧
      declarator.childToken? .ident = some token := by
    cases declarator with
    | error region comments => cases hd
    | node kind anchor extent comments children =>
      obtain rfl : kind = .variableDeclarator := hd
      obtain rfl : children = leaf name :: others := hc
      have hnone : Nameless [] := nofun
      refine ⟨name, ?_, childToken?_of_nameless hnone hname⟩
      rw [tokens, if_neg (by decide), tokensOf, tokens_leaf]
      rfl
  have hvariable : (node .fieldDecl anchor extent comments
      (child :: moved ++ declarator :: rest)).childOfKind? .variableDeclarator =
        some declarator := childOfKind?_of_nameless hm hd
  have hhead : (tokensOf (declarator :: rest)).head? = some token := by
    rw [tokensOf, List.head?_append, declared.1]
    rfl
  refine begun_of_typed (by decide) ?_ (by rintro h; rw [h] at hhead; cases hhead) ha
  rw [hhead, ← declared.2]
  unfold memberName?
  exact congrArg (Option.bind · (·.childToken? .ident)) hvariable

/-! ### Operators -/

/-- How tight the outermost operator of an expression binds, if it stands between operands. -/
def precedence? (tree : Tree) : Option Nat :=
  match tree.kind with
  | .binaryExpr => (Parser.binaryOperator? tree.childTokens).map (·.precedence)
  | .instanceOfExpr => some 7
  | _ => none

/-- An operand that binds at least as tight as a precedence. -/
def Binds (precedence : Nat) (tree : Tree) : Prop :=
  tree.kind.isTight = true ∨ ∃ own, tree.precedence? = some own ∧ precedence ≤ own

/-- The tokens of a binary operator: one, or two or three `>` that touch. -/
structure Spells (tokens : List Token) (operator : Parser.BinaryOperator) : Prop where
  reads : Parser.binaryOperator? tokens = some operator
  width : operator.width = tokens.length
  length_pos : 1 ≤ tokens.length
  length_le : tokens.length ≤ 3
  touching : tokens.IsChain fun a b => a.kind = .greater ∧ b.kind = .greater ∧ a.stop = b.start

/-- A node is made of the tokens of a binary operator between two operands. A type test may stand on
the left of any operator, since what stands on its right is a type. -/
structure Operation (tree left : Tree) (tokens : List Token) (right : Tree)
    (operator : Parser.BinaryOperator) : Prop where
  children : tree.children = left :: (tokens.map leaf ++ [right])
  spelled : Spells tokens operator
  left : left.kind = .instanceOfExpr ∨ left.Binds operator.precedence
  right : right.Binds (operator.precedence + 1)

/-- The operands of a node bind as its operator demands. -/
def Climbing (tree : Tree) : Prop :=
  match tree.kind with
  | .binaryExpr => ∃ left tokens right operator, tree.Operation left tokens right operator
  | .instanceOfExpr => ∃ left rest, tree.children = left :: rest ∧
      (left.kind = .instanceOfExpr ∨ left.Binds 7)
  | _ => True

theorem Binds.mono {a b : Nat} (h : tree.Binds b) (hle : a ≤ b) : tree.Binds a :=
  h.imp_right fun ⟨own, ho, hb⟩ => ⟨own, ho, Nat.le_trans hle hb⟩

/-- What has a precedence is an operation or a type test. -/
theorem kind_of_precedence? {own : Nat} (h : tree.precedence? = some own) :
    tree.kind = .binaryExpr ∨ tree.kind = .instanceOfExpr := by
  unfold precedence? at h
  split at h
  · next hk => exact .inl hk
  · next hk => exact .inr hk
  · cases h

theorem Binds.isOperand {precedence : Nat} (h : tree.Binds precedence) :
    tree.kind.isOperand = true := by
  obtain h | ⟨own, ho, -⟩ := h
  · unfold NodeKind.isOperand
    split <;> first | rfl | exact h
  · obtain hk | hk := kind_of_precedence? ho <;> rw [hk] <;> rfl

/-- An operand is no leaf. -/
theorem token?_of_isOperand (h : tree.kind.isOperand = true) : tree.token? = none :=
  token?_of_kind_ne fun hk => by
    rw [hk] at h
    cases h

theorem Operation.isOperand_left {left right : Tree} {operator : Parser.BinaryOperator}
    (h : tree.Operation left ahead right operator) : left.kind.isOperand = true := by
  obtain hl | hl := h.left
  · rw [hl]
    rfl
  · exact hl.isOperand

/-- An operation has the precedence of its operator. -/
theorem Operation.precedence? {left right : Tree} {operator : Parser.BinaryOperator}
    (h : tree.Operation left ahead right operator) (hk : tree.kind = .binaryExpr) :
    tree.precedence? = some operator.precedence := by
  have hl := token?_of_isOperand h.isOperand_left
  have hr := token?_of_isOperand h.right.isOperand
  have htokens : tree.childTokens = ahead := by
    have hleaves : (ahead.map leaf).filterMap token? = ahead := by
      rw [List.filterMap_map]
      exact List.filterMap_some
    unfold childTokens
    rw [h.children, List.filterMap_cons_none hl, List.filterMap_append, hleaves,
      List.filterMap_cons_none hr, List.filterMap_nil, List.append_nil]
  unfold Tree.precedence?
  rw [hk, htokens, h.spelled.reads]
  rfl

/-! ### All nodes -/

/-- What is said of a composite node. -/
structure Proper (tree : Tree) : Prop where
  begun : tree.Begun
  climbing : tree.Climbing
  named : tree.kind = .typeRef →
    ∃ token ∈ tree.childTokens, token.kind = .ident ∨ token.kind.isPrimitiveType = true

/-- Every composite node of a tree is as the grammar forms it. -/
def Formed (tree : Tree) : Prop :=
  ∀ node ∈ tree.descendants, node.isComposite = true → node.Proper

theorem formed_node : (node kind anchor extent comments children).Formed ↔
    (kind ≠ .token → (node kind anchor extent comments children).Proper) ∧
      ∀ child ∈ children, child.Formed := by
  unfold Formed
  rw [descendants]
  simp only [List.forall_mem_cons, isComposite, isError, Tree.kind, mem_descendantsOf,
    forall_exists_index, and_imp, Bool.not_false, Bool.true_and, bne_iff_ne]
  exact and_congr_right' ⟨fun h child hc node hn => h node child hc hn,
    fun h node child hc hn => h child hc node hn⟩

theorem formed_leaf (token : Token) : (leaf token).Formed :=
  formed_node.2 ⟨fun h => absurd rfl h, nofun⟩

theorem formed_errorNode? {source : String} {region : List Token} {error : ParseError}
    (h : errorNode? source region error = some tree) : tree.Formed := by
  unfold errorNode? at h
  split at h
  · cases h
    intro node hn hc
    rw [descendants, List.mem_singleton] at hn
    subst hn
    cases hc
  · cases h

/-- A node that is neither an operation nor a type test nor a type only has to be begun. -/
theorem Begun.proper (h : tree.Begun) (hb : tree.kind ≠ .binaryExpr)
    (hi : tree.kind ≠ .instanceOfExpr) (ht : tree.kind ≠ .typeRef) : tree.Proper where
  begun := h
  climbing := by
    unfold Climbing
    split
    · next hk => exact absurd hk hb
    · next hk => exact absurd hk hi
    · trivial
  named hk := absurd hk ht

end Tree

end JavaGraph
