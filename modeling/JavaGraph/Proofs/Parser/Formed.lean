import JavaGraph.Proofs.Parser.FormingMembers
import JavaGraph.Proofs.Parser.SeatedGrammar
/-!
# Where nodes begin and how operators nest

What the grammar forms is read off the trees of texts. A composite node is anchored on its first
token, unless it is a member without modifiers: its type is there already when the member is begun,
behind modifiers that cover no token, so that it is anchored on its name. Operators nest by their
precedence, the tighter ones within the looser ones and equal ones to the left.
-/

namespace JavaGraph

variable {text : String} {options : ParseOptions} {node : Tree} {first : Token}

/-! ### Anchors -/

/-- Where there are tokens, every node of the tree of a text is seated. -/
theorem seated_of_mem_descendants (hn : node ∈ (parseSource text options).root.descendants)
    (hf : node.tokens.head? = some first) : ∃ behind, node.Seated behind := by
  by_cases hc : (parseSource text options).root.children = []
  · have hk := kind_root text options
    generalize (parseSource text options).root = root at hn hc hk
    cases root with
    | error region comments => cases hk
    | node kind anchor extent comments children =>
      obtain rfl : children = [] := hc
      obtain rfl : kind = .compilationUnit := hk
      obtain rfl := List.mem_singleton.1 hn
      cases hf
  · obtain ⟨behind, hs⟩ := seated_root hc
    exact Tree.Seated.of_mem_descendants _ hs node hn

/-- A composite node is anchored on its first token, or on its name if it is a member behind empty
modifiers. It has the text of its first token exactly if that is no other than this name. -/
theorem anchored_of_mem_descendants (hn : node ∈ (parseSource text options).root.descendants)
    (hc : node.isComposite = true) (hf : node.tokens.head? = some first) :
    node.anchor? = some (node.anchorFrom first) ∧
      (node.text = first.text ↔
        (node.beginsEmpty = true → ∀ name ∈ node.memberName?, name.text = first.text)) := by
  have hanchor : node.anchor? = some (node.anchorFrom first) := by
    refine ((formed_root text options node hn hc).begun first hf).resolve_right ?_
    rintro ⟨child, hchild, hnil, hkind⟩
    -- an empty first child would be seated, and then its kind may be empty
    obtain ⟨behind, hs⟩ := seated_of_mem_descendants hn hf
    obtain ⟨behind, hseated⟩ := Tree.Seated.of_mem_descendants _ hs child
      (Tree.mem_descendants_of_mem_children (List.mem_of_mem_head? hchild))
    exact hseated.tokens_ne_nil hkind hnil
  refine ⟨hanchor, ?_⟩
  rw [Tree.text_of_anchor? hanchor]
  unfold Tree.anchorFrom
  cases node.beginsEmpty with
  | false => simp
  | true => cases node.memberName? <;> simp

/-- A method with modifiers has the text of the first of them. -/
theorem anchored_publicMethod :
    let root := (parseSource "class A \x7b public void m() \x7b \x7d \x7d" {}).root
    ∃ node ∈ root.descendants, ∃ first, node.kind = .methodDecl ∧ node.tokens.head? = some first ∧
      first.text = "public" ∧ node.text = first.text := by
  intro root
  have hfind : (root.descendants.find? fun node => node.kind == .methodDecl && node.isComposite &&
      (node.tokens.head?.map (·.text) == some "public") && !node.beginsEmpty).isSome = true := by
    decide +kernel
  obtain ⟨node, hnode⟩ := Option.isSome_iff_exists.1 hfind
  have hn := List.mem_of_find?_eq_some hnode
  have hp := List.find?_some hnode
  simp only [Bool.and_eq_true, beq_iff_eq, Option.map_eq_some_iff, Bool.not_eq_true'] at hp
  obtain ⟨⟨⟨hk, hc⟩, first, hf, htext⟩, hempty⟩ := hp
  refine ⟨node, hn, first, hk, hf, htext, (anchored_of_mem_descendants hn hc hf).2.2 fun he => ?_⟩
  rw [hempty] at he
  cases he

/-- A method without modifiers has the text of its name, which is not its first token. -/
theorem not_anchored_plainMethod :
    ∃ node ∈ (parseSource "class A \x7b void m() \x7b \x7d \x7d" {}).root.descendants,
      node.isComposite = true ∧ node.tokens.head?.map (·.text) = some "void" ∧ node.text = "m" := by
  have hfind : ((parseSource "class A \x7b void m() \x7b \x7d \x7d" {}).root.descendants.find?
      fun node => node.isComposite && (node.tokens.head?.map (·.text) == some "void") &&
        (node.text == "m")).isSome = true := by decide +kernel
  obtain ⟨node, hnode⟩ := Option.isSome_iff_exists.1 hfind
  have hp := List.find?_some hnode
  simp only [Bool.and_eq_true, beq_iff_eq] at hp
  exact ⟨node, List.mem_of_find?_eq_some hnode, hp.1.1, hp.1.2, hp.2⟩

/-! ### Operators -/

/-- Assignments, conditionals and lambdas are no operands. -/
theorem NodeKind.not_mem_of_isOperand {kind : NodeKind} (h : kind.isOperand = true) :
    kind ∉ [.assignExpr, .conditionalExpr, .lambdaExpr] := by
  intro hm
  simp only [List.mem_cons, List.not_mem_nil, or_false] at hm
  obtain rfl | rfl | rfl := hm <;> cases h

namespace Tree

variable {operand : Tree} {precedence : Nat}

/-- An operand with an operator of its own binds as tight as it has to. -/
theorem Binds.exists_precedence? (h : operand.Binds precedence)
    (hk : operand.kind = .binaryExpr ∨ operand.kind = .instanceOfExpr) :
    ∃ own, operand.precedence? = some own ∧ precedence ≤ own := by
  refine h.resolve_left fun ht => ?_
  obtain hk | hk := hk <;> rw [hk] at ht <;> cases ht

/-- A left operand that is no type test binds as tight as it has to. -/
theorem exists_precedence?_of_left (h : operand.kind = .instanceOfExpr ∨ operand.Binds precedence)
    (hk : operand.kind = .binaryExpr) : ∃ own, operand.precedence? = some own ∧ precedence ≤ own :=
  (h.resolve_left fun ht => by rw [hk] at ht; cases ht).exists_precedence? (.inl hk)

theorem isOperand_of_left (h : operand.kind = .instanceOfExpr ∨ operand.Binds precedence) :
    operand.kind.isOperand = true := by
  obtain h | h := h
  · rw [h]
    rfl
  · exact h.isOperand

end Tree

/-- Operators nest by their precedence. A binary operator has one token, or up to three `>` that
touch, between two operands. What stands on its left binds as tight as it does, and what stands on its
right tighter, where a type test binds like a comparison. No operand is an assignment, a conditional or
a lambda. -/
theorem operators_nest (hn : node ∈ (parseSource text options).root.descendants) :
    (node.kind = .binaryExpr → ∃ left tokens right operator,
      node.children = left :: (tokens.map .leaf ++ [right]) ∧ Tree.Spells tokens operator ∧
        (left.kind = .binaryExpr →
          ∃ own, left.precedence? = some own ∧ operator.precedence ≤ own) ∧
        (right.kind = .binaryExpr ∨ right.kind = .instanceOfExpr →
          ∃ own, right.precedence? = some own ∧ operator.precedence < own) ∧
        ∀ operand ∈ [left, right], operand.kind.isOperand = true ∧
          operand.kind ∉ [.assignExpr, .conditionalExpr, .lambdaExpr]) ∧
      (node.kind = .instanceOfExpr → ∃ left rest, node.children = left :: rest ∧
        (left.kind = .binaryExpr → ∃ own, left.precedence? = some own ∧ 7 ≤ own) ∧
        left.kind.isOperand = true ∧
        left.kind ∉ [.assignExpr, .conditionalExpr, .lambdaExpr]) := by
  have hproper (hc : node.isComposite = true) := (formed_root text options node hn hc).climbing
  unfold Tree.Climbing at hproper
  have hcomposite (hk : node.kind = .binaryExpr ∨ node.kind = .instanceOfExpr) :
      node.isComposite = true := by
    cases node with
    | error region comments => obtain hk | hk := hk <;> cases hk
    | node kind anchor extent comments children =>
      obtain hk | hk := hk <;> obtain rfl : kind = _ := hk <;> rfl
  constructor
  · intro hk
    have hclimbing := hproper (hcomposite (.inl hk))
    rw [hk] at hclimbing
    obtain ⟨left, tokens, right, operator, ho⟩ := hclimbing
    have hleft := Tree.isOperand_of_left ho.left
    have hright := ho.right.isOperand
    refine ⟨left, tokens, right, operator, ho.children, ho.spelled,
      Tree.exists_precedence?_of_left ho.left, ho.right.exists_precedence?, ?_⟩
    simp only [List.forall_mem_cons]
    exact ⟨⟨hleft, NodeKind.not_mem_of_isOperand hleft⟩,
      ⟨hright, NodeKind.not_mem_of_isOperand hright⟩, List.forall_mem_nil _⟩
  · intro hk
    have hclimbing := hproper (hcomposite (.inr hk))
    rw [hk] at hclimbing
    obtain ⟨left, rest, hc, hl⟩ := hclimbing
    have hleft := Tree.isOperand_of_left hl
    exact ⟨left, rest, hc, Tree.exists_precedence?_of_left hl, hleft,
      NodeKind.not_mem_of_isOperand hleft⟩

/-- A shift takes the sum on its right as one operand, and the shift before it on its left. -/
theorem operators_nest_shift :
    let root := (parseSource "class A { int f = a << b >>> c + d; }" {}).root
    ∃ node ∈ root.descendants, node.kind = .binaryExpr ∧
      node.children.map (·.kind) = [.binaryExpr, .token, .token, .token, .binaryExpr] ∧
      ∃ left tokens right operator, node.children = left :: (tokens.map .leaf ++ [right]) ∧
        Tree.Spells tokens operator ∧
        (left.kind = .binaryExpr →
          ∃ own, left.precedence? = some own ∧ operator.precedence ≤ own) ∧
        (right.kind = .binaryExpr ∨ right.kind = .instanceOfExpr →
          ∃ own, right.precedence? = some own ∧ operator.precedence < own) := by
  intro root
  have hfind : (root.descendants.find? fun node => node.kind == .binaryExpr &&
      (node.children.map (·.kind) == [.binaryExpr, .token, .token, .token, .binaryExpr])).isSome =
        true := by decide +kernel
  obtain ⟨node, hnode⟩ := Option.isSome_iff_exists.1 hfind
  have hn := List.mem_of_find?_eq_some hnode
  have hp := List.find?_some hnode
  simp only [Bool.and_eq_true, beq_iff_eq] at hp
  obtain ⟨left, tokens, right, operator, hc, hs, hleft, hright, -⟩ := (operators_nest hn).1 hp.1
  exact ⟨node, hn, hp.1, hp.2, left, tokens, right, operator, hc, hs, hleft, hright⟩

end JavaGraph
