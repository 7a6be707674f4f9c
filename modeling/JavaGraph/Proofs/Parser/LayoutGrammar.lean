import JavaGraph.Proofs.Parser.Layout
import JavaGraph.Proofs.Tree.Comments
/-!
# Parsing does not see the layout

No construct of the grammar sees the layout, so two sequences of tokens with the same kinds and texts
that touch in the same places are parsed into trees with the same sketch and with the same faults.
-/

namespace JavaGraph

namespace Parser

open Parse

set_option synthInstance.maxSize 8192

/-! ### Types, annotations and parameters -/

instance : LayoutFree dottedRest := by unfold dottedRest; infer_instance

instance : LayoutFree qualifiedName := by unfold qualifiedName; infer_instance

instance : LayoutFree typeAnnotations := by unfold typeAnnotations; infer_instance

section

variable (nested : Parse Unit) [LayoutFree nested]

instance : LayoutFree (typeArgumentWith nested) := by unfold typeArgumentWith; infer_instance

instance : LayoutFree (typeArgumentsWith nested) := by
  unfold typeArgumentsWith; dsimp only; infer_instance

instance : LayoutFree (classTypeWith nested) := by
  unfold classTypeWith; dsimp only; infer_instance

instance : LayoutFree (elementTypeWith nested) := by unfold elementTypeWith; infer_instance

instance : LayoutFree (typeRefWith nested) := by unfold typeRefWith; infer_instance

end

instance layoutFree_typeRefAtMost (depth : Nat) : LayoutFree (typeRefAtMost depth) := by
  induction depth with
  | zero => unfold typeRefAtMost; infer_instance
  | succ depth ih => unfold typeRefAtMost; infer_instance

instance : LayoutFree typeRef := .onAhead (fun h => by rw [h.length_eq]) fun _ => inferInstance

instance : LayoutFree typeArguments := by unfold typeArguments; infer_instance

instance : LayoutFree typeRefNoDimensions := by unfold typeRefNoDimensions; infer_instance

instance : LayoutFree typeList := by unfold typeList; infer_instance

instance : LayoutFree typeParameter := by unfold typeParameter; infer_instance

instance : LayoutFree typeParametersOpt := by unfold typeParametersOpt; infer_instance

instance : LayoutFree annotationArguments := by
  unfold annotationArguments
  refine .onAhead (fun {ahead ahead'} h => ?_) fun ahead => ?_
  · have hbehind := h.afterParens
    match hb : afterParens ahead, hb' : afterParens ahead' with
    | none, none => rfl
    | none, some _ => simp [hb, hb'] at hbehind
    | some _, none => simp [hb, hb'] at hbehind
    | some behind, some behind' =>
      rw [hb, hb', Option.map_some, Option.map_some] at hbehind
      dsimp only
      rw [h.length_eq, Option.some.inj hbehind]
  · split <;> infer_instance

instance : LayoutFree annotationUse := by unfold annotationUse; infer_instance

instance : LayoutFree modifiers := by
  have : LayoutFree (do
      let ahead ← look id
      let isLabel := kindAt ahead 1 == .colon || kindAt ahead 1 == .arrow
      if kindAt ahead 0 == .kwDefault && isLabel then return false
      else if (kindAt ahead 0).isModifier then
        bump
        return true
      else if kindAt ahead 0 == .atSign && kindAt ahead 1 == .ident then
        annotationUse
        return true
      else return false) :=
    .look (fun h => by simp only [id, h.kindAt]) fun _ => by dsimp only [id]; infer_instance
  unfold modifiers
  infer_instance

instance : LayoutFree parameter := by unfold parameter; dsimp only; infer_instance

instance : LayoutFree formalParameters := by unfold formalParameters; dsimp only; infer_instance

/-! ### Expressions -/

section

variable (sub : Nonterminal → Parse Unit) [∀ construct, LayoutFree (sub construct)]

instance : LayoutFree (arguments sub) := by unfold arguments; dsimp only; infer_instance

instance : LayoutFree (variableInitializer sub) := by unfold variableInitializer; infer_instance

instance : LayoutFree (arrayInit sub) := by unfold arrayInit; infer_instance

instance : PlaceFree fun ahead =>
    kindAt ahead 0 == .ident && (kindAt ahead 1 == .comma || kindAt ahead 1 == .rParen) :=
  ⟨fun h => by simp only [h.kindAt]⟩

instance : LayoutFree lambdaParameters := by unfold lambdaParameters; dsimp only; infer_instance

instance : LayoutFree (lambda sub) := by unfold lambda; infer_instance

instance : LayoutFree (arrayLengths sub) := by unfold arrayLengths; dsimp only; infer_instance

instance : LayoutFree (newExpr sub) := by unfold newExpr; dsimp only; infer_instance

instance (place : Checkpoint) : LayoutFree (memberOf sub place) := by
  unfold memberOf
  refine .look (fun h => by simp only [id, h.kindAt]) fun ahead => ?_
  dsimp only [id]
  split
  case h_1 => split <;> infer_instance
  all_goals infer_instance

instance (place : Checkpoint) : LayoutFree (postfixPart sub place) := by
  unfold postfixPart
  refine .look (fun h => by simp only [h.kindAt]) fun ahead => ?_
  split <;> infer_instance

instance : LayoutFree (namedOperand sub) := by
  unfold namedOperand
  refine .look (fun {ahead ahead'} h => ?_) fun ahead => ?_
  · simp only [id, h.kindAt, PlaceFree.same h]
  · dsimp only [id]
    infer_instance

instance (kind : NodeKind) [Evaluates (isInner kind)] : LayoutFree (selfOperand sub kind) := by
  unfold selfOperand; infer_instance

instance : LayoutFree primitiveOperand := by unfold primitiveOperand; infer_instance

instance : LayoutFree (primary sub) := by
  unfold primary
  refine .look (fun h => by simp only [h.kindAt]) fun ahead => ?_
  split <;> infer_instance

instance : LayoutFree (postfixExpr sub) := by unfold postfixExpr; infer_instance

instance : LayoutFree (castExpr sub) := by unfold castExpr; infer_instance

instance : LayoutFree (unaryExpr sub) := by
  unfold unaryExpr
  refine .look (fun {ahead ahead'} h => ?_) fun ahead => ?_
  · have hcast : atCast ahead = atCast ahead' := PlaceFree.same h
    simp only [id, h.kindAt, hcast]
  · dsimp only [id]
    split <;> infer_instance

instance (place : Checkpoint) : LayoutFree (typeTest place) := by unfold typeTest; infer_instance

instance (place : Checkpoint) (precedence : Nat) :
    LayoutFree (operatorPart sub place precedence) := by
  unfold operatorPart
  refine .look (fun h => by rw [h.binaryOperator?]) fun ahead => ?_
  split <;> infer_instance

instance (precedence : Nat) : LayoutFree (binaryExpr sub precedence) := by
  unfold binaryExpr; infer_instance

instance : LayoutFree (conditionalExpr sub) := by unfold conditionalExpr; infer_instance

instance : LayoutFree (expression sub) := by
  have (place : Checkpoint) : LayoutFree (do
      match ← look assignmentWidth? with
      | none => pure ()
      | some width =>
        aroundSince place .assignExpr do
          bumpMany width
          sub .expression) :=
    .look (fun h => by rw [h.assignmentWidth?]) fun ahead => by split <;> infer_instance
  unfold expression
  infer_instance

end

/-! ### Statements -/

section

variable (sub : Nonterminal → Parse Unit) [∀ construct, LayoutFree (sub construct)]

instance : LayoutFree (variableDeclarators sub) := by unfold variableDeclarators; infer_instance

instance : LayoutFree (localVariables sub) := by unfold localVariables; infer_instance

instance : LayoutFree (condition sub) := by unfold condition; infer_instance

instance : LayoutFree (expressionList sub) := by unfold expressionList; infer_instance

instance : LayoutFree (expressionStmt sub) := by unfold expressionStmt; infer_instance

instance : LayoutFree (ifStmt sub) := by unfold ifStmt; infer_instance

instance : LayoutFree (whileStmt sub) := by unfold whileStmt; infer_instance

instance : LayoutFree (doStmt sub) := by unfold doStmt; infer_instance

instance : LayoutFree (forInit sub) := by unfold forInit; infer_instance

instance : LayoutFree (forEachHeader sub) := by unfold forEachHeader; infer_instance

instance : LayoutFree (forHeader sub) := by unfold forHeader; dsimp only; infer_instance

instance : PlaceFree fun ahead => atLocalVariable ahead && atForEachColon ahead :=
  ⟨fun {ahead ahead'} h => by
    have hvariable : atLocalVariable ahead = atLocalVariable ahead' := PlaceFree.same h
    have hcolon : atForEachColon ahead = atForEachColon ahead' := PlaceFree.same h
    rw [hvariable, hcolon]⟩

instance : LayoutFree (forStmt sub) := by unfold forStmt; infer_instance

instance : LayoutFree (returnStmt sub) := by unfold returnStmt; dsimp only; infer_instance

instance : LayoutFree (throwStmt sub) := by unfold throwStmt; infer_instance

instance (kind : NodeKind) [Evaluates (isInner kind)] : LayoutFree (jumpStmt kind) := by
  unfold jumpStmt; infer_instance

instance : LayoutFree (syncStmt sub) := by unfold syncStmt; infer_instance

instance : LayoutFree (assertStmt sub) := by unfold assertStmt; dsimp only; infer_instance

instance : LayoutFree (labeledStmt sub) := by unfold labeledStmt; infer_instance

instance : LayoutFree (resources sub) := by unfold resources; infer_instance

instance : LayoutFree (catchClause sub) := by unfold catchClause; infer_instance

instance : LayoutFree (tryStmt sub) := by unfold tryStmt; dsimp only; infer_instance

variable (declaration : Checkpoint → Parse Unit) [∀ place, LayoutFree (declaration place)]

instance : LayoutFree (blockStatement sub declaration) := by unfold blockStatement; infer_instance

instance (ends : List TokenKind) : LayoutFree (blockStatements sub declaration ends) := by
  unfold blockStatements; infer_instance

instance : LayoutFree (block sub declaration) := by unfold block; infer_instance

instance : LayoutFree (arrowBody sub) := by unfold arrowBody; infer_instance

instance : LayoutFree (switchCase sub declaration) := by
  unfold switchCase; dsimp only; infer_instance

instance : LayoutFree (switchStmt sub declaration) := by unfold switchStmt; infer_instance

instance : LayoutFree (statement sub declaration) := by
  unfold statement
  refine .look (fun h => by simp only [id, h.kindAt]) fun ahead => ?_
  dsimp only [id]
  split
  case h_15 => split <;> infer_instance
  all_goals infer_instance

end

/-! ### Declarations -/

section

variable (sub : Nonterminal → Parse Unit) [∀ construct, LayoutFree (sub construct)]

instance : LayoutFree implementsOpt := by unfold implementsOpt; infer_instance

instance : LayoutFree (classDecl sub) := by unfold classDecl; dsimp only; infer_instance

instance : LayoutFree (interfaceDecl sub) := by unfold interfaceDecl; dsimp only; infer_instance

instance : LayoutFree (enumDecl sub) := by unfold enumDecl; infer_instance

instance : LayoutFree (annotationDecl sub) := by unfold annotationDecl; infer_instance

instance (place : Checkpoint) : LayoutFree (typeDeclaration sub place) := by
  unfold typeDeclaration
  refine .look (fun h => by simp only [id, h.kindAt]) fun ahead => ?_
  dsimp only [id]
  infer_instance

instance : LayoutFree (elementValue sub) := by
  unfold elementValue
  refine .look (fun h => by simp only [h.kindAt]) fun ahead => ?_
  split <;> infer_instance

instance : LayoutFree (methodRest sub) := by unfold methodRest; dsimp only; infer_instance

instance : LayoutFree (initializerBlock sub) := by unfold initializerBlock; infer_instance

instance (place : Checkpoint) : LayoutFree (methodOrFields sub place) := by
  unfold methodOrFields; infer_instance

instance (place : Checkpoint) : LayoutFree (typedMember sub place) := by
  unfold typedMember; dsimp only; infer_instance

instance : LayoutFree (member sub) := by
  have (place : Checkpoint) : LayoutFree (do
      let ahead ← look id
      if kindAt ahead 0 = .lBrace ∨ (kindAt ahead 0 = .kwStatic ∧ kindAt ahead 1 = .lBrace) then
        initializerBlock sub
      else
        modifiers
        if ← look atTypeKeyword then typeDeclaration sub place else typedMember sub place) :=
    .look (fun h => by simp only [id, h.kindAt]) fun _ => by dsimp only [id]; infer_instance
  unfold member
  infer_instance

instance : LayoutFree (members sub) := by unfold members; infer_instance

instance : LayoutFree (classBody sub) := by unfold classBody; infer_instance

instance : LayoutFree (enumConstant sub) := by unfold enumConstant; dsimp only; infer_instance

instance : LayoutFree (enumBody sub) := by unfold enumBody; dsimp only; infer_instance

end

instance : LayoutFree packageDecl := by unfold packageDecl; infer_instance

instance : LayoutFree importDecl := by unfold importDecl; dsimp only; infer_instance

/-! ### The whole grammar -/

/-- A construct does not see the layout if those within it do not. -/
theorem layoutFree_nonterminalWith (sub : Nonterminal → Parse Unit)
    [∀ construct, LayoutFree (sub construct)] (construct : Nonterminal) :
    LayoutFree (nonterminalWith sub construct) := by
  unfold nonterminalWith
  cases construct <;> infer_instance

instance layoutFree_nonterminalAtMost (depth : Nat) (construct : Nonterminal) :
    LayoutFree (nonterminalAtMost depth construct) := by
  induction depth generalizing construct with
  | zero => unfold nonterminalAtMost; infer_instance
  | succ depth ih => exact layoutFree_nonterminalWith (nonterminalAtMost depth) construct

instance (construct : Nonterminal) : LayoutFree (nonterminal construct) :=
  .onAhead (fun h => by rw [h.length_eq]) fun _ => inferInstance

instance : LayoutFree topLevelDeclaration := by unfold topLevelDeclaration; infer_instance

instance : LayoutFree compilationUnit := by unfold compilationUnit; dsimp only; infer_instance

/-! ### Streams of tokens -/

/-- A stream of tokens ends with the end of a text. -/
def EndsInEof (tokens : List Token) : Prop :=
  ∃ last, tokens.getLast? = some last ∧ last.kind = .eof

/-- The state in which the parser is left by a stream of tokens. -/
def parsed (source : String) (tokens : List Token) : State :=
  (compilationUnit { source, endToken := tokens.getLastD default } (.start tokens)).2

theorem EndsInEof.kind_getLastD {tokens : List Token} (h : EndsInEof tokens) :
    (tokens.getLastD default).kind = .eof := by
  obtain ⟨last, hl, hk⟩ := h
  rw [List.getLastD_eq_getLast?, hl]
  exact hk

/-- Two streams of tokens whose significant tokens have the same kinds and texts, and touch in the
same places, are parsed into trees with the same sketch, with the same faults. -/
theorem parsed_layoutFree (source source' : String) {tokens tokens' : List Token}
    (he : EndsInEof tokens) (he' : EndsInEof tokens')
    (h : SameFaces (tokens.filter Token.isSignificant) (tokens'.filter Token.isSignificant)) :
    (parsed source tokens).builder.finish.sketch = (parsed source' tokens').builder.finish.sketch ∧
      (parsed source tokens).errors.map ParseError.face =
        (parsed source' tokens').errors.map ParseError.face := by
  have hfree : LayoutFree compilationUnit := inferInstance
  have hunit : NodeKind.compilationUnit ≠ .token := by decide
  have hstart : (State.start tokens).SameLook (.start tokens') :=
    ⟨h, ⟨Frame.sketch_eq_of_ne hunit rfl rfl, rfl⟩, rfl⟩
  have hinput : (Input.mk source (tokens.getLastD default)).endToken.kind = .eof :=
    he.kind_getLastD
  have hinput' : (Input.mk source' (tokens'.getLastD default)).endToken.kind = .eof :=
    he'.kind_getLastD
  obtain ⟨-, hend⟩ := hfree.same hinput hinput' hstart
  exact ⟨hend.builder.finish, hend.errors⟩

/-- A comment and lines between the tokens of a class do not show: the two halves of its operator
touch in both texts, as do the same few other tokens. -/
theorem parsed_layoutFree_shift :
    (parsed "" (tokenize "class A \x7b int f = 8>>1; \x7d")).builder.finish.sketch =
        (parsed "" (tokenize "class A\n\x7b // n\n int f = 8>>1; \x7d")).builder.finish.sketch ∧
      (parsed "" (tokenize "class A \x7b int f = 8>>1; \x7d")).errors.map ParseError.face =
        (parsed "" (tokenize "class A\n\x7b // n\n int f = 8>>1; \x7d")).errors.map
          ParseError.face :=
  parsed_layoutFree "" "" ⟨⟨.eof, "", 25, 25, 1, 25, 19⟩, by decide +kernel, rfl⟩
    ⟨⟨.eof, "", 31, 31, 3, 16, 21⟩, by decide +kernel, rfl⟩ ⟨by decide +kernel, by decide +kernel⟩

end Parser

/-! ### Texts -/

namespace Tree

variable (layout : CommentLayout)

mutual

/-- Comments are not in the sketch of a tree. -/
theorem sketch_attachWith : (tree : Tree) → (tree.attachWith layout).sketch = tree.sketch
  | .node kind anchor extent comments children => by
    obtain ⟨attached, ha⟩ :=
      exists_attachHere layout (.node kind anchor extent comments (attachAll layout children))
    rw [attachWith, ha]
    simp only [withComments, sketch, sketchOf_attachAll children]
  | .error region comments => by
    obtain ⟨attached, ha⟩ := exists_attachHere layout (.error region comments)
    rw [attachWith, ha]
    simp only [withComments, sketch]

theorem sketchOf_attachAll : (children : List Tree) →
    sketchOf (attachAll layout children) = sketchOf children
  | [] => rfl
  | child :: rest => by
    rw [attachAll, sketchOf, sketchOf, sketch_attachWith child, sketchOf_attachAll rest]

end

end Tree

open Parser in
/-- What is known of a text beyond its stream of tokens does not show in the sketch of its tree. -/
theorem sketch_parseSource (text : String) (options : ParseOptions) :
    (parseSource text options).root.sketch =
      (parsed text (tokenize text)).builder.finish.sketch := by
  unfold parseSource
  cases options.attachComments with
  | false => rfl
  | true => exact Tree.sketch_attachWith _ _

end JavaGraph
