import JavaGraph.Proofs.Parser.Building
import JavaGraph.Proofs.Parser.Measured
import JavaGraph.Proofs.Tree.Comments
/-!
# The grammar builds trees of the right shape

Every construct of the grammar is built by its rules. The circle of the grammar is closed by
induction on the depth of nesting.
-/

namespace JavaGraph

namespace Parser

open Parse

set_option synthInstance.maxSize 8192

/-- Exactly one node of a kind. -/
@[reducible] def node (kind : NodeKind) : Outline := .char (.node kind)

instance : Builds [] expectClosingBrace (many [.token]) := by
  unfold expectClosingBrace
  exact .many inferInstance

/-! ### Types, annotations and parameters -/

instance : Builds [] dimensions (many [.token]) := by
  unfold dimensions
  exact .many inferInstance

instance : Builds [] dottedRest (many [.identifier, .token]) := by
  unfold dottedRest
  exact .many inferInstance

instance : Builds [] qualifiedName (node .qualifiedName) := by
  unfold qualifiedName
  exact .inNode inferInstance

instance : Builds [] typeAnnotations (many [.node .annotationUse]) := by
  have : Builds [] (inNode .annotationUse do bump; qualifiedName) (node .annotationUse) :=
    .inNode inferInstance
  unfold typeAnnotations
  exact .many inferInstance

section

variable (nested : Parse Unit) [Builds [] nested (node .typeRef)]

instance : Builds [] (typeArgumentWith nested) (many [.node .wildcard, .node .typeRef]) := by
  have : Builds [.question] (inNode .wildcard do
      bump
      if (← isAt .kwExtends) || (← isAt .kwSuper) then
        bump
        nested) (node .wildcard) := .inNode inferInstance
  unfold typeArgumentWith
  exact .many inferInstance

instance : Builds [] (typeArgumentsWith nested) (node .typeArguments) := by
  unfold typeArgumentsWith
  dsimp only
  exact .inNode inferInstance

instance : Builds [] (elementTypeWith nested)
    (many [.identifier, .void, .token, .node .typeArguments]) := by
  unfold elementTypeWith classTypeWith
  dsimp only
  exact .many inferInstance

instance : Builds [] (typeRefWith nested) (node .typeRef) := by
  unfold typeRefWith
  exact .inNode inferInstance

end

instance builds_typeRefAtMost (depth : Nat) : Builds [] (typeRefAtMost depth) (node .typeRef) := by
  induction depth with
  | zero =>
    unfold typeRefAtMost
    exact Builds.mono (a := .zero) inferInstance fun _ => False.elim
  | succ depth ih => unfold typeRefAtMost; infer_instance

instance : Builds [] typeRef (node .typeRef) := by unfold typeRef; infer_instance

instance : Builds [] typeArguments (node .typeArguments) := by unfold typeArguments; infer_instance

instance : Builds [] typeRefNoDimensions (node .typeRef) := by
  unfold typeRefNoDimensions
  exact .inNode inferInstance

instance : Builds [] typeList (many [.token, .node .typeRef]) := by
  unfold typeList
  exact .many inferInstance

instance : Builds [] typeParameter (node .typeParameter) := by
  unfold typeParameter
  exact .inNode inferInstance

instance : Builds [] typeParametersOpt (.plus (node .typeParameters) .epsilon) := by
  have : Builds [.less] (inNode .typeParameters do
      bump
      commaSeparated typeParameter
      expect .greater "`>`") (node .typeParameters) := .inNode inferInstance
  unfold typeParametersOpt
  infer_instance

instance : Builds [] annotationArguments (.plus (node .annotationArgs) .epsilon) := by
  have hbumps (count : Nat) : Builds [] (inNode .annotationArgs (bumpMany count))
      (node .annotationArgs) := .inNode inferInstance
  unfold annotationArguments
  refine .onAhead fun ahead => ?_
  split
  · exact (hbumps _).mono fun _ => Or.inl
  · exact Builds.mono (a := .epsilon) inferInstance fun _ => Or.inr

instance : Builds [] annotationUse (node .annotationUse) := by
  have : Builds [] (inNode .qualifiedName do bump; dottedRest) (node .qualifiedName) :=
    .inNode inferInstance
  unfold annotationUse
  exact .inNode inferInstance

instance : Builds [] modifiers (node .modifiers) := by
  unfold modifiers
  dsimp only
  exact .inNode inferInstance

instance : Builds [] parameter (node .parameter) := by
  unfold parameter
  dsimp only
  exact .inNode inferInstance

instance : Builds [] formalParameters (node .formalParameters) := by
  unfold formalParameters
  dsimp only
  exact .inNode inferInstance

/-! ### Expressions -/

/-- What a construct through which the grammar is recursive builds. -/
def outline : Nonterminal → Outline
  | .expression | .conditional | .binary _ | .unary => nodeOf (·.isExpression)
  | .arrayInit => node .arrayInit
  | .block => node .block
  | .statement => nodeOf (·.isStatement)
  | .classBody => node .classBody
  | .enumBody => node .enumBody

/-- One expression. -/
@[reducible] def oneExpression : Outline := nodeOf (·.isExpression)

/-- Leaves and parts of expressions and statements. -/
@[reducible] def code : Outline := leavesAnd (·.isCode)

/-- The node of what `new` makes is around its head and what follows. -/
theorem newExpr_parts (sub : Nonterminal → Parse Unit) : newExpr sub = (do
    let place ← checkpoint
    (do
      bump
      if ← isAt .less then typeArguments
      typeRefNoDimensions)
    if ← isAt .lBracket then
      aroundSince place .newArray do
        arrayLengths sub
        if ← isAt .lBrace then sub .arrayInit
    else
      aroundSince place .newObject do
        arguments sub
        if ← isAt .lBrace then sub .classBody) := by
  rw [newExpr_eq]
  simp only [bind_assoc, bind_choice]

section

variable (sub : Nonterminal → Parse Unit) [∀ construct, Builds [] (sub construct) (outline construct)]

instance : Builds [] (arguments sub) (node .arguments) := by
  unfold arguments
  dsimp only
  exact .inNode inferInstance

instance : Builds [] (variableInitializer sub) oneExpression := by
  unfold variableInitializer
  exact .one inferInstance

instance : Builds [] (arrayInit sub) (node .arrayInit) := by
  unfold arrayInit
  exact .inNode inferInstance

instance : Builds [] lambdaParameters (node .lambdaParams) := by
  unfold lambdaParameters
  dsimp only
  exact .inNode inferInstance

instance : Builds [] (lambda sub) oneExpression := by
  unfold lambda
  exact .one (.inNode inferInstance)

instance : Builds [] (arrayLengths sub) code := by
  unfold arrayLengths
  dsimp only
  exact .leavesAnd inferInstance

instance : Builds [] (newExpr sub) oneExpression := by
  rw [newExpr_parts]
  refine .checkpoint fun base => .bind (.of_builds inferInstance) fun _ =>
    .bind (.of_builds inferInstance) fun _ =>
      .one (.ite (.around inferInstance) (.around inferInstance))

/-- A member of what was built since a place is around it. -/
theorem turns_memberOf (base : Builder) :
    Turns base [.dot] oneExpression (memberOf sub base.checkpoint) oneExpression := by
  unfold memberOf
  refine .look fun ahead hb => ?_
  obtain ⟨dot, rest, rfl, hdot, -⟩ := hb
  have hbegins {kind : TokenKind} (hk : kind ≠ .eof) (h : kindAt (dot :: rest) 1 = kind) :
      Begins [.dot, kind] (dot :: rest) := begins_two (by decide) hk hdot h
  dsimp only [id]
  split
  · next h =>
    split
    · exact Turns.from (.one (.around inferInstance)) (hbegins (by decide) h)
    · exact Turns.from (.one (.around inferInstance)) (hbegins (by decide) h)
  · exact Turns.anywhere (.one (.around inferInstance))
  · next h => exact Turns.from (.one (.around inferInstance)) (hbegins (by decide) h)
  · next h => exact Turns.from (.one (.around inferInstance)) (hbegins (by decide) h)
  · exact Turns.anywhere (.one (.around inferInstance))
  · next h => exact Turns.from (.one (.around inferInstance)) (hbegins (by decide) h)
  · exact Turns.anywhere (.one (.of_builds inferInstance))

/-- What goes on with an operand is around it. -/
theorem turns_postfixPart (base : Builder) :
    Turns base [] oneExpression (postfixPart sub base.checkpoint) oneExpression := by
  unfold postfixPart
  refine .look fun ahead _ => ?_
  split
  · next h =>
    exact Turns.from (.bind (turns_memberOf sub base) fun _ => .pure true)
      (begins_one (by decide) h)
  · exact Turns.anywhere (.bind (.one (.around inferInstance)) fun _ => .pure true)
  · exact Turns.anywhere (.bind (.one (.around inferInstance)) fun _ => .pure true)
  · exact Turns.anywhere (.bind (.one (.around inferInstance)) fun _ => .pure true)
  · exact Turns.anywhere (.bind (.one (.around inferInstance)) fun _ => .pure true)
  · exact Turns.anywhere (.pure false)

instance : Builds [] (namedOperand sub) oneExpression := by
  have : Builds [] (inNode .methodCall do bump; arguments sub) oneExpression :=
    .one (.inNode inferInstance)
  have : Builds [] (inNode .classLiteral do
      typeRef
      expect .dot "`.`"
      expect .kwClass "`class`") oneExpression := .one (.inNode inferInstance)
  have : Builds [] (tokenNode .nameRef) oneExpression := by
    unfold tokenNode
    exact .one (.inNode inferInstance)
  unfold namedOperand
  exact .one inferInstance

/-- What stands for itself is one token. -/
theorem builds_selfOperand {kind : NodeKind}
    [hk : Builds [] (tokenNode kind) oneExpression] :
    Builds [] (selfOperand sub kind) oneExpression := by
  have : Builds [] (inNode .methodCall do bump; arguments sub) oneExpression :=
    .one (.inNode inferInstance)
  unfold selfOperand
  exact .one inferInstance

instance : Builds [] primitiveOperand oneExpression := by
  unfold primitiveOperand
  exact .one (.inNode inferInstance)

instance : Builds [] (primary sub) oneExpression := by
  have hthis : Builds [] (tokenNode .thisExpr) oneExpression := by
    unfold tokenNode
    exact .one (.inNode inferInstance)
  have hsuper : Builds [] (tokenNode .superExpr) oneExpression := by
    unfold tokenNode
    exact .one (.inNode inferInstance)
  have hliteral : Builds [] (tokenNode .literal) oneExpression := by
    unfold tokenNode
    exact .one (.inNode inferInstance)
  unfold primary
  refine .of_turns fun base => .look fun ahead _ => ?_
  split
  · exact Turns.anywhere (.one (.of_builds (builds_selfOperand sub)))
  · exact Turns.anywhere (.one (.of_builds (builds_selfOperand sub)))
  · exact Turns.anywhere (.one (.of_builds inferInstance))
  · exact Turns.anywhere (.one (.of_builds (.inNode inferInstance)))
  · exact Turns.anywhere (.one (.of_builds inferInstance))
  · exact Turns.anywhere (.one (.of_builds inferInstance))
  · exact Turns.anywhere (.one (.of_builds (.inNode inferInstance)))
  · exact Turns.anywhere (.one (.of_builds inferInstance))

instance : Builds [] (postfixExpr sub) oneExpression := by
  unfold postfixExpr
  exact .checkpoint fun base => .bind (.one (.of_builds inferInstance)) fun _ =>
    .loop (turns_postfixPart sub base)

instance : Builds [] (castExpr sub) oneExpression := by
  unfold castExpr
  exact .one (.inNode inferInstance)

instance : Builds [] (unaryExpr sub) oneExpression := by
  unfold unaryExpr
  refine .of_turns fun base => .look fun ahead _ => ?_
  dsimp only [id]
  split
  case h_7 => exact Turns.anywhere (.one (.of_builds inferInstance))
  case h_8 => exact Turns.anywhere (.one (.of_builds inferInstance))
  all_goals exact Turns.anywhere (.one (.of_builds (.inNode inferInstance)))

theorem turns_operatorPart (base : Builder) (precedence : Nat) :
    Turns base [] oneExpression (operatorPart sub base.checkpoint precedence) oneExpression := by
  have hoperand (precedence : Nat) : Builds [] (sub (.binary precedence)) oneExpression :=
    inferInstanceAs (Builds [] (sub (.binary precedence)) (outline (.binary precedence)))
  unfold operatorPart typeTest
  refine .look fun ahead _ => ?_
  split
  · exact Turns.anywhere (.pure false)
  · split
    · exact Turns.anywhere (.pure false)
    · split
      · exact Turns.anywhere (.bind (.one (.around inferInstance)) fun _ => .pure true)
      · exact Turns.anywhere (.bind (.one (.around inferInstance)) fun _ => .pure true)

instance (precedence : Nat) : Builds [] (binaryExpr sub precedence) oneExpression := by
  unfold binaryExpr
  exact .checkpoint fun base => .bind (.one (.of_builds inferInstance)) fun _ =>
    .loop (turns_operatorPart sub base precedence)

instance : Builds [] (conditionalExpr sub) oneExpression := by
  unfold conditionalExpr
  exact .checkpoint fun base => .bind (.of_builds inferInstance) fun _ =>
    .bind (.of_builds inferInstance) fun _ => .one (.ite (.around inferInstance) (.pure _))

instance : Builds [] (expression sub) oneExpression := by
  have hrest (base : Builder) : Turns base [] oneExpression (do
      match ← look assignmentWidth? with
      | none => pure ()
      | some width =>
        aroundSince base.checkpoint .assignExpr do
          bumpMany width
          sub .expression) oneExpression := by
    refine .look fun ahead _ => ?_
    split
    · exact Turns.anywhere (.pure ())
    · exact Turns.anywhere (.one (.around inferInstance))
  have : Builds [] (do
      let place ← checkpoint
      sub .conditional
      match ← look assignmentWidth? with
      | none => pure ()
      | some width =>
        aroundSince place .assignExpr do
          bumpMany width
          sub .expression) oneExpression :=
    .checkpoint fun base => .bind (.one (.of_builds inferInstance)) fun _ => hrest base
  unfold expression
  exact .one inferInstance

end

/-! ### Statements -/

section

variable (sub : Nonterminal → Parse Unit) [∀ construct, Builds [] (sub construct) (outline construct)]

instance : Builds [] (variableDeclarators sub) (separated (node .variableDeclarator)) := by
  have : Builds [] (inNode .variableDeclarator do
      expectIdent
      dimensions
      if ← eat .assign then variableInitializer sub) (node .variableDeclarator) :=
    .inNode inferInstance
  unfold variableDeclarators
  infer_instance

instance : Builds [] (localVariables sub) code := by
  unfold localVariables
  exact .leavesAnd inferInstance

instance : Builds [] (condition sub) code := by
  unfold condition
  exact .leavesAnd inferInstance

instance : Builds [] (expressionList sub) code := by
  unfold expressionList
  exact .leavesAnd inferInstance

/-- One statement that declares nothing. -/
@[reducible] def oneStatement : Outline := nodeOf (·.isStatement)

instance : Builds [] (expressionStmt sub) oneStatement := by
  unfold expressionStmt
  exact .one (.inNode inferInstance)

instance : Builds [] (ifStmt sub) oneStatement := by
  unfold ifStmt
  exact .one (.inNode inferInstance)

instance : Builds [] (whileStmt sub) oneStatement := by
  unfold whileStmt
  exact .one (.inNode inferInstance)

instance : Builds [] (doStmt sub) oneStatement := by
  unfold doStmt
  exact .one (.inNode inferInstance)

instance : Builds [] (forInit sub) (node .forInit) := by
  have : Builds [] (inNode .localVarDecl (localVariables sub)) (node .localVarDecl) :=
    .inNode inferInstance
  unfold forInit
  exact .inNode inferInstance

instance : Builds [] (forEachHeader sub) code := by
  unfold forEachHeader
  exact .leavesAnd inferInstance

instance : Builds [] (forHeader sub) code := by
  have : Builds [] (inNode .forUpdate do
      unless ← isAt .rParen do expressionList sub) (node .forUpdate) := .inNode inferInstance
  unfold forHeader
  dsimp only
  exact .leavesAnd inferInstance

instance : Builds [] (forStmt sub) oneStatement := by
  rw [forStmt_eq]
  exact .checkpoint fun base => .bind (.of_builds inferInstance) fun _ =>
    .bind (.of_builds inferInstance) fun _ => .bind (.of_builds inferInstance) fun _ =>
      .one (.ite (.around inferInstance) (.around inferInstance))

instance : Builds [] (returnStmt sub) oneStatement := by
  unfold returnStmt
  dsimp only
  exact .one (.inNode inferInstance)

instance : Builds [] (throwStmt sub) oneStatement := by
  unfold throwStmt
  exact .one (.inNode inferInstance)

instance : Builds [] (jumpStmt .breakStmt) oneStatement := by
  unfold jumpStmt
  exact .one (.inNode inferInstance)

instance : Builds [] (jumpStmt .continueStmt) oneStatement := by
  unfold jumpStmt
  exact .one (.inNode inferInstance)

instance : Builds [] (syncStmt sub) oneStatement := by
  unfold syncStmt
  exact .one (.inNode inferInstance)

instance : Builds [] (assertStmt sub) oneStatement := by
  unfold assertStmt
  dsimp only
  exact .one (.inNode inferInstance)

instance : Builds [] (labeledStmt sub) oneStatement := by
  unfold labeledStmt
  exact .one (.inNode inferInstance)

instance : Builds [] (resources sub) code := by
  have : Builds [] (inNode .resourceSpec do
      if ← look atLocalVariable then localVariables sub else sub .expression)
      (node .resourceSpec) := .inNode inferInstance
  unfold resources
  exact .leavesAnd inferInstance

instance : Builds [] (catchClause sub) (node .catchClause) := by
  unfold catchClause
  exact .inNode inferInstance

instance : Builds [] (tryStmt sub) oneStatement := by
  have : Builds [.kwFinally] (inNode .finallyClause do
      bump
      sub .block) (node .finallyClause) := .inNode inferInstance
  unfold tryStmt
  dsimp only
  exact .one (.inNode inferInstance)

instance : Builds [] (arrowBody sub) code := by
  unfold arrowBody
  exact .leavesAnd inferInstance

variable (declaration : Checkpoint → Parse Unit)

/-- The declaration of a type behind its modifiers. -/
class Declares (declaration : Checkpoint → Parse Unit) : Prop where
  turns : ∀ base : Builder, Turns base [] (.comp .epsilon (node .modifiers))
    (declaration base.checkpoint) (nodeOf (·.isTypeDeclaration))

variable [hd : Declares declaration]

instance : Builds [] (blockStatement sub declaration) (nodeOf (·.isCode)) := by
  have : Builds [] (do let place ← checkpoint; modifiers; declaration place)
      (nodeOf (·.isTypeDeclaration)) :=
    .checkpoint fun base => .bind (.of_builds inferInstance) fun _ => hd.turns base
  have : Builds [] (inNode .localVarDecl do
      localVariables sub
      expect .semicolon "`;`") (node .localVarDecl) := .inNode inferInstance
  unfold blockStatement
  exact .one inferInstance

instance (ends : List TokenKind) : Builds [] (blockStatements sub declaration ends) code := by
  unfold blockStatements
  exact .leavesAnd inferInstance

instance : Builds [] (block sub declaration) (node .block) := by
  unfold block
  exact .inNode inferInstance

instance : Builds [] (switchCase sub declaration) (node .switchCase) := by
  unfold switchCase
  dsimp only
  exact .inNode inferInstance

instance : Builds [] (switchStmt sub declaration) oneStatement := by
  unfold switchStmt
  exact .one (.inNode inferInstance)

instance : Builds [] (statement sub declaration) oneStatement := by
  have : Builds [] (tokenNode .emptyStmt) oneStatement := by
    unfold tokenNode
    exact .one (.inNode inferInstance)
  unfold statement
  refine .of_turns fun base => .look fun ahead _ => ?_
  dsimp only [id]
  split
  case h_15 =>
    split
    · exact Turns.anywhere (.one (.of_builds inferInstance))
    · exact Turns.anywhere (.one (.of_builds inferInstance))
  all_goals exact Turns.anywhere (.one (.of_builds inferInstance))

end

/-! ### Declarations -/

/-- A member is around its modifiers and what it is the member of. -/
theorem typedMember_parts (sub : Nonterminal → Parse Unit) (place : Checkpoint) :
    typedMember sub place = (do
      typeParametersOpt
      if (← isAt .ident) && (← isAtNth 1 .lParen) then
        aroundSince place .constructorDecl do
          bump
          methodRest sub
      else do
        (do if ← isAt .kwVoid then bump else typeRef)
        methodOrFields sub place) := by
  unfold typedMember
  simp only [bind_assoc, bind_choice]

section

variable (sub : Nonterminal → Parse Unit) [∀ construct, Builds [] (sub construct) (outline construct)]

instance : Builds [] implementsOpt (.plus (node .implementsClause) .epsilon) := by
  have : Builds [.kwImplements] (inNode .implementsClause do bump; typeList)
      (node .implementsClause) := .inNode inferInstance
  unfold implementsOpt
  infer_instance

theorem turns_classDecl (base : Builder) : Turns base [] (.comp .epsilon (node .modifiers))
    (aroundSince base.checkpoint .classDecl (classDecl sub)) (node .classDecl) := by
  have : Builds [.kwExtends] (inNode .extendsClause do bump; typeRef) (node .extendsClause) :=
    .inNode inferInstance
  unfold classDecl
  dsimp only
  exact .around inferInstance

theorem turns_interfaceDecl (base : Builder) : Turns base [] (.comp .epsilon (node .modifiers))
    (aroundSince base.checkpoint .interfaceDecl (interfaceDecl sub)) (node .interfaceDecl) := by
  have : Builds [.kwExtends] (inNode .extendsClause do bump; typeList) (node .extendsClause) :=
    .inNode inferInstance
  unfold interfaceDecl
  dsimp only
  exact .around inferInstance

theorem turns_enumDecl (base : Builder) : Turns base [] (.comp .epsilon (node .modifiers))
    (aroundSince base.checkpoint .enumDecl (enumDecl sub)) (node .enumDecl) := by
  unfold enumDecl
  exact .around inferInstance

theorem turns_annotationDecl (base : Builder) : Turns base [] (.comp .epsilon (node .modifiers))
    (aroundSince base.checkpoint .annotationDecl (annotationDecl sub)) (node .annotationDecl) := by
  unfold annotationDecl
  exact .around inferInstance

instance : Declares (typeDeclaration sub) where
  turns base := by
    unfold typeDeclaration
    refine .look fun ahead _ => ?_
    dsimp only [id]
    split
    · exact Turns.anywhere (turns_classDecl sub base).one
    · split
      · exact Turns.anywhere (turns_interfaceDecl sub base).one
      · split
        · exact Turns.anywhere (turns_enumDecl sub base).one
        · split
          · exact Turns.anywhere (turns_annotationDecl sub base).one
          · exact Turns.anywhere (.one (.of_builds inferInstance))

instance : Builds [] (elementValue sub)
    (nodeOf fun kind => kind.isExpression || kind == .annotationUse) := by
  unfold elementValue
  refine .of_turns fun base => .look fun ahead _ => ?_
  split
  · exact Turns.anywhere (.one (.of_builds inferInstance))
  · exact Turns.anywhere (.one (.of_builds inferInstance))
  · exact Turns.anywhere (.one (.of_builds inferInstance))

instance : Builds [] (initializerBlock sub) (node .initializer) := by
  unfold initializerBlock
  exact .inNode inferInstance

/-- Modifiers and type parameters. -/
@[reducible] def memberHead : Outline :=
  .comp (.comp .epsilon (node .modifiers)) (.plus (node .typeParameters) .epsilon)

theorem turns_typedMember (base : Builder) :
    Turns base [] (.comp .epsilon (node .modifiers)) (typedMember sub base.checkpoint)
      (nodeOf (·.isMember)) := by
  have hthrows : Builds [.kwThrows] (inNode .throwsClause do bump; typeList)
      (node .throwsClause) := .inNode inferInstance
  have hresult : Builds [] (do if ← isAt .kwVoid then bump else typeRef)
      (.plus (.char .void) (node .typeRef)) :=
    inferInstanceAs (Builds [] _ (.plus (.char (Sign.ofToken .kwVoid)) _))
  have hconstructor : Turns base [.ident, .lParen] memberHead
      (aroundSince base.checkpoint .constructorDecl do
        bump
        methodRest sub) (node .constructorDecl) := by
    unfold methodRest
    dsimp only
    exact .around inferInstance
  have hmethod : Turns base [.ident, .lParen]
      (.comp memberHead (.plus (.char .void) (node .typeRef)))
      (aroundSince base.checkpoint .methodDecl do
        bump
        methodRest sub) (node .methodDecl) := by
    unfold methodRest
    dsimp only
    exact .around inferInstance
  have hfields : Turns base [] (.comp memberHead (.plus (.char .void) (node .typeRef)))
      (aroundSince base.checkpoint .fieldDecl do
        variableDeclarators sub
        expect .semicolon "`;`") (node .fieldDecl) := .around inferInstance
  rw [typedMember_parts]
  unfold methodOrFields
  exact .bind (.of_builds inferInstance) fun _ => .one
    (.ite_isAt (by decide) (by decide) hconstructor
      (.bind (.of_builds hresult) fun _ => .ite_isAt (by decide) (by decide) hmethod hfields))

instance : Builds [] (member sub) (nodeOf (·.isMember)) := by
  have hdeclares : Declares (typeDeclaration sub) := inferInstance
  unfold member
  refine .checkpoint fun base => .look fun ahead _ => ?_
  split
  · exact Turns.anywhere (.one (.of_builds inferInstance))
  · refine Turns.anywhere (.bind (.of_builds inferInstance) fun _ => .look fun ahead _ => ?_)
    split
    · exact Turns.anywhere (hdeclares.turns base).one
    · exact Turns.anywhere (turns_typedMember sub base)

instance : Builds [] (members sub)
    (many (.token :: (NodeKind.all.filter (·.isMember)).map .node)) := by
  unfold members
  exact .many inferInstance

instance : Builds [] (classBody sub) (node .classBody) := by
  unfold classBody
  exact .inNode inferInstance

instance : Builds [] (enumConstant sub) (node .enumConstant) := by
  unfold enumConstant
  dsimp only
  exact .inNode inferInstance

instance : Builds [] (enumBody sub) (node .enumBody) := by
  unfold enumBody
  dsimp only
  exact .inNode inferInstance

end

instance : Builds [] packageDecl (node .packageDecl) := by
  unfold packageDecl
  exact .inNode inferInstance

instance : Builds [] importDecl (node .importDecl) := by
  unfold importDecl
  dsimp only
  exact .inNode inferInstance

/-! ### The whole grammar -/

/-- A construct is built by its rules if the constructs within it are. -/
theorem builds_nonterminalWith (sub : Nonterminal → Parse Unit)
    [∀ construct, Builds [] (sub construct) (outline construct)] (construct : Nonterminal) :
    Builds [] (nonterminalWith sub construct) (outline construct) := by
  unfold nonterminalWith
  cases construct <;> unfold outline <;> infer_instance

instance builds_nonterminalAtMost (depth : Nat) (construct : Nonterminal) :
    Builds [] (nonterminalAtMost depth construct) (outline construct) := by
  induction depth generalizing construct with
  | zero =>
    unfold nonterminalAtMost
    exact Builds.mono (a := .zero) inferInstance fun _ => False.elim
  | succ depth ih => exact builds_nonterminalWith (nonterminalAtMost depth) construct

instance (construct : Nonterminal) : Builds [] (nonterminal construct) (outline construct) := by
  unfold nonterminal; infer_instance

instance : Builds [] topLevelDeclaration (nodeOf (·.isTypeDeclaration)) := by
  have hdeclares : Declares (typeDeclaration nonterminal) := inferInstance
  unfold topLevelDeclaration
  exact .checkpoint fun base => .bind (.of_builds inferInstance) fun _ => hdeclares.turns base

/-- What stands at the top level of a file. -/
@[reducible] def fileOutline : Outline :=
  many (.token :: (NodeKind.all.filter fun kind => kind.isTypeDeclaration || kind == .packageDecl ||
    kind == .importDecl).map .node)

instance : Builds [] compilationUnit fileOutline := by
  unfold compilationUnit
  dsimp only
  exact .many inferInstance

end Parser

/-! ### The trees of texts -/

/-- What is built of a whole file is the node of a file and has the right shape. -/
theorem Parser.shaped_finish (input : Parser.Input) (tokens : List Token) :
    let root := (Parser.compilationUnit input (.start tokens)).2.builder.finish
    root.kind = .compilationUnit ∧ root.Shaped := by
  dsimp only
  have hsome := Parser.succeeds_compilationUnit input (.start tokens)
  have hbuilds : Parser.Builds [] Parser.compilationUnit Parser.fileOutline := inferInstance
  have hyields := hbuilds.builds input (.start tokens) trivial
  generalize Parser.compilationUnit input (.start tokens) = result at hsome hyields ⊢
  obtain ⟨_ | value, after⟩ := result
  · cases hsome
  obtain ⟨added, ⟨frame, hk, -, hc, hb⟩, hw, hshaped⟩ := hyields
  have hroot : after.builder.finish = frame.toTree := by
    rw [hb]
    rfl
  simp only [Parser.State.start, Builder.new, Builder.top, List.headD_nil, List.nil_append]
    at hk hc
  dsimp only
  rw [hroot]
  unfold Frame.toTree
  rw [hk, hc]
  exact ⟨rfl, Tree.shaped_of_fits (by decide +kernel) hw hshaped⟩

/-- Before comments are attached, the tree of a text is one of a file, of the right shape. -/
theorem shaped_bareTree (text : String) :
    (bareTree text).kind = .compilationUnit ∧ (bareTree text).Shaped :=
  Parser.shaped_finish _ _

namespace Tree

variable (layout : CommentLayout)

theorem sign?_attachWith (tree : Tree) : (tree.attachWith layout).sign? = tree.sign? := by
  cases tree with
  | node kind anchor extent comments children =>
    obtain ⟨attached, ha⟩ :=
      exists_attachHere layout (.node kind anchor extent comments (attachAll layout children))
    rw [attachWith, ha]
    rfl
  | error region comments =>
    obtain ⟨attached, ha⟩ := exists_attachHere layout (.error region comments)
    rw [attachWith, ha]
    rfl

theorem signs_attachAll (trees : List Tree) : signs (attachAll layout trees) = signs trees := by
  induction trees with
  | nil => rfl
  | cons tree rest ih =>
    unfold signs at ih ⊢
    rw [attachAll, List.filterMap_cons, List.filterMap_cons, sign?_attachWith, ih]

theorem children_attachWith (tree : Tree) :
    (tree.attachWith layout).children = attachAll layout tree.children := by
  cases tree with
  | node kind anchor extent comments children =>
    obtain ⟨attached, ha⟩ :=
      exists_attachHere layout (.node kind anchor extent comments (attachAll layout children))
    rw [attachWith, ha]
    rfl
  | error region comments =>
    obtain ⟨attached, ha⟩ := exists_attachHere layout (.error region comments)
    rw [attachWith, ha]
    rfl

/-- Comments do not change the shape of a tree. -/
theorem Shaped.attachWith {tree : Tree} (h : tree.Shaped) : (tree.attachWith layout).Shaped := by
  intro node hn rule hr
  rw [descendants_attachWith] at hn
  obtain ⟨other, ho, rfl⟩ := List.mem_map.1 hn
  rw [kind_attachWith] at hr
  rw [children_attachWith, signs_attachAll]
  exact h other ho rule hr

end Tree

/-- The tree of every text has the right shape. -/
theorem shaped_root (text : String) (options : ParseOptions) :
    (parseSource text options).root.Shaped := by
  simp only [parseSource]
  split
  · exact (shaped_bareTree text).2.attachWith _
  · exact (shaped_bareTree text).2

/-- The tree of a text is that of a file. -/
theorem kind_root (text : String) (options : ParseOptions) :
    (parseSource text options).root.kind = .compilationUnit := by
  simp only [parseSource]
  split
  · exact (Tree.kind_attachWith _ (bareTree text)).trans (shaped_bareTree text).1
  · exact (shaped_bareTree text).1

end JavaGraph
