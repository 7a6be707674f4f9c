import JavaGraph.Parser.Source
/-!
# What the grammar keeps

Every construct of the grammar keeps every guarantee, whatever it begins in and whether or not it
succeeds. The constructs come in the order in which they are built on one another; those through
which the grammar is recursive are assumed of `sub` first, and the circle is closed by induction on
the depth of nesting.
-/

/-!
## What every parsing step keeps

A guarantee is a relation between the state in which a step begins and the state it leaves,
whether the step succeeds or fails. It is enough that the few primitive steps keep it: every step
that is put together from them keeps it as well. The instances of `Keeps` follow the ways in which
steps are put together, so that instance search proves `Keeps R step` for a step of the grammar.
-/

namespace JavaGraph.Parser

open Parse

/-- Whether nodes of a kind are put together from others. -/
@[reducible] def isInner : NodeKind → Bool
  | .token => false
  | _ => true

/-- A truth value that instance search evaluates to `true`. -/
class Evaluates (value : Bool) : Prop where
  eq_true : value = true

instance : Evaluates true := ⟨rfl⟩

/-- An inner kind is not that of leaves. -/
theorem ne_token_of_isInner {kind : NodeKind} (h : isInner kind = true) : kind ≠ .token := by
  rintro rfl
  cases h

/-- A relation between two states of the parser that every primitive step keeps. -/
class Guarantee (R : Input → State → State → Prop) : Prop where
  refl : ∀ input state, R input state state
  trans : ∀ {input a b c}, R input a b → R input b c → R input a c
  /-- Passing a token. -/
  bump : ∀ input token ahead builder errors,
    R input ⟨token :: ahead, builder, errors⟩ ⟨ahead, builder.token token, errors⟩
  /-- Recording a fault. -/
  record : ∀ input state error, R input state { state with errors := state.errors ++ [error] }
  /-- Beginning a node. -/
  start : ∀ input state kind, kind ≠ .token →
    R input state
      { state with builder := state.builder.start kind (state.ahead.headD input.endToken) }
  /-- Beginning a node around what was built since some place. -/
  startAt : ∀ input state place kind, kind ≠ .token →
    R input state
      { state with
        builder := state.builder.startAt place kind (state.ahead.headD input.endToken) }
  /-- Finishing a node. -/
  finish : ∀ input state, R input state { state with builder := state.builder.finishNode }
  /-- Going on after a failed step. -/
  recover : ∀ {input before after} resume, R input before after →
    R input before (recover resume before.builder.checkpoint before.errors.length
      before.ahead.length input after).2

/-- A step that keeps a guarantee. -/
class Keeps (R : Input → State → State → Prop) {α : Type} (step : Parse α) : Prop where
  keeps : ∀ input state, R input state (step input state).2

variable {R : Input → State → State → Prop} [Guarantee R] {α β : Type}

/-! ### Steps that change nothing -/

instance (value : α) : Keeps R (pure value) := ⟨fun input state => Guarantee.refl input state⟩

instance : Keeps R (fail : Parse α) := ⟨fun input state => Guarantee.refl input state⟩

instance (f : List Token → α) : Keeps R (look f) :=
  ⟨fun input state => Guarantee.refl input state⟩

instance : Keeps R current := ⟨fun input state => Guarantee.refl input state⟩

instance : Keeps R checkpoint := ⟨fun input state => Guarantee.refl input state⟩

instance (kind : TokenKind) : Keeps R (isAt kind) := by unfold isAt; infer_instance

instance (n : Nat) (kind : TokenKind) : Keeps R (isAtNth n kind) := by
  unfold isAtNth; infer_instance

instance : Keeps R atEnd := by unfold atEnd; infer_instance

/-! ### Steps put together -/

/-- Steps in sequence keep what each of them keeps. -/
theorem Keeps.bind {step : Parse α} {next : α → Parse β} (h : Keeps R step)
    (hn : ∀ value, Keeps R (next value)) : Keeps R (step >>= next) := by
  constructor
  intro input state
  have hs := h.keeps input state
  simp only [Bind.bind]
  split
  · next value middle he =>
    rw [he] at hs
    exact Guarantee.trans hs ((hn value).keeps input middle)
  · next middle he =>
    rw [he] at hs
    exact hs

instance (step : Parse α) (next : α → Parse β) [h : Keeps R step]
    [hn : ∀ value, Keeps R (next value)] : Keeps R (step >>= next) :=
  h.bind hn

instance (f : α → β) (step : Parse α) [Keeps R step] : Keeps R (f <$> step) :=
  inferInstanceAs (Keeps R (step >>= fun value => pure (f value)))

instance (step : Parse α) [Keeps R step] : Keeps R (discard step) :=
  inferInstanceAs (Keeps R (step >>= fun _ => pure PUnit.unit))

instance (condition : Prop) [Decidable condition] (yes no : Parse α) [hy : Keeps R yes]
    [hn : Keeps R no] : Keeps R (if condition then yes else no) := by
  split
  · exact hy
  · exact hn

omit [Guarantee R] in
/-- A step chosen by the tokens ahead keeps what every choice keeps. -/
theorem Keeps.onAhead {f : List Token → Parse α} (h : ∀ ahead, Keeps R (f ahead)) :
    Keeps R (Parse.onAhead f) :=
  ⟨fun input state => (h state.ahead).keeps input state⟩

instance (f : List Token → Parse α) [h : ∀ ahead, Keeps R (f ahead)] : Keeps R (onAhead f) :=
  Keeps.onAhead h

instance keeps_loopAtMost (rounds : Nat) (step : Parse Bool) [Keeps R step] :
    Keeps R (loopAtMost rounds step) := by
  induction rounds with
  | zero => unfold loopAtMost; infer_instance
  | succ rounds ih => unfold loopAtMost; infer_instance

instance (step : Parse Bool) [Keeps R step] : Keeps R (loop step) := by
  unfold loop; infer_instance

instance (kind : TokenKind) (step : Parse Unit) [Keeps R step] : Keeps R (whileAt kind step) := by
  unfold whileAt; infer_instance

/-! ### Primitive steps -/

instance : Keeps R bump := by
  constructor
  intro input state
  obtain ⟨ahead, builder, errors⟩ := state
  cases ahead with
  | nil => exact Guarantee.refl input _
  | cons token ahead => exact Guarantee.bump input token ahead builder errors

instance keeps_bumpMany (count : Nat) : Keeps R (bumpMany count) := by
  induction count with
  | zero => unfold bumpMany; infer_instance
  | succ count ih => unfold bumpMany; infer_instance

instance (kind : TokenKind) : Keeps R (eat kind) := by unfold eat; infer_instance

instance (what : String) : Keeps R (errorExpected what) :=
  ⟨fun input state => Guarantee.record input state _⟩

instance (item : Parse Unit) [Keeps R item] : Keeps R (commaSeparated item) := by
  unfold commaSeparated; infer_instance

instance (kind : TokenKind) (what : String) : Keeps R (expect kind what) := by
  unfold expect; infer_instance

instance : Keeps R expectIdent := by unfold expectIdent; infer_instance

instance : Keeps R expectClosingBrace := by unfold expectClosingBrace; infer_instance

instance (kind : NodeKind) [h : Evaluates (isInner kind)] : Keeps R (startNode kind) :=
  ⟨fun input state => Guarantee.start input state kind (ne_token_of_isInner h.eq_true)⟩

instance (place : Checkpoint) (kind : NodeKind) [h : Evaluates (isInner kind)] :
    Keeps R (startNodeAt place kind) :=
  ⟨fun input state => Guarantee.startAt input state place kind (ne_token_of_isInner h.eq_true)⟩

instance : Keeps R finishNode := ⟨fun input state => Guarantee.finish input state⟩

instance (kind : NodeKind) (step : Parse Unit) [Evaluates (isInner kind)] [Keeps R step] :
    Keeps R (inNode kind step) := by
  unfold inNode; infer_instance

instance (kind : NodeKind) [Evaluates (isInner kind)] : Keeps R (tokenNode kind) := by
  unfold tokenNode; infer_instance

instance : Keeps R dimensions := by unfold dimensions; infer_instance

/-- A step with recovery behind it keeps what the step keeps. -/
instance (resume : Resume) (step : Parse Unit) [h : Keeps R step] :
    Keeps R (recovering resume step) := by
  constructor
  intro input state
  have hs := h.keeps input state
  unfold recovering
  split
  · next after he =>
    rw [he] at hs
    exact hs
  · next after he =>
    rw [he] at hs
    exact Guarantee.recover resume hs

end JavaGraph.Parser

/-! ## The constructs -/

namespace JavaGraph.Parser

open Parse

set_option synthInstance.maxSize 8192

variable {R : Input → State → State → Prop} [Guarantee R]

/-! ### Types, annotations and parameters -/

instance : Keeps R dottedRest := by unfold dottedRest; infer_instance

instance : Keeps R qualifiedName := by unfold qualifiedName; infer_instance

instance : Keeps R typeAnnotations := by unfold typeAnnotations; infer_instance

section

variable (nested : Parse Unit) [Keeps R nested]

instance : Keeps R (typeArgumentWith nested) := by unfold typeArgumentWith; infer_instance

instance : Keeps R (typeArgumentsWith nested) := by
  unfold typeArgumentsWith; dsimp only; infer_instance

instance : Keeps R (classTypeWith nested) := by
  unfold classTypeWith; dsimp only; infer_instance

instance : Keeps R (elementTypeWith nested) := by unfold elementTypeWith; infer_instance

instance : Keeps R (typeRefWith nested) := by unfold typeRefWith; infer_instance

end

instance keeps_typeRefAtMost (depth : Nat) : Keeps R (typeRefAtMost depth) := by
  induction depth with
  | zero => unfold typeRefAtMost; infer_instance
  | succ depth ih => unfold typeRefAtMost; infer_instance

instance : Keeps R typeRef := by unfold typeRef; infer_instance

instance : Keeps R typeArguments := by unfold typeArguments; infer_instance

instance : Keeps R typeRefNoDimensions := by unfold typeRefNoDimensions; infer_instance

instance : Keeps R typeList := by unfold typeList; infer_instance

instance : Keeps R typeParameter := by unfold typeParameter; infer_instance

instance : Keeps R typeParametersOpt := by unfold typeParametersOpt; infer_instance

instance : Keeps R annotationArguments := by
  unfold annotationArguments
  apply Keeps.onAhead
  intro ahead
  split <;> infer_instance

instance : Keeps R annotationUse := by unfold annotationUse; infer_instance

instance : Keeps R modifiers := by unfold modifiers; infer_instance

instance : Keeps R parameter := by unfold parameter; dsimp only; infer_instance

instance : Keeps R formalParameters := by unfold formalParameters; dsimp only; infer_instance

/-! ### Expressions -/

section

variable (sub : Nonterminal → Parse Unit) [∀ construct, Keeps R (sub construct)]

instance : Keeps R (arguments sub) := by unfold arguments; dsimp only; infer_instance

instance : Keeps R (variableInitializer sub) := by unfold variableInitializer; infer_instance

instance : Keeps R (arrayInit sub) := by unfold arrayInit; infer_instance

instance : Keeps R lambdaParameters := by unfold lambdaParameters; dsimp only; infer_instance

instance : Keeps R (lambda sub) := by unfold lambda; infer_instance

instance : Keeps R (arrayLengths sub) := by unfold arrayLengths; dsimp only; infer_instance

instance : Keeps R (newExpr sub) := by unfold newExpr; dsimp only; infer_instance

instance (place : Checkpoint) (kind : NodeKind) (step : Parse Unit) [Evaluates (isInner kind)]
    [Keeps R step] : Keeps R (aroundSince place kind step) := by
  unfold aroundSince; infer_instance

instance (place : Checkpoint) : Keeps R (memberOf sub place) := by
  unfold memberOf
  apply Keeps.bind inferInstance
  intro ahead
  split <;> infer_instance

instance (place : Checkpoint) : Keeps R (postfixPart sub place) := by
  unfold postfixPart
  apply Keeps.bind inferInstance
  intro kind
  split <;> infer_instance

instance : Keeps R (namedOperand sub) := by unfold namedOperand; infer_instance

instance (kind : NodeKind) [Evaluates (isInner kind)] : Keeps R (selfOperand sub kind) := by
  unfold selfOperand; infer_instance

instance : Keeps R primitiveOperand := by unfold primitiveOperand; infer_instance

instance : Keeps R (primary sub) := by
  unfold primary
  apply Keeps.bind inferInstance
  intro kind
  split <;> infer_instance

instance : Keeps R (postfixExpr sub) := by unfold postfixExpr; infer_instance

instance : Keeps R (castExpr sub) := by unfold castExpr; infer_instance

instance : Keeps R (unaryExpr sub) := by
  unfold unaryExpr
  apply Keeps.bind inferInstance
  intro ahead
  split <;> infer_instance

instance (place : Checkpoint) : Keeps R (typeTest place) := by unfold typeTest; infer_instance

instance (place : Checkpoint) (precedence : Nat) :
    Keeps R (operatorPart sub place precedence) := by
  unfold operatorPart
  apply Keeps.bind inferInstance
  intro operator
  split <;> infer_instance

instance (precedence : Nat) : Keeps R (binaryExpr sub precedence) := by
  unfold binaryExpr; infer_instance

instance : Keeps R (conditionalExpr sub) := by unfold conditionalExpr; infer_instance

instance : Keeps R (expression sub) := by
  unfold expression
  apply Keeps.bind inferInstance
  intro isLambda
  split
  · infer_instance
  · apply Keeps.bind inferInstance
    intro place
    apply Keeps.bind inferInstance
    intro _
    apply Keeps.bind inferInstance
    intro width
    split <;> infer_instance

end

/-! ### Statements -/

section

variable (sub : Nonterminal → Parse Unit) [∀ construct, Keeps R (sub construct)]

instance : Keeps R (variableDeclarators sub) := by unfold variableDeclarators; infer_instance

instance : Keeps R (localVariables sub) := by unfold localVariables; infer_instance

instance : Keeps R (condition sub) := by unfold condition; infer_instance

instance : Keeps R (expressionList sub) := by unfold expressionList; infer_instance

instance : Keeps R (expressionStmt sub) := by unfold expressionStmt; infer_instance

instance : Keeps R (ifStmt sub) := by unfold ifStmt; infer_instance

instance : Keeps R (whileStmt sub) := by unfold whileStmt; infer_instance

instance : Keeps R (doStmt sub) := by unfold doStmt; infer_instance

instance : Keeps R (forInit sub) := by unfold forInit; infer_instance

instance : Keeps R (forEachHeader sub) := by unfold forEachHeader; infer_instance

instance : Keeps R (forHeader sub) := by unfold forHeader; dsimp only; infer_instance

instance : Keeps R (forStmt sub) := by unfold forStmt; dsimp only; infer_instance

instance : Keeps R (returnStmt sub) := by unfold returnStmt; dsimp only; infer_instance

instance : Keeps R (throwStmt sub) := by unfold throwStmt; infer_instance

instance (kind : NodeKind) [Evaluates (isInner kind)] : Keeps R (jumpStmt kind) := by
  unfold jumpStmt; infer_instance

instance : Keeps R (syncStmt sub) := by unfold syncStmt; infer_instance

instance : Keeps R (assertStmt sub) := by unfold assertStmt; dsimp only; infer_instance

instance : Keeps R (labeledStmt sub) := by unfold labeledStmt; infer_instance

instance : Keeps R (resources sub) := by unfold resources; infer_instance

instance : Keeps R (catchClause sub) := by unfold catchClause; infer_instance

instance : Keeps R (tryStmt sub) := by unfold tryStmt; dsimp only; infer_instance

variable (declaration : Checkpoint → Parse Unit) [∀ place, Keeps R (declaration place)]

instance : Keeps R (blockStatement sub declaration) := by unfold blockStatement; infer_instance

instance (ends : List TokenKind) : Keeps R (blockStatements sub declaration ends) := by
  unfold blockStatements; infer_instance

instance : Keeps R (block sub declaration) := by unfold block; infer_instance

instance : Keeps R (arrowBody sub) := by unfold arrowBody; infer_instance

instance : Keeps R (switchCase sub declaration) := by
  unfold switchCase; dsimp only; infer_instance

instance : Keeps R (switchStmt sub declaration) := by unfold switchStmt; infer_instance

instance : Keeps R (statement sub declaration) := by
  unfold statement
  apply Keeps.bind inferInstance
  intro ahead
  split <;> infer_instance

end

/-! ### Declarations -/

section

variable (sub : Nonterminal → Parse Unit) [∀ construct, Keeps R (sub construct)]

instance : Keeps R implementsOpt := by unfold implementsOpt; infer_instance

instance : Keeps R (classDecl sub) := by unfold classDecl; dsimp only; infer_instance

instance : Keeps R (interfaceDecl sub) := by unfold interfaceDecl; dsimp only; infer_instance

instance : Keeps R (enumDecl sub) := by unfold enumDecl; infer_instance

instance : Keeps R (annotationDecl sub) := by unfold annotationDecl; infer_instance

instance (place : Checkpoint) : Keeps R (typeDeclaration sub place) := by
  unfold typeDeclaration; infer_instance

instance : Keeps R (elementValue sub) := by
  unfold elementValue
  apply Keeps.bind inferInstance
  intro kind
  split <;> infer_instance

instance : Keeps R (methodRest sub) := by unfold methodRest; dsimp only; infer_instance

instance : Keeps R (initializerBlock sub) := by unfold initializerBlock; infer_instance

instance (place : Checkpoint) : Keeps R (methodOrFields sub place) := by
  unfold methodOrFields; infer_instance

instance (place : Checkpoint) : Keeps R (typedMember sub place) := by
  unfold typedMember; dsimp only; infer_instance

instance : Keeps R (member sub) := by unfold member; infer_instance

instance : Keeps R (members sub) := by unfold members; infer_instance

instance : Keeps R (classBody sub) := by unfold classBody; infer_instance

instance : Keeps R (enumConstant sub) := by unfold enumConstant; dsimp only; infer_instance

instance : Keeps R (enumBody sub) := by unfold enumBody; dsimp only; infer_instance

end

instance : Keeps R packageDecl := by unfold packageDecl; infer_instance

instance : Keeps R importDecl := by unfold importDecl; dsimp only; infer_instance

/-! ### The whole grammar -/

/-- A construct keeps what the constructs within it keep. -/
theorem keeps_nonterminalWith (sub : Nonterminal → Parse Unit)
    [∀ construct, Keeps R (sub construct)] (construct : Nonterminal) :
    Keeps R (nonterminalWith sub construct) := by
  unfold nonterminalWith
  cases construct <;> infer_instance

instance keeps_nonterminalAtMost (depth : Nat) (construct : Nonterminal) :
    Keeps R (nonterminalAtMost depth construct) := by
  induction depth generalizing construct with
  | zero => unfold nonterminalAtMost; infer_instance
  | succ depth ih => exact keeps_nonterminalWith (nonterminalAtMost depth) construct

instance (construct : Nonterminal) : Keeps R (nonterminal construct) := by
  unfold nonterminal; infer_instance

instance : Keeps R topLevelDeclaration := by unfold topLevelDeclaration; infer_instance

instance : Keeps R compilationUnit := by unfold compilationUnit; dsimp only; infer_instance

end JavaGraph.Parser
