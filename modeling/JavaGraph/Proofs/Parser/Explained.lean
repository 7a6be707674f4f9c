import JavaGraph.Proofs.Parser.Termination
import JavaGraph.Proofs.Tree.Blamed
/-!
# Every failure is explained

A step that fails has recorded what it expected and what stood there instead, at the token it had
come to. Steps come to tokens one after the other, so that the faults of a text are in the order of
their tokens, and recovery always finds one that it can tell of.
-/

namespace JavaGraph.Parser

open Parse

set_option synthInstance.maxSize 8192

/-! ### What is told of the tokens ahead -/

/-- The fault that something else was expected at the next token. -/
def expectedAt (input : Input) (ahead : List Token) (what : String) : ParseError :=
  let token := ahead.headD input.endToken
  let found := if token.kind = .eof then "end of file" else s!"`{token.text}`"
  .atToken token s!"expected {what}, found {found}"

/-- What can be told on the way from some tokens ahead to others: at each of them, and at the last
one, any number of times that something else was expected there. -/
inductive Told (input : Input) : List Token → List ParseError → List Token → Prop where
  | done (ahead : List Token) : Told input ahead [] ahead
  | pass {token : Token} {ahead behind : List Token} {found : List ParseError} :
    Told input ahead found behind → Told input (token :: ahead) found behind
  | fault {ahead behind : List Token} {found : List ParseError} (what : String) :
    Told input ahead found behind → Told input ahead (expectedAt input ahead what :: found) behind

namespace Told

variable {input : Input} {ahead middle behind : List Token} {found more : List ParseError}

theorem trans (h : Told input ahead found middle) (h' : Told input middle more behind) :
    Told input ahead (found ++ more) behind := by
  induction h with
  | done ahead => exact h'
  | pass h ih => exact .pass (ih h')
  | fault what h ih => exact .fault what (ih h')

/-- Tokens are passed without a word. -/
theorem of_suffix (h : behind <:+ ahead) : Told input ahead [] behind := by
  obtain ⟨passed, rfl⟩ := h
  induction passed with
  | nil => exact .done _
  | cons token passed ih => exact .pass ih

/-- Every fault tells of one of the tokens ahead, or of the end, and of what was expected. -/
theorem exists_token (h : Told input ahead found behind) :
    ∀ error ∈ found, ∃ token ∈ ahead ++ [input.endToken], ∃ what instead : String,
      error = .atToken token s!"expected {what}, found {instead}" := by
  induction h with
  | done ahead => exact List.forall_mem_nil _
  | pass h ih =>
    intro error he
    obtain ⟨token, ht, hwhat⟩ := ih error he
    exact ⟨token, List.mem_cons_of_mem _ ht, hwhat⟩
  | @fault ahead behind found what h ih =>
    refine List.forall_mem_cons.2 ⟨⟨_, ?_, what, _, rfl⟩, ih⟩
    cases ahead <;> simp

/-- The faults come in the order of the tokens. -/
theorem pairwise_start (h : Told input ahead found behind)
    (ha : (ahead ++ [input.endToken]).Pairwise fun token later => token.start ≤ later.start) :
    found.Pairwise fun error later => error.start ≤ later.start := by
  induction h with
  | done ahead => exact .nil
  | pass h ih => exact ih (List.pairwise_cons.1 ha).2
  | @fault ahead behind found what h ih =>
    refine List.pairwise_cons.2 ⟨fun error he => ?_, ih ha⟩
    obtain ⟨token, ht, _, _, rfl⟩ := h.exists_token error he
    change (ahead.headD input.endToken).start ≤ token.start
    cases ahead with
    | nil =>
      rw [List.mem_singleton.1 ht]
      exact Nat.le_refl _
    | cons next ahead =>
      rcases List.mem_cons.1 ht with rfl | ht
      · exact Nat.le_refl _
      · exact (List.pairwise_cons.1 ha).1 token ht

end Told

/-- What was expected is never the wording of recovery. -/
theorem expected_ne_unexpected (what instead : String) :
    s!"expected {what}, found {instead}" ≠ "unexpected input" := by
  intro h
  have hhead := congrArg (fun text => text.toList.head?) h
  simp [toString] at hhead

/-! ### Steps that explain their failures -/

/-- What a step has found was told on its way, and if it failed, something was. -/
def Explained {α : Type} (input : Input) (before : State) (result : Option α × State) : Prop :=
  ∃ found, result.2.errors = before.errors ++ found ∧
    Told input before.ahead found result.2.ahead ∧ (result.1 = none → found ≠ [])

/-- A step that explains its failures. -/
class Explains {α : Type} (step : Parse α) : Prop where
  explains : ∀ input state, Explained input state (step input state)

section

variable {α β : Type}

/-- A step that succeeds without a fault and only passes tokens. -/
theorem Explained.silent {input : Input} {before after : State} (value : α)
    (he : after.errors = before.errors) (ha : after.ahead <:+ before.ahead) :
    Explained input before (some value, after) :=
  ⟨[], by rw [he, List.append_nil], .of_suffix ha, nofun⟩

/-- A step that succeeds without passing a token or recording a fault. -/
theorem Explains.still {step : Parse α}
    (h : ∀ input state, ∃ value builder, step input state = (some value, { state with builder })) :
    Explains step := by
  constructor
  intro input state
  obtain ⟨value, builder, he⟩ := h input state
  rw [he]
  exact .silent value rfl (List.suffix_refl _)

instance (value : α) : Explains (pure value) := .still fun _ state => ⟨value, state.builder, rfl⟩

instance (f : List Token → α) : Explains (look f) :=
  .still fun _ state => ⟨f state.ahead, state.builder, rfl⟩

instance : Explains current :=
  .still fun input state => ⟨state.ahead.headD input.endToken, state.builder, rfl⟩

instance : Explains checkpoint :=
  .still fun _ state => ⟨state.builder.checkpoint, state.builder, rfl⟩

instance (f : Builder → Builder) : Explains (build f) :=
  .still fun _ state => ⟨(), f state.builder, rfl⟩

/-- Steps in sequence explain their failures if each of them does. -/
theorem Explains.bind {step : Parse α} {next : α → Parse β} (h : Explains step)
    (hn : ∀ value, Explains (next value)) : Explains (step >>= next) := by
  constructor
  intro input state
  obtain ⟨found, he, ht, hf⟩ := h.explains input state
  simp only [Bind.bind]
  generalize step input state = result at he ht hf ⊢
  obtain ⟨_ | value, middle⟩ := result
  · exact ⟨found, he, ht, fun _ => hf rfl⟩
  · obtain ⟨more, he', ht', hf'⟩ := (hn value).explains input middle
    refine ⟨found ++ more, ?_, ht.trans ht', fun hnone => ?_⟩
    · rw [he', he, List.append_assoc]
    · exact List.append_ne_nil_of_right_ne_nil _ (hf' hnone)

instance (step : Parse α) (next : α → Parse β) [h : Explains step]
    [hn : ∀ value, Explains (next value)] : Explains (step >>= next) :=
  h.bind hn

/-- Once it is recorded what was expected, a step may fail. -/
theorem Explains.recorded {next : Parse α} (what : String)
    (h : ∀ input state, ∃ result, next input state = (result, state)) :
    Explains (errorExpected what >>= fun _ => next) := by
  constructor
  intro input state
  obtain ⟨result, hr⟩ := h input
    { state with errors := state.errors ++ [expectedAt input state.ahead what] }
  have hnext : (errorExpected what >>= fun _ => next) input state = next input
      { state with errors := state.errors ++ [expectedAt input state.ahead what] } := rfl
  rw [hnext, hr]
  exact ⟨[expectedAt input state.ahead what], rfl, .fault what (.done _), fun _ =>
    List.cons_ne_nil _ _⟩

instance (what : String) : Explains (errorExpected what >>= fun _ => (fail : Parse α)) :=
  .recorded what fun _ _ => ⟨none, rfl⟩

instance (what : String) : Explains (errorExpected what) :=
  ⟨fun input state => ⟨[expectedAt input state.ahead what], rfl, .fault what (.done _), nofun⟩⟩

instance (step : Parse α) [Explains step] : Explains (discard step) :=
  inferInstanceAs (Explains (step >>= fun _ => pure PUnit.unit))

instance (condition : Prop) [Decidable condition] (yes no : Parse α) [hy : Explains yes]
    [hn : Explains no] : Explains (if condition then yes else no) := by
  split
  · exact hy
  · exact hn

theorem Explains.onAhead {f : List Token → Parse α} (h : ∀ ahead, Explains (f ahead)) :
    Explains (Parse.onAhead f) :=
  ⟨fun input state => (h state.ahead).explains input state⟩

instance (f : List Token → Parse α) [h : ∀ ahead, Explains (f ahead)] : Explains (onAhead f) :=
  Explains.onAhead h

end

instance (kind : TokenKind) : Explains (isAt kind) := by unfold isAt; infer_instance

instance (n : Nat) (kind : TokenKind) : Explains (isAtNth n kind) := by
  unfold isAtNth; infer_instance

instance : Explains atEnd := by unfold atEnd; infer_instance

instance explains_loopAtMost (rounds : Nat) (step : Parse Bool) [Explains step] :
    Explains (loopAtMost rounds step) := by
  induction rounds with
  | zero => unfold loopAtMost; infer_instance
  | succ rounds ih => unfold loopAtMost; infer_instance

instance (step : Parse Bool) [Explains step] : Explains (loop step) := by
  unfold loop; infer_instance

instance (kind : TokenKind) (step : Parse Unit) [Explains step] : Explains (whileAt kind step) := by
  unfold whileAt; infer_instance

instance : Explains bump := by
  constructor
  intro input state
  obtain ⟨ahead, builder, errors⟩ := state
  cases ahead with
  | nil => exact .silent () rfl (List.suffix_refl _)
  | cons token ahead => exact .silent () rfl (List.suffix_cons token ahead)

instance explains_bumpMany (count : Nat) : Explains (bumpMany count) := by
  induction count with
  | zero => unfold bumpMany; infer_instance
  | succ count ih => unfold bumpMany; infer_instance

instance (kind : TokenKind) : Explains (eat kind) := by unfold eat; infer_instance

instance (item : Parse Unit) [Explains item] : Explains (commaSeparated item) := by
  unfold commaSeparated; infer_instance

instance (kind : TokenKind) (what : String) : Explains (expect kind what) := by
  unfold expect; infer_instance

instance : Explains expectIdent := by unfold expectIdent; infer_instance

/-- A body that is not closed fails only where the fault was recorded that it is not. -/
instance : Explains expectClosingBrace := by
  refine Explains.bind inferInstance fun closed => ?_
  split
  · infer_instance
  · refine .recorded _ fun input state => ?_
    by_cases hend : kindAt state.ahead 0 = .eof
    · exact ⟨some (), by simp [Bind.bind, Pure.pure, atEnd, isAt, look, hend]⟩
    · exact ⟨none, by simp [Bind.bind, atEnd, isAt, look, hend, fail]⟩

instance (kind : NodeKind) : Explains (startNode kind) := by unfold startNode; infer_instance

instance (place : Checkpoint) (kind : NodeKind) : Explains (startNodeAt place kind) := by
  unfold startNodeAt; infer_instance

instance : Explains finishNode := by unfold finishNode; infer_instance

instance (kind : NodeKind) (step : Parse Unit) [Explains step] : Explains (inNode kind step) := by
  unfold inNode; infer_instance

instance (kind : NodeKind) : Explains (tokenNode kind) := by unfold tokenNode; infer_instance

instance : Explains dimensions := by unfold dimensions; infer_instance

/-- Recovery finds a fault of the step that failed, and adds none of its own. -/
instance (resume : Resume) (step : Parse Unit) [h : Explains step] :
    Explains (recovering resume step) := by
  constructor
  intro input state
  obtain ⟨found, he, ht, hf⟩ := h.explains input state
  unfold recovering
  generalize step input state = result at he ht hf ⊢
  obtain ⟨_ | value, after⟩ := result
  · have hlonger : after.errors.length ≠ state.errors.length := by
      have := List.length_pos_iff.2 (hf rfl)
      rw [he, List.length_append]
      omega
    have hskip : Told input after.ahead []
        (skipTo resume (!(after.ahead.length < state.ahead.length)) 0 after.ahead).2 :=
      .of_suffix ⟨_, skipTo_append ..⟩
    refine ⟨found, ?_, ?_, nofun⟩
    · simpa only [recover, if_neg hlonger] using he
    · rw [recover_ahead, ← List.append_nil found]
      exact ht.trans hskip
  · exact ⟨found, he, ht, nofun⟩

/-! ### Types, annotations and parameters -/

instance : Explains dottedRest := by unfold dottedRest; infer_instance

instance : Explains qualifiedName := by unfold qualifiedName; infer_instance

instance : Explains typeAnnotations := by unfold typeAnnotations; infer_instance

section

variable (nested : Parse Unit) [Explains nested]

instance : Explains (typeArgumentWith nested) := by unfold typeArgumentWith; infer_instance

instance : Explains (typeArgumentsWith nested) := by
  unfold typeArgumentsWith; dsimp only; infer_instance

instance : Explains (classTypeWith nested) := by
  unfold classTypeWith; dsimp only; infer_instance

instance : Explains (elementTypeWith nested) := by unfold elementTypeWith; infer_instance

instance : Explains (typeRefWith nested) := by unfold typeRefWith; infer_instance

end

theorem explains_typeRefOver {bottom : Parse Unit} (h : Explains bottom) (depth : Nat) :
    Explains (typeRefOver bottom depth) := by
  induction depth with
  | zero => exact h
  | succ depth ih => unfold typeRefOver; infer_instance

/-- Types do not nest so deep that one fails without a word. -/
instance : Explains typeRef := by
  constructor
  intro input state
  rw [typeRef_eq_over (do errorExpected "type"; fail) input (Nat.lt_succ_self _)]
  exact (explains_typeRefOver inferInstance _).explains input state

instance : Explains typeArguments := by unfold typeArguments; infer_instance

instance : Explains typeRefNoDimensions := by unfold typeRefNoDimensions; infer_instance

instance : Explains typeList := by unfold typeList; infer_instance

instance : Explains typeParameter := by unfold typeParameter; infer_instance

instance : Explains typeParametersOpt := by unfold typeParametersOpt; infer_instance

instance : Explains annotationArguments := by
  unfold annotationArguments
  apply Explains.onAhead
  intro ahead
  split <;> infer_instance

instance : Explains annotationUse := by unfold annotationUse; infer_instance

instance : Explains modifiers := by unfold modifiers; infer_instance

instance : Explains parameter := by unfold parameter; dsimp only; infer_instance

instance : Explains formalParameters := by unfold formalParameters; dsimp only; infer_instance

/-! ### Expressions -/

section

variable (sub : Nonterminal → Parse Unit) [∀ construct, Explains (sub construct)]

instance : Explains (arguments sub) := by unfold arguments; dsimp only; infer_instance

instance : Explains (variableInitializer sub) := by unfold variableInitializer; infer_instance

instance : Explains (arrayInit sub) := by unfold arrayInit; infer_instance

instance : Explains lambdaParameters := by unfold lambdaParameters; dsimp only; infer_instance

instance : Explains (lambda sub) := by unfold lambda; infer_instance

instance : Explains (arrayLengths sub) := by unfold arrayLengths; dsimp only; infer_instance

instance : Explains (newExpr sub) := by unfold newExpr; dsimp only; infer_instance

instance (place : Checkpoint) (kind : NodeKind) (step : Parse Unit)
    [Explains step] : Explains (aroundSince place kind step) := by
  unfold aroundSince; infer_instance

instance (place : Checkpoint) : Explains (memberOf sub place) := by
  unfold memberOf
  apply Explains.bind inferInstance
  intro ahead
  split <;> infer_instance

instance (place : Checkpoint) : Explains (postfixPart sub place) := by
  unfold postfixPart
  apply Explains.bind inferInstance
  intro kind
  split <;> infer_instance

instance : Explains (namedOperand sub) := by unfold namedOperand; infer_instance

instance (kind : NodeKind) : Explains (selfOperand sub kind) := by
  unfold selfOperand; infer_instance

instance : Explains primitiveOperand := by unfold primitiveOperand; infer_instance

instance : Explains (primary sub) := by
  unfold primary
  apply Explains.bind inferInstance
  intro kind
  split <;> infer_instance

instance : Explains (postfixExpr sub) := by unfold postfixExpr; infer_instance

instance : Explains (castExpr sub) := by unfold castExpr; infer_instance

instance : Explains (unaryExpr sub) := by
  unfold unaryExpr
  apply Explains.bind inferInstance
  intro ahead
  split <;> infer_instance

instance (place : Checkpoint) : Explains (typeTest place) := by unfold typeTest; infer_instance

instance (place : Checkpoint) (precedence : Nat) :
    Explains (operatorPart sub place precedence) := by
  unfold operatorPart
  apply Explains.bind inferInstance
  intro operator
  split <;> infer_instance

instance (precedence : Nat) : Explains (binaryExpr sub precedence) := by
  unfold binaryExpr; infer_instance

instance : Explains (conditionalExpr sub) := by unfold conditionalExpr; infer_instance

instance : Explains (expression sub) := by
  unfold expression
  apply Explains.bind inferInstance
  intro isLambda
  split
  · infer_instance
  · apply Explains.bind inferInstance
    intro place
    apply Explains.bind inferInstance
    intro _
    apply Explains.bind inferInstance
    intro width
    split <;> infer_instance

end

/-! ### Statements -/

section

variable (sub : Nonterminal → Parse Unit) [∀ construct, Explains (sub construct)]

instance : Explains (variableDeclarators sub) := by unfold variableDeclarators; infer_instance

instance : Explains (localVariables sub) := by unfold localVariables; infer_instance

instance : Explains (condition sub) := by unfold condition; infer_instance

instance : Explains (expressionList sub) := by unfold expressionList; infer_instance

instance : Explains (expressionStmt sub) := by unfold expressionStmt; infer_instance

instance : Explains (ifStmt sub) := by unfold ifStmt; infer_instance

instance : Explains (whileStmt sub) := by unfold whileStmt; infer_instance

instance : Explains (doStmt sub) := by unfold doStmt; infer_instance

instance : Explains (forInit sub) := by unfold forInit; infer_instance

instance : Explains (forEachHeader sub) := by unfold forEachHeader; infer_instance

instance : Explains (forHeader sub) := by unfold forHeader; dsimp only; infer_instance

instance : Explains (forStmt sub) := by unfold forStmt; dsimp only; infer_instance

instance : Explains (returnStmt sub) := by unfold returnStmt; dsimp only; infer_instance

instance : Explains (throwStmt sub) := by unfold throwStmt; infer_instance

instance (kind : NodeKind) : Explains (jumpStmt kind) := by
  unfold jumpStmt; infer_instance

instance : Explains (syncStmt sub) := by unfold syncStmt; infer_instance

instance : Explains (assertStmt sub) := by unfold assertStmt; dsimp only; infer_instance

instance : Explains (labeledStmt sub) := by unfold labeledStmt; infer_instance

instance : Explains (resources sub) := by unfold resources; infer_instance

instance : Explains (catchClause sub) := by unfold catchClause; infer_instance

instance : Explains (tryStmt sub) := by unfold tryStmt; dsimp only; infer_instance

variable (declaration : Checkpoint → Parse Unit) [∀ place, Explains (declaration place)]

instance : Explains (blockStatement sub declaration) := by unfold blockStatement; infer_instance

instance (ends : List TokenKind) : Explains (blockStatements sub declaration ends) := by
  unfold blockStatements; infer_instance

instance : Explains (block sub declaration) := by unfold block; infer_instance

instance : Explains (arrowBody sub) := by unfold arrowBody; infer_instance

instance : Explains (switchCase sub declaration) := by
  unfold switchCase; dsimp only; infer_instance

instance : Explains (switchStmt sub declaration) := by unfold switchStmt; infer_instance

instance : Explains (statement sub declaration) := by
  unfold statement
  apply Explains.bind inferInstance
  intro ahead
  split <;> infer_instance

end

/-! ### Declarations -/

section

variable (sub : Nonterminal → Parse Unit) [∀ construct, Explains (sub construct)]

instance : Explains implementsOpt := by unfold implementsOpt; infer_instance

instance : Explains (classDecl sub) := by unfold classDecl; dsimp only; infer_instance

instance : Explains (interfaceDecl sub) := by unfold interfaceDecl; dsimp only; infer_instance

instance : Explains (enumDecl sub) := by unfold enumDecl; infer_instance

instance : Explains (annotationDecl sub) := by unfold annotationDecl; infer_instance

instance (place : Checkpoint) : Explains (typeDeclaration sub place) := by
  unfold typeDeclaration; infer_instance

instance : Explains (elementValue sub) := by
  unfold elementValue
  apply Explains.bind inferInstance
  intro kind
  split <;> infer_instance

instance : Explains (methodRest sub) := by unfold methodRest; dsimp only; infer_instance

instance : Explains (initializerBlock sub) := by unfold initializerBlock; infer_instance

instance (place : Checkpoint) : Explains (methodOrFields sub place) := by
  unfold methodOrFields; infer_instance

instance (place : Checkpoint) : Explains (typedMember sub place) := by
  unfold typedMember; dsimp only; infer_instance

instance : Explains (member sub) := by unfold member; infer_instance

instance : Explains (members sub) := by unfold members; infer_instance

instance : Explains (classBody sub) := by unfold classBody; infer_instance

instance : Explains (enumConstant sub) := by unfold enumConstant; dsimp only; infer_instance

instance : Explains (enumBody sub) := by unfold enumBody; dsimp only; infer_instance

end

instance : Explains packageDecl := by unfold packageDecl; infer_instance

instance : Explains importDecl := by unfold importDecl; dsimp only; infer_instance

/-! ### The whole grammar -/

theorem explains_nonterminalOver {bottom : Nonterminal → Parse Unit}
    (h : ∀ construct, Explains (bottom construct)) (depth : Nat) (construct : Nonterminal) :
    Explains (nonterminalOver bottom depth construct) := by
  induction depth generalizing construct with
  | zero => exact h construct
  | succ depth ih =>
    unfold nonterminalOver nonterminalWith
    cases construct <;> infer_instance

/-- Constructs do not nest so deep that one fails without a word. -/
instance (construct : Nonterminal) : Explains (nonterminal construct) := by
  constructor
  intro input state
  rw [nonterminal_eq_over (fun _ => do errorExpected "construct"; fail) construct input
    (Nat.le_refl _)]
  exact (explains_nonterminalOver (fun _ => inferInstance) _ construct).explains input state

instance : Explains topLevelDeclaration := by unfold topLevelDeclaration; infer_instance

instance : Explains compilationUnit := by unfold compilationUnit; dsimp only; infer_instance

/-! ### What error nodes tell -/

/-- Faults are only added, and error nodes tell of faults that were found. -/
def Blaming (_ : Input) (before after : State) : Prop :=
  before.errors ⊆ after.errors ∧
    (before.builder.Blames before.errors → after.builder.Blames after.errors)

/-- The error node of recovery tells of the last fault. -/
private theorem recover_blaming (resume : Resume) (place : Checkpoint)
    (errorsBefore aheadBefore : Nat) (input : Input) (state : State) :
    Blaming input state (recover resume place errorsBefore aheadBefore input state).2 := by
  simp only [recover]
  generalize herrors : (if state.errors.length = errorsBefore then _ else state.errors) = errors
  have hmore : state.errors ⊆ errors := by
    rw [← herrors]
    split
    · exact List.subset_append_left ..
    · exact List.Subset.refl _
  refine ⟨hmore, fun h => ?_⟩
  have hrewound := (h.rewind place).mono hmore
  cases hnode : errors.getLast?.bind _ with
  | none => exact hrewound
  | some node =>
    obtain ⟨error, hlast, hnode⟩ := Option.bind_eq_some_iff.1 hnode
    exact hrewound.push (Tree.blames_errorNode? hnode (List.mem_of_getLast? hlast))

instance : Guarantee Blaming where
  refl _ _ := ⟨List.Subset.refl _, id⟩
  trans hab hbc := ⟨List.Subset.trans hab.1 hbc.1, hbc.2 ∘ hab.2⟩
  bump _ token _ _ _ := ⟨List.Subset.refl _, fun h => h.push (Tree.blames_leaf token)⟩
  record _ _ _ :=
    ⟨List.subset_append_left .., fun h => h.mono (List.subset_append_left ..)⟩
  start _ _ kind _ := ⟨List.Subset.refl _, fun h => h.start kind _⟩
  startAt _ _ place kind _ := ⟨List.Subset.refl _, fun h => h.startAt place kind _⟩
  finish _ _ := ⟨List.Subset.refl _, fun h => h.finishNode⟩
  recover resume h := by
    obtain ⟨hmore, hblames⟩ := recover_blaming resume _ _ _ _ _
    exact ⟨List.Subset.trans h.1 hmore, hblames ∘ h.2⟩

/-! ### The faults of a text -/

/-- The constructs behind which the parser recovers. -/
inductive Recovered where
  | package
  | imported
  | declaration
  | member
  | constant
  | statement
deriving DecidableEq, Repr

/-- The step that parses such a construct. -/
def Recovered.step : Recovered → Parse Unit
  | .package => packageDecl
  | .imported => importDecl
  | .declaration => topLevelDeclaration
  | .member => Parser.member nonterminal
  | .constant => enumConstant nonterminal
  | .statement => blockStatement nonterminal (typeDeclaration nonterminal)

instance (construct : Recovered) : Explains construct.step := by
  cases construct <;> (unfold Recovered.step; infer_instance)

/-- A fault tells at one of some tokens what was expected instead of it. -/
def TellsOf (tokens : List Token) (error : ParseError) : Prop :=
  ∃ token ∈ tokens, ∃ what instead : String,
    error = .atToken token s!"expected {what}, found {instead}"

/-- A step that fails has recorded a fault at one of the tokens that were ahead, or at the end. -/
def FailsTelling (step : Parse Unit) : Prop :=
  ∀ (input : Input) (state after : State), step input state = (none, after) →
    ∃ found, found ≠ [] ∧ after.errors = state.errors ++ found ∧
      ∀ error ∈ found, TellsOf (state.ahead ++ [input.endToken]) error

theorem failsTelling (step : Parse Unit) [h : Explains step] : FailsTelling step := by
  intro input state after he
  obtain ⟨found, herrors, ht, hf⟩ := h.explains input state
  rw [he] at herrors ht hf
  exact ⟨found, hf rfl, herrors, ht.exists_token⟩

/-- The faults of a text are explained. -/
structure FaultsExplained (text : String) (options : ParseOptions) : Prop where
  /-- A fault has the place and the kind of a token that is neither layout nor a comment. -/
  located : ∀ error ∈ (parseSource text options).errors,
    ∃ token ∈ (parseSource text options).tokens, token.kind.isTrivia = false ∧
      error.line = token.line ∧ error.column = token.column ∧ error.start = token.start ∧
      error.stop = token.stop ∧ error.found = some token.kind
  /-- Faults are in the order of the text. -/
  sorted : (parseSource text options).errors.Pairwise fun error later => error.start ≤ later.start
  /-- Every error node tells of a fault in the list. -/
  blamed : ∀ region comments,
    .error region comments ∈ (parseSource text options).root.descendants →
      region.error ∈ (parseSource text options).errors
  /-- No fault has the wording of recovery. -/
  specific : ∀ error ∈ (parseSource text options).errors, error.message ≠ "unexpected input"
  /-- Recovery never looks in vain for a fault that the failed construct has recorded. -/
  recovered : ∀ construct : Recovered, FailsTelling construct.step
  /-- Nor does any construct fail without a fault through which the grammar is recursive. -/
  nested : ∀ construct : Nonterminal, FailsTelling (nonterminal construct)
  types : FailsTelling typeRef

/-- The error nodes of the tree of a text tell of faults that are found in it. -/
theorem blames_root (text : String) (options : ParseOptions) :
    (parseSource text options).root.Blames (parseSource text options).errors := by
  have hblaming : Keeps Blaming compilationUnit := inferInstance
  have hblames := (hblaming.keeps (.of text) (.start (tokenize text))).2
    (List.forall_mem_singleton.2 (List.forall_mem_nil _))
  unfold parseSource
  dsimp only
  split
  · exact hblames.finish.attachWith _
  · exact hblames.finish

theorem faultsExplained (text : String) (options : ParseOptions) :
    FaultsExplained text options := by
  have hexplains : Explains compilationUnit := inferInstance
  obtain ⟨found, herrors, htold, -⟩ := hexplains.explains (.of text) (.start (tokenize text))
  replace herrors : (parseSource text options).errors = found := herrors
  obtain ⟨tokens, last, heq, hl, ht⟩ := tokenize_eq_append text
  have hseen := filter_seen heq hl ht
  rw [← endToken_of heq] at hseen
  have htells : ∀ error ∈ found, TellsOf ((tokenize text).filter fun token => !token.kind.isTrivia)
      error := by
    rw [hseen]
    exact htold.exists_token
  exact {
    located := by
      rw [herrors]
      intro error he
      obtain ⟨token, hm, _, _, rfl⟩ := htells error he
      obtain ⟨hm, hk⟩ := List.mem_filter.1 hm
      exact ⟨token, hm, by simpa using hk, rfl, rfl, rfl, rfl, rfl⟩
    sorted := by
      rw [herrors]
      refine htold.pairwise_start ?_
      rw [State.start, ← hseen]
      exact (startsAscending_tokenize text).sublist List.filter_sublist
    blamed := blames_root text options
    specific := by
      rw [herrors]
      intro error he
      obtain ⟨_, -, what, instead, rfl⟩ := htells error he
      exact expected_ne_unexpected what instead
    recovered := fun construct => failsTelling construct.step
    nested := fun construct => failsTelling (nonterminal construct)
    types := failsTelling typeRef }

end JavaGraph.Parser
