import JavaGraph.Proofs.Parser.Brackets
import JavaGraph.Proofs.Parser.Explained
import JavaGraph.Proofs.Parser.Kept
/-!
# Texts without faults are well bracketed

Every construct of the grammar closes the delimiters that it opens, unless the text ends in a body.
The one name that may take in any token is that of an annotation, behind its `@`.
-/

namespace JavaGraph

namespace Parser

open Parse

set_option synthInstance.maxSize 8192

variable {base : Builder} {stack : List TokenKind}

/-! ### Types, annotations and parameters -/

instance : Settles base [] stack stack dimensions := by unfold dimensions; infer_instance

instance : Settles base [] stack stack dottedRest := by unfold dottedRest; infer_instance

instance : Settles base [] stack stack qualifiedName := by unfold qualifiedName; infer_instance

instance : Settles base [] stack stack typeAnnotations := by unfold typeAnnotations; infer_instance

/-- A step chosen by whether the next token begins a primitive type. -/
instance {α : Type} {rest : List TokenKind} (yes no : Parse α)
    [hy : Settles base [.plain] stack rest yes] [hn : Settles base [] stack rest no] :
    Settles base [] stack rest (look (fun ahead => (kindAt ahead 0).isPrimitiveType) >>= fun here =>
      if here = true then yes else no) := by
  refine .look fun ahead hm => ?_
  split
  · next h =>
    refine hy.from ⟨?_, trivial⟩
    revert h
    cases kindAt ahead 0 <;> simp [TokenKind.isPrimitiveType, Mark.Fits, TokenKind.isOrdinary,
      TokenKind.closing?, TokenKind.isClosing]
  · exact hn.from hm

section

variable (nested : Parse Unit) [Keeps Orderly nested]
  [∀ base stack, Settles base [] stack stack nested]

instance : Settles base [] stack stack (typeArgumentWith nested) := by
  unfold typeArgumentWith; infer_instance

instance : Settles base [] stack stack (typeArgumentsWith nested) := by
  unfold typeArgumentsWith; dsimp only; infer_instance

instance : Settles base [] stack stack (classTypeWith nested) := by
  unfold classTypeWith; dsimp only; infer_instance

instance : Settles base [] stack stack (elementTypeWith nested) := by
  unfold elementTypeWith; infer_instance

instance : Settles base [] stack stack (typeRefWith nested) := by
  unfold typeRefWith; infer_instance

end

instance settles_typeRefAtMost (depth : Nat) :
    Settles base [] stack stack (typeRefAtMost depth) := by
  induction depth generalizing base stack with
  | zero => unfold typeRefAtMost; infer_instance
  | succ depth ih => unfold typeRefAtMost; infer_instance

instance : Settles base [] stack stack typeRef := by unfold typeRef; infer_instance

instance : Settles base [] stack stack typeArguments := by unfold typeArguments; infer_instance

instance : Settles base [] stack stack typeRefNoDimensions := by
  unfold typeRefNoDimensions; infer_instance

instance : Settles base [] stack stack typeList := by unfold typeList; infer_instance

instance : Settles base [] stack stack typeParameter := by unfold typeParameter; infer_instance

instance : Settles base [] stack stack typeParametersOpt := by
  unfold typeParametersOpt; infer_instance

/-! ### Tokens taken as they come -/

/-- Children whose nodes are regular have been added, or else some nodes may not be finished. -/
def Collected (base : Builder) : Option Unit × State → Prop
  | (some _, after) => ∃ added, base.Adds added after.builder ∧
      ∀ child ∈ added, child.Bracketed after.Short
  | (none, after) => base.Above after.builder

/-- A step that adds children whose nodes are regular. -/
def Collects (step : Parse Unit) : Prop :=
  ∀ input state, state.builder.Composite → state.Significant →
    Collected state.builder (step input state)

theorem Collects.bind {step next : Parse Unit} (h : Collects step) (hn : Collects next)
    [hs : Keeps Orderly step] [hk : Keeps Orderly next] : Collects (step >>= fun _ => next) := by
  intro input state hc hsignificant
  have hfirst := h input state hc hsignificant
  have hadvanced := (hs.keeps input state).advanced
  simp only [Bind.bind]
  generalize step input state = result at hfirst hadvanced
  obtain ⟨_ | _, middle⟩ := result
  · exact hfirst
  obtain ⟨added, ha, hbracketed⟩ := hfirst
  have hsecond := hn input middle (ha.composite hc) (hsignificant.of_advanced hadvanced)
  have hadvanced' := (hk.keeps input middle).advanced
  dsimp only
  generalize next input middle = result at hsecond hadvanced'
  obtain ⟨_ | _, after⟩ := result
  · exact Builder.Above.of_adds ha hsecond
  · obtain ⟨more, hm, hbracketed'⟩ := hsecond
    refine ⟨_, ha.trans hm, List.forall_mem_append.2 ⟨fun child hc => ?_, hbracketed'⟩⟩
    exact (hbracketed child hc).mono fun hshort => hshort.of_advanced hadvanced'

theorem collects_bump : Collects bump := by
  rintro input ⟨_ | ⟨token, ahead⟩, builder, errors⟩ - -
  · exact ⟨[], Builder.adds_nil _, List.forall_mem_nil _⟩
  · exact ⟨_, Builder.adds_push builder (.leaf token),
      List.forall_mem_singleton.2 (Tree.bracketed_leaf token)⟩

theorem collects_bumpMany (count : Nat) : Collects (bumpMany count) := by
  induction count with
  | zero => exact fun _ _ _ _ => ⟨[], Builder.adds_nil _, List.forall_mem_nil _⟩
  | succ count ih =>
    unfold bumpMany
    exact collects_bump.bind ih

theorem Collects.of_settles {step : Parse Unit} (h : ∀ base, Settles base [] [] [] step) :
    Collects step := by
  intro input state hc hs
  have hopen := (h state.builder).settles input state trivial (State.open_self state hc hs)
  generalize step input state = result at hopen
  obtain ⟨_ | _, after⟩ := result
  · exact hopen
  · obtain ⟨added, ha, -, -, hbracketed⟩ := hopen.exists_added
    exact ⟨added, ha, hbracketed⟩

/-- Nothing is asked of what lists of arguments and names have directly below them. -/
theorem Collects.settles_inNode {kind : NodeKind} {step : Parse Unit} (h : Collects step)
    [hf : Keeps Orderly step] (hk : kind = .annotationArgs ∨ kind = .qualifiedName) :
    Settles base [] stack stack (inNode kind step) := by
  have hinner : Evaluates (isInner kind) := by
    rcases hk with rfl | rfl <;> exact ⟨rfl⟩
  have hkind := ne_token_of_isInner hinner.eq_true
  have hkeeps : Keeps Orderly (inNode kind step) := inferInstance
  constructor
  rintro input ⟨ahead, builder, errors⟩ - ho
  refine ho.leavesOpen (hkeeps.keeps input _).advanced ?_
  have hcomposite := ho.self.composite
  have hbegun : State.Significant
      ⟨ahead, builder.within [{ kind, anchor := ahead.headD input.endToken }], errors⟩ :=
    ho.significant
  have hcollected := h input _ (composite_within hcomposite hkind) hbegun
  have hadvanced := (hf.keeps input
    ⟨ahead, builder.within [{ kind, anchor := ahead.headD input.endToken }], errors⟩).advanced
  change LeavesOpen builder [] ((step >>= fun _ => finishNode) input
    ⟨ahead, builder.within [{ kind, anchor := ahead.headD input.endToken }], errors⟩)
  simp only [Bind.bind]
  generalize step input _ = result at hcollected hadvanced
  obtain ⟨_ | _, after⟩ := result
  · exact Builder.Above.of_within hcollected
  · obtain ⟨added, ha, hc⟩ := hcollected
    obtain ⟨done, hdk, hdc, hd⟩ := Builder.adds_finishNode ha
    rw [← show done.children = added from hdc] at hc
    have hdone : done.toTree.Bracketed after.Short := by
      refine Tree.bracketed_node.2 ⟨fun ha hq => ?_, hc⟩
      rw [← show done.kind = kind from hdk] at hk
      rcases hk with hk | hk
      · exact absurd hk ha
      · exact absurd hk hq
    have hsignificant : after.Significant := hbegun.of_advanced hadvanced
    exact State.open_node hcomposite hsignificant hd
      (Tree.token?_of_kind_ne (show done.kind ≠ .token from hdk ▸ hkind)) hdone

instance : Settles base [] stack stack annotationArguments := by
  unfold annotationArguments
  refine .onAhead fun ahead => ?_
  split
  · exact (collects_bumpMany _).settles_inNode (.inl rfl)
  · infer_instance

instance : Settles base [.plain] stack stack annotationUse := by
  have hname : Collects (bump >>= fun _ => dottedRest) :=
    collects_bump.bind (.of_settles fun _ => inferInstance)
  have (base : Builder) (stack : List TokenKind) :
      Settles base [] stack stack (inNode .qualifiedName (bump >>= fun _ => dottedRest)) :=
    hname.settles_inNode (.inr rfl)
  unfold annotationUse
  infer_instance

theorem fits_of_isModifier {kind : TokenKind} (h : kind.isModifier = true) :
    Mark.plain.Fits kind := by
  revert h
  cases kind <;> simp [TokenKind.isModifier, Mark.Fits, TokenKind.isOrdinary,
    TokenKind.closing?, TokenKind.isClosing]

instance : Settles base [] stack stack modifiers := by
  have h (base : Builder) (stack : List TokenKind) : Settles base [] stack stack (do
      let ahead ← look id
      let isLabel := kindAt ahead 1 == .colon || kindAt ahead 1 == .arrow
      if kindAt ahead 0 == .kwDefault && isLabel then return false
      else if (kindAt ahead 0).isModifier then
        bump
        return true
      else if kindAt ahead 0 == .atSign && kindAt ahead 1 == .ident then
        annotationUse
        return true
      else return false) := by
    refine .look fun ahead _ => ?_
    dsimp only [id]
    split
    · exact settlesFrom
    · split
      · next h =>
        have hmarked : Marked [.plain] ahead := ⟨fits_of_isModifier h, trivial⟩
        exact Settles.from inferInstance hmarked
      · split
        · next h =>
          rw [Bool.and_eq_true] at h
          exact settlesFrom_one (eq_of_beq h.1)
        · exact settlesFrom
  unfold modifiers
  infer_instance

instance : Settles base [] stack stack parameter := by
  unfold parameter; dsimp only; infer_instance

instance : Settles base [] stack stack formalParameters := by
  unfold formalParameters; dsimp only; infer_instance

/-! ### Expressions -/

theorem fits_of_isLiteral {kind : TokenKind} (h : kind.isLiteral = true) :
    Mark.plain.Fits kind := by
  revert h
  cases kind <;> simp [TokenKind.isLiteral, Mark.Fits, TokenKind.isOrdinary,
    TokenKind.closing?, TokenKind.isClosing]

theorem fits_of_isAssignment {kind : TokenKind} (h : kind.isAssignment = true) :
    Mark.plain.Fits kind := by
  revert h
  cases kind <;> simp [TokenKind.isAssignment, Mark.Fits, TokenKind.isOrdinary,
    TokenKind.closing?, TokenKind.isClosing]

/-- The tokens of an assignment operator are no delimiters. -/
theorem marked_of_assignmentWidth? {ahead : List Token} {width : Nat}
    (h : assignmentWidth? ahead = some width) : Marked (List.replicate width .plain) ahead := by
  unfold assignmentWidth? at h
  split at h
  · next ha =>
    cases h
    exact ⟨fits_of_isAssignment ha, trivial⟩
  · split at h
    · next hg =>
      split at h
      · next he =>
        cases h
        exact marked_two hg.1 he
      · split at h
        · next he =>
          cases h
          exact marked_three hg.1 he.1 he.2.2
        · cases h
    · cases h

/-- The tokens of an operator that begins with `>` are no delimiters. -/
theorem marked_of_greaterOperator? {ahead : List Token} {operator : BinaryOperator}
    (hk : kindAt ahead 0 = .greater) (h : greaterOperator? ahead = some operator) :
    Marked (List.replicate operator.width .plain) ahead ∧ 0 < operator.width := by
  unfold greaterOperator? at h
  split at h
  · cases h
  · split at h
    · next hg =>
      split at h
      · next hg' =>
        cases h
        exact ⟨marked_three hk hg.1 hg'.1, by decide⟩
      · cases h
        exact ⟨marked_two hk hg.1, by decide⟩
    · cases h
      exact ⟨marked_one hk, by decide⟩

/-- The tokens of a binary operator are no delimiters. -/
theorem marked_of_binaryOperator? {ahead : List Token} {operator : BinaryOperator}
    (h : binaryOperator? ahead = some operator) :
    Marked (List.replicate operator.width .plain) ahead ∧ 0 < operator.width := by
  unfold binaryOperator? at h
  split at h
  case h_12 hk => exact marked_of_greaterOperator? hk h
  case h_19 => cases h
  all_goals
    next hk =>
      cases h
      exact ⟨marked_one hk, Nat.one_pos⟩

section

variable (sub : Nonterminal → Parse Unit) [∀ construct, Keeps Orderly (sub construct)]
  [∀ base stack construct, Settles base [] stack stack (sub construct)]

instance : Settles base [] stack stack (arguments sub) := by
  unfold arguments; dsimp only; infer_instance

instance : Settles base [] stack stack (variableInitializer sub) := by
  unfold variableInitializer; infer_instance

instance : Settles base [] stack stack (arrayInit sub) := by unfold arrayInit; infer_instance

instance : Settles base [] stack stack lambdaParameters := by
  have h (base : Builder) (stack : List TokenKind) : Settles base [] stack stack (do
      let named ← look fun ahead =>
        kindAt ahead 0 == .ident && (kindAt ahead 1 == .comma || kindAt ahead 1 == .rParen)
      if named then bump else parameter) := by
    refine .look fun ahead _ => ?_
    split
    · next h =>
      rw [Bool.and_eq_true] at h
      exact settlesFrom_one (eq_of_beq h.1)
    · exact settlesFrom
  unfold lambdaParameters
  dsimp only
  infer_instance

instance : Settles base [] stack stack (lambda sub) := by unfold lambda; infer_instance

instance : Settles base [] stack stack (arrayLengths sub) := by
  unfold arrayLengths; dsimp only; infer_instance

instance : Settles base [.plain] stack stack (newExpr sub) := by
  rw [newExpr_eq]
  infer_instance

instance : Settles base [.plain] [] [] (memberOf sub base.checkpoint) := by
  unfold memberOf
  refine .look fun ahead hm => ?_
  have hdot := hm.1
  have htwo {kind : TokenKind} {mark : Mark} [HasMark kind mark] (h : kindAt ahead 1 = kind) :
      Marked [.plain, mark] ahead := ⟨hdot, by rw [kindAt_tail, h]; exact HasMark.fits, trivial⟩
  dsimp only [id]
  split
  · next h =>
    split
    · exact Settles.from inferInstance (htwo h)
    · exact Settles.from inferInstance (htwo h)
  · exact Settles.from inferInstance hm
  · next h => exact Settles.from inferInstance (htwo h)
  · next h => exact Settles.from inferInstance (htwo h)
  · next h => exact Settles.from inferInstance (htwo h)
  · next h => exact Settles.from inferInstance (htwo h)
  · exact Settles.from inferInstance hm

instance : Settles base [] [] [] (postfixPart sub base.checkpoint) := by
  unfold postfixPart
  refine .look fun ahead _ => ?_
  split
  · next h => exact settlesFrom_one h
  · next h => exact settlesFrom_one h
  · next h => exact settlesFrom_one h
  · next h => exact settlesFrom_one h
  · next h => exact settlesFrom_one h
  · exact settlesFrom

instance : Settles base [.plain] stack stack (namedOperand sub) := by
  unfold namedOperand; infer_instance

instance (kind : NodeKind) [Evaluates (isInner kind)] :
    Settles base [.plain] stack stack (selfOperand sub kind) := by
  unfold selfOperand; infer_instance

instance : Settles base [] stack stack primitiveOperand := by
  unfold primitiveOperand; infer_instance

instance : Settles base [] stack stack (primary sub) := by
  unfold primary
  refine .look fun ahead _ => ?_
  split
  · next h => exact settlesFrom_one h
  · next h => exact settlesFrom_one h
  · next h => exact settlesFrom_one h
  · next h => exact settlesFrom_one h
  · next h => exact settlesFrom_one h
  · exact settlesFrom
  · next h => exact settlesFrom_one h
  · split
    · next hl =>
      have hmarked : Marked [.plain] ahead := ⟨fits_of_isLiteral hl, trivial⟩
      exact Settles.from inferInstance hmarked
    · exact settlesFrom

instance : Settles base [] stack stack (postfixExpr sub) := by
  unfold postfixExpr; infer_instance

instance : Settles base [.opens .rParen] stack stack (castExpr sub) := by
  unfold castExpr; infer_instance

instance : Settles base [] stack stack (unaryExpr sub) := by
  unfold unaryExpr
  refine .look fun ahead _ => ?_
  dsimp only [id]
  split
  · next h => exact settlesFrom_one h
  · next h => exact settlesFrom_one h
  · next h => exact settlesFrom_one h
  · next h => exact settlesFrom_one h
  · next h => exact settlesFrom_one h
  · next h => exact settlesFrom_one h
  · next h => exact settlesFrom_one h
  · exact settlesFrom

instance : Settles base [.plain] [] [] (typeTest base.checkpoint) := by
  unfold typeTest; infer_instance

instance (precedence : Nat) :
    Settles base [] [] [] (operatorPart sub base.checkpoint precedence) := by
  unfold operatorPart
  refine .look fun ahead _ => ?_
  split
  · exact settlesFrom
  · next operator h =>
    obtain ⟨hm, hpos⟩ := marked_of_binaryOperator? h
    split
    · exact settlesFrom
    · split
      · have hone : Marked [.plain] ahead := by
          obtain ⟨width, hwidth⟩ := Nat.exists_eq_succ_of_ne_zero (Nat.ne_of_gt hpos)
          rw [hwidth, List.replicate_succ] at hm
          exact ⟨hm.1, trivial⟩
        exact Settles.from inferInstance hone
      · exact Settles.from inferInstance hm

instance (precedence : Nat) : Settles base [] stack stack (binaryExpr sub precedence) := by
  unfold binaryExpr; infer_instance

instance : Settles base [] stack stack (conditionalExpr sub) := by
  unfold conditionalExpr; infer_instance

instance : Settles base [] stack stack (expression sub) := by
  have h (base : Builder) : Settles base [] [] [] (do
      match ← look assignmentWidth? with
      | none => pure ()
      | some width =>
        aroundSince base.checkpoint .assignExpr do
          bumpMany width
          sub .expression) := by
    refine .look fun ahead _ => ?_
    split
    · exact settlesFrom
    · next width h => exact Settles.from inferInstance (marked_of_assignmentWidth? h)
  have hkeeps (place : Checkpoint) : Keeps Orderly (do
      match ← look assignmentWidth? with
      | none => pure ()
      | some width =>
        aroundSince place .assignExpr do
          bumpMany width
          sub .expression) :=
    Keeps.bind inferInstance fun width? => by split <;> infer_instance
  unfold expression
  infer_instance

end

/-! ### Statements -/

section

variable (sub : Nonterminal → Parse Unit) [∀ construct, Keeps Orderly (sub construct)]
  [∀ base stack construct, Settles base [] stack stack (sub construct)]

instance : Settles base [] stack stack (variableDeclarators sub) := by
  unfold variableDeclarators; infer_instance

instance : Settles base [] stack stack (localVariables sub) := by
  unfold localVariables; infer_instance

instance : Settles base [] stack stack (condition sub) := by unfold condition; infer_instance

instance : Settles base [] stack stack (expressionList sub) := by
  unfold expressionList; infer_instance

instance : Settles base [] stack stack (expressionStmt sub) := by
  unfold expressionStmt; infer_instance

instance : Settles base [.plain] stack stack (ifStmt sub) := by unfold ifStmt; infer_instance

instance : Settles base [.plain] stack stack (whileStmt sub) := by unfold whileStmt; infer_instance

instance : Settles base [.plain] stack stack (doStmt sub) := by unfold doStmt; infer_instance

instance : Settles base [] stack stack (forInit sub) := by unfold forInit; infer_instance

instance : Settles base [] stack stack (forEachHeader sub) := by
  unfold forEachHeader; infer_instance

instance : Settles base [] stack stack (forHeader sub) := by
  unfold forHeader; dsimp only; infer_instance

instance : Settles base [.plain] stack stack (forStmt sub) := by
  rw [forStmt_eq]
  infer_instance

instance : Settles base [.plain] stack stack (returnStmt sub) := by
  unfold returnStmt; dsimp only; infer_instance

instance : Settles base [.plain] stack stack (throwStmt sub) := by unfold throwStmt; infer_instance

instance (kind : NodeKind) [Evaluates (isInner kind)] :
    Settles base [.plain] stack stack (jumpStmt kind) := by
  unfold jumpStmt; infer_instance

instance : Settles base [.plain] stack stack (syncStmt sub) := by unfold syncStmt; infer_instance

instance : Settles base [.plain] stack stack (assertStmt sub) := by
  unfold assertStmt; dsimp only; infer_instance

instance : Settles base [.plain, .plain] stack stack (labeledStmt sub) := by
  unfold labeledStmt; infer_instance

instance : Settles base [] stack stack (resources sub) := by unfold resources; infer_instance

instance : Settles base [.plain] stack stack (catchClause sub) := by
  unfold catchClause; infer_instance

instance : Settles base [.plain] stack stack (tryStmt sub) := by
  unfold tryStmt; dsimp only; infer_instance

variable (declaration : Checkpoint → Parse Unit) [∀ place, Keeps Orderly (declaration place)]
  [∀ base : Builder, Settles base [] [] [] (declaration base.checkpoint)]

instance : Settles base [] stack stack (blockStatement sub declaration) := by
  unfold blockStatement; infer_instance

instance (ends : List TokenKind) :
    Settles base [] stack stack (blockStatements sub declaration ends) := by
  unfold blockStatements; infer_instance

instance : Settles base [] stack stack (block sub declaration) := by unfold block; infer_instance

instance : Settles base [] stack stack (arrowBody sub) := by unfold arrowBody; infer_instance

instance : Settles base [.plain] stack stack (switchCase sub declaration) := by
  unfold switchCase; dsimp only; infer_instance

instance : Settles base [.plain] stack stack (switchStmt sub declaration) := by
  unfold switchStmt; infer_instance

instance : Settles base [] stack stack (statement sub declaration) := by
  unfold statement
  refine .look fun ahead _ => ?_
  dsimp only [id]
  split
  · exact settlesFrom
  · next h => exact settlesFrom_one h
  · next h => exact settlesFrom_one h
  · next h => exact settlesFrom_one h
  · next h => exact settlesFrom_one h
  · next h => exact settlesFrom_one h
  · next h => exact settlesFrom_one h
  · next h => exact settlesFrom_one h
  · next h => exact settlesFrom_one h
  · next h => exact settlesFrom_one h
  · next h => exact settlesFrom_one h
  · next h => exact settlesFrom_one h
  · next h => exact settlesFrom_one h
  · next h => exact settlesFrom_one h
  · next h =>
    split
    · next h' => exact settlesFrom_two h h'
    · exact settlesFrom
  · exact settlesFrom

end

/-! ### Declarations -/

section

variable (sub : Nonterminal → Parse Unit) [∀ construct, Keeps Orderly (sub construct)]
  [∀ base stack construct, Settles base [] stack stack (sub construct)]

instance : Settles base [] stack stack implementsOpt := by unfold implementsOpt; infer_instance

instance : Settles base [.plain] stack stack (classDecl sub) := by
  unfold classDecl; dsimp only; infer_instance

instance : Settles base [.plain] stack stack (interfaceDecl sub) := by
  unfold interfaceDecl; dsimp only; infer_instance

instance : Settles base [.plain] stack stack (enumDecl sub) := by unfold enumDecl; infer_instance

instance : Settles base [.plain, .plain] stack stack (annotationDecl sub) := by
  unfold annotationDecl; infer_instance

instance : Settles base [] [] [] (typeDeclaration sub base.checkpoint) := by
  unfold typeDeclaration
  refine .look fun ahead _ => ?_
  dsimp only [id]
  split
  · next h => exact settlesFrom_one h
  · split
    · next h => exact settlesFrom_one h
    · split
      · next h => exact settlesFrom_one h
      · split
        · next h => exact settlesFrom_two h.1 h.2
        · exact settlesFrom

instance : Settles base [] stack stack (elementValue sub) := by
  unfold elementValue
  refine .look fun ahead _ => ?_
  split
  · exact settlesFrom
  · next h => exact settlesFrom_one h
  · exact settlesFrom

instance : Settles base [] stack stack (methodRest sub) := by
  unfold methodRest; dsimp only; infer_instance

instance : Settles base [] stack stack (initializerBlock sub) := by
  unfold initializerBlock; infer_instance

instance : Settles base [] [] [] (methodOrFields sub base.checkpoint) := by
  unfold methodOrFields; infer_instance

instance : Settles base [] [] [] (typedMember sub base.checkpoint) := by
  unfold typedMember; dsimp only; infer_instance

instance : Settles base [] stack stack (member sub) := by unfold member; infer_instance

instance : Settles base [] stack stack (members sub) := by unfold members; infer_instance

instance : Settles base [] stack stack (classBody sub) := by unfold classBody; infer_instance

instance : Settles base [] stack stack (enumConstant sub) := by
  unfold enumConstant; dsimp only; infer_instance

instance : Settles base [] stack stack (enumBody sub) := by
  unfold enumBody; dsimp only; infer_instance

end

instance : Settles base [] stack stack packageDecl := by unfold packageDecl; infer_instance

instance : Settles base [.plain] stack stack importDecl := by
  unfold importDecl; dsimp only; infer_instance

/-! ### The whole grammar -/

/-- A construct closes what it opens if the constructs within it do. -/
theorem settles_nonterminalWith (sub : Nonterminal → Parse Unit)
    [∀ construct, Keeps Orderly (sub construct)]
    [∀ base stack construct, Settles base [] stack stack (sub construct)]
    (construct : Nonterminal) : Settles base [] stack stack (nonterminalWith sub construct) := by
  unfold nonterminalWith
  cases construct <;> infer_instance

instance settles_nonterminalAtMost (depth : Nat) (construct : Nonterminal) :
    Settles base [] stack stack (nonterminalAtMost depth construct) := by
  induction depth generalizing base stack construct with
  | zero => unfold nonterminalAtMost; infer_instance
  | succ depth ih => exact settles_nonterminalWith (nonterminalAtMost depth) construct

instance (construct : Nonterminal) : Settles base [] stack stack (nonterminal construct) := by
  unfold nonterminal; infer_instance

instance : Settles base [] stack stack topLevelDeclaration := by
  unfold topLevelDeclaration; infer_instance

instance : Settles base [] stack stack compilationUnit := by
  unfold compilationUnit; dsimp only; infer_instance

end Parser

/-! ### The trees of texts -/

/-- What is built of a whole file has regular nodes. -/
theorem Parser.bracketed_finish (input : Parser.Input) (tokens : List Token) :
    (Parser.compilationUnit input (.start tokens)).2.builder.finish.Bracketed
      ((Parser.compilationUnit input (.start tokens)).2.errors ≠ []) := by
  have hsome := Parser.succeeds_compilationUnit input (.start tokens)
  have hsettles (base : Builder) : Parser.Settles base [] [] [] Parser.compilationUnit :=
    inferInstance
  have hopen := (hsettles _).settles input _ trivial
    (Parser.State.open_self _ (Parser.composite_startState tokens)
      (Parser.significant_start tokens))
  generalize Parser.compilationUnit input (.start tokens) = result at hsome hopen
  obtain ⟨_ | value, after⟩ := result
  · cases hsome
  obtain ⟨added, ⟨frame, hk, -, hc, hb⟩, hleft, hknown, hregular⟩ := hopen.exists_added
  have hroot : after.builder.finish = frame.toTree := by
    rw [hb]
    rfl
  rw [← show frame.children = added from hc] at hleft hknown hregular
  rw [hroot]
  exact (Parser.bracketed_toTree hleft hknown hregular).mono And.right

theorem Tree.isError_attachWith (layout : CommentLayout) (tree : Tree) :
    (tree.attachWith layout).isError = tree.isError := by
  cases tree with
  | node kind anchor extent comments children =>
    obtain ⟨attached, ha⟩ :=
      exists_attachHere layout (.node kind anchor extent comments (attachAll layout children))
    rw [attachWith, ha]
    rfl
  | error region comments =>
    obtain ⟨attached, ha⟩ := exists_attachHere layout (.error region comments)
    rw [attachWith, ha]
    rfl

/-- Comments are no tokens of the tree. -/
theorem Tree.Bracketed.attachWith {tree : Tree} {short : Prop} (h : tree.Bracketed short)
    (layout : CommentLayout) : (tree.attachWith layout).Bracketed short := by
  intro node hn
  rw [descendants_attachWith] at hn
  obtain ⟨other, ho, rfl⟩ := List.mem_map.1 hn
  unfold Regular
  rw [kind_attachWith, childTokens_attachWith]
  exact h other ho

/-- Every node of the tree of a text is regular, but that braces may be missing if a fault is found. -/
theorem bracketed_root (text : String) (options : ParseOptions) :
    (parseSource text options).root.Bracketed ((parseSource text options).errors ≠ []) := by
  have hbare := Parser.bracketed_finish (.of text) (tokenize text)
  unfold parseSource
  dsimp only
  split
  · exact hbare.attachWith _
  · exact hbare

/-- Where nothing is found wrong, nothing is skipped. -/
theorem isError_of_mem_descendants {text : String} {options : ParseOptions}
    (h : (parseSource text options).errors = []) :
    ∀ node ∈ (parseSource text options).root.descendants, node.isError = false := by
  intro node hn
  cases node with
  | node kind anchor extent comments children => rfl
  | error region comments =>
    have hblamed := Parser.blames_root text options region comments hn
    rw [h] at hblamed
    cases hblamed

/-- Where nothing is found wrong, the tree of a text is well bracketed if its names are made of
tokens that are neither delimiters nor unknown. -/
theorem wellBracketed_of_named (text : String) (options : ParseOptions)
    (h : (parseSource text options).errors = []) (hn : (parseSource text options).root.Named) :
    (parseSource text options).root.WellBracketed := by
  have hbracketed := (bracketed_root text options).mono fun hne => hne h
  have hsettled := hbracketed.settled (isError_of_mem_descendants h) hn
  refine hsettled.wellBracketed (Tree.token?_of_kind_ne ?_)
  rw [kind_root]
  decide

/-- What the arguments of an annotation open need not be closed. -/
theorem wellBracketed_annotated :
    let text := "@A(\x7b) class B \x7b @P(\"]\") int[] f(int[] x) \x7b return x[0]; \x7d \x7d"
    (parseSource text {}).errors = [] ∧ (parseSource text {}).root.WellBracketed := by
  have herrors : (parseSource "@A(\x7b) class B \x7b @P(\"]\") int[] f(int[] x) \x7b return x[0]; \x7d \x7d"
      {}).errors = [] := by decide +kernel
  exact ⟨herrors, wellBracketed_of_named _ _ herrors (by decide +kernel)⟩

/-- An annotation as the default of an element takes the parenthesis behind its `@` for its name. -/
theorem not_wellBracketed_defaultAnnotation :
    let parsed := parseSource "@interface A \x7b int x() default @); \x7d" {}
    parsed.errors = [] ∧ ¬ parsed.root.WellBracketed := by
  refine ⟨by decide +kernel, fun h => ?_⟩
  exact absurd h.nested (by decide +kernel)

end JavaGraph
