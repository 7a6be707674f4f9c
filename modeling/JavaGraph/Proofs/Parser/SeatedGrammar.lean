import JavaGraph.Proofs.Parser.Kept
import JavaGraph.Proofs.Parser.Seated
import JavaGraph.Proofs.Token.Tiling
/-!
# The trees of texts are seated on their tokens

Every construct of the grammar ends with a token, but for the few that may be empty, and behind those
there is always something more. So each node of a tree begins on the line of its first token and ends
on that of its last one.
-/

namespace JavaGraph

namespace Parser

open Parse

set_option synthInstance.maxSize 8192

variable {base : Builder} {known : Nat}

/-! ### Types, annotations and parameters -/

instance : Seats base 0 dimensions .same := by unfold dimensions; infer_instance

instance : Seats base 0 dottedRest .same := by unfold dottedRest; infer_instance

instance : Seats base 0 qualifiedName .solid := by unfold qualifiedName; infer_instance

instance : Seats base 0 typeAnnotations .same := by unfold typeAnnotations; infer_instance

/-- A step chosen by whether the next token begins a primitive type. -/
instance {α : Type} {a b : Ending} (yes no : Parse α) [Seats base 1 yes a] [hn : Seats base 0 no b] :
    Seats base 0 (look (fun ahead => (kindAt ahead 0).isPrimitiveType) >>= fun here =>
      if here = true then yes else no) (a.join b) := by
  refine .look fun ahead hk => ?_
  split
  · next h =>
    have hne : kindAt ahead 0 ≠ .eof := by
      intro he
      rw [he] at h
      cases h
    exact (seatsFrom_one hne).join_left
  · exact (hn.from hk).join_right

section

variable (nested : Parse Unit) [∀ base, Seats base 0 nested .solid]

instance : Seats base 0 (typeArgumentWith nested) .solid := by
  unfold typeArgumentWith; infer_instance

instance : Seats base 0 (typeArgumentsWith nested) .solid := by
  unfold typeArgumentsWith; dsimp only; infer_instance

instance : Seats base 0 (classTypeWith nested) .solid := by
  unfold classTypeWith; dsimp only; infer_instance

instance : Seats base 0 (elementTypeWith nested) .solid := by
  unfold elementTypeWith; infer_instance

instance : Seats base 0 (typeRefWith nested) .solid := by unfold typeRefWith; infer_instance

end

instance seats_typeRefAtMost (depth : Nat) : Seats base 0 (typeRefAtMost depth) .solid := by
  induction depth generalizing base with
  | zero => unfold typeRefAtMost; infer_instance
  | succ depth ih => unfold typeRefAtMost; infer_instance

instance : Seats base 0 typeRef .solid := by unfold typeRef; infer_instance

instance : Seats base 0 typeArguments .solid := by unfold typeArguments; infer_instance

instance : Seats base 0 typeRefNoDimensions .solid := by unfold typeRefNoDimensions; infer_instance

instance : Seats base 0 typeList .solid := by unfold typeList; infer_instance

instance : Seats base 0 typeParameter .solid := by unfold typeParameter; infer_instance

instance : Seats base 0 typeParametersOpt .same := by unfold typeParametersOpt; infer_instance

/-- Something is passed up to a delimiter that closes the first one. -/
theorem length_afterMatching_lt {opening closing : TokenKind} {depth : Nat}
    {ahead behind : List Token} (h : afterMatching opening closing depth ahead = some behind) :
    behind.length < ahead.length := by
  fun_induction afterMatching opening closing depth ahead with
  | case1 depth => cases h
  | case2 depth token ahead hk ih => exact Nat.lt_succ_of_lt (ih h)
  | case3 token ahead hk hk' => cases h
  | case4 token ahead hk hk' =>
    cases h
    exact Nat.lt_succ_self _
  | case5 token ahead hk hk' depth ih => exact Nat.lt_succ_of_lt (ih h)
  | case6 depth token ahead hk hk' ih => exact Nat.lt_succ_of_lt (ih h)

instance : Seats base 0 annotationArguments .same := by
  unfold annotationArguments
  refine .onAhead fun ahead _ => ?_
  split
  · next behind h =>
    have hlength := length_afterMatching_lt h
    obtain ⟨count, hcount⟩ := Nat.exists_eq_succ_of_ne_zero (Nat.sub_ne_zero_of_lt hlength)
    have hsolid : Seats base 1 (inNode .annotationArgs (bumpMany (ahead.length - behind.length)))
        .solid := by
      rw [hcount]
      infer_instance
    exact (hsolid.from (Nat.zero_lt_of_lt hlength)).mono fun _ _ => Ending.Allows.of_solid
  · exact seatsFrom

/-- An annotation has a name if there is a token behind its `@`. -/
instance : Seats base 2 annotationUse .solid := by unfold annotationUse; infer_instance

instance : Seats base 0 modifiers .loose := by
  have h (base : Builder) : Seats base 0 (do
      let ahead ← look id
      let isLabel := kindAt ahead 1 == .colon || kindAt ahead 1 == .arrow
      if kindAt ahead 0 == .kwDefault && isLabel then return false
      else if (kindAt ahead 0).isModifier then
        bump
        return true
      else if kindAt ahead 0 == .atSign && kindAt ahead 1 == .ident then
        annotationUse
        return true
      else return false) .same := by
    refine .look fun ahead _ => ?_
    dsimp only [id]
    split
    · exact seatsFrom
    · split
      · exact seatsFrom
      · split
        · next hk =>
          have hsolid : Seats base 2 (annotationUse >>= fun _ => pure true) .solid := inferInstance
          rw [Bool.and_eq_true] at hk
          have hne : kindAt ahead 1 ≠ .eof := by rw [eq_of_beq hk.2]; nofun
          exact (hsolid.from (lt_length_of_kindAt hne)).mono fun _ _ => Ending.Allows.of_solid
        · exact seatsFrom
  unfold modifiers
  infer_instance

instance : Seats base 0 parameter .solid := by unfold parameter; dsimp only; infer_instance

instance : Seats base 0 formalParameters .solid := by
  unfold formalParameters; dsimp only; infer_instance

/-! ### Expressions -/

section

variable (sub : Nonterminal → Parse Unit) [∀ base construct, Seats base 0 (sub construct) .solid]

instance : Seats base 0 (arguments sub) .solid := by unfold arguments; dsimp only; infer_instance

instance : Seats base 0 (variableInitializer sub) .solid := by
  unfold variableInitializer; infer_instance

instance : Seats base 0 (arrayInit sub) .solid := by unfold arrayInit; infer_instance

instance : Seats base 0 lambdaParameters .solid := by
  unfold lambdaParameters; dsimp only; infer_instance

instance : Seats base 0 (lambda sub) .solid := by unfold lambda; infer_instance

instance : Seats base 0 (arrayLengths sub) .same := by
  unfold arrayLengths; dsimp only; infer_instance

/-- A new array has a dimension, since its node is begun at a bracket. -/
instance : Seats base 0 (isAt .lBracket >>= fun here =>
    if here = true then aroundSince base.checkpoint .newArray do
      arrayLengths sub
      if ← isAt .lBrace then sub .arrayInit
    else aroundSince base.checkpoint .newObject do
      arguments sub
      if ← isAt .lBrace then sub .classBody) .solid := by
  refine .look fun ahead _ => ?_
  split
  · next h =>
    refine SeatsFrom.around (by decide) fun base => ?_
    exact SeatsFrom.bind (b := .same) (seatsFrom_whileAt h) fun _ => inferInstance
  · exact seatsFrom

instance : Seats base 1 (newExpr sub) .solid := by
  rw [newExpr_eq]
  infer_instance

instance : Seats base 1 (memberOf sub base.checkpoint) .solid := by
  unfold memberOf
  refine .look fun ahead hk => ?_
  have hone {step : Parse Unit} [h : Seats base 1 step .solid] : SeatsFrom base ahead step .solid :=
    h.from hk
  dsimp only [id]
  split
  · next h =>
    have hne : kindAt ahead 1 ≠ .eof := by rw [h]; nofun
    split
    · exact seatsFrom_two hne
    · exact seatsFrom_two hne
  · exact hone
  · next h => exact seatsFrom_two (by rw [h]; nofun)
  · next h => exact seatsFrom_two (by rw [h]; nofun)
  · next h => exact seatsFrom_two (by rw [h]; nofun)
  · next h => exact seatsFrom_two (by rw [h]; nofun)
  · exact hone

instance : Seats base 0 (postfixPart sub base.checkpoint) .same := by
  unfold postfixPart
  refine .look fun ahead _ => ?_
  have hone {step : Parse Bool} [h : Seats base 1 step .solid] (hk : kindAt ahead 0 ≠ .eof) :
      SeatsFrom base ahead step .same :=
    (h.from (lt_length_of_kindAt hk)).mono fun _ _ => Ending.Allows.of_solid
  split
  · next h => exact hone (by rw [h]; nofun)
  · next h => exact hone (by rw [h]; nofun)
  · next h => exact hone (by rw [h]; nofun)
  · next h => exact hone (by rw [h]; nofun)
  · next h => exact hone (by rw [h]; nofun)
  · exact seatsFrom

instance : Seats base 1 (namedOperand sub) .solid := by
  unfold namedOperand; infer_instance

instance (kind : NodeKind) [Evaluates (isInner kind)] :
    Seats base 1 (selfOperand sub kind) .solid := by
  unfold selfOperand; infer_instance

instance : Seats base 0 primitiveOperand .solid := by
  unfold primitiveOperand; infer_instance

theorem ne_eof_of_isLiteral {kind : TokenKind} (h : kind.isLiteral = true) : kind ≠ .eof := by
  rintro rfl
  cases h

instance : Seats base 0 (primary sub) .solid := by
  unfold primary
  refine .look fun ahead _ => ?_
  split
  · next h => exact seatsFrom_one (by rw [h]; nofun)
  · next h => exact seatsFrom_one (by rw [h]; nofun)
  · next h => exact seatsFrom_one (by rw [h]; nofun)
  · next h => exact seatsFrom_one (by rw [h]; nofun)
  · next h => exact seatsFrom_one (by rw [h]; nofun)
  · exact seatsFrom
  · next h => exact seatsFrom_one (by rw [h]; nofun)
  · split
    · next hl => exact seatsFrom_one (ne_eof_of_isLiteral hl)
    · exact seatsFrom

instance : Seats base 0 (postfixExpr sub) .solid := by
  unfold postfixExpr; infer_instance

instance : Seats base 1 (castExpr sub) .solid := by unfold castExpr; infer_instance

instance : Seats base 0 (unaryExpr sub) .solid := by
  unfold unaryExpr
  refine .look fun ahead _ => ?_
  dsimp only [id]
  split
  · next h => exact seatsFrom_one (by rw [h]; nofun)
  · next h => exact seatsFrom_one (by rw [h]; nofun)
  · next h => exact seatsFrom_one (by rw [h]; nofun)
  · next h => exact seatsFrom_one (by rw [h]; nofun)
  · next h => exact seatsFrom_one (by rw [h]; nofun)
  · next h => exact seatsFrom_one (by rw [h]; nofun)
  · next h => exact seatsFrom_one (by rw [h]; nofun)
  · exact seatsFrom

instance : Seats base 1 (typeTest base.checkpoint) .solid := by
  unfold typeTest; infer_instance

instance (precedence : Nat) : Seats base 0 (operatorPart sub base.checkpoint precedence) .same := by
  unfold operatorPart
  refine .look fun ahead _ => ?_
  split
  · exact seatsFrom
  · next operator h =>
    split
    · exact seatsFrom
    · split
      · have htest : Seats base 0 (typeTest base.checkpoint >>= fun _ => pure true) .solid := by
          unfold typeTest
          infer_instance
        exact htest.same.from (Nat.zero_le _)
      · have hbinary : Seats base 0 (aroundSince base.checkpoint .binaryExpr (do
            bumpMany operator.width
            sub (.binary (operator.precedence + 1))) >>= fun _ => pure true) .solid := inferInstance
        exact hbinary.same.from (Nat.zero_le _)

instance (precedence : Nat) : Seats base 0 (binaryExpr sub precedence) .solid := by
  unfold binaryExpr; infer_instance

instance : Seats base 0 (conditionalExpr sub) .solid := by
  unfold conditionalExpr; infer_instance

instance : Seats base 0 (expression sub) .solid := by
  have h (base : Builder) : Seats base 0 (do
      match ← look assignmentWidth? with
      | none => pure ()
      | some width =>
        aroundSince base.checkpoint .assignExpr do
          bumpMany width
          sub .expression) .same := by
    refine .look fun ahead _ => ?_
    split
    · exact seatsFrom
    · next width _ =>
      have hassign : Seats base 0 (aroundSince base.checkpoint .assignExpr do
          bumpMany width
          sub .expression) .solid := inferInstance
      exact hassign.same.from (Nat.zero_le _)
  unfold expression
  infer_instance

end

/-! ### Statements -/

section

variable (sub : Nonterminal → Parse Unit) [∀ base construct, Seats base 0 (sub construct) .solid]

instance : Seats base 0 (variableDeclarators sub) .solid := by
  unfold variableDeclarators; infer_instance

instance : Seats base 0 (localVariables sub) .solid := by
  unfold localVariables; infer_instance

instance : Seats base 0 (condition sub) .solid := by unfold condition; infer_instance

instance : Seats base 0 (expressionList sub) .solid := by unfold expressionList; infer_instance

instance : Seats base 0 (expressionStmt sub) .solid := by unfold expressionStmt; infer_instance

instance : Seats base 1 (ifStmt sub) .solid := by unfold ifStmt; infer_instance

instance : Seats base 1 (whileStmt sub) .solid := by unfold whileStmt; infer_instance

instance : Seats base 1 (doStmt sub) .solid := by unfold doStmt; infer_instance

instance : Seats base 0 (forInit sub) .loose := by unfold forInit; infer_instance

instance : Seats base 0 (forEachHeader sub) .solid := by unfold forEachHeader; infer_instance

instance : Seats base 0 (forHeader sub) .loose := by
  unfold forHeader; dsimp only; infer_instance

instance : Seats base 1 (forStmt sub) .solid := by
  rw [forStmt_eq]
  infer_instance

instance : Seats base 1 (returnStmt sub) .solid := by
  unfold returnStmt; dsimp only; infer_instance

instance : Seats base 1 (throwStmt sub) .solid := by unfold throwStmt; infer_instance

instance (kind : NodeKind) [Evaluates (isInner kind)] : Seats base 1 (jumpStmt kind) .solid := by
  unfold jumpStmt; infer_instance

instance : Seats base 1 (syncStmt sub) .solid := by unfold syncStmt; infer_instance

instance : Seats base 1 (assertStmt sub) .solid := by
  unfold assertStmt; dsimp only; infer_instance

instance : Seats base 2 (labeledStmt sub) .solid := by unfold labeledStmt; infer_instance

instance : Seats base 0 (resources sub) .same := by unfold resources; infer_instance

instance : Seats base 1 (catchClause sub) .solid := by unfold catchClause; infer_instance

instance : Seats base 1 (tryStmt sub) .solid := by
  unfold tryStmt; dsimp only; infer_instance

variable [∀ construct, Keeps Conserved (sub construct)]
  (declaration : Checkpoint → Parse Unit) [∀ place, Keeps Conserved (declaration place)]
  [∀ base : Builder, Seats base 0 (declaration base.checkpoint) .solid]

instance : Seats base 0 (blockStatement sub declaration) .solid := by
  unfold blockStatement; infer_instance

instance (ends : List TokenKind) : Seats base 0 (blockStatements sub declaration ends) .same := by
  unfold blockStatements; infer_instance

instance : Seats base 0 (block sub declaration) .solid := by unfold block; infer_instance

instance : Seats base 0 (arrowBody sub) .solid := by unfold arrowBody; infer_instance

instance : Seats base 1 (switchCase sub declaration) .solid := by
  unfold switchCase; dsimp only; infer_instance

instance : Seats base 1 (switchStmt sub declaration) .solid := by
  unfold switchStmt; infer_instance

instance : Seats base 0 (statement sub declaration) .solid := by
  unfold statement
  refine .look fun ahead _ => ?_
  dsimp only [id]
  split
  · exact seatsFrom
  · next h => exact seatsFrom_one (by rw [h]; nofun)
  · next h => exact seatsFrom_one (by rw [h]; nofun)
  · next h => exact seatsFrom_one (by rw [h]; nofun)
  · next h => exact seatsFrom_one (by rw [h]; nofun)
  · next h => exact seatsFrom_one (by rw [h]; nofun)
  · next h => exact seatsFrom_one (by rw [h]; nofun)
  · next h => exact seatsFrom_one (by rw [h]; nofun)
  · next h => exact seatsFrom_one (by rw [h]; nofun)
  · next h => exact seatsFrom_one (by rw [h]; nofun)
  · next h => exact seatsFrom_one (by rw [h]; nofun)
  · next h => exact seatsFrom_one (by rw [h]; nofun)
  · next h => exact seatsFrom_one (by rw [h]; nofun)
  · next h => exact seatsFrom_one (by rw [h]; nofun)
  · split
    · next h => exact seatsFrom_two (by rw [h]; nofun)
    · exact seatsFrom
  · exact seatsFrom

end

/-! ### Declarations -/

/-- An annotation without a name is the last thing of a text. -/
theorem annotationUse_end (input : Input) (token : Token) (builder : Builder)
    (errors : List ParseError) : ∃ node, annotationUse input ⟨[token], builder, errors⟩ =
      (some (), ⟨[], builder.push node, errors⟩) := ⟨_, rfl⟩

section

variable (sub : Nonterminal → Parse Unit) [∀ base construct, Seats base 0 (sub construct) .solid]

instance : Seats base 0 implementsOpt .same := by unfold implementsOpt; infer_instance

instance : Seats base 1 (classDecl sub) .solid := by
  unfold classDecl; dsimp only; infer_instance

instance : Seats base 1 (interfaceDecl sub) .solid := by
  unfold interfaceDecl; dsimp only; infer_instance

instance : Seats base 1 (enumDecl sub) .solid := by unfold enumDecl; infer_instance

instance : Seats base 2 (annotationDecl sub) .solid := by
  unfold annotationDecl; infer_instance

instance : Seats base 0 (typeDeclaration sub base.checkpoint) .solid := by
  unfold typeDeclaration
  refine .look fun ahead _ => ?_
  dsimp only [id]
  split
  · next h => exact seatsFrom_one (by rw [h]; nofun)
  · split
    · next h => exact seatsFrom_one (by rw [h]; nofun)
    · split
      · next h => exact seatsFrom_one (by rw [h]; nofun)
      · split
        · next h => exact seatsFrom_two (by rw [h.2]; nofun)
        · exact seatsFrom

/-- There is no semicolon behind an annotation without a name, so this has one. -/
instance (what : String) :
    Seats base 0 (elementValue sub >>= fun _ => expect .semicolon what) .solid := by
  unfold elementValue
  rw [bind_assoc]
  refine .look fun ahead _ => ?_
  split
  · exact seatsFrom
  · next h =>
    match ahead, h with
    | [], h => cases h
    | [token], _ =>
      rintro start before input ⟨ahead, builder, errors⟩ rfl hs
      obtain ⟨node, hn⟩ := annotationUse_end input token builder errors
      rw [bind_of_some hn]
      refine hs.leaves ?_
      exact (Builder.adds_push builder node).above
    | token :: next :: rest, _ =>
      have hnamed : Seats base 2 (annotationUse >>= fun _ => expect .semicolon what) .solid :=
        inferInstance
      exact hnamed.from (Nat.le_add_left 2 rest.length)
  · exact seatsFrom

instance : Seats base 0 (methodRest sub) .solid := by
  unfold methodRest; dsimp only; infer_instance

instance : Seats base 0 (initializerBlock sub) .solid := by
  unfold initializerBlock; infer_instance

instance : Seats base 0 (methodOrFields sub base.checkpoint) .solid := by
  unfold methodOrFields; infer_instance

instance : Seats base 0 (typedMember sub base.checkpoint) .solid := by
  unfold typedMember; dsimp only; infer_instance

instance : Seats base 0 (member sub) .solid := by unfold member; infer_instance

variable [∀ construct, Keeps Conserved (sub construct)]

instance : Seats base 0 (members sub) .same := by unfold members; infer_instance

instance : Seats base 0 (classBody sub) .solid := by unfold classBody; infer_instance

instance : Seats base 0 (enumConstant sub) .solid := by
  unfold enumConstant; dsimp only; infer_instance

instance : Seats base 0 (enumBody sub) .solid := by
  unfold enumBody; dsimp only; infer_instance

end

instance : Seats base 0 packageDecl .solid := by unfold packageDecl; infer_instance

instance : Seats base 1 importDecl .solid := by unfold importDecl; dsimp only; infer_instance

/-! ### The whole grammar -/

/-- A construct seats what it builds if the constructs within it do. -/
theorem seats_nonterminalWith (sub : Nonterminal → Parse Unit)
    [∀ base construct, Seats base 0 (sub construct) .solid]
    [∀ construct, Keeps Conserved (sub construct)] (construct : Nonterminal) :
    Seats base 0 (nonterminalWith sub construct) .solid := by
  unfold nonterminalWith
  cases construct <;> infer_instance

instance seats_nonterminalAtMost (depth : Nat) (construct : Nonterminal) :
    Seats base 0 (nonterminalAtMost depth construct) .solid := by
  induction depth generalizing base construct with
  | zero => unfold nonterminalAtMost; infer_instance
  | succ depth ih => exact seats_nonterminalWith (nonterminalAtMost depth) construct

instance (construct : Nonterminal) : Seats base 0 (nonterminal construct) .solid := by
  unfold nonterminal; infer_instance

instance : Seats base 0 topLevelDeclaration .solid := by
  unfold topLevelDeclaration; infer_instance

instance : Seats base 0 compilationUnit .same := by
  unfold compilationUnit; dsimp only; infer_instance

end Parser

/-! ### The trees of texts -/

namespace Tree

variable (layout : CommentLayout)

mutual

/-- Comments do not unseat a tree. -/
theorem Seated.attachWith : (tree : Tree) → {behind : List Token} → tree.Seated behind →
    (tree.attachWith layout).Seated behind
  | .node kind anchor extent comments children, behind, h => by
    obtain ⟨attached, ha⟩ :=
      exists_attachHere layout (.node kind anchor extent comments (attachAll layout children))
    rw [Tree.attachWith, ha, withComments]
    by_cases hk : kind = .token
    · rw [Seated, if_pos hk] at h ⊢
      rw [h]
      rfl
    · obtain ⟨hempty, hlast, hchildren⟩ := (seated_node hk).1 h
      refine (seated_node hk).2 ⟨?_, ?_, SeatedAll.attachAll children hchildren⟩
      · rwa [attachAll_eq_map, List.map_eq_nil_iff]
      · rw [attachAll_eq_map, List.getLast?_map]
        intro last hl
        obtain ⟨other, ho, rfl⟩ := Option.map_eq_some_iff.1 hl
        rw [tokens_attachWith]
        exact hlast other ho
  | .error region comments, behind, h => by
    obtain ⟨attached, ha⟩ := exists_attachHere layout (.error region comments)
    rw [Tree.attachWith, ha, withComments]
    exact h

theorem SeatedAll.attachAll : (trees : List Tree) → {behind : List Token} →
    SeatedAll behind trees → SeatedAll behind (Tree.attachAll layout trees)
  | [], _, _ => trivial
  | child :: rest, behind, h => by
    rw [SeatedAll] at h
    rw [Tree.attachAll, SeatedAll, tokensOf_attachAll]
    exact ⟨Seated.attachWith child h.1, SeatedAll.attachAll rest h.2⟩

end

end Tree

/-- A tree with children is seated before comments are attached to it. -/
theorem seated_bareTree {text : String} (h : (bareTree text).children ≠ []) :
    ∃ behind, (bareTree text).Seated behind := by
  have hsome := Parser.succeeds_compilationUnit (.of text) (.start (tokenize text))
  have hseats (base : Builder) : Parser.Seats base 0 Parser.compilationUnit .same := inferInstance
  have hcomposite := Parser.composite_startState (tokenize text)
  have hs := (hseats _).seats (.of text) _ (Nat.zero_le _) (Parser.State.sits_self hcomposite)
  have hroot : bareTree text =
      (Parser.compilationUnit (.of text) (.start (tokenize text))).2.builder.finish := rfl
  have hkind : (bareTree text).kind ≠ .token := by
    rw [(shaped_bareTree text).1]
    decide
  generalize Parser.compilationUnit (.of text) (.start (tokenize text)) = result at hsome hs hroot
  obtain ⟨_ | value, after⟩ := result
  · cases hsome
  obtain ⟨-, added, ⟨frame, -, -, hc, hb⟩, -, hseated, hlast⟩ := hs
  have hc : frame.children = added := hc
  rw [hroot, hb] at hkind h ⊢
  refine ⟨after.ahead, (Tree.seated_node hkind).2 ⟨fun hnil => absurd hnil h, ?_, ?_⟩⟩
  · exact hc ▸ hlast
  · exact hc ▸ hseated

/-- The tree of a text with significant tokens is seated. -/
theorem seated_root {text : String} {options : ParseOptions}
    (h : (parseSource text options).root.children ≠ []) :
    ∃ behind, (parseSource text options).root.Seated behind := by
  simp only [parseSource] at h ⊢
  split
  · next hc =>
    rw [if_pos hc, Tree.attachComments, Tree.children_attachWith, Tree.attachAll_eq_map, Ne,
      List.map_eq_nil_iff] at h
    obtain ⟨behind, hs⟩ := seated_bareTree h
    exact ⟨behind, Tree.Seated.attachWith _ _ hs⟩
  · next hc =>
    rw [if_neg hc] at h
    exact seated_bareTree h

/-- What the tree of a text is made of is seated, and its lines ascend. -/
theorem lined_of_mem_children (text : String) (options : ParseOptions) {child : Tree}
    (hc : child ∈ (parseSource text options).root.children) : child.Lined := by
  have hroot : (parseSource text options).root.Lined := by
    refine ⟨seated_root (List.ne_nil_of_mem hc), ?_⟩
    rw [tokens_root_parseSource]
    exact (ascending_tokenize text).sublist (List.filter_sublist.map _)
  exact hroot.of_mem_descendants (Tree.mem_descendants_of_mem_children hc)

end JavaGraph

/-!
## Where the nodes of a text are

The extent of a node is kept up to date as children come and go, while its lines and its column are
looked up at the nodes below it. All of these are those of the tokens that the node covers, which
follow each other among the significant tokens of the text. Comments move nothing.
-/

namespace JavaGraph

namespace Tree

/-- A node covers consecutive tokens of a stream, and tells where the first of them begins and on
which line the last one does. A node that covers nothing has no extent. -/
structure PlacedIn (node : Tree) (stream : List Token) : Prop where
  consecutive : node.tokens <:+: stream
  empty : node.tokens = [] → node.extent = none
  bounds : ∀ first last, node.tokens.head? = some first → node.tokens.getLast? = some last →
    node.extent = some ⟨first.index, last.index⟩ ∧ node.line = first.line ∧
      node.column = first.column ∧ node.lastLine = last.line

variable {tree node : Tree} {behind : List Token}

/-- A seated tree is where its tokens are, if it knows their extent. -/
theorem Seated.placedIn {stream : List Token} (h : tree.Seated behind)
    (he : tree.extent = Extent.ofTokens? tree.tokens) (ht : tree.tokens <:+: stream) :
    tree.PlacedIn stream := by
  refine ⟨ht, fun hnil => ?_, fun first last hf hl => ?_⟩
  · rw [he, hnil, Extent.ofTokens?_nil]
  · have hbegins := Seated.begins tree h first (by rw [List.head?_append, hf, Option.some_or]; rfl)
    exact ⟨he.trans (Extent.ofTokens?_eq_some.2 ⟨first, last, hf, hl, rfl⟩), hbegins.1, hbegins.2,
      Seated.lastLine tree h last hl⟩

theorem extent_attachWith (layout : CommentLayout) (tree : Tree) :
    (tree.attachWith layout).extent = tree.extent := by
  cases tree with
  | node kind anchor extent comments children =>
    obtain ⟨attached, ha⟩ :=
      exists_attachHere layout (.node kind anchor extent comments (attachAll layout children))
    rw [attachWith, ha]
    rfl
  | error region comments =>
    obtain ⟨attached, ha⟩ := exists_attachHere layout (.error region comments)
    rw [attachWith, ha]
    rfl

end Tree

/-- Every node of the tree of a text knows the extent of its tokens. -/
theorem extent_of_mem_root (text : String) (options : ParseOptions) {node : Tree}
    (hn : node ∈ (parseSource text options).root.descendants) :
    node.extent = Extent.ofTokens? node.tokens := by
  simp only [parseSource] at hn
  split at hn
  · rw [Tree.attachComments, Tree.descendants_attachWith] at hn
    obtain ⟨bare, hb, rfl⟩ := List.mem_map.1 hn
    rw [Tree.extent_attachWith, Tree.tokens_attachWith]
    exact (measured_bareTree text bare hb).extent
  · exact (measured_bareTree text node hn).extent

/-- Every node of the tree of a text is where its tokens are. -/
theorem placedIn_of_mem_descendants (text : String) (options : ParseOptions) {node : Tree}
    (hn : node ∈ (parseSource text options).root.descendants) :
    node.PlacedIn ((tokenize text).filter Token.isSignificant) := by
  have hextent := extent_of_mem_root text options hn
  rw [← tokens_root_parseSource text options]
  by_cases hc : (parseSource text options).root.children = []
  · -- Only the root is left, and it covers nothing.
    have hkind := kind_root text options
    generalize (parseSource text options).root = root at hc hkind hn
    cases root with
    | error region comments => cases hkind
    | node kind anchor extent comments children =>
      obtain rfl : children = [] := hc
      obtain rfl : kind = .compilationUnit := hkind
      obtain rfl : node = _ := List.mem_singleton.1 hn
      refine ⟨List.infix_rfl, fun _ => hextent, fun first last hf => ?_⟩
      cases hf
  · obtain ⟨behind, hs⟩ := seated_root hc
    obtain ⟨rest, hnode⟩ := Tree.Seated.of_mem_descendants _ hs node hn
    exact hnode.placedIn hextent (Tree.Seated.infix_tokens _ hs node hn)

/-- Nodes that cover nothing change nothing, though the line and the column of a class are looked up
at such a one, which was begun at a token behind it. -/
theorem placedIn_emptyNodes :
    let text := "// c\nclass A \x7b\n void m() \x7b\n for (;;)\n x = 1;\n \x7d\n\x7d\n#"
    let nodes := (parseSource text {}).root.descendants
    (∀ node ∈ nodes, node.PlacedIn ((tokenize text).filter Token.isSignificant)) ∧
      (nodes.filter (·.tokens.isEmpty)).map (·.kind) =
        [.modifiers, .modifiers, .forInit, .forUpdate] ∧
      (nodes.filter fun node => node.kind = .classDecl || node.kind = .forStmt || node.isError).map
          (fun node => (node.extent, node.line, node.column, node.lastLine)) =
        [(some ⟨2, 32⟩, 2, 0, 7), (some ⟨16, 28⟩, 4, 1, 5), (some ⟨34, 34⟩, 8, 0, 8)] :=
  ⟨fun _ => placedIn_of_mem_descendants _ {}, by decide +kernel, by decide +kernel⟩

end JavaGraph
