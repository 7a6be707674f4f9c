import JavaGraph.Proofs.Parser.BracketsGrammar
import JavaGraph.Proofs.Parser.FormingGrammar
/-!
# Statements and declarations form trees

A declaration is begun behind its modifiers, and a member behind a type as well. None of these is a
name, so that the first name of a member is its own.
-/

namespace JavaGraph

namespace Parser

open Parse

set_option synthInstance.maxSize 8192

variable {base : Builder} {moved : List Tree} {ahead : List Token}

/-! ### Statements -/

section

variable (sub : Nonterminal → Parse Unit) [hsub : Promises sub]

/-- A name is expected first. -/
theorem formsFrom_variableDeclarator :
    FormsFrom ahead (inNode .variableDeclarator do
      expectIdent
      dimensions
      if ← eat .assign then variableInitializer sub) fun _ =>
        OneNode .variableDeclarator fun children _ => Tree.BeginsNamed children := by
  have hrest : Forming (do
      dimensions
      if ← eat .assign then variableInitializer sub) := inferInstance
  have hnamed : FormsFrom ahead (do
      expectIdent
      dimensions
      if ← eat .assign then variableInitializer sub) fun _ added _ => Tree.BeginsNamed added := by
    refine (formsFrom_expect (by decide) _).bind ?_
    rintro - added rest - ⟨name, rfl, hk⟩
    exact (hrest.forms rest).mono fun _ more _ _ _ => ⟨name, more, rfl, hk⟩
  exact formsFrom_inNode rfl hnamed

theorem formsFrom_variableDeclarators :
    FormsFrom ahead (variableDeclarators sub) fun _ added _ => Tree.BeginsVariable added := by
  have hdeclarator : Forming (inNode .variableDeclarator do
      expectIdent
      dimensions
      if ← eat .assign then variableInitializer sub) := inferInstance
  have hround (ahead : List Token) : FormsFrom ahead (do
      inNode .variableDeclarator do
        expectIdent
        dimensions
        if ← eat .assign then variableInitializer sub
      eat .comma) fun _ added _ => Tree.BeginsVariable added := by
    refine (formsFrom_variableDeclarator sub).bind ?_
    rintro - added rest - ⟨declarator, rfl, hk, hn⟩
    have hcomma : FormsFrom rest (eat .comma) fun _ _ _ => True := forming
    exact hcomma.mono fun _ more _ _ _ => ⟨declarator, more, rfl, hk, hn⟩
  unfold variableDeclarators commaSeparated
  refine FormsFrom.loop (hround ahead) ?_
  rintro - added - more rest ⟨declarator, others, rfl, hk, hn⟩
  exact ⟨declarator, others ++ more, rfl, hk, hn⟩

instance : Forming (variableDeclarators sub) := .of_forms fun _ => formsFrom_variableDeclarators sub

instance : Forming (localVariables sub) := by unfold localVariables; infer_instance

instance : Forming (condition sub) := by unfold condition; infer_instance

instance : Forming (expressionList sub) := by unfold expressionList; infer_instance

instance : Forming (expressionStmt sub) := by unfold expressionStmt; infer_instance

instance : Forming (ifStmt sub) := by unfold ifStmt; infer_instance

instance : Forming (whileStmt sub) := by unfold whileStmt; infer_instance

instance : Forming (doStmt sub) := by unfold doStmt; infer_instance

instance : Forming (forInit sub) := by unfold forInit; infer_instance

instance : Forming (forEachHeader sub) := by unfold forEachHeader; infer_instance

instance : Forming (forHeader sub) := by unfold forHeader; infer_instance

/-- A loop is a node around its keyword and parenthesis. -/
instance : Forming (forStmt sub) := by
  rw [forStmt_eq]
  refine ⟨fun ahead => formsFrom_checkpoint fun base => solid_bump.grows.bind ?_⟩
  rintro - added middle ⟨keyword, rfl, -, hkeyword⟩
  have hexpect : FormsFrom middle (expect .lParen "`(`") fun _ => Solid := by
    refine (formsFrom_expect (by decide) _).mono ?_
    rintro - added rest - ⟨token, rfl, -⟩ first hf
    cases hf
    rfl
  refine hexpect.grows.bind ?_
  rintro - added rest ⟨parenthesis, rfl, -, hparenthesis⟩
  have hfirm := (hkeyword.append hparenthesis).firm
  refine growsFrom_look (.ite (fun _ => ?_) fun _ => ?_)
  · exact (growsFrom_around rfl hfirm).mono fun _ _ _ _ _ => trivial
  · exact (growsFrom_around rfl hfirm).mono fun _ _ _ _ _ => trivial

instance : Forming (returnStmt sub) := by unfold returnStmt; dsimp only; infer_instance

instance : Forming (throwStmt sub) := by unfold throwStmt; infer_instance

instance : Forming (jumpStmt .breakStmt) := by unfold jumpStmt; infer_instance

instance : Forming (jumpStmt .continueStmt) := by unfold jumpStmt; infer_instance

instance : Forming (syncStmt sub) := by unfold syncStmt; infer_instance

instance : Forming (assertStmt sub) := by unfold assertStmt; dsimp only; infer_instance

instance : Forming (labeledStmt sub) := by unfold labeledStmt; infer_instance

instance : Forming (resources sub) := by unfold resources; infer_instance

instance : Forming (catchClause sub) := by unfold catchClause; infer_instance

instance : Forming (tryStmt sub) := by unfold tryStmt; dsimp only; infer_instance

instance : Forming (arrowBody sub) := by unfold arrowBody; infer_instance

/-- The declaration of a type goes on with its modifiers. -/
class Continues (declaration : Checkpoint → Parse Unit) : Prop where
  grows : ∀ {base moved ahead}, Tree.Firm moved →
    GrowsFrom base moved ahead (declaration base.checkpoint) fun _ _ _ => True

/-- A declaration begins with its modifiers. -/
theorem forming_declared (declaration : Checkpoint → Parse Unit) [hd : Continues declaration] :
    Forming (do
      let place ← checkpoint
      modifiers
      declaration place) := by
  refine ⟨fun ahead => formsFrom_checkpoint fun base => formsFrom_modifiers.grows.bind ?_⟩
  rintro - added rest ⟨more, rfl, -, hone⟩
  exact hd.grows hone.firm

variable [∀ construct, Keeps Conserved (sub construct)] (declaration : Checkpoint → Parse Unit)
  [∀ place, Keeps Conserved (declaration place)] [Continues declaration]

instance : Forming (blockStatement sub declaration) := by
  have hdeclared := forming_declared declaration
  unfold blockStatement
  infer_instance

instance (ends : List TokenKind) : Forming (blockStatements sub declaration ends) := by
  unfold blockStatements; infer_instance

instance : Forming (block sub declaration) := by unfold block; infer_instance

instance : Forming (switchCase sub declaration) := by
  unfold switchCase; dsimp only; infer_instance

instance : Forming (switchStmt sub declaration) := by unfold switchStmt; infer_instance

instance : Forming (statement sub declaration) := by
  unfold statement
  refine ⟨fun ahead => formsFrom_look ?_⟩
  dsimp only [id]
  split <;> exact forming

end

/-! ### Declarations -/

section

variable (sub : Nonterminal → Parse Unit) [hsub : Promises sub]

instance : Forming implementsOpt := by unfold implementsOpt; infer_instance

instance : Forming (classDecl sub) := by unfold classDecl; dsimp only; infer_instance

instance : Forming (interfaceDecl sub) := by unfold interfaceDecl; dsimp only; infer_instance

instance : Forming (enumDecl sub) := by unfold enumDecl; infer_instance

instance : Forming (annotationDecl sub) := by unfold annotationDecl; infer_instance

instance : Continues (typeDeclaration sub) where
  grows hm := by
    have haround {base : Builder} {moved : List Tree} {ahead : List Token} {kind : NodeKind}
        {step : Parse Unit} [Forming step] (hk : isPlain kind = true) (hm : Tree.Firm moved) :
        GrowsFrom base moved ahead (aroundSince base.checkpoint kind step) fun _ _ _ => True :=
      (growsFrom_around hk hm).mono fun _ _ _ _ _ => trivial
    have hfail (ahead : List Token) : FormsFrom ahead (do
        errorExpected "type declaration"
        fail) fun _ : Unit => fun _ _ => True := forming
    unfold typeDeclaration
    exact growsFrom_look (.ite (fun _ => haround rfl hm) fun _ => .ite (fun _ => haround rfl hm)
      fun _ => .ite (fun _ => haround rfl hm) fun _ => .ite (fun _ => haround rfl hm)
        fun _ => (hfail _).grows.mono fun _ _ _ _ _ => trivial)

/-! ### Members -/

/-- What a member is begun behind: modifiers, and further trees without a name. -/
def Head : Goal := fun added _ =>
  (∃ child others, added = child :: others) ∧ Tree.Nameless added

theorem nameless_of_kind {node : Tree} {kind : NodeKind} (hk : node.kind = kind)
    (ht : kind ≠ .token) (hv : kind ≠ .variableDeclarator) : Tree.Nameless [node] := by
  intro tree htree
  rw [List.mem_singleton] at htree
  subst htree
  rw [Tree.token?_of_kind_ne (hk ▸ ht)]
  exact ⟨nofun, hk ▸ hv⟩

theorem Head.append {added more : List Tree} {middle rest : List Token} (h : Head added middle)
    (hm : Tree.Nameless more) : Head (added ++ more) rest := by
  obtain ⟨⟨child, others, rfl⟩, hn⟩ := h
  exact ⟨⟨child, others ++ more, rfl⟩, List.forall_mem_append.2 ⟨hn, hm⟩⟩

/-- A step that adds what has no name keeps the head of a member one. -/
theorem FormsFrom.grows_head {α : Type} {step : Parse α} (hm : Head moved ahead)
    (h : FormsFrom ahead step fun _ added _ => Tree.Nameless added) :
    GrowsFrom base moved ahead step fun _ => Head := by
  refine h.grows.mono ?_
  rintro - added rest - ⟨more, rfl, -, hn⟩
  exact hm.append hn

instance : Forming (elementValue sub) := by
  unfold elementValue
  refine ⟨fun ahead => formsFrom_look ?_⟩
  split <;> exact forming

instance : Forming (methodRest sub) := by unfold methodRest; dsimp only; infer_instance

instance : Forming (initializerBlock sub) := by unfold initializerBlock; infer_instance

/-- A method or constructor is begun behind its head, at its name. -/
theorem growsFrom_function {kind : NodeKind} (hk : kind = .methodDecl ∨ kind = .constructorDecl)
    (hm : Head moved ahead) (hi : kindAt ahead 0 = .ident) :
    GrowsFrom base moved ahead (aroundSince base.checkpoint kind do
      bump
      methodRest sub) fun _ _ _ => True := by
  have hnamed : FormsFrom ahead (do
      bump
      methodRest sub) fun _ added _ => Tree.BeginsNamed added := by
    obtain ⟨name, rest, rfl⟩ : ∃ name rest, ahead = name :: rest := by
      cases ahead with
      | nil => cases hi
      | cons name rest => exact ⟨name, rest, rfl⟩
    refine formsFrom_bump.bind ?_
    rintro - added middle - rfl
    have hrest : FormsFrom middle (methodRest sub) fun _ _ _ => True := forming
    exact hrest.mono fun _ more _ _ _ => ⟨name, more, rfl, hi⟩
  obtain ⟨⟨child, others, rfl⟩, hnameless⟩ := hm
  have hinner : isInner kind = true := by obtain rfl | rfl := hk <;> rfl
  refine (GrowsFrom.around hnamed hinner fun anchor extent more rest ha _ hn => ?_).mono
    fun _ _ _ _ _ => trivial
  refine (Tree.begun_function hk hnameless hn ha).proper ?_ ?_ ?_ <;>
    obtain rfl | rfl := hk <;> nofun

/-- Fields are begun behind their head, at the first variable. -/
theorem growsFrom_fields (hm : Head moved ahead) :
    GrowsFrom base moved ahead (aroundSince base.checkpoint .fieldDecl do
      variableDeclarators sub
      expect .semicolon "`;`") fun _ _ _ => True := by
  have hvariables : FormsFrom ahead (do
      variableDeclarators sub
      expect .semicolon "`;`") fun _ added _ => Tree.BeginsVariable added := by
    refine (formsFrom_variableDeclarators sub).bind ?_
    rintro - added rest - ⟨declarator, others, rfl, hk, hn⟩
    have hsemicolon : FormsFrom rest (expect .semicolon "`;`") fun _ _ _ => True := forming
    exact hsemicolon.mono fun _ more _ _ _ => ⟨declarator, others ++ more, rfl, hk, hn⟩
  obtain ⟨⟨child, others, rfl⟩, hnameless⟩ := hm
  exact (GrowsFrom.around hvariables rfl fun anchor extent more rest ha _ hv =>
    (Tree.begun_field hnameless hv ha).proper nofun nofun nofun).mono fun _ _ _ _ _ => trivial

/-- A member behind its modifiers is formed. -/
theorem growsFrom_typedMember (hm : Head moved ahead) :
    GrowsFrom base moved ahead (typedMember sub base.checkpoint) fun _ _ _ => True := by
  have hparameters (ahead : List Token) :
      FormsFrom ahead typeParametersOpt fun _ added _ => Tree.Nameless added := by
    unfold typeParametersOpt
    refine formsFrom_look (.ite (fun _ => ?_) fun _ => formsFrom_pure _ nofun)
    refine (formsFrom_inNode rfl forming).mono ?_
    rintro - added rest - ⟨node, rfl, hk, -⟩
    exact nameless_of_kind hk nofun nofun
  have hresult (ahead : List Token) : FormsFrom ahead (do
      if ← isAt .kwVoid then bump else typeRef) fun _ added _ => Tree.Nameless added := by
    refine formsFrom_look (.ite (fun hvoid => ?_) fun _ => ?_)
    · refine formsFrom_bump.mono ?_
      rintro - added rest - rfl
      cases ahead with
      | nil => nofun
      | cons token tokens =>
        intro tree htree
        obtain rfl := List.mem_singleton.1 htree
        have hk : token.kind = .kwVoid := eq_of_beq hvoid
        refine ⟨fun other ho => ?_, nofun⟩
        cases ho
        rw [hk]
        nofun
    · refine formsFrom_typeRef.mono ?_
      rintro - added rest - ⟨node, rfl, hk⟩
      exact nameless_of_kind (eq_of_beq hk) nofun nofun
  rw [typedMember_parts]
  refine (FormsFrom.grows_head hm (hparameters ahead)).bind fun _ moved ahead hm => ?_
  refine growsFrom_look (growsFrom_look (.ite (fun h => ?_) fun _ => ?_))
  · exact growsFrom_function sub (.inr rfl) hm (eq_of_beq (Bool.and_eq_true_iff.1 h).1)
  · refine (FormsFrom.grows_head hm (hresult ahead)).bind fun _ moved ahead hm => ?_
    refine growsFrom_look (growsFrom_look (.ite (fun h => ?_) fun _ => ?_))
    · exact growsFrom_function sub (.inl rfl) hm (eq_of_beq (Bool.and_eq_true_iff.1 h).1)
    · exact growsFrom_fields sub hm

/-- A member begins with its modifiers. -/
instance : Forming (member sub) := by
  have hc : Continues (typeDeclaration sub) := inferInstance
  unfold member
  refine ⟨fun ahead => formsFrom_checkpoint fun base => growsFrom_look ?_⟩
  refine .ite (fun _ => ?_) fun _ => ?_
  · have hblock : FormsFrom ahead (initializerBlock sub) fun _ _ _ => True := forming
    exact hblock.grows.mono fun _ _ _ _ _ => trivial
  · refine formsFrom_modifiers.grows.bind ?_
    rintro - added rest ⟨more, rfl, -, node, rfl, hk⟩
    refine growsFrom_look (.ite (fun _ => hc.grows (Tree.firm_singleton node)) fun _ => ?_)
    exact growsFrom_typedMember sub
      ⟨⟨node, [], rfl⟩, nameless_of_kind (eq_of_beq hk) nofun nofun⟩

variable [∀ construct, Keeps Conserved (sub construct)]

instance : Forming (members sub) := by unfold members; infer_instance

instance : Forming (classBody sub) := by unfold classBody; infer_instance

instance : Forming (enumConstant sub) := by unfold enumConstant; dsimp only; infer_instance

instance : Forming (enumBody sub) := by unfold enumBody; dsimp only; infer_instance

end

instance : Forming packageDecl := by unfold packageDecl; infer_instance

instance : Forming importDecl := by unfold importDecl; dsimp only; infer_instance

/-! ### The whole grammar -/

/-- A construct adds what is asked of it if the constructs within it do. -/
theorem promises_nonterminalWith (sub : Nonterminal → Parse Unit) [Promises sub]
    [∀ construct, Keeps Conserved (sub construct)] : Promises (nonterminalWith sub) where
  forms construct ahead := by
    cases construct with
    | expression => exact formsFrom_expression sub
    | conditional => exact formsFrom_conditionalExpr sub
    | binary precedence => exact formsFrom_binaryExpr sub precedence
    | unary => exact formsFrom_unaryExpr sub
    | arrayInit => exact formsFrom_arrayInit sub
    | block => exact (inferInstance : Forming (block sub (typeDeclaration sub))).forms ahead
    | statement => exact (inferInstance : Forming (statement sub (typeDeclaration sub))).forms ahead
    | classBody => exact (inferInstance : Forming (classBody sub)).forms ahead
    | enumBody => exact (inferInstance : Forming (enumBody sub)).forms ahead

instance promises_nonterminalAtMost (depth : Nat) : Promises (nonterminalAtMost depth) := by
  induction depth with
  | zero => exact ⟨fun _ _ => formsFrom_fail⟩
  | succ depth ih => exact promises_nonterminalWith (nonterminalAtMost depth)

instance : Promises nonterminal :=
  ⟨fun construct ahead => formsFrom_onAhead ((promises_nonterminalAtMost _).forms construct ahead)⟩

instance : Forming topLevelDeclaration := forming_declared (typeDeclaration nonterminal)

instance : Forming compilationUnit := by unfold compilationUnit; dsimp only; infer_instance

end Parser

/-! ### The trees of texts -/

/-- A file is begun at the first token that is no trivia, and that is its first significant one. -/
theorem anchored_start (text : String) {more : List Tree} {rest : List Token}
    (h : (tokenize text).filter Token.isSignificant = Tree.tokensOf more ++ rest) :
    Tree.Anchored (((tokenize text).find? fun token => !token.kind.isTrivia).getD default) []
      (Tree.tokensOf more ++ rest) := by
  intro first hf
  rw [← h, Option.mem_def] at hf
  obtain ⟨tokens, last, he, hlast, hproper⟩ := tokenize_eq_append text
  have hfind : (tokenize text).find? (fun token => !token.kind.isTrivia) = some first := by
    have hsame : tokens.filter (fun token => !token.kind.isTrivia) =
        tokens.filter Token.isSignificant :=
      List.filter_congr fun token ht => by simp [Token.isSignificant, hproper token ht]
    have hl : last.isSignificant = false := by simp [Token.isSignificant, hlast]
    rw [he, List.filter_append, List.filter_singleton, hl, Bool.cond_false, List.append_nil] at hf
    rw [he, ← List.head?_filter, List.filter_append, List.head?_append, hsame, hf, Option.some_or]
  rw [hfind, Option.getD_some]

/-- Before comments are attached, the tree of a text is formed. -/
theorem formed_bareTree (text : String) : (bareTree text).Formed := by
  have hsome := Parser.succeeds_compilationUnit (.of text) (.start (tokenize text))
  have hforming : Parser.Forming Parser.compilationUnit := inferInstance
  have hcomposite := Parser.composite_startState (tokenize text)
  have hgrown := hforming.forms _ (.of text) _ rfl hcomposite
  have hroot : bareTree text =
      (Parser.compilationUnit (.of text) (.start (tokenize text))).2.builder.finish := rfl
  generalize Parser.compilationUnit (.of text) (.start (tokenize text)) = result at hsome hgrown hroot
  obtain ⟨_ | value, after⟩ := result
  · cases hsome
  obtain ⟨added, ⟨frame, hk, ha, hc, hb⟩, ht, hformed, -⟩ := hgrown
  have hc : frame.children = [] ++ added := hc
  have htree : bareTree text = .node frame.kind frame.anchor frame.extent {} ([] ++ added) := by
    rw [hroot, hb, ← hc]
    rfl
  have hplain : Parser.isPlain frame.kind = true := by
    rw [hk]
    rfl
  have hanchored : Tree.Anchored frame.anchor [] (Tree.tokensOf added ++ after.ahead) := by
    rw [ha]
    exact anchored_start text ht
  rw [htree]
  exact Tree.formed_node.2
    ⟨fun _ => Parser.proper_of_plain hplain Tree.firm_nil hanchored, hformed⟩

namespace Tree

variable (layout : CommentLayout)

theorem map_attachWith_leaf (tokens : List Token) :
    (tokens.map leaf).map (attachWith layout) = tokens.map leaf := by
  rw [List.map_map]
  exact List.map_congr_left fun token _ => rfl

theorem anchor?_attachWith (tree : Tree) : (tree.attachWith layout).anchor? = tree.anchor? := by
  cases tree with
  | node kind anchor extent comments children =>
    obtain ⟨attached, ha⟩ :=
      exists_attachHere layout (.node kind anchor extent comments (attachAll layout children))
    rw [attachWith, ha]
    rfl
  | error region comments =>
    obtain ⟨attached, ha⟩ := exists_attachHere layout (.error region comments)
    rw [attachWith, ha]
    rfl

theorem childOfKind?_attachWith (tree : Tree) (kind : NodeKind) :
    (tree.attachWith layout).childOfKind? kind =
      (tree.childOfKind? kind).map (attachWith layout) := by
  unfold childOfKind?
  rw [children_attachWith, attachAll_eq_map, List.find?_map]
  simp only [Function.comp_def, kind_attachWith]

theorem memberName?_attachWith (tree : Tree) :
    (tree.attachWith layout).memberName? = tree.memberName? := by
  unfold memberName?
  simp only [kind_attachWith, childToken?_attachWith, childOfKind?_attachWith, Option.bind_map,
    Function.comp_def]

theorem anchorFrom_attachWith (tree : Tree) (first : Token) :
    (tree.attachWith layout).anchorFrom first = tree.anchorFrom first := by
  have hempty : (tree.attachWith layout).beginsEmpty = tree.beginsEmpty := by
    unfold beginsEmpty
    rw [children_attachWith, attachAll_eq_map, List.head?_map, Option.any_map]
    simp only [tokens_attachWith]
  unfold anchorFrom
  rw [hempty, memberName?_attachWith]

theorem binds_attachWith {precedence : Nat} {tree : Tree} (h : tree.Binds precedence) :
    (tree.attachWith layout).Binds precedence := by
  unfold Binds precedence?
  rw [kind_attachWith, childTokens_attachWith]
  exact h

/-- Comments do not change how a node is formed. -/
theorem Proper.attachWith {tree : Tree} (h : tree.Proper) : (tree.attachWith layout).Proper where
  begun := by
    intro first hf
    rw [tokens_attachWith] at hf
    rw [anchor?_attachWith, anchorFrom_attachWith, children_attachWith, attachAll_eq_map,
      List.head?_map]
    refine (h.begun first hf).imp_right ?_
    rintro ⟨child, hc, htokens, hkind⟩
    refine ⟨child.attachWith layout, by rw [Option.mem_def.1 hc]; rfl, ?_, ?_⟩
    · rw [tokens_attachWith, htokens]
    · rw [kind_attachWith, hkind]
  climbing := by
    have hchildren := children_attachWith layout tree
    have hclimbing := h.climbing
    have hleft {precedence : Nat} {left : Tree}
        (hl : left.kind = .instanceOfExpr ∨ left.Binds precedence) :
        (left.attachWith layout).kind = .instanceOfExpr ∨
          (left.attachWith layout).Binds precedence :=
      hl.imp ((kind_attachWith layout left).trans ·) (binds_attachWith layout)
    unfold Climbing at hclimbing ⊢
    rw [kind_attachWith]
    split
    · next hk =>
      rw [hk] at hclimbing
      obtain ⟨left, tokens, right, operator, ho⟩ := hclimbing
      refine ⟨_, tokens, _, operator, ?_, ho.spelled, hleft ho.left, binds_attachWith layout ho.right⟩
      rw [hchildren, ho.children, attachAll_eq_map, List.map_cons, List.map_append,
        map_attachWith_leaf, List.map_singleton]
    · next hk =>
      rw [hk] at hclimbing
      obtain ⟨left, rest, hc, hl⟩ := hclimbing
      exact ⟨_, _, by rw [hchildren, hc, attachAll], hleft hl⟩
    · trivial
  named hk := by
    rw [childTokens_attachWith]
    exact h.named ((kind_attachWith layout tree).symm.trans hk)

/-- Comments do not change how a tree is formed. -/
theorem Formed.attachWith {tree : Tree} (h : tree.Formed) : (tree.attachWith layout).Formed := by
  intro node hn hc
  rw [descendants_attachWith] at hn
  obtain ⟨other, ho, rfl⟩ := List.mem_map.1 hn
  refine (h other ho ?_).attachWith layout
  unfold isComposite at hc ⊢
  rwa [isError_attachWith, kind_attachWith] at hc

end Tree

/-- The tree of every text is formed. -/
theorem formed_root (text : String) (options : ParseOptions) :
    (parseSource text options).root.Formed := by
  simp only [parseSource]
  split
  · exact (formed_bareTree text).attachWith _
  · exact formed_bareTree text

end JavaGraph
