import JavaGraph.Proofs.Parser.BuildingGrammar
import JavaGraph.Proofs.Parser.Headers
import JavaGraph.Proofs.Parser.Termination
/-!
# What becomes of a type whose header is complete

A body in braces fails only where its lists stop before a token that closes none. Members go on up to
a closing brace or the end, so that the body of a class, an interface or an annotation type never
fails. The constants of an enum stop at the first token that begins none, and if that is not a
semicolon, the whole enum becomes an error node.
-/

namespace JavaGraph

namespace Parser

open Parse

set_option synthInstance.maxSize 8192

/-- A list whose first round stops is empty. -/
theorem loop_of_false {step : Parse Bool} {input : Input} {state : State}
    (h : step input state = (some false, state)) : loop step input state = (some (), state) := by
  simp [loop, onAhead, loopAtMost, Bind.bind, Pure.pure, h]

/-! ### Bodies -/

section

variable {α β : Type} (input : Input) {state : State}

/-- Whether a step succeeds there. -/
abbrev SucceedsAt (step : Parse α) (input : Input) (state : State) : Prop :=
  (step input state).1.isSome

theorem succeedsAt_bind {step : Parse α} {next : α → Parse β} {input : Input} {state middle : State}
    {value : α} (h : step input state = (some value, middle)) :
    SucceedsAt (step >>= next) input state ↔ SucceedsAt (next value) input middle := by
  rw [SucceedsAt, bind_of_some h]

theorem succeedsAt_finishNode {step : Parse Unit} {input : Input} {state : State} :
    SucceedsAt (do step; finishNode) input state ↔ SucceedsAt step input state := by
  simp only [SucceedsAt, Bind.bind]
  split
  · next he => rw [he]; exact Iff.rfl
  · next he => rw [he]

/-- A node is built if what stands within it is. -/
theorem succeedsAt_inNode (kind : NodeKind) (step : Parse Unit) :
    SucceedsAt (inNode kind step) input state ↔ SucceedsAt step input
      { state with builder := state.builder.start kind (state.ahead.headD input.endToken) } := by
  have hstart : startNode kind input state = (some (), { state with
      builder := state.builder.start kind (state.ahead.headD input.endToken) }) := rfl
  unfold inNode
  rw [succeedsAt_bind hstart]
  exact succeedsAt_finishNode

theorem succeedsAt_expectClosingBrace (hs : state.Significant) :
    SucceedsAt expectClosingBrace input state ↔ kindAt state.ahead 0 ∈ [.rBrace, .eof] := by
  rcases expectClosingBrace_cases input state hs with
    ⟨token, ahead, ha, hk, he⟩ | ⟨ha, errors, he⟩ | ⟨after, token, ha, hk, he, -⟩
  · simp [SucceedsAt, he, ha, kindAt, hk]
  · simp [SucceedsAt, he, ha, kindAt]
  · obtain ⟨ahead, builder, errors⟩ := state
    cases ahead with
    | nil => cases ha
    | cons first rest =>
      obtain rfl : first = token := Option.some.inj ha
      have hend : first.kind ≠ .eof := hs first (List.mem_cons_self ..)
      simp [SucceedsAt, he, kindAt, hk, hend]

/-- Members and the brace behind them. -/
theorem succeedsAt_members (hs : state.Significant) :
    SucceedsAt (do members nonterminal; expectClosingBrace) input state := by
  obtain ⟨after, he, ha, hstop⟩ := members_stop nonterminal input state hs
  rw [succeedsAt_bind he, succeedsAt_expectClosingBrace input ha]
  have := ha.stopped_iff.2 hstop
  simpa using this

/-- The body of a class comes to its end whatever stands in it. -/
theorem succeedsAt_classBody {lBrace : Token} {rest : List Token} {builder : Builder}
    {errors : List ParseError} (hk : lBrace.kind = .lBrace)
    (hs : ∀ token ∈ rest, token.kind ≠ .eof) :
    SucceedsAt (nonterminal .classBody) input ⟨lBrace :: rest, builder, errors⟩ := by
  rw [nonterminal_eq]
  refine (succeedsAt_inNode input .classBody _).2 ?_
  rw [succeedsAt_bind (expect_of_kind hk ..)]
  exact succeedsAt_members input hs

/-- The list of the constants of an enum never fails. -/
theorem succeeds_constants : Succeeds (loop Listing.constants.round) := by
  have hround : Succeeds Listing.constants.round := by
    have hat (kind : TokenKind) : Succeeds (isAt kind) := fun _ _ => rfl
    refine (hat .ident).bind fun _ => (hat .atSign).bind fun _ => ?_
    split
    · exact (succeeds_recovering _ _).bind fun _ => succeeds_eat .comma
    · exact fun _ _ => rfl
  exact fun input state => succeeds_loopAtMost hround _ input state

instance (depth : Nat) (construct : Nonterminal) {level n : Nat} {L : Likeness} :
    Agrees L level n (nonterminalAtMost depth construct) (nonterminalAtMost depth construct) := by
  induction depth generalizing level construct with
  | zero => unfold nonterminalAtMost; infer_instance
  | succ depth ih =>
    exact agrees_nonterminalWith (nonterminalAtMost depth) (nonterminalAtMost depth) construct

instance (construct : Nonterminal) {level n : Nat} {L : Likeness} :
    Agrees L level n (nonterminal construct) (nonterminal construct) :=
  Agrees.onAhead fun _ hl => Agrees.from inferInstance hl

/-- What is ahead behind the constants of an enum. -/
def behindConstants (input : Input) (ahead : List Token) : List Token :=
  (loop Listing.constants.round input ⟨ahead, .new .enumBody input.endToken, []⟩).2.ahead

/-- The constants of an enum are the same whatever has been built before. -/
theorem ahead_constants (state : State) :
    (loop Listing.constants.round input state).2.ahead = behindConstants input state.ahead := by
  have hagrees : Agrees .ahead 0 (state.ahead.length + 1) (loop Listing.constants.round)
      (loop Listing.constants.round) := by
    unfold Listing.round
    infer_instance
  have halike : Likeness.ahead.alike 0 state ⟨state.ahead, .new .enumBody input.endToken, []⟩ := rfl
  have hmatches := (hagrees.agrees input halike (Nat.lt_succ_self _)).2
  split at hmatches <;> exact hmatches

/-- The body of an enum comes to its end where its constants do. -/
theorem succeedsAt_enumBody {lBrace : Token} {rest : List Token} {builder : Builder}
    {errors : List ParseError} (hk : lBrace.kind = .lBrace)
    (hs : ∀ token ∈ rest, token.kind ≠ .eof) :
    SucceedsAt (nonterminal .enumBody) input ⟨lBrace :: rest, builder, errors⟩ ↔
      kindAt (behindConstants input rest) 0 ∈ [.semicolon, .rBrace, .eof] := by
  rw [nonterminal_eq]
  refine (succeedsAt_inNode input .enumBody _).trans ?_
  rw [succeedsAt_bind (expect_of_kind hk ..)]
  dsimp only
  generalize (builder.start .enumBody _).token lBrace = begun
  obtain ⟨_, hv⟩ := Option.isSome_iff_exists.1 (succeeds_constants input ⟨rest, begun, errors⟩)
  have hbehind := ahead_constants input ⟨rest, begun, errors⟩
  have hadvanced : Keeps Advanced (loop Listing.constants.round) := by
    unfold Listing.round
    infer_instance
  have hbegun : State.Significant ⟨rest, begun, errors⟩ := hs
  have hsignificant := hbegun.of_advanced (hadvanced.keeps input _)
  generalize hm : (loop Listing.constants.round input ⟨rest, begun, errors⟩).2 = middle at *
  refine (succeedsAt_bind (Prod.ext hv hm)).trans ?_
  rw [← hbehind]
  rcases eat_cases (by decide : TokenKind.semicolon ≠ .eof) input middle with
    ⟨token, ahead, ha, hsemicolon, he⟩ | ⟨hne, he⟩
  · have hrest : State.Significant ⟨ahead, middle.builder.token token, middle.errors⟩ :=
      fun t ht => hsignificant t (ha ▸ List.mem_cons_of_mem _ ht)
    rw [succeedsAt_bind he, ha, kindAt_cons, hsemicolon]
    exact iff_of_true (succeedsAt_members input hrest) (by decide)
  · rw [succeedsAt_bind he]
    refine (succeedsAt_expectClosingBrace input hsignificant).trans ?_
    simp [hne]

/-- Whether the body of a type comes to its end depends on the constants, if there are any. -/
def BodyEnds (kind : TypeKind) (input : Input) (rest : List Token) : Prop :=
  kind = .enumType → kindAt (behindConstants input rest) 0 ∈ [.semicolon, .rBrace, .eof]

theorem succeedsAt_body {kind : TypeKind} {lBrace : Token} {rest : List Token} {builder : Builder}
    {errors : List ParseError} (hk : lBrace.kind = .lBrace)
    (hs : ∀ token ∈ rest, token.kind ≠ .eof) :
    SucceedsAt (nonterminal kind.body) input ⟨lBrace :: rest, builder, errors⟩ ↔
      BodyEnds kind input rest := by
  cases kind with
  | enumType =>
    exact (succeedsAt_enumBody input hk hs).trans ⟨fun h _ => h, fun h => h rfl⟩
  | classType | interfaceType | annotationType =>
    exact iff_of_true (succeedsAt_classBody input hk hs) nofun

end

/-! ### Declarations -/

/-- The header of a declaration is read up to its body. -/
theorem declaration_header (header : TypeHeader) (rest : List Token) (input : Input)
    (builder : Builder) (errors : List ParseError) :
    ∃ added after, declaration header.kind input
        ⟨header.words ++ header.name :: (header.clauses ++ header.lBrace :: rest), builder, errors⟩ =
          nonterminal header.kind.body input ⟨header.lBrace :: rest, after, errors⟩ ∧
      builder.Adds (header.words.map .leaf ++ .leaf header.name :: added) after := by
  obtain ⟨begun, hb, hwords⟩ := bumpMany_adds header.words
    (header.name :: (header.clauses ++ header.lBrace :: rest)) input builder errors
  obtain ⟨added, after, hc, hclauses⟩ := header.clauses_written.reads (header.lBrace :: rest)
    header.lBrace_kind input (begun.token header.name) errors
  have hname := Builder.adds_push begun (.leaf header.name)
  refine ⟨added, after, ?_, hwords.trans (hname.trans hclauses)⟩
  have hlength : header.kind.words.length = header.words.length := by
    rw [← header.words_kind, List.length_map]
  unfold declaration
  rw [hlength, bind_of_some hb, expectIdent, bind_of_some (expect_of_kind header.name_kind ..),
    bind_of_some hc]

/-- The words of a header begin a type declaration. -/
theorem atTypeKeyword_words (header : TypeHeader) (rest : List Token) :
    atTypeKeyword (header.words ++ rest) = true := by
  have hw := header.words_kind
  generalize header.words = words at hw
  generalize header.kind = kind at hw
  cases kind with
  | classType | interfaceType | enumType =>
    obtain ⟨word, rfl, hk⟩ := List.map_eq_singleton_iff.1 hw
    simp [atTypeKeyword, kindAt, hk]
  | annotationType =>
    obtain ⟨sign, more, rfl, hs, hm⟩ := List.map_eq_cons_iff.1 hw
    obtain ⟨word, rfl, hk⟩ := List.map_eq_singleton_iff.1 hm
    simp [atTypeKeyword, kindAt, hs, hk]

/-- No word of a header is taken for the name of the type. -/
theorem words_ne_ident (header : TypeHeader) : ∀ word ∈ header.words, word.kind ≠ .ident := by
  intro word hm hk
  have hmem : TokenKind.ident ∈ header.kind.words := by
    rw [← header.words_kind, ← hk]
    exact List.mem_map_of_mem hm
  revert hmem
  cases header.kind <;> decide

/-- A node with the modifiers, the words and the name of a header in front is what it declares. -/
theorem declaredBy_of_children (header : TypeHeader) {node modifiers : Tree} {added : List Tree}
    (hk : node.kind = header.kind.node) (hm : modifiers.kind = .modifiers)
    (hc : node.children = modifiers :: (header.words.map .leaf ++ .leaf header.name :: added)) :
    header.DeclaredBy node := by
  have hnone : modifiers.token? = none := by
    cases modifiers with
    | node kind anchor extent comments children =>
      cases hm
      rfl
    | error region comments => rfl
  have hwords : (header.words.map Tree.leaf).filterMap Tree.token? = header.words := by
    rw [List.filterMap_map]
    exact List.filterMap_some
  refine ⟨hk, ?_⟩
  unfold Tree.childToken? Tree.childTokens
  rw [hc, List.filterMap_cons_none hnone, List.filterMap_append, hwords, List.find?_append]
  rw [List.find?_eq_none.2 fun word hw => by simpa using words_ne_ident header word hw]
  simp [Tree.leaf, Tree.token?, header.name_kind]

/-- A declaration is read up to its body. What is built from there on gets into its node, whose name
is that of the header. -/
theorem topLevelDeclaration_body (header : TypeHeader) (rest : List Token) (input : Input)
    (builder : Builder) (errors : List ParseError) :
    ∃ begun, topLevelDeclaration input ⟨header.tokens ++ rest, builder, errors⟩ =
        (do nonterminal header.kind.body; finishNode) input ⟨header.lBrace :: rest, begun, errors⟩ ∧
      (builder.Composite → begun.Composite) ∧
      ∀ {more after}, begun.Adds more after → ∃ node, header.DeclaredBy node ∧
        (∀ child ∈ more, child ∈ node.children) ∧ builder.Adds [node] after.finishNode := by
  obtain ⟨modifiersNode, middle, hm, hmk, hmodifiers⟩ :=
    (header.modifiers_written.reads (atTypeKeyword_words header
      (header.name :: (header.clauses ++ header.lBrace :: rest)))).exists_node .modifiers input builder
        errors
  generalize hanchor : (header.words ++ header.name :: (header.clauses ++ header.lBrace ::
    rest)).headD input.endToken = anchor
  obtain ⟨added, begun, hd, hheader⟩ := declaration_header header rest input
    (middle.startAt builder.checkpoint header.kind.node anchor) errors
  refine ⟨begun, ?_, fun hb => ?_, fun {more after} hmore => ?_⟩
  · have hplace (state : State) : checkpoint input state = (some state.builder.checkpoint, state) := rfl
    have hstart (ahead : List Token) (h : ahead.headD input.endToken = anchor) :
        startNodeAt builder.checkpoint header.kind.node input ⟨ahead, middle, errors⟩ =
        (some (), ⟨ahead, middle.startAt builder.checkpoint header.kind.node anchor, errors⟩) := by
      rw [← h]
      rfl
    unfold topLevelDeclaration
    rw [header.tokens_append, bind_of_some (hplace _), modifiers_eq, bind_of_some hm,
      typeDeclaration_eq header.words_kind]
    unfold aroundSince
    rw [bind_of_some (hstart _ hanchor)]
    simp only [Bind.bind]
    rw [hd]
  · have hkind : header.kind.node ≠ .token := by cases header.kind <;> decide
    exact hheader.composite
      (Builder.composite_startAt (hmodifiers.composite hb) hkind builder.checkpoint anchor)
  · obtain ⟨frame, hk, hc, ha⟩ := Builder.adds_around hmodifiers _ _ (hheader.trans hmore)
    have hchildren : frame.toTree.children = modifiersNode :: (header.words.map .leaf ++
        .leaf header.name :: (added ++ more)) := by
      change frame.children = _
      simp [hc]
    refine ⟨frame.toTree, declaredBy_of_children header hk hmk hchildren, fun child hm => ?_, ha⟩
    rw [hchildren]
    simp [hm]

/-- A declaration is kept if its body comes to its end. Then it becomes one node, and its name is
that of the header. -/
theorem topLevelDeclaration_header (header : TypeHeader) {rest : List Token} (input : Input)
    (builder : Builder) (errors : List ParseError) (hs : ∀ token ∈ rest, token.kind ≠ .eof) :
    (SucceedsAt topLevelDeclaration input ⟨header.tokens ++ rest, builder, errors⟩ ↔
      BodyEnds header.kind input rest) ∧
    ∀ {after}, topLevelDeclaration input ⟨header.tokens ++ rest, builder, errors⟩ =
      (some (), after) → ∃ node, header.DeclaredBy node ∧ builder.Adds [node] after.builder := by
  obtain ⟨begun, hrun, -, hnode⟩ := topLevelDeclaration_body header rest input builder errors
  rw [SucceedsAt, hrun]
  refine ⟨succeedsAt_finishNode.trans (succeedsAt_body input header.lBrace_kind hs), ?_⟩
  intro after he
  have hbuilds : Builds [] (nonterminal header.kind.body) (outline header.kind.body) := inferInstance
  have hyields := hbuilds.builds input ⟨header.lBrace :: rest, begun, errors⟩ trivial
  simp only [Bind.bind] at he
  split at he
  · next done hbody =>
    rw [hbody] at hyields
    obtain ⟨more, hmore, -, -⟩ := hyields
    cases he
    obtain ⟨node, hdeclared, -, ha⟩ := hnode hmore
    exact ⟨node, hdeclared, ha⟩
  · cases he

/-! ### Files -/

theorem tokens_append_ne_nil (header : TypeHeader) (rest : List Token) :
    header.tokens ++ rest ≠ [] := by
  simp [TypeHeader.tokens]

/-- What a file begins with is its first declaration, or else the error node in the place of that. -/
theorem recovering_header (header : TypeHeader) {rest : List Token} (input : Input)
    {builder : Builder} (hb : builder.Composite) (errors : List ParseError)
    (hs : ∀ token ∈ rest, token.kind ≠ .eof) :
    ∃ first after, recovering .declaration topLevelDeclaration input
        ⟨header.tokens ++ rest, builder, errors⟩ = (some (), after) ∧
      builder.Adds [first] after.builder ∧
      (header.DeclaredBy first ↔ BodyEnds header.kind input rest) := by
  obtain ⟨hends, hdeclares⟩ := topLevelDeclaration_header header input builder errors hs
  have hbuilds : Builds [] topLevelDeclaration (nodeOf (·.isTypeDeclaration)) := inferInstance
  have hyields := hbuilds.builds input ⟨header.tokens ++ rest, builder, errors⟩ trivial
  have hcounted := ((inferInstance : Keeps Conserved topLevelDeclaration).keeps input
    ⟨header.tokens ++ rest, builder, errors⟩ hb).2.2
  have hpasses := recovering_passes input ⟨header.tokens ++ rest, builder, errors⟩
    (tokens_append_ne_nil header rest)
  have hconserved := (inferInstance : Keeps Conserved
    (recovering .declaration topLevelDeclaration)).keeps input
    ⟨header.tokens ++ rest, builder, errors⟩ hb
  generalize hrun : topLevelDeclaration input ⟨header.tokens ++ rest, builder, errors⟩ = result
    at hyields hcounted
  unfold recovering at hpasses hconserved ⊢
  rw [hrun] at hpasses hconserved ⊢
  obtain ⟨_ | value, after⟩ := result
  · -- An enum whose body fails is taken back, and one error node stands for all of it.
    have hfails : ¬ BodyEnds header.kind input rest := by
      rw [← hends, SucceedsAt, hrun]
      nofun
    obtain ⟨error, errors', -, heq⟩ := recover_eq .declaration builder.checkpoint
      (header.tokens ++ rest).length input after hcounted
    have hrewind : builder.Adds [] (after.builder.rewind builder.checkpoint) :=
      Builder.Above.adds_rewind hyields
    dsimp only at hpasses hconserved ⊢
    rw [heq] at hpasses hconserved ⊢
    generalize (after.builder.abandon builder.checkpoint).1 ++ (skipTo .declaration
      (!(after.ahead.length < (header.tokens ++ rest).length)) 0 after.ahead).1 = region at *
    generalize (skipTo .declaration (!(after.ahead.length < (header.tokens ++ rest).length)) 0
      after.ahead).2 = behind at *
    rcases errorNode?_cases input.source region error with ⟨hn, -⟩ | ⟨node, hn, hkind, -⟩
    · rw [hn] at hconserved
      have hsame : behind = header.tokens ++ rest := by
        have htokens := hconserved.2.1
        unfold State.tokens at htokens
        rw [Option.elim_none, hrewind.tokens, Tree.tokensOf, List.append_nil] at htokens
        exact List.append_cancel_left htokens
      rw [hsame] at hpasses
      exact absurd hpasses (Nat.lt_irrefl _)
    · rw [hn]
      refine ⟨node, _, rfl, hrewind.trans (Builder.adds_push _ node), iff_of_false ?_ hfails⟩
      rintro ⟨hk, -⟩
      rw [hkind] at hk
      revert hk
      cases header.kind <;> decide
  · obtain ⟨node, hdeclared, ha⟩ := hdeclares hrun
    have hsome : SucceedsAt topLevelDeclaration input ⟨header.tokens ++ rest, builder, errors⟩ := by
      rw [SucceedsAt, hrun]
      rfl
    exact ⟨node, after, rfl, ha, iff_of_true hdeclared (hends.1 hsome)⟩

/-- The next token has another kind. -/
theorem isAt_of_ne {kind : TokenKind} {state : State} (h : kindAt state.ahead 0 ≠ kind)
    (input : Input) : isAt kind input state = (some false, state) := by
  have hne : (kindAt state.ahead 0 == kind) = false := beq_eq_false_iff_ne.2 h
  simp [isAt, look, hne]

theorem eat_of_ne {kind : TokenKind} {state : State} (h : kindAt state.ahead 0 ≠ kind)
    (input : Input) : eat kind input state = (some false, state) := by
  unfold eat
  rw [bind_of_some (isAt_of_ne h input)]
  rfl

/-- A file without a package is its imports and declarations. -/
theorem compilationUnit_of_no_package {state : State} (h : atPackageDeclaration state.ahead = false)
    (input : Input) : compilationUnit input state =
      (loop Listing.imports.round >>= fun _ => loop Listing.declarations.round) input state := by
  have hlook : look atPackageDeclaration input state = (some false, state) := by simp [look, h]
  rw [Listing.placed.file, bind_of_some hlook]
  rfl

/-- No import is left where the next token is none. -/
theorem loop_imports_of_ne {state : State} (h : kindAt state.ahead 0 ≠ .kwImport) (input : Input) :
    loop Listing.imports.round input state = (some (), state) := by
  apply loop_of_false
  dsimp only [Listing.round]
  rw [bind_of_some (isAt_of_ne h input)]
  rfl

/-- A declaration stands where neither the end nor a semicolon does. -/
theorem round_declarations {input : Input} {state middle : State} (hend : kindAt state.ahead 0 ≠ .eof)
    (hsemicolon : kindAt state.ahead 0 ≠ .semicolon)
    (h : recovering .declaration topLevelDeclaration input state = (some (), middle)) :
    Listing.declarations.round input state = (some true, middle) := by
  dsimp only [Listing.round, atEnd]
  rw [bind_of_some (isAt_of_ne hend input), if_neg Bool.false_ne_true,
    bind_of_some (eat_of_ne hsemicolon input), if_neg Bool.false_ne_true, bind_of_some h]
  rfl

/-- Behind the first declaration of a file, its tree only gets more children. -/
theorem compilationUnit_first (header : TypeHeader) {rest : List Token} {input : Input}
    {builder : Builder} {errors : List ParseError} {middle : State} {first : Tree}
    (h : recovering .declaration topLevelDeclaration input ⟨header.tokens ++ rest, builder, errors⟩ =
      (some (), middle)) (ha : builder.Adds [first] middle.builder) :
    ∃ others after, compilationUnit input ⟨header.tokens ++ rest, builder, errors⟩ =
        (some (), after) ∧ builder.Adds (first :: others) after.builder := by
  have hrun : compilationUnit input ⟨header.tokens ++ rest, builder, errors⟩ =
      loop Listing.declarations.round input middle := by
    have hround := progresses_round .declarations
    have hdeclares := atTypeKeyword_words header (header.name :: (header.clauses ++ header.lBrace :: rest))
    have hbegins := header.modifiers_written.begins (beginsModified_of_atTypeKeyword hdeclares)
    have hpackage := header.modifiers_written.atPackageDeclaration_eq_false hdeclares
    rw [← header.tokens_append] at hbegins hpackage
    generalize header.tokens ++ rest = ahead at *
    have hnone : kindAt ahead 0 ≠ .kwImport := hbegins.ne (by decide)
    have hitem := round_declarations (hbegins.ne (by decide)) (hbegins.ne (by decide)) h
    have hloop := congrFun (congrFun (loop_eq Listing.declarations.round) input)
      ⟨ahead, builder, errors⟩
    rw [compilationUnit_of_no_package hpackage, bind_of_some (loop_imports_of_ne hnone input), hloop,
      bind_of_some hitem]
    rfl
  obtain ⟨_, hbuilds⟩ : ∃ outline, Builds [] (loop Listing.declarations.round) outline := by
    constructor
    dsimp only [Listing.round]
    infer_instance
  have hyields := hbuilds.builds input middle trivial
  have hsome := succeeds_compilationUnit input ⟨header.tokens ++ rest, builder, errors⟩
  rw [hrun] at hsome ⊢
  obtain ⟨_, hv⟩ := Option.isSome_iff_exists.1 hsome
  generalize loop Listing.declarations.round input middle = result at *
  obtain ⟨_ | value, after⟩ := result
  · cases hv
  · obtain ⟨others, ho, -, -⟩ := hyields
    exact ⟨others, after, rfl, ha.trans ho⟩

/-- The first declaration of a file is kept if its body comes to its end. -/
theorem compilationUnit_header (header : TypeHeader) {rest : List Token} (input : Input)
    {builder : Builder} (hb : builder.Composite) (errors : List ParseError)
    (hs : ∀ token ∈ rest, token.kind ≠ .eof) :
    ∃ first others after, compilationUnit input ⟨header.tokens ++ rest, builder, errors⟩ =
        (some (), after) ∧ builder.Adds (first :: others) after.builder ∧
      (header.DeclaredBy first ↔ BodyEnds header.kind input rest) := by
  obtain ⟨first, middle, hfirst, ha, hiff⟩ := recovering_header header input hb errors hs
  obtain ⟨others, after, he, hothers⟩ := compilationUnit_first header hfirst ha
  exact ⟨first, others, after, he, hothers, hiff⟩

end Parser

/-! ### The trees of texts -/

namespace Tree

variable (layout : CommentLayout)

theorem token?_attachWith (tree : Tree) : (tree.attachWith layout).token? = tree.token? := by
  cases tree with
  | node kind anchor extent comments children =>
    obtain ⟨attached, ha⟩ :=
      exists_attachHere layout (.node kind anchor extent comments (attachAll layout children))
    rw [attachWith, ha]
    cases kind <;> rfl
  | error region comments =>
    obtain ⟨attached, ha⟩ := exists_attachHere layout (.error region comments)
    rw [attachWith, ha]
    rfl

theorem attachAll_eq_map (trees : List Tree) :
    attachAll layout trees = trees.map (attachWith layout) := by
  induction trees with
  | nil => rfl
  | cons tree rest ih => rw [attachAll, ih, List.map_cons]

theorem childTokens_attachWith (tree : Tree) :
    (tree.attachWith layout).childTokens = tree.childTokens := by
  unfold childTokens
  rw [children_attachWith, attachAll_eq_map, List.filterMap_map]
  exact List.filterMap_congr fun child _ => token?_attachWith layout child

theorem childToken?_attachWith (tree : Tree) (kind : TokenKind) :
    (tree.attachWith layout).childToken? kind = tree.childToken? kind := by
  unfold childToken?
  rw [childTokens_attachWith]

end Tree

/-- Comments do not change what is declared. -/
theorem TypeHeader.declaredBy_attachWith (header : TypeHeader) (layout : CommentLayout)
    (node : Tree) : header.DeclaredBy (node.attachWith layout) ↔ header.DeclaredBy node := by
  unfold DeclaredBy
  rw [Tree.kind_attachWith, Tree.childToken?_attachWith]

/-- The first child of the tree of a text declares the same with and without comments. -/
theorem head?_children_root (text : String) (options : ParseOptions) (header : TypeHeader) :
    (∃ first ∈ (parseSource text options).root.children.head?, header.DeclaredBy first) ↔
      ∃ first ∈ (bareTree text).children.head?, header.DeclaredBy first := by
  simp only [parseSource]
  split
  · unfold Tree.attachComments
    rw [Tree.children_attachWith, Tree.attachAll_eq_map, List.head?_map]
    simp only [Option.mem_def, Option.map_eq_some_iff, exists_exists_and_eq_and,
      header.declaredBy_attachWith]
    exact Iff.rfl
  · exact Iff.rfl

/-- Parsing begins with the significant tokens ahead. -/
theorem Parser.startState_eq {text : String} {ahead : List Token}
    (h : (tokenize text).filter Token.isSignificant = ahead) : Parser.State.start (tokenize text) =
      ⟨ahead, (Parser.State.start (tokenize text)).builder, []⟩ := by
  rw [← h]
  rfl

/-- What is added to the node of a file are its children. -/
theorem children_bareTree {text : String} {after : Parser.State} {trees : List Tree}
    (he : Parser.compilationUnit (.of text) (.start (tokenize text)) = (some (), after))
    (ha : (Parser.State.start (tokenize text)).builder.Adds trees after.builder) :
    (bareTree text).children = trees := by
  change (Parser.compilationUnit (.of text) (.start (tokenize text))).2.builder.finish.children = _
  rw [he]
  obtain ⟨frame, -, -, hc, hb⟩ := ha
  dsimp only
  rw [hb]
  exact hc

/-- A type whose header is complete is the first child of the tree, whatever stands behind the brace
that opens its body, if only the constants of an enum end with a semicolon, a closing brace or the
text. Otherwise an error node takes the place of the enum. -/
theorem declares_header_iff (header : TypeHeader) (rest : List Token) (text : String)
    (options : ParseOptions)
    (h : (tokenize text).filter Token.isSignificant = header.tokens ++ rest) :
    (∃ first ∈ (parseSource text options).root.children.head?, header.DeclaredBy first) ↔
      (header.kind = .enumType →
        Parser.kindAt (Parser.behindConstants (.of text) rest) 0 ∈ [.semicolon, .rBrace, .eof]) := by
  rw [head?_children_root]
  have hstart := Parser.startState_eq h
  have hs : ∀ token ∈ rest, token.kind ≠ .eof := fun token hm =>
    Parser.significant_start (tokenize text) token (hstart ▸ List.mem_append_right _ hm)
  obtain ⟨first, others, after, he, ha, hiff⟩ := Parser.compilationUnit_header header (.of text)
    (Parser.composite_startState (tokenize text)) [] hs
  rw [← hstart] at he
  rw [children_bareTree he ha]
  simp only [List.head?_cons, Option.mem_some_iff, exists_eq_left']
  exact hiff

/-- The header of an enum with nothing but its name. -/
def TypeHeader.ofEnum (word name lBrace : Token) (hw : word.kind = .kwEnum)
    (hn : name.kind = .ident) (hb : lBrace.kind = .lBrace) : TypeHeader where
  kind := .enumType
  modifiers := []
  words := [word]
  name := name
  clauses := []
  lBrace := lBrace
  modifiers_written := .nil
  words_kind := by rw [List.map_singleton, hw]; rfl
  name_kind := hn
  clauses_written := .enumType .absent
  lBrace_kind := hb

/-- An enum that the text ends in is kept. -/
theorem declares_truncated_enum : ∃ (header : TypeHeader) (rest : List Token),
    (tokenize "enum E \x7b A; void").filter Token.isSignificant = header.tokens ++ rest ∧
      ∃ first ∈ (parseSource "enum E \x7b A; void" {}).root.children.head?,
        header.DeclaredBy first := by
  let tokens := (tokenize "enum E \x7b A; void").filter Token.isSignificant
  let header := TypeHeader.ofEnum (tokens.getD 0 default) (tokens.getD 1 default)
    (tokens.getD 2 default) (by decide +kernel) (by decide +kernel) (by decide +kernel)
  have htokens : tokens = header.tokens ++ tokens.drop 3 := by decide +kernel
  refine ⟨header, tokens.drop 3, htokens, ?_⟩
  exact (declares_header_iff header _ _ {} htokens).2 fun _ => by decide +kernel

/-- An enum is lost if two of its constants stand next to each other. -/
theorem not_declares_enum : ∃ (header : TypeHeader) (rest : List Token),
    (tokenize "enum E \x7b A B \x7d").filter Token.isSignificant = header.tokens ++ rest ∧
      ¬ ∃ first ∈ (parseSource "enum E \x7b A B \x7d" {}).root.children.head?,
        header.DeclaredBy first := by
  let tokens := (tokenize "enum E \x7b A B \x7d").filter Token.isSignificant
  let header := TypeHeader.ofEnum (tokens.getD 0 default) (tokens.getD 1 default)
    (tokens.getD 2 default) (by decide +kernel) (by decide +kernel) (by decide +kernel)
  have htokens : tokens = header.tokens ++ tokens.drop 3 := by decide +kernel
  refine ⟨header, tokens.drop 3, htokens, ?_⟩
  decide +kernel

end JavaGraph
