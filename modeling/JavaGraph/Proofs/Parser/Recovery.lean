import JavaGraph.Proofs.Parser.Lossless
/-!
# What single steps come to

A token that is expected is there and passed, or the step fails and leaves the tree as it is. What a
failed construct has passed goes into an error node, with what is skipped behind it. The constructs
that look for a node only once a part of it is built are put as nodes around what was built since.
-/

namespace JavaGraph.Parser

open Parse

instance : LawfulMonad Parse := .mk' Parse
  (by
    intro α step
    funext input state
    change (match step input state with
      | (some value, state) => (some value, state)
      | (none, state) => (none, state)) = _
    generalize step input state = result
    obtain ⟨_ | _, _⟩ := result <;> rfl)
  (fun _ _ => rfl)
  (by
    intro α β γ step next last
    funext input state
    simp only [Bind.bind]
    generalize step input state = result
    obtain ⟨_ | _, _⟩ := result <;> rfl)

/-! ### Tokens that are expected -/

/-- A token of the kind that is expected is passed. -/
theorem expect_of_kind {kind : TokenKind} {token : Token} (h : token.kind = kind) (what : String)
    (input : Input) (ahead : List Token) (builder : Builder) (errors : List ParseError) :
    expect kind what input ⟨token :: ahead, builder, errors⟩ =
      (some (), ⟨ahead, builder.token token, errors⟩) := by
  simp [expect, eat, isAt, Parse.look, Bind.bind, Pure.pure, kindAt, h, bump]

/-- A token of a kind is passed, or the step fails and leaves the tree as it is. -/
theorem expect_cases {kind : TokenKind} (hk : kind ≠ .eof) (what : String) (input : Input)
    (state : State) :
    (∃ token ahead, state.ahead = token :: ahead ∧ token.kind = kind ∧
      expect kind what input state =
        (some (), { state with ahead, builder := state.builder.token token })) ∨
      ∃ after, expect kind what input state = (none, after) ∧ after.builder = state.builder := by
  obtain ⟨ahead, builder, errors⟩ := state
  cases ahead with
  | nil =>
    right
    have hne : (TokenKind.eof == kind) = false := beq_eq_false_iff_ne.2 hk.symm
    simp [expect, eat, isAt, Parse.look, Bind.bind, Pure.pure, kindAt, hne, errorExpected, fail]
  | cons token ahead =>
    by_cases h : token.kind = kind
    · exact .inl ⟨token, ahead, rfl, h, expect_of_kind h what input ahead builder errors⟩
    · right
      have hne : (token.kind == kind) = false := beq_eq_false_iff_ne.2 h
      simp [expect, eat, isAt, Parse.look, Bind.bind, Pure.pure, kindAt, hne, errorExpected, fail]

/-- A body is closed by a brace or by the end, or the step fails and leaves the tree as it is. -/
theorem expectClosingBrace_cases (input : Input) (state : State)
    (hs : ∀ token ∈ state.ahead, token.kind ≠ .eof) :
    (∃ token ahead, state.ahead = token :: ahead ∧ token.kind = .rBrace ∧
      expectClosingBrace input state =
        (some (), { state with ahead, builder := state.builder.token token })) ∨
      (state.ahead = [] ∧ ∃ error, expectClosingBrace input state =
        (some (), { state with errors := state.errors ++ [error] })) ∨
      ∃ after token, state.ahead.head? = some token ∧ token.kind ≠ .rBrace ∧
        expectClosingBrace input state = (none, after) ∧ after.builder = state.builder := by
  obtain ⟨ahead, builder, errors⟩ := state
  cases ahead with
  | nil => exact .inr (.inl ⟨rfl, _, rfl⟩)
  | cons token ahead =>
    have hend : token.kind ≠ .eof := hs token (List.mem_cons_self ..)
    by_cases h : token.kind = .rBrace
    · exact .inl ⟨token, ahead, rfl, h, by
        simp [expectClosingBrace, eat, isAt, Parse.look, Bind.bind, Pure.pure, kindAt, h, bump]⟩
    · refine .inr (.inr ?_)
      have hne : (token.kind == .rBrace) = false := beq_eq_false_iff_ne.2 h
      simp [expectClosingBrace, eat, atEnd, isAt, Parse.look, Bind.bind, Pure.pure, kindAt, h, hend,
        errorExpected, fail]

/-! ### Recovery -/

/-- There is an error node for a region unless it is empty. -/
theorem errorNode?_cases (source : String) (region : List Token) (error : ParseError) :
    (Tree.errorNode? source region error = none ∧ region = []) ∨
      ∃ node, Tree.errorNode? source region error = some node ∧ node.kind = .error ∧
        node.tokens = region := by
  cases region with
  | nil => exact .inl ⟨rfl, rfl⟩
  | cons first rest =>
    obtain ⟨last, hl⟩ : ∃ last, (first :: rest).getLast? = some last :=
      ⟨_, List.getLast?_eq_some_getLast (by simp)⟩
    refine .inr ⟨_, by simp only [Tree.errorNode?, hl]; rfl, rfl, ?_⟩
    rw [Tree.tokens]

/-- What a failed step has passed, and what is skipped, are the tokens of an error node, if there are
any. -/
theorem recover_adds {input : Input} {before after : State} (resume : Resume)
    (habove : before.builder.Above after.builder) (hconserved : Conserved input before after)
    (hc : before.builder.Composite) :
    ∃ region rest builder errors,
      recover resume before.builder.checkpoint before.errors.length before.ahead.length input after =
        (some (), ⟨rest, builder, errors⟩) ∧
      before.ahead = region ++ rest ∧
      (region = [] ∧ before.builder.Adds [] builder ∨
        ∃ node error, Tree.errorNode? input.source region error = some node ∧
          node.kind = .error ∧ node.tokens = region ∧ before.builder.Adds [node] builder) := by
  obtain ⟨hcomposite, ht, hl⟩ := hconserved hc
  obtain ⟨error, errors, -, heq⟩ := recover_eq resume before.builder.checkpoint
    before.ahead.length input after hl
  have hrewind : before.builder.Adds [] (after.builder.rewind before.builder.checkpoint) :=
    Builder.Above.adds_rewind habove
  have habandon := Builder.tokens_abandon_append hcomposite before.builder.checkpoint
  have hskip := skipTo_append resume (!(after.ahead.length < before.ahead.length)) 0 after.ahead
  change Builder.tokens (after.builder.rewind before.builder.checkpoint) ++ _ = _ at habandon
  rw [hrewind.tokens, Tree.tokensOf, List.append_nil] at habandon
  unfold State.tokens at ht
  rw [← habandon, List.append_assoc, List.append_cancel_left_eq, ← hskip, ← List.append_assoc] at ht
  refine ⟨_, _, _, errors, heq, ht.symm, ?_⟩
  generalize (after.builder.abandon before.builder.checkpoint).1 ++
    (skipTo resume (!(after.ahead.length < before.ahead.length)) 0 after.ahead).1 = region
  rcases errorNode?_cases input.source region error with ⟨hn, hnil⟩ | ⟨node, hn, hkind, htokens⟩
  · rw [hn]
    exact .inl ⟨hnil, hrewind⟩
  · rw [hn]
    exact .inr ⟨node, error, hn, hkind, htokens, hrewind.trans (Builder.adds_push _ node)⟩

/-! ### Nodes around what was built -/

/-- What follows a choice follows what was chosen. -/
theorem bind_choice {α β : Type} (condition : Prop) [Decidable condition] (yes no : Parse α)
    (next : α → Parse β) :
    (if condition then yes else no) >>= next =
      if condition then yes >>= next else no >>= next := by
  split <;> rfl

/-- The node of what `new` makes is around what was built since. -/
theorem newExpr_eq (sub : Nonterminal → Parse Unit) : newExpr sub = (do
    let place ← checkpoint
    bump
    if ← isAt .less then typeArguments
    typeRefNoDimensions
    if ← isAt .lBracket then
      aroundSince place .newArray do
        arrayLengths sub
        if ← isAt .lBrace then sub .arrayInit
    else
      aroundSince place .newObject do
        arguments sub
        if ← isAt .lBrace then sub .classBody) := by
  unfold newExpr aroundSince
  simp only [bind_assoc, bind_choice, pure_bind]

/-- The node of a loop is around what was built since its keyword. -/
theorem forStmt_eq (sub : Nonterminal → Parse Unit) : forStmt sub = (do
    let place ← checkpoint
    bump
    expect .lParen "`(`"
    if ← look fun ahead => atLocalVariable ahead && atForEachColon ahead then
      aroundSince place .forEachStmt do
        forEachHeader sub
        expect .rParen "`)`"
        sub .statement
    else
      aroundSince place .forStmt do
        forHeader sub
        expect .rParen "`)`"
        sub .statement) := by
  unfold forStmt aroundSince
  simp only [bind_assoc]

end JavaGraph.Parser
