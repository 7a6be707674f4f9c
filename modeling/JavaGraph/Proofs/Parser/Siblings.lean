import JavaGraph.Proofs.Parser.BracketsGrammar
import JavaGraph.Proofs.Tree.Braces
/-!
# Methods behind methods with faults

A fault in the body of a method is to cost no more than statements of it. The method itself is kept
whatever stands in its body, because its statements go on to a closing brace or to the end. Recovery
counts braces only from where a statement has failed, so that this brace need not be the one that
closes the body.

The braces of what is parsed are properly nested node by node. So the statements stop where the body
ends if the braces are properly nested in what they have taken as it comes: in the regions that have
been skipped, and in the arguments and names of annotations. Then the members go on behind the body.
-/

namespace JavaGraph

/-- The header of a method without modifiers, parameters and a result, up to the brace that opens its
body. -/
structure MethodHeader where
  result : Token
  name : Token
  lParen : Token
  rParen : Token
  lBrace : Token
  result_kind : result.kind = .kwVoid
  name_kind : name.kind = .ident
  lParen_kind : lParen.kind = .lParen
  rParen_kind : rParen.kind = .rParen
  lBrace_kind : lBrace.kind = .lBrace

namespace MethodHeader

/-- The tokens of a header, in their order. -/
def tokens (header : MethodHeader) : List Token :=
  [header.result, header.name, header.lParen, header.rParen, header.lBrace]

/-- A node is the method that a header begins. -/
def DeclaredBy (header : MethodHeader) (node : Tree) : Prop :=
  node.kind = .methodDecl ∧ node.childToken? .ident = some header.name

end MethodHeader

namespace Parser

open Parse

set_option synthInstance.maxSize 8192

/-! ### Headers of methods -/

theorem reads_formalParameters {lParen rParen : Token} (hl : lParen.kind = .lParen)
    (hr : rParen.kind = .rParen) : ReadsFreely formalParameters () [lParen, rParen] := by
  have hclose : ReadsFreely (expect .rParen "`)`") () [rParen] := reads_expect hr _
  apply Reads.node
  exact (reads_expect hl _).then (Reads.at_kind (fun _ => hr) hclose)

/-- The parameters of a method are read up to its body. -/
theorem methodRest_header (header : MethodHeader) (rest : List Token) (input : Input)
    (builder : Builder) (errors : List ParseError) :
    ∃ added after, methodRest nonterminal input
        ⟨header.lParen :: header.rParen :: header.lBrace :: rest, builder, errors⟩ =
          nonterminal .block input ⟨header.lBrace :: rest, after, errors⟩ ∧
      builder.Adds added after := by
  obtain ⟨parameters, middle, hp, hparameters⟩ :=
    reads_formalParameters header.lParen_kind header.rParen_kind (header.lBrace :: rest) trivial
      input builder errors
  have hbrace : kindAt (header.lBrace :: rest) 0 = .lBrace := header.lBrace_kind
  obtain ⟨dimensionPairs, after, hd, hdimensions⟩ :=
    reads_dimensions .nil (header.lBrace :: rest) (by rw [hbrace]; decide) input middle errors
  refine ⟨_, after, ?_, hparameters.trans hdimensions⟩
  have hne {kind : TokenKind} (h : .lBrace ≠ kind) :
      kindAt (State.ahead ⟨header.lBrace :: rest, after, errors⟩) 0 ≠ kind := hbrace ▸ h
  simp only [List.cons_append, List.nil_append] at hp hd
  unfold methodRest
  dsimp only
  rw [bind_of_some hp, bind_of_some hd, bind_of_some (isAt_of_ne (hne (by decide)) input),
    if_neg Bool.false_ne_true, bind_of_some (eat_of_ne (hne (by decide)) input),
    if_neg Bool.false_ne_true, bind_of_some (eat_of_ne (hne (by decide)) input),
    if_neg Bool.false_ne_true]

/-- A member that begins with `void` and a name in front of a parenthesis is a method. -/
theorem typedMember_header (header : MethodHeader) (rest : List Token) (place : Checkpoint)
    (input : Input) (builder : Builder) (errors : List ParseError) :
    typedMember nonterminal place input ⟨header.tokens ++ rest, builder, errors⟩ =
      aroundSince place .methodDecl (do bump; methodRest nonterminal) input
        ⟨header.name :: header.lParen :: header.rParen :: header.lBrace :: rest,
          builder.token header.result, errors⟩ := by
  have hresult : kindAt (header.tokens ++ rest) 0 = .kwVoid := header.result_kind
  have hname : (kindAt (header.name :: header.lParen :: header.rParen :: header.lBrace :: rest) 0 ==
      .ident) = true := beq_iff_eq.2 header.name_kind
  have hparen : (kindAt (header.name :: header.lParen :: header.rParen :: header.lBrace :: rest) 1 ==
      .lParen) = true := beq_iff_eq.2 header.lParen_kind
  have hpass : bump input ⟨header.tokens ++ rest, builder, errors⟩ =
      (some (), ⟨header.name :: header.lParen :: header.rParen :: header.lBrace :: rest,
        builder.token header.result, errors⟩) := rfl
  have hnone : typeParametersOpt input ⟨header.tokens ++ rest, builder, errors⟩ =
      (some (), ⟨header.tokens ++ rest, builder, errors⟩) := by
    unfold typeParametersOpt
    rw [bind_of_some (isAt_of_ne (by rw [hresult]; decide) input)]
    rfl
  have hvoid : isAt .kwVoid input ⟨header.tokens ++ rest, builder, errors⟩ =
      (some true, ⟨header.tokens ++ rest, builder, errors⟩) := by
    simp [isAt, look, hresult]
  have hmethod : methodOrFields nonterminal place input
      ⟨header.name :: header.lParen :: header.rParen :: header.lBrace :: rest,
        builder.token header.result, errors⟩ =
      aroundSince place .methodDecl (do bump; methodRest nonterminal) input
        ⟨header.name :: header.lParen :: header.rParen :: header.lBrace :: rest,
          builder.token header.result, errors⟩ := by
    simp [methodOrFields, isAt, isAtNth, look, Bind.bind, hname, hparen]
  unfold typedMember
  dsimp only
  rw [bind_of_some hnone, bind_of_some (isAt_of_ne (by rw [hresult]; decide) input)]
  change (if (false && _) = true then _ else _ : Parse Unit) input _ = _
  rw [Bool.false_and, if_neg Bool.false_ne_true, bind_of_some hvoid, if_pos rfl,
    bind_of_some hpass, hmethod]

/-- A node with modifiers and the result and the name of a header in front is what it declares. -/
theorem declaredBy_of_methodChildren (header : MethodHeader) {node modifiers : Tree}
    {added : List Tree} (hk : node.kind = .methodDecl) (hm : modifiers.kind = .modifiers)
    (hc : node.children = modifiers :: .leaf header.result :: .leaf header.name :: added) :
    header.DeclaredBy node := by
  have hnone : modifiers.token? = none := Tree.token?_of_kind_ne (by rw [hm]; decide)
  refine ⟨hk, ?_⟩
  unfold Tree.childToken? Tree.childTokens
  rw [hc, List.filterMap_cons_none hnone]
  simp [Tree.leaf, Tree.token?, header.result_kind, header.name_kind]

/-- The header of a method is read up to its body. What is built from there on gets into its node. -/
theorem member_header (header : MethodHeader) (rest : List Token) (input : Input)
    (builder : Builder) (errors : List ParseError) :
    ∃ begun, member nonterminal input ⟨header.tokens ++ rest, builder, errors⟩ =
        (do nonterminal .block; finishNode) input ⟨header.lBrace :: rest, begun, errors⟩ ∧
      (builder.Composite → begun.Composite) ∧
      ∀ {more after}, begun.Adds more after → ∃ node, header.DeclaredBy node ∧
        (∀ child ∈ more, child ∈ node.children) ∧ builder.Adds [node] after.finishNode := by
  have hresult : kindAt (header.tokens ++ rest) 0 = .kwVoid := header.result_kind
  have hstop : ReadsBefore modifierRound false [] (header.tokens ++ rest) :=
    readsBefore_modifierRound_stop (by rw [hresult]; rfl) (by simp [hresult])
  obtain ⟨modifiersNode, middle, hm, hmk, hmodifiers⟩ :=
    hstop.done.exists_node .modifiers input builder errors
  rw [List.nil_append] at hm
  obtain ⟨added, begun, hr, hrest⟩ := methodRest_header header rest input
    (((middle.token header.result).startAt builder.checkpoint .methodDecl header.name).token
      header.name) errors
  have hresultAdds := Builder.adds_push middle (.leaf header.result)
  have hnameAdds := Builder.adds_push
    ((middle.token header.result).startAt builder.checkpoint .methodDecl header.name)
    (.leaf header.name)
  refine ⟨begun, ?_, fun hb => ?_, fun {more after} hmore => ?_⟩
  · have hplace : checkpoint input ⟨header.tokens ++ rest, builder, errors⟩ =
        (some builder.checkpoint, ⟨header.tokens ++ rest, builder, errors⟩) := rfl
    have hlook : look id input ⟨header.tokens ++ rest, builder, errors⟩ =
        (some (header.tokens ++ rest), ⟨header.tokens ++ rest, builder, errors⟩) := rfl
    have hkeyword : look atTypeKeyword input ⟨header.tokens ++ rest, middle, errors⟩ =
        (some false, ⟨header.tokens ++ rest, middle, errors⟩) := by
      simp [look, atTypeKeyword, hresult]
    have hblock : ¬ (kindAt (header.tokens ++ rest) 0 = .lBrace ∨
        kindAt (header.tokens ++ rest) 0 = .kwStatic ∧ kindAt (header.tokens ++ rest) 1 = .lBrace) := by
      simp [hresult]
    unfold member
    rw [bind_of_some hplace, bind_of_some hlook, if_neg hblock, modifiers_eq, bind_of_some hm,
      bind_of_some hkeyword, if_neg Bool.false_ne_true, typedMember_header]
    have hstart : startNodeAt builder.checkpoint .methodDecl input
        ⟨header.name :: header.lParen :: header.rParen :: header.lBrace :: rest,
          middle.token header.result, errors⟩ =
        (some (), ⟨header.name :: header.lParen :: header.rParen :: header.lBrace :: rest,
          (middle.token header.result).startAt builder.checkpoint .methodDecl header.name, errors⟩) :=
      rfl
    have hpass (builder : Builder) : bump input
        ⟨header.name :: header.lParen :: header.rParen :: header.lBrace :: rest, builder, errors⟩ =
        (some (), ⟨header.lParen :: header.rParen :: header.lBrace :: rest,
          builder.token header.name, errors⟩) := rfl
    unfold aroundSince
    rw [bind_of_some hstart, bind_assoc, bind_of_some (hpass _)]
    simp only [Bind.bind]
    rw [hr]
  · have hcomposite := (hmodifiers.trans hresultAdds).composite hb
    have hmethod := Builder.composite_startAt hcomposite
      (by decide : NodeKind.methodDecl ≠ .token) builder.checkpoint header.name
    exact (hnameAdds.trans hrest).composite hmethod
  · obtain ⟨frame, hk, hc, ha⟩ := Builder.adds_around (hmodifiers.trans hresultAdds) _ _
      (hnameAdds.trans (hrest.trans hmore))
    have hchildren : frame.toTree.children = modifiersNode :: .leaf header.result ::
        .leaf header.name :: (added ++ more) := by
      change frame.children = _
      simp [hc]
    refine ⟨frame.toTree, declaredBy_of_methodChildren header hk hmk hchildren, fun child hm => ?_, ha⟩
    rw [hchildren]
    simp [hm]

/-! ### Bodies of methods -/

/-- Where a list has stopped, its body is closed. -/
theorem expectClosingBrace_stopped (input : Input) {state : State} (hs : state.Significant)
    (hstop : state.Stopped) :
    ∃ closing after, expectClosingBrace input state = (some (), after) ∧
      state.builder.Adds closing after.builder ∧ after.ahead = state.ahead.tail := by
  rcases expectClosingBrace_cases input state hs with
    ⟨token, ahead, ha, -, he⟩ | ⟨ha, error, he⟩ | ⟨after, token, hhead, hne, -, -⟩
  · exact ⟨[.leaf token], _, he, Builder.adds_push state.builder (.leaf token), by rw [ha]; rfl⟩
  · exact ⟨[], _, he, Builder.adds_nil state.builder, by rw [ha]; rfl⟩
  · exact absurd (hstop token hhead) hne

/-- What is built behind the brace that opens a body. -/
def beginBody (kind : NodeKind) (lBrace : Token) (builder : Builder) : Builder :=
  (builder.within [{ kind, anchor := lBrace }]).push (.leaf lBrace)

theorem composite_beginBody {kind : NodeKind} (hk : kind ≠ .token) (lBrace : Token)
    {builder : Builder} (hc : builder.Composite) : (beginBody kind lBrace builder).Composite :=
  Builder.composite_push (composite_within hc hk) _

/-- A body whose list has stopped becomes a node with the items of the list. -/
theorem body_stopped {kind : NodeKind} {list : Parse Unit} {lBrace : Token}
    (hk : lBrace.kind = .lBrace) {rest : List Token} {input : Input} {builder : Builder}
    {errors : List ParseError} {middle : State} {added : List Tree}
    (hl : list input ⟨rest, beginBody kind lBrace builder, errors⟩ = (some (), middle))
    (ha : (beginBody kind lBrace builder).Adds added middle.builder)
    (hs : middle.Significant) (hstop : middle.Stopped) :
    ∃ node after, inNode kind (do
          expect .lBrace "`\x7b`"
          list
          expectClosingBrace) input ⟨lBrace :: rest, builder, errors⟩ = (some (), after) ∧
      node.kind = kind ∧ (∀ child ∈ added, child ∈ node.children) ∧
      builder.Adds [node] after.builder ∧ after.ahead = middle.ahead.tail := by
  obtain ⟨closing, done, hd, hclosing, hahead⟩ := expectClosingBrace_stopped input hs hstop
  have hbrace := Builder.adds_push (builder.within [{ kind, anchor := lBrace }]) (.leaf lBrace)
  obtain ⟨frame, hfk, hfc, hadds⟩ := Builder.adds_finishNode (hbrace.trans (ha.trans hclosing))
  have hstart : startNode kind input ⟨lBrace :: rest, builder, errors⟩ =
      (some (), ⟨lBrace :: rest, builder.within [{ kind, anchor := lBrace }], errors⟩) := rfl
  have hopening := expect_of_kind hk "`\x7b`" input rest
    (builder.within [{ kind, anchor := lBrace }]) errors
  refine ⟨frame.toTree, { done with builder := done.builder.finishNode }, ?_, hfk, fun child hm => ?_,
    hadds, hahead⟩
  · unfold inNode
    rw [bind_of_some hstart, bind_assoc, bind_of_some hopening, bind_assoc]
    exact (bind_of_some hl).trans (bind_of_some hd)
  · change child ∈ frame.children
    simp [hfc, hm]

/-- Statements take what is ahead up to where their list stops, at a closing brace or at the end.
Braces may be missing in them only at the end. -/
structure StopsAt (left : List Token) (statements : List Tree) (ahead : List Token) : Prop where
  tokens : ahead = Tree.tokensOf statements ++ left
  stopped : ∀ token ∈ left.head?, token.kind = .rBrace
  settled : LeftOpen (left = []) [] (statements.filterMap Tree.token?)
  bracketed : ∀ child ∈ statements, child.Bracketed (left = [])

/-- A block is read up to where its statements stop. -/
theorem block_stops {lBrace : Token} (hk : lBrace.kind = .lBrace) {rest : List Token} (input : Input)
    {builder : Builder} (hc : builder.Composite) (errors : List ParseError)
    (hs : ∀ token ∈ rest, token.kind ≠ .eof) :
    ∃ node statements left after, nonterminal .block input ⟨lBrace :: rest, builder, errors⟩ =
        (some (), after) ∧
      builder.Adds [node] after.builder ∧ (∀ child ∈ statements, child ∈ node.children) ∧
      StopsAt left statements rest ∧ after.ahead = left.tail := by
  have hcomposite := composite_beginBody (nofun : NodeKind.block ≠ .token) lBrace hc
  obtain ⟨middle, hm, hsignificant, hstopped⟩ := blockStatements_stop nonterminal
    (typeDeclaration nonterminal) input ⟨rest, beginBody .block lBrace builder, errors⟩ hs
  have hsettles (base : Builder) : Settles base [] [] []
      (blockStatements nonterminal (typeDeclaration nonterminal) []) := inferInstance
  have hopen := (hsettles _).settles input _ trivial
    (State.open_self ⟨rest, beginBody .block lBrace builder, errors⟩ hcomposite hs)
  have hconserved := (inferInstance : Keeps Conserved
    (blockStatements nonterminal (typeDeclaration nonterminal) [])).keeps input
      ⟨rest, beginBody .block lBrace builder, errors⟩ hcomposite
  rw [hm] at hopen hconserved
  obtain ⟨statements, ha, hleft, -, hbracketed⟩ := hopen.exists_added
  have htokens : rest = Tree.tokensOf statements ++ middle.ahead := by
    have hsame := hconserved.2.1
    unfold State.tokens at hsame
    rw [ha.tokens, List.append_assoc] at hsame
    exact (List.append_cancel_left hsame).symm
  obtain ⟨node, after, he, -, hchildren, hadds, hahead⟩ := body_stopped hk hm ha hsignificant hstopped
  refine ⟨node, statements, middle.ahead, after, ?_, hadds, hchildren, ⟨htokens, hstopped,
    hleft.mono And.left, fun child hm => (hbracketed child hm).mono And.left⟩, hahead⟩
  rw [nonterminal_eq]
  exact he

/-- Statements stop at the brace that closes their block, if braces are kept in what has been taken
as it comes. -/
theorem StopsAt.eq_of_keepsBraces {left body behind : List Token} {statements : List Tree}
    {closing : Token} (h : StopsAt left statements (body ++ closing :: behind))
    (hn : Nested (body.filter (·.kind.isBrace))) (hc : closing.kind = .rBrace)
    (hk : ∀ child ∈ statements, child.KeepsBraces) : left = closing :: behind := by
  obtain ⟨more, hmore, hshort⟩ := Tree.exists_braceDepth?_of_leftOpen
    (fun child hm hnone => (h.bracketed child hm).exists_braceDepth? (hk child hm) hnone) h.settled
  have hbody := braceDepth?_of_nested hn
  cases left with
  | nil =>
    -- All tokens would be those of the statements, which close no brace that is not open.
    have htokens := h.tokens
    rw [List.append_nil] at htokens
    rw [← htokens, braceDepth?_append, hbody, Option.bind_some, braceDepth?_closing hc] at hmore
    cases hmore
  | cons token rest =>
    obtain rfl : more = 0 := by
      by_contra hne
      cases hshort hne
    obtain ⟨-, rfl, rfl⟩ := append_closing_inj hbody hmore hc (h.stopped token rfl) h.tokens
    rfl

/-! ### Members -/

/-- A method with a body is kept whatever stands in it. It ends at the brace that closes its body, if
braces are kept in what has been taken as it comes. -/
theorem member_method (header : MethodHeader) {rest : List Token} (input : Input)
    {builder : Builder} (hb : builder.Composite) (errors : List ParseError)
    (hs : ∀ token ∈ rest, token.kind ≠ .eof) :
    ∃ node after, member nonterminal input ⟨header.tokens ++ rest, builder, errors⟩ =
        (some (), after) ∧
      header.DeclaredBy node ∧ builder.Adds [node] after.builder ∧ after.Significant ∧
      ∀ {body closing behind}, rest = body ++ closing :: behind →
        Nested (body.filter (·.kind.isBrace)) → closing.kind = .rBrace → node.KeepsBraces →
          after.ahead = behind := by
  obtain ⟨begun, hrun, hbegun, hnode⟩ := member_header header rest input builder errors
  obtain ⟨block, statements, left, done, he, ha, hstatements, hstops, hahead⟩ :=
    block_stops header.lBrace_kind input (hbegun hb) errors hs
  obtain ⟨node, hdeclared, hchildren, hadds⟩ := hnode ha
  refine ⟨node, { done with builder := done.builder.finishNode }, ?_, hdeclared, hadds, ?_, ?_⟩
  · rw [hrun, bind_of_some he]
    rfl
  · intro token ht
    rw [show done.ahead = left.tail from hahead] at ht
    refine hs token ?_
    rw [hstops.tokens]
    exact List.mem_append_right _ (List.mem_of_mem_tail ht)
  · rintro body closing behind rfl hn hc hk
    have hblock : block ∈ node.children := hchildren block (List.mem_singleton_self block)
    have hkeeps : ∀ child ∈ statements, child.KeepsBraces := fun child hm =>
      hk.of_mem (Tree.mem_descendants_of_mem (Tree.mem_descendants_of_mem_children hblock)
        (hstatements child hm))
    have hleft := hstops.eq_of_keepsBraces hn hc hkeeps
    dsimp only
    rw [hahead, hleft, List.tail_cons]

/-- A member stands where neither a closing brace, nor the end, nor a semicolon does. -/
theorem round_members {input : Input} {state middle : State} (hb : kindAt state.ahead 0 ≠ .rBrace)
    (hend : kindAt state.ahead 0 ≠ .eof) (hsemicolon : kindAt state.ahead 0 ≠ .semicolon)
    (h : member nonterminal input state = (some (), middle)) :
    Listing.members.round input state = (some true, middle) := by
  have hitem : recovering .statement (member nonterminal) input state = (some (), middle) := by
    simp only [recovering, h]
  have hkind : (kindAt state.ahead 0 == .rBrace || kindAt state.ahead 0 == .eof) = false := by
    simp [hb, hend]
  have hlook : look (fun ahead => kindAt ahead 0) input state = (some (kindAt state.ahead 0), state) :=
    rfl
  dsimp only [Listing.round]
  rw [bind_of_some hlook, hkind, if_neg Bool.false_ne_true,
    bind_of_some (eat_of_ne hsemicolon input), if_neg Bool.false_ne_true, bind_of_some hitem]
  rfl

/-- Members add to the innermost node and come to a closing brace or to the end. -/
theorem members_add (input : Input) {state : State} (hb : state.builder.Composite)
    (hs : state.Significant) :
    ∃ added after, members nonterminal input state = (some (), after) ∧
      state.builder.Adds added after.builder ∧ after.Significant ∧ after.Stopped := by
  obtain ⟨after, he, hsignificant, hstopped⟩ := members_stop nonterminal input state hs
  have hsettles (base : Builder) : Settles base [] [] [] (members nonterminal) := inferInstance
  have hopen := (hsettles _).settles input state trivial (State.open_self state hb hs)
  rw [he] at hopen
  obtain ⟨added, ha, -⟩ := hopen.exists_added
  exact ⟨added, after, he, ha, hsignificant, hstopped⟩

/-- The members behind a method are read where the method ends. -/
theorem members_method (header : MethodHeader) {rest : List Token} {input : Input}
    {builder : Builder} {errors : List ParseError} {middle : State}
    (h : member nonterminal input ⟨header.tokens ++ rest, builder, errors⟩ = (some (), middle)) :
    members nonterminal input ⟨header.tokens ++ rest, builder, errors⟩ =
      members nonterminal input middle := by
  have hround := progresses_round .members
  have hresult : kindAt (header.tokens ++ rest) 0 = .kwVoid := header.result_kind
  have hitem := round_members (by rw [hresult]; decide) (by rw [hresult]; decide)
    (by rw [hresult]; decide) h
  have hloop := congrFun (congrFun (loop_eq Listing.members.round) input)
    ⟨header.tokens ++ rest, builder, errors⟩
  change loop Listing.members.round input _ = loop Listing.members.round input middle
  rw [hloop, bind_of_some hitem]
  rfl

/-- A method behind another one is kept, if braces are kept in what has been taken as it comes within
that one. -/
theorem members_siblings (first second : MethodHeader) {body rest : List Token} {closing : Token}
    (input : Input) {builder : Builder} (hb : builder.Composite) (errors : List ParseError)
    (hs : ∀ token ∈ body ++ closing :: (second.tokens ++ rest), token.kind ≠ .eof)
    (hn : Nested (body.filter (·.kind.isBrace))) (hc : closing.kind = .rBrace) :
    ∃ node others after, members nonterminal input
        ⟨first.tokens ++ (body ++ closing :: (second.tokens ++ rest)), builder, errors⟩ =
          (some (), after) ∧
      builder.Adds (node :: others) after.builder ∧ after.Significant ∧ after.Stopped ∧
      first.DeclaredBy node ∧ (node.KeepsBraces → ∃ sibling ∈ others, second.DeclaredBy sibling) := by
  obtain ⟨node, middle, hm, hnode, ha, hsignificant, hends⟩ := member_method first input hb errors hs
  have hfirst := members_method first hm
  have hcomposite := ha.composite hb
  by_cases hk : node.KeepsBraces
  · have hahead := hends rfl hn hc hk
    obtain ⟨ahead, built, found⟩ := middle
    obtain rfl : ahead = second.tokens ++ rest := hahead
    have hrest : ∀ token ∈ rest, token.kind ≠ .eof :=
      fun token ht => hsignificant token (List.mem_append_right _ ht)
    obtain ⟨sibling, done, hd, hdeclared, ha', hdone, -⟩ :=
      member_method second input hcomposite found hrest
    obtain ⟨others, after, he, hothers, hafter⟩ :=
      members_add input (ha'.composite hcomposite) hdone
    have hsecond := members_method second hd
    exact ⟨node, sibling :: others, after, hfirst.trans (hsecond.trans he),
      ha.trans (ha'.trans hothers), hafter.1, hafter.2, hnode,
      fun _ => ⟨sibling, List.mem_cons_self .., hdeclared⟩⟩
  · obtain ⟨others, after, he, hothers, hafter⟩ := members_add input hcomposite hsignificant
    exact ⟨node, others, after, hfirst.trans he, ha.trans hothers, hafter.1, hafter.2, hnode,
      fun h => absurd h hk⟩

/-- A file that begins with a class keeps a method behind another one, if braces are kept in what has
been taken as it comes within that one. -/
theorem compilationUnit_siblings {header : TypeHeader} (hk : header.kind.body = .classBody)
    (first second : MethodHeader) {body rest : List Token} {closing : Token} (input : Input)
    {builder : Builder} (hb : builder.Composite) (errors : List ParseError)
    (hs : ∀ token ∈ first.tokens ++ (body ++ closing :: (second.tokens ++ rest)), token.kind ≠ .eof)
    (hn : Nested (body.filter (·.kind.isBrace))) (hc : closing.kind = .rBrace) :
    ∃ decl others after, compilationUnit input ⟨header.tokens ++
        (first.tokens ++ (body ++ closing :: (second.tokens ++ rest))), builder, errors⟩ =
          (some (), after) ∧
      builder.Adds (decl :: others) after.builder ∧ header.DeclaredBy decl ∧
      ∃ members ∈ decl.children, members.kind = .classBody ∧
        ∃ node ∈ members.children, first.DeclaredBy node ∧ (node.KeepsBraces →
          ∃ sibling ∈ members.children, second.DeclaredBy sibling) := by
  obtain ⟨begun, hrun, hbegun, hdecl⟩ := topLevelDeclaration_body header
    (first.tokens ++ (body ++ closing :: (second.tokens ++ rest))) input builder errors
  have hcomposite := composite_beginBody (nofun : NodeKind.classBody ≠ .token) header.lBrace
    (hbegun hb)
  obtain ⟨node, others, middle, hm, ha, hsignificant, hstopped, hfirst, hkept⟩ :=
    members_siblings first second input hcomposite errors
      (fun token ht => hs token (List.mem_append_right _ ht)) hn hc
  obtain ⟨classBody, done, he, hbk, hchildren, hadds, -⟩ :=
    body_stopped header.lBrace_kind hm ha hsignificant hstopped
  obtain ⟨decl, hdeclared, hbody, hnode⟩ := hdecl hadds
  have hitem : recovering .declaration topLevelDeclaration input ⟨header.tokens ++
      (first.tokens ++ (body ++ closing :: (second.tokens ++ rest))), builder, errors⟩ =
        (some (), { done with builder := done.builder.finishNode }) := by
    have hclass : nonterminal header.kind.body input ⟨header.lBrace :: (first.tokens ++
        (body ++ closing :: (second.tokens ++ rest))), begun, errors⟩ = (some (), done) := by
      rw [hk, nonterminal_eq]
      exact he
    have hstep : topLevelDeclaration input ⟨header.tokens ++
        (first.tokens ++ (body ++ closing :: (second.tokens ++ rest))), builder, errors⟩ =
          (some (), { done with builder := done.builder.finishNode }) := by
      rw [hrun, bind_of_some hclass]
      rfl
    simp only [recovering, hstep]
  obtain ⟨more, after, hunit, hmore⟩ := compilationUnit_first header hitem hnode
  refine ⟨decl, more, after, hunit, hmore, hdeclared, classBody,
    hbody classBody (List.mem_singleton_self classBody), hbk, node,
    hchildren node (List.mem_cons_self ..), hfirst, fun h => ?_⟩
  obtain ⟨sibling, hsibling, hdeclares⟩ := hkept h
  exact ⟨sibling, hchildren sibling (List.mem_cons_of_mem _ hsibling), hdeclares⟩

end Parser

/-! ### The trees of texts -/

namespace Tree

/-- A class at the top level of a file has a method among its members. -/
def DeclaresMethod (root : Tree) (type method : String) : Prop :=
  ∃ decl ∈ root.children, decl.kind = .classDecl ∧
    (decl.childToken? .ident).map (·.text) = some type ∧
    ∃ body ∈ decl.children, body.kind = .classBody ∧
      ∃ member ∈ body.children, member.kind = .methodDecl ∧
        (member.childToken? .ident).map (·.text) = some method

instance (root : Tree) (type method : String) : Decidable (root.DeclaresMethod type method) := by
  unfold DeclaresMethod
  infer_instance

variable (layout : CommentLayout)

theorem declaresMethod_attachWith (tree : Tree) (type method : String) :
    (tree.attachWith layout).DeclaresMethod type method ↔ tree.DeclaresMethod type method := by
  unfold DeclaresMethod
  simp only [children_attachWith, attachAll_eq_map, List.mem_map, exists_exists_and_eq_and,
    kind_attachWith, childToken?_attachWith]

theorem KeepsBraces.of_attachWith {layout : CommentLayout} {tree : Tree}
    (h : (tree.attachWith layout).KeepsBraces) : tree.KeepsBraces := by
  intro node hn hl
  have hmem : node.attachWith layout ∈ (tree.attachWith layout).descendants := by
    rw [descendants_attachWith]
    exact List.mem_map_of_mem hn
  have hloose : (node.attachWith layout).isLoose = true := by
    rw [isLoose, isError_attachWith, kind_attachWith]
    exact hl
  rw [← tokens_attachWith layout node]
  exact h _ hmem hloose

end Tree

/-- Comments do not change what is declared. -/
theorem MethodHeader.declaredBy_attachWith (header : MethodHeader) (layout : CommentLayout)
    (node : Tree) : header.DeclaredBy (node.attachWith layout) ↔ header.DeclaredBy node := by
  unfold DeclaredBy
  rw [Tree.kind_attachWith, Tree.childToken?_attachWith]

/-- The header of a class with nothing but its name. -/
def TypeHeader.ofClass (word name lBrace : Token) (hw : word.kind = .kwClass)
    (hn : name.kind = .ident) (hb : lBrace.kind = .lBrace) : TypeHeader where
  kind := .classType
  modifiers := []
  words := [word]
  name := name
  clauses := []
  lBrace := lBrace
  modifiers_written := .nil
  words_kind := by rw [List.map_singleton, hw]; rfl
  name_kind := hn
  clauses_written := .classType .absent .absent .absent
  lBrace_kind := hb

/-- A method behind another one is a member of its class whatever stands in the body of that one, if
only braces are properly nested, there and in what has been taken as it comes. -/
theorem declaresMethod_of_keepsBraces {text : String} (options : ParseOptions) {header : TypeHeader}
    {first second : MethodHeader} {body rest : List Token} {closing : Token}
    (h : (tokenize text).filter Token.isSignificant =
      header.tokens ++ (first.tokens ++ (body ++ closing :: (second.tokens ++ rest))))
    (hk : header.kind = .classType) (hc : closing.kind = .rBrace)
    (hn : Nested (body.filter (·.kind.isBrace)))
    (hb : ∀ node ∈ (parseSource text options).root.descendants, first.DeclaredBy node →
      node.KeepsBraces) :
    (parseSource text options).root.DeclaresMethod header.name.text second.name.text := by
  have hsignificant := Parser.significant_start (tokenize text)
  have hstart := Parser.startState_eq h
  rw [hstart] at hsignificant
  have hcomposite := Parser.composite_startState (tokenize text)
  obtain ⟨decl, others, after, he, ha, ⟨hdk, hname⟩, members, hm, hmk, node, hnode, hfirst, hkept⟩ :=
    Parser.compilationUnit_siblings (by rw [hk]; rfl) first second (.of text) hcomposite []
      (fun token ht => hsignificant token (List.mem_append_right _ ht)) hn hc
  rw [← hstart] at he
  have hdecl : decl ∈ (bareTree text).children := children_bareTree he ha ▸ List.mem_cons_self ..
  have hmem : node ∈ (bareTree text).descendants := Tree.mem_descendants_of_mem
    (Tree.mem_descendants_of_mem (Tree.mem_descendants_of_mem_children hdecl) hm) hnode
  have hdeclares : node.KeepsBraces →
      (bareTree text).DeclaresMethod header.name.text second.name.text := by
    intro hkeeps
    obtain ⟨sibling, hsibling, hsk, hsecond⟩ := hkept hkeeps
    exact ⟨decl, hdecl, by rw [hdk, hk]; rfl, by rw [hname]; rfl, members, hm, hmk, sibling, hsibling,
      hsk, by rw [hsecond]; rfl⟩
  unfold parseSource at hb ⊢
  dsimp only at hb ⊢
  split
  · next hattach =>
    rw [if_pos hattach] at hb
    unfold Tree.attachComments at hb ⊢
    dsimp only at hb ⊢
    generalize CommentLayout.mk _ _ _ = layout at hb ⊢
    have hkeeps : (node.attachWith layout).KeepsBraces := by
      refine hb _ ?_ ((first.declaredBy_attachWith layout node).2 hfirst)
      rw [Tree.descendants_attachWith]
      exact List.mem_map_of_mem hmem
    exact (Tree.declaresMethod_attachWith layout _ _ _).2 (hdeclares hkeeps.of_attachWith)
  · next hattach =>
    rw [if_neg hattach] at hb
    exact hdeclares (hb node hmem hfirst)

/-- Faults in the statements of a method cost no more than these. -/
theorem declaresMethod_behindFaults :
    let text := "class A \x7b void m() \x7b \x7b foo \x7d int ; \x7d void n() \x7b \x7d \x7d"
    (parseSource text {}).errors ≠ [] ∧ (parseSource text {}).root.KeepsBraces ∧
      (parseSource text {}).root.DeclaresMethod "A" "n" := by
  intro text
  let tokens := (tokenize text).filter Token.isSignificant
  have hkinds : tokens.map (·.kind) = [.kwClass, .ident, .lBrace, .kwVoid, .ident, .lParen, .rParen,
      .lBrace, .lBrace, .ident, .rBrace, .kwInt, .semicolon, .rBrace, .kwVoid, .ident, .lParen, .rParen,
      .lBrace, .rBrace, .rBrace] := by decide +kernel
  have hkind (i : Nat) : (tokens.getD i default).kind =
      ((tokens.map (·.kind)).getD i (default : Token).kind) := by simp
  rw [hkinds] at hkind
  let header := TypeHeader.ofClass (tokens.getD 0 default) (tokens.getD 1 default)
    (tokens.getD 2 default) (hkind 0) (hkind 1) (hkind 2)
  let first : MethodHeader := ⟨tokens.getD 3 default, tokens.getD 4 default, tokens.getD 5 default,
    tokens.getD 6 default, tokens.getD 7 default, hkind 3, hkind 4, hkind 5, hkind 6, hkind 7⟩
  let second : MethodHeader := ⟨tokens.getD 14 default, tokens.getD 15 default,
    tokens.getD 16 default, tokens.getD 17 default, tokens.getD 18 default, hkind 14, hkind 15,
    hkind 16, hkind 17, hkind 18⟩
  have htokens : tokens = header.tokens ++ (first.tokens ++ ((tokens.drop 8).take 5 ++
      tokens.getD 13 default :: (second.tokens ++ tokens.drop 19))) := by
    change tokens = (List.range 3).map (tokens.getD · default) ++
      ((List.range' 3 5).map (tokens.getD · default) ++ ((tokens.drop 8).take 5 ++
        tokens.getD 13 default :: ((List.range' 14 5).map (tokens.getD · default) ++ tokens.drop 19)))
    decide +kernel
  have hkeeps : (parseSource text {}).root.KeepsBraces := by decide +kernel
  have hname : (tokens.getD 1 default).text = "A" ∧ (tokens.getD 15 default).text = "n" := by
    decide +kernel
  have hdeclares := declaresMethod_of_keepsBraces {} htokens rfl (hkind 13) (by decide +kernel)
    fun node hn _ => hkeeps.of_mem hn
  change (parseSource text {}).root.DeclaresMethod (tokens.getD 1 default).text
    (tokens.getD 15 default).text at hdeclares
  rw [hname.1, hname.2] at hdeclares
  exact ⟨by decide +kernel, hkeeps, hdeclares⟩

/-- The braces of a body that is cut short by a fault are not counted when the parser goes on. -/
theorem not_declaresMethod_switch :
    ¬ (parseSource "class A \x7b void m() \x7b switch (x) \x7b foo \x7d \x7d void n() \x7b \x7d \x7d"
      {}).root.DeclaresMethod "A" "n" := by
  decide +kernel

end JavaGraph
