import JavaGraph.Proofs.Parser.Anywhere
import JavaGraph.Proofs.Parser.Kept
/-!
# What a malformed import costs

An import that is no import of a name fails before its semicolon. The file goes on where a type
declaration begins, and not behind the semicolon. So the error node takes in all the imports behind
the malformed one, and the first modifiers of the first declaration unless the file can go on at
them. The declaration is kept from there on.
-/

namespace JavaGraph

namespace Parser

open Parse

set_option synthInstance.maxSize 8192

/-! ### Steps that fail -/

section

variable {α β : Type} {step : Parse α} {next : α → Parse β} {value : α}
  {tokens more rest : List Token} {kind : TokenKind}

/-- A step fails before it has passed all of these tokens. -/
def FailsWithin (step : Parse α) (tokens rest : List Token) : Prop :=
  ∀ input builder errors, ∃ after left, step input ⟨tokens ++ rest, builder, errors⟩ = (none, after) ∧
    after.ahead = left ++ rest ∧ left <:+ tokens

theorem FailsWithin.bind (h : FailsWithin step tokens rest) :
    FailsWithin (step >>= next) tokens rest := by
  intro input builder errors
  obtain ⟨after, left, he, hl⟩ := h input builder errors
  exact ⟨after, left, by simp only [Bind.bind, he], hl⟩

theorem ReadsBefore.fails (h : ReadsBefore step value tokens (more ++ rest))
    (hn : FailsWithin (next value) more rest) :
    FailsWithin (step >>= next) (tokens ++ more) rest := by
  intro input builder errors
  obtain ⟨added, middle, he, -⟩ := h input builder errors
  obtain ⟨after, left, he', ha, hl⟩ := hn input middle errors
  exact ⟨after, left, by rw [List.append_assoc, bind_of_some he, he'], ha,
    hl.trans (List.suffix_append tokens more)⟩

theorem FailsWithin.looking {f : List Token → α} {next : α → Parse β}
    (h : FailsWithin (next (f (tokens ++ rest))) tokens rest) :
    FailsWithin (look f >>= next) tokens rest :=
  fun input builder errors => h input builder errors

theorem FailsWithin.node {step : Parse Unit} (h : FailsWithin step tokens rest) (kind : NodeKind) :
    FailsWithin (inNode kind step) tokens rest := by
  have hstep : FailsWithin (do step; finishNode) tokens rest := h.bind
  intro input builder errors
  exact hstep input (builder.start kind ((tokens ++ rest).headD input.endToken)) errors

theorem failsWithin_expect (hk : kindAt (tokens ++ rest) 0 ≠ kind) (what : String) :
    FailsWithin (expect kind what) tokens rest := by
  have hne : (kindAt (tokens ++ rest) 0 == kind) = false := beq_eq_false_iff_ne.2 hk
  intro input builder errors
  refine ⟨(errorExpected what input ⟨tokens ++ rest, builder, errors⟩).2, tokens, ?_, rfl,
    List.suffix_refl tokens⟩
  simp only [expect, eat, isAt, look, Bind.bind, Pure.pure, hne, Bool.false_eq_true]
  rfl

end

/-! ### Imports -/

/-- What an import names: one thing, or with a star everything within it. -/
inductive ImportName : List Token → Prop where
  | one {name : Token} {dotted : List Token} (hn : name.kind = .ident)
      (hd : Pairs .dot .ident dotted) : ImportName (name :: dotted)
  | every {name dot star : Token} {dotted : List Token} (hn : name.kind = .ident)
      (hd : Pairs .dot .ident dotted) (hdot : dot.kind = .dot) (hs : star.kind = .star) :
      ImportName (name :: (dotted ++ [dot, star]))

theorem ImportName.kindAt_eq {tokens : List Token} (h : ImportName tokens) :
    kindAt tokens 0 = .ident := by
  cases h with
  | one hn => exact hn
  | every hn => exact hn

/-- A token that is no keyword, opens or closes nothing, and ends nothing. -/
def PlainToken (token : Token) : Prop :=
  token.kind ∉ TokenKind.keywords.map Prod.snd ∧
    token.kind ∉ [.semicolon, .lBrace, .rBrace, .lParen, .rParen, .atSign]

instance (token : Token) : Decidable (PlainToken token) := by unfold PlainToken; infer_instance

theorem PlainToken.ne {token : Token} (h : PlainToken token) {kind : TokenKind}
    (hk : kind ∈ TokenKind.keywords.map Prod.snd ∨
      kind ∈ [.semicolon, .lBrace, .rBrace, .lParen, .rParen, .atSign]) : token.kind ≠ kind := by
  rintro rfl
  exact hk.elim h.1 h.2

/-- Pairs are taken off in front as long as there are any. -/
theorem exists_pairs {first second : TokenKind} {behind : List Token}
    (hf : kindAt behind 0 ≠ first) (hs : kindAt behind 0 ≠ second) : (tokens : List Token) →
    ∃ paired rest, tokens = paired ++ rest ∧ Pairs first second paired ∧
      ¬ (kindAt (rest ++ behind) 0 = first ∧ kindAt (rest ++ behind) 1 = second)
  | a :: b :: tokens => by
    by_cases h : a.kind = first ∧ b.kind = second
    · obtain ⟨paired, rest, rfl, hp, hr⟩ := exists_pairs hf hs tokens
      exact ⟨a :: b :: paired, rest, rfl, .cons h.1 h.2 hp, hr⟩
    · exact ⟨[], a :: b :: tokens, rfl, .nil, h⟩
  | [a] => ⟨[], [a], rfl, .nil, fun hat => hs hat.2⟩
  | [] => ⟨[], [], rfl, .nil, fun hat => hf hat.1⟩

section

variable {word semicolon : Token} {named rest : List Token}

theorem kindAt_plain_ne {tokens : List Token} (hp : ∀ token ∈ tokens, PlainToken token)
    (hne : tokens ≠ []) : kindAt (tokens ++ rest) 0 ≠ .semicolon := by
  cases tokens with
  | nil => exact absurd rfl hne
  | cons token tokens => exact (hp token (List.mem_cons_self ..)).ne (.inr (by decide))

/-- Behind the dotted name of an import a star may stand, and nothing else. -/
theorem failsWithin_importEnd {name : Token} {dotted left : List Token}
    (hs : semicolon.kind = .semicolon) (hp : ∀ token ∈ left, PlainToken token)
    (hname : name.kind = .ident) (hd : Pairs .dot .ident dotted)
    (hn : ¬ ImportName (name :: (dotted ++ left))) :
    FailsWithin (do
      if (← isAt .dot) && (← isAtNth 1 .star) then bumpMany 2
      expect .semicolon "`;`") left (semicolon :: rest) := by
  refine FailsWithin.looking (FailsWithin.looking ?_)
  dsimp only
  split
  · next hstar =>
    rw [Bool.and_eq_true, beq_iff_eq, beq_iff_eq] at hstar
    match left, hp, hn, hstar with
    | [], _, _, ⟨hdot, _⟩ => cases hs.symm.trans hdot
    | [dot], _, _, ⟨_, hstar⟩ => cases hs.symm.trans hstar
    | dot :: star :: left, hp, hn, ⟨hdot, hstar⟩ =>
      refine (reads_bumpMany_two dot star _ trivial).fails ?_
      refine failsWithin_expect (kindAt_plain_ne ?_ ?_) _
      · exact fun token ht => hp token (List.mem_cons_of_mem _ (List.mem_cons_of_mem _ ht))
      · rintro rfl
        exact hn (.every hname hd hdot hstar)
  · refine failsWithin_expect (kindAt_plain_ne hp ?_) _
    rintro rfl
    rw [List.append_nil] at hn
    exact hn (.one hname hd)

/-- What is no name fails before the semicolon. -/
theorem failsWithin_importDecl (word : Token) (hs : semicolon.kind = .semicolon)
    (hp : ∀ token ∈ named, PlainToken token) (hn : ¬ ImportName named) :
    FailsWithin importDecl (word :: named) (semicolon :: rest) := by
  have hsemicolon (kind : TokenKind) (hk : TokenKind.semicolon ≠ kind) :
      kindAt (semicolon :: rest) 0 ≠ kind := by
    rw [kindAt_cons, hs]
    exact hk
  have hstatic : kindAt (named ++ semicolon :: rest) 0 ≠ .kwStatic := by
    cases named with
    | nil => exact hsemicolon .kwStatic (by decide)
    | cons token named => exact (hp token (List.mem_cons_self ..)).ne (.inl (by decide))
  have hread : ReadsBefore (discard (eat .kwStatic)) () [] (named ++ semicolon :: rest) :=
    (reads_eat_not _ hstatic).returning _
  refine FailsWithin.node ?_ .importDecl
  refine (reads_bump word _ trivial).fails ?_
  refine ReadsBefore.fails hread ?_
  by_cases hname : kindAt (named ++ semicolon :: rest) 0 = .ident
  · cases named with
    | nil => exact absurd hname (hsemicolon .ident (by decide))
    | cons name more =>
      obtain ⟨dotted, left, rfl, hd, hleft⟩ :=
        exists_pairs (hsemicolon .dot (by decide)) (hsemicolon .ident (by decide)) more
      have hqualified : ReadsBefore qualifiedName () (name :: dotted) (left ++ semicolon :: rest) :=
        (ReadsBefore.bind (reads_expect hname _ _ trivial) (hd.readsBefore (by decide) hleft)).node _
      refine hqualified.fails (failsWithin_importEnd hs (fun token ht => ?_) hname hd hn)
      exact hp token (List.mem_cons_of_mem _ (List.mem_append_right _ ht))
  · have hfails : FailsWithin qualifiedName named (semicolon :: rest) :=
      (failsWithin_expect hname _).bind.node _
    exact hfails.bind

end

/-! ### Where a file goes on -/

/-- A token that a file does not go on at behind a fault. -/
def Skipped (token : Token) : Prop :=
  token.kind ∉ [.lBrace, .rBrace] ∧ beginsDeclaration token.kind = false

theorem PlainToken.skipped {token : Token} (h : PlainToken token) : Skipped token := by
  refine ⟨?_, ?_⟩
  · simp only [List.mem_cons, List.not_mem_nil, or_false, not_or]
    exact ⟨h.ne (.inr (by decide)), h.ne (.inr (by decide))⟩
  · have hne := @PlainToken.ne token h
    unfold beginsDeclaration
    split
    case h_7 => rfl
    case h_6 hk => exact absurd hk (hne (.inr (by decide)))
    all_goals next hk => exact absurd hk (hne (.inl (by decide)))

section

variable {skipped rest : List Token}

/-- What is skipped goes up to the token that a declaration begins with. -/
theorem skipTo_declaration_append {forced : Bool} (hp : ∀ token ∈ skipped, Skipped token)
    (hf : skipped = [] → forced = false) (hr : beginsDeclaration (kindAt rest 0)) :
    skipTo .declaration forced 0 (skipped ++ rest) = (skipped, rest) := by
  induction skipped generalizing forced with
  | nil =>
    obtain rfl := hf rfl
    cases rest with
    | nil => cases hr
    | cons token rest =>
      have hkind : beginsDeclaration token.kind := hr
      have hbrace : token.kind ≠ .rBrace := by
        intro hk
        rw [hk] at hkind
        cases hkind
      simp [skipTo, hbrace, hkind]
  | cons token skipped ih =>
    obtain ⟨hbraces, hbegins⟩ := hp token (List.mem_cons_self ..)
    simp only [List.mem_cons, List.not_mem_nil, or_false, not_or] at hbraces
    rw [List.cons_append, skipTo, if_neg hbraces.2, if_neg (by simp), if_neg (by simp [hbegins])]
    dsimp only
    rw [if_neg hbraces.1, ih (fun t ht => hp t (List.mem_cons_of_mem _ ht)) fun _ => rfl]

/-- A step that fails becomes an error node, with all that is skipped behind it. -/
theorem FailsWithin.recovers {step : Parse Unit} {tokens : List Token} {outline : Outline}
    [Keeps Conserved step] [hb : Builds [] step outline]
    (h : FailsWithin step tokens (skipped ++ rest)) (ht : ∀ token ∈ tokens, Skipped token)
    (hs : ∀ token ∈ skipped, Skipped token) (hne : skipped ≠ [])
    (hr : beginsDeclaration (kindAt rest 0)) (input : Input) {builder : Builder}
    (hc : builder.Composite) (errors : List ParseError) :
    ∃ node after, recovering .declaration step input ⟨tokens ++ (skipped ++ rest), builder, errors⟩ =
        (some (), after) ∧ after.ahead = rest ∧ node.kind = .error ∧
      node.tokens = tokens ++ skipped ∧ builder.Adds [node] after.builder := by
  obtain ⟨after, left, he, ha, hl⟩ := h input builder errors
  have habove := hb.builds input ⟨tokens ++ (skipped ++ rest), builder, errors⟩ trivial
  have hconserved := (inferInstance : Keeps Conserved step).keeps input
    ⟨tokens ++ (skipped ++ rest), builder, errors⟩
  rw [he] at habove hconserved
  obtain ⟨region, behind, recovered, errors', hrun, hregion, hadds⟩ :=
    recover_adds .declaration habove hconserved hc
  have hbehind : behind = rest := by
    have hskip := recover_ahead .declaration builder.checkpoint errors.length
      (tokens ++ (skipped ++ rest)).length input after
    dsimp only at hrun
    rw [hrun, ha, ← List.append_assoc, skipTo_declaration_append ?_ ?_ hr] at hskip
    · exact hskip
    · rw [List.forall_mem_append]
      exact ⟨fun token hm => ht token (hl.subset hm), hs⟩
    · exact fun hnil => absurd (List.append_eq_nil_iff.1 hnil).2 hne
  subst hbehind
  have hcovered : region = tokens ++ skipped := by
    rw [← List.append_assoc] at hregion
    exact (List.append_cancel_right hregion).symm
  rcases hadds with ⟨hnil, -⟩ | ⟨node, -, -, hkind, htokens, hadds⟩
  · rw [hcovered] at hnil
    exact absurd (List.append_eq_nil_iff.1 hnil).2 hne
  · refine ⟨node, ⟨behind, recovered, errors'⟩, ?_, rfl, hkind, htokens.trans hcovered, hadds⟩
    unfold recovering
    rw [he]
    exact hrun

end

/-! ### Declarations without their first modifiers -/

/-- What stands within the modifiers of a declaration and behind them. -/
def modified (place : Checkpoint) : Parse Unit := do
  loop modifierRound
  finishNode
  typeDeclaration nonterminal place

theorem topLevelDeclaration_apply (input : Input) (ahead : List Token) (builder : Builder)
    (errors : List ParseError) : topLevelDeclaration input ⟨ahead, builder, errors⟩ =
      modified builder.checkpoint input
        ⟨ahead, builder.start .modifiers (ahead.headD input.endToken), errors⟩ := by
  have hplace : checkpoint input ⟨ahead, builder, errors⟩ =
      (some builder.checkpoint, ⟨ahead, builder, errors⟩) := rfl
  have hstart : startNode .modifiers input ⟨ahead, builder, errors⟩ = (some (), ⟨ahead,
      builder.start .modifiers (ahead.headD input.endToken), errors⟩) := rfl
  unfold topLevelDeclaration modified
  rw [bind_of_some hplace, modifiers_eq, inNode, bind_assoc, bind_of_some hstart, bind_assoc]

section

variable {place : Checkpoint} {input : Input} {builder : Builder} {errors : List ParseError}
  {after : State}

/-- A type declaration begins where a file goes on. -/
theorem beginsDeclaration_of_typeDeclaration {state : State}
    (h : typeDeclaration nonterminal place input state = (some (), after)) :
    beginsDeclaration (kindAt state.ahead 0) := by
  rw [typeDeclaration_apply] at h
  split at h
  · next hk => rw [hk]; rfl
  split at h
  · next hk => rw [hk]; rfl
  split at h
  · next hk => rw [hk]; rfl
  split at h
  · next hk => rw [hk.1]; rfl
  · cases h

/-- A word that no declaration goes on at is passed as a modifier, or there are no more of them. -/
theorem modifierRound_cases {token : Token} (hk : beginsDeclaration token.kind = false)
    (input : Input) (rest : List Token) (builder : Builder) (errors : List ParseError) :
    (token.kind.isModifier ∧ modifierRound input ⟨token :: rest, builder, errors⟩ =
      (some true, ⟨rest, builder.token token, errors⟩)) ∨
    modifierRound input ⟨token :: rest, builder, errors⟩ =
      (some false, ⟨token :: rest, builder, errors⟩) := by
  have hsign : (token.kind == .atSign) = false := by
    rw [beq_eq_false_iff_ne]
    intro h
    rw [h] at hk
    cases hk
  have happly : modifierRound input ⟨token :: rest, builder, errors⟩ =
      (if (token.kind == TokenKind.kwDefault && (kindAt (token :: rest) 1 == TokenKind.colon ||
          kindAt (token :: rest) 1 == TokenKind.arrow)) = true then pure false
      else if token.kind.isModifier = true then do
        bump
        return true
      else if (token.kind == TokenKind.atSign && kindAt (token :: rest) 1 == TokenKind.ident) = true
      then do
        annotationUse
        return true
      else pure false) input ⟨token :: rest, builder, errors⟩ := rfl
  rw [happly, hsign, Bool.false_and, if_neg Bool.false_ne_true]
  split
  · exact .inr rfl
  split
  · next hword => exact .inl ⟨hword, rfl⟩
  · exact .inr rfl

/-- A modifier that a file does not go on at is one of the words in front. -/
theorem modified_cons {token : Token} {rest : List Token}
    (h : modified place input ⟨token :: rest, builder, errors⟩ = (some (), after))
    (hk : beginsDeclaration token.kind = false) : token.kind.isModifier ∧
      modified place input ⟨rest, builder.token token, errors⟩ = (some (), after) := by
  have hloop := congrFun (congrFun (loop_eq modifierRound) input) ⟨token :: rest, builder, errors⟩
  unfold modified at h ⊢
  rcases modifierRound_cases hk input rest builder errors with ⟨hword, hround⟩ | hround
  · rw [bind_of_some hround] at hloop
    refine ⟨hword, ?_⟩
    simp only [Bind.bind] at h ⊢
    rw [hloop] at h
    exact h
  · rw [bind_of_some hround] at hloop
    rw [bind_of_some hloop] at h
    have hbegins := beginsDeclaration_of_typeDeclaration h
    exact absurd (hk.symm.trans hbegins) Bool.false_ne_true

/-- The words in front of a declaration, up to where a file goes on, are modifiers. -/
theorem modified_split {tokens : List Token}
    (h : modified place input ⟨tokens, builder, errors⟩ = (some (), after)) :
    ∃ words others begun, tokens = words ++ others ∧
      (∀ word ∈ words, word.kind.isModifier ∧ beginsDeclaration word.kind = false) ∧
      beginsDeclaration (kindAt others 0) ∧ builder.Adds (words.map .leaf) begun ∧
      modified place input ⟨others, begun, errors⟩ = (some (), after) := by
  induction tokens generalizing builder with
  | nil =>
    have hloop : loop modifierRound input ⟨[], builder, errors⟩ = (some (), ⟨[], builder, errors⟩) :=
      loop_of_false rfl
    unfold modified at h
    rw [bind_of_some hloop] at h
    exact absurd (beginsDeclaration_of_typeDeclaration h) Bool.false_ne_true
  | cons token tokens ih =>
    cases hk : beginsDeclaration token.kind with
    | true => exact ⟨[], token :: tokens, builder, rfl, nofun, hk, Builder.adds_nil builder, h⟩
    | false =>
      obtain ⟨hword, hrest⟩ := modified_cons h hk
      obtain ⟨words, others, begun, rfl, hwords, hothers, hadds, he⟩ := ih hrest
      exact ⟨token :: words, others, begun, rfl, List.forall_mem_cons.2 ⟨⟨hword, hk⟩, hwords⟩, hothers,
        (Builder.adds_push builder (.leaf token)).trans hadds, he⟩

end

/-! ### The same declaration behind other modifiers -/

instance (kind : TypeKind) {L : Likeness} {level n : Nat} :
    Agrees L level n (declaration kind) (declaration kind) := by
  cases kind with
  | classType => rw [← classDecl_eq]; infer_instance
  | interfaceType => rw [← interfaceDecl_eq]; infer_instance
  | enumType => rw [← enumDecl_eq]; infer_instance
  | annotationType => rw [← annotationDecl_eq]; infer_instance

/-- A step puts a node around what was built since a place, and adds the same behind that whatever it
was. -/
def Encloses (base : Builder) (step : Parse Unit) : Prop :=
  ∀ {input ahead errors after front front' middle middle'}, base.Adds front middle →
    base.Adds front' middle' → step input ⟨ahead, middle, errors⟩ = (some (), after) →
    ∃ behind builder' node node',
      step input ⟨ahead, middle', errors⟩ = (some (), { after with builder := builder' }) ∧
      base.Adds [node] after.builder ∧ base.Adds [node'] builder' ∧ node'.kind = node.kind ∧
      node.children = front ++ behind ∧ node'.children = front' ++ behind

section

variable {base : Builder}

theorem encloses_aroundSince (base : Builder) (kind : NodeKind) {step : Parse Unit}
    [∀ {L level n}, Agrees L level n step step] :
    Encloses base (aroundSince base.checkpoint kind step) := by
  intro input ahead errors after front front' middle middle' h h' he
  have hstart (builder : Builder) : startNodeAt base.checkpoint kind input ⟨ahead, builder, errors⟩ =
      (some (), ⟨ahead, builder.startAt base.checkpoint kind (ahead.headD input.endToken), errors⟩) :=
    rfl
  unfold aroundSince at he ⊢
  rw [bind_of_some (hstart middle)] at he
  rw [bind_of_some (hstart middle')]
  simp only [Bind.bind] at he ⊢
  split at he
  · next done hrun =>
    obtain ⟨behind, builder', hrun', hadds', hadds⟩ := exists_added_anywhere
      (middle'.startAt base.checkpoint kind (ahead.headD input.endToken)) [] hrun
    obtain ⟨frame, hk, hc, hnode⟩ := Builder.adds_around h _ _ hadds
    obtain ⟨frame', hk', hc', hnode'⟩ := Builder.adds_around h' _ _ hadds'
    cases he
    rw [List.nil_append] at hrun'
    rw [hrun']
    exact ⟨behind, builder'.finishNode, frame.toTree, frame'.toTree, rfl, hnode, hnode',
      hk'.trans hk.symm, hc, hc'⟩
  · cases he

/-- The word behind the modifiers says which declaration it is, whatever the modifiers are. -/
theorem encloses_typeDeclaration (base : Builder) :
    Encloses base (typeDeclaration nonterminal base.checkpoint) := by
  intro input ahead errors after front front' middle middle' h h' he
  rw [typeDeclaration_apply] at he ⊢
  dsimp only at he ⊢
  split at he
  · next hk => rw [if_pos hk]; exact encloses_aroundSince base _ h h' he
  next hclass =>
  rw [if_neg hclass]
  split at he
  · next hk => rw [if_pos hk]; exact encloses_aroundSince base _ h h' he
  next hinterface =>
  rw [if_neg hinterface]
  split at he
  · next hk => rw [if_pos hk]; exact encloses_aroundSince base _ h h' he
  next henum =>
  rw [if_neg henum]
  split at he
  · next hk => rw [if_pos hk]; exact encloses_aroundSince base _ h h' he
  · cases he

/-- A declaration lacks some words of its modifiers, and is the same otherwise. -/
structure LacksWords (words : List Token) (whole part : Tree) : Prop where
  kind_eq : part.kind = whole.kind
  children_eq : ∃ modifiers modifiers' others, whole.children = modifiers :: others ∧
    part.children = modifiers' :: others ∧ modifiers.kind = .modifiers ∧
    modifiers'.kind = .modifiers ∧ modifiers.children = words.map .leaf ++ modifiers'.children

/-- Without some words in front of its modifiers, a declaration is the same otherwise. -/
theorem modified_lacks {input : Input} {ahead : List Token} {errors : List ParseError} {after : State}
    {words : List Token} {anchor : Token} {begun : Builder} (anchor' : Token)
    (hb : (base.start .modifiers anchor).Adds (words.map .leaf) begun)
    (he : modified base.checkpoint input ⟨ahead, begun, errors⟩ = (some (), after)) :
    ∃ builder' node node',
      modified base.checkpoint input ⟨ahead, base.start .modifiers anchor', errors⟩ =
        (some (), { after with builder := builder' }) ∧
      base.Adds [node] after.builder ∧ base.Adds [node'] builder' ∧ LacksWords words node node' := by
  have hround {L level n} : Agrees L level n modifierRound modifierRound := by
    unfold modifierRound
    infer_instance
  have hadvanced : Keeps Advanced modifierRound := by
    unfold modifierRound
    infer_instance
  unfold modified at he ⊢
  simp only [Bind.bind] at he ⊢
  split at he
  · next done middle hrun =>
    obtain ⟨added, builder', hrun', hadds', hadds⟩ := exists_added_anywhere
      (base.start .modifiers anchor') [] hrun
    obtain ⟨frame, hk, hc, hnode⟩ := Builder.adds_finishNode (hb.trans hadds)
    obtain ⟨frame', hk', hc', hnode'⟩ := Builder.adds_finishNode hadds'
    rw [List.nil_append] at hrun'
    rw [hrun']
    obtain ⟨behind, last, node, node', hlast, hn, hn', hkind, hchildren, hchildren'⟩ :=
      encloses_typeDeclaration base hnode hnode' he
    refine ⟨last, node, node', hlast, hn, hn', hkind, frame.toTree, frame'.toTree, behind, hchildren,
      hchildren', hk, hk', ?_⟩
    change frame.children = words.map .leaf ++ frame'.children
    rw [hc, hc']
    rfl
  · cases he

end

/-- The state that the parsing of a declaration by itself begins in. -/
def State.alone (input : Input) (tokens : List Token) : State :=
  ⟨tokens, .new .compilationUnit input.endToken, []⟩

/-- Some tokens are a type declaration without a fault, and become a node. -/
structure IsDeclaration (input : Input) (tokens : List Token) (node : Tree) : Prop where
  succeeds : SucceedsAt topLevelDeclaration input (.alone input tokens)
  ahead_eq : (topLevelDeclaration input (.alone input tokens)).2.ahead = []
  errors_eq : (topLevelDeclaration input (.alone input tokens)).2.errors = []
  children_eq : (topLevelDeclaration input (.alone input tokens)).2.builder.root.children = [node]

section

variable {input : Input} {tokens : List Token} {node : Tree} {builder : Builder}

theorem IsDeclaration.of_adds (h : topLevelDeclaration input (.alone input tokens) =
    (some (), ⟨[], builder, []⟩)) (hb : (State.alone input tokens).builder.Adds [node] builder) :
    IsDeclaration input tokens node := by
  obtain ⟨frame, -, -, hc, rfl⟩ := hb
  constructor
  · rw [SucceedsAt, h]
    rfl
  all_goals rw [h]
  exact hc

/-- A declaration that is parsed without a fault is one node. -/
theorem exists_isDeclaration (hs : SucceedsAt topLevelDeclaration input (.alone input tokens))
    (ha : (topLevelDeclaration input (.alone input tokens)).2.ahead = [])
    (he : (topLevelDeclaration input (.alone input tokens)).2.errors = [])
    (hl : (topLevelDeclaration input (.alone input tokens)).2.builder.root.children.length = 1) :
    ∃ node, IsDeclaration input tokens node := by
  obtain ⟨node, hc⟩ := List.length_eq_one_iff.1 hl
  exact ⟨node, hs, ha, he, hc⟩

theorem IsDeclaration.exists_builder (h : IsDeclaration input tokens node) : ∃ builder,
    topLevelDeclaration input (.alone input tokens) = (some (), ⟨[], builder, []⟩) ∧
      (State.alone input tokens).builder.Adds [node] builder := by
  have hbuilds : Builds [] topLevelDeclaration (nodeOf (·.isTypeDeclaration)) := inferInstance
  have hyields := hbuilds.builds input (.alone input tokens) trivial
  obtain ⟨hs, ha, he, hc⟩ := h
  rw [SucceedsAt] at hs
  generalize topLevelDeclaration input (.alone input tokens) = result at *
  obtain ⟨_ | value, ahead, builder, errors⟩ := result
  · cases hs
  · obtain ⟨added, hadds, -⟩ := hyields
    obtain rfl : ahead = [] := ha
    obtain rfl : errors = [] := he
    have hadded : added = [node] := by
      obtain ⟨frame, -, -, hframe, hb⟩ := hadds
      dsimp only at hb hc
      rw [hb] at hc
      exact hframe.symm.trans hc
    exact ⟨builder, rfl, hadded ▸ hadds⟩

/-- A declaration goes on without a fault behind the modifiers that a file does not go on at. -/
theorem IsDeclaration.split (h : IsDeclaration input tokens node) : ∃ words others part,
    tokens = words ++ others ∧
    (∀ word ∈ words, word.kind.isModifier ∧ beginsDeclaration word.kind = false) ∧
    beginsDeclaration (kindAt others 0) ∧ IsDeclaration input others part ∧ LacksWords words node part := by
  obtain ⟨builder, he, hadds⟩ := h.exists_builder
  rw [State.alone, topLevelDeclaration_apply] at he
  obtain ⟨words, others, begun, rfl, hwords, hothers, hbegun, hrest⟩ := modified_split he
  obtain ⟨builder', node', part, hpart, hnode, hadded, hlacks⟩ :=
    modified_lacks (others.headD input.endToken) hbegun hrest
  obtain rfl : node = node' := List.singleton_injective (hadds.unique hnode)
  refine ⟨words, others, part, rfl, hwords, hothers, .of_adds ?_ hadded, hlacks⟩
  rw [State.alone, topLevelDeclaration_apply]
  exact hpart

end

/-! ### Files -/

theorem ImportName.skipped {tokens : List Token} (h : ImportName tokens) :
    ∀ token ∈ tokens, Skipped token := by
  have hkind {token : Token} (hk : token.kind ∈ [.ident, .dot, .star]) : Skipped token := by
    unfold Skipped
    generalize token.kind = kind at hk
    revert kind
    decide
  have hpairs {dotted : List Token} (hd : Pairs .dot .ident dotted) :
      ∀ token ∈ dotted, Skipped token := by
    induction hd with
    | nil => exact nofun
    | cons ha hb hd ih =>
      refine List.forall_mem_cons.2 ⟨hkind ?_, List.forall_mem_cons.2 ⟨hkind ?_, ih⟩⟩
      · rw [ha]; decide
      · rw [hb]; decide
  cases h with
  | one hn hd =>
    refine List.forall_mem_cons.2 ⟨hkind ?_, hpairs hd⟩
    rw [hn]; decide
  | every hn hd hdot hs =>
    refine List.forall_mem_cons.2 ⟨hkind ?_, List.forall_mem_append.2 ⟨hpairs hd, ?_⟩⟩
    · rw [hn]; decide
    · refine List.forall_mem_cons.2 ⟨hkind ?_, List.forall_mem_singleton.2 (hkind ?_)⟩
      · rw [hdot]; decide
      · rw [hs]; decide

theorem skipped_of_isModifier {token : Token} (hm : token.kind.isModifier)
    (hk : beginsDeclaration token.kind = false) : Skipped token := by
  refine ⟨?_, hk⟩
  intro hbrace
  simp only [List.mem_cons, List.not_mem_nil, or_false] at hbrace
  rcases hbrace with hbrace | hbrace <;> rw [hbrace] at hm <;> cases hm

theorem atPackageDeclaration_import {word : Token} (h : word.kind = .kwImport) (rest : List Token) :
    atPackageDeclaration (word :: rest) = false := by
  have hk : kindAt (word :: rest) 0 = .kwImport := h
  simp [atPackageDeclaration, skipPackageAnnotations, hk]

/-- A declaration alone is built the same behind other children of the file, and the file ends there. -/
theorem IsDeclaration.loop_declarations {input : Input} {tokens : List Token} {node : Tree}
    (h : IsDeclaration input tokens node) (hk : beginsDeclaration (kindAt tokens 0))
    (builder : Builder) (faults : List ParseError) :
    ∃ after, loop Listing.declarations.round input ⟨tokens, builder, faults⟩ = (some (), after) ∧
      builder.Adds [node] after.builder := by
  obtain ⟨alone, he, hadds⟩ := h.exists_builder
  have hagrees {L level n} : Agrees L level n topLevelDeclaration topLevelDeclaration := by
    unfold topLevelDeclaration
    infer_instance
  obtain ⟨added, built, hrun, hbuilt, halone⟩ := exists_added_anywhere builder faults he
  obtain rfl := halone.unique hadds
  have hrecovering : recovering .declaration topLevelDeclaration input
      ⟨tokens, builder, faults ++ []⟩ = (some (), ⟨[], built, faults ++ []⟩) := by
    unfold recovering
    rw [hrun]
  rw [List.append_nil] at hrecovering
  have hne (kind : TokenKind) (hother : beginsDeclaration kind = false) : kindAt tokens 0 ≠ kind := by
    rintro rfl
    exact absurd (hother.symm.trans hk) Bool.false_ne_true
  have hround : Listing.declarations.round input ⟨tokens, builder, faults⟩ =
      (some true, ⟨[], built, faults⟩) :=
    round_declarations (hne .eof rfl) (hne .semicolon rfl) hrecovering
  have hdone : loop Listing.declarations.round input ⟨[], built, faults⟩ =
      (some (), ⟨[], built, faults⟩) := loop_of_false rfl
  have := progresses_round .declarations
  have hloop := congrFun (congrFun (loop_eq Listing.declarations.round) input)
    ⟨tokens, builder, faults⟩
  rw [bind_of_some hround, if_pos rfl, hdone] at hloop
  exact ⟨_, hloop, hbuilt⟩

section

variable {input : Input} {word semicolon : Token} {named passed others : List Token} {part : Tree}

/-- A file that begins with a malformed import goes on at the first declaration. -/
theorem compilationUnit_malformedImport (hw : word.kind = .kwImport)
    (hs : semicolon.kind = .semicolon) (hp : ∀ token ∈ named, PlainToken token)
    (hn : ¬ ImportName named) (hpassed : ∀ token ∈ passed, Skipped token)
    (hothers : beginsDeclaration (kindAt others 0)) (hd : IsDeclaration input others part)
    {builder : Builder} (hc : builder.Composite) (errors : List ParseError) :
    ∃ failed after,
      compilationUnit input ⟨word :: named ++ (semicolon :: passed ++ others), builder, errors⟩ =
        (some (), after) ∧
      builder.Adds [failed, part] after.builder ∧ failed.kind = .error ∧
      failed.tokens = word :: named ++ semicolon :: passed := by
  have hfails : FailsWithin importDecl (word :: named) (semicolon :: passed ++ others) :=
    failsWithin_importDecl word hs hp hn
  have hword : Skipped word := by
    unfold Skipped
    rw [hw]
    decide
  have hsemicolon : Skipped semicolon := by
    unfold Skipped
    rw [hs]
    decide
  obtain ⟨failed, ⟨ahead, built, faults⟩, hfailed, hahead, hkind, htokens, hadds⟩ := hfails.recovers
    (List.forall_mem_cons.2 ⟨hword, fun token ht => (hp token ht).skipped⟩)
    (List.forall_mem_cons.2 ⟨hsemicolon, hpassed⟩) (List.cons_ne_nil _ _) hothers input hc errors
  obtain rfl : ahead = others := hahead
  obtain ⟨after, hloop, hkept⟩ := hd.loop_declarations hothers built faults
  refine ⟨failed, after, ?_, hadds.trans hkept, hkind, htokens⟩
  have hround : Listing.imports.round input
      ⟨word :: named ++ (semicolon :: passed ++ ahead), builder, errors⟩ =
        (some true, ⟨ahead, built, faults⟩) := by
    have hat : isAt .kwImport input ⟨word :: named ++ (semicolon :: passed ++ ahead), builder, errors⟩ =
        (some true, ⟨word :: named ++ (semicolon :: passed ++ ahead), builder, errors⟩) := by
      simp [isAt, look, kindAt_cons, hw]
    dsimp only [Listing.round]
    rw [bind_of_some hat, if_pos rfl, bind_of_some hfailed]
    rfl
  have hnone : kindAt (State.ahead ⟨ahead, built, faults⟩) 0 ≠ .kwImport := by
    intro hk
    dsimp only at hk
    rw [hk] at hothers
    cases hothers
  have := progresses_round .imports
  have hfirst := congrFun (congrFun (loop_eq Listing.imports.round) input)
    ⟨word :: named ++ (semicolon :: passed ++ ahead), builder, errors⟩
  rw [bind_of_some hround, if_pos rfl, loop_imports_of_ne hnone input] at hfirst
  rw [compilationUnit_of_no_package (atPackageDeclaration_import hw _), bind_of_some hfirst, hloop]

end

end Parser

/-! ### The trees of texts -/

/-- The children of the tree of a text are those without comments, with comments added. -/
theorem exists_children_root (text : String) (options : ParseOptions) : ∃ layout,
    (parseSource text options).root.children = (bareTree text).children.map
      (if options.attachComments then Tree.attachWith layout else id) := by
  simp only [parseSource]
  split
  · unfold Tree.attachComments
    dsimp only
    generalize CommentLayout.mk _ _ _ = layout
    refine ⟨layout, ?_⟩
    rw [Tree.children_attachWith, Tree.attachAll_eq_map]
    rfl
  · exact ⟨⟨[], [], []⟩, (List.map_id _).symm⟩

/-- A text that is a malformed import, another import and a type declaration without a fault. -/
structure MalformedImport (text : String) where
  word : Token
  malformed : List Token
  semicolon : Token
  nextWord : Token
  next : List Token
  nextSemicolon : Token
  tokens : List Token
  declaration : Tree
  significant_eq : (tokenize text).filter Token.isSignificant =
    word :: malformed ++ semicolon :: (nextWord :: next ++ nextSemicolon :: tokens)
  word_kind : word.kind = .kwImport
  malformed_plain : ∀ token ∈ malformed, Parser.PlainToken token
  not_importName : ¬ Parser.ImportName malformed
  semicolon_kind : semicolon.kind = .semicolon
  nextWord_kind : nextWord.kind = .kwImport
  next_importName : Parser.ImportName next
  nextSemicolon_kind : nextSemicolon.kind = .semicolon
  isDeclaration : Parser.IsDeclaration (.of text) tokens declaration

namespace MalformedImport

variable {text : String} (file : MalformedImport text)

/-- The tokens of both imports. -/
def imports : List Token :=
  file.word :: file.malformed ++ file.semicolon :: (file.nextWord :: file.next ++ [file.nextSemicolon])

/-- What is in a file that begins with a malformed import: one error node for both imports and those
words in front of the declaration that a file does not go on at, and the declaration from there on. -/
def KeptFrom (words : List Token) (failed part : Tree) : Prop :=
  failed.kind = .error ∧ failed.tokens = file.imports ++ words ∧
    (∀ word ∈ words, word.kind.isModifier ∧ Parser.beginsDeclaration word.kind = false) ∧
    (∃ others, file.tokens = words ++ others ∧ Parser.beginsDeclaration (Parser.kindAt others 0) ∧
      Parser.IsDeclaration (.of text) others part) ∧
    Parser.LacksWords words file.declaration part ∧ (words = [] → part = file.declaration)

end MalformedImport

/-- A malformed import costs every import behind it, and those words in front of the first declaration
that a file does not go on at. The declaration is kept from there on. -/
theorem children_malformedImport {text : String} (file : MalformedImport text)
    (options : ParseOptions) :
    ∃ words failed part layout, file.KeptFrom words failed part ∧
      (parseSource text options).root.children = [failed, part].map
        (if options.attachComments then Tree.attachWith layout else id) := by
  obtain ⟨word, named, semicolon, word', named', semicolon', tokens, declaration, h, hw, hp, hn, hs, hw',
    hn', hs', hd⟩ := file
  obtain ⟨words, others, part, rfl, hwords, hothers, hpart, hlacks⟩ := hd.split
  have hpassed : ∀ token ∈ word' :: named' ++ semicolon' :: words, Parser.Skipped token := by
    have hfixed {token : Token} (hk : token.kind = .kwImport ∨ token.kind = .semicolon) :
        Parser.Skipped token := by
      unfold Parser.Skipped
      rcases hk with hk | hk <;> rw [hk] <;> decide
    refine List.forall_mem_append.2 ⟨List.forall_mem_cons.2 ⟨hfixed (.inl hw'), hn'.skipped⟩,
      List.forall_mem_cons.2 ⟨hfixed (.inr hs'), fun token ht => ?_⟩⟩
    exact Parser.skipped_of_isModifier (hwords token ht).1 (hwords token ht).2
  have hstart : Parser.State.start (tokenize text) = ⟨word :: named ++ (semicolon ::
      (word' :: named' ++ semicolon' :: words) ++ others),
      (Parser.State.start (tokenize text)).builder, []⟩ :=
    Parser.startState_eq (h.trans (by simp))
  have hcomposite := Parser.composite_startState (tokenize text)
  obtain ⟨failed, after, he, hadds, hkind, htokens⟩ := Parser.compilationUnit_malformedImport hw hs hp hn
    hpassed hothers hpart hcomposite []
  rw [← hstart] at he
  have hchildren := children_bareTree he hadds
  obtain ⟨layout, hroot⟩ := exists_children_root text options
  rw [hchildren] at hroot
  refine ⟨words, failed, part, layout, ⟨hkind, ?_, hwords, ⟨others, rfl, hothers, hpart⟩, hlacks, ?_⟩,
    hroot⟩
  · rw [htokens]
    simp [MalformedImport.imports]
  · rintro rfl
    exact List.singleton_injective (hpart.children_eq.symm.trans hd.children_eq)

/-- The import of a number is malformed. -/
theorem nonempty_malformedImport {text : String} {tokens : List Token}
    (htokens : ((tokenize text).filter Token.isSignificant).drop 8 = tokens)
    (hk : (((tokenize text).filter Token.isSignificant).take 8).map (·.kind) =
      [.kwImport, .intLiteral, .semicolon, .kwImport, .ident, .dot, .ident, .semicolon])
    {declaration : Tree} (hd : Parser.IsDeclaration (.of text) tokens declaration) :
    Nonempty (MalformedImport text) := by
  generalize hall : (tokenize text).filter Token.isSignificant = all at htokens hk
  rcases all with _ | ⟨word, _ | ⟨number, _ | ⟨semicolon, _ | ⟨word', _ | ⟨outer, _ | ⟨dot, _ |
    ⟨name, _ | ⟨semicolon', rest⟩⟩⟩⟩⟩⟩⟩⟩ <;>
    simp only [List.take_succ_cons, List.take_zero, List.take_nil, List.map_cons, List.map_nil,
      List.cons.injEq, reduceCtorEq, and_false, and_true] at hk
  obtain ⟨hw, hnumber, hs, hw', houter, hdot, hname, hs'⟩ := hk
  obtain rfl : rest = tokens := htokens
  exact ⟨{
    word, semicolon, declaration
    malformed := [number]
    nextWord := word'
    next := [outer, dot, name]
    nextSemicolon := semicolon'
    tokens := rest
    significant_eq := hall
    word_kind := hw
    malformed_plain := by
      rw [List.forall_mem_singleton, Parser.PlainToken, hnumber]
      decide
    not_importName := fun h => by cases hnumber.symm.trans h.kindAt_eq
    semicolon_kind := hs
    nextWord_kind := hw'
    next_importName := .one houter (.cons hdot hname .nil)
    nextSemicolon_kind := hs'
    isDeclaration := hd }⟩

/-- A modifier that a file does not go on at is lost. -/
theorem children_malformedImport_final :
    ∃ file : MalformedImport "import 1; import q.T; final class D \x7b \x7d",
      ∃ words failed part layout, file.KeptFrom words failed part ∧
        (parseSource "import 1; import q.T; final class D \x7b \x7d" {}).root.children =
          [failed, part].map (Tree.attachWith layout) := by
  let text := "import 1; import q.T; final class D \x7b \x7d"
  obtain ⟨declaration, hd⟩ : ∃ node, Parser.IsDeclaration (.of text)
      (((tokenize text).filter Token.isSignificant).drop 8) node :=
    Parser.exists_isDeclaration (by decide +kernel) (by decide +kernel) (by decide +kernel)
      (by decide +kernel)
  obtain ⟨file⟩ := nonempty_malformedImport rfl (by decide +kernel) hd
  exact ⟨file, children_malformedImport file {}⟩

/-- The import behind a malformed one is no child of the tree. -/
theorem not_importDecl_malformedImport :
    Nonempty (MalformedImport "import 1; import q.T; class D \x7b \x7d") ∧
      ¬ ∃ child ∈ (parseSource "import 1; import q.T; class D \x7b \x7d" {}).root.children,
        child.kind = .importDecl := by
  let text := "import 1; import q.T; class D \x7b \x7d"
  obtain ⟨declaration, hd⟩ : ∃ node, Parser.IsDeclaration (.of text)
      (((tokenize text).filter Token.isSignificant).drop 8) node :=
    Parser.exists_isDeclaration (by decide +kernel) (by decide +kernel) (by decide +kernel)
      (by decide +kernel)
  exact ⟨nonempty_malformedImport rfl (by decide +kernel) hd, by decide +kernel⟩

end JavaGraph
