import JavaGraph.Proofs.Parser.Grammar
import JavaGraph.Proofs.Tree.Builder
/-!
# The parse tree loses no token

What is built and what is still ahead are, in this order, always the same tokens: no step of the
grammar loses one, repeats one or changes their order, also where it fails and what it built is
abandoned. A file is parsed until nothing is ahead, because every round of its list passes a token.
So the finished tree covers the significant tokens of the text.
-/

namespace JavaGraph

namespace Parser

open Parse

set_option synthInstance.maxSize 8192

/-- The tokens that are built and those that are ahead. -/
def State.tokens (state : State) : List Token := state.builder.tokens ++ state.ahead

/-- No token gets lost, and no fault. -/
def Conserved (_ : Input) (before after : State) : Prop :=
  before.builder.Composite →
    after.builder.Composite ∧ after.tokens = before.tokens ∧
      before.errors.length ≤ after.errors.length

/-- The tokens ahead become fewer from the front, and the faults do not become fewer. -/
structure Advanced (_ : Input) (before after : State) : Prop where
  suffix : after.ahead <:+ before.ahead
  errors_le : before.errors.length ≤ after.errors.length

/-! ### Recovery -/

/-- Recovery leaves the tokens that `skipTo` leaves. -/
theorem recover_ahead (resume : Resume) (place : Checkpoint) (errorsBefore aheadBefore : Nat)
    (input : Input) (state : State) :
    (recover resume place errorsBefore aheadBefore input state).2.ahead =
      (skipTo resume (!(state.ahead.length < aheadBefore)) 0 state.ahead).2 := rfl

/-- An error node covers the region that it is made of, and there is one unless that is empty. -/
theorem tokens_errorNode? (source : String) (region : List Token) (error : ParseError) :
    ((Tree.errorNode? source region error).map Tree.tokens).getD [] = region := by
  cases region with
  | nil => rfl
  | cons first rest =>
    obtain ⟨last, hl⟩ : ∃ last, (first :: rest).getLast? = some last :=
      ⟨_, List.getLast?_eq_some_getLast (by simp)⟩
    simp [Tree.errorNode?, hl, Tree.tokens]

/-- A builder with an optional node added. -/
private theorem pushed_conserves {builder : Builder} (h : builder.Composite) (node : Option Tree) :
    (node.elim builder builder.push).Composite ∧
      (node.elim builder builder.push).tokens =
        builder.tokens ++ (node.map Tree.tokens).getD [] := by
  cases node with
  | none => exact ⟨h, by simp⟩
  | some node => exact ⟨Builder.composite_push h node, by simp⟩

/-- Recovery puts one error node in the place of what was built and of what is skipped. There is
always a fault that the node tells of. -/
theorem recover_eq (resume : Resume) (place : Checkpoint) {errorsBefore : Nat} (aheadBefore : Nat)
    (input : Input) (state : State) (h : errorsBefore ≤ state.errors.length) :
    ∃ error errors, errorsBefore ≤ errors.length ∧
      recover resume place errorsBefore aheadBefore input state =
        (some (), {
          ahead := (skipTo resume (!(state.ahead.length < aheadBefore)) 0 state.ahead).2
          builder := (Tree.errorNode? input.source ((state.builder.abandon place).1 ++
            (skipTo resume (!(state.ahead.length < aheadBefore)) 0 state.ahead).1) error).elim
              (state.builder.rewind place) (state.builder.rewind place).push
          errors }) := by
  simp only [recover]
  generalize hregion : (state.builder.abandon place).1 ++
    (skipTo resume (!(state.ahead.length < aheadBefore)) 0 state.ahead).1 = region
  generalize herrors : (if state.errors.length = errorsBefore then _ else state.errors) = errors
  have hlength : errorsBefore ≤ errors.length ∧ errors ≠ [] := by
    subst herrors
    split
    · next heq => simp; omega
    · next hne =>
      refine ⟨h, ?_⟩
      intro hnil
      rw [hnil] at hne h
      simp only [List.length_nil] at hne h
      omega
  obtain ⟨error, hlast⟩ : ∃ error, errors.getLast? = some error :=
    ⟨_, List.getLast?_eq_some_getLast hlength.2⟩
  refine ⟨error, errors, hlength.1, ?_⟩
  rw [hlast, Option.bind_some]
  cases Tree.errorNode? input.source region error <;> rfl

/-- Recovery moves the abandoned tokens and the skipped ones into an error node. -/
theorem recover_conserved {input : Input} {before after : State} (resume : Resume)
    (h : Conserved input before after) :
    Conserved input before (recover resume before.builder.checkpoint before.errors.length
      before.ahead.length input after).2 := by
  intro hb
  obtain ⟨hc, ht, he⟩ := h hb
  have hrewound := Builder.composite_rewind hc before.builder.checkpoint
  have habandon := Builder.tokens_abandon_append hc before.builder.checkpoint
  have hskip := skipTo_append resume (!(after.ahead.length < before.ahead.length)) 0 after.ahead
  obtain ⟨error, errors, hlength, heq⟩ := recover_eq resume before.builder.checkpoint
    before.ahead.length input after he
  rw [heq]
  generalize hregion : (after.builder.abandon before.builder.checkpoint).1 ++
    (skipTo resume (!(after.ahead.length < before.ahead.length)) 0 after.ahead).1 = region
  obtain ⟨hpushed, htokens⟩ :=
    pushed_conserves hrewound (Tree.errorNode? input.source region error)
  refine ⟨hpushed, ?_, hlength⟩
  rw [State.tokens, ← ht, State.tokens, ← habandon]
  refine Eq.trans (congrArg (· ++ _) htokens) ?_
  rw [tokens_errorNode?, ← hregion]
  simp only [List.append_assoc, hskip]
  rfl

instance : Guarantee Conserved where
  refl _ _ hb := ⟨hb, rfl, Nat.le_refl _⟩
  trans hab hbc ha := by
    obtain ⟨hb, htb, heb⟩ := hab ha
    obtain ⟨hc, htc, hec⟩ := hbc hb
    exact ⟨hc, htc.trans htb, Nat.le_trans heb hec⟩
  bump _ _ _ _ _ hb := by
    refine ⟨Builder.composite_push hb _, ?_, Nat.le_refl _⟩
    simp [State.tokens]
  record _ _ _ hb := ⟨hb, rfl, by simp⟩
  start _ _ _ hk hb := by
    refine ⟨Builder.composite_start hb hk _, ?_, Nat.le_refl _⟩
    simp [State.tokens]
  startAt _ _ _ _ hk hb := by
    refine ⟨Builder.composite_startAt hb hk _ _, ?_, Nat.le_refl _⟩
    simp only [State.tokens, Builder.tokens_startAt hb]
  finish _ _ hb := by
    refine ⟨Builder.composite_finishNode hb, ?_, Nat.le_refl _⟩
    simp only [State.tokens, Builder.tokens_finishNode hb]
  recover resume h := recover_conserved resume h

theorem Advanced.length_le {input : Input} {before after : State}
    (h : Advanced input before after) : after.ahead.length ≤ before.ahead.length :=
  h.suffix.length_le

instance : Guarantee Advanced where
  refl _ _ := ⟨List.suffix_refl _, Nat.le_refl _⟩
  trans hab hbc := ⟨hbc.suffix.trans hab.suffix, Nat.le_trans hab.errors_le hbc.errors_le⟩
  bump _ token _ _ _ := ⟨List.suffix_cons token _, Nat.le_refl _⟩
  record _ _ _ := ⟨List.suffix_refl _, by simp⟩
  start _ _ _ _ := ⟨List.suffix_refl _, Nat.le_refl _⟩
  startAt _ _ _ _ _ := ⟨List.suffix_refl _, Nat.le_refl _⟩
  finish _ _ := ⟨List.suffix_refl _, Nat.le_refl _⟩
  recover {input before after} resume h := by
    obtain ⟨error, errors, hlength, heq⟩ := recover_eq resume before.builder.checkpoint
      before.ahead.length input after h.errors_le
    rw [heq]
    exact ⟨List.IsSuffix.trans ⟨_, skipTo_append resume _ 0 after.ahead⟩ h.suffix, hlength⟩

/-! ### The list of declarations reaches the end -/

/-- A step that passes a token wherever there is one. -/
def Passes {α : Type} (step : Parse α) : Prop :=
  ∀ input state, state.ahead ≠ [] → (step input state).2.ahead.length < state.ahead.length

/-- What follows a step that passes a token cannot take that back. -/
theorem Passes.bind {α β : Type} {step : Parse α} {next : α → Parse β} (h : Passes step)
    [hn : ∀ value, Keeps Advanced (next value)] : Passes (step >>= next) := by
  intro input state hs
  have hp := h input state hs
  simp only [Bind.bind]
  split
  · next value middle he =>
    rw [he] at hp
    exact Nat.lt_of_le_of_lt ((hn value).keeps input middle).length_le hp
  · next middle he =>
    rw [he] at hp
    exact hp

theorem passes_bump : Passes bump := by
  intro input state hs
  obtain ⟨ahead, builder, errors⟩ := state
  cases ahead with
  | nil => exact absurd rfl hs
  | cons token ahead => exact Nat.lt_succ_self _

theorem passes_bumpMany (count : Nat) : Passes (bumpMany (count + 1)) :=
  passes_bump.bind

theorem Passes.aroundSince {step : Parse Unit} (h : Passes step) (place : Checkpoint)
    (kind : NodeKind) : Passes (aroundSince place kind step) := by
  intro input state hs
  have hb : Passes (do step; finishNode) := h.bind
  exact hb input
    { state with
      builder := state.builder.startAt place kind (state.ahead.headD input.endToken) } hs

section

variable (sub : Nonterminal → Parse Unit) [∀ construct, Keeps Advanced (sub construct)]

private theorem passes_classDecl : Passes (classDecl sub) := by
  unfold classDecl; dsimp only; exact passes_bump.bind

private theorem passes_interfaceDecl : Passes (interfaceDecl sub) := by
  unfold interfaceDecl; dsimp only; exact passes_bump.bind

private theorem passes_enumDecl : Passes (enumDecl sub) := passes_bump.bind

private theorem passes_annotationDecl : Passes (annotationDecl sub) := (passes_bumpMany 1).bind

/-- A type declaration that succeeds passes its keyword. -/
theorem typeDeclaration_passes {place : Checkpoint} {input : Input} {state after : State}
    (h : typeDeclaration sub place input state = (some (), after)) :
    after.ahead.length < state.ahead.length := by
  have hs : state.ahead ≠ [] := by
    intro hnil
    simp [typeDeclaration, Bind.bind, look, hnil, kindAt, errorExpected, fail] at h
  have ha : after = (typeDeclaration sub place input state).2 := by rw [h]
  rw [ha]
  by_cases hclass : kindAt state.ahead 0 = .kwClass
  · have he : typeDeclaration sub place input state =
        aroundSince place .classDecl (classDecl sub) input state := by
      simp [typeDeclaration, Bind.bind, look, hclass]
    rw [he]
    exact (passes_classDecl sub).aroundSince place _ input state hs
  by_cases hinterface : kindAt state.ahead 0 = .kwInterface
  · have he : typeDeclaration sub place input state =
        aroundSince place .interfaceDecl (interfaceDecl sub) input state := by
      simp [typeDeclaration, Bind.bind, look, hinterface]
    rw [he]
    exact (passes_interfaceDecl sub).aroundSince place _ input state hs
  by_cases henum : kindAt state.ahead 0 = .kwEnum
  · have he : typeDeclaration sub place input state =
        aroundSince place .enumDecl (enumDecl sub) input state := by
      simp [typeDeclaration, Bind.bind, look, henum]
    rw [he]
    exact (passes_enumDecl sub).aroundSince place _ input state hs
  by_cases hannotation : kindAt state.ahead 0 = .atSign ∧ kindAt state.ahead 1 = .kwInterface
  · have he : typeDeclaration sub place input state =
        aroundSince place .annotationDecl (annotationDecl sub) input state := by
      simp [typeDeclaration, Bind.bind, look, hannotation]
    rw [he]
    exact (passes_annotationDecl sub).aroundSince place _ input state hs
  · simp [typeDeclaration, Bind.bind, look, hclass, hinterface, henum, hannotation, errorExpected,
      fail] at h

end

/-- A declaration at the top level of a file that succeeds passes a token. -/
theorem topLevelDeclaration_passes {input : Input} {state after : State}
    (h : topLevelDeclaration input state = (some (), after)) :
    after.ahead.length < state.ahead.length := by
  simp only [topLevelDeclaration, Bind.bind, checkpoint] at h
  have hm : Keeps Advanced modifiers := inferInstance
  have hs := (hm.keeps input state).length_le
  split at h
  · next value middle he =>
    rw [he] at hs
    exact Nat.lt_of_lt_of_le (typeDeclaration_passes nonterminal h) hs
  · cases h

/-- Where the list of declarations goes on after a fault, at least one token is skipped unless one
was passed before the fault. -/
theorem skipTo_declaration_passes {ahead : List Token} (h : ahead ≠ []) :
    (skipTo .declaration true 0 ahead).2.length < ahead.length := by
  cases ahead with
  | nil => exact absurd rfl h
  | cons token ahead =>
    simp only [skipTo]
    split
    · simp
    · simp only [reduceCtorEq, and_false, if_false, Bool.not_true, Bool.false_eq_true]
      have hl := congrArg List.length (skipTo_append .declaration false
        (if token.kind = .lBrace then 1 else 0) ahead)
      rw [List.length_append] at hl
      rw [List.length_cons]
      omega

/-- An item that passes a token if it succeeds passes one in any case, recovery included. -/
theorem recovering_declaration_passes {step : Parse Unit} [hk : Keeps Advanced step]
    (h : ∀ {input state after}, step input state = (some (), after) →
      after.ahead.length < state.ahead.length) : Passes (recovering .declaration step) := by
  intro input state hs
  have ha := (hk.keeps input state).length_le
  unfold recovering
  split
  · next after he => exact h he
  · next after he =>
    rw [he] at ha
    rw [recover_ahead]
    by_cases hless : after.ahead.length < state.ahead.length
    · have hl := congrArg List.length (skipTo_append .declaration
        (!decide (after.ahead.length < state.ahead.length)) 0 after.ahead)
      rw [List.length_append] at hl
      omega
    · have hnil : after.ahead ≠ [] := by
        intro hnil
        rw [hnil] at hless
        exact hless (List.length_pos_iff.mpr hs)
      simp only [hless, decide_false, Bool.not_false]
      exact Nat.lt_of_lt_of_le (skipTo_declaration_passes hnil) ha

/-- An item of the list of declarations passes a token, recovery included. -/
theorem recovering_passes : Passes (recovering .declaration topLevelDeclaration) :=
  recovering_declaration_passes topLevelDeclaration_passes

/-- A loop comes to where it stops if each of its rounds stops there or passes a token. -/
theorem loopAtMost_stops {step : Parse Bool} {input : Input} {P Q : State → Prop}
    (hstep : ∀ state, P state →
      (step input state = (some false, state) ∧ Q state) ∨
        ∃ after, step input state = (some true, after) ∧ P after ∧
          after.ahead.length < state.ahead.length)
    (rounds : Nat) (state : State) (hp : P state) (hr : state.ahead.length < rounds) :
    ∃ after, loopAtMost rounds step input state = (some (), after) ∧ P after ∧ Q after := by
  induction rounds generalizing state with
  | zero => omega
  | succ rounds ih =>
    rcases hstep state hp with ⟨he, hq⟩ | ⟨after, he, ha, hl⟩
    · exact ⟨state, by simp [loopAtMost, Bind.bind, Pure.pure, he], hp, hq⟩
    · simpa [loopAtMost, Bind.bind, he] using ih after ha (by omega)

theorem loop_stops {step : Parse Bool} {input : Input} {P Q : State → Prop}
    (hstep : ∀ state, P state →
      (step input state = (some false, state) ∧ Q state) ∨
        ∃ after, step input state = (some true, after) ∧ P after ∧
          after.ahead.length < state.ahead.length)
    (state : State) (hp : P state) :
    ∃ after, loop step input state = (some (), after) ∧ P after ∧ Q after :=
  loopAtMost_stops hstep _ state hp (Nat.lt_succ_self _)

/-- A step that never fails. -/
def Succeeds {α : Type} (step : Parse α) : Prop := ∀ input state, (step input state).1.isSome

theorem Succeeds.bind {α β : Type} {step : Parse α} {next : α → Parse β} (h : Succeeds step)
    (hn : ∀ value, Succeeds (next value)) : Succeeds (step >>= next) := by
  intro input state
  obtain ⟨value, hv⟩ := Option.isSome_iff_exists.mp (h input state)
  have he : step input state = (some value, (step input state).2) := Prod.ext hv rfl
  simp only [Bind.bind]
  rw [he]
  exact hn value input _

theorem succeeds_recovering (resume : Resume) (step : Parse Unit) :
    Succeeds (recovering resume step) := by
  intro input state
  unfold recovering
  split <;> rfl

theorem succeeds_loopAtMost {step : Parse Bool} (h : Succeeds step) (rounds : Nat) :
    Succeeds (loopAtMost rounds step) := by
  induction rounds with
  | zero => exact fun _ _ => rfl
  | succ rounds ih =>
    apply h.bind
    intro again
    cases again with
    | false => exact fun _ _ => rfl
    | true => exact ih

theorem succeeds_whileAt (kind : TokenKind) {step : Parse Unit} (h : Succeeds step) :
    Succeeds (whileAt kind step) := by
  intro input state
  apply succeeds_loopAtMost
  have hat : Succeeds (isAt kind) := fun _ _ => rfl
  apply hat.bind
  intro here
  cases here with
  | false => exact fun _ _ => rfl
  | true => exact h.bind fun _ _ _ => rfl

/-- One round of the list of declarations stops at the end of the tokens, and passes one of them
otherwise. -/
theorem declarationRound (input : Input) (state : State)
    (hp : ∀ token ∈ state.ahead, token.kind ≠ .eof) :
    let round : Parse Bool := do
      if ← atEnd then return false
      else if ← eat .semicolon then return true
      else
        recovering .declaration topLevelDeclaration
        return true
    (round input state = (some false, state) ∧ state.ahead = []) ∨
      ∃ after, round input state = (some true, after) ∧
        (∀ token ∈ after.ahead, token.kind ≠ .eof) ∧
          after.ahead.length < state.ahead.length := by
  obtain ⟨ahead, builder, errors⟩ := state
  cases ahead with
  | nil =>
    left
    simp [Bind.bind, Pure.pure, atEnd, isAt, look, kindAt]
  | cons token ahead =>
    right
    have hend : token.kind ≠ .eof := hp token (by simp)
    by_cases hsemicolon : token.kind = .semicolon
    · refine ⟨⟨ahead, builder.token token, errors⟩, ?_, fun t ht => hp t (by simp [ht]), by simp⟩
      simp [Bind.bind, Pure.pure, atEnd, isAt, eat, look, kindAt, hsemicolon, bump]
    · have hs := succeeds_recovering .declaration topLevelDeclaration input
        ⟨token :: ahead, builder, errors⟩
      have hl := recovering_passes input ⟨token :: ahead, builder, errors⟩ (by simp)
      have hk : Keeps Advanced (recovering .declaration topLevelDeclaration) := inferInstance
      have ha := hk.keeps input ⟨token :: ahead, builder, errors⟩
      obtain ⟨result, after, he⟩ : ∃ result after, recovering .declaration topLevelDeclaration input
          ⟨token :: ahead, builder, errors⟩ = (result, after) := ⟨_, _, rfl⟩
      rw [he] at hs hl ha
      obtain ⟨value, rfl⟩ := Option.isSome_iff_exists.mp hs
      refine ⟨after, ?_, fun t ht => hp t (ha.suffix.subset ht), hl⟩
      simp [Bind.bind, Pure.pure, atEnd, isAt, eat, look, kindAt, hend, hsemicolon, he]

/-- A step that leaves no token ahead, where none of them is the end. -/
def ReachesEnd {α : Type} (step : Parse α) : Prop :=
  ∀ input state, (∀ token ∈ state.ahead, token.kind ≠ .eof) → (step input state).2.ahead = []

/-- A step that does not fail may come before one that reaches the end. -/
theorem ReachesEnd.after {α β : Type} {step : Parse α} {next : α → Parse β} (h : Succeeds step)
    [hk : Keeps Advanced step] (hn : ∀ value, ReachesEnd (next value)) :
    ReachesEnd (step >>= next) := by
  intro input state hp
  have hs := h input state
  have ha := hk.keeps input state
  obtain ⟨result, middle, he⟩ : ∃ result middle, step input state = (result, middle) := ⟨_, _, rfl⟩
  rw [he] at hs ha
  obtain ⟨value, rfl⟩ := Option.isSome_iff_exists.mp hs
  simp only [Bind.bind, he]
  exact hn value input middle fun token ht => hp token (ha.suffix.subset ht)

/-- The list of declarations goes on to the end. -/
theorem declarations_reach_end : ReachesEnd (loop do
    if ← atEnd then return false
    else if ← eat .semicolon then return true
    else
      recovering .declaration topLevelDeclaration
      return true) := by
  intro input state hp
  obtain ⟨after, he, -, hnil⟩ := loop_stops (declarationRound input) state hp
  rw [he]
  exact hnil

theorem succeeds_eat (kind : TokenKind) : Succeeds (eat kind) := by
  have hat : Succeeds (isAt kind) := fun _ _ => rfl
  have hbump : Succeeds bump := by
    rintro input ⟨_ | ⟨token, ahead⟩, builder, errors⟩ <;> rfl
  refine hat.bind fun here => ?_
  split
  · exact hbump.bind fun _ _ _ => rfl
  · exact fun _ _ => rfl

/-- A file is parsed without a failure. -/
theorem succeeds_compilationUnit : Succeeds compilationUnit := by
  have hround : Succeeds (do
      if ← atEnd then return false
      else if ← eat .semicolon then return true
      else
        recovering .declaration topLevelDeclaration
        return true : Parse Bool) := by
    have hend : Succeeds atEnd := fun _ _ => rfl
    refine hend.bind fun here => ?_
    split
    · exact fun _ _ => rfl
    · refine (succeeds_eat .semicolon).bind fun here => ?_
      split
      · exact fun _ _ => rfl
      · exact (succeeds_recovering _ _).bind fun _ _ _ => rfl
  have hlist := fun input state => succeeds_loopAtMost hround (state.ahead.length + 1) input state
  have himports := succeeds_whileAt .kwImport (succeeds_recovering .declaration importDecl)
  have hlook : Succeeds (look atPackageDeclaration) := fun _ _ => rfl
  unfold compilationUnit
  dsimp only
  refine hlook.bind fun here => ?_
  split
  · exact (succeeds_recovering _ _).bind fun _ => himports.bind fun _ => hlist
  · exact himports.bind fun _ => hlist

/-- A file is parsed until no token is ahead. -/
theorem compilationUnit_reaches_end : ReachesEnd compilationUnit := by
  unfold compilationUnit
  dsimp only
  have himports := succeeds_whileAt .kwImport (succeeds_recovering .declaration importDecl)
  have hlook : Succeeds (look atPackageDeclaration) := fun _ _ => rfl
  apply ReachesEnd.after hlook
  intro atPackage
  split
  · apply ReachesEnd.after (succeeds_recovering .declaration packageDecl)
    intro _
    exact ReachesEnd.after himports fun _ => declarations_reach_end
  · exact ReachesEnd.after himports fun _ => declarations_reach_end

end Parser

/-! ### The finished tree -/

namespace Tree

/-- Comments are no tokens of the tree. -/
theorem tokens_attachHere (layout : CommentLayout) (tree : Tree) :
    (attachHere layout tree).tokens = tree.tokens := by
  have hadd (preceding following : List Token) :
      (tree.addComments preceding following).tokens = tree.tokens := by
    cases tree <;> rfl
  unfold attachHere
  split
  · split
    · rfl
    · split
      · exact hadd _ _
      · rfl
  · rfl

mutual

/-- Attaching comments changes no token of a tree. -/
theorem tokens_attachWith (layout : CommentLayout) : (tree : Tree) →
    (tree.attachWith layout).tokens = tree.tokens
  | .node kind anchor extent comments children => by
    rw [attachWith, tokens_attachHere, tokens, tokens, tokensOf_attachAll layout children]
  | .error region comments => by rw [attachWith, tokens_attachHere]

/-- Attaching comments changes no token of any of some trees. -/
theorem tokensOf_attachAll (layout : CommentLayout) : (children : List Tree) →
    tokensOf (attachAll layout children) = tokensOf children
  | [] => rfl
  | child :: rest => by
    rw [attachAll, tokensOf, tokensOf, tokens_attachWith layout child,
      tokensOf_attachAll layout rest]

end

end Tree

theorem Parser.composite_startState (tokens : List Token) :
    (Parser.State.start tokens).builder.Composite := by
  simp [Parser.State.start, Builder.new, Builder.Composite]

/-- The end is not among the tokens that the grammar sees. -/
theorem Parser.significant_start (tokens : List Token) :
    ∀ token ∈ (Parser.State.start tokens).ahead, token.kind ≠ .eof := by
  intro token hm hk
  have hsignificant := (List.mem_filter.1 hm).2
  simp [Token.isSignificant, hk] at hsignificant

/-- The tokens of the tree are the significant tokens of the text, in the order of the text. -/
theorem tokens_root_parseSource (text : String) (options : ParseOptions) :
    (parseSource text options).root.tokens = (tokenize text).filter Token.isSignificant := by
  have hroot : (parseSource text options).root.tokens =
      (Parser.compilationUnit { source := text, endToken := (tokenize text).getLastD default }
        (.start (tokenize text))).2.builder.finish.tokens := by
    simp only [parseSource]
    split
    · exact Tree.tokens_attachWith _ _
    · rfl
  rw [hroot]
  generalize hinput : ({ source := text, endToken := _ } : Parser.Input) = input
  have hk : Parser.Keeps Parser.Conserved Parser.compilationUnit := inferInstance
  obtain ⟨hc, ht, -⟩ := hk.keeps input (.start (tokenize text)) (Parser.composite_startState _)
  have hend := Parser.compilationUnit_reaches_end input (.start (tokenize text))
    (Parser.significant_start _)
  rw [Builder.tokens_finish hc]
  simp only [Parser.State.tokens, hend, List.append_nil] at ht
  rw [ht]
  simp [Parser.State.start, Builder.new, Builder.tokens, Tree.tokensOf]

end JavaGraph
