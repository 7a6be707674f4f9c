import JavaGraph.Proofs.Parser.Recovery
/-!
# Members and statements pass tokens

A list of members or statements goes on as long as no brace closes it and the text does not end. It
comes to such a place, because every item passes a token: the items that succeed have a token that
they expect, and recovery skips at least the token before which no list ends.
-/

namespace JavaGraph.Parser

open Parse

set_option synthInstance.maxSize 8192

/-- A step that succeeds is followed by the next one. -/
theorem bind_of_some {α β : Type} {step : Parse α} {next : α → Parse β} {input : Input}
    {state middle : State} {value : α} (h : step input state = (some value, middle)) :
    (step >>= next) input state = next value input middle := by
  simp only [Bind.bind, h]

/-- Whether a kind is not that of the end. -/
@[reducible] def isProper : TokenKind → Bool
  | .eof => false
  | _ => true

/-- A step that passes a token if it succeeds. -/
class Consumes {α : Type} (step : Parse α) : Prop where
  consumes : ∀ {input state value after}, step input state = (some value, after) →
    after.ahead.length < state.ahead.length

section

variable {α β : Type}

instance : Consumes (fail : Parse α) := ⟨fun h => by cases h⟩

instance (kind : TokenKind) (what : String) [h : Evaluates (isProper kind)] :
    Consumes (expect kind what) := by
  constructor
  intro input state value after he
  have hend : kind ≠ .eof := by
    rintro rfl
    cases h.eq_true
  rcases expect_cases hend what input state with ⟨token, ahead, ha, -, hs⟩ | ⟨_, hs, -⟩
  · rw [hs] at he
    cases he
    rw [ha]
    exact Nat.lt_succ_self _
  · rw [hs] at he
    cases he

/-- A sequence passes what its first step passes. -/
instance consumes_bind_left (step : Parse α) (next : α → Parse β) [h : Consumes step]
    [hn : ∀ value, Keeps Advanced (next value)] : Consumes (step >>= next) := by
  constructor
  intro input state value after he
  simp only [Bind.bind] at he
  split at he
  · next first middle hm =>
    have ha := ((hn first).keeps input middle).length_le
    rw [he] at ha
    exact Nat.lt_of_le_of_lt ha (h.consumes hm)
  · cases he

/-- A sequence passes what its second step passes. -/
instance consumes_bind_right (step : Parse α) (next : α → Parse β) [h : Keeps Advanced step]
    [hn : ∀ value, Consumes (next value)] : Consumes (step >>= next) := by
  constructor
  intro input state value after he
  simp only [Bind.bind] at he
  split at he
  · next first middle hm =>
    have ha := (h.keeps input state).length_le
    rw [hm] at ha
    exact Nat.lt_of_lt_of_le ((hn first).consumes he) ha
  · cases he

instance (condition : Prop) [Decidable condition] (yes no : Parse α) [hy : Consumes yes]
    [hn : Consumes no] : Consumes (if condition then yes else no) := by
  split
  · exact hy
  · exact hn

/-- A step that passes one of some tokens ahead if it succeeds. -/
def ConsumesFrom (ahead : List Token) (step : Parse α) : Prop :=
  ∀ {input state value after}, state.ahead = ahead → step input state = (some value, after) →
    after.ahead.length < ahead.length

theorem consumesFrom {ahead : List Token} {step : Parse α} [h : Consumes step] :
    ConsumesFrom ahead step := by
  rintro input state value after rfl he
  exact h.consumes he

theorem Consumes.look {f : List Token → α} {next : α → Parse β}
    (h : ∀ ahead, ConsumesFrom ahead (next (f ahead))) : Consumes (look f >>= next) :=
  ⟨fun {_ state _ _} he => h state.ahead rfl he⟩

/-- There is a token to put into the node. -/
theorem consumesFrom_tokenNode {ahead : List Token} (kind : NodeKind)
    (h : kindAt ahead 0 ≠ .eof) : ConsumesFrom ahead (tokenNode kind) := by
  rintro input state value after rfl he
  obtain ⟨ahead, builder, errors⟩ := state
  cases ahead with
  | nil => exact absurd rfl h
  | cons token ahead =>
    cases he
    exact Nat.lt_succ_self _

instance : Consumes expectIdent := by unfold expectIdent; infer_instance

instance (kind : NodeKind) (step : Parse Unit) [Evaluates (isInner kind)] [Consumes step] :
    Consumes (inNode kind step) := by
  unfold inNode; infer_instance

instance (place : Checkpoint) (kind : NodeKind) (step : Parse Unit) [Evaluates (isInner kind)]
    [Consumes step] : Consumes (aroundSince place kind step) := by
  unfold aroundSince; infer_instance

end

/-! ### The grammar -/

section

variable (sub : Nonterminal → Parse Unit) [∀ construct, Keeps Advanced (sub construct)]

instance : Consumes formalParameters := by unfold formalParameters; dsimp only; infer_instance

instance : Consumes (condition sub) := by unfold condition; infer_instance

instance : Consumes (expressionStmt sub) := by unfold expressionStmt; infer_instance

instance : Consumes (methodRest sub) := by unfold methodRest; dsimp only; infer_instance

instance (place : Checkpoint) : Consumes (methodOrFields sub place) := by
  unfold methodOrFields; infer_instance

instance (place : Checkpoint) : Consumes (typedMember sub place) := by
  unfold typedMember; dsimp only; infer_instance

instance (place : Checkpoint) : Consumes (typeDeclaration sub place) :=
  ⟨fun {_ _ value _} h => by cases value; exact typeDeclaration_passes sub h⟩

instance : Consumes (ifStmt sub) := by unfold ifStmt; infer_instance

instance : Consumes (whileStmt sub) := by unfold whileStmt; infer_instance

instance : Consumes (doStmt sub) := by unfold doStmt; infer_instance

instance : Consumes (forStmt sub) := by unfold forStmt; dsimp only; infer_instance

instance : Consumes (returnStmt sub) := by unfold returnStmt; dsimp only; infer_instance

instance : Consumes (throwStmt sub) := by unfold throwStmt; infer_instance

instance (kind : NodeKind) [Evaluates (isInner kind)] : Consumes (jumpStmt kind) := by
  unfold jumpStmt; infer_instance

instance : Consumes (syncStmt sub) := by unfold syncStmt; infer_instance

instance : Consumes (assertStmt sub) := by unfold assertStmt; dsimp only; infer_instance

section

variable (declaration : Checkpoint → Parse Unit) [∀ place, Keeps Advanced (declaration place)]

instance : Consumes (block sub declaration) := by unfold block; infer_instance

instance : Consumes (switchStmt sub declaration) := by unfold switchStmt; infer_instance

end

variable [Consumes (sub .block)]

instance : Consumes (member sub) := by unfold member initializerBlock; infer_instance

instance : Consumes (tryStmt sub) := by unfold tryStmt; dsimp only; infer_instance

variable [Consumes (sub .statement)]

instance : Consumes (labeledStmt sub) := by unfold labeledStmt; infer_instance

variable (declaration : Checkpoint → Parse Unit) [∀ place, Keeps Advanced (declaration place)]

instance : Consumes (statement sub declaration) := by
  unfold statement
  refine .look fun ahead => ?_
  dsimp only [id]
  split
  case h_2 h => exact consumesFrom_tokenNode .emptyStmt (by rw [h]; decide)
  case h_15 =>
    split <;> exact consumesFrom
  all_goals exact consumesFrom

instance [∀ place, Consumes (declaration place)] : Consumes (blockStatement sub declaration) := by
  unfold blockStatement; infer_instance

end

/-- Blocks and statements pass a token, however deep they nest. -/
theorem consumes_nonterminalAtMost (depth : Nat) :
    Consumes (nonterminalAtMost depth .block) ∧ Consumes (nonterminalAtMost depth .statement) := by
  induction depth with
  | zero => exact ⟨inferInstanceAs (Consumes fail), inferInstanceAs (Consumes fail)⟩
  | succ depth ih =>
    obtain ⟨hblock, hstatement⟩ := ih
    exact ⟨inferInstanceAs (Consumes (block _ _)), inferInstanceAs (Consumes (statement _ _))⟩

instance (depth : Nat) : Consumes (nonterminalAtMost depth .block) :=
  (consumes_nonterminalAtMost depth).1

instance (depth : Nat) : Consumes (nonterminalAtMost depth .statement) :=
  (consumes_nonterminalAtMost depth).2

/-! ### Lists -/

/-- No more is left behind what is skipped. -/
theorem length_skipTo_le (resume : Resume) (forced : Bool) (depth : Nat) (ahead : List Token) :
    (skipTo resume forced depth ahead).2.length ≤ ahead.length := by
  have h := congrArg List.length (skipTo_append resume forced depth ahead)
  rw [List.length_append] at h
  omega

/-- Before a token that closes no list, recovery skips something. -/
theorem length_skipTo_statement_le {token : Token} (hk : token.kind ≠ .rBrace) (forced : Bool)
    (ahead : List Token) :
    (skipTo .statement forced 0 (token :: ahead)).2.length ≤ ahead.length := by
  simp only [skipTo, if_neg hk]
  split
  · exact Nat.le_refl _
  · simpa using length_skipTo_le ..

/-- The end is not among the tokens ahead. -/
def State.Significant (state : State) : Prop := ∀ token ∈ state.ahead, token.kind ≠ .eof

/-- A list of members or statements stops here: before a closing brace, or at the end. -/
def State.Stopped (state : State) : Prop := ∀ token ∈ state.ahead.head?, token.kind = .rBrace

theorem State.Significant.of_advanced {input : Input} {state after : State}
    (h : state.Significant) (ha : Advanced input state after) : after.Significant :=
  fun token ht => h token (ha.suffix.subset ht)

/-- Where a list has not stopped, some token but a closing brace is next. -/
theorem State.Significant.exists_cons {state : State} (h : state.Significant)
    (hn : ¬ state.Stopped) : ∃ token ahead, state.ahead = token :: ahead ∧
      token.kind ≠ .rBrace ∧ token.kind ≠ .eof := by
  obtain ⟨ahead, builder, errors⟩ := state
  cases ahead with
  | nil => exact absurd (fun _ ht => by cases ht) hn
  | cons token ahead =>
    exact ⟨token, ahead, rfl, fun hk => hn fun _ ht => by cases ht; exact hk,
      h token (List.mem_cons_self ..)⟩

section

variable (step : Parse Unit) [hc : Consumes step] [ha : Keeps Advanced step]

/-- Before a token that closes no list an item passes a token, recovery included. -/
theorem recovering_statement_consumes (input : Input) {state : State}
    (hb : kindAt state.ahead 0 ≠ .rBrace) (hend : kindAt state.ahead 0 ≠ .eof) :
    (recovering .statement step input state).2.ahead.length < state.ahead.length := by
  have hadvanced := ha.keeps input state
  unfold recovering
  split
  · next after he => exact hc.consumes he
  · next after he =>
    rw [he] at hadvanced
    rw [recover_ahead]
    by_cases hl : after.ahead.length < state.ahead.length
    · exact Nat.lt_of_le_of_lt (length_skipTo_le ..) hl
    · -- Nothing was passed, so the token at which the item began is skipped.
      rw [hadvanced.suffix.eq_of_length_le (Nat.le_of_not_lt hl)]
      obtain ⟨ahead, builder, errors⟩ := state
      cases ahead with
      | nil => exact absurd rfl hend
      | cons token ahead => exact Nat.lt_succ_of_le (length_skipTo_statement_le hb ..)

/-- An item passes a token, and the list goes on behind it. -/
theorem recovering_statement_passes (input : Input) {state : State} (hs : state.Significant)
    (hn : ¬ state.Stopped) :
    ∃ after, recovering .statement step input state = (some (), after) ∧ after.Significant ∧
      after.ahead.length < state.ahead.length := by
  have hk : Keeps Advanced (recovering .statement step) := inferInstance
  obtain ⟨_, hv⟩ := Option.isSome_iff_exists.1 (succeeds_recovering .statement step input state)
  obtain ⟨token, ahead, hahead, hbrace, hend⟩ := hs.exists_cons hn
  refine ⟨_, Prod.ext hv rfl, hs.of_advanced (hk.keeps input state), ?_⟩
  exact recovering_statement_consumes step input (by rw [hahead]; exact hbrace)
    (by rw [hahead]; exact hend)

end

/-- A list has stopped where its rounds look for that. -/
theorem State.Significant.stopped_iff {state : State} (h : state.Significant) :
    (kindAt state.ahead 0 == .rBrace || kindAt state.ahead 0 == .eof) = true ↔ state.Stopped := by
  obtain ⟨ahead, builder, errors⟩ := state
  cases ahead with
  | nil => simp [kindAt, State.Stopped]
  | cons token ahead =>
    have hend : token.kind ≠ .eof := h token (List.mem_cons_self ..)
    simp [kindAt, State.Stopped, hend]

section

variable (sub : Nonterminal → Parse Unit) [∀ construct, Keeps Advanced (sub construct)]

/-- Members come to a closing brace or to the end. -/
theorem members_stop [Consumes (sub .block)] (input : Input) (state : State) (hs : state.Significant) :
    ∃ after, members sub input state = (some (), after) ∧ after.Significant ∧ after.Stopped := by
  refine loop_stops (fun state hs => ?_) state hs
  by_cases hstop : state.Stopped
  · have hkind := hs.stopped_iff.2 hstop
    exact .inl ⟨by simp [Bind.bind, Pure.pure, look, hkind], hstop⟩
  · right
    have hkind := Bool.eq_false_iff.2 (mt hs.stopped_iff.1 hstop)
    by_cases hsemicolon : kindAt state.ahead 0 = .semicolon
    · obtain ⟨token, ahead, ha, -, -⟩ := hs.exists_cons hstop
      obtain ⟨_, builder, errors⟩ := state
      cases ha
      refine ⟨⟨ahead, builder.token token, errors⟩, ?_, fun t ht => hs t (.tail _ ht),
        Nat.lt_succ_self _⟩
      simp [Bind.bind, Pure.pure, look, eat, isAt, hsemicolon, bump]
    · obtain ⟨after, he, ha, hl⟩ := recovering_statement_passes (member sub) input hs hstop
      refine ⟨after, ?_, ha, hl⟩
      simp [Bind.bind, Pure.pure, look, hkind, eat, isAt, hsemicolon, he]

/-- Statements come to a closing brace or to the end. -/
theorem blockStatements_stop [Consumes (sub .block)] [Consumes (sub .statement)]
    (declaration : Checkpoint → Parse Unit) [∀ place, Keeps Advanced (declaration place)]
    [∀ place, Consumes (declaration place)] (input : Input) (state : State)
    (hs : state.Significant) :
    ∃ after, blockStatements sub declaration [] input state = (some (), after) ∧
      after.Significant ∧ after.Stopped := by
  refine loop_stops (fun state hs => ?_) state hs
  by_cases hstop : state.Stopped
  · have hkind := hs.stopped_iff.2 hstop
    exact .inl ⟨by simp [Bind.bind, Pure.pure, look, hkind], hstop⟩
  · right
    have hkind := Bool.eq_false_iff.2 (mt hs.stopped_iff.1 hstop)
    obtain ⟨after, he, ha, hl⟩ :=
      recovering_statement_passes (blockStatement sub declaration) input hs hstop
    refine ⟨after, ?_, ha, hl⟩
    simp [Bind.bind, Pure.pure, look, hkind, he]

end

end JavaGraph.Parser
