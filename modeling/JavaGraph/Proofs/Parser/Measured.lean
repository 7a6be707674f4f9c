import JavaGraph.Proofs.Parser.Lossless
import JavaGraph.Proofs.Tree.Measured
/-!
# The parse tree is measured

Tokens are numbered as they stand in the text, and the parser passes them in that order, so that
every node of the finished tree knows the first and the last token it covers.
-/

namespace JavaGraph

/-! ### Tokens are numbered in order -/

/-- The tokens of a text are numbered without a gap. -/
theorem index_tokensFrom (fuel : Nat) (place : Text.Position) (index : Nat) (cs : List Char) :
    (Lexer.tokensFrom fuel place index cs).map (·.index) =
      List.range' index (Lexer.tokensFrom fuel place index cs).length := by
  induction fuel generalizing place index cs with
  | zero => cases cs <;> rfl
  | succ fuel ih =>
    cases cs with
    | nil => rfl
    | cons c rest =>
      simp only [Lexer.tokensFrom, List.map_cons, List.length_cons, List.range'_succ, ih]
      rfl

theorem index_tokenize (text : String) :
    (tokenize text).map (·.index) = List.range (tokenize text).length :=
  (index_tokensFrom ..).trans List.range_eq_range'.symm

/-- A token is found under its number. -/
theorem getElem?_index {text : String} {token : Token} (h : token ∈ tokenize text) :
    (tokenize text)[token.index]? = some token := by
  obtain ⟨k, hk, rfl⟩ := List.getElem_of_mem h
  have hindex : ((tokenize text).map (·.index))[k]? = (List.range (tokenize text).length)[k]? :=
    congrArg (·[k]?) (index_tokenize text)
  rw [List.getElem?_map, List.getElem?_eq_getElem hk, List.getElem?_range hk] at hindex
  have hk' : (tokenize text)[k].index = k := Option.some.inj hindex
  rw [hk', List.getElem?_eq_getElem hk]

theorem inOrder_tokenize (text : String) : InOrder (tokenize text) := by
  have h : ((tokenize text).map (·.index)).Pairwise (· < ·) := by
    rw [index_tokenize]
    exact List.pairwise_lt_range
  exact List.pairwise_map.1 h

namespace Parser

open Parse

set_option synthInstance.maxSize 8192

/-- No token gets lost, and what is built of tokens in order is measured. -/
def StaysMeasured (input : Input) (before after : State) : Prop :=
  Conserved input before after ∧
    (before.builder.Composite → InOrder before.tokens → before.builder.Measured →
      after.builder.Measured)

/-- What is built comes before what is ahead. -/
private theorem State.inOrder_builder {state : State} (h : InOrder state.tokens) :
    InOrder state.builder.tokens := h.sublist (List.sublist_append_left ..)

/-- Recovery adds an error node to what was built before. -/
private theorem recover_measured {input : Input} {before after : State} (resume : Resume)
    (h : StaysMeasured input before after) :
    StaysMeasured input before (recover resume before.builder.checkpoint before.errors.length
      before.ahead.length input after).2 := by
  have hrecovered := recover_conserved resume h.1
  refine ⟨hrecovered, fun hc ho hm => ?_⟩
  obtain ⟨hafter, htokens, herrors⟩ := h.1 hc
  obtain ⟨-, hconserved, -⟩ := hrecovered hc
  have hinorder : InOrder after.tokens := htokens ▸ ho
  have hrewound := (h.2 hc ho hm).rewind hafter (State.inOrder_builder hinorder)
    before.builder.checkpoint
  obtain ⟨error, errors, -, heq⟩ := recover_eq resume before.builder.checkpoint
    before.ahead.length input after herrors
  rw [← hconserved, heq] at ho
  rw [heq]
  replace ho := State.inOrder_builder ho
  revert ho
  dsimp only
  cases hnode : Tree.errorNode? input.source _ error with
  | none => exact fun _ => hrewound
  | some node => exact fun ho => hrewound.push (Tree.measured_errorNode? hnode) ho

instance : Guarantee StaysMeasured where
  refl input state := ⟨Guarantee.refl input state, fun _ _ hm => hm⟩
  trans hab hbc := by
    refine ⟨Guarantee.trans hab.1 hbc.1, fun hc ho hm => ?_⟩
    obtain ⟨hc', ht, -⟩ := hab.1 hc
    exact hbc.2 hc' (ht ▸ ho) (hab.2 hc ho hm)
  bump input token ahead builder errors := by
    have hconserved := Guarantee.bump (R := Conserved) input token ahead builder errors
    refine ⟨hconserved, fun hc ho hm => hm.push (Tree.measured_leaf token) ?_⟩
    rw [← (hconserved hc).2.1] at ho
    exact State.inOrder_builder ho
  record input state error := ⟨Guarantee.record input state error, fun _ _ hm => hm⟩
  start input state kind hk :=
    ⟨Guarantee.start input state kind hk, fun _ _ hm => hm.start kind _⟩
  startAt input state place kind hk :=
    ⟨Guarantee.startAt input state place kind hk, fun hc ho hm =>
      hm.startAt hc (State.inOrder_builder ho) place kind _⟩
  finish input state :=
    ⟨Guarantee.finish input state, fun hc ho hm =>
      hm.finishNode hc (State.inOrder_builder ho)⟩
  recover resume h := recover_measured resume h

end Parser

/-- What is built of a whole file of tokens in order is measured. -/
theorem Parser.measured_finish (input : Parser.Input) {tokens : List Token} (h : InOrder tokens) :
    (Parser.compilationUnit input (.start tokens)).2.builder.finish.Measured := by
  have hk : Parser.Keeps Parser.StaysMeasured Parser.compilationUnit := inferInstance
  have hkept := hk.keeps input (.start tokens)
  have hcomposite := Parser.composite_startState tokens
  have hmeasured : (Parser.State.start tokens).builder.Measured := by
    simp only [Parser.State.start, Builder.new, Builder.Measured, List.forall_mem_cons]
    exact ⟨Frame.measured_new .., List.forall_mem_nil _⟩
  have htokens : (Parser.State.start tokens).tokens = tokens.filter Token.isSignificant := by
    simp [Parser.State.tokens, Parser.State.start, Builder.new, Builder.tokens, Tree.tokensOf]
  have ho : InOrder (Parser.State.start tokens).tokens := by
    rw [htokens]
    exact h.sublist List.filter_sublist
  obtain ⟨hc, ht, -⟩ := hkept.1 hcomposite
  exact (hkept.2 hcomposite ho hmeasured).finish hc
    (Parser.State.inOrder_builder (by rw [ht]; exact ho))

/-- The tree of a text before comments are attached to it. -/
def bareTree (text : String) : Tree :=
  (Parser.compilationUnit { source := text, endToken := (tokenize text).getLastD default }
    (.start (tokenize text))).2.builder.finish

/-- The tree of a text is measured. -/
theorem measured_bareTree (text : String) : (bareTree text).Measured :=
  Parser.measured_finish _ (inOrder_tokenize text)

end JavaGraph
