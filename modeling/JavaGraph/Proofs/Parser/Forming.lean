import JavaGraph.Proofs.Parser.Progress
import JavaGraph.Proofs.Tree.Formed
/-!
# Steps that form what they build

A step that succeeds adds formed trees to the innermost node, for the tokens that it passes. One that
fails leaves nodes open, and recovery takes back what it has built. Most steps form whatever they
build, which instance search finds. Of a few it matters what exactly they add, where some tokens are
ahead or where some trees have been built since a place; these carry a goal.
-/

namespace JavaGraph.Parser

open Parse

set_option synthInstance.maxSize 8192
set_option autoImplicit false

/-- What is asked of the trees that have been added and of the tokens that are left. -/
abbrev Goal := List Tree → List Token → Prop

/-- Since `base`, formed trees that meet a goal have been added for the tokens passed of `start`; or
nodes are open. -/
def Grown {α : Type} (base : Builder) (start : List Token) (goal : α → Goal) :
    Option α × State → Prop
  | (some value, after) => ∃ added, base.Adds added after.builder ∧
      start = Tree.tokensOf added ++ after.ahead ∧ (∀ tree ∈ added, tree.Formed) ∧
        goal value added after.ahead
  | (none, after) => base.Above after.builder

/-- A step that adds formed trees where some tokens are ahead. -/
def FormsFrom {α : Type} (ahead : List Token) (step : Parse α) (goal : α → Goal) : Prop :=
  ∀ input state, state.ahead = ahead → state.builder.Composite →
    Grown state.builder ahead goal (step input state)

/-- A step that goes on with the trees `moved`, which have been added since `base`. -/
def GrowsFrom {α : Type} (base : Builder) (moved : List Tree) (ahead : List Token) (step : Parse α)
    (goal : α → Goal) : Prop :=
  ∀ input state, state.ahead = ahead → base.Composite → base.Adds moved state.builder →
    (∀ tree ∈ moved, tree.Formed) → Grown base (Tree.tokensOf moved ++ ahead) goal (step input state)

/-- A step that forms what it builds, wherever it begins. -/
class Forming {α : Type} (step : Parse α) : Prop where
  forms : ∀ ahead, FormsFrom ahead step fun _ _ _ => True

section

variable {α β : Type} {base : Builder} {moved : List Tree} {ahead start : List Token}
  {step yes no : Parse α} {goal goal' : α → Goal} {input : Input} {state : State}

theorem Grown.mono {result : Option α × State} (h : Grown base start goal result)
    (hle : ∀ value added rest, start = Tree.tokensOf added ++ rest → goal value added rest →
      goal' value added rest) : Grown base start goal' result := by
  match result, h with
  | (some value, after), ⟨added, ha, ht, hf, hg⟩ => exact ⟨added, ha, ht, hf, hle _ _ _ ht hg⟩
  | (none, after), h => exact h

theorem FormsFrom.mono (h : FormsFrom ahead step goal)
    (hle : ∀ value added rest, ahead = Tree.tokensOf added ++ rest → goal value added rest →
      goal' value added rest) : FormsFrom ahead step goal' :=
  fun input state ha hc => (h input state ha hc).mono hle

theorem GrowsFrom.mono (h : GrowsFrom base moved ahead step goal)
    (hle : ∀ value added rest, Tree.tokensOf moved ++ ahead = Tree.tokensOf added ++ rest →
      goal value added rest → goal' value added rest) : GrowsFrom base moved ahead step goal' :=
  fun input state ha hc hm hf => (h input state ha hc hm hf).mono hle

theorem Forming.of_forms {goal : List Token → α → Goal}
    (h : ∀ ahead, FormsFrom ahead step (goal ahead)) : Forming step :=
  ⟨fun ahead => (h ahead).mono fun _ _ _ _ _ => trivial⟩

theorem forming [h : Forming step] : FormsFrom ahead step fun _ _ _ => True := h.forms ahead

/-! ### Steps that change nothing -/

/-- Nothing has been added. -/
theorem grown_nothing (value : α) (state : State) (hg : goal value [] state.ahead) :
    Grown state.builder state.ahead goal (some value, state) :=
  ⟨[], Builder.adds_nil _, rfl, nofun, hg⟩

theorem formsFrom_pure (value : α) (hg : goal value [] ahead) :
    FormsFrom ahead (pure value) goal := by
  rintro input state rfl _
  exact grown_nothing value state hg

theorem growsFrom_pure (value : α) (hg : goal value moved ahead) :
    GrowsFrom base moved ahead (pure value) goal := by
  rintro input state rfl _ ha hf
  exact ⟨moved, ha, rfl, hf, hg⟩

/-- A step that succeeds and builds nothing. -/
theorem Forming.still (h : ∀ input state, ∃ value after, step input state = (some value, after) ∧
    after.ahead = state.ahead ∧ after.builder = state.builder) : Forming step := by
  constructor
  rintro ahead input state rfl _
  obtain ⟨value, after, he, ha, hb⟩ := h input state
  rw [he]
  exact ⟨[], hb ▸ Builder.adds_nil _, ha.symm, nofun, trivial⟩

instance (value : α) : Forming (pure value) := ⟨fun _ => formsFrom_pure value trivial⟩

instance (f : List Token → α) : Forming (look f) :=
  .still fun _ state => ⟨f state.ahead, _, rfl, rfl, rfl⟩

instance (kind : TokenKind) : Forming (isAt kind) := by unfold isAt; infer_instance

instance (n : Nat) (kind : TokenKind) : Forming (isAtNth n kind) := by
  unfold isAtNth; infer_instance

instance : Forming atEnd := by unfold atEnd; infer_instance

instance (what : String) : Forming (errorExpected what) :=
  .still fun _ _ => ⟨(), _, rfl, rfl, rfl⟩

theorem formsFrom_fail : FormsFrom ahead (fail : Parse α) goal := by
  rintro input state rfl _
  exact (Builder.adds_nil state.builder).above

instance : Forming (fail : Parse α) := ⟨fun _ => formsFrom_fail⟩

/-! ### Steps put together -/

/-- What a step adds comes behind what is there. -/
theorem FormsFrom.grows (h : FormsFrom ahead step goal) :
    GrowsFrom base moved ahead step fun value added rest =>
      ∃ more, added = moved ++ more ∧ ahead = Tree.tokensOf more ++ rest ∧ goal value more rest := by
  rintro input state rfl hc hm hf
  have hs := h input state rfl (hm.composite hc)
  generalize step input state = result at hs
  match result, hs with
  | (some value, after), ⟨more, ha, ht, hf', hg⟩ =>
    refine ⟨moved ++ more, hm.trans ha, ?_, ?_, more, rfl, ht, hg⟩
    · rw [Tree.tokensOf_append, List.append_assoc, ← ht]
    · rw [List.forall_mem_append]
      exact ⟨hf, hf'⟩
  | (none, after), hs => exact .of_adds hm hs

/-- Steps in sequence go on with what there is. -/
theorem GrowsFrom.bind {next : α → Parse β} {last : β → Goal}
    (h : GrowsFrom base moved ahead step goal)
    (hn : ∀ value added rest, goal value added rest → GrowsFrom base added rest (next value) last) :
    GrowsFrom base moved ahead (step >>= next) last := by
  rintro input state ha hc hm hf
  have hs := h input state ha hc hm hf
  simp only [Bind.bind]
  generalize step input state = result at hs
  obtain ⟨_ | value, after⟩ := result
  · exact hs
  · obtain ⟨added, hadds, ht, hf', hg⟩ := hs
    rw [ht]
    exact hn value added after.ahead hg input after rfl hc hadds hf'

/-- Steps in sequence add one after the other. -/
theorem FormsFrom.bind {next : α → Parse β} {last : β → Goal} (h : FormsFrom ahead step goal)
    (hn : ∀ value added rest, ahead = Tree.tokensOf added ++ rest → goal value added rest →
      FormsFrom rest (next value) fun value' more => last value' (added ++ more)) :
    FormsFrom ahead (step >>= next) last := by
  rintro input state rfl hc
  have hs := h input state rfl hc
  simp only [Bind.bind]
  generalize step input state = result at hs
  obtain ⟨_ | value, after⟩ := result
  · exact hs
  · obtain ⟨added, hadds, ht, hf, hg⟩ := hs
    have hnext := (hn value added after.ahead ht hg).grows input after rfl hc hadds hf
    rw [ht]
    refine hnext.mono ?_
    rintro value' _ rest - ⟨more, rfl, -, hlast⟩
    exact hlast

/-- Behind a checkpoint everything is built since then. -/
theorem formsFrom_checkpoint {next : Checkpoint → Parse α}
    (h : ∀ base : Builder, GrowsFrom base [] ahead (next base.checkpoint) goal) :
    FormsFrom ahead (checkpoint >>= next) goal := by
  rintro input state rfl hc
  exact h state.builder input state rfl hc (Builder.adds_nil _) nofun

/-- A step behind a look ahead begins where the look was taken. -/
theorem formsFrom_look {f : List Token → α} {next : α → Parse β} {last : β → Goal}
    (h : FormsFrom ahead (next (f ahead)) last) : FormsFrom ahead (look f >>= next) last := by
  rintro input state rfl hc
  exact h input state rfl hc

theorem growsFrom_look {f : List Token → α} {next : α → Parse β} {last : β → Goal}
    (h : GrowsFrom base moved ahead (next (f ahead)) last) :
    GrowsFrom base moved ahead (look f >>= next) last := by
  rintro input state rfl hc hm hf
  exact h input state rfl hc hm hf

theorem formsFrom_onAhead {f : List Token → Parse α} (h : FormsFrom ahead (f ahead) goal) :
    FormsFrom ahead (onAhead f) goal := by
  rintro input state rfl hc
  exact h input state rfl hc

theorem FormsFrom.ite {condition : Prop} [Decidable condition]
    (hy : condition → FormsFrom ahead yes goal) (hn : ¬ condition → FormsFrom ahead no goal) :
    FormsFrom ahead (if condition then yes else no) goal := by
  split
  · next h => exact hy h
  · next h => exact hn h

theorem GrowsFrom.ite {condition : Prop} [Decidable condition]
    (hy : condition → GrowsFrom base moved ahead yes goal)
    (hn : ¬ condition → GrowsFrom base moved ahead no goal) :
    GrowsFrom base moved ahead (if condition then yes else no) goal := by
  split
  · next h => exact hy h
  · next h => exact hn h

instance (step : Parse α) (next : α → Parse β) [Forming step] [∀ value, Forming (next value)] :
    Forming (step >>= next) :=
  ⟨fun _ => forming.bind fun _ _ _ _ _ => forming⟩

instance (f : α → β) (step : Parse α) [Forming step] : Forming (f <$> step) :=
  inferInstanceAs (Forming (step >>= fun value => pure (f value)))

instance (step : Parse α) [Forming step] : Forming (discard step) :=
  inferInstanceAs (Forming (step >>= fun _ => pure PUnit.unit))

instance (condition : Prop) [Decidable condition] (yes no : Parse α) [Forming yes] [Forming no] :
    Forming (if condition then yes else no) :=
  ⟨fun _ => .ite (fun _ => forming) fun _ => forming⟩

instance (f : List Token → Parse α) [∀ ahead, Forming (f ahead)] : Forming (onAhead f) :=
  ⟨fun _ => formsFrom_onAhead forming⟩

instance forming_loopAtMost (rounds : Nat) (step : Parse Bool) [Forming step] :
    Forming (loopAtMost rounds step) := by
  induction rounds with
  | zero => unfold loopAtMost; infer_instance
  | succ rounds ih => unfold loopAtMost; infer_instance

instance (step : Parse Bool) [Forming step] : Forming (loop step) := by unfold loop; infer_instance

instance (kind : TokenKind) (step : Parse Unit) [Forming step] : Forming (whileAt kind step) := by
  unfold whileAt; infer_instance

/-- What the first round of a loop adds is there when the loop ends. -/
theorem FormsFrom.loop {round : Parse Bool} [Forming round] {first : Bool → Goal}
    {last : Unit → Goal} (h : FormsFrom ahead round first)
    (hlast : ∀ again added middle more rest, first again added middle → last () (added ++ more) rest) :
    FormsFrom ahead (loop round) last := by
  have hround : FormsFrom ahead (round >>= fun again =>
      if again = true then loopAtMost ahead.length round else pure PUnit.unit) last :=
    h.bind fun again added middle _ hg => .ite
      (fun _ => forming.mono fun _ more rest _ _ => hlast again added middle more rest hg)
      fun _ => formsFrom_pure _ (hlast again added middle [] middle hg)
  exact formsFrom_onAhead hround

/-- What every round keeps is kept by all. -/
theorem GrowsFrom.rounds {round : Parse Bool} {keep : Goal} (rounds : Nat)
    (h : ∀ moved ahead, keep moved ahead → GrowsFrom base moved ahead round fun _ => keep)
    (hk : keep moved ahead) : GrowsFrom base moved ahead (loopAtMost rounds round) fun _ => keep := by
  induction rounds generalizing moved ahead with
  | zero => exact growsFrom_pure () hk
  | succ rounds ih =>
    exact (h moved ahead hk).bind fun again added rest hkeep =>
      .ite (fun _ => ih hkeep) fun _ => growsFrom_pure _ hkeep

theorem GrowsFrom.loop {round : Parse Bool} {keep : Goal}
    (h : ∀ moved ahead, keep moved ahead → GrowsFrom base moved ahead round fun _ => keep)
    (hk : keep moved ahead) : GrowsFrom base moved ahead (loop round) fun _ => keep :=
  fun input state => GrowsFrom.rounds _ h hk input state

/-- A loop whose rounds pass tokens ends where a round asks for no other. -/
theorem GrowsFrom.loop_until {round : Parse Bool} {keep done : Goal}
    (h : ∀ moved ahead, keep moved ahead → GrowsFrom base moved ahead round fun again added rest =>
      if again = true then keep added rest ∧ rest.length < ahead.length else done added rest)
    (hk : keep moved ahead) : GrowsFrom base moved ahead (Parser.loop round) fun _ => done := by
  have hrounds : ∀ (rounds : Nat) (moved : List Tree) (ahead : List Token), keep moved ahead →
      ahead.length < rounds →
        GrowsFrom base moved ahead (loopAtMost rounds round) fun _ => done := by
    intro rounds
    induction rounds with
    | zero => exact fun _ _ _ hr => absurd hr (Nat.not_lt_zero _)
    | succ rounds ih =>
      intro moved ahead hk hr
      refine (h moved ahead hk).bind fun again added rest hround => ?_
      cases again with
      | true => exact ih added rest hround.1 (Nat.lt_of_lt_of_le hround.2 (Nat.le_of_lt_succ hr))
      | false => exact growsFrom_pure _ hround
  rintro input state rfl
  exact hrounds _ moved state.ahead hk (Nat.lt_succ_self _) input state rfl

/-! ### Tokens -/

/-- A token that is passed. -/
theorem grown_token (token : Token) (rest : List Token) (builder : Builder)
    (errors : List ParseError) (value : α) (hg : goal value [.leaf token] rest) :
    Grown builder (token :: rest) goal (some value, ⟨rest, builder.token token, errors⟩) := by
  refine ⟨[.leaf token], Builder.adds_push builder (.leaf token), ?_, ?_, hg⟩
  · simp [Tree.tokensOf]
  · rw [List.forall_mem_singleton]
    exact Tree.formed_leaf token

/-- The next token is passed, if there is one. -/
theorem formsFrom_bump : FormsFrom ahead bump fun _ added _ =>
    added = (ahead.head?.map Tree.leaf).toList := by
  rintro input ⟨ahead, builder, errors⟩ rfl _
  cases ahead with
  | nil => exact grown_nothing () _ rfl
  | cons token rest => exact grown_token token rest builder errors () rfl

instance : Forming bump := .of_forms fun _ => formsFrom_bump

/-- As many of the next tokens are passed as there are. -/
theorem formsFrom_bumpMany (count : Nat) : FormsFrom ahead (bumpMany count) fun _ added _ =>
    added = (ahead.take count).map Tree.leaf := by
  induction count generalizing ahead with
  | zero =>
    unfold bumpMany
    exact formsFrom_pure () rfl
  | succ count ih =>
    unfold bumpMany
    refine formsFrom_bump.bind ?_
    rintro - added rest ht rfl
    refine ih.mono ?_
    rintro - more behind - rfl
    cases ahead with
    | nil =>
      obtain rfl : rest = [] := (List.append_eq_nil_iff.1 ht.symm).2
      simp
    | cons token tokens =>
      simp only [List.head?_cons, Option.map_some, Option.toList_some, Tree.tokensOf,
        Tree.tokens_leaf, List.append_nil, List.singleton_append, List.cons.injEq, true_and] at ht
      rw [ht]
      rfl

instance (count : Nat) : Forming (bumpMany count) := .of_forms fun _ => formsFrom_bumpMany count

instance (kind : TokenKind) : Forming (eat kind) := by unfold eat; infer_instance

instance (item : Parse Unit) [Forming item] : Forming (commaSeparated item) := by
  unfold commaSeparated; infer_instance

/-- The next token is of the kind that is expected. -/
theorem formsFrom_expect {kind : TokenKind} (hk : kind ≠ .eof) (what : String) :
    FormsFrom ahead (expect kind what) fun _ added _ =>
      ∃ token, added = [.leaf token] ∧ token.kind = kind := by
  rintro input state rfl _
  rcases expect_cases hk what input state with ⟨token, rest, ha, htoken, he⟩ | ⟨after, he, hb⟩
  · rw [he, ha]
    exact grown_token token rest state.builder state.errors () ⟨token, rfl, htoken⟩
  · rw [he]
    change state.builder.Above after.builder
    rw [hb]
    exact (Builder.adds_nil state.builder).above

instance (kind : TokenKind) (what : String) : Forming (expect kind what) := by
  unfold expect; infer_instance

instance : Forming expectIdent := by unfold expectIdent; infer_instance

instance : Forming expectClosingBrace := by unfold expectClosingBrace; infer_instance

instance : Forming dimensions := by unfold dimensions; infer_instance

/-! ### Nodes -/

/-- One node of a kind that is put together from some trees. -/
def OneNode (kind : NodeKind) (inside : Goal) : Goal := fun added rest =>
  ∃ node, added = [node] ∧ node.kind = kind ∧ inside node.children rest

/-- A step within a node that has some children already adds this node. -/
theorem grown_finishNode {outer : Builder} {frame : Frame} {errors : List ParseError}
    {step : Parse Unit} {goal : Unit → Goal} (h : FormsFrom ahead step goal)
    (hk : frame.kind ≠ .token) (hc : (outer.within [frame]).Composite) (hb : base.Adds [] outer)
    (hf : ∀ tree ∈ frame.children, tree.Formed)
    (hproper : ∀ extent more rest, ahead = Tree.tokensOf more ++ rest → goal () more rest →
      (Tree.node frame.kind frame.anchor extent {} (frame.children ++ more)).Proper) :
    Grown base (Tree.tokensOf frame.children ++ ahead)
      (fun _ : Unit => OneNode frame.kind fun children rest =>
        ∃ more, children = frame.children ++ more ∧ goal () more rest)
      ((step >>= fun _ => finishNode) input ⟨ahead, outer.within [frame], errors⟩) := by
  have hstep := h input ⟨ahead, outer.within [frame], errors⟩ rfl hc
  simp only [Bind.bind]
  generalize step input ⟨ahead, outer.within [frame], errors⟩ = result at hstep
  obtain ⟨_ | _, after⟩ := result
  · exact Builder.Above.of_adds hb (Builder.Above.of_within hstep)
  · obtain ⟨more, hm, ht, hmore, hg⟩ := hstep
    obtain ⟨done, hdk, hda, hdc, hd⟩ := Builder.adds_finishNode_anchor hm
    have hnode : done.toTree =
        .node frame.kind frame.anchor done.extent {} (frame.children ++ more) := by
      rw [Frame.toTree, hdk, hda, hdc]
    rw [hnode] at hd
    refine ⟨_, hb.trans hd, ?_, ?_, _, rfl, rfl, more, rfl, hg⟩
    · rw [List.nil_append, Tree.tokensOf, Tree.tokensOf, List.append_nil, Tree.tokens, if_neg hk,
        Tree.tokensOf_append, List.append_assoc, ← ht]
    · rw [List.nil_append, List.forall_mem_singleton, Tree.formed_node, List.forall_mem_append]
      exact ⟨fun _ => hproper done.extent more after.ahead ht hg, hf, hmore⟩

/-- A node around what has been built since `base`. -/
theorem GrowsFrom.around {kind : NodeKind} {step : Parse Unit} {goal : Unit → Goal}
    (h : FormsFrom ahead step goal) (hk : isInner kind = true)
    (hproper : ∀ anchor extent more rest, Tree.Anchored anchor moved (Tree.tokensOf more ++ rest) →
      ahead = Tree.tokensOf more ++ rest → goal () more rest →
        (Tree.node kind anchor extent {} (moved ++ more)).Proper) :
    GrowsFrom base moved ahead (aroundSince base.checkpoint kind step) fun _ =>
      OneNode kind fun children rest => ∃ more, children = moved ++ more ∧ goal () more rest := by
  rintro input state rfl hc hm hf
  have hkind := ne_token_of_isInner hk
  obtain ⟨outer, frame, ho, rfl, rfl, ha, hstart⟩ :=
    Builder.adds_startAt_anchor hm kind (state.ahead.headD input.endToken)
  have hcomposite := Builder.composite_startAt (hm.composite hc) hkind base.checkpoint
    (state.ahead.headD input.endToken)
  rw [hstart] at hcomposite
  change Grown base _ _ ((step >>= fun _ => finishNode) input
    { state with
      builder := state.builder.startAt base.checkpoint _ (state.ahead.headD input.endToken) })
  rw [hstart]
  refine grown_finishNode h hkind hcomposite ho hf fun extent more rest ht hg => ?_
  refine hproper frame.anchor extent more rest ?_ ht hg
  unfold Tree.Anchored
  rw [ha, ← ht]
  split
  · next first he => rw [he, Option.getD_some]
  · next he =>
    intro next hn
    rw [he, Option.getD_none, List.headD_eq_head?_getD, Option.mem_def.1 hn, Option.getD_some]

/-- A node that is begun at the next token. -/
theorem FormsFrom.inNode {kind : NodeKind} {step : Parse Unit} {goal : Unit → Goal}
    (h : FormsFrom ahead step goal) (hk : isInner kind = true)
    (hproper : ∀ anchor extent more rest, Tree.Anchored anchor [] (Tree.tokensOf more ++ rest) →
      ahead = Tree.tokensOf more ++ rest → goal () more rest →
        (Tree.node kind anchor extent {} more).Proper) :
    FormsFrom ahead (inNode kind step) fun _ => OneNode kind (goal ()) := by
  rintro input state rfl hc
  have hkind := ne_token_of_isInner hk
  have hcomposite : (state.builder.within
      [{ kind, anchor := state.ahead.headD input.endToken }]).Composite :=
    Builder.composite_start hc hkind (state.ahead.headD input.endToken)
  refine Grown.mono (grown_finishNode h hkind hcomposite (Builder.adds_nil state.builder) nofun
    fun extent more rest ht hg => hproper _ extent more rest ?_ ht hg) ?_
  · intro next hn
    rw [← ht] at hn
    rw [List.headD_eq_head?_getD, Option.mem_def.1 hn, Option.getD_some]
  · rintro - added rest - ⟨node, rfl, hk, more, hchildren, hg⟩
    exact ⟨node, rfl, hk, by rw [hchildren]; exact hg⟩

/-- Whether it is enough for a node of a kind to be begun at its first token. -/
@[reducible] def isPlain : NodeKind → Bool
  | .token | .binaryExpr | .instanceOfExpr | .typeRef | .fieldDecl | .methodDecl
  | .constructorDecl => false
  | _ => true

/-- A node of such a kind is as the grammar forms it if it is begun around trees that are firm. -/
theorem proper_of_plain {kind : NodeKind} {anchor : Token} {extent : Option Extent}
    {more : List Tree} {rest : List Token} (hk : isPlain kind = true) (hm : Tree.Firm moved)
    (ha : Tree.Anchored anchor moved (Tree.tokensOf more ++ rest)) :
    (Tree.node kind anchor extent {} (moved ++ more)).Proper := by
  have hne {other : NodeKind} (h : isPlain other = false) : kind ≠ other := by
    rintro rfl
    rw [h] at hk
    cases hk
  have htyped : kind.isTyped = false := by
    cases kind <;> first | rfl | cases hk
  exact (Tree.begun_of_firm (hne rfl) htyped hm ha).proper (hne rfl) (hne rfl) (hne rfl)

theorem isInner_of_isPlain {kind : NodeKind} (h : isPlain kind = true) : isInner kind = true := by
  cases kind <;> first | rfl | cases h

/-- A node of a plain kind is formed if what is in it is. -/
theorem formsFrom_inNode {kind : NodeKind} {step : Parse Unit} (hk : isPlain kind = true)
    {goal : Unit → Goal} (h : FormsFrom ahead step goal) :
    FormsFrom ahead (inNode kind step) fun _ => OneNode kind (goal ()) :=
  h.inNode (isInner_of_isPlain hk) fun _ _ _ _ ha _ _ => proper_of_plain hk Tree.firm_nil ha

/-- A node of a plain kind around firm trees is formed if what is in it is. -/
theorem growsFrom_around {kind : NodeKind} {step : Parse Unit} [Forming step]
    (hk : isPlain kind = true) (hm : Tree.Firm moved) :
    GrowsFrom base moved ahead (aroundSince base.checkpoint kind step) fun _ added _ =>
      ∃ node, added = [node] ∧ node.kind = kind := by
  refine (GrowsFrom.around forming (isInner_of_isPlain hk) fun _ _ _ _ ha _ _ =>
    proper_of_plain hk hm ha).mono ?_
  rintro - added rest - ⟨node, rfl, hkind, -⟩
  exact ⟨node, rfl, hkind⟩

instance (kind : NodeKind) (step : Parse Unit) [hk : Evaluates (isPlain kind)] [Forming step] :
    Forming (inNode kind step) := .of_forms fun _ => formsFrom_inNode hk.eq_true forming

instance (kind : NodeKind) [Evaluates (isPlain kind)] : Forming (tokenNode kind) := by
  unfold tokenNode; infer_instance

/-! ### Recovery -/

/-- Recovery takes back what a failed step has built and adds one error node at most. -/
instance (resume : Resume) (step : Parse Unit) [h : Forming step] [hk : Keeps Conserved step] :
    Forming (recovering resume step) := by
  constructor
  rintro ahead input state rfl hc
  have hstep := h.forms state.ahead input state rfl hc
  have hkept := hk.keeps input state
  unfold recovering
  split
  · next after he =>
    rw [he] at hstep
    exact hstep
  · next after he =>
    rw [he] at hstep hkept
    obtain ⟨region, rest, builder, errors, heq, ht, hadds⟩ := recover_adds resume hstep hkept hc
    rw [heq]
    rcases hadds with ⟨rfl, hadds⟩ | ⟨node, error, hn, -, htokens, hadds⟩
    · exact ⟨[], hadds, ht, nofun, trivial⟩
    · refine ⟨[node], hadds, ?_, ?_, trivial⟩
      · rw [Tree.tokensOf, Tree.tokensOf, List.append_nil, htokens]
        exact ht
      · rw [List.forall_mem_singleton]
        exact Tree.formed_errorNode? hn

end

end JavaGraph.Parser
