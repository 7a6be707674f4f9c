import JavaGraph.Proofs.Parser.Progress
import JavaGraph.Proofs.Tree.Shape
/-!
# What steps build

A step that succeeds adds children of the right shape to the innermost node, and their word is one of
an expression. One that fails leaves nodes open, so that recovery can take back what it has built.
The expression follows from the way in which the step is put together, and instance search finds it.

A step may rely on the kinds of the next tokens, which are known where it has been chosen by them. A
step that puts a node around what was built since a place begins with a word that is there already.
-/

namespace JavaGraph.Parser

open Parse
open scoped Computability

set_option synthInstance.maxSize 8192

/-- The next tokens are of these kinds. -/
def Begins : List TokenKind → List Token → Prop
  | [], _ => True
  | kind :: kinds, ahead => ∃ token rest, ahead = token :: rest ∧ token.kind = kind ∧
      Begins kinds rest

/-- Children of the right shape with a word of an expression have been added, or nodes are open. -/
def Yields {α : Type} (base : Builder) (outline : Outline) : Option α × State → Prop
  | (some _, after) => ∃ added, base.Adds added after.builder ∧
      Tree.signs added ∈ outline.matches' ∧ ∀ child ∈ added, child.Shaped
  | (none, after) => base.Above after.builder

/-- A step that adds children with words of an expression where some tokens are ahead. -/
class Builds {α : Type} (known : List TokenKind) (step : Parse α) (outline : outParam Outline) :
    Prop where
  builds : ∀ input state, Begins known state.ahead → Yields state.builder outline (step input state)

/-- A step that makes words of one expression, since `base`, into words of another. -/
def Turns {α : Type} (base : Builder) (known : List TokenKind) (before : Outline)
    (step : Parse α) (after : Outline) : Prop :=
  ∀ input state, Begins known state.ahead → Yields base before (some (), state) →
    Yields base after (step input state)

section

variable {α β : Type} {base : Builder} {known : List TokenKind} {step : Parse α}
  {a b c : Outline} {input : Input} {state : State} {ahead : List Token}

/-- One token of any kind, or none at the end. -/
@[reducible] def anyToken : Outline :=
  .plus .epsilon (.plus (.char .identifier) (.plus (.char .void) (.char .token)))

/-! ### Tokens ahead -/

theorem begins_one {kind : TokenKind} (hk : kind ≠ .eof) (h : kindAt ahead 0 = kind) :
    Begins [kind] ahead := by
  cases ahead with
  | nil => exact absurd h.symm hk
  | cons token rest => exact ⟨token, rest, rfl, h, trivial⟩

theorem begins_two {kind kind' : TokenKind} (hk : kind ≠ .eof) (hk' : kind' ≠ .eof)
    (h : kindAt ahead 0 = kind) (h' : kindAt ahead 1 = kind') : Begins [kind, kind'] ahead := by
  obtain ⟨token, rest, rfl, ht, -⟩ := begins_one hk h
  exact ⟨token, rest, rfl, ht, begins_one hk' h'⟩

/-! ### What is added -/

/-- Nothing has been added. -/
theorem yields_nothing (value : α) (state : State) :
    Yields state.builder .epsilon (some value, state) :=
  ⟨[], Builder.adds_nil _, rfl, nofun⟩

/-- What is added after something is added with it. -/
theorem Yields.trans {result : Option α × State} (h : Yields base a (some (), state))
    (h' : Yields state.builder b result) : Yields base (.comp a b) result := by
  obtain ⟨added, ha, hw, hc⟩ := h
  match result, h' with
  | (some _, after), ⟨more, hm, hw', hc'⟩ =>
    refine ⟨_, ha.trans hm, ?_, ?_⟩
    · rw [Tree.signs_append]
      exact Language.mem_mul.2 ⟨_, hw, _, hw', rfl⟩
    · rw [List.forall_mem_append]
      exact ⟨hc, hc'⟩
  | (none, after), h' => exact .of_adds ha h'

theorem Yields.mono {result : Option α × State} (h : Yields base a result)
    (hle : a.matches' ≤ b.matches') : Yields base b result := by
  match result, h with
  | (some _, after), ⟨added, ha, hw, hc⟩ => exact ⟨added, ha, hle hw, hc⟩
  | (none, after), h => exact h

/-- Only the builder matters. -/
theorem Yields.of_builder {value : α} {other : State} (h : Yields base a (some value, state))
    (hb : other.builder = state.builder) (value' : β) : Yields base a (some value', other) := by
  obtain ⟨added, ha, hw, hc⟩ := h
  exact ⟨added, hb ▸ ha, hw, hc⟩

/-! ### Steps that change nothing -/

/-- A step that succeeds and leaves the builder as it is. -/
theorem Builds.still (h : ∀ input state, ∃ value after, step input state = (some value, after) ∧
    after.builder = state.builder) : Builds known step .epsilon := by
  constructor
  intro input state _
  obtain ⟨value, after, he, hb⟩ := h input state
  rw [he]
  exact (yields_nothing value state).of_builder hb value

instance (value : α) : Builds known (pure value) .epsilon := .still fun _ _ => ⟨value, _, rfl, rfl⟩

instance (f : List Token → α) : Builds known (look f) .epsilon :=
  .still fun _ state => ⟨f state.ahead, _, rfl, rfl⟩

instance : Builds known current .epsilon :=
  .still fun input state => ⟨state.ahead.headD input.endToken, _, rfl, rfl⟩

instance (kind : TokenKind) : Builds known (isAt kind) .epsilon := by unfold isAt; infer_instance

instance (n : Nat) (kind : TokenKind) : Builds known (isAtNth n kind) .epsilon := by
  unfold isAtNth; infer_instance

instance : Builds known atEnd .epsilon := by unfold atEnd; infer_instance

instance (what : String) : Builds known (errorExpected what) .epsilon :=
  .still fun _ _ => ⟨(), _, rfl, rfl⟩

instance : Builds known (fail : Parse α) .zero := by
  constructor
  intro input state _
  exact (Builder.adds_nil state.builder).above

/-! ### Steps put together -/

/-- Steps in sequence turn words one after the other. -/
theorem Turns.bind {next : α → Parse β} (h : Turns base known a step b)
    (hn : ∀ value, Turns base [] b (next value) c) : Turns base known a (step >>= next) c := by
  intro input state hk hy
  have hs := h input state hk hy
  simp only [Bind.bind]
  split
  · next value middle he =>
    rw [he] at hs
    exact hn value input middle trivial hs
  · next after he =>
    rw [he] at hs
    exact hs

/-- What a step adds comes behind what is there. -/
theorem Turns.of_builds (h : Builds known step b) : Turns base known a step (.comp a b) :=
  fun input state hk hy => hy.trans (h.builds input state hk)

theorem Turns.mono (h : Turns base known a step b) (hle : b.matches' ≤ c.matches') :
    Turns base known a step c :=
  fun input state hk hy => (h input state hk hy).mono hle

theorem Turns.ite {condition : Prop} [Decidable condition] {yes no : Parse α}
    (hy : Turns base known a yes b) (hn : Turns base known a no c) :
    Turns base known a (if condition then yes else no) (.plus b c) := by
  split
  · exact hy.mono fun _ => Or.inl
  · exact hn.mono fun _ => Or.inr

/-- A step that changes nothing leaves the words as they are. -/
theorem Turns.pure (value : α) : Turns base known a (Pure.pure value) a :=
  fun _ _ _ hy => hy.of_builder rfl value

/-- A step that makes words into words where some tokens are ahead. -/
def TurnsFrom (base : Builder) (ahead : List Token) (before : Outline) (step : Parse α)
    (after : Outline) : Prop :=
  ∀ input state, state.ahead = ahead → Yields base before (some (), state) →
    Yields base after (step input state)

theorem Turns.from (h : Turns base known a step b) (hb : Begins known ahead) :
    TurnsFrom base ahead a step b := by
  rintro input state rfl hy
  exact h input state hb hy

/-- A step that may begin anywhere. -/
theorem Turns.anywhere (h : Turns base [] a step b) : TurnsFrom base ahead a step b := h.from trivial

/-- A step behind a look ahead begins where the look was taken. -/
theorem Turns.look {f : List Token → α} {next : α → Parse β}
    (h : ∀ ahead, Begins known ahead → TurnsFrom base ahead a (next (f ahead)) b) :
    Turns base known a (Parse.look f >>= next) b :=
  fun input state hb hy => h state.ahead hb input state rfl hy

/-- A step for which the next two tokens have been looked at. -/
theorem Turns.ite_isAt {kind kind' : TokenKind} {yes no : Parse α} (hk : kind ≠ .eof)
    (hk' : kind' ≠ .eof) (hy : Turns base [kind, kind'] a yes b) (hn : Turns base known a no c) :
    Turns base known a (isAt kind >>= fun here => isAtNth 1 kind' >>= fun next =>
      if (here && next) = true then yes else no) (.plus b c) := by
  intro input state hb hw
  change Yields _ _ ((if (kindAt state.ahead 0 == kind && kindAt state.ahead 1 == kind') = true
    then yes else no) input state)
  split
  · next h =>
    rw [Bool.and_eq_true] at h
    have hbegins := begins_two hk hk' (eq_of_beq h.1) (eq_of_beq h.2)
    exact (hy input state hbegins hw).mono fun _ => Or.inl
  · exact (hn input state hb hw).mono fun _ => Or.inr

/-- What turns nothing into words builds them. -/
theorem Builds.of_turns (h : ∀ base : Builder, Turns base known .epsilon step a) :
    Builds known step a :=
  ⟨fun input state hk => h state.builder input state hk (yields_nothing () state)⟩

theorem Builds.mono (h : Builds known step a) (hle : a.matches' ≤ b.matches') :
    Builds known step b :=
  ⟨fun input state hk => (h.builds input state hk).mono hle⟩

/-- Behind a checkpoint everything is built since then. -/
theorem Builds.checkpoint {next : Checkpoint → Parse β}
    (h : ∀ base : Builder, Turns base known .epsilon (next base.checkpoint) a) :
    Builds known (Parser.checkpoint >>= next) a :=
  ⟨fun input state hk => h state.builder input state hk (yields_nothing () state)⟩

/-- A step chosen by the tokens ahead builds what every choice builds. -/
theorem Builds.onAhead {f : List Token → Parse α} (h : ∀ ahead, Builds known (f ahead) a) :
    Builds known (Parse.onAhead f) a :=
  ⟨fun input state => (h state.ahead).builds input state⟩

instance (f : List Token → Parse α) [h : ∀ ahead, Builds known (f ahead) a] :
    Builds known (onAhead f) a := .onAhead h

instance (step : Parse α) (next : α → Parse β) [h : Builds known step a]
    [hn : ∀ value, Builds [] (next value) b] : Builds known (step >>= next) (.comp a b) := by
  constructor
  intro input state hk
  have hs := h.builds input state hk
  simp only [Bind.bind]
  split
  · next value middle he =>
    rw [he] at hs
    exact hs.trans ((hn value).builds input middle trivial)
  · next after he =>
    rw [he] at hs
    exact hs

instance (f : List Token → α) (next : α → Parse β) [h : ∀ value, Builds known (next value) a] :
    Builds known (look f >>= next) a :=
  ⟨fun input state => (h (f state.ahead)).builds input state⟩

instance (kind : TokenKind) (next : Bool → Parse β) [h : ∀ value, Builds known (next value) a] :
    Builds known (isAt kind >>= next) a := by unfold isAt; infer_instance

instance (n : Nat) (kind : TokenKind) (next : Bool → Parse β)
    [h : ∀ value, Builds known (next value) a] : Builds known (isAtNth n kind >>= next) a := by
  unfold isAtNth; infer_instance

instance (condition : Prop) [Decidable condition] (yes no : Parse α) [hy : Builds known yes a]
    [hn : Builds known no b] : Builds known (if condition then yes else no) (.plus a b) := by
  split
  · exact hy.mono fun _ => Or.inl
  · exact hn.mono fun _ => Or.inr

/-- A step for which the next token has been looked at. -/
instance (kind : TokenKind) (yes no : Parse α) [hk : Evaluates (isProper kind)]
    [hy : Builds [kind] yes a] [hn : Builds known no b] :
    Builds known (isAt kind >>= fun here => if here = true then yes else no) (.plus a b) := by
  constructor
  intro input state hb
  have hproper : kind ≠ .eof := by
    rintro rfl
    cases hk.eq_true
  change Yields _ _ ((if (kindAt state.ahead 0 == kind) = true then yes else no) input state)
  split
  · next h =>
    exact (hy.builds input state (begins_one hproper (eq_of_beq h))).mono fun _ => Or.inl
  · exact (hn.builds input state hb).mono fun _ => Or.inr

/-- A step for which the next two tokens have been looked at. -/
instance (kind kind' : TokenKind) (yes no : Parse α) [hk : Evaluates (isProper kind)]
    [hk' : Evaluates (isProper kind')] [hy : Builds [kind, kind'] yes a]
    [hn : Builds known no b] :
    Builds known (isAt kind >>= fun here => isAtNth 1 kind' >>= fun next =>
      if (here && next) = true then yes else no) (.plus a b) := by
  constructor
  intro input state hb
  have hproper : kind ≠ .eof := by
    rintro rfl
    cases hk.eq_true
  have hproper' : kind' ≠ .eof := by
    rintro rfl
    cases hk'.eq_true
  change Yields _ _ ((if (kindAt state.ahead 0 == kind && kindAt state.ahead 1 == kind') = true
    then yes else no) input state)
  split
  · next h =>
    rw [Bool.and_eq_true] at h
    exact (hy.builds input state (begins_two hproper hproper' (eq_of_beq h.1)
      (eq_of_beq h.2))).mono fun _ => Or.inl
  · exact (hn.builds input state hb).mono fun _ => Or.inr

/-- A step behind a token that is known or not. -/
instance (priority := low) (kind : TokenKind) (kinds : List TokenKind) (step : Parse α)
    [h : Builds [] step a] : Builds (kind :: kinds) step a :=
  ⟨fun input state _ => h.builds input state trivial⟩

instance (f : α → β) (step : Parse α) [Builds known step a] :
    Builds known (f <$> step) (.comp a .epsilon) :=
  inferInstanceAs (Builds known (step >>= fun value => pure (f value)) (.comp a .epsilon))

instance (step : Parse α) [Builds known step a] : Builds known (discard step) (.comp a .epsilon) :=
  inferInstanceAs (Builds known (step >>= fun _ => pure PUnit.unit) (.comp a .epsilon))

/-- A round that leaves the words as they were can be repeated. -/
theorem Turns.rounds {step : Parse Bool} (h : Turns base [] a step a) (rounds : Nat) :
    Turns base [] a (loopAtMost rounds step) a := by
  induction rounds with
  | zero => exact fun input state _ hy => hy.of_builder rfl ()
  | succ rounds ih =>
    refine h.bind fun again => ?_
    split
    · exact ih
    · exact fun input state _ hy => hy.of_builder rfl ()

theorem Turns.loop {step : Parse Bool} (h : Turns base [] a step a) :
    Turns base [] a (Parser.loop step) a :=
  fun input state => h.rounds _ input state

instance (rounds : Nat) (step : Parse Bool) [h : Builds [] step a] :
    Builds [] (loopAtMost rounds step) (.star a) := by
  refine .of_turns fun base => ?_
  have hround : Turns base [] (.star a) step (.star a) := by
    refine (Turns.of_builds h).mono ?_
    change (RegularExpression.matches' a)∗ * (RegularExpression.matches' a) ≤
      (RegularExpression.matches' a)∗
    exact kstar_mul_le_kstar
  intro input state hk hy
  refine hround.rounds rounds input state hk (hy.mono ?_)
  exact one_le_kstar

instance (step : Parse Bool) [Builds [] step a] : Builds [] (loop step) (.star a) :=
  .onAhead fun _ => inferInstance

/-- There is a first round. -/
theorem Builds.loop_first {step : Parse Bool} (h : Builds [] step a) :
    Builds [] (loop step) (.comp a (.star a)) := by
  refine .onAhead fun ahead => ?_
  have hagain : ∀ again : Bool, Builds [] (if again = true then loopAtMost ahead.length step
      else pure PUnit.unit) (.star a) := by
    intro again
    split
    · infer_instance
    · exact Builds.mono (a := .epsilon) inferInstance one_le_kstar
  exact inferInstanceAs (Builds [] (step >>= fun again =>
    if again = true then loopAtMost ahead.length step else pure PUnit.unit) _)

instance (kind : TokenKind) (step : Parse Unit) [Evaluates (isProper kind)]
    [h : Builds [kind] step a] :
    Builds [] (whileAt kind step) (.star (.plus (.comp a .epsilon) .epsilon)) := by
  unfold whileAt; infer_instance

/-! ### Tokens -/

/-- A token that is passed. -/
theorem yields_token (token : Token) (rest : List Token) (builder : Builder)
    (errors : List ParseError) (value : α) :
    Yields builder (.char (Sign.ofToken token.kind))
      (some value, ⟨rest, builder.token token, errors⟩) :=
  ⟨[.leaf token], Builder.adds_push .., rfl, by
    rw [List.forall_mem_singleton]
    exact Tree.shaped_leaf token⟩

instance (kind : TokenKind) (kinds : List TokenKind) :
    Builds (kind :: kinds) bump (.char (Sign.ofToken kind)) := by
  constructor
  rintro input ⟨_, builder, errors⟩ ⟨token, rest, rfl, rfl, -⟩
  exact yields_token token rest builder errors ()

instance : Builds [] bump anyToken := by
  constructor
  rintro input ⟨ahead, builder, errors⟩ -
  cases ahead with
  | nil =>
    exact Yields.mono (a := .epsilon) (yields_nothing () ⟨[], builder, errors⟩)
      fun _ => Or.inl
  | cons token rest =>
    refine (yields_token token rest builder errors ()).mono ?_
    rintro word rfl
    right
    cases h : Sign.ofToken token.kind with
    | identifier => exact .inl rfl
    | void => exact .inr (.inl rfl)
    | token => exact .inr (.inr rfl)
    | node kind =>
      revert h
      cases token.kind <;> simp [Sign.ofToken]

/-- The tokens behind a known one are known, too. -/
instance (kind : TokenKind) (kinds : List TokenKind) (next : Unit → Parse β)
    [hn : ∀ value, Builds kinds (next value) a] :
    Builds (kind :: kinds) (bump >>= next) (.comp (.char (Sign.ofToken kind)) a) := by
  constructor
  rintro input ⟨_, builder, errors⟩ ⟨token, rest, rfl, rfl, hrest⟩
  exact (yields_token token rest builder errors ()).trans ((hn ()).builds input _ hrest)

instance (priority := low) builds_bumpMany (count : Nat) : Builds [] (bumpMany count) (.star anyToken) := by
  induction count with
  | zero =>
    unfold bumpMany
    exact Builds.mono (a := .epsilon) inferInstance one_le_kstar
  | succ count ih =>
    unfold bumpMany
    refine Builds.mono (a := .comp anyToken (.star anyToken)) inferInstance ?_
    exact mul_kstar_le_kstar

instance (kind : TokenKind) (kinds : List TokenKind) (count : Nat)
    [h : Builds kinds (bumpMany count) a] :
    Builds (kind :: kinds) (bumpMany (count + 1)) (.comp (.char (Sign.ofToken kind)) a) := by
  unfold bumpMany
  infer_instance

instance : Builds known (bumpMany 0) .epsilon := by unfold bumpMany; infer_instance

instance (kind : TokenKind) [Evaluates (isProper kind)] :
    Builds known (eat kind)
      (.plus (.comp (.char (Sign.ofToken kind)) .epsilon) .epsilon) := by
  unfold eat; infer_instance

/-- A step behind a token that has been passed or is not there. -/
instance (kind : TokenKind) (yes no : Parse α) [hk : Evaluates (isProper kind)]
    [hy : Builds [] yes a] [hn : Builds known no b] :
    Builds known (eat kind >>= fun here => if here = true then yes else no)
      (.plus (.comp (.char (Sign.ofToken kind)) a) b) := by
  have h : (eat kind >>= fun here => if here = true then yes else no) =
      isAt kind >>= fun here => if here = true then bump >>= fun _ => yes else no := by
    unfold eat
    rw [bind_assoc]
    congr 1
    funext here
    cases here <;> simp
  rw [h]
  infer_instance

/-- One or more items with leaves between them. -/
def separated (item : Outline) : Outline :=
  let round := .comp item (.plus (.comp (.char .token) .epsilon) .epsilon)
  .comp round (.star round)

instance (item : Parse Unit) [Builds [] item a] : Builds [] (commaSeparated item) (separated a) :=
  .loop_first (inferInstanceAs (Builds [] (item >>= fun _ => eat .comma) _))

instance (kind : TokenKind) (what : String) [hk : Evaluates (isProper kind)] :
    Builds known (expect kind what) (.char (Sign.ofToken kind)) := by
  constructor
  intro input state _
  have hproper : kind ≠ .eof := by
    rintro rfl
    cases hk.eq_true
  rcases expect_cases hproper what input state with ⟨token, rest, -, rfl, he⟩ | ⟨after, he, hb⟩
  · rw [he]
    exact yields_token token rest state.builder state.errors ()
  · rw [he]
    change state.builder.Above after.builder
    rw [hb]
    exact (Builder.adds_nil state.builder).above

instance : Builds known expectIdent (.char .identifier) := by
  unfold expectIdent
  exact inferInstanceAs (Builds known (expect .ident _) (.char (Sign.ofToken .ident)))

/-! ### Nodes -/

/-- A step within a node that was begun for it, with some children there already. -/
theorem yields_finishNode {outer : Builder} (state : State) (frame : Frame) {step : Parse Unit}
    (h : Builds known step b) (hf : Rule.fits frame.kind (.comp a b) = true)
    (hk : frame.kind ≠ .token) (hbase : base.Adds [] outer)
    (hw : Tree.signs frame.children ∈ a.matches') (hc : ∀ child ∈ frame.children, child.Shaped)
    (hb : state.builder = outer.within [frame]) (hbegins : Begins known state.ahead) :
    Yields base (.char (.node frame.kind)) ((step >>= fun _ => finishNode) input state) := by
  have hs := h.builds input state hbegins
  simp only [Bind.bind]
  generalize step input state = result at hs
  match result, hs with
  | (none, after), hs =>
    change state.builder.Above after.builder at hs
    rw [hb] at hs
    exact Builder.Above.of_adds hbase hs.of_within
  | (some _, after), ⟨more, hm, hw', hc'⟩ =>
    rw [hb] at hm
    obtain ⟨done, hdk, hdc, ha⟩ := Builder.adds_finishNode hm
    refine ⟨[done.toTree], hbase.trans ha, ?_, ?_⟩
    · have hsign : done.toTree.sign? = some (.node frame.kind) := by
        unfold Frame.toTree
        rw [Tree.sign?, hdk, if_neg hk]
      unfold Tree.signs
      rw [List.filterMap_cons_some hsign]
      rfl
    · rw [List.forall_mem_singleton]
      have hfits : Rule.fits done.kind (.comp a b) = true := hdk ▸ hf
      refine Tree.shaped_of_fits hfits ?_ ?_
      · rw [hdc, Tree.signs_append]
        exact Language.mem_mul.2 ⟨_, hw, _, hw', rfl⟩
      · rw [hdc, List.forall_mem_append]
        exact ⟨hc, hc'⟩

/-- A construct is one node if what is built in it keeps the rules of the node. -/
theorem Builds.inNode {kind : NodeKind} {step : Parse Unit} (h : Builds known step a)
    (hf : Rule.fits kind (.comp .epsilon a) = true := by decide +kernel)
    (hk : isInner kind = true := by rfl) :
    Builds known (inNode kind step) (.char (.node kind)) :=
  ⟨fun input state hb => yields_finishNode { state with builder := _ }
    { kind, anchor := state.ahead.headD input.endToken } h hf
    (ne_token_of_isInner hk) (Builder.adds_nil state.builder) rfl nofun rfl hb⟩

/-- What was built since `base` and what a step builds now become one node. -/
theorem Turns.around {kind : NodeKind} {step : Parse Unit} (h : Builds known step b)
    (hf : Rule.fits kind (.comp a b) = true := by decide +kernel) (hk : isInner kind = true := by rfl) :
    Turns base known a (aroundSince base.checkpoint kind step) (.char (.node kind)) := by
  intro input state hb hy
  obtain ⟨added, ha, hw, hc⟩ := hy
  obtain ⟨outer, frame, ho, rfl, rfl, hstart⟩ :=
    Builder.adds_startAt ha kind (state.ahead.headD input.endToken)
  exact yields_finishNode { state with builder := _ } _ h hf (ne_token_of_isInner hk) ho hw
    hc hstart hb

/-! ### Recovery -/

/-- What recovery puts in the place of what has failed has no sign. -/
theorem signs_errorNode? {source : String} {region : List Token} {error : ParseError} {node : Tree}
    (h : Tree.errorNode? source region error = some node) :
    node.sign? = none ∧ node.Shaped := by
  unfold Tree.errorNode? at h
  split at h
  · cases h
    exact ⟨rfl, Tree.shaped_error⟩
  · cases h

instance (resume : Resume) (step : Parse Unit) [h : Builds [] step a] :
    Builds [] (recovering resume step) (.plus a .epsilon) := by
  constructor
  intro input state hb
  have hs := h.builds input state hb
  unfold recovering
  split
  · next after he =>
    rw [he] at hs
    exact hs.mono fun _ => Or.inl
  · next after he =>
    rw [he] at hs
    have hrewind : state.builder.Adds [] (after.builder.rewind state.builder.checkpoint) :=
      Builder.Above.adds_rewind hs
    unfold recover Builder.abandon
    dsimp only
    split
    · next node hn =>
      obtain ⟨error, -, he⟩ := Option.bind_eq_some_iff.1 hn
      obtain ⟨hsign, hshaped⟩ := signs_errorNode? he
      refine ⟨[node], hrewind.trans (Builder.adds_push _ node), .inr ?_, by simpa⟩
      unfold Tree.signs
      rw [List.filterMap_cons_none hsign]
      rfl
    · exact ⟨[], hrewind, .inr rfl, nofun⟩

/-! ### One node -/

/-- One node of a kind of some sort. -/
def nodeOf (sort : NodeKind → Bool) : Outline :=
  Outline.oneOf ((NodeKind.all.filter sort).map .node)

theorem mem_oneOf {signs : List Sign} {sign : Sign} (h : sign ∈ signs) :
    [sign] ∈ (Outline.oneOf signs).matches' := by
  induction signs with
  | nil => cases h
  | cons first rest ih =>
    rcases List.mem_cons.1 h with rfl | h
    · exact .inl rfl
    · exact .inr (ih h)

/-- Any number of some signs. -/
def many (signs : List Sign) : Outline := .star (Outline.oneOf signs)

/-- Leaves and nodes of kinds of some sort, any number of them. -/
def leavesAnd (sort : NodeKind → Bool) : Outline :=
  many ([.identifier, .void, .token] ++ (NodeKind.all.filter sort).map .node)

theorem mem_many {signs word : List Sign} (h : ∀ sign ∈ word, sign ∈ signs) :
    word ∈ (many signs).matches' := by
  refine Language.mem_kstar.2 ⟨word.map fun sign => [sign], ?_, ?_⟩
  · induction word with
    | nil => rfl
    | cons sign rest ih =>
      rw [List.map_cons, List.flatten_cons, ← ih fun sign hs => h sign (List.mem_cons_of_mem _ hs)]
      rfl
  · rintro _ hy
    obtain ⟨sign, hs, rfl⟩ := List.mem_map.1 hy
    exact mem_oneOf (h sign hs)

theorem le_many {signs : List Sign} (h : a.all signs.contains = true) :
    a.matches' ≤ (many signs).matches' :=
  fun _ hw => mem_many fun sign hs => by simpa using Outline.sort_of_all h hw sign hs

/-- Whether every word is one node of a kind of some sort. -/
def isOne (sort : NodeKind → Bool) (outline : Outline) : Bool :=
  outline.single fun
    | .node kind => sort kind
    | _ => false

theorem le_nodeOf {sort : NodeKind → Bool} (h : isOne sort a = true) :
    a.matches' ≤ (nodeOf sort).matches' := by
  intro word hw
  obtain ⟨sign, hs, rfl⟩ := Outline.eq_singleton_of_single h hw
  cases sign with
  | node kind =>
    refine mem_oneOf (List.mem_map_of_mem (List.mem_filter.2 ⟨?_, hs⟩))
    cases kind <;> decide
  | identifier => cases hs
  | void => cases hs
  | token => cases hs

/-- A step that builds one node builds one of a sort. -/
theorem Builds.one {sort : NodeKind → Bool} (h : Builds known step a)
    (hs : isOne sort a = true := by decide +kernel) : Builds known step (nodeOf sort) :=
  h.mono (le_nodeOf hs)

/-- A step that builds some children builds any number of them. -/
theorem Builds.many {signs : List Sign} (h : Builds known step a)
    (hs : a.all signs.contains = true := by decide +kernel) : Builds known step (many signs) :=
  h.mono (le_many hs)

/-- A step that builds some leaves and nodes builds any number of them. -/
theorem Builds.leavesAnd {sort : NodeKind → Bool} (h : Builds known step a)
    (hs : a.all ([Sign.identifier, .void, .token] ++
      (NodeKind.all.filter sort).map Sign.node).contains = true := by decide +kernel) :
    Builds known step (leavesAnd sort) :=
  h.mono (le_many hs)

/-- A step that ends in one node ends in one of a sort. -/
theorem Turns.one {sort : NodeKind → Bool} (h : Turns base known a step b)
    (hs : isOne sort b = true := by decide +kernel) : Turns base known a step (nodeOf sort) :=
  h.mono (le_nodeOf hs)

end

end JavaGraph.Parser
