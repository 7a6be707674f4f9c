import JavaGraph.Tree.Builder
/-!
# Builders conserve tokens

`Builder.tokens` lists the tokens of everything added to a builder, from left to right. Adding
appends to it, abandoning removes a suffix and returns it, and every other operation leaves it
alone, wherever the checkpoint points to. This needs that no node under construction is a leaf: a
finished leaf stands for its anchor and not for its children.
-/

namespace JavaGraph.Builder

/-- No node under construction is a leaf. -/
def Composite (builder : Builder) : Prop :=
  ∀ frame ∈ builder.root :: builder.opened, frame.kind ≠ .token

variable {builder : Builder}

/-- The children of a frame that is no leaf carry the tokens of the finished node. -/
theorem tokens_toTree {frame : Frame} (h : frame.kind ≠ .token) :
    frame.toTree.tokens = Tree.tokensOf frame.children := by
  rw [Frame.toTree, Tree.tokens, if_neg h]

/-- The first children of a frame and the others carry its tokens together. -/
theorem tokensOf_keep_append (frame : Frame) (count : Nat) :
    Tree.tokensOf (frame.keep count).children ++ Tree.tokensOf (frame.children.drop count) =
      Tree.tokensOf frame.children := by
  rw [Frame.keep, ← Tree.tokensOf_append, List.take_append_drop]

/-- The innermost node carries the last tokens of a builder. -/
theorem tokens_setTop_append (builder : Builder) (frame : Frame) (rest : List Token)
    (h : Tree.tokensOf frame.children ++ rest = Tree.tokensOf builder.top.children) :
    (builder.setTop frame).tokens ++ rest = builder.tokens := by
  obtain ⟨root, opened⟩ := builder
  cases opened with
  | nil => simpa [setTop, tokens, top] using h
  | cons inner outer =>
    have hi : Tree.tokensOf frame.children ++ rest = Tree.tokensOf inner.children := h
    simp [setTop, tokens, hi]

/-- A begun node carries no tokens. -/
@[simp] theorem tokens_start (builder : Builder) (kind : NodeKind) (anchor : Token) :
    (builder.start kind anchor).tokens = builder.tokens := by
  simp [start, tokens, Tree.tokensOf]

/-- An added node appends its tokens. -/
@[simp] theorem tokens_push (builder : Builder) (child : Tree) :
    (builder.push child).tokens = builder.tokens ++ child.tokens := by
  obtain ⟨root, opened⟩ := builder
  cases opened with
  | nil => simp [push, setTop, top, tokens, Frame.push, Tree.tokensOf]
  | cons inner outer => simp [push, setTop, top, tokens, Frame.push, Tree.tokensOf]

/-- An added token is appended. -/
@[simp] theorem tokens_token (builder : Builder) (token : Token) :
    (builder.token token).tokens = builder.tokens ++ [token] := by
  rw [Builder.token, tokens_push, Tree.tokens_leaf]

/-- Finishing a node moves its tokens to the node around it. -/
theorem tokens_finishNode (h : builder.Composite) : builder.finishNode.tokens = builder.tokens := by
  obtain ⟨root, opened⟩ := builder
  cases opened with
  | nil => rfl
  | cons inner outer =>
    have hi : inner.kind ≠ .token := h inner (by simp)
    rw [finishNode, tokens_push, tokens_toTree hi]
    simp [tokens]

/-! ### Nodes under construction stay composite -/

/-- Another composite innermost node keeps the builder composite. -/
theorem composite_setTop {frame : Frame} (h : builder.Composite) (hf : frame.kind ≠ .token) :
    (builder.setTop frame).Composite := by
  obtain ⟨root, opened⟩ := builder
  cases opened with
  | nil => simpa [setTop, Composite] using hf
  | cons inner outer =>
    simp only [Composite, List.forall_mem_cons, setTop] at h ⊢
    exact ⟨h.1, hf, h.2.2⟩

/-- The innermost node of a composite builder is composite. -/
theorem kind_top (h : builder.Composite) : builder.top.kind ≠ .token := by
  obtain ⟨root, opened⟩ := builder
  cases opened with
  | nil => exact h root (by simp)
  | cons inner outer => exact h inner (by simp)

/-- Adding a node keeps the builder composite. -/
theorem composite_push (h : builder.Composite) (child : Tree) :
    (builder.push child).Composite :=
  composite_setTop h (kind_top h)

/-- Beginning a composite node keeps the builder composite. -/
theorem composite_start {kind : NodeKind} (h : builder.Composite) (hk : kind ≠ .token)
    (anchor : Token) : (builder.start kind anchor).Composite := by
  simp only [Composite, List.forall_mem_cons, start] at h ⊢
  exact ⟨h.1, hk, h.2⟩

/-- Finishing a node keeps the builder composite. -/
theorem composite_finishNode (h : builder.Composite) : builder.finishNode.Composite := by
  obtain ⟨root, opened⟩ := builder
  cases opened with
  | nil => exact h
  | cons inner outer =>
    simp only [Composite, List.forall_mem_cons] at h
    apply composite_push
    simp only [Composite, List.forall_mem_cons]
    exact ⟨h.1, h.2.2⟩

/-! ### Closing, rewinding and abandoning -/

/-- Finishing any number of nodes conserves tokens and keeps the builder composite. -/
theorem finishNodes_conserves (h : builder.Composite) (count : Nat) :
    (builder.finishNodes count).Composite ∧
      (builder.finishNodes count).tokens = builder.tokens := by
  induction count generalizing builder with
  | zero => exact ⟨h, rfl⟩
  | succ count ih =>
    obtain ⟨hc, ht⟩ := ih (composite_finishNode h)
    exact ⟨hc, ht.trans (tokens_finishNode h)⟩

/-- Closing nodes down to a depth keeps the builder composite. -/
theorem composite_closeTo (h : builder.Composite) (depth : Nat) :
    (builder.closeTo depth).Composite :=
  (finishNodes_conserves h _).1

/-- Closing nodes down to a depth conserves tokens. -/
theorem tokens_closeTo (h : builder.Composite) (depth : Nat) :
    (builder.closeTo depth).tokens = builder.tokens :=
  (finishNodes_conserves h _).2

/-- No node is open behind as many closings as nodes were open. -/
theorem opened_finishNodes (builder : Builder) (count : Nat) :
    (builder.finishNodes count).opened.length = builder.opened.length - count := by
  induction count generalizing builder with
  | zero => rfl
  | succ count ih =>
    have hf : builder.finishNode.opened.length = builder.opened.length - 1 := by
      obtain ⟨root, opened⟩ := builder
      cases opened with
      | nil => rfl
      | cons inner outer => cases outer <;> rfl
    rw [finishNodes, ih, hf]
    omega

/-- Rewinding keeps the builder composite. -/
theorem composite_rewind (h : builder.Composite) (place : Checkpoint) :
    (builder.rewind place).Composite := by
  have hc := composite_closeTo h place.depth
  exact composite_setTop hc (kind_top hc)

/-- A rewound builder lacks exactly the tokens added since the checkpoint. -/
theorem tokens_rewind_append (h : builder.Composite) (place : Checkpoint) :
    (builder.rewind place).tokens ++ Tree.tokensOf (builder.since place) = builder.tokens := by
  rw [← tokens_closeTo h place.depth]
  exact tokens_setTop_append _ _ _ (tokensOf_keep_append _ _)

/-- Children that are moved into a node come behind those it has. -/
theorem foldl_push_children (frame : Frame) (moved : List Tree) :
    (moved.foldl Frame.push frame).kind = frame.kind ∧
      (moved.foldl Frame.push frame).children = frame.children ++ moved := by
  induction moved generalizing frame with
  | nil => simp
  | cons child moved ih =>
    obtain ⟨hk, hc⟩ := ih (frame.push child)
    exact ⟨hk, by rw [List.foldl_cons, hc]; simp [Frame.push]⟩

/-- Children that are moved into a node leave its anchor. -/
theorem foldl_push_anchor (frame : Frame) (moved : List Tree) :
    (moved.foldl Frame.push frame).anchor = frame.anchor := by
  induction moved generalizing frame with
  | nil => rfl
  | cons child moved ih => exact ih (frame.push child)

/-- Beginning a node around what was added since a checkpoint conserves tokens. -/
theorem tokens_startAt (h : builder.Composite) (place : Checkpoint) (kind : NodeKind)
    (anchor : Token) : (builder.startAt place kind anchor).tokens = builder.tokens := by
  rw [← tokens_rewind_append h place]
  simp only [startAt, tokens, List.reverse_cons, List.flatMap_cons, List.flatMap_append,
    (foldl_push_children _ _).2]
  simp

/-- Beginning a composite node at a checkpoint keeps the builder composite. -/
theorem composite_startAt {kind : NodeKind} (h : builder.Composite) (hk : kind ≠ .token)
    (place : Checkpoint) (anchor : Token) : (builder.startAt place kind anchor).Composite := by
  have hr := composite_rewind h place
  simp only [Composite, List.forall_mem_cons, startAt, (foldl_push_children _ _).1] at hr ⊢
  exact ⟨hr.1, hk, hr.2⟩

/-- Abandoning returns the tokens that it removes. -/
theorem tokens_abandon_append (h : builder.Composite) (place : Checkpoint) :
    (builder.abandon place).2.tokens ++ (builder.abandon place).1 = builder.tokens :=
  tokens_rewind_append h place

/-- The finished root covers everything that was added. -/
theorem tokens_finish (h : builder.Composite) : builder.finish.tokens = builder.tokens := by
  have hc := composite_closeTo h 0
  have hroot : (builder.closeTo 0).root.kind ≠ .token := hc _ (by simp)
  have hopened : (builder.closeTo 0).opened = [] := by
    apply List.eq_nil_of_length_eq_zero
    rw [closeTo, opened_finishNodes]
    omega
  rw [finish, tokens_toTree hroot, ← tokens_closeTo h 0, tokens, hopened]
  simp

end JavaGraph.Builder

/-!
## Histories of builders

A checkpoint is two numbers, and nothing is forgotten when the node it was taken in is finished,
wrapped or abandoned: it can be used at any time later. So a history of a builder keeps all the
checkpoints that were taken, and an event that uses one names it by its number.
-/

namespace JavaGraph.Builder

/-- One call on a builder. Checkpoints are numbered in the order they were taken in. -/
inductive Event where
  | start (kind : NodeKind) (anchor : Token)
  | token (token : Token)
  | error (region : Region) (comments : Comments)
  | finishNode
  | checkpoint
  | startAt (taken : Nat) (kind : NodeKind) (anchor : Token)
  | abandon (taken : Nat)
deriving DecidableEq, Repr

/-- A builder with the checkpoints that were taken of it. -/
structure History where
  builder : Builder
  checkpoints : List Checkpoint := []

/-- No event begins a leaf. -/
def Event.Composite : Event → Prop
  | .start kind _ | .startAt _ kind _ => kind ≠ .token
  | _ => True

/-- What an event makes of the tokens of a builder, and which of them it hands back. -/
def Event.Conserves (before returned after : List Token) : Event → Prop
  | .token added => after = before ++ [added] ∧ returned = []
  | .error region _ => after = before ++ region.skipped ∧ returned = []
  | .abandon _ => after ++ returned = before
  | _ => after = before ∧ returned = []

namespace History

/-- What is done at a checkpoint by its number; without one, nothing is. -/
def atTaken (history : History) (taken : Nat) (act : Checkpoint → List Token × Builder) :
    List Token × History :=
  match history.checkpoints[taken]? with
  | none => ([], history)
  | some place => ((act place).1, { history with builder := (act place).2 })

/-- The tokens that an event hands back, and the history behind it. -/
def step (history : History) : Event → List Token × History
  | .start kind anchor => ([], { history with builder := history.builder.start kind anchor })
  | .token token => ([], { history with builder := history.builder.token token })
  | .error region comments =>
    ([], { history with builder := history.builder.push (.error region comments) })
  | .finishNode => ([], { history with builder := history.builder.finishNode })
  | .checkpoint =>
    ([], { history with checkpoints := history.checkpoints ++ [history.builder.checkpoint] })
  | .startAt taken kind anchor =>
    history.atTaken taken fun place => ([], history.builder.startAt place kind anchor)
  | .abandon taken => history.atTaken taken history.builder.abandon

/-- The history behind some events. -/
def run (history : History) (events : List Event) : History :=
  events.foldl (fun history event => (history.step event).2) history

variable {history : History} {event : Event}

/-- What is done at a checkpoint is done at one that was taken, or not at all. -/
theorem atTaken_cases (history : History) (taken : Nat) (act : Checkpoint → List Token × Builder) :
    history.atTaken taken act = ([], history) ∨
      ∃ place ∈ history.checkpoints,
        history.atTaken taken act = ((act place).1, { history with builder := (act place).2 }) := by
  unfold atTaken
  cases hplace : history.checkpoints[taken]? with
  | none => exact .inl rfl
  | some place => exact .inr ⟨place, List.mem_of_getElem? hplace, rfl⟩

/-- An event keeps the builder composite. -/
theorem composite_step (h : history.builder.Composite) (he : event.Composite) :
    (history.step event).2.builder.Composite := by
  cases event with
  | start kind anchor => exact composite_start h he anchor
  | token token => exact composite_push h _
  | error region comments => exact composite_push h _
  | finishNode => exact composite_finishNode h
  | checkpoint => exact h
  | startAt taken kind anchor =>
    obtain hnone | ⟨place, -, hplace⟩ := history.atTaken_cases taken _
    · rw [step, hnone]
      exact h
    · rw [step, hplace]
      exact composite_startAt h he place anchor
  | abandon taken =>
    obtain hnone | ⟨place, -, hplace⟩ := history.atTaken_cases taken history.builder.abandon
    · rw [step, hnone]
      exact h
    · rw [step, hplace]
      exact composite_rewind h place

/-- An event conserves the tokens, whatever place a checkpoint points to by now. -/
theorem conserves_step (h : history.builder.Composite) (event : Event) :
    event.Conserves history.builder.tokens (history.step event).1
      (history.step event).2.builder.tokens := by
  cases event with
  | start kind anchor => exact ⟨tokens_start .., rfl⟩
  | token token => exact ⟨tokens_token .., rfl⟩
  | error region comments =>
    have ht : (Tree.error region comments).tokens = region.skipped := by rw [Tree.tokens]
    exact ⟨(tokens_push ..).trans (by rw [ht]), rfl⟩
  | finishNode => exact ⟨tokens_finishNode h, rfl⟩
  | checkpoint => exact ⟨rfl, rfl⟩
  | startAt taken kind anchor =>
    obtain hnone | ⟨place, -, hplace⟩ := history.atTaken_cases taken _
    · rw [step, hnone]
      exact ⟨rfl, rfl⟩
    · rw [step, hplace]
      exact ⟨tokens_startAt h place kind anchor, rfl⟩
  | abandon taken =>
    obtain hnone | ⟨place, -, hplace⟩ := history.atTaken_cases taken history.builder.abandon
    · rw [step, hnone]
      exact List.append_nil _
    · rw [step, hplace]
      exact tokens_abandon_append h place

/-- A run keeps the builder composite. -/
theorem composite_run {events : List Event} (h : history.builder.Composite)
    (he : ∀ event ∈ events, event.Composite) : (history.run events).builder.Composite := by
  induction events generalizing history with
  | nil => exact h
  | cons event events ih =>
    obtain ⟨hevent, hevents⟩ := List.forall_mem_cons.1 he
    exact ih (composite_step h hevent) hevents

end History

/-- In every history of a builder, each event conserves the tokens, and the root that is finished
behind the last one covers them. -/
theorem conserves_history {kind : NodeKind} {events : List Event} (hk : kind ≠ .token)
    (he : ∀ event ∈ events, event.Composite) (anchor : Token) :
    (∀ earlier event later, events = earlier ++ event :: later →
      let history := History.run ⟨new kind anchor, []⟩ earlier
      event.Conserves history.builder.tokens (history.step event).1
        (history.step event).2.builder.tokens) ∧
      (History.run ⟨new kind anchor, []⟩ events).builder.finish.tokens =
        (History.run ⟨new kind anchor, []⟩ events).builder.tokens := by
  have hnew : (new kind anchor).Composite := by
    simpa [Composite, new] using hk
  constructor
  · rintro earlier event later rfl
    apply History.conserves_step
    exact History.composite_run hnew fun other hother => he other (List.mem_append_left _ hother)
  · exact tokens_finish (History.composite_run hnew he)

/-- A checkpoint of a node that is finished by now: what is wrapped there and what is abandoned
there are found by its numbers in the nodes that are open. -/
theorem conserves_staleCheckpoint :
    let word (text : String) (index : Nat) : Token :=
      ⟨.ident, text, index, index + 1, 1, index, index⟩
    let events : List Event :=
      [.token (word "a" 0), .start .exprStmt (word "b" 1), .token (word "b" 1), .checkpoint,
        .finishNode, .token (word "c" 2), .startAt 0 .parenExpr (word "a" 0)]
    let history := History.run ⟨new .block (word "a" 0), []⟩ events
    (history.step (.abandon 0)).1 = [word "c" 2] ∧
      (history.step (.abandon 0)).2.builder.tokens = [word "a" 0, word "b" 1] := by
  intro word events history
  have hreturned : (history.step (.abandon 0)).1 = [word "c" 2] := by decide +kernel
  have hbefore : history.builder.tokens = [word "a" 0, word "b" 1, word "c" 2] := by decide +kernel
  have hcomposite : ∀ event ∈ events ++ [.abandon 0], event.Composite := by
    simp [events, Event.Composite]
  have h : (history.step (.abandon 0)).2.builder.tokens ++ (history.step (.abandon 0)).1 =
      history.builder.tokens :=
    (@conserves_history .block _ (by decide) hcomposite (word "a" 0)).1 events (.abandon 0) [] rfl
  rw [hreturned, hbefore] at h
  exact ⟨hreturned, List.append_cancel_right h⟩

end JavaGraph.Builder

/-!
## Builders grow

A construct that is built without a fault leaves the builder as it found it, but for more children of
the innermost node. One that is abandoned may leave more nodes open. Either way, rewinding to where
it was begun takes back what was added since, and nothing else.
-/

namespace JavaGraph.Builder

/-- The innermost node has got more children. -/
def Adds (base : Builder) (added : List Tree) (builder : Builder) : Prop :=
  ∃ frame, frame.kind = base.top.kind ∧ frame.anchor = base.top.anchor ∧
    frame.children = base.top.children ++ added ∧ builder = base.setTop frame

/-- The builder with more nodes open, innermost first. -/
def within (builder : Builder) (inner : List Frame) : Builder :=
  { builder with opened := inner ++ builder.opened }

/-- The innermost node may have got more children, and some nodes in it are not finished. -/
def Above (base builder : Builder) : Prop :=
  ∃ added outer inner, base.Adds added outer ∧ builder = outer.within inner

variable {base builder after : Builder} {added more : List Tree} {frame : Frame}

@[simp] theorem top_setTop (builder : Builder) (frame : Frame) :
    (builder.setTop frame).top = frame := by
  obtain ⟨root, opened⟩ := builder
  cases opened <;> rfl

@[simp] theorem setTop_setTop (builder : Builder) (a b : Frame) :
    (builder.setTop a).setTop b = builder.setTop b := by
  obtain ⟨root, opened⟩ := builder
  cases opened <;> rfl

@[simp] theorem setTop_top (builder : Builder) : builder.setTop builder.top = builder := by
  obtain ⟨root, opened⟩ := builder
  cases opened <;> rfl

@[simp] theorem length_opened_setTop (builder : Builder) (frame : Frame) :
    (builder.setTop frame).opened.length = builder.opened.length := by
  obtain ⟨root, opened⟩ := builder
  cases opened <;> rfl

@[simp] theorem top_within (builder : Builder) (frame : Frame) (inner : List Frame) :
    (builder.within (frame :: inner)).top = frame := rfl

/-- A builder is composite without some of its open nodes. -/
theorem composite_of_within {inner : List Frame} (h : (builder.within inner).Composite) :
    builder.Composite := by
  intro frame hm
  rcases List.mem_cons.1 hm with rfl | hm
  · exact h _ (List.mem_cons_self ..)
  · exact h frame (List.mem_cons_of_mem _ (List.mem_append_right inner hm))

/-! ### Adding -/

theorem adds_nil (builder : Builder) : builder.Adds [] builder :=
  ⟨builder.top, rfl, rfl, by simp, by simp⟩

theorem Adds.trans (h : base.Adds added builder) (h' : builder.Adds more after) :
    base.Adds (added ++ more) after := by
  obtain ⟨frame, hk, ha, hc, rfl⟩ := h
  obtain ⟨frame', hk', ha', hc', rfl⟩ := h'
  rw [top_setTop] at hk' ha' hc'
  exact ⟨frame', hk'.trans hk, ha'.trans ha, by rw [hc', hc, List.append_assoc],
    setTop_setTop ..⟩

theorem adds_push (builder : Builder) (child : Tree) : builder.Adds [child] (builder.push child) :=
  ⟨builder.top.push child, rfl, rfl, rfl, rfl⟩

/-- What was added is known from the builders. -/
theorem Adds.unique (h : base.Adds added builder) (h' : base.Adds more builder) : added = more := by
  obtain ⟨frame, -, -, hc, rfl⟩ := h
  obtain ⟨frame', -, -, hc', he⟩ := h'
  have hframe : frame = frame' := by simpa using congrArg top he
  rw [← hframe, hc] at hc'
  exact List.append_cancel_left hc'

/-- The new children carry the new tokens. -/
theorem Adds.tokens (h : base.Adds added builder) :
    builder.tokens = base.tokens ++ Tree.tokensOf added := by
  obtain ⟨frame, -, -, hc, rfl⟩ := h
  have ht := tokens_setTop_append (base.setTop frame) base.top (Tree.tokensOf added) (by
    rw [top_setTop, hc, Tree.tokensOf_append])
  rw [setTop_setTop, setTop_top] at ht
  exact ht.symm

/-- More children do not make a node a leaf. -/
theorem Adds.composite (h : base.Adds added builder) (hb : base.Composite) : builder.Composite := by
  obtain ⟨frame, hk, -, -, rfl⟩ := h
  exact composite_setTop hb (hk ▸ kind_top hb)

/-! ### Nodes -/

/-- A node that is finished keeps its anchor and becomes a child of the one around it. -/
theorem adds_finishNode_anchor (h : (builder.within [frame]).Adds added after) :
    ∃ done : Frame, done.kind = frame.kind ∧ done.anchor = frame.anchor ∧
      done.children = frame.children ++ added ∧ builder.Adds [done.toTree] after.finishNode := by
  obtain ⟨done, hk, ha, hc, rfl⟩ := h
  exact ⟨done, hk, ha, hc, adds_push builder done.toTree⟩

/-- A node that is finished becomes a child of the one around it. -/
theorem adds_finishNode (h : (builder.within [frame]).Adds added after) :
    ∃ done : Frame, done.kind = frame.kind ∧ done.children = frame.children ++ added ∧
      builder.Adds [done.toTree] after.finishNode := by
  obtain ⟨done, hk, -, hc, hadds⟩ := adds_finishNode_anchor h
  exact ⟨done, hk, hc, hadds⟩

/-- A node that is begun at a checkpoint takes the children that were added since. It is anchored on
the first token of the first of them, or else on the given one. -/
theorem adds_startAt_anchor (h : base.Adds added builder) (kind : NodeKind) (anchor : Token) :
    ∃ outer frame, base.Adds [] outer ∧ frame.kind = kind ∧ frame.children = added ∧
      frame.anchor = ((added.head?.bind fun child => child.tokens.head?).getD anchor) ∧
      builder.startAt base.checkpoint kind anchor = outer.within [frame] := by
  obtain ⟨top, hk, ha, hc, rfl⟩ := h
  have hclosed : (base.setTop top).closeTo base.opened.length = base.setTop top := by
    simp [closeTo, finishNodes]
  have hsince : (base.setTop top).since base.checkpoint = added := by
    simp [since, checkpoint, hclosed, hc]
  have hrewind : (base.setTop top).rewind base.checkpoint =
      base.setTop (top.keep base.top.children.length) := by
    simp [rewind, checkpoint, hclosed]
  refine ⟨_, _, ⟨top.keep base.top.children.length, hk, ha, ?_, hrewind⟩, ?_, ?_, ?_, rfl⟩
  · simp [Frame.keep, hc]
  · rw [(foldl_push_children _ _).1]
  · rw [(foldl_push_children _ _).2, hsince, List.nil_append]
  · rw [foldl_push_anchor, hsince]

/-- A node that is begun at a checkpoint takes the children that were added since. -/
theorem adds_startAt (h : base.Adds added builder) (kind : NodeKind) (anchor : Token) :
    ∃ outer frame, base.Adds [] outer ∧ frame.kind = kind ∧ frame.children = added ∧
      builder.startAt base.checkpoint kind anchor = outer.within [frame] := by
  obtain ⟨outer, frame, ho, hk, hc, -, hs⟩ := adds_startAt_anchor h kind anchor
  exact ⟨outer, frame, ho, hk, hc, hs⟩

/-- A node around what was added since a checkpoint takes that and what is added after. -/
theorem adds_around (h : base.Adds added builder) (kind : NodeKind) (anchor : Token)
    (h' : (builder.startAt base.checkpoint kind anchor).Adds more after) :
    ∃ done : Frame, done.kind = kind ∧ done.children = added ++ more ∧
      base.Adds [done.toTree] after.finishNode := by
  obtain ⟨outer, frame, ho, hk, hc, hstart⟩ := adds_startAt h kind anchor
  rw [hstart] at h'
  obtain ⟨done, hdk, hdc, hd⟩ := adds_finishNode h'
  exact ⟨done, hdk.trans hk, by rw [hdc, hc], ho.trans hd⟩

/-! ### Abandoning -/

theorem Adds.above (h : base.Adds added builder) : base.Above builder := ⟨added, builder, [], h, rfl⟩

theorem Above.of_adds (h : base.Adds added builder) (h' : builder.Above after) :
    base.Above after := by
  obtain ⟨more, outer, inner, ha, rfl⟩ := h'
  exact ⟨_, outer, inner, h.trans ha, rfl⟩

/-- What is above a node within the innermost one is above that one. -/
theorem Above.of_within (h : (builder.within [frame]).Above after) : builder.Above after := by
  obtain ⟨added, outer, inner, ⟨done, -, -, -, rfl⟩, rfl⟩ := h
  refine ⟨[], builder, inner ++ [done], adds_nil builder, ?_⟩
  simp [within, setTop]

/-- Finishing what is not finished adds to the innermost node. -/
theorem adds_finishNodes (builder : Builder) (inner : List Frame) :
    ∃ added, builder.Adds added ((builder.within inner).finishNodes inner.length) := by
  generalize hn : inner.length = count
  induction count generalizing inner with
  | zero =>
    rw [List.length_eq_zero_iff.1 hn]
    exact ⟨[], adds_nil builder⟩
  | succ count ih =>
    obtain ⟨frame, outer, rfl⟩ := List.exists_cons_of_length_eq_add_one hn
    cases outer with
    | nil =>
      cases hn
      exact ⟨_, adds_push builder frame.toTree⟩
    | cons next outer => exact ih (next.push frame.toTree :: outer) (by simpa using hn)

/-- Rewinding takes back all that was added. -/
theorem Above.adds_rewind (h : base.Above builder) :
    base.Adds [] (builder.rewind base.checkpoint) := by
  obtain ⟨added, outer, inner, ha, rfl⟩ := h
  obtain ⟨more, hm⟩ := adds_finishNodes outer inner
  obtain ⟨done, hk, hanchor, hc, hclosed⟩ := ha.trans hm
  have hlength : (outer.within inner).opened.length - base.opened.length = inner.length := by
    obtain ⟨frame, -, -, -, rfl⟩ := ha
    simp [within]
  refine ⟨done.keep base.top.children.length, hk, hanchor, by simp [Frame.keep, hc], ?_⟩
  simp only [rewind, closeTo, checkpoint, hlength, hclosed, top_setTop, setTop_setTop]

end JavaGraph.Builder
