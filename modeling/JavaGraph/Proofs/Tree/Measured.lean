import JavaGraph.Proofs.Tree.Builder
/-!
# Trees with measured nodes

The extent of a node is worked out as its children come and go. It runs from the first token that
the node covers to the last one, provided that the tokens come in the order of their numbers. A
builder is measured if the nodes under construction are, and all nodes below them.
-/

namespace JavaGraph

/-! ### Nodes of a tree -/

namespace Tree

theorem mem_descendantsOf {node : Tree} {trees : List Tree} :
    node ∈ descendantsOf trees ↔ ∃ tree ∈ trees, node ∈ tree.descendants := by
  induction trees with
  | nil => simp [descendantsOf]
  | cons tree trees ih => simp [descendantsOf, ih]

/-- A tree is among its own descendants. -/
theorem mem_descendants_self (tree : Tree) : tree ∈ tree.descendants := by
  cases tree <;> simp [descendants]

theorem mem_descendants_of_mem_children {tree child : Tree} (h : child ∈ tree.children) :
    child ∈ tree.descendants := by
  cases tree with
  | error region comments => cases h
  | node kind anchor extent comments children =>
    rw [descendants]
    exact List.mem_cons_of_mem _ (mem_descendantsOf.2 ⟨child, h, child.mem_descendants_self⟩)

mutual

/-- What is below a node is below all that it is below. -/
theorem mem_descendants_trans : (tree : Tree) → ∀ {middle other : Tree},
    middle ∈ tree.descendants → other ∈ middle.descendants → other ∈ tree.descendants
  | .error region comments, middle, other, hm, ho => by
    rw [descendants, List.mem_singleton] at hm
    exact hm ▸ ho
  | .node kind anchor extent comments children, middle, other, hm, ho => by
    rw [descendants, List.mem_cons] at hm
    rcases hm with rfl | hm
    · exact ho
    · rw [descendants]
      exact List.mem_cons_of_mem _ (mem_descendantsOf_trans children hm ho)

private theorem mem_descendantsOf_trans : (trees : List Tree) → ∀ {middle other : Tree},
    middle ∈ descendantsOf trees → other ∈ middle.descendants → other ∈ descendantsOf trees
  | [], middle, other, hm, _ => by cases hm
  | first :: rest, middle, other, hm, ho => by
    rw [descendantsOf, List.mem_append] at hm ⊢
    exact hm.imp (fun hm => mem_descendants_trans first hm ho)
      fun hm => mem_descendantsOf_trans rest hm ho

end

theorem mem_descendants_of_mem {tree other child : Tree} (h : other ∈ tree.descendants)
    (hc : child ∈ other.children) : child ∈ tree.descendants :=
  mem_descendants_trans tree h (mem_descendants_of_mem_children hc)

/-- Only leaves have a token of their own. -/
theorem token?_of_kind_ne {tree : Tree} (h : tree.kind ≠ .token) : tree.token? = none := by
  unfold token?
  split
  · exact absurd rfl h
  · rfl

end Tree

/-! ### Extents -/

/-- The tokens come in the order of their numbers. -/
def InOrder (tokens : List Token) : Prop := tokens.Pairwise fun a b => a.index < b.index

theorem InOrder.sublist {tokens tokens' : List Token} (h : InOrder tokens)
    (hs : tokens'.Sublist tokens) : InOrder tokens' := List.Pairwise.sublist hs h

namespace Extent

/-- From the first of some tokens to the last one. -/
def ofTokens? (tokens : List Token) : Option Extent :=
  match tokens.head?, tokens.getLast? with
  | some first, some last => some ⟨first.index, last.index⟩
  | _, _ => none

@[simp] theorem ofTokens?_nil : ofTokens? [] = none := rfl

/-- Tokens that there are reach from a first one to a last one. -/
theorem ofTokens?_eq_some {tokens : List Token} {extent : Extent} :
    ofTokens? tokens = some extent ↔ ∃ first last, tokens.head? = some first ∧
      tokens.getLast? = some last ∧ extent = ⟨first.index, last.index⟩ := by
  unfold ofTokens?
  cases tokens.head? <;> cases tokens.getLast? <;> simp [eq_comm]

theorem ofTokens?_eq_none {tokens : List Token} : ofTokens? tokens = none ↔ tokens = [] := by
  cases tokens with
  | nil => simp
  | cons first tokens =>
    obtain ⟨last, hl⟩ : ∃ last, (first :: tokens).getLast? = some last :=
      ⟨_, List.getLast?_eq_some_getLast (by simp)⟩
    simp [ofTokens?, hl]

/-- One span after another reaches from the first token of both to the last one. -/
theorem spanOpt_ofTokens? (tokens tokens' : List Token) :
    spanOpt (ofTokens? tokens) (ofTokens? tokens') = ofTokens? (tokens ++ tokens') := by
  cases h : ofTokens? tokens with
  | none =>
    rw [ofTokens?_eq_none.1 h]
    rfl
  | some extent =>
    cases h' : ofTokens? tokens' with
    | none =>
      rw [ofTokens?_eq_none.1 h', List.append_nil, h]
      rfl
    | some extent' =>
      obtain ⟨first, last, hf, hl, rfl⟩ := ofTokens?_eq_some.1 h
      obtain ⟨first', last', hf', hl', rfl⟩ := ofTokens?_eq_some.1 h'
      refine (ofTokens?_eq_some.2 ⟨first, last', ?_, ?_, rfl⟩).symm
      · rw [List.head?_append, hf, Option.some_or]
      · rw [List.getLast?_append, hl', Option.some_or]

/-- For tokens in order, what two extents cover together is the span. -/
theorem unionOpt_ofTokens? {tokens tokens' : List Token} (h : InOrder (tokens ++ tokens')) :
    unionOpt (ofTokens? tokens) (ofTokens? tokens') = ofTokens? (tokens ++ tokens') := by
  rw [← spanOpt_ofTokens?]
  cases he : ofTokens? tokens with
  | none => rfl
  | some extent =>
    cases he' : ofTokens? tokens' with
    | none => rfl
    | some extent' =>
      obtain ⟨first, last, hf, hl, rfl⟩ := ofTokens?_eq_some.1 he
      obtain ⟨first', last', hf', hl', rfl⟩ := ofTokens?_eq_some.1 he'
      have hlt : ∀ a ∈ tokens, ∀ b ∈ tokens', a.index < b.index := fun a ha b hb =>
        (List.pairwise_append.1 h).2.2 a ha b hb
      have hfirst := hlt first (List.mem_of_mem_head? hf) first' (List.mem_of_mem_head? hf')
      have hlast := hlt last (List.mem_of_mem_getLast? hl) last' (List.mem_of_mem_getLast? hl')
      simp only [unionOpt, spanOpt, union, Nat.min_eq_left (Nat.le_of_lt hfirst),
        Nat.max_eq_right (Nat.le_of_lt hlast)]

end Extent

/-! ### Nodes -/

/-- A node that knows the extent of its tokens, without comments. -/
structure Tree.Plain (node : Tree) : Prop where
  extent : node.extent = Extent.ofTokens? node.tokens
  comments : node.comments = {}
  leaf : node.kind = .token → node.children = []

/-- Every node of a tree knows the extent of its tokens, and there are no comments. -/
def Tree.Measured (tree : Tree) : Prop := ∀ node ∈ tree.descendants, node.Plain

theorem Tree.measured_leaf (token : Token) : (Tree.leaf token).Measured := by
  intro node hn
  simp only [leaf, descendants, descendantsOf, List.mem_singleton] at hn
  subst hn
  exact ⟨by simp [extent, tokens, Extent.ofTokens?], rfl, fun _ => rfl⟩

/-- An error node reaches as far as its region. -/
theorem Tree.measured_errorNode? {source : String} {region : List Token} {error : ParseError}
    {node : Tree} (h : Tree.errorNode? source region error = some node) : node.Measured := by
  cases region with
  | nil => cases h
  | cons first rest =>
    obtain ⟨last, hl⟩ : ∃ last, (first :: rest).getLast? = some last :=
      ⟨_, List.getLast?_eq_some_getLast (by simp)⟩
    simp only [errorNode?, hl, Option.some.injEq] at h
    subst h
    intro node hn
    simp only [descendants, List.mem_singleton] at hn
    subst hn
    exact ⟨by simp [extent, tokens, Extent.ofTokens?, hl], rfl, fun _ => rfl⟩

/-- What a node of a measured tree covers is covered by the tree. -/
theorem Tree.Measured.tokens_subset {tree : Tree} (h : tree.Measured) :
    ∀ node ∈ tree.descendants, node.tokens ⊆ tree.tokens := by
  intro node hn
  cases tree with
  | error region comments =>
    rw [descendants, List.mem_singleton] at hn
    rw [hn]
    exact fun _ hm => hm
  | node kind anchor extent comments children =>
    have hself := h _ (mem_descendants_self _)
    rw [descendants, List.mem_cons] at hn
    rcases hn with rfl | hn
    · exact fun _ hm => hm
    obtain ⟨child, hc, hn⟩ := mem_descendantsOf.1 hn
    have hk : kind ≠ .token := by
      intro hk
      have hnil : children = [] := hself.leaf hk
      rw [hnil] at hc
      cases hc
    have hchild : child.Measured := fun other ho =>
      h other (by
        rw [descendants]
        exact List.mem_cons_of_mem _ (mem_descendantsOf.2 ⟨child, hc, ho⟩))
    have hsub := hchild.tokens_subset node hn
    intro token hm
    rw [tokens, if_neg hk, tokensOf_eq_flatMap]
    exact List.mem_flatMap.2 ⟨child, hc, hsub hm⟩
termination_by sizeOf tree
decreasing_by
  have hsize := List.sizeOf_lt_of_mem hc
  subst_vars
  rw [Tree.node.sizeOf_spec]
  omega

namespace Frame

/-- A node under construction knows its extent, and its children are measured. -/
structure Measured (frame : Frame) : Prop where
  extent : frame.extent = Extent.ofTokens? (Tree.tokensOf frame.children)
  children : ∀ child ∈ frame.children, child.Measured

variable {frame : Frame}

theorem measured_new (kind : NodeKind) (anchor : Token) : Measured { kind, anchor } :=
  ⟨rfl, nofun⟩

theorem Measured.toTree (h : frame.Measured) (hk : frame.kind ≠ .token) :
    frame.toTree.Measured := by
  intro node hn
  rw [Frame.toTree, Tree.descendants, List.mem_cons] at hn
  rcases hn with rfl | hn
  · exact ⟨by rw [Tree.extent, Tree.tokens, if_neg hk, h.extent], rfl, fun he => absurd he hk⟩
  · obtain ⟨child, hc, hn⟩ := Tree.mem_descendantsOf.1 hn
    exact h.children child hc node hn

theorem Measured.push (h : frame.Measured) {child : Tree} (hc : child.Measured)
    (ho : InOrder (Tree.tokensOf frame.children ++ child.tokens)) : (frame.push child).Measured := by
  have hextent := (hc child (Tree.mem_descendants_self child)).extent
  refine ⟨?_, ?_⟩
  · have htokens : Tree.tokensOf [child] = child.tokens := List.append_nil _
    rw [Frame.push, h.extent, hextent, Extent.unionOpt_ofTokens? ho, Tree.tokensOf_append, htokens]
  · intro other hm
    rcases List.mem_append.1 hm with hm | hm
    · exact h.children other hm
    · rwa [List.mem_singleton.1 hm]

/-- The span of measured nodes is that of their tokens. -/
private theorem foldl_spanOpt (children : List Tree) (h : ∀ child ∈ children, child.Measured)
    (tokens : List Token) :
    children.foldl (fun extent child => Extent.spanOpt extent child.extent)
      (Extent.ofTokens? tokens) = Extent.ofTokens? (tokens ++ Tree.tokensOf children) := by
  induction children generalizing tokens with
  | nil => simp [Tree.tokensOf]
  | cons child rest ih =>
    have hextent := (h child (List.mem_cons_self ..) child (Tree.mem_descendants_self child)).extent
    rw [List.foldl_cons, hextent, Extent.spanOpt_ofTokens?,
      ih fun other hm => h other (List.mem_cons_of_mem _ hm), Tree.tokensOf, List.append_assoc]

theorem Measured.keep (h : frame.Measured) (hk : frame.kind ≠ .token) (count : Nat) :
    (frame.keep count).Measured := by
  have hkept : ∀ child ∈ frame.children.take count, child.Measured := fun child hm =>
    h.children child (List.mem_of_mem_take hm)
  refine ⟨?_, hkept⟩
  have hspan := foldl_spanOpt _ hkept []
  simp only [Frame.keep, if_neg hk]
  exact hspan

/-- Measured nodes are moved into a measured one. -/
theorem Measured.foldl_push (h : frame.Measured) {moved : List Tree}
    (hm : ∀ child ∈ moved, child.Measured)
    (ho : InOrder (Tree.tokensOf frame.children ++ Tree.tokensOf moved)) :
    (moved.foldl Frame.push frame).Measured := by
  induction moved generalizing frame with
  | nil => exact h
  | cons child rest ih =>
    rw [Tree.tokensOf, ← List.append_assoc] at ho
    have hchild := hm child (List.mem_cons_self ..)
    refine ih (h.push hchild (ho.sublist (List.sublist_append_left ..)))
      (fun other ho => hm other (List.mem_cons_of_mem _ ho)) ?_
    rwa [Frame.push, Tree.tokensOf_append, Tree.tokensOf, Tree.tokensOf, List.append_nil]

end Frame

/-! ### Builders -/

namespace Builder

/-- The nodes under construction are measured. -/
def Measured (builder : Builder) : Prop :=
  ∀ frame ∈ builder.root :: builder.opened, frame.Measured

variable {builder : Builder}

theorem Measured.top (h : builder.Measured) : builder.top.Measured := by
  obtain ⟨root, opened⟩ := builder
  cases opened with
  | nil => exact h root (List.mem_cons_self ..)
  | cons inner outer => exact h inner (by simp)

theorem Measured.setTop (h : builder.Measured) {frame : Frame} (hf : frame.Measured) :
    (builder.setTop frame).Measured := by
  obtain ⟨root, opened⟩ := builder
  cases opened with
  | nil => simpa [Builder.setTop, Measured] using hf
  | cons inner outer =>
    simp only [Measured, List.forall_mem_cons, Builder.setTop] at h ⊢
    exact ⟨h.1, hf, h.2.2⟩

theorem Measured.start (h : builder.Measured) (kind : NodeKind) (anchor : Token) :
    (builder.start kind anchor).Measured := by
  simp only [Measured, List.forall_mem_cons, Builder.start] at h ⊢
  exact ⟨h.1, Frame.measured_new kind anchor, h.2⟩

/-- The innermost node covers the last of the tokens. -/
theorem tokensOf_top_suffix (builder : Builder) :
    Tree.tokensOf builder.top.children <:+ builder.tokens := by
  obtain ⟨root, opened⟩ := builder
  cases opened with
  | nil => exact ⟨[], by simp [tokens, top]⟩
  | cons inner outer => exact ⟨_, by simp [tokens, top, ← List.append_assoc]; rfl⟩

theorem Measured.push (h : builder.Measured) {child : Tree} (hc : child.Measured)
    (ho : InOrder (builder.push child).tokens) : (builder.push child).Measured := by
  rw [tokens_push] at ho
  exact h.setTop (h.top.push hc (ho.sublist
    ((tokensOf_top_suffix builder).sublist.append_right _)))

theorem Measured.finishNode (h : builder.Measured) (hc : builder.Composite)
    (ho : InOrder builder.tokens) : builder.finishNode.Measured := by
  rw [← tokens_finishNode hc] at ho
  obtain ⟨root, opened⟩ := builder
  cases opened with
  | nil => exact h
  | cons inner outer =>
    simp only [Measured, List.forall_mem_cons] at h
    have houter : Measured ⟨root, outer⟩ := by
      simp only [Measured, List.forall_mem_cons]
      exact ⟨h.1, h.2.2⟩
    exact houter.push (h.2.1.toTree (hc inner (by simp))) ho

theorem Measured.closeTo (h : builder.Measured) (hc : builder.Composite)
    (ho : InOrder builder.tokens) (depth : Nat) : (builder.closeTo depth).Measured := by
  unfold Builder.closeTo
  generalize builder.opened.length - depth = count
  induction count generalizing builder with
  | zero => exact h
  | succ count ih =>
    exact ih (h.finishNode hc ho) (composite_finishNode hc) ((tokens_finishNode hc).symm ▸ ho)

theorem Measured.rewind (h : builder.Measured) (hc : builder.Composite)
    (ho : InOrder builder.tokens) (place : Checkpoint) : (builder.rewind place).Measured := by
  have hclosed := h.closeTo hc ho place.depth
  exact hclosed.setTop (hclosed.top.keep (kind_top (composite_closeTo hc place.depth)) _)

theorem Measured.startAt (h : builder.Measured) (hc : builder.Composite)
    (ho : InOrder builder.tokens) (place : Checkpoint) (kind : NodeKind) (anchor : Token) :
    (builder.startAt place kind anchor).Measured := by
  have hmoved : ∀ child ∈ builder.since place, child.Measured := fun child hm =>
    (h.closeTo hc ho place.depth).top.children child (List.mem_of_mem_drop hm)
  have hsince : InOrder (Tree.tokensOf (builder.since place)) := by
    rw [← tokens_rewind_append hc place] at ho
    exact ho.sublist (List.sublist_append_right ..)
  have hrewound := h.rewind hc ho place
  simp only [Measured, List.forall_mem_cons] at hrewound
  simp only [Measured, List.forall_mem_cons, Builder.startAt]
  exact ⟨hrewound.1, (Frame.measured_new kind _).foldl_push hmoved hsince, hrewound.2⟩

theorem Measured.finish (h : builder.Measured) (hc : builder.Composite)
    (ho : InOrder builder.tokens) : builder.finish.Measured :=
  (h.closeTo hc ho 0 _ (List.mem_cons_self ..)).toTree
    (composite_closeTo hc 0 _ (List.mem_cons_self ..))

end Builder

end JavaGraph
