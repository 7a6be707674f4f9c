import JavaGraph.Proofs.Tree.Comments
/-!
# Faults that error nodes tell of

An error node carries the fault that made it one. Error nodes are only ever added and dropped as a
whole, so that the faults told of in a tree are among those that its error nodes were made with.
-/

namespace JavaGraph

variable {errors : List ParseError}

namespace Tree

/-- The error nodes of a tree tell of faults of a list. -/
def Blames (errors : List ParseError) (tree : Tree) : Prop :=
  ∀ region comments, .error region comments ∈ tree.descendants → region.error ∈ errors

theorem Blames.mono {tree : Tree} {more : List ParseError} (h : tree.Blames errors)
    (hm : errors ⊆ more) : tree.Blames more :=
  fun region comments hn => hm (h region comments hn)

/-- A node that is no error node tells of what its children tell of. -/
theorem blames_node {kind : NodeKind} {anchor : Token} {extent : Option Extent} {comments : Comments}
    {children : List Tree} (h : ∀ child ∈ children, child.Blames errors) :
    (node kind anchor extent comments children).Blames errors := by
  intro region attached hn
  rw [descendants, List.mem_cons] at hn
  rcases hn with hself | hn
  · cases hself
  · obtain ⟨child, hc, hn⟩ := mem_descendantsOf.1 hn
    exact h child hc region attached hn

theorem blames_leaf (token : Token) : (leaf token).Blames errors :=
  blames_node (List.forall_mem_nil _)

/-- An error node tells of the fault it is made with. -/
theorem blames_errorNode? {source : String} {region : List Token} {error : ParseError} {node : Tree}
    (h : errorNode? source region error = some node) (he : error ∈ errors) : node.Blames errors := by
  unfold errorNode? at h
  split at h
  · cases h
    intro region comments hn
    rw [descendants, List.mem_singleton] at hn
    cases hn
    exact he
  · cases h

/-- Comments change nothing about the faults. -/
theorem Blames.attachWith {tree : Tree} (h : tree.Blames errors) (layout : CommentLayout) :
    (tree.attachWith layout).Blames errors := by
  intro region comments hn
  rw [descendants_attachWith, List.mem_map] at hn
  obtain ⟨node, hn, he⟩ := hn
  cases node with
  | node kind anchor extent own children =>
    obtain ⟨attached, ha⟩ :=
      exists_attachHere layout (.node kind anchor extent own (attachAll layout children))
    rw [Tree.attachWith, ha] at he
    cases he
  | error other own =>
    obtain ⟨attached, ha⟩ := exists_attachHere layout (.error other own)
    rw [Tree.attachWith, ha] at he
    cases he
    exact h region own hn

end Tree

/-! ### Builders -/

/-- What is below a node under construction tells of faults of a list. -/
def Frame.Blames (errors : List ParseError) (frame : Frame) : Prop :=
  ∀ child ∈ frame.children, child.Blames errors

theorem Frame.Blames.push {frame : Frame} (h : frame.Blames errors) {child : Tree}
    (hc : child.Blames errors) : (frame.push child).Blames errors :=
  List.forall_mem_append.2 ⟨h, List.forall_mem_singleton.2 hc⟩

namespace Builder

/-- What is built tells of faults of a list. -/
def Blames (errors : List ParseError) (builder : Builder) : Prop :=
  ∀ frame ∈ builder.root :: builder.opened, frame.Blames errors

variable {builder : Builder}

theorem Blames.mono {more : List ParseError} (h : builder.Blames errors) (hm : errors ⊆ more) :
    builder.Blames more :=
  fun frame hf child hc => (h frame hf child hc).mono hm

theorem Blames.top (h : builder.Blames errors) : builder.top.Blames errors := by
  obtain ⟨root, opened⟩ := builder
  cases opened with
  | nil => exact h root (List.mem_cons_self ..)
  | cons inner outer => exact h inner (by simp)

theorem Blames.setTop (h : builder.Blames errors) {frame : Frame} (hf : frame.Blames errors) :
    (builder.setTop frame).Blames errors := by
  obtain ⟨root, opened⟩ := builder
  cases opened with
  | nil => exact List.forall_mem_singleton.2 hf
  | cons inner outer =>
    simp only [Blames, List.forall_mem_cons, Builder.setTop] at h ⊢
    exact ⟨h.1, hf, h.2.2⟩

theorem Blames.push (h : builder.Blames errors) {child : Tree} (hc : child.Blames errors) :
    (builder.push child).Blames errors :=
  h.setTop (h.top.push hc)

/-- A node that begins around some nodes tells of what they tell of. -/
theorem Blames.open (h : builder.Blames errors) {frame : Frame} (hf : frame.Blames errors) :
    Blames errors { builder with opened := frame :: builder.opened } := by
  simp only [Blames, List.forall_mem_cons] at h ⊢
  exact ⟨h.1, hf, h.2⟩

theorem Blames.start (h : builder.Blames errors) (kind : NodeKind) (anchor : Token) :
    (builder.start kind anchor).Blames errors :=
  h.open (List.forall_mem_nil _)

theorem Blames.finishNode (h : builder.Blames errors) : builder.finishNode.Blames errors := by
  obtain ⟨root, opened⟩ := builder
  cases opened with
  | nil => exact h
  | cons inner outer =>
    simp only [Blames, List.forall_mem_cons] at h
    have houter : Blames errors ⟨root, outer⟩ := List.forall_mem_cons.2 ⟨h.1, h.2.2⟩
    exact houter.push (Tree.blames_node h.2.1)

theorem Blames.closeTo (h : builder.Blames errors) (depth : Nat) :
    (builder.closeTo depth).Blames errors := by
  unfold Builder.closeTo
  generalize builder.opened.length - depth = count
  induction count generalizing builder with
  | zero => exact h
  | succ count ih => exact ih h.finishNode

theorem Blames.rewind (h : builder.Blames errors) (place : Checkpoint) :
    (builder.rewind place).Blames errors := by
  have hclosed := h.closeTo place.depth
  exact hclosed.setTop fun child hc => hclosed.top child (List.mem_of_mem_take hc)

theorem Blames.startAt (h : builder.Blames errors) (place : Checkpoint) (kind : NodeKind)
    (anchor : Token) : (builder.startAt place kind anchor).Blames errors := by
  refine (h.rewind place).open fun child hc => ?_
  rw [(foldl_push_children _ _).2, List.nil_append] at hc
  exact (h.closeTo place.depth).top child (List.mem_of_mem_drop hc)

theorem Blames.finish (h : builder.Blames errors) : builder.finish.Blames errors :=
  Tree.blames_node (h.closeTo 0 _ (List.mem_cons_self ..))

end Builder

end JavaGraph
