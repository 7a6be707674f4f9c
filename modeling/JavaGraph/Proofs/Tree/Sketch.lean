import JavaGraph.Proofs.Tree.Builder
/-!
# Trees without places

A sketch of a tree has its nodes and leaves, with the kinds and texts of the tokens, and does not say
where any of them stands. Builders with the same sketches are changed into builders with the same
sketches.
-/

namespace JavaGraph

/-- What of a token does not depend on where it stands. -/
def Token.face (token : Token) : TokenKind × String := (token.kind, token.text)

/-- What of a fault does not depend on where it is. -/
def ParseError.face (error : ParseError) : String × Option TokenKind := (error.message, error.found)

/-- What of a tree does not depend on where its tokens stand. -/
inductive Sketch where
  | node (kind : NodeKind) (leaf : Option (TokenKind × String)) (children : List Sketch)
  | error (skipped : List (TokenKind × String)) (fault : String × Option TokenKind)

namespace Tree

mutual

/-- The sketch of a tree: nodes with their kinds, leaves with the kinds and texts of their tokens, and
error nodes with those of the tokens that were skipped. -/
def sketch : Tree → Sketch
  | .node kind anchor _ _ children =>
    .node kind (if kind = .token then some anchor.face else none) (sketchOf children)
  | .error region _ => .error (region.skipped.map Token.face) region.error.face

/-- The sketches of some trees. -/
def sketchOf : List Tree → List Sketch
  | [] => []
  | child :: rest => child.sketch :: sketchOf rest

end

theorem sketchOf_eq_map (trees : List Tree) : sketchOf trees = trees.map sketch := by
  induction trees with
  | nil => rfl
  | cons tree rest ih => rw [sketchOf, ih, List.map_cons]

mutual

/-- Trees with the same sketch have tokens with the same kinds and texts. -/
theorem faces_tokens : (tree : Tree) → {other : Tree} → tree.sketch = other.sketch →
    tree.tokens.map Token.face = other.tokens.map Token.face
  | .node kind anchor extent comments children, .node kind' anchor' extent' comments' children', h => by
    rw [sketch, sketch] at h
    obtain ⟨rfl, hleaf, hchildren⟩ := Sketch.node.inj h
    by_cases hk : kind = .token
    · rw [if_pos hk, if_pos hk] at hleaf
      rw [tokens, tokens, if_pos hk, if_pos hk]
      exact congrArg (fun face => [face]) (Option.some.inj hleaf)
    · rw [tokens, tokens, if_neg hk, if_neg hk]
      exact faces_tokensOf children hchildren
  | .node .., .error .., h => by simp [sketch] at h
  | .error .., .node .., h => by simp [sketch] at h
  | .error region comments, .error region' comments', h => by
    rw [sketch, sketch] at h
    rw [tokens, tokens]
    exact (Sketch.error.inj h).1

theorem faces_tokensOf : (trees : List Tree) → {others : List Tree} →
    sketchOf trees = sketchOf others →
    (tokensOf trees).map Token.face = (tokensOf others).map Token.face
  | [], [], _ => rfl
  | [], _ :: _, h => by simp [sketchOf] at h
  | _ :: _, [], h => by simp [sketchOf] at h
  | tree :: rest, other :: others, h => by
    rw [sketchOf, sketchOf] at h
    obtain ⟨hhead, htail⟩ := List.cons.inj h
    rw [tokensOf, tokensOf, List.map_append, List.map_append, faces_tokens tree hhead,
      faces_tokensOf rest htail]

end

theorem sketch_leaf {token token' : Token} (h : token.face = token'.face) :
    (leaf token).sketch = (leaf token').sketch := by
  simp only [leaf, sketch, sketchOf, h]

end Tree

namespace Frame

variable {frame frame' : Frame}

/-- The sketch of the node as it is so far. -/
def sketch (frame : Frame) : Sketch := frame.toTree.sketch

/-- What makes up the sketch of a node. -/
theorem sketch_eq_iff : frame.sketch = frame'.sketch ↔ frame.kind = frame'.kind ∧
    (frame.kind = .token → frame.anchor.face = frame'.anchor.face) ∧
    Tree.sketchOf frame.children = Tree.sketchOf frame'.children := by
  unfold sketch toTree
  rw [Tree.sketch, Tree.sketch, Sketch.node.injEq]
  refine and_congr_right fun hk => and_congr_left' ?_
  rw [← hk]
  split
  · next h => simp [h]
  · next h => simp [h]

/-- Of a composite node, the kind and the children matter. -/
theorem sketch_eq_of_ne (h : frame.kind ≠ .token) (hk : frame.kind = frame'.kind)
    (hc : Tree.sketchOf frame.children = Tree.sketchOf frame'.children) :
    frame.sketch = frame'.sketch :=
  sketch_eq_iff.2 ⟨hk, fun ht => absurd ht h, hc⟩

theorem sketch_push (h : frame.sketch = frame'.sketch) {child child' : Tree}
    (hc : child.sketch = child'.sketch) : (frame.push child).sketch = (frame'.push child').sketch := by
  obtain ⟨hk, ha, hs⟩ := sketch_eq_iff.1 h
  refine sketch_eq_iff.2 ⟨hk, ha, ?_⟩
  rw [Tree.sketchOf_eq_map, Tree.sketchOf_eq_map] at hs ⊢
  simp only [push, List.map_append, hs, List.map_cons, List.map_nil, hc]

theorem sketch_keep (h : frame.sketch = frame'.sketch) (count : Nat) :
    (frame.keep count).sketch = (frame'.keep count).sketch := by
  obtain ⟨hk, ha, hs⟩ := sketch_eq_iff.1 h
  refine sketch_eq_iff.2 ⟨hk, ha, ?_⟩
  rw [Tree.sketchOf_eq_map, Tree.sketchOf_eq_map] at hs ⊢
  simp only [keep, List.map_take, hs]

end Frame

namespace Builder

/-- The nodes of two builders have the same sketches. -/
structure SameSketch (builder builder' : Builder) : Prop where
  root : builder.root.sketch = builder'.root.sketch
  opened : builder.opened.map Frame.sketch = builder'.opened.map Frame.sketch

namespace SameSketch

variable {builder builder' : Builder} (h : builder.SameSketch builder')
include h

theorem length_opened : builder.opened.length = builder'.opened.length := by
  simpa using congrArg List.length h.opened

theorem top : builder.top.sketch = builder'.top.sketch := by
  have hopened := h.opened
  unfold Builder.top
  match hb : builder.opened, hb' : builder'.opened with
  | [], [] => exact h.root
  | [], _ :: _ => simp [hb, hb'] at hopened
  | _ :: _, [] => simp [hb, hb'] at hopened
  | frame :: _, frame' :: _ =>
    rw [hb, hb'] at hopened
    exact (List.cons.inj hopened).1

theorem setTop {frame frame' : Frame} (hf : frame.sketch = frame'.sketch) :
    (builder.setTop frame).SameSketch (builder'.setTop frame') := by
  obtain ⟨root, opened⟩ := builder
  obtain ⟨root', opened'⟩ := builder'
  obtain ⟨hroot, hopened⟩ := h
  match opened, opened' with
  | [], [] => exact ⟨hf, rfl⟩
  | [], _ :: _ => simp at hopened
  | _ :: _, [] => simp at hopened
  | _ :: _, _ :: _ => exact ⟨hroot, List.cons_eq_cons.2 ⟨hf, (List.cons.inj hopened).2⟩⟩

theorem push {child child' : Tree} (hc : child.sketch = child'.sketch) :
    (builder.push child).SameSketch (builder'.push child') :=
  h.setTop (Frame.sketch_push h.top hc)

theorem token {token token' : Token} (ht : token.face = token'.face) :
    (builder.token token).SameSketch (builder'.token token') :=
  h.push (Tree.sketch_leaf ht)

theorem start {kind : NodeKind} (hk : kind ≠ .token) (anchor anchor' : Token) :
    (builder.start kind anchor).SameSketch (builder'.start kind anchor') :=
  ⟨h.root, List.cons_eq_cons.2 ⟨Frame.sketch_eq_of_ne hk rfl rfl, h.opened⟩⟩

theorem finishNode : builder.finishNode.SameSketch builder'.finishNode := by
  obtain ⟨root, opened⟩ := builder
  obtain ⟨root', opened'⟩ := builder'
  obtain ⟨hroot, hopened⟩ := h
  match opened, opened' with
  | [], [] => exact ⟨hroot, rfl⟩
  | [], _ :: _ => simp at hopened
  | _ :: _, [] => simp at hopened
  | frame :: outer, frame' :: outer' =>
    obtain ⟨hframe, houter⟩ := List.cons.inj hopened
    have hrest : SameSketch ⟨root, outer⟩ ⟨root', outer'⟩ := ⟨hroot, houter⟩
    exact hrest.push hframe

theorem finishNodes (count : Nat) :
    (builder.finishNodes count).SameSketch (builder'.finishNodes count) := by
  induction count generalizing builder builder' with
  | zero => exact h
  | succ count ih => exact ih h.finishNode

theorem closeTo (depth : Nat) : (builder.closeTo depth).SameSketch (builder'.closeTo depth) := by
  unfold Builder.closeTo
  rw [h.length_opened]
  exact h.finishNodes _

theorem checkpoint : builder.checkpoint = builder'.checkpoint := by
  have hchildren := congrArg List.length (Frame.sketch_eq_iff.1 h.top).2.2
  rw [Tree.sketchOf_eq_map, Tree.sketchOf_eq_map, List.length_map, List.length_map] at hchildren
  simp only [Builder.checkpoint, h.length_opened, hchildren]

theorem since (place : Checkpoint) :
    Tree.sketchOf (builder.since place) = Tree.sketchOf (builder'.since place) := by
  have hchildren := (Frame.sketch_eq_iff.1 (h.closeTo place.depth).top).2.2
  rw [Tree.sketchOf_eq_map, Tree.sketchOf_eq_map] at hchildren ⊢
  simp only [Builder.since, List.map_drop, hchildren]

theorem rewind (place : Checkpoint) : (builder.rewind place).SameSketch (builder'.rewind place) :=
  (h.closeTo place.depth).setTop (Frame.sketch_keep (h.closeTo place.depth).top _)

theorem startAt (place : Checkpoint) {kind : NodeKind} (hk : kind ≠ .token)
    (anchor anchor' : Token) :
    (builder.startAt place kind anchor).SameSketch (builder'.startAt place kind anchor') := by
  refine ⟨(h.rewind place).root, List.cons_eq_cons.2 ⟨Frame.sketch_eq_of_ne ?_ ?_ ?_,
    (h.rewind place).opened⟩⟩
  · rw [(foldl_push_children _ _).1]
    exact hk
  · rw [(foldl_push_children _ _).1, (foldl_push_children _ _).1]
  · rw [(foldl_push_children _ _).2, (foldl_push_children _ _).2, List.nil_append,
      List.nil_append]
    exact h.since place

/-- The finished trees have the same sketch. -/
theorem finish : builder.finish.sketch = builder'.finish.sketch := (h.closeTo 0).root

end SameSketch

end Builder

end JavaGraph
