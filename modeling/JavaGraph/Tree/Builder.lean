import JavaGraph.Tree.Basic
/-!
# Building trees

A builder holds a root and the nodes that are still open, each with the children it has so far.
Tokens and nodes are added to the innermost open node. A checkpoint remembers a place in the
builder: a node can be begun there later, around what was added since, and what was added since
can be abandoned.

`Builder.tokens` is the view of a builder: the tokens of everything added, from left to right.
Only adding changes it, and abandoning, which hands back a suffix of it.
-/

namespace JavaGraph

/-- A node under construction. -/
structure Frame where
  kind : NodeKind
  anchor : Token
  extent : Option Extent := none
  children : List Tree := []

namespace Frame

/-- The finished node. -/
def toTree (frame : Frame) : Tree :=
  .node frame.kind frame.anchor frame.extent {} frame.children

/-- The frame with one more child. -/
def push (frame : Frame) (child : Tree) : Frame :=
  { frame with
    extent := Extent.unionOpt frame.extent child.extent
    children := frame.children ++ [child] }

/-- The frame with its first `count` children only. -/
def keep (frame : Frame) (count : Nat) : Frame :=
  let kept := frame.children.take count
  { frame with
    extent :=
      if frame.kind = .token then frame.extent
      else kept.foldl (fun extent child => Extent.spanOpt extent child.extent) none
    children := kept }

end Frame

/-- A place in a builder: how many nodes were open, and how many children the innermost had. -/
structure Checkpoint where
  depth : Nat
  children : Nat
deriving DecidableEq, Repr

/-- A checkpoint as text. -/
def Checkpoint.render (checkpoint : Checkpoint) : String :=
  s!"Checkpoint \x7b depth: {checkpoint.depth}, children: {checkpoint.children} \x7d"

/-- A tree under construction. -/
structure Builder where
  root : Frame
  /-- The open nodes below the root, innermost first. -/
  opened : List Frame := []

namespace Builder

/-- A builder with an empty root. -/
def new (kind : NodeKind) (anchor : Token) : Builder :=
  { root := { kind, anchor } }

/-- The innermost node that is not finished. -/
def top (builder : Builder) : Frame :=
  builder.opened.headD builder.root

/-- The builder with another innermost node. -/
def setTop (builder : Builder) (frame : Frame) : Builder :=
  match builder.opened with
  | [] => { builder with root := frame }
  | _ :: outer => { builder with opened := frame :: outer }

/-- Begin a node. -/
def start (builder : Builder) (kind : NodeKind) (anchor : Token) : Builder :=
  { builder with opened := { kind, anchor } :: builder.opened }

/-- Add a finished node. -/
def push (builder : Builder) (child : Tree) : Builder :=
  builder.setTop (builder.top.push child)

/-- Add a token. -/
def token (builder : Builder) (token : Token) : Builder :=
  builder.push (.leaf token)

/-- Finish the innermost open node; the root stays as it is. -/
def finishNode (builder : Builder) : Builder :=
  match builder.opened with
  | [] => builder
  | frame :: outer => { builder with opened := outer }.push frame.toTree

/-- Finish the `count` innermost open nodes. -/
def finishNodes (builder : Builder) : Nat → Builder
  | 0 => builder
  | count + 1 => builder.finishNode.finishNodes count

/-- Finish open nodes until only `depth` are left. -/
def closeTo (builder : Builder) (depth : Nat) : Builder :=
  builder.finishNodes (builder.opened.length - depth)

/-- The place reached. -/
def checkpoint (builder : Builder) : Checkpoint :=
  ⟨builder.opened.length, builder.top.children.length⟩

/-- The children added to a node since a checkpoint. -/
def since (builder : Builder) (checkpoint : Checkpoint) : List Tree :=
  (builder.closeTo checkpoint.depth).top.children.drop checkpoint.children

/-- The builder without what was added since a checkpoint. -/
def rewind (builder : Builder) (checkpoint : Checkpoint) : Builder :=
  let closed := builder.closeTo checkpoint.depth
  closed.setTop (closed.top.keep checkpoint.children)

/-- Begin a node around what was added since a checkpoint. Its anchor is the first token of the
first of these nodes, or the given one if there is none. -/
def startAt (builder : Builder) (checkpoint : Checkpoint) (kind : NodeKind) (anchor : Token) :
    Builder :=
  let moved := builder.since checkpoint
  let first := moved.head?.bind fun child => child.tokens.head?
  let frame := moved.foldl Frame.push { kind, anchor := first.getD anchor }
  let rewound := builder.rewind checkpoint
  { rewound with opened := frame :: rewound.opened }

/-- Discard what was added since a checkpoint, and return the tokens it covered. -/
def abandon (builder : Builder) (checkpoint : Checkpoint) : List Token × Builder :=
  (Tree.tokensOf (builder.since checkpoint), builder.rewind checkpoint)

/-- Finish every open node and return the root. -/
def finish (builder : Builder) : Tree :=
  (builder.closeTo 0).root.toTree

/-- The tokens of everything added, from left to right. -/
def tokens (builder : Builder) : List Token :=
  (builder.root :: builder.opened.reverse).flatMap fun frame => Tree.tokensOf frame.children

end Builder

end JavaGraph
