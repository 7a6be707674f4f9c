import JavaGraph.Text.Slice
import JavaGraph.Token.Basic
import JavaGraph.Tree.Kind
/-!
# Trees

The tree of a source text. Every significant token is a leaf of it; comments hang on the
declarations they belong to; a region that no construct could be made of is an error node, which
keeps the tokens it covers and takes no children.

`Tree.tokens` is the view that matters most: the tokens a tree covers, from left to right.
-/

namespace JavaGraph

/-- What the grammar found wrong, and where. -/
structure ParseError where
  message : String
  line : Nat
  column : Nat
  /-- The byte offsets of the token at fault. -/
  start : Nat
  stop : Nat
  /-- The kind of the token at fault. -/
  found : Option TokenKind
deriving DecidableEq, Repr

namespace ParseError

/-- A fault at a token. -/
def atToken (token : Token) (message : String) : ParseError :=
  ⟨message, token.line, token.column, token.start, token.stop, some token.kind⟩

/-- The fault with its place in front. -/
def render (error : ParseError) : String :=
  s!"{error.line}:{error.column}: {error.message}"

end ParseError

/-- The numbers of the first and the last token that something covers. -/
structure Extent where
  first : Nat
  last : Nat
deriving DecidableEq, Repr

namespace Extent

/-- What two extents cover together. -/
def union (a b : Extent) : Extent :=
  ⟨min a.first b.first, max a.last b.last⟩

/-- The union, where nothing may be covered. -/
def unionOpt : Option Extent → Option Extent → Option Extent
  | none, b => b
  | a, none => a
  | some a, some b => some (a.union b)

/-- From the beginning of one extent to the end of another, where nothing may be covered. -/
def spanOpt : Option Extent → Option Extent → Option Extent
  | none, b => b
  | a, none => a
  | some a, some b => some ⟨a.first, b.last⟩

end Extent

/-- The comments attached to a node, in stream order. -/
structure Comments where
  preceding : List Token := []
  following : List Token := []
deriving DecidableEq, Repr

/-- A region of the text that no construct could be made of. -/
structure Region where
  first : Token
  last : Token
  /-- The text from the first token to the last one. -/
  text : String
  /-- The significant tokens of the region. -/
  skipped : List Token
  error : ParseError
deriving DecidableEq, Repr

/-- A node of the tree. A node of kind `token` is a leaf and stands for its anchor; the anchor of
any other node is the token it was begun at. -/
inductive Tree where
  | node (kind : NodeKind) (anchor : Token) (extent : Option Extent) (comments : Comments)
      (children : List Tree)
  | error (region : Region) (comments : Comments)

/-- Why a node cannot be changed. -/
inductive TreeError where
  /-- Error nodes take no children. -/
  | errorNode
deriving DecidableEq, Repr

/-- The wording of a refused change. -/
def TreeError.message : TreeError → String
  | .errorNode => "error nodes cannot take children"

namespace Tree

/-- A node without children. -/
def create (kind : NodeKind) (anchor : Token) : Tree :=
  .node kind anchor none {} []

/-- The leaf of a token. -/
def leaf (token : Token) : Tree :=
  .node .token token (some ⟨token.index, token.index⟩) {} []

/-- What a node stands for. -/
def kind : Tree → NodeKind
  | .node kind _ _ _ _ => kind
  | .error _ _ => .error

/-- The text of a leaf's token, of the anchor, or of the whole region of an error node. -/
def text : Tree → String
  | .node _ anchor _ _ _ => anchor.text
  | .error region _ => region.text

/-- The nodes directly below. -/
def children : Tree → List Tree
  | .node _ _ _ _ children => children
  | .error _ _ => []

/-- The tokens a node covers, by their numbers. -/
def extent : Tree → Option Extent
  | .node _ _ extent _ _ => extent
  | .error region _ => some ⟨region.first.index, region.last.index⟩

/-- The comments attached to a node. -/
def comments : Tree → Comments
  | .node _ _ _ comments _ => comments
  | .error _ comments => comments

/-- Whether a node is an error node. -/
def isError : Tree → Bool
  | .node _ _ _ _ _ => false
  | .error _ _ => true

/-- The token of a leaf. -/
def token? : Tree → Option Token
  | .node .token anchor _ _ _ => some anchor
  | _ => none

/-- The kind of a leaf's token. -/
def tokenKind? (tree : Tree) : Option TokenKind :=
  tree.token?.map (·.kind)

/-- Whether a node is neither a leaf nor an error node. -/
def isComposite (tree : Tree) : Bool :=
  !tree.isError && tree.kind != .token

/-- The line a node begins on: that of its first child, or of its anchor if it has none. -/
def line : Tree → Nat
  | .node _ anchor _ _ [] => anchor.line
  | .node _ _ _ _ (child :: _) => child.line
  | .error region _ => region.first.line

/-- The column a node begins at: that of its first child, or of its anchor if it has none. -/
def column : Tree → Nat
  | .node _ anchor _ _ [] => anchor.column
  | .node _ _ _ _ (child :: _) => child.column
  | .error region _ => region.first.column

mutual

/-- The line of the last leaf below a node, or of its anchor if it has no children. -/
def lastLine : Tree → Nat
  | .node _ anchor _ _ children => lastLineOf anchor.line children
  | .error region _ => region.last.line

/-- The line of the last leaf below the last of some nodes. -/
def lastLineOf (line : Nat) : List Tree → Nat
  | [] => line
  | child :: rest => lastLineOf child.lastLine rest

end

mutual

/-- The tokens below a node from left to right; an error node has the tokens of its region. -/
def tokens : Tree → List Token
  | .node kind anchor _ _ children => if kind = .token then [anchor] else tokensOf children
  | .error region _ => region.skipped

/-- The tokens below some nodes from left to right. -/
def tokensOf : List Tree → List Token
  | [] => []
  | child :: rest => child.tokens ++ tokensOf rest

end

mutual

/-- A node and all nodes below it, each before its children. -/
def descendants : Tree → List Tree
  | .node kind anchor extent comments children =>
    .node kind anchor extent comments children :: descendantsOf children
  | .error region comments => [.error region comments]

/-- Some nodes and all nodes below them, each before its children. -/
def descendantsOf : List Tree → List Tree
  | [] => []
  | child :: rest => child.descendants ++ descendantsOf rest

end

/-- The tokens of a concatenation of nodes. -/
@[simp] theorem tokensOf_append (cs ds : List Tree) :
    tokensOf (cs ++ ds) = tokensOf cs ++ tokensOf ds := by
  induction cs with
  | nil => simp [tokensOf]
  | cons c cs ih => simp [tokensOf, ih]

/-- The tokens of nodes are those of each of them in turn. -/
theorem tokensOf_eq_flatMap (cs : List Tree) : tokensOf cs = cs.flatMap tokens := by
  induction cs with
  | nil => simp [tokensOf]
  | cons c cs ih => simp [tokensOf, ih]

/-- A leaf covers its token. -/
@[simp] theorem tokens_leaf (token : Token) : (leaf token).tokens = [token] := by
  simp [leaf, tokens]

/-- The children that are neither leaves nor error nodes. -/
def nodes (tree : Tree) : List Tree :=
  tree.children.filter isComposite

/-- The leaves directly below, as tokens. -/
def childTokens (tree : Tree) : List Token :=
  tree.children.filterMap token?

/-- The first child of a kind. -/
def childOfKind? (tree : Tree) (kind : NodeKind) : Option Tree :=
  tree.children.find? (·.kind == kind)

/-- The children of a kind. -/
def childrenOfKind (tree : Tree) (kind : NodeKind) : List Tree :=
  tree.children.filter (·.kind == kind)

/-- The first leaf directly below whose token has a kind. -/
def childToken? (tree : Tree) (kind : TokenKind) : Option Token :=
  tree.childTokens.find? (·.kind == kind)

/-- Whether some leaf directly below has a token of a kind. -/
def hasChildToken (tree : Tree) (kind : TokenKind) : Bool :=
  (tree.childToken? kind).isSome

/-- The node with one more child at the end. -/
def addChild (tree child : Tree) : Except TreeError Tree :=
  match tree with
  | .node kind anchor extent comments children =>
    .ok (.node kind anchor (Extent.unionOpt extent child.extent) comments (children ++ [child]))
  | .error _ _ => .error .errorNode

/-- The node with other comments. -/
def withComments (tree : Tree) (comments : Comments) : Tree :=
  match tree with
  | .node kind anchor extent _ children => .node kind anchor extent comments children
  | .error region _ => .error region comments

/-- The node with more comments before it and after it. -/
def addComments (tree : Tree) (preceding following : List Token) : Tree :=
  tree.withComments
    ⟨tree.comments.preceding ++ preceding, tree.comments.following ++ following⟩

/-- The node alone: kind and anchor, or the whole region, without children and comments. -/
def duplicate : Tree → Tree
  | .node kind anchor _ _ _ => if kind = .token then leaf anchor else create kind anchor
  | .error region _ => .error region {}

/-- The error node for some tokens of a text; there is none for no tokens. -/
def errorNode? (source : String) (tokens : List Token) (error : ParseError) : Option Tree :=
  match tokens, tokens.getLast? with
  | first :: _, some last =>
    some (.error ⟨first, last, Text.slice source first.start last.stop, tokens, error⟩ {})
  | _, _ => none

end Tree

end JavaGraph
