import JavaGraph.Tree.Basic
/-!
# Attaching comments

A comment between two significant tokens belongs to the declarations that end with the first of
them if it starts on that token's line, and otherwise to the declarations that begin with the
second. The first kind follows its declaration, the second kind precedes it.
-/

namespace JavaGraph

/-- What decides where the comments of a text belong. -/
structure CommentLayout where
  /-- All tokens of the text. -/
  tokens : List Token
  /-- The comments to attach, in stream order. -/
  comments : List Token
  /-- The numbers of the tokens that declarations end with. -/
  declarationEnds : List Nat

namespace CommentLayout

/-- The numbers of the tokens that are neither layout nor comments, in stream order. -/
def significant (layout : CommentLayout) : List Nat :=
  (layout.tokens.filter fun token => !token.kind.isTrivia).map (·.index)

/-- The comments after one token and before another, by their numbers. -/
def between (layout : CommentLayout) (after : Option Nat) (before : Nat) : List Token :=
  layout.comments.filter fun comment =>
    after.all (· < comment.index) && comment.index < before

/-- The line of a token, by its number. -/
def lineOf? (layout : CommentLayout) (index : Nat) : Option Nat :=
  layout.tokens[index]?.map (·.line)

/-- The comments that precede a declaration which begins with token `first`. Those on the line of
the token before are left out if a declaration ends there. -/
def preceding (layout : CommentLayout) (first : Nat) : List Token :=
  let previous := (layout.significant.filter (· < first)).getLast?
  let takenLine := (previous.filter layout.declarationEnds.contains).bind layout.lineOf?
  (layout.between previous first).filter fun comment => takenLine != some comment.line

/-- The comments that follow a declaration which ends with token `last`. -/
def following (layout : CommentLayout) (last : Nat) : List Token :=
  let next := (layout.significant.find? (last < ·)).getD layout.tokens.length
  (layout.between (some last) next).filter fun comment => layout.lineOf? last == some comment.line

end CommentLayout

namespace Tree

/-- A node with the comments that belong to it, if it is a declaration that covers tokens of the
text. -/
def attachHere (layout : CommentLayout) (tree : Tree) : Tree :=
  if tree.kind.isDeclaration then
    match tree.extent with
    | none => tree
    | some extent =>
      if extent.last < layout.tokens.length then
        tree.addComments (layout.preceding extent.first) (layout.following extent.last)
      else tree
  else tree

mutual

/-- A node with comments attached to it and to every node below it. -/
def attachWith (layout : CommentLayout) : Tree → Tree
  | .node kind anchor extent comments children =>
    attachHere layout (.node kind anchor extent comments (attachAll layout children))
  | .error region comments => attachHere layout (.error region comments)

/-- Nodes with comments attached to each of them and to every node below them. -/
def attachAll (layout : CommentLayout) : List Tree → List Tree
  | [] => []
  | child :: rest => child.attachWith layout :: attachAll layout rest

end

/-- Attach the comments among `hidden` to the declarations of a tree. `tokens` are all tokens of
the text the tree stands for. -/
def attachComments (tree : Tree) (tokens hidden : List Token) : Tree :=
  let declarations := tree.descendants.filter (·.kind.isDeclaration)
  let layout : CommentLayout :=
    { tokens
      comments := hidden.filter (·.kind.isComment)
      declarationEnds := declarations.filterMap fun node => node.extent.map (·.last) }
  tree.attachWith layout

end Tree

end JavaGraph
