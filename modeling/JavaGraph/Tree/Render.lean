import JavaGraph.Text.Quoted
import JavaGraph.Tree.Basic
/-!
# Trees as text

One line per node, two blanks of indentation per level: a leaf with its kind and quoted text, a
composite node with its kind and lines, an error node with its quoted text and its fault.
-/

namespace JavaGraph.Tree

/-- The indentation of a level. -/
def indent (depth : Nat) : String :=
  String.ofList (List.replicate (2 * depth) ' ')

mutual

/-- The lines of a node at a level. -/
def renderAt (depth : Nat) : Tree → String
  | .node kind anchor extent comments children =>
    if kind = .token then s!"{indent depth}{anchor.kind.name} {Text.quoted anchor.text}\n"
    else
      let first := line (.node kind anchor extent comments children)
      let last := lastLineOf anchor.line children
      s!"{indent depth}{kind.name}@{first}..{last}\n" ++ renderAll (depth + 1) children
  | .error region _ =>
    s!"{indent depth}Error {Text.quoted region.text} ({region.error.render})\n"

/-- The lines of nodes at a level. -/
def renderAll (depth : Nat) : List Tree → String
  | [] => ""
  | child :: rest => renderAt depth child ++ renderAll depth rest

end

/-- The lines of a tree. -/
def render (tree : Tree) : String :=
  tree.renderAt 0

end JavaGraph.Tree

/-- A token with its place, its number and its quoted text. -/
def JavaGraph.Token.render (token : JavaGraph.Token) : String :=
  let text := JavaGraph.Text.quoted token.text
  s!"{token.kind.name}@{token.line}:{token.column}#{token.index} {text}"
