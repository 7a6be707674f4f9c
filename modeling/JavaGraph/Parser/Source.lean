import JavaGraph.Parser.Declaration
import JavaGraph.Token.Collector
import JavaGraph.Tree.Comments
/-!
# Parsing a source text

`nonterminalAtMost` closes the circle of the grammar: it parses a construct whose nesting is
bounded. Between two constructs of the same kind that nest without a token between them there are
fewer than eight others, so eight levels for every token ahead are enough.

`parseSource` never fails: what it cannot make sense of becomes error nodes of the tree, and
faults in the list beside it.
-/

namespace JavaGraph

namespace Parser

open Parse

/-- Parse one construct, given a step for the constructs within it. -/
def nonterminalWith (sub : Nonterminal → Parse Unit) : Nonterminal → Parse Unit
  | .expression => expression sub
  | .conditional => conditionalExpr sub
  | .binary precedence => binaryExpr sub precedence
  | .unary => unaryExpr sub
  | .arrayInit => arrayInit sub
  | .block => block sub (typeDeclaration sub)
  | .statement => statement sub (typeDeclaration sub)
  | .classBody => classBody sub
  | .enumBody => enumBody sub

/-- Parse one construct that nests less than `depth` deep. -/
def nonterminalAtMost : (depth : Nat) → Nonterminal → Parse Unit
  | 0, _ => fail
  | depth + 1, construct => nonterminalWith (nonterminalAtMost depth) construct

/-- Parse one construct. -/
def nonterminal (construct : Nonterminal) : Parse Unit :=
  onAhead fun ahead => nonterminalAtMost (8 * (ahead.length + 1)) construct

/-- A type declaration with its modifiers. -/
def topLevelDeclaration : Parse Unit := do
  let place ← checkpoint
  modifiers
  typeDeclaration nonterminal place

/-- A whole file: a package, imports and type declarations. -/
def compilationUnit : Parse Unit := do
  if ← look atPackageDeclaration then recovering .declaration packageDecl
  whileAt .kwImport (recovering .declaration importDecl)
  loop do
    if ← atEnd then return false
    else if ← eat .semicolon then return true
    else
      recovering .declaration topLevelDeclaration
      return true

end Parser

/-- How a text is parsed. -/
structure ParseOptions where
  /-- The kinds of tokens to collect. -/
  hidden : List TokenKind := TokenKind.comments
  /-- Whether collected comments are attached to declarations. -/
  attachComments : Bool := true
  /-- The name of the text. -/
  sourceName : String := "<source>"

/-- What parsing a text gives. -/
structure ParsedSource where
  root : Tree
  /-- All tokens of the text, ending with `eof`. -/
  tokens : List Token
  /-- The collected tokens. -/
  hidden : List Token
  /-- The faults, in the order they were found. -/
  errors : List ParseError

/-- Whether the text has faults. -/
def ParsedSource.hasErrors (parsed : ParsedSource) : Bool :=
  !parsed.errors.isEmpty

/-- The state that the parsing of a text with the given tokens begins in. -/
def Parser.State.start (tokens : List Token) : Parser.State :=
  let anchor := (tokens.find? fun token => !token.kind.isTrivia).getD default
  { ahead := tokens.filter Token.isSignificant
    builder := Builder.new .compilationUnit anchor
    errors := [] }

/-- Parse a text. -/
def parseSource (text : String) (options : ParseOptions) : ParsedSource :=
  let tokens := tokenize text
  let hidden := hiddenTokens options.hidden tokens
  let input : Parser.Input := { source := text, endToken := tokens.getLastD default }
  let final := (Parser.compilationUnit input (.start tokens)).2
  let root := final.builder.finish
  { root := if options.attachComments then root.attachComments tokens hidden else root
    tokens
    hidden
    errors := final.errors }

end JavaGraph
