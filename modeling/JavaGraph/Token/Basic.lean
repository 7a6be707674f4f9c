import JavaGraph.Token.Kind
/-!
# Tokens

A token is a piece of a text with its kind and its place. Tokens are numbered in the order they
come in, layout and comments included.
-/

namespace JavaGraph

/-- A piece of a text. -/
structure Token where
  kind : TokenKind
  text : String
  /-- Bytes of the text before the token. -/
  start : Nat
  /-- Bytes of the text up to the end of the token. -/
  stop : Nat
  /-- The line it starts on, from 1. -/
  line : Nat
  /-- Bytes between the start of that line and the token. -/
  column : Nat
  /-- Its number among all tokens of the text. -/
  index : Nat
deriving DecidableEq, Repr, Inhabited

namespace Token

/-- Whether the token is a documentation comment. -/
def isDocComment (token : Token) : Bool :=
  token.kind == .blockComment && token.text.startsWith "/**" && 4 < token.text.utf8ByteSize

/-- The line the token ends on. -/
def endLine (token : Token) : Nat :=
  token.line + token.text.toList.count '\n'

/-- Whether the grammar sees the token: it is neither layout nor a comment nor the end. -/
def isSignificant (token : Token) : Bool :=
  !token.kind.isTrivia && token.kind != .eof

end Token

end JavaGraph
