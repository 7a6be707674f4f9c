import JavaGraph.Token.Lexer
/-!
# Collecting hidden tokens

A collector hands on the tokens of a text one by one and keeps those of the kinds it watches.
What it hands on is the stream of `tokenize`, in which the end repeats with growing numbers; what
it keeps is the part of the stream with a watched kind.
-/

namespace JavaGraph

/-- A stream of tokens with a log of the watched kinds. -/
structure Collector where
  /-- The name of the text. -/
  sourceName : String
  /-- The kinds to keep. -/
  hidden : List TokenKind
  /-- The tokens still to come; the last one repeats. -/
  remaining : List Token
  /-- The tokens kept so far, oldest first. -/
  collected : List Token

namespace Collector

/-- A collector at the start of a text. -/
def ofText (sourceName : String) (hidden : List TokenKind) (text : String) : Collector :=
  ⟨sourceName, hidden, tokenize text, []⟩

/-- The name of the collector, which says whose tokens it collects. -/
def name (collector : Collector) : String :=
  s!"collector({collector.sourceName})"

/-- Whether a kind is watched. -/
def isHidden (collector : Collector) (kind : TokenKind) : Bool :=
  collector.hidden.contains kind

/-- Keep a token if its kind is watched. -/
def keep (collector : Collector) (token : Token) : Collector :=
  if collector.isHidden token.kind then
    { collector with collected := collector.collected ++ [token] }
  else collector

/-- The next token, and the collector after it. -/
def pull (collector : Collector) : Token × Collector :=
  match collector.remaining with
  | [] => (default, collector)
  | [last] =>
    (last, { collector with remaining := [{ last with index := last.index + 1 }] }.keep last)
  | token :: rest => (token, { collector with remaining := rest }.keep token)

end Collector

/-- The tokens of the watched kinds, in stream order. -/
def hiddenTokens (hidden : List TokenKind) (tokens : List Token) : List Token :=
  tokens.filter fun token => hidden.contains token.kind

end JavaGraph
