import JavaGraph.Text.Position
import JavaGraph.Token.Basic
/-!
# Cutting a text into tokens

At every place the longest match among the kinds of tokens is taken, and a keyword wins over an
identifier of the same spelling. Where nothing matches, one `unknown` token covers what belongs
together: a comment that is never closed runs to the end, a string or character literal that is
never closed runs to the end of its line, and anything else is a single character.

`lexeme` decides how many characters the next token has. It takes at least one and at most as
many as there are, so the texts of the tokens put together are the text itself.
-/

namespace JavaGraph.Lexer

/-- A match at the front of the remaining text. -/
structure Lexeme where
  kind : TokenKind
  /-- How many characters it covers. -/
  count : Nat
deriving DecidableEq, Repr

/-- Blanks, tabs, line ends and form feeds. -/
def isLayout (c : Char) : Bool :=
  c == ' ' || c == '\t' || c == '\r' || c == '\n' || c == '\x0c'

/-- Characters an identifier begins with: every character above ASCII counts. -/
def isIdentStart (c : Char) : Bool :=
  c.isAlpha || c == '_' || c == '$' || 0x80 ≤ c.toNat

/-- Characters an identifier goes on with. -/
def isIdentPart (c : Char) : Bool :=
  isIdentStart c || c.isDigit

/-- Decimal digits and the underscores between them. -/
def isDigitPart (c : Char) : Bool := c.isDigit || c == '_'

/-- Hexadecimal digits. -/
def isHexDigit (c : Char) : Bool :=
  c.isDigit || ('a' ≤ c && c ≤ 'f') || ('A' ≤ c && c ≤ 'F')

/-- Binary digits. -/
def isBinaryDigit (c : Char) : Bool := c == '0' || c == '1'

/-- The number of characters at the front that satisfy `p`. -/
def run (p : Char → Bool) (cs : List Char) : Nat :=
  (cs.takeWhile p).length

/-- How many characters lie before the first `*/`. -/
def beforeCommentEnd? : List Char → Option Nat
  | [] => none
  | c :: cs =>
    if c = '*' ∧ cs.head? = some '/' then some 0
    else (beforeCommentEnd? cs).map (· + 1)

/-- How many characters the items of a literal between `quote`s take: any character but the quote,
a backslash or a line feed, or a backslash with any character but a line feed. -/
def literalItems (quote : Char) : List Char → Nat
  | [] => 0
  | [c] => if c = quote ∨ c = '\\' ∨ c = '\n' then 0 else 1
  | c :: d :: cs =>
    if c = quote ∨ c = '\n' then 0
    else if c = '\\' then
      if d = '\n' then 0 else 2 + literalItems quote cs
    else 1 + literalItems quote (d :: cs)

/-- A suffix of one character among `letters`. -/
def suffixLength (letters : List Char) (cs : List Char) : Nat :=
  match cs with
  | [] => 0
  | c :: _ => if c ∈ letters then 1 else 0

/-- The length of an exponent: `e`, a sign or none, and at least one digit; otherwise 0. -/
def exponentLength : List Char → Nat
  | [] => 0
  | c :: cs =>
    if c = 'e' ∨ c = 'E' then
      let sign := suffixLength ['+', '-'] cs
      let digits := run Char.isDigit (cs.drop sign)
      if digits = 0 then 0 else 1 + sign + digits
    else 0

/-- The suffixes of floating-point literals. -/
def floatSuffixes : List Char := ['f', 'F', 'd', 'D']

/-- The suffixes of integer literals. -/
def intSuffixes : List Char := ['l', 'L']

/-- The length of what may follow the fraction of a floating-point literal. -/
def floatTail (cs : List Char) : Nat :=
  let exponent := exponentLength cs
  exponent + suffixLength floatSuffixes (cs.drop exponent)

/-- A literal after `digits` decimal digits, where `cs` follows them. -/
def decimalLexeme (digits : Nat) (cs : List Char) : Lexeme :=
  match cs with
  | [] => ⟨.intLiteral, digits⟩
  | c :: rest =>
    if c = '.' then
      let fraction := run isDigitPart rest
      ⟨.floatLiteral, digits + 1 + fraction + floatTail (rest.drop fraction)⟩
    else if 0 < exponentLength cs then ⟨.floatLiteral, digits + floatTail cs⟩
    else if c ∈ floatSuffixes then ⟨.floatLiteral, digits + 1⟩
    else ⟨.intLiteral, digits + suffixLength intSuffixes cs⟩

/-- The length of the digits after `0x` or `0b` with their suffix, or 0 if there is no digit. -/
def radixLength (isDigit : Char → Bool) (cs : List Char) : Nat :=
  match cs with
  | [] => 0
  | c :: _ =>
    if isDigit c then
      let digits := run (fun d => isDigit d || d == '_') cs
      digits + suffixLength intSuffixes (cs.drop digits)
    else 0

/-- A number that begins with the digit `c`. -/
def numberLexeme (c : Char) (cs : List Char) : Lexeme :=
  let radix :=
    match c, cs with
    | '0', 'x' :: rest => radixLength isHexDigit rest
    | '0', 'X' :: rest => radixLength isHexDigit rest
    | '0', 'b' :: rest => radixLength isBinaryDigit rest
    | '0', 'B' :: rest => radixLength isBinaryDigit rest
    | _, _ => 0
  if 0 < radix then ⟨.intLiteral, 2 + radix⟩
  else
    let digits := run isDigitPart cs
    decimalLexeme (1 + digits) (cs.drop digits)

/-- A word: a keyword or an identifier. -/
def wordLexeme (c : Char) (cs : List Char) : Lexeme :=
  let count := 1 + run isIdentPart cs
  let spelling := String.ofList ((c :: cs).take count)
  match TokenKind.keywords.find? (·.1 == spelling) with
  | some (_, kind) => ⟨kind, count⟩
  | none => ⟨.ident, count⟩

/-- The longest symbol at the front, or a single unknown character. -/
def symbolLexeme (cs : List Char) : Lexeme :=
  match TokenKind.symbols.find? fun symbol => symbol.1.toList.isPrefixOf cs with
  | some (spelling, kind) => ⟨kind, spelling.toList.length⟩
  | none => ⟨.unknown, 1⟩

/-- A string literal after its opening quote. -/
def stringLexeme (cs : List Char) : Lexeme :=
  let items := literalItems '"' cs
  if (cs.drop items).head? = some '"' then ⟨.stringLiteral, 1 + items + 1⟩
  else ⟨.unknown, 1 + items⟩

/-- A character literal after its opening quote; it holds at least one item. -/
def charLexeme (cs : List Char) : Lexeme :=
  let items := literalItems '\'' cs
  if 0 < items ∧ (cs.drop items).head? = some '\'' then ⟨.charLiteral, 1 + items + 1⟩
  else ⟨.unknown, 1 + items⟩

/-- A block comment after its opening `/*`. -/
def blockCommentLexeme (cs : List Char) : Lexeme :=
  match beforeCommentEnd? cs with
  | some count => ⟨.blockComment, 2 + count + 2⟩
  | none => ⟨.unknown, 2 + cs.length⟩

/-- What the next token is, given the first character and those after it. -/
def nextLexeme (c : Char) (cs : List Char) : Lexeme :=
  if isLayout c then ⟨.whitespace, 1 + run isLayout cs⟩
  else if isIdentStart c then wordLexeme c cs
  else if c.isDigit then numberLexeme c cs
  else if c = '"' then stringLexeme cs
  else if c = '\'' then charLexeme cs
  else
    match c, cs with
    | '/', '/' :: rest => ⟨.lineComment, 2 + run (· != '\n') rest⟩
    | '/', '*' :: rest => blockCommentLexeme rest
    | '.', d :: rest =>
      if d.isDigit then
        let fraction := run isDigitPart rest
        ⟨.floatLiteral, 2 + fraction + floatTail (rest.drop fraction)⟩
      else symbolLexeme (c :: cs)
    | _, _ => symbolLexeme (c :: cs)

/-- The token of a kind that covers the characters `lexeme` from a place on. -/
def tokenAt (kind : TokenKind) (place : Text.Position) (lexeme : List Char) (index : Nat) : Token :=
  { kind
    text := String.ofList lexeme
    start := place.offset
    stop := place.offset + Text.byteLength lexeme
    line := place.line
    column := place.column
    index }

/-- The tokens of `cs`, which begins at `place`, numbered from `index`; the last one is the end.
Every round passes at least one character, so `fuel` need not exceed their number. -/
def tokensFrom (fuel : Nat) (place : Text.Position) (index : Nat) (cs : List Char) : List Token :=
  match fuel, cs with
  | _, [] => [tokenAt .eof place [] index]
  | 0, _ => [tokenAt .eof place [] index]
  | fuel + 1, c :: rest =>
    let lexeme := nextLexeme c rest
    let covered := (c :: rest).take lexeme.count
    tokenAt lexeme.kind place covered index ::
      tokensFrom fuel (place.advance covered) (index + 1) ((c :: rest).drop lexeme.count)

end Lexer

/-- The tokens of a text, layout and comments included, ending with one `eof` token. -/
def tokenize (text : String) : List Token :=
  Lexer.tokensFrom text.toList.length Text.Position.start 0 text.toList

end JavaGraph
