import JavaGraph.Tree.Builder
/-!
# Parsing steps

A parsing step works on the significant tokens still ahead. It adds what it passes to a builder
and records the faults it finds. A step can fail; whatever it has built and passed by then stays,
and the step around it decides what becomes of that.

Steps are put together with `do`, and repeated with `loop`, which ends because every round that
asks for another one passes a token.
-/

namespace JavaGraph

/-- What does not change while a text is parsed. -/
structure Parser.Input where
  source : String
  /-- The token that stands at the end of the text. -/
  endToken : Token

/-- How far the parsing of a text has come. -/
structure Parser.State where
  /-- The significant tokens ahead, without the end. -/
  ahead : List Token
  builder : Builder
  /-- The faults found so far, oldest first. -/
  errors : List ParseError

/-- A parsing step: its result, if it does not fail, and the state it leaves. -/
def Parse (α : Type) : Type := Parser.Input → Parser.State → Option α × Parser.State

namespace Parse

/-- Steps in sequence: a failure ends the sequence and keeps the state. -/
instance : Monad Parse where
  pure value := fun _ state => (some value, state)
  bind step next := fun input state =>
    match step input state with
    | (some value, state) => next value input state
    | (none, state) => (none, state)

/-- The step that fails and changes nothing. -/
def fail {α : Type} : Parse α := fun _ state => (none, state)

/-- Look at the tokens ahead without passing any. -/
def look {α : Type} (f : List Token → α) : Parse α := fun _ state => (some (f state.ahead), state)

/-- The next token, which is the end token if there is no other. -/
def current : Parse Token := fun input state => (some (state.ahead.headD input.endToken), state)

/-- Change the builder. -/
def build (f : Builder → Builder) : Parse Unit := fun _ state =>
  (some (), { state with builder := f state.builder })

/-- Do what `f` says with the tokens ahead. -/
def onAhead {α : Type} (f : List Token → Parse α) : Parse α := fun input state =>
  f state.ahead input state

end Parse

namespace Parser

open Parse

/-- The kind of the token `n` places on; beyond the last one there is only the end. -/
def kindAt (ahead : List Token) (n : Nat) : TokenKind :=
  match ahead[n]? with
  | some token => token.kind
  | none => .eof

/-- Whether the token `n` places on and the one after it touch. -/
def touchesNext (ahead : List Token) (n : Nat) : Bool :=
  match ahead[n]?, ahead[n + 1]? with
  | some token, some next => token.stop == next.start
  | _, _ => false

/-- Whether the next token has a kind. -/
def isAt (kind : TokenKind) : Parse Bool := look fun ahead => kindAt ahead 0 == kind

/-- Whether the token `n` places on has a kind. -/
def isAtNth (n : Nat) (kind : TokenKind) : Parse Bool := look fun ahead => kindAt ahead n == kind

/-- Whether no token is left. -/
def atEnd : Parse Bool := isAt .eof

/-- Pass the next token, which becomes a leaf. The end is never passed. -/
def bump : Parse Unit := fun _ state =>
  match state.ahead with
  | [] => (some (), state)
  | token :: ahead => (some (), { state with ahead, builder := state.builder.token token })

/-- Pass some tokens. -/
def bumpMany : Nat → Parse Unit
  | 0 => pure ()
  | count + 1 => do bump; bumpMany count

/-- Pass the next token if it has a kind, and tell whether it had. -/
def eat (kind : TokenKind) : Parse Bool := do
  if ← isAt kind then
    bump
    return true
  else return false

/-- Record that something else was expected at the next token. -/
def errorExpected (what : String) : Parse Unit := fun input state =>
  let token := state.ahead.headD input.endToken
  let found := if token.kind = .eof then "end of file" else s!"`{token.text}`"
  let error := ParseError.atToken token s!"expected {what}, found {found}"
  (some (), { state with errors := state.errors ++ [error] })

/-- Pass a token of a kind, or record what was expected and fail. -/
def expect (kind : TokenKind) (what : String) : Parse Unit := do
  unless ← eat kind do
    errorExpected what
    fail

/-- Pass an identifier. -/
def expectIdent : Parse Unit := expect .ident "identifier"

/-- Pass the brace that closes a body. A body that the text ends in is closed all the same, so
that a truncated text keeps what it declares. -/
def expectClosingBrace : Parse Unit := do
  unless ← eat .rBrace do
    errorExpected "`\x7d`"
    unless ← atEnd do fail

/-- Begin a node at the next token. -/
def startNode (kind : NodeKind) : Parse Unit := do
  let anchor ← current
  build (·.start kind anchor)

/-- Finish the innermost node. -/
def finishNode : Parse Unit := build Builder.finishNode

/-- The place reached in the tree. -/
def checkpoint : Parse Checkpoint := fun _ state => (some state.builder.checkpoint, state)

/-- Begin a node around what was built since a checkpoint. -/
def startNodeAt (place : Checkpoint) (kind : NodeKind) : Parse Unit := do
  let anchor ← current
  build (·.startAt place kind anchor)

/-- Build a node of a kind with what a step passes. The node stays open if the step fails. -/
def inNode (kind : NodeKind) (step : Parse Unit) : Parse Unit := do
  startNode kind
  step
  finishNode

/-- A node that holds the next token only. -/
def tokenNode (kind : NodeKind) : Parse Unit := inNode kind bump

/-- Repeat a step while it asks for another round, at most `rounds` times. -/
def loopAtMost : Nat → Parse Bool → Parse Unit
  | 0, _ => pure ()
  | rounds + 1, step => do
    if ← step then loopAtMost rounds step

/-- Repeat a step while it asks for another round. A round that does so passes a token, so there
are no more rounds than tokens ahead, and a last one. -/
def loop (step : Parse Bool) : Parse Unit :=
  onAhead fun ahead => loopAtMost (ahead.length + 1) step

/-- Repeat a step while the next token has a kind. -/
def whileAt (kind : TokenKind) (step : Parse Unit) : Parse Unit :=
  loop do
    if ← isAt kind then
      step
      return true
    else return false

/-- One or more items with commas between them. -/
def commaSeparated (item : Parse Unit) : Parse Unit :=
  loop do
    item
    eat .comma

/-- Pass pairs of brackets. -/
def dimensions : Parse Unit :=
  loop do
    if (← isAt .lBracket) && (← isAtNth 1 .rBracket) then
      bumpMany 2
      return true
    else return false

end Parser

end JavaGraph
