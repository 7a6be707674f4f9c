import JavaGraph.Parser.Basic
/-!
# Going on after a fault

Where a construct of a list fails (a declaration, a member, a statement), everything built for it
is taken back, some tokens more are skipped, and one error node stands for all of these tokens.
The list then goes on behind it.
-/

namespace JavaGraph.Parser

open Parse

/-- Where to go on after a fault. -/
inductive Resume where
  /-- Behind `;` or a closed pair of braces, or before a `}`. -/
  | statement
  /-- Before the keyword or modifier that a type declaration begins with. -/
  | declaration
deriving DecidableEq, Repr

/-- The tokens before which the list of declarations of a file goes on. -/
def beginsDeclaration : TokenKind → Bool
  | .kwClass | .kwInterface | .kwEnum | .kwPublic | .kwAbstract | .atSign => true
  | _ => false

/-- Split the tokens ahead into those to skip and those to go on with. `depth` braces are open;
with `forced` the first token is skipped wherever that is possible, so that the list does not try
the same token again. -/
def skipTo (resume : Resume) : (forced : Bool) → (depth : Nat) → List Token →
    List Token × List Token
  | _, _, [] => ([], [])
  | forced, 0, token :: ahead =>
    if token.kind = .rBrace then
      if forced && resume = .declaration then ([token], ahead) else ([], token :: ahead)
    else if token.kind = .semicolon ∧ resume = .statement then ([token], ahead)
    else if beginsDeclaration token.kind ∧ resume = .declaration ∧ !forced then
      ([], token :: ahead)
    else
      let depth := if token.kind = .lBrace then 1 else 0
      let (skipped, behind) := skipTo resume false depth ahead
      (token :: skipped, behind)
  | _, depth + 1, token :: ahead =>
    if token.kind = .rBrace ∧ depth = 0 ∧ resume = .statement then ([token], ahead)
    else
      let depth :=
        if token.kind = .lBrace then depth + 2
        else if token.kind = .rBrace then depth
        else depth + 1
      let (skipped, behind) := skipTo resume false depth ahead
      (token :: skipped, behind)

/-- What is skipped and what is left are the tokens ahead. -/
theorem skipTo_append (resume : Resume) (forced : Bool) (depth : Nat) (ahead : List Token) :
    (skipTo resume forced depth ahead).1 ++ (skipTo resume forced depth ahead).2 = ahead := by
  induction ahead generalizing forced depth with
  | nil => cases depth <;> simp [skipTo]
  | cons token ahead ih =>
    cases depth with
    | zero =>
      simp only [skipTo]
      split
      · split <;> simp
      · split
        · simp
        · split
          · simp
          · simp [ih]
    | succ depth =>
      simp only [skipTo]
      split
      · simp
      · simp [ih]

/-- Replace what was built since `place` by an error node, and skip to where the list goes on.
`errorsBefore` and `aheadBefore` count the faults found and the tokens ahead at `place`. -/
def recover (resume : Resume) (place : Checkpoint) (errorsBefore aheadBefore : Nat) :
    Parse Unit := fun input state =>
  let (abandoned, builder) := state.builder.abandon place
  let forced := !(state.ahead.length < aheadBefore)
  let (skipped, ahead) := skipTo resume forced 0 state.ahead
  let region := abandoned ++ skipped
  let errors :=
    if state.errors.length = errorsBefore then
      let token := region.headD (ahead.headD input.endToken)
      state.errors ++ [ParseError.atToken token "unexpected input"]
    else state.errors
  let node := errors.getLast?.bind fun error => Tree.errorNode? input.source region error
  let builder := match node with
    | some node => builder.push node
    | none => builder
  (some (), { ahead, builder, errors })

/-- Run a step; if it fails, recover from that. -/
def recovering (resume : Resume) (step : Parse Unit) : Parse Unit := fun input state =>
  match step input state with
  | (some (), after) => (some (), after)
  | (none, after) =>
    recover resume state.builder.checkpoint state.errors.length state.ahead.length input after

end JavaGraph.Parser
