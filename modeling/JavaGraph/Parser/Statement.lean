import JavaGraph.Parser.Expression
import JavaGraph.Parser.Resume
/-!
# Blocks and statements

A block is a list that goes on after a fault in one of its statements. Where a statement declares
a type, the declaration is parsed by the step `typeDeclaration`, which is given the place that the
modifiers before it begin at.
-/

namespace JavaGraph.Parser

open Parse

section

variable (sub : Nonterminal → Parse Unit)

/-- Variables with their initialisers, with commas between them. -/
def variableDeclarators : Parse Unit :=
  commaSeparated do
    inNode .variableDeclarator do
      expectIdent
      dimensions
      if ← eat .assign then variableInitializer sub

/-- Modifiers, a type and variables. -/
def localVariables : Parse Unit := do
  modifiers
  typeRef
  variableDeclarators sub

/-- An expression in parentheses. -/
def condition : Parse Unit := do
  expect .lParen "`(`"
  sub .expression
  expect .rParen "`)`"

/-- One or more expressions with commas between them. -/
def expressionList : Parse Unit := commaSeparated (sub .expression)

/-- An expression followed by a semicolon. -/
def expressionStmt : Parse Unit :=
  inNode .exprStmt do
    sub .expression
    expect .semicolon "`;`"

/-- A conditional statement. -/
def ifStmt : Parse Unit :=
  inNode .ifStmt do
    bump
    condition sub
    sub .statement
    if ← eat .kwElse then sub .statement

/-- A loop that tests before its body. -/
def whileStmt : Parse Unit :=
  inNode .whileStmt do
    bump
    condition sub
    sub .statement

/-- A loop that tests behind its body. -/
def doStmt : Parse Unit :=
  inNode .doStmt do
    bump
    sub .statement
    expect .kwWhile "`while`"
    condition sub
    expect .semicolon "`;`"

/-- What a loop with a counter begins with. -/
def forInit : Parse Unit :=
  inNode .forInit do
    if ← look atLocalVariable then inNode .localVarDecl (localVariables sub)
    else unless ← isAt .semicolon do expressionList sub

/-- The header of a loop over elements, behind its parenthesis. -/
def forEachHeader : Parse Unit := do
  modifiers
  typeRef
  expectIdent
  expect .colon "`:`"
  sub .expression

/-- The header of a loop with a counter, behind its parenthesis. -/
def forHeader : Parse Unit := do
  forInit sub
  expect .semicolon "`;`"
  unless ← isAt .semicolon do sub .expression
  expect .semicolon "`;`"
  inNode .forUpdate do
    unless ← isAt .rParen do expressionList sub

/-- A loop with a counter or over elements. -/
def forStmt : Parse Unit := do
  let place ← checkpoint
  bump
  expect .lParen "`(`"
  if ← look fun ahead => atLocalVariable ahead && atForEachColon ahead then
    startNodeAt place .forEachStmt
    forEachHeader sub
  else
    startNodeAt place .forStmt
    forHeader sub
  expect .rParen "`)`"
  sub .statement
  finishNode

/-- `return` with or without a value. -/
def returnStmt : Parse Unit :=
  inNode .returnStmt do
    bump
    unless ← isAt .semicolon do sub .expression
    expect .semicolon "`;`"

/-- `throw` with its value. -/
def throwStmt : Parse Unit :=
  inNode .throwStmt do
    bump
    sub .expression
    expect .semicolon "`;`"

/-- `break` or `continue`, with or without a label. -/
def jumpStmt (kind : NodeKind) : Parse Unit :=
  inNode kind do
    bump
    discard (eat .ident)
    expect .semicolon "`;`"

/-- A statement that runs while a lock is held. -/
def syncStmt : Parse Unit :=
  inNode .syncStmt do
    bump
    condition sub
    sub .block

/-- An assertion with or without its message. -/
def assertStmt : Parse Unit :=
  inNode .assertStmt do
    bump
    sub .expression
    if ← eat .colon then sub .expression
    expect .semicolon "`;`"

/-- A statement with a label. -/
def labeledStmt : Parse Unit :=
  inNode .labeledStmt do
    bumpMany 2
    sub .statement

/-- The resources of a `try` behind their parenthesis. -/
def resources : Parse Unit :=
  loop do
    if (← isAt .rParen) || (← atEnd) then return false
    else
      inNode .resourceSpec do
        if ← look atLocalVariable then localVariables sub else sub .expression
      eat .semicolon

/-- A handler of exceptions. -/
def catchClause : Parse Unit :=
  inNode .catchClause do
    bump
    expect .lParen "`(`"
    modifiers
    typeRef
    loop do
      if ← eat .pipe then
        typeRef
        return true
      else return false
    expectIdent
    expect .rParen "`)`"
    sub .block

/-- `try` with its resources, handlers and final block. -/
def tryStmt : Parse Unit :=
  inNode .tryStmt do
    bump
    if ← eat .lParen then
      resources sub
      expect .rParen "`)`"
    sub .block
    whileAt .kwCatch (catchClause sub)
    if ← isAt .kwFinally then
      inNode .finallyClause do
        bump
        sub .block

variable (typeDeclaration : Checkpoint → Parse Unit)

/-- A statement of a block: the declaration of a type or of variables, or any other statement. -/
def blockStatement : Parse Unit := do
  if ← look atTypeDeclaration then
    let place ← checkpoint
    modifiers
    typeDeclaration place
  else if ← look atLocalVariable then
    inNode .localVarDecl do
      localVariables sub
      expect .semicolon "`;`"
  else sub .statement

/-- Statements up to a closing brace, the end, or a token with one of the kinds `ends`. -/
def blockStatements (ends : List TokenKind) : Parse Unit :=
  loop do
    let kind ← look fun ahead => kindAt ahead 0
    if kind == .rBrace || kind == .eof || ends.contains kind then return false
    else
      recovering .statement (blockStatement sub typeDeclaration)
      return true

/-- Statements in braces. -/
def block : Parse Unit :=
  inNode .block do
    expect .lBrace "`\x7b`"
    blockStatements sub typeDeclaration []
    expectClosingBrace

/-- What a case of a switch with an arrow does. -/
def arrowBody : Parse Unit := do
  if ← isAt .lBrace then sub .block
  else if ← isAt .kwThrow then sub .statement
  else expressionStmt sub

/-- A case of a switch. Its labels are no lambdas, so that the arrow behind them is its own. -/
def switchCase : Parse Unit :=
  inNode .switchCase do
    if ← eat .kwCase then commaSeparated (sub .conditional) else bump
    if ← eat .arrow then arrowBody sub
    else
      expect .colon "`:` or `->`"
      blockStatements sub typeDeclaration [.kwCase, .kwDefault]

/-- A switch with its cases. -/
def switchStmt : Parse Unit :=
  inNode .switchStmt do
    bump
    condition sub
    expect .lBrace "`\x7b`"
    loop do
      if (← isAt .kwCase) || (← isAt .kwDefault) then
        switchCase sub typeDeclaration
        return true
      else return false
    expectClosingBrace

/-- Any statement but a declaration. -/
def statement : Parse Unit := do
  let ahead ← look id
  match kindAt ahead 0 with
  | .lBrace => sub .block
  | .semicolon => tokenNode .emptyStmt
  | .kwIf => ifStmt sub
  | .kwWhile => whileStmt sub
  | .kwDo => doStmt sub
  | .kwFor => forStmt sub
  | .kwReturn => returnStmt sub
  | .kwThrow => throwStmt sub
  | .kwBreak => jumpStmt .breakStmt
  | .kwContinue => jumpStmt .continueStmt
  | .kwSwitch => switchStmt sub typeDeclaration
  | .kwTry => tryStmt sub
  | .kwSynchronized => syncStmt sub
  | .kwAssert => assertStmt sub
  | .ident => if kindAt ahead 1 = .colon then labeledStmt sub else expressionStmt sub
  | _ => expressionStmt sub

end

end JavaGraph.Parser
