import JavaGraph.Parser.TypeRef
/-!
# Expressions

Expressions, statements and declarations contain each other. `Nonterminal` names the constructs
through which they do; every function here and in the modules of statements and declarations
takes a step `sub` that parses any of these. The circle is closed where a whole text is parsed.

Binary operators are put together by precedence: the right operand of an operator takes only
operators that bind tighter.
-/

namespace JavaGraph.Parser

open Parse

/-- The constructs through which the grammar is recursive. -/
inductive Nonterminal where
  /-- Any expression. -/
  | expression
  /-- An expression that is neither an assignment nor a lambda. -/
  | conditional
  /-- An expression of operators of at least this precedence. -/
  | binary (precedence : Nat)
  /-- An operand with what stands before it. -/
  | unary
  | arrayInit
  | block
  | statement
  | classBody
  | enumBody
deriving DecidableEq, Repr

section

variable (sub : Nonterminal → Parse Unit)

/-- Arguments in parentheses. -/
def arguments : Parse Unit :=
  inNode .arguments do
    expect .lParen "`(`"
    unless ← isAt .rParen do commaSeparated (sub .expression)
    expect .rParen "`)`"

/-- What a variable or an element of an array is initialised with. -/
def variableInitializer : Parse Unit := do
  if ← isAt .lBrace then sub .arrayInit else sub .expression

/-- The elements of an array in braces. -/
def arrayInit : Parse Unit :=
  inNode .arrayInit do
    expect .lBrace "`\x7b`"
    loop do
      if (← isAt .rBrace) || (← atEnd) then return false
      else
        variableInitializer sub
        eat .comma
    expect .rBrace "`\x7d`"

/-- The parameters of a lambda before its arrow. -/
def lambdaParameters : Parse Unit :=
  inNode .lambdaParams do
    if ← eat .lParen then
      unless ← isAt .rParen do
        commaSeparated do
          let named ← look fun ahead =>
            kindAt ahead 0 == .ident && (kindAt ahead 1 == .comma || kindAt ahead 1 == .rParen)
          if named then bump else parameter
      expect .rParen "`)`"
    else expectIdent

/-- A lambda. -/
def lambda : Parse Unit :=
  inNode .lambdaExpr do
    lambdaParameters
    expect .arrow "`->`"
    if ← isAt .lBrace then sub .block else sub .expression

/-- The dimensions of a new array, with or without their lengths. -/
def arrayLengths : Parse Unit :=
  whileAt .lBracket do
    bump
    unless ← isAt .rBracket do sub .expression
    expect .rBracket "`]`"

/-- `new` with a type: an array, or an object with or without a class body. -/
def newExpr : Parse Unit := do
  let place ← checkpoint
  bump
  if ← isAt .less then typeArguments
  typeRefNoDimensions
  if ← isAt .lBracket then
    startNodeAt place .newArray
    arrayLengths sub
    if ← isAt .lBrace then sub .arrayInit
  else
    startNodeAt place .newObject
    arguments sub
    if ← isAt .lBrace then sub .classBody
  finishNode

/-- A node around what was built since `place` and what a step passes now. -/
def aroundSince (place : Checkpoint) (kind : NodeKind) (step : Parse Unit) : Parse Unit := do
  startNodeAt place kind
  step
  finishNode

/-- What goes on with an operand behind a dot. -/
def memberOf (place : Checkpoint) : Parse Unit := do
  let ahead ← look id
  match kindAt ahead 1 with
  | .ident =>
    if kindAt ahead 2 = .lParen then
      aroundSince place .methodCall do
        bumpMany 2
        arguments sub
    else aroundSince place .fieldAccess (bumpMany 2)
  | .less =>
    aroundSince place .methodCall do
      bump
      typeArguments
      expectIdent
      arguments sub
  | .kwThis | .kwSuper => aroundSince place .fieldAccess (bumpMany 2)
  | .kwClass => aroundSince place .classLiteral (bumpMany 2)
  | .kwNew =>
    aroundSince place .fieldAccess do
      bump
      newExpr sub
  | _ =>
    bump
    errorExpected "member name"
    fail

/-- What goes on with an operand, if anything does. -/
def postfixPart (place : Checkpoint) : Parse Bool := do
  match ← look fun ahead => kindAt ahead 0 with
  | .dot =>
    memberOf sub place
    return true
  | .lBracket =>
    aroundSince place .arrayAccess do
      bump
      sub .expression
      expect .rBracket "`]`"
    return true
  | .plusPlus | .minusMinus =>
    aroundSince place .postfixExpr bump
    return true
  | .colonColon =>
    aroundSince place .methodRef do
      bump
      unless ← eat .kwNew do expectIdent
    return true
  | _ => return false

/-- An operand that begins with an identifier. -/
def namedOperand : Parse Unit := do
  let ahead ← look id
  if kindAt ahead 1 = .lParen then
    inNode .methodCall do
      bump
      arguments sub
  else if atArrayTypeLiteral ahead then
    inNode .classLiteral do
      typeRef
      expect .dot "`.`"
      expect .kwClass "`class`"
  else tokenNode .nameRef

/-- `this` or `super`, alone or as a call of a constructor. -/
def selfOperand (kind : NodeKind) : Parse Unit := do
  if ← isAtNth 1 .lParen then
    inNode .methodCall do
      bump
      arguments sub
  else tokenNode kind

/-- The class of a primitive type, or a method of an array of it. -/
def primitiveOperand : Parse Unit :=
  inNode .classLiteral do
    typeRef
    if ← eat .dot then expect .kwClass "`class`"

/-- An operand without what goes on with it. -/
def primary : Parse Unit := do
  match ← look fun ahead => kindAt ahead 0 with
  | .kwThis => selfOperand sub .thisExpr
  | .kwSuper => selfOperand sub .superExpr
  | .ident => namedOperand sub
  | .lParen =>
    inNode .parenExpr do
      bump
      sub .expression
      expect .rParen "`)`"
  | .kwNew => newExpr sub
  | .lBrace => sub .arrayInit
  | .kwVoid =>
    inNode .classLiteral do
      bump
      expect .dot "`.`"
      expect .kwClass "`class`"
  | kind =>
    if kind.isLiteral then tokenNode .literal
    else if kind.isPrimitiveType then primitiveOperand
    else do
      errorExpected "expression"
      fail

/-- An operand with all that goes on with it. -/
def postfixExpr : Parse Unit := do
  let place ← checkpoint
  primary sub
  loop (postfixPart sub place)

/-- A cast; one or more types stand in its parentheses. -/
def castExpr : Parse Unit :=
  inNode .castExpr do
    bump
    typeRef
    loop do
      if ← eat .amp then
        typeRef
        return true
      else return false
    expect .rParen "`)`"
    if ← look atLambda then lambda sub else sub .unary

/-- An operand with what stands before it. -/
def unaryExpr : Parse Unit := do
  let ahead ← look id
  match kindAt ahead 0 with
  | .plus | .minus | .bang | .tilde | .plusPlus | .minusMinus =>
    inNode .unaryExpr do
      bump
      sub .unary
  | .lParen => if atCast ahead then castExpr sub else postfixExpr sub
  | _ => postfixExpr sub

/-- A type test of what was built since `place`. -/
def typeTest (place : Checkpoint) : Parse Unit :=
  aroundSince place .instanceOfExpr do
    bump
    discard (eat .kwFinal)
    typeRef
    discard (eat .ident)

/-- Go on with an operator of at least the given precedence, if one is here. -/
def operatorPart (place : Checkpoint) (precedence : Nat) : Parse Bool := do
  match ← look binaryOperator? with
  | none => return false
  | some operator =>
    if operator.precedence < precedence then return false
    else if operator.isTypeTest then
      typeTest place
      return true
    else
      aroundSince place .binaryExpr do
        bumpMany operator.width
        sub (.binary (operator.precedence + 1))
      return true

/-- Operands with operators of at least the given precedence between them. -/
def binaryExpr (precedence : Nat) : Parse Unit := do
  let place ← checkpoint
  sub .unary
  loop (operatorPart sub place precedence)

/-- An expression that is neither an assignment nor a lambda. -/
def conditionalExpr : Parse Unit := do
  let place ← checkpoint
  sub (.binary 0)
  if ← isAt .question then
    aroundSince place .conditionalExpr do
      bump
      sub .expression
      expect .colon "`:`"
      if ← look atLambda then lambda sub else sub .conditional

/-- Any expression. -/
def expression : Parse Unit := do
  if ← look atLambda then lambda sub
  else
    let place ← checkpoint
    sub .conditional
    match ← look assignmentWidth? with
    | none => pure ()
    | some width =>
      aroundSince place .assignExpr do
        bumpMany width
        sub .expression

end

end JavaGraph.Parser
