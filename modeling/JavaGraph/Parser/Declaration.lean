import JavaGraph.Parser.Statement
/-!
# Type declarations and their members

Modifiers stand before what they belong to, so a declaration is begun at the place its modifiers
were begun at. A body is a list that goes on after a fault in one of its members.
-/

namespace JavaGraph.Parser

open Parse

section

variable (sub : Nonterminal → Parse Unit)

/-- The interfaces a class or an enum implements, if it names any. -/
def implementsOpt : Parse Unit := do
  if ← isAt .kwImplements then
    inNode .implementsClause do
      bump
      typeList

/-- What follows `class`. -/
def classDecl : Parse Unit := do
  bump
  expectIdent
  typeParametersOpt
  if ← isAt .kwExtends then
    inNode .extendsClause do
      bump
      typeRef
  implementsOpt
  sub .classBody

/-- What follows `interface`. -/
def interfaceDecl : Parse Unit := do
  bump
  expectIdent
  typeParametersOpt
  if ← isAt .kwExtends then
    inNode .extendsClause do
      bump
      typeList
  sub .classBody

/-- What follows `enum`. -/
def enumDecl : Parse Unit := do
  bump
  expectIdent
  implementsOpt
  sub .enumBody

/-- What follows `@interface`. -/
def annotationDecl : Parse Unit := do
  bumpMany 2
  expectIdent
  sub .classBody

/-- The declaration of a type whose modifiers were begun at `place`. -/
def typeDeclaration (place : Checkpoint) : Parse Unit := do
  let ahead ← look id
  if kindAt ahead 0 = .kwClass then aroundSince place .classDecl (classDecl sub)
  else if kindAt ahead 0 = .kwInterface then aroundSince place .interfaceDecl (interfaceDecl sub)
  else if kindAt ahead 0 = .kwEnum then aroundSince place .enumDecl (enumDecl sub)
  else if kindAt ahead 0 = .atSign ∧ kindAt ahead 1 = .kwInterface then
    aroundSince place .annotationDecl (annotationDecl sub)
  else
    errorExpected "type declaration"
    fail

/-- The value an element of an annotation type has unless it is given. -/
def elementValue : Parse Unit := do
  match ← look fun ahead => kindAt ahead 0 with
  | .lBrace => sub .arrayInit
  | .atSign => annotationUse
  | _ => sub .expression

/-- What follows the name of a method or constructor. -/
def methodRest : Parse Unit := do
  formalParameters
  dimensions
  if ← isAt .kwThrows then
    inNode .throwsClause do
      bump
      typeList
  if ← eat .kwDefault then
    elementValue sub
    expect .semicolon "`;`"
  else unless ← eat .semicolon do sub .block

/-- A block that runs when a class or an object is set up. -/
def initializerBlock : Parse Unit :=
  inNode .initializer do
    discard (eat .kwStatic)
    sub .block

/-- A method behind its result type, or fields behind their type. -/
def methodOrFields (place : Checkpoint) : Parse Unit := do
  if (← isAt .ident) && (← isAtNth 1 .lParen) then
    aroundSince place .methodDecl do
      bump
      methodRest sub
  else
    aroundSince place .fieldDecl do
      variableDeclarators sub
      expect .semicolon "`;`"

/-- A member that is neither a block nor a type, behind its modifiers. -/
def typedMember (place : Checkpoint) : Parse Unit := do
  typeParametersOpt
  if (← isAt .ident) && (← isAtNth 1 .lParen) then
    aroundSince place .constructorDecl do
      bump
      methodRest sub
  else
    if ← isAt .kwVoid then bump else typeRef
    methodOrFields sub place

/-- A member of a type. -/
def member : Parse Unit := do
  let place ← checkpoint
  let ahead ← look id
  if kindAt ahead 0 = .lBrace ∨ (kindAt ahead 0 = .kwStatic ∧ kindAt ahead 1 = .lBrace) then
    initializerBlock sub
  else
    modifiers
    if ← look atTypeKeyword then typeDeclaration sub place else typedMember sub place

/-- Members up to a closing brace or the end. -/
def members : Parse Unit :=
  loop do
    let kind ← look fun ahead => kindAt ahead 0
    if kind == .rBrace || kind == .eof then return false
    else if ← eat .semicolon then return true
    else
      recovering .statement (member sub)
      return true

/-- Members in braces. -/
def classBody : Parse Unit :=
  inNode .classBody do
    expect .lBrace "`\x7b`"
    members sub
    expectClosingBrace

/-- A constant of an enum, with or without arguments and a body. -/
def enumConstant : Parse Unit :=
  inNode .enumConstant do
    modifiers
    expectIdent
    if ← isAt .lParen then arguments sub
    if ← isAt .lBrace then sub .classBody

/-- The constants of an enum, and behind a semicolon its members, in braces. -/
def enumBody : Parse Unit :=
  inNode .enumBody do
    expect .lBrace "`\x7b`"
    loop do
      if (← isAt .ident) || (← isAt .atSign) then
        recovering .statement (enumConstant sub)
        eat .comma
      else return false
    if ← eat .semicolon then members sub
    expectClosingBrace

end

/-- The declaration of the package. -/
def packageDecl : Parse Unit :=
  inNode .packageDecl do
    modifiers
    expect .kwPackage "`package`"
    qualifiedName
    expect .semicolon "`;`"

/-- The import of a type, a member, or all types or members of something. -/
def importDecl : Parse Unit :=
  inNode .importDecl do
    bump
    discard (eat .kwStatic)
    qualifiedName
    if (← isAt .dot) && (← isAtNth 1 .star) then bumpMany 2
    expect .semicolon "`;`"

end JavaGraph.Parser
