import JavaGraph.Parser.Lookahead
/-!
# Types, type arguments and type parameters

Types nest through their type arguments. `typeRefWith` parses one type, given a step for the types
within it, and `typeRef` closes the circle; a nested type comes behind at least one token more, so
the number of tokens ahead bounds the nesting.
-/

namespace JavaGraph.Parser

open Parse

/-- `a.b.c`, up to a dot that no identifier follows. -/
def dottedRest : Parse Unit :=
  loop do
    if (← isAt .dot) && (← isAtNth 1 .ident) then
      bumpMany 2
      return true
    else return false

/-- A name of one or more identifiers. -/
def qualifiedName : Parse Unit :=
  inNode .qualifiedName do
    expectIdent
    dottedRest

/-- Annotations in front of a type, without arguments. -/
def typeAnnotations : Parse Unit :=
  loop do
    if (← isAt .atSign) && (← isAtNth 1 .ident) then
      inNode .annotationUse do
        bump
        qualifiedName
      return true
    else return false

section

variable (nested : Parse Unit)

/-- One type argument: a type, or a wildcard with or without a bound. -/
def typeArgumentWith : Parse Unit := do
  if ← isAt .question then
    inNode .wildcard do
      bump
      if (← isAt .kwExtends) || (← isAt .kwSuper) then
        bump
        nested
  else nested

/-- Type arguments between angle brackets, which may be empty. -/
def typeArgumentsWith : Parse Unit :=
  inNode .typeArguments do
    expect .less "`<`"
    unless ← isAt .greater do commaSeparated (typeArgumentWith nested)
    expect .greater "`>`"

/-- The name of a class type: identifiers with or without type arguments, joined by dots. -/
def classTypeWith : Parse Unit :=
  loop do
    expect .ident "type"
    if ← isAt .less then typeArgumentsWith nested
    if (← isAt .dot) && (← isAtNth 1 .ident) then
      bump
      return true
    else return false

/-- A primitive type or a class type. -/
def elementTypeWith : Parse Unit := do
  if (← look fun ahead => (kindAt ahead 0).isPrimitiveType) then bump else classTypeWith nested

/-- A type with its annotations and dimensions. -/
def typeRefWith : Parse Unit :=
  inNode .typeRef do
    typeAnnotations
    elementTypeWith nested
    dimensions

end

/-- A type that nests less than `depth` deep. -/
def typeRefAtMost : (depth : Nat) → Parse Unit
  | 0 => fail
  | depth + 1 => typeRefWith (typeRefAtMost depth)

/-- A type: `int[]`, `java.util.Map<K, List<V>>.Entry`. -/
def typeRef : Parse Unit :=
  onAhead fun ahead => typeRefAtMost (ahead.length + 1)

/-- Type arguments. -/
def typeArguments : Parse Unit := typeArgumentsWith typeRef

/-- A type without annotations and dimensions, as behind `new`. -/
def typeRefNoDimensions : Parse Unit := inNode .typeRef (elementTypeWith typeRef)

/-- One or more types with commas between them. -/
def typeList : Parse Unit := commaSeparated typeRef

/-- One type parameter with its bounds. -/
def typeParameter : Parse Unit :=
  inNode .typeParameter do
    typeAnnotations
    expectIdent
    if ← eat .kwExtends then
      typeRef
      loop do
        if ← eat .amp then
          typeRef
          return true
        else return false

/-- Type parameters between angle brackets, if there are any. -/
def typeParametersOpt : Parse Unit := do
  if ← isAt .less then
    inNode .typeParameters do
      bump
      commaSeparated typeParameter
      expect .greater "`>`"

/-- The arguments of an annotation, kept as the tokens they are. -/
def annotationArguments : Parse Unit :=
  onAhead fun ahead =>
    match afterParens ahead with
    | some behind => inNode .annotationArgs (bumpMany (ahead.length - behind.length))
    | none => errorExpected "`)`"

/-- An annotation with or without arguments; an identifier follows its `@`. -/
def annotationUse : Parse Unit :=
  inNode .annotationUse do
    bump
    inNode .qualifiedName do
      bump
      dottedRest
    if ← isAt .lParen then annotationArguments

/-- The modifiers and annotations of a declaration, which may be none. A `default` that labels
a case of a switch is no modifier. -/
def modifiers : Parse Unit :=
  inNode .modifiers do
    loop do
      let ahead ← look id
      let isLabel := kindAt ahead 1 == .colon || kindAt ahead 1 == .arrow
      if kindAt ahead 0 == .kwDefault && isLabel then return false
      else if (kindAt ahead 0).isModifier then
        bump
        return true
      else if kindAt ahead 0 == .atSign && kindAt ahead 1 == .ident then
        annotationUse
        return true
      else return false

/-- A parameter of a method, a constructor or a lambda, or the receiver `this`. -/
def parameter : Parse Unit :=
  inNode .parameter do
    modifiers
    typeRef
    discard (eat .ellipsis)
    unless ← eat .kwThis do expectIdent
    dimensions

/-- The parameters of a method or constructor. -/
def formalParameters : Parse Unit :=
  inNode .formalParameters do
    expect .lParen "`(`"
    unless ← isAt .rParen do commaSeparated parameter
    expect .rParen "`)`"

end JavaGraph.Parser
