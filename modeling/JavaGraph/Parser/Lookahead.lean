import JavaGraph.Parser.Basic
/-!
# Looking ahead

Questions about the tokens ahead that the grammar asks before it decides for a construct. A
function that skips something returns the tokens behind it, or nothing if it is not there.
-/

namespace JavaGraph.Parser

/-- The tokens behind the delimiter that closes the first one; `depth` are open before it. -/
def afterMatching (opening closing : TokenKind) : (depth : Nat) → List Token → Option (List Token)
  | _, [] => none
  | depth, token :: ahead =>
    if token.kind = opening then afterMatching opening closing (depth + 1) ahead
    else if token.kind = closing then
      match depth with
      | 0 => none
      | 1 => some ahead
      | depth + 2 => afterMatching opening closing (depth + 1) ahead
    else afterMatching opening closing depth ahead

/-- The tokens behind the parenthesis that closes the first one. -/
def afterParens (ahead : List Token) : Option (List Token) :=
  afterMatching .lParen .rParen 0 ahead

/-- Skip pairs of a dot and an identifier. -/
def skipDotted : List Token → List Token
  | dot :: name :: ahead =>
    if dot.kind = .dot ∧ name.kind = .ident then skipDotted ahead else dot :: name :: ahead
  | ahead => ahead

/-- Skip pairs of a dot and any other token. -/
def skipDotPairs : List Token → List Token
  | dot :: token :: ahead =>
    if dot.kind = .dot then skipDotPairs ahead else dot :: token :: ahead
  | [dot] => if dot.kind = .dot then [] else [dot]
  | [] => []

/-- Skip the arguments of an annotation, if there are any. -/
def skipArguments (ahead : List Token) : Option (List Token) :=
  if kindAt ahead 0 = .lParen then afterParens ahead else some ahead

/-- Skip an annotation: `@`, a name and maybe arguments. -/
def skipAnnotationUse (ahead : List Token) : Option (List Token) :=
  if kindAt ahead 1 = .ident then skipArguments (skipDotted (ahead.drop 2)) else none

/-- Skip an annotation whose name is not looked at closely. -/
def skipLooseAnnotationUse (ahead : List Token) : Option (List Token) :=
  skipArguments (skipDotPairs (ahead.drop 2))

/-- Skip annotations in front of a type, at most `fuel` of them. -/
def skipAnnotations : (fuel : Nat) → List Token → Option (List Token)
  | 0, ahead => some ahead
  | fuel + 1, ahead =>
    if kindAt ahead 0 = .atSign then (skipAnnotationUse ahead).bind (skipAnnotations fuel)
    else some ahead

/-- Whether a token may stand between the angle brackets of type arguments. -/
def isTypeArgumentPart (kind : TokenKind) : Bool :=
  match kind with
  | .ident | .dot | .comma | .question | .kwExtends | .kwSuper | .amp | .lBracket | .rBracket
  | .atSign => true
  | kind => kind.isPrimitiveType

/-- Skip type arguments; `depth` angle brackets are open. -/
def skipTypeArguments : (depth : Nat) → List Token → Option (List Token)
  | _, [] => none
  | depth, token :: ahead =>
    if token.kind = .less then skipTypeArguments (depth + 1) ahead
    else if token.kind = .greater then
      match depth with
      | 0 => none
      | 1 => some ahead
      | depth + 2 => skipTypeArguments (depth + 1) ahead
    else if isTypeArgumentPart token.kind then skipTypeArguments depth ahead
    else none

/-- Skip type arguments, if there are any. -/
def skipTypeArgumentsOpt (ahead : List Token) : Option (List Token) :=
  if kindAt ahead 0 = .less then skipTypeArguments 0 ahead else some ahead

/-- Skip the name of a class type, at most `fuel` segments of it. -/
def skipClassType : (fuel : Nat) → List Token → Option (List Token)
  | 0, _ => none
  | fuel + 1, ahead =>
    if kindAt ahead 0 = .ident then do
      let behind ← skipTypeArgumentsOpt (ahead.drop 1)
      if kindAt behind 0 = .dot ∧ kindAt behind 1 = .ident then skipClassType fuel (behind.drop 1)
      else some behind
    else none

/-- Skip pairs of brackets. -/
def skipDimensions : List Token → List Token
  | opening :: closing :: ahead =>
    if opening.kind = .lBracket ∧ closing.kind = .rBracket then skipDimensions ahead
    else opening :: closing :: ahead
  | ahead => ahead

/-- Skip a type without the dimensions behind it. -/
def skipElementType (ahead : List Token) : Option (List Token) := do
  let ahead ← skipAnnotations ahead.length ahead
  if (kindAt ahead 0).isPrimitiveType then some (ahead.drop 1)
  else skipClassType (ahead.length + 1) ahead

/-- Skip a type. -/
def skipType (ahead : List Token) : Option (List Token) :=
  (skipElementType ahead).map skipDimensions

/-- Skip the modifiers of a local variable, at most `fuel` of them. -/
def skipVariableModifiers : (fuel : Nat) → List Token → Option (List Token)
  | 0, ahead => some ahead
  | fuel + 1, ahead =>
    if kindAt ahead 0 = .kwFinal then skipVariableModifiers fuel (ahead.drop 1)
    else if kindAt ahead 0 = .atSign ∧ kindAt ahead 1 ≠ .kwInterface then
      (skipAnnotationUse ahead).bind (skipVariableModifiers fuel)
    else some ahead

/-- Whether a local variable is declared here: modifiers, a type, a name, and what goes on with a
declaration. -/
def atLocalVariable (ahead : List Token) : Bool :=
  match (skipVariableModifiers ahead.length ahead).bind skipType with
  | none => false
  | some behind =>
    kindAt behind 0 == .ident &&
      match kindAt behind 1 with
      | .assign | .semicolon | .comma | .lBracket | .colon => true
      | _ => false

/-- Whether the declaration ahead is the header of a loop over elements: a `:` comes before any
`;` and `=`. -/
def atForEachColon (ahead : List Token) : Bool :=
  let found := ahead.find? fun token =>
    token.kind == .colon || token.kind == .semicolon || token.kind == .assign
  found.any (·.kind == .colon)

/-- Skip the modifiers of a type declaration, at most `fuel` of them. -/
def skipTypeModifiers : (fuel : Nat) → List Token → Option (List Token)
  | 0, ahead => some ahead
  | fuel + 1, ahead =>
    if (kindAt ahead 0).isModifier then skipTypeModifiers fuel (ahead.drop 1)
    else if kindAt ahead 0 = .atSign ∧ kindAt ahead 1 = .ident then
      (skipLooseAnnotationUse ahead).bind (skipTypeModifiers fuel)
    else some ahead

/-- Whether a keyword here begins a type declaration. -/
def atTypeKeyword (ahead : List Token) : Bool :=
  match kindAt ahead 0 with
  | .kwClass | .kwInterface | .kwEnum => true
  | .atSign => kindAt ahead 1 == .kwInterface
  | _ => false

/-- Whether a type is declared here, maybe after modifiers. -/
def atTypeDeclaration (ahead : List Token) : Bool :=
  (skipTypeModifiers ahead.length ahead).any atTypeKeyword

/-- Skip the annotations of a package declaration, at most `fuel` of them. -/
def skipPackageAnnotations : (fuel : Nat) → List Token → Option (List Token)
  | 0, ahead => some ahead
  | fuel + 1, ahead =>
    if kindAt ahead 0 = .atSign ∧ kindAt ahead 1 ≠ .kwInterface then
      (skipLooseAnnotationUse ahead).bind (skipPackageAnnotations fuel)
    else some ahead

/-- Whether a package is declared here, maybe after annotations. -/
def atPackageDeclaration (ahead : List Token) : Bool :=
  (skipPackageAnnotations ahead.length ahead).any fun behind => kindAt behind 0 == .kwPackage

/-- Whether a lambda begins here: a name or closed parentheses with an arrow behind them. -/
def atLambda (ahead : List Token) : Bool :=
  match kindAt ahead 0 with
  | .ident => kindAt ahead 1 == .arrow
  | .lParen => (afterParens ahead).any fun behind => kindAt behind 0 == .arrow
  | _ => false

/-- Skip types with `&` between them, at most `fuel` of them. -/
def skipCastTypes : (fuel : Nat) → List Token → Option (List Token)
  | 0, _ => none
  | fuel + 1, ahead => do
    let behind ← skipType ahead
    if kindAt behind 0 = .amp then skipCastTypes fuel (behind.drop 1) else some behind

/-- Whether a token can begin the operand of a cast to a class type. -/
def beginsCastOperand (kind : TokenKind) : Bool :=
  match kind with
  | .ident | .lParen | .kwThis | .kwSuper | .kwNew | .bang | .tilde => true
  | kind => kind.isLiteral

/-- Whether the parenthesis ahead begins a cast: `(int) x` or `(String) o`, not `(a) + b`. -/
def atCast (ahead : List Token) : Bool :=
  match skipCastTypes ahead.length (ahead.drop 1) with
  | none => false
  | some behind =>
    kindAt behind 0 == .rParen &&
      ((kindAt ahead 1).isPrimitiveType || beginsCastOperand (kindAt behind 1))

/-- Whether an array type is named here for its class or a method: `String[].class`. -/
def atArrayTypeLiteral (ahead : List Token) : Bool :=
  match skipElementType ahead with
  | none => false
  | some element =>
    let behind := skipDimensions element
    behind.length < element.length &&
      (kindAt behind 0 == .dot || kindAt behind 0 == .colonColon)

/-- How many tokens the assignment operator here has; `>>=` and `>>>=` come as touching tokens. -/
def assignmentWidth? (ahead : List Token) : Option Nat :=
  if (kindAt ahead 0).isAssignment then some 1
  else if kindAt ahead 0 = .greater ∧ touchesNext ahead 0 then
    if kindAt ahead 1 = .greaterEqual then some 2
    else if kindAt ahead 1 = .greater ∧ touchesNext ahead 1 ∧ kindAt ahead 2 = .greaterEqual then
      some 3
    else none
  else none

/-- A binary operator. -/
structure BinaryOperator where
  /-- Operators of higher precedence bind tighter. -/
  precedence : Nat
  /-- How many tokens it has. -/
  width : Nat
  /-- Whether a type stands on its right. -/
  isTypeTest : Bool := false
deriving DecidableEq, Repr

/-- The operator at a `>`, which shifts if more of them touch it. -/
def greaterOperator? (ahead : List Token) : Option BinaryOperator :=
  if (assignmentWidth? ahead).isSome then none
  else if kindAt ahead 1 = .greater ∧ touchesNext ahead 0 then
    if kindAt ahead 2 = .greater ∧ touchesNext ahead 1 then some ⟨8, 3, false⟩
    else some ⟨8, 2, false⟩
  else some ⟨7, 1, false⟩

/-- The binary operator here. -/
def binaryOperator? (ahead : List Token) : Option BinaryOperator :=
  match kindAt ahead 0 with
  | .pipePipe => some ⟨1, 1, false⟩
  | .ampAmp => some ⟨2, 1, false⟩
  | .pipe => some ⟨3, 1, false⟩
  | .caret => some ⟨4, 1, false⟩
  | .amp => some ⟨5, 1, false⟩
  | .equal | .notEqual => some ⟨6, 1, false⟩
  | .less | .lessEqual | .greaterEqual => some ⟨7, 1, false⟩
  | .kwInstanceof => some ⟨7, 1, true⟩
  | .greater => greaterOperator? ahead
  | .shiftLeft => some ⟨8, 1, false⟩
  | .plus | .minus => some ⟨9, 1, false⟩
  | .star | .slash | .percent => some ⟨10, 1, false⟩
  | _ => none

end JavaGraph.Parser
