/-!
# Kinds of tree nodes

The constructs of Java that a node of the tree can stand for, their names in the order they are
listed, and the kinds that declare something.
-/

namespace JavaGraph

/-- What a node of the tree stands for. -/
inductive NodeKind where
  -- A single token, and a region that no construct could be made of.
  | token | error
  -- Files and names.
  | compilationUnit | packageDecl | importDecl | qualifiedName
  -- Declarations.
  | classDecl | interfaceDecl | enumDecl | annotationDecl | modifiers | annotationUse
  | annotationArgs | typeParameters | typeParameter | extendsClause | implementsClause
  | throwsClause | classBody | enumBody | enumConstant | fieldDecl | variableDeclarator
  | methodDecl | constructorDecl | initializer | formalParameters | parameter
  -- Types.
  | typeRef | typeArguments | wildcard
  -- Statements.
  | block | localVarDecl | exprStmt | ifStmt | whileStmt | doStmt | forStmt | forInit | forUpdate
  | forEachStmt | returnStmt | throwStmt | breakStmt | continueStmt | switchStmt | switchCase
  | tryStmt | resourceSpec | catchClause | finallyClause | syncStmt | labeledStmt | assertStmt
  | emptyStmt
  -- Expressions.
  | assignExpr | conditionalExpr | binaryExpr | instanceOfExpr | unaryExpr | postfixExpr
  | castExpr | parenExpr | fieldAccess | methodCall | arrayAccess | newObject | newArray
  | arrayInit | arguments | literal | nameRef | thisExpr | superExpr | classLiteral | lambdaExpr
  | lambdaParams | methodRef
deriving DecidableEq, Repr, Inhabited

namespace NodeKind

/-- Every kind, in order. -/
def all : List NodeKind :=
  [.token, .error, .compilationUnit, .packageDecl, .importDecl, .qualifiedName, .classDecl,
   .interfaceDecl, .enumDecl, .annotationDecl, .modifiers, .annotationUse, .annotationArgs,
   .typeParameters, .typeParameter, .extendsClause, .implementsClause, .throwsClause, .classBody,
   .enumBody, .enumConstant, .fieldDecl, .variableDeclarator, .methodDecl, .constructorDecl,
   .initializer, .formalParameters, .parameter, .typeRef, .typeArguments, .wildcard, .block,
   .localVarDecl, .exprStmt, .ifStmt, .whileStmt, .doStmt, .forStmt, .forInit, .forUpdate,
   .forEachStmt, .returnStmt, .throwStmt, .breakStmt, .continueStmt, .switchStmt, .switchCase,
   .tryStmt, .resourceSpec, .catchClause, .finallyClause, .syncStmt, .labeledStmt, .assertStmt,
   .emptyStmt, .assignExpr, .conditionalExpr, .binaryExpr, .instanceOfExpr, .unaryExpr,
   .postfixExpr, .castExpr, .parenExpr, .fieldAccess, .methodCall, .arrayAccess, .newObject,
   .newArray, .arrayInit, .arguments, .literal, .nameRef, .thisExpr, .superExpr, .classLiteral,
   .lambdaExpr, .lambdaParams, .methodRef]

/-- The name of a kind. -/
def name : NodeKind → String
  | .token => "Token"
  | .error => "Error"
  | .compilationUnit => "CompilationUnit"
  | .packageDecl => "PackageDecl"
  | .importDecl => "ImportDecl"
  | .qualifiedName => "QualifiedName"
  | .classDecl => "ClassDecl"
  | .interfaceDecl => "InterfaceDecl"
  | .enumDecl => "EnumDecl"
  | .annotationDecl => "AnnotationDecl"
  | .modifiers => "Modifiers"
  | .annotationUse => "Annotation"
  | .annotationArgs => "AnnotationArgs"
  | .typeParameters => "TypeParameters"
  | .typeParameter => "TypeParameter"
  | .extendsClause => "ExtendsClause"
  | .implementsClause => "ImplementsClause"
  | .throwsClause => "ThrowsClause"
  | .classBody => "ClassBody"
  | .enumBody => "EnumBody"
  | .enumConstant => "EnumConstant"
  | .fieldDecl => "FieldDecl"
  | .variableDeclarator => "VariableDeclarator"
  | .methodDecl => "MethodDecl"
  | .constructorDecl => "ConstructorDecl"
  | .initializer => "Initializer"
  | .formalParameters => "FormalParameters"
  | .parameter => "Parameter"
  | .typeRef => "TypeRef"
  | .typeArguments => "TypeArguments"
  | .wildcard => "Wildcard"
  | .block => "Block"
  | .localVarDecl => "LocalVarDecl"
  | .exprStmt => "ExprStmt"
  | .ifStmt => "IfStmt"
  | .whileStmt => "WhileStmt"
  | .doStmt => "DoStmt"
  | .forStmt => "ForStmt"
  | .forInit => "ForInit"
  | .forUpdate => "ForUpdate"
  | .forEachStmt => "ForEachStmt"
  | .returnStmt => "ReturnStmt"
  | .throwStmt => "ThrowStmt"
  | .breakStmt => "BreakStmt"
  | .continueStmt => "ContinueStmt"
  | .switchStmt => "SwitchStmt"
  | .switchCase => "SwitchCase"
  | .tryStmt => "TryStmt"
  | .resourceSpec => "ResourceSpec"
  | .catchClause => "CatchClause"
  | .finallyClause => "FinallyClause"
  | .syncStmt => "SyncStmt"
  | .labeledStmt => "LabeledStmt"
  | .assertStmt => "AssertStmt"
  | .emptyStmt => "EmptyStmt"
  | .assignExpr => "AssignExpr"
  | .conditionalExpr => "ConditionalExpr"
  | .binaryExpr => "BinaryExpr"
  | .instanceOfExpr => "InstanceOfExpr"
  | .unaryExpr => "UnaryExpr"
  | .postfixExpr => "PostfixExpr"
  | .castExpr => "CastExpr"
  | .parenExpr => "ParenExpr"
  | .fieldAccess => "FieldAccess"
  | .methodCall => "MethodCall"
  | .arrayAccess => "ArrayAccess"
  | .newObject => "NewObject"
  | .newArray => "NewArray"
  | .arrayInit => "ArrayInit"
  | .arguments => "Arguments"
  | .literal => "Literal"
  | .nameRef => "NameRef"
  | .thisExpr => "ThisExpr"
  | .superExpr => "SuperExpr"
  | .classLiteral => "ClassLiteral"
  | .lambdaExpr => "LambdaExpr"
  | .lambdaParams => "LambdaParams"
  | .methodRef => "MethodRef"

/-- The kind of a name. -/
def ofName? (name : String) : Option NodeKind :=
  all.find? (·.name == name)

/-- Declarations of classes, interfaces, enums and annotation types. -/
def isTypeDeclaration : NodeKind → Bool
  | .classDecl | .interfaceDecl | .enumDecl | .annotationDecl => true
  | _ => false

/-- Declarations, to which comments are attached. -/
def isDeclaration : NodeKind → Bool
  | .packageDecl | .importDecl | .enumConstant | .fieldDecl | .methodDecl | .constructorDecl
  | .initializer | .localVarDecl => true
  | kind => kind.isTypeDeclaration

end NodeKind

end JavaGraph
