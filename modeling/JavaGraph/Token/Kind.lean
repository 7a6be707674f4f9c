/-!
# Kinds of tokens

The lexical kinds of Java, their names, and the classes of kinds that the grammar asks for. Every
keyword and every symbol has one fixed spelling; `keywords` and `symbols` list them.
-/

namespace JavaGraph

/-- What a token is. -/
inductive TokenKind where
  -- Layout and comments.
  | whitespace | lineComment | blockComment
  -- Keywords, and the literals spelled as words.
  | kwAbstract | kwAssert | kwBoolean | kwBreak | kwByte | kwCase | kwCatch | kwChar | kwClass
  | kwContinue | kwDefault | kwDo | kwDouble | kwElse | kwEnum | kwExtends | kwFinal | kwFinally
  | kwFloat | kwFor | kwIf | kwImplements | kwImport | kwInstanceof | kwInt | kwInterface | kwLong
  | kwNative | kwNew | kwPackage | kwPrivate | kwProtected | kwPublic | kwReturn | kwShort
  | kwStatic | kwStrictfp | kwSuper | kwSwitch | kwSynchronized | kwThis | kwThrow | kwThrows
  | kwTransient | kwTry | kwVoid | kwVolatile | kwWhile | kwTrue | kwFalse | kwNull
  -- Identifiers and literals.
  | ident | intLiteral | floatLiteral | stringLiteral | charLiteral
  -- Symbols.
  | lParen | rParen | lBrace | rBrace | lBracket | rBracket | semicolon | comma | dot | ellipsis
  | atSign | colonColon | colon | question | arrow | assign | equal | bang | notEqual | tilde
  | less | lessEqual | greater | greaterEqual | ampAmp | pipePipe | plusPlus | minusMinus | plus
  | minus | star | slash | amp | pipe | caret | percent | shiftLeft | plusAssign | minusAssign
  | starAssign | slashAssign | ampAssign | pipeAssign | caretAssign | percentAssign
  | shiftLeftAssign
  -- Characters that begin no token, and the end of the text.
  | unknown | eof
deriving DecidableEq, Repr, Inhabited

namespace TokenKind

/-- Every kind. -/
def all : List TokenKind :=
  [.whitespace, .lineComment, .blockComment, .kwAbstract, .kwAssert, .kwBoolean, .kwBreak,
   .kwByte, .kwCase, .kwCatch, .kwChar, .kwClass, .kwContinue, .kwDefault, .kwDo, .kwDouble,
   .kwElse, .kwEnum, .kwExtends, .kwFinal, .kwFinally, .kwFloat, .kwFor, .kwIf, .kwImplements,
   .kwImport, .kwInstanceof, .kwInt, .kwInterface, .kwLong, .kwNative, .kwNew, .kwPackage,
   .kwPrivate, .kwProtected, .kwPublic, .kwReturn, .kwShort, .kwStatic, .kwStrictfp, .kwSuper,
   .kwSwitch, .kwSynchronized, .kwThis, .kwThrow, .kwThrows, .kwTransient, .kwTry, .kwVoid,
   .kwVolatile, .kwWhile, .kwTrue, .kwFalse, .kwNull, .ident, .intLiteral, .floatLiteral,
   .stringLiteral, .charLiteral, .lParen, .rParen, .lBrace, .rBrace, .lBracket, .rBracket,
   .semicolon, .comma, .dot, .ellipsis, .atSign, .colonColon, .colon, .question, .arrow, .assign,
   .equal, .bang, .notEqual, .tilde, .less, .lessEqual, .greater, .greaterEqual, .ampAmp,
   .pipePipe, .plusPlus, .minusMinus, .plus, .minus, .star, .slash, .amp, .pipe, .caret, .percent,
   .shiftLeft, .plusAssign, .minusAssign, .starAssign, .slashAssign, .ampAssign, .pipeAssign,
   .caretAssign, .percentAssign, .shiftLeftAssign, .unknown, .eof]

/-- The name of a kind. -/
def name : TokenKind → String
  | .whitespace => "Whitespace"
  | .lineComment => "LineComment"
  | .blockComment => "BlockComment"
  | .kwAbstract => "Abstract"
  | .kwAssert => "Assert"
  | .kwBoolean => "Boolean"
  | .kwBreak => "Break"
  | .kwByte => "Byte"
  | .kwCase => "Case"
  | .kwCatch => "Catch"
  | .kwChar => "Char"
  | .kwClass => "Class"
  | .kwContinue => "Continue"
  | .kwDefault => "Default"
  | .kwDo => "Do"
  | .kwDouble => "Double"
  | .kwElse => "Else"
  | .kwEnum => "Enum"
  | .kwExtends => "Extends"
  | .kwFinal => "Final"
  | .kwFinally => "Finally"
  | .kwFloat => "Float"
  | .kwFor => "For"
  | .kwIf => "If"
  | .kwImplements => "Implements"
  | .kwImport => "Import"
  | .kwInstanceof => "Instanceof"
  | .kwInt => "Int"
  | .kwInterface => "Interface"
  | .kwLong => "Long"
  | .kwNative => "Native"
  | .kwNew => "New"
  | .kwPackage => "Package"
  | .kwPrivate => "Private"
  | .kwProtected => "Protected"
  | .kwPublic => "Public"
  | .kwReturn => "Return"
  | .kwShort => "Short"
  | .kwStatic => "Static"
  | .kwStrictfp => "Strictfp"
  | .kwSuper => "Super"
  | .kwSwitch => "Switch"
  | .kwSynchronized => "Synchronized"
  | .kwThis => "This"
  | .kwThrow => "Throw"
  | .kwThrows => "Throws"
  | .kwTransient => "Transient"
  | .kwTry => "Try"
  | .kwVoid => "Void"
  | .kwVolatile => "Volatile"
  | .kwWhile => "While"
  | .kwTrue => "True"
  | .kwFalse => "False"
  | .kwNull => "Null"
  | .ident => "Ident"
  | .intLiteral => "IntLiteral"
  | .floatLiteral => "FloatLiteral"
  | .stringLiteral => "StringLiteral"
  | .charLiteral => "CharLiteral"
  | .lParen => "LParen"
  | .rParen => "RParen"
  | .lBrace => "LBrace"
  | .rBrace => "RBrace"
  | .lBracket => "LBracket"
  | .rBracket => "RBracket"
  | .semicolon => "Semicolon"
  | .comma => "Comma"
  | .dot => "Dot"
  | .ellipsis => "Ellipsis"
  | .atSign => "At"
  | .colonColon => "ColonColon"
  | .colon => "Colon"
  | .question => "Question"
  | .arrow => "Arrow"
  | .assign => "Eq"
  | .equal => "EqEq"
  | .bang => "Bang"
  | .notEqual => "BangEq"
  | .tilde => "Tilde"
  | .less => "Lt"
  | .lessEqual => "LtEq"
  | .greater => "Gt"
  | .greaterEqual => "GtEq"
  | .ampAmp => "AmpAmp"
  | .pipePipe => "PipePipe"
  | .plusPlus => "PlusPlus"
  | .minusMinus => "MinusMinus"
  | .plus => "Plus"
  | .minus => "Minus"
  | .star => "Star"
  | .slash => "Slash"
  | .amp => "Amp"
  | .pipe => "Pipe"
  | .caret => "Caret"
  | .percent => "Percent"
  | .shiftLeft => "Shl"
  | .plusAssign => "PlusEq"
  | .minusAssign => "MinusEq"
  | .starAssign => "StarEq"
  | .slashAssign => "SlashEq"
  | .ampAssign => "AmpEq"
  | .pipeAssign => "PipeEq"
  | .caretAssign => "CaretEq"
  | .percentAssign => "PercentEq"
  | .shiftLeftAssign => "ShlEq"
  | .unknown => "Unknown"
  | .eof => "Eof"

/-- The kind of a name. -/
def ofName? (name : String) : Option TokenKind :=
  all.find? (·.name == name)

/-- The keywords with their spellings. -/
def keywords : List (String × TokenKind) :=
  [("abstract", .kwAbstract), ("assert", .kwAssert), ("boolean", .kwBoolean), ("break", .kwBreak),
   ("byte", .kwByte), ("case", .kwCase), ("catch", .kwCatch), ("char", .kwChar),
   ("class", .kwClass), ("continue", .kwContinue), ("default", .kwDefault), ("do", .kwDo),
   ("double", .kwDouble), ("else", .kwElse), ("enum", .kwEnum), ("extends", .kwExtends),
   ("final", .kwFinal), ("finally", .kwFinally), ("float", .kwFloat), ("for", .kwFor),
   ("if", .kwIf), ("implements", .kwImplements), ("import", .kwImport),
   ("instanceof", .kwInstanceof), ("int", .kwInt), ("interface", .kwInterface), ("long", .kwLong),
   ("native", .kwNative), ("new", .kwNew), ("package", .kwPackage), ("private", .kwPrivate),
   ("protected", .kwProtected), ("public", .kwPublic), ("return", .kwReturn), ("short", .kwShort),
   ("static", .kwStatic), ("strictfp", .kwStrictfp), ("super", .kwSuper), ("switch", .kwSwitch),
   ("synchronized", .kwSynchronized), ("this", .kwThis), ("throw", .kwThrow),
   ("throws", .kwThrows), ("transient", .kwTransient), ("try", .kwTry), ("void", .kwVoid),
   ("volatile", .kwVolatile), ("while", .kwWhile), ("true", .kwTrue), ("false", .kwFalse),
   ("null", .kwNull)]

/-- The symbols with their spellings, longer spellings first. -/
def symbols : List (String × TokenKind) :=
  [("...", .ellipsis), ("<<=", .shiftLeftAssign), ("::", .colonColon), ("->", .arrow),
   ("==", .equal), ("!=", .notEqual), ("<=", .lessEqual), (">=", .greaterEqual), ("&&", .ampAmp),
   ("||", .pipePipe), ("++", .plusPlus), ("--", .minusMinus), ("<<", .shiftLeft),
   ("+=", .plusAssign), ("-=", .minusAssign), ("*=", .starAssign), ("/=", .slashAssign),
   ("&=", .ampAssign), ("|=", .pipeAssign), ("^=", .caretAssign), ("%=", .percentAssign),
   ("(", .lParen), (")", .rParen), ("\x7b", .lBrace), ("\x7d", .rBrace), ("[", .lBracket),
   ("]", .rBracket), (";", .semicolon), (",", .comma), (".", .dot), ("@", .atSign), (":", .colon),
   ("?", .question), ("=", .assign), ("!", .bang), ("~", .tilde), ("<", .less), (">", .greater),
   ("+", .plus), ("-", .minus), ("*", .star), ("/", .slash), ("&", .amp), ("|", .pipe),
   ("^", .caret), ("%", .percent)]

/-- Layout and comments, which the grammar does not see. -/
def isTrivia : TokenKind → Bool
  | .whitespace | .lineComment | .blockComment => true
  | _ => false

/-- The two forms of comments. -/
def isComment : TokenKind → Bool
  | .lineComment | .blockComment => true
  | _ => false

/-- The names of primitive types. -/
def isPrimitiveType : TokenKind → Bool
  | .kwBoolean | .kwByte | .kwChar | .kwShort | .kwInt | .kwLong | .kwFloat | .kwDouble => true
  | _ => false

/-- Literals, those spelled as words included. -/
def isLiteral : TokenKind → Bool
  | .intLiteral | .floatLiteral | .stringLiteral | .charLiteral => true
  | .kwTrue | .kwFalse | .kwNull => true
  | _ => false

/-- Modifiers of declarations; annotations are not among them. -/
def isModifier : TokenKind → Bool
  | .kwPublic | .kwProtected | .kwPrivate | .kwStatic | .kwFinal | .kwAbstract | .kwTransient
  | .kwVolatile | .kwSynchronized | .kwNative | .kwStrictfp | .kwDefault => true
  | _ => false

/-- Assignment operators of one token. -/
def isAssignment : TokenKind → Bool
  | .assign | .plusAssign | .minusAssign | .starAssign | .slashAssign | .ampAssign | .pipeAssign
  | .caretAssign | .percentAssign | .shiftLeftAssign => true
  | _ => false

/-- The comment kinds, which are collected unless told otherwise. -/
def comments : List TokenKind := [.lineComment, .blockComment]

end TokenKind

end JavaGraph
