import JavaGraph.Graph.Id
import JavaGraph.Tree.Basic
/-!
# Diagnostics

What a scan has to say about a file. Faults of the file are findings, not failures: a file that is
full of them is scanned to its end. `Finding` lists the causes; severity, code and wording follow
from the cause.
-/

namespace JavaGraph

/-- How bad a finding is. -/
inductive Severity where
  | error | warning
deriving DecidableEq, Repr

/-- The name of a severity. -/
def Severity.name : Severity → String
  | .error => "Error"
  | .warning => "Warning"

/-- What a scan found. -/
inductive Finding where
  /-- The grammar could not make sense of a part of the file. -/
  | syntaxError (message : String)
  /-- A type is declared again; `existing` declares it already. -/
  | duplicateDeclaration (name : String) (existing : UnitId)
  /-- The name of a type is not a qualified name. -/
  | malformedName (text : String)
  /-- The store did not answer; the name is recorded as if no dependency declared it. -/
  | lookupFailed (name : String)
  /-- Bytes that are not UTF-8 were replaced. -/
  | invalidEncoding
  /-- Something that a user of the library reports, under an own code if it has one. -/
  | remark (severity : Severity) (code : Option String) (message : String)
      (related : Option UnitId)
deriving DecidableEq, Repr

namespace Finding

/-- How bad it is: what is lost is an error, what is made up for is a warning. -/
def severity : Finding → Severity
  | .syntaxError _ | .duplicateDeclaration _ _ | .malformedName _ => .error
  | .lookupFailed _ | .invalidEncoding => .warning
  | .remark severity _ _ _ => severity

/-- The code of the cause. -/
def code : Finding → Option String
  | .syntaxError _ => some "E0001"
  | .duplicateDeclaration _ _ => some "E0002"
  | .malformedName _ => some "E0003"
  | .lookupFailed _ => some "W0001"
  | .invalidEncoding => some "W0002"
  | .remark _ code _ _ => code

/-- The wording. -/
def message : Finding → String
  | .syntaxError message => message
  | .duplicateDeclaration name _ => s!"duplicate declaration: `{name}` is already declared"
  | .malformedName text => s!"malformed type name `{text}`"
  | .lookupFailed name => s!"dependency lookup for `{name}` failed; recorded as unresolved"
  | .invalidEncoding => "file is not valid UTF-8; invalid bytes were replaced"
  | .remark _ _ message _ => message

/-- The other unit that is concerned. -/
def related : Finding → Option UnitId
  | .duplicateDeclaration _ existing => some existing
  | .remark _ _ _ related => related
  | _ => none

end Finding

/-- A finding and its place. -/
structure Diagnostic where
  file : FileId
  /-- Counted from 1. -/
  line : Nat
  /-- Counted from 0, in bytes. -/
  column : Nat
  finding : Finding
deriving DecidableEq, Repr

namespace Diagnostic

/-- Whether the finding is an error. -/
def isError (diagnostic : Diagnostic) : Bool := diagnostic.finding.severity = .error

/-- A finding at a token. -/
def atToken (file : FileId) (token : Token) (finding : Finding) : Diagnostic :=
  ⟨file, token.line, token.column, finding⟩

/-- A finding at a node of the tree. -/
def atNode (file : FileId) (node : Tree) (finding : Finding) : Diagnostic :=
  ⟨file, node.line, node.column, finding⟩

/-- A fault that the parser found. -/
def ofParseError (file : FileId) (error : ParseError) : Diagnostic :=
  ⟨file, error.line, error.column, .syntaxError error.message⟩

/-- The finding that bytes of a file were replaced; it stands at the beginning of the file. -/
def lossyDecoding (file : FileId) : Diagnostic := ⟨file, 1, 0, .invalidEncoding⟩

/-- The number of errors among diagnostics. -/
def errorCount (diagnostics : List Diagnostic) : Nat := diagnostics.countP isError

/-- Whether there are errors among diagnostics. -/
def anyError (diagnostics : List Diagnostic) : Bool := diagnostics.any isError

/-- There are errors exactly if their number is not zero. -/
theorem anyError_iff (diagnostics : List Diagnostic) :
    anyError diagnostics ↔ 0 < errorCount diagnostics := by
  simp [anyError, errorCount, List.countP_pos_iff]

end Diagnostic

end JavaGraph
