import JavaGraph.Parser.Source
import JavaGraph.Scan.Body
import JavaGraph.Scan.Declaring
import JavaGraph.Scan.Project
/-!
# Scanning a source file

A file is scanned in three passes inside the open scope. First every type it declares is declared,
then supertypes and members are recorded, and at last what bodies refer to. Dependencies between
types and uses of fields enter the graph when all three are done.

A path that has a unit in the artifact of the scope is left as it is.

A configuration says what is read as source, how it is parsed, and what is recorded of it.
-/

namespace JavaGraph

/-- How sources are found, parsed and recorded. -/
structure ScanConfig where
  /-- The kinds of tokens to collect. -/
  hiddenTokens : List TokenKind := TokenKind.comments
  /-- The extensions of source files, without the dot. -/
  sourceExtensions : List String := ["java"]
  /-- Whether all other files are recorded as plain text. -/
  textFallback : Bool := false
  /-- Whether collected comments are attached to declarations. -/
  attachComments : Bool := true
  /-- Whether reads and writes of fields are recorded. -/
  recordAccesses : Bool := true
deriving DecidableEq, Repr

namespace ScanConfig

/-- Whether files with an extension are sources. -/
def isSourceExtension (config : ScanConfig) (extension : String) : Bool :=
  config.sourceExtensions.contains extension

/-- How a source with the given name is parsed. -/
def parseOptions (config : ScanConfig) (sourceName : String) : ParseOptions :=
  { hidden := config.hiddenTokens, attachComments := config.attachComments, sourceName }

end ScanConfig

/-- What is recorded of the members of one type. -/
structure TypeRecord where
  type : DeclaredType
  members : MemberRecord

namespace TypeRecord

/-- The fields that the code of a type sees. -/
def visibleFields (records : List TypeRecord) (record : TypeRecord) : VisibleFields where
  own := record.members
  outer := record.type.outer.filterMap fun id =>
    (records.find? (·.type.id = id)).map (·.members)

/-- The uses of fields by all functions. -/
def accesses (records : List TypeRecord) : List Access :=
  records.flatMap fun record =>
    record.members.bodies.flatMap (·.accesses (record.visibleFields records))

end TypeRecord

namespace ScanState

/-- Record that a type depends on another; it is listed once. -/
def addDependency (dependency : TypeId × TypeId) : GraphAction Unit :=
  Graph.updateType dependency.1 fun type =>
    if type.dependsOn.contains dependency.2 then type
    else { type with dependsOn := type.dependsOn ++ [dependency.2] }

/-- Enter the dependencies that were kept back, and uses of fields. -/
def flush (accesses : List Access) : ScanAction Unit := do
  let dependencies ← .read (·.dependencies)
  onGraph (.forEach dependencies addDependency)
  onGraph (.forEach accesses Graph.addAccess)

end ScanState

/-- The three passes over a file. The result is what the file declares. -/
def scanTypes (recordAccesses : Bool) (source : SourceUnit) (header : Header) (path : String)
    (root : Tree) : ScanAction Declarations := do
  let declared ← Declarations.declare source header root
  match declared.mainType? path with
  | none => pure ()
  | some type => ScanState.onGraph (Graph.setMainType source.unit type.id)
  let records ← Action.mapEach declared.types fun owner => do
    return ({ type := owner
              members := ← ReferenceSite.recordMembers ⟨source, declared, owner⟩ } : TypeRecord)
  .forEach records fun record =>
    .forEach record.members.bodies
      (ReferenceSite.recordBody ⟨source, declared, record.type⟩ (record.visibleFields records))
  ScanState.flush (if recordAccesses then TypeRecord.accesses records else [])
  return declared

namespace OpenProject

/-- Scan in the open scope, beginning with some diagnostics; the result has the ones found as
well. -/
def scan {α : Type} (diagnostics : List Diagnostic) (action : ScanAction α) :
    OpenAction (α × List Diagnostic) :=
  Action.within
    (fun opened : OpenProject =>
      ({ store := opened.store, scope := opened.scope, diagnostics } : ScanState))
    (fun state opened => { opened with store := state.store, scope := state.scope })
    (do
      let result ← action
      return (result, ← .read (·.diagnostics)))

/-- The report on a unit that is there already. -/
def rescan (unit : UnitId) (file : FileId) (path : String) : OpenAction UnitReport := do
  let node ← .check fun opened : OpenProject => opened.store.graph.units.get unit
  return {
    unit, file, path
    rescanned := true
    mayNotCompile := node.mayNotCompile
    declaredTypes := node.declaredTypes
    diagnostics := [] }

/-- Scan a parsed file as a new unit. -/
def scanNew (recordAccesses : Bool) (file : FileId) (path : String) (parsed : ParsedSource) :
    OpenAction UnitReport := do
  let artifact ← .read (·.scope.artifact?)
  let unit ← onGraph (Graph.addUnit path artifact)
  let (header, malformed) := Header.ofTree file parsed.root
  onGraph <| Graph.updateUnit unit fun node =>
    { node with package := header.package, mayNotCompile := parsed.hasErrors }
  let (declared, diagnostics) ←
    scan (parsed.errors.map (.ofParseError file) ++ malformed)
      (scanTypes recordAccesses ⟨unit, file⟩ header path parsed.root)
  return {
    unit, file, path, diagnostics
    rescanned := false
    mayNotCompile := parsed.hasErrors
    declaredTypes := declared.types.map (·.id) }

/-- Scan a parsed file, unless its path has a unit in the artifact of the scope. -/
def scanParsed (recordAccesses : Bool) (path : String) (parsed : ParsedSource) :
    OpenAction UnitReport := do
  let file ← onProject (Project.fileId path)
  let existing ← .read fun opened =>
    opened.store.graph.unitAt? path opened.scope.artifact?
  match existing with
  | some unit => rescan unit file path
  | none => scanNew recordAccesses file path parsed

/-- Parse and scan a text. -/
def scanSource (config : ScanConfig) (path text : String) : OpenAction UnitReport :=
  scanParsed config.recordAccesses path (parseSource text (config.parseOptions path))

end OpenProject

end JavaGraph
