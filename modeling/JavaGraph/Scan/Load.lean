import JavaGraph.File.Tree
import JavaGraph.Scan.Source
/-!
# Loading artifacts from files

An artifact is loaded by scanning every file below its roots, in the order of the roots and of the
tree, in one scope. If a root is no directory, or a dependency does not exist, nothing changes. A
file that cannot be scanned is skipped, and the rest is loaded all the same.
-/

namespace JavaGraph

/-- Why files cannot be loaded. -/
inductive LoadError where
  | graph (error : GraphError)
  /-- A root is no directory. -/
  | notADirectory (path : String)
  | unreadable (path : String) (fault : PathFault)
deriving DecidableEq

/-- The wording of an error. -/
def LoadError.message : LoadError → String
  | .graph error => error.message
  | .notADirectory path => s!"not a directory: {path}"
  | .unreadable path fault => s!"failed to read {path}: {fault.message}"

/-- Why a file is skipped. -/
inductive SkipReason where
  /-- The file is no source, and plain text is not recorded. -/
  | unrecognized
  /-- The file is neither a source nor text. -/
  | binary
  | unreadable (error : LoadError)
deriving DecidableEq

/-- The wording of a reason. -/
def SkipReason.message : SkipReason → String
  | .unrecognized => "unrecognized file"
  | .binary => "binary file"
  | .unreadable error => error.message

/-- What the scan of a file gives. -/
inductive FileOutcome where
  | source (report : UnitReport)
  | text (file : TextFileId)
  | skipped (path : String) (reason : SkipReason)
deriving DecidableEq

namespace ScanConfig

/-- Whether a path is that of a source. -/
def isSource (config : ScanConfig) (path : String) : Bool :=
  (Path.extension? path).any config.isSourceExtension

/-- Whether the file with a path is scanned at all. -/
def accepts (config : ScanConfig) (path : String) : Bool :=
  config.textFallback || config.isSource path

end ScanConfig

/-- The paths of the files to scan below a directory. -/
def collectFiles (config : ScanConfig) (tree : FileTree) (root : String) :
    Except LoadError (List String) :=
  match tree.find root with
  | .ok (.directory entries) => .ok ((FileTree.filesIn root entries).filter config.accepts)
  | _ => .error (.notADirectory root)

/-- The text of the file with a path. -/
def readText (tree : FileTree) (path : String) : Except LoadError Text.Decoded :=
  match tree.read path with
  | .ok bytes => .ok (Text.decode bytes)
  | .error fault => .error (.unreadable path fault)

namespace OpenProject

/-- Scan a file that was read. Malformed bytes are replaced in a source, and make any other file a
binary one. -/
def scanDecoded (config : ScanConfig) (path : String) (decoded : Text.Decoded) :
    OpenAction FileOutcome := do
  if config.isSource path then
    let report ← scanSource config path decoded.text
    return .source (if decoded.lossy then report.noteLossyDecoding else report)
  else if decoded.lossy then return .skipped path .binary
  else return .text (← onProject (Project.scanText path decoded.text))

/-- Scan one file. -/
def scanFile (config : ScanConfig) (tree : FileTree) (path : String) :
    Action LoadError OpenProject FileOutcome :=
  if config.accepts path then
    match readText tree path with
    | .error e => .fail e
    | .ok decoded => (scanDecoded config path decoded).mapError .graph
  else pure (.skipped path .unrecognized)

/-- Scan one file of several: if it cannot be read it is skipped. -/
def scanCollected (config : ScanConfig) (tree : FileTree) (path : String) :
    OpenAction FileOutcome :=
  match readText tree path with
  | .error e => pure (.skipped path (.unreadable e))
  | .ok decoded => scanDecoded config path decoded

end OpenProject

/-- An artifact to load. -/
structure ArtifactSpec where
  name : String
  /-- The directories with its files. -/
  roots : List String := []
  dependencies : List ArtifactId := []
deriving DecidableEq, Repr

/-- What the loading of an artifact gives. -/
structure ArtifactReport where
  artifact : ArtifactId
  /-- What became of its files, in the order of the files. -/
  outcomes : List FileOutcome
deriving DecidableEq

namespace ArtifactReport

/-- The reports on its sources. -/
def units (report : ArtifactReport) : List UnitReport :=
  report.outcomes.filterMap fun
    | .source report => some report
    | _ => none

/-- Its files that were recorded as text. -/
def textFiles (report : ArtifactReport) : List TextFileId :=
  report.outcomes.filterMap fun
    | .text file => some file
    | _ => none

/-- The paths of its files that were skipped, and why. -/
def skipped (report : ArtifactReport) : List (String × SkipReason) :=
  report.outcomes.filterMap fun
    | .skipped path reason => some (path, reason)
    | _ => none

/-- The number of errors in its sources. -/
def errorCount (report : ArtifactReport) : Nat :=
  Diagnostic.errorCount (report.units.flatMap (·.diagnostics))

end ArtifactReport

namespace Project

/-- Make an artifact and scan its files. -/
def loadFiles (config : ScanConfig) (tree : FileTree) (spec : ArtifactSpec)
    (files : List String) : ProjectAction ArtifactReport := do
  let artifact ← onGraph (Graph.addArtifact spec.name spec.dependencies)
  inScope (some artifact) do
    return { artifact, outcomes := ← .mapEach files (OpenProject.scanCollected config tree) }

/-- Load an artifact. -/
def load (config : ScanConfig) (tree : FileTree) (spec : ArtifactSpec) :
    Action LoadError Project ArtifactReport :=
  match spec.roots.mapM (collectFiles config tree) with
  | .error e => .fail e
  | .ok files => (loadFiles config tree spec files.flatten).mapError .graph

/-- Load an artifact with identifiers for paths of its own. -/
def loadAlone (config : ScanConfig) (tree : FileTree) (spec : ArtifactSpec) :
    Action LoadError Project ArtifactReport := do
  .change fun project => { project with files := {} }
  load config tree spec

end Project

end JavaGraph
