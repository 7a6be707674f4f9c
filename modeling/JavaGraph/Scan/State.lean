import JavaGraph.Scan.Diagnostic
import JavaGraph.Scope.Basic
/-!
# The state of a scan

What a scan of one file reads and changes: the store, the scope that gives names their types, what
there is to say about the file, and the dependencies between types, which are kept back until the
file is scanned to its end.
-/

namespace JavaGraph

/-- The file that is scanned. -/
structure SourceUnit where
  unit : UnitId
  file : FileId
deriving DecidableEq, Repr

/-- What a scan of one file changes. -/
structure ScanState where
  store : Store
  scope : Scope
  diagnostics : List Diagnostic := []
  /-- The references between types, from the first to the second, oldest first. -/
  dependencies : List (TypeId × TypeId) := []

/-- A step of the scan of a file. Faults of the file are diagnostics; the step fails only if the
graph does not allow what it does, or if the store does not answer. -/
abbrev ScanAction := Action GraphError ScanState

namespace ScanState

/-- Say something about the file. -/
def report (diagnostic : Diagnostic) : ScanAction Unit :=
  .change fun state => { state with diagnostics := state.diagnostics ++ [diagnostic] }

/-- Keep a reference back; a type's references to itself do not count. -/
def noteDependency (source target : TypeId) : ScanAction Unit :=
  if source = target then pure ()
  else .change fun state => { state with dependencies := state.dependencies ++ [(source, target)] }

/-- Read something off the graph. -/
def readGraph {α : Type} (f : Graph → Except GraphError α) : ScanAction α :=
  .check fun state => f state.store.graph

/-- An action on the graph. -/
def onGraph {α : Type} (action : GraphAction α) : ScanAction α :=
  (Store.onGraph action).within (·.store) fun store state => { state with store }

/-- Turn a name into a type by an operation of the scope. -/
def inScope (operation : Scope → StoreAction (TypeId × Scope)) : ScanAction TypeId := fun state =>
  match operation state.scope state.store with
  | (.ok (id, scope), store) => (.ok id, { state with store, scope })
  | (.error e, store) => (.error e, { state with store })

end ScanState

end JavaGraph
