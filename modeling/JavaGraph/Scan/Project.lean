import JavaGraph.Scan.Report
import JavaGraph.Scope.Basic
import JavaGraph.Text.Lines
/-!
# Projects

A project is what lasts from one scope to the next: the store, and the paths that were seen. Files
of source code are scanned in a scope of it; plain text is recorded without one.
-/

namespace JavaGraph

/-- The store, and the paths that were seen. -/
structure Project where
  store : Store := {}
  files : FileSet := {}

/-- A project with a scope in which files are scanned. -/
structure OpenProject extends Project where
  scope : Scope

/-- An action on a project. -/
abbrev ProjectAction := Action GraphError Project

/-- An action on a project with an open scope. -/
abbrev OpenAction := Action GraphError OpenProject

namespace Project

/-- The identifier of a path, which is known from then on. -/
def fileId {ε : Type} (path : String) : Action ε Project FileId := fun project =>
  let (file, files) := project.files.idOf path
  (.ok file, { project with files })

/-- An action on the graph. -/
def onGraph {α : Type} (action : GraphAction α) : ProjectAction α :=
  (Store.onGraph action).within (·.store) fun store project => { project with store }

/-- Record a text by its lines. -/
def scanText (path text : String) : ProjectAction TextFileId := do
  discard <| fileId path
  onGraph do
    let file ← Graph.addTextFile path
    .forEach (Text.lines text) fun line => discard (Graph.addLine file line)
    return file

/-- An action in a scope that is entered before it and left after it, also if it fails. -/
def inScope {α : Type} (artifact : Option ArtifactId) (action : OpenAction α) :
    ProjectAction α := fun project =>
  match Scope.enter project.store.graph artifact with
  | .error e => (.error e, project)
  | .ok scope =>
    let (result, opened) := action { project with scope }
    let (left, store) := opened.scope.leave opened.store
    let result := do
      let value ← result
      left
      return value
    (result, { opened.toProject with store })

end Project

namespace OpenProject

/-- An action on the project. -/
def onProject {ε α : Type} (action : Action ε Project α) : Action ε OpenProject α :=
  action.within (·.toProject) fun project opened => { opened with toProject := project }

/-- An action on the graph. -/
def onGraph {α : Type} (action : GraphAction α) : OpenAction α := onProject (Project.onGraph action)

/-- Turn a name into a type by an operation of the scope. -/
def inScope (operation : Scope → StoreAction (TypeId × Scope)) : OpenAction TypeId := fun opened =>
  match operation opened.scope opened.store with
  | (.ok (id, scope), store) => (.ok id, { opened with store, scope })
  | (.error e, store) => (.error e, { opened with store })

end OpenProject

end JavaGraph
