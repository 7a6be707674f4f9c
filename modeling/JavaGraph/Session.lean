import JavaGraph.Scan.Load
/-!
# Sessions

A session is a project with open scopes, one within the other. What needs a scope is done in the
innermost one. A scope can only be left when those within it are.
-/

namespace JavaGraph

/-- A project with open scopes. -/
structure Session where
  project : Project := {}
  /-- The open scopes, innermost first. -/
  scopes : List Scope := []

namespace Session

/-- The number of open scopes. -/
def depth (session : Session) : Nat := session.scopes.length

/-- The innermost open scope. -/
def active? (session : Session) : Option Scope := session.scopes.head?

/-- An action on the project. -/
def onProject {ε α : Type} (action : Action ε Project α) : Action ε Session α :=
  action.within (·.project) fun project session => { session with project }

/-- An action on the graph. -/
def onGraph {α : Type} (action : GraphAction α) : Action GraphError Session α :=
  onProject (Project.onGraph action)

/-- Open the scope of an artifact, or the global one, within those that are open. -/
def enter (artifact : Option ArtifactId) : Action GraphError Session Scope := fun session =>
  match Scope.enter session.project.store.graph artifact with
  | .ok scope => (.ok scope, { session with scopes := scope :: session.scopes })
  | .error e => (.error e, session)

/-- Leave the innermost scope, if there is one. -/
def leave? (session : Session) : Option (Except GraphError Unit × Session) :=
  match session.scopes with
  | [] => none
  | scope :: scopes =>
    let (result, store) := scope.leave session.project.store
    some (result, { project := { session.project with store }, scopes })

/-- An action in the innermost scope, if there is one. -/
def inScope? {ε α : Type} (action : Action ε OpenProject α) (session : Session) :
    Option (Except ε α × Session) :=
  match session.scopes with
  | [] => none
  | scope :: scopes =>
    let (result, opened) := action { session.project with scope }
    some (result, { project := opened.toProject, scopes := opened.scope :: scopes })

/-- The open scopes as text, outermost first. -/
def renderScopes (session : Session) : String := Scope.renderAll session.scopes.reverse

end Session

end JavaGraph
