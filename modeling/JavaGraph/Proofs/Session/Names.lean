import JavaGraph.Proofs.Scope.Operations
import JavaGraph.Session
/-!
# One type for a name

Scopes may be nested, also those of one artifact. Every scope has a table of its own, made when it
is entered, and a scope within it may give a type to a name that the outer table does not have.
Resolving and requiring notice that, since they look the name up in the graph. Declaring does not:
it makes a second type. This is the only way for a name to become ambiguous.
-/

namespace JavaGraph.Session

open JavaGraph.Action

/-- What the innermost scope can be asked for. -/
inductive Request where
  | resolve | declare | require

/-- The operation of a scope that answers a request. -/
def Request.operation (request : Request) (name : QualifiedName) (unit : UnitId) (scope : Scope) :
    StoreAction (TypeId × Scope) :=
  match request with
  | .resolve => scope.resolve name unit
  | .declare => scope.declare name unit
  | .require => scope.require name unit

/-- What can be done with a session whose scopes are nested. -/
inductive NestedStep where
  | addArtifact (name : String) (dependencies : List ArtifactId)
  | addUnit (path : String) (artifact : Option ArtifactId)
  /-- From now on the store answers queries, or it does not. -/
  | answer (answers : Bool)
  /-- Enter a scope within those that are open, also that of an artifact that is open already. -/
  | enter (artifact : Option ArtifactId)
  /-- Ask the innermost scope, if there is one. -/
  | ask (request : Request) (name : QualifiedName) (unit : UnitId)
  /-- Leave the innermost scope, if there is one. -/
  | leave

/-- The session after a step, whether it succeeds or fails. -/
def NestedStep.run (session : Session) : NestedStep → Session
  | .addArtifact name dependencies =>
    (Session.onGraph (Graph.addArtifact name dependencies) session).2
  | .addUnit path artifact => (Session.onGraph (Graph.addUnit path artifact) session).2
  | .answer answers => { session with project.store.answers := answers }
  | .enter artifact => (Session.enter artifact session).2
  | .ask request name unit =>
    match session.inScope? (OpenProject.inScope (request.operation name unit)) with
    | some (_, after) => after
    | none => session
  | .leave =>
    match session.leave? with
    | some (_, after) => after
    | none => session

/-- The session after some steps with nested scopes, beginning with an empty store. -/
def runNested (steps : List NestedStep) : Session := steps.foldl NestedStep.run {}

/-- A step declares a name that the innermost scope has missed. -/
def NestedStep.IsStale (session : Session) : NestedStep → Prop
  | .ask .declare name _ =>
    ∃ scope ∈ session.active?, scope.Missed session.project.store.graph name
  | _ => False

/-- The store after the innermost scope is asked. -/
theorem graph_ask {session : Session} {scope : Scope} {scopes : List Scope}
    (hs : session.scopes = scope :: scopes) (request : Request) (name : QualifiedName)
    (unit : UnitId) :
    ((NestedStep.ask request name unit).run session).project.store =
      (request.operation name unit scope session.project.store).2 := by
  unfold NestedStep.run inScope? OpenProject.inScope
  simp only [hs]
  cases request.operation name unit scope session.project.store with
  | mk result store => cases result <;> rfl

private theorem namesKept_ask {session : Session} {request : Request} {name : QualifiedName}
    {unit : UnitId} (h : ¬ (NestedStep.ask request name unit).IsStale session) :
    Store.NamesKept session.project.store
      ((NestedStep.ask request name unit).run session).project.store := by
  cases hs : session.scopes with
  | nil =>
    have hr : (NestedStep.ask request name unit).run session = session := by
      unfold NestedStep.run inScope?
      simp only [hs]
    rw [hr]
    exact Action.Guarantee.refl _
  | cons scope scopes =>
    rw [graph_ask hs]
    cases request with
    | resolve =>
      exact (inferInstance : Keeps Store.NamesKept (scope.resolve name unit)).keeps _
    | require =>
      exact (inferInstance : Keeps Store.NamesKept (scope.require name unit)).keeps _
    | declare =>
      apply Scope.namesKept_declare
      intro hm
      exact h ⟨scope, by simp [active?, hs], hm⟩

/-- A step that is not stale keeps the names. -/
theorem namesKept_step {session : Session} {step : NestedStep} (h : ¬ step.IsStale session) :
    Store.NamesKept session.project.store (step.run session).project.store := by
  cases step with
  | addArtifact name dependencies =>
    exact (inferInstance : Keeps Graph.NamesKept (Graph.addArtifact name dependencies)).keeps _
  | addUnit path artifact =>
    exact (inferInstance : Keeps Graph.NamesKept (Graph.addUnit path artifact)).keeps _
  | answer answers => exact Action.Guarantee.refl (R := Graph.NamesKept) _
  | enter artifact =>
    have hr : ((NestedStep.enter artifact).run session).project = session.project := by
      unfold NestedStep.run Session.enter
      simp only
      split <;> rfl
    rw [hr]
    exact Action.Guarantee.refl _
  | ask request name unit => exact namesKept_ask h
  | leave =>
    unfold NestedStep.run leave?
    cases hs : session.scopes with
    | nil => exact Action.Guarantee.refl (R := Store.NamesKept) _
    | cons scope scopes => exact Keeps.keeps (R := Store.NamesKept) session.project.store

/-- A stale step makes a name ambiguous. -/
theorem ambiguous_step {session : Session} {step : NestedStep} (h : step.IsStale session) :
    ¬ (step.run session).project.store.graph.Unambiguous := by
  match step, h with
  | .ask .declare name unit, ⟨scope, ha, hm⟩ =>
    unfold active? at ha
    obtain ⟨scopes, hs⟩ : ∃ scopes, session.scopes = scope :: scopes := by
      cases hs : session.scopes with
      | nil => simp [hs] at ha
      | cons first scopes =>
        rw [hs] at ha
        cases ha
        exact ⟨scopes, rfl⟩
    rw [graph_ask hs]
    exact Scope.ambiguous_declare hm

private theorem unambiguous_foldl (steps : List NestedStep) :
    ∀ session : Session, (steps.foldl NestedStep.run session).project.store.graph.Unambiguous ↔
      session.project.store.graph.Unambiguous ∧
        ∀ before step after, steps = before ++ step :: after →
          ¬ step.IsStale (before.foldl NestedStep.run session) := by
  induction steps with
  | nil => simp
  | cons step rest ih =>
    intro session
    rw [List.foldl_cons, ih]
    constructor
    · rintro ⟨hu, hrest⟩
      have hs : ¬ step.IsStale session := fun h => ambiguous_step h hu
      refine ⟨?_, ?_⟩
      · by_cases hb : session.project.store.graph.Unambiguous
        · exact hb
        · exact absurd hu ((namesKept_step hs).ambiguous hb)
      · intro before other after he
        cases before with
        | nil =>
          cases he
          exact hs
        | cons first before =>
          obtain ⟨rfl, hrest'⟩ := List.cons.inj he
          exact hrest before other after hrest'
    · rintro ⟨hu, hall⟩
      have hs : ¬ step.IsStale session := hall [] step rest rfl
      refine ⟨(namesKept_step hs).unambiguous hu, ?_⟩
      intro before other after he
      exact hall (step :: before) other after (by rw [he]; rfl)

/-- After a run with nested scopes no name stands for two types of a universe, exactly if no step
of the run declared a name that the innermost scope had missed. -/
theorem unambiguous_runNested_iff (steps : List NestedStep) :
    (runNested steps).project.store.graph.Unambiguous ↔
      ∀ before step after, steps = before ++ step :: after →
        ¬ step.IsStale (runNested before) := by
  unfold runNested
  rw [unambiguous_foldl]
  refine and_iff_right ?_
  intro a b x y hx
  simp [Arena.get?] at hx

/-- A name for the run below. -/
def missedName : QualifiedName := ⟨"p.X", by decide +kernel⟩

/-- The scope of an artifact is entered twice, the inner one gives a type to a name, and the outer
one declares the name. -/
def missedDeclaration : List NestedStep :=
  [.addArtifact "app" [], .addUnit "A.java" (some ⟨0⟩), .enter (some ⟨0⟩), .enter (some ⟨0⟩),
    .ask .resolve missedName ⟨0⟩, .leave, .ask .declare missedName ⟨0⟩]

/-- The declaration makes a second type of the name in the artifact. -/
theorem ambiguous_missedDeclaration :
    ¬ (runNested missedDeclaration).project.store.graph.Unambiguous := by
  have first : (runNested missedDeclaration).project.store.graph.label ⟨0⟩ =
      some (missedName, some ⟨0⟩) := by decide +kernel
  have second : (runNested missedDeclaration).project.store.graph.label ⟨1⟩ =
      some (missedName, some ⟨0⟩) := by decide +kernel
  intro h
  cases Graph.unambiguous_iff.1 h first second

end JavaGraph.Session
