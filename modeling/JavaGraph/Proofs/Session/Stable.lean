import JavaGraph.Proofs.Scan.Resolving
import JavaGraph.Proofs.Scope.Stable
import JavaGraph.Proofs.Session.Failing
/-!
# Answers that stay while a scope is open

As long as a scope is open, a name that it has resolved once stands for the same type. Files may be
scanned in it, scopes may be entered within it, also those of dependencies that declare the name, and
other scopes may do what they like in the same store. Only a declaration or a requirement of that very
name in the scope itself can give it another type.
-/

namespace JavaGraph

open JavaGraph.Action

/-! ### Types that last -/

namespace Graph

private theorem matures_change (f : Graph → Graph) (hf : ∀ graph, (f graph).types = graph.types) :
    Keeps Matures (change f : GraphAction Unit) :=
  ⟨fun graph => .of_types (hf graph)⟩

private theorem matures_addUnit (path : String) (artifact : Option ArtifactId) :
    Keeps Matures (addUnit path artifact) := by
  have hartifact : ∀ id (f : Artifact → Artifact), Keeps Matures (updateArtifact id f) := by
    refine fun id f => ⟨fun graph => ?_⟩
    cases h : graph.artifacts.update id f <;>
      simp only [updateArtifact, tryChange, h, bind, Except.bind, pure, Except.pure] <;>
      exact .of_types rfl
  have := fun dependencies => matures_change (fun graph =>
    { graph with units := graph.units.push { path, artifact, dependencies } }) fun _ => rfl
  unfold addUnit
  refine Keeps.bind inferInstance fun existing => ?_
  cases existing with
  | some existing => infer_instance
  | none =>
    refine Keeps.bind inferInstance fun id => ?_
    cases artifact <;> infer_instance

instance : Enduring Matures where
  sameLedger h := .of_persists (.of_sameLedger h)
  addUnit := matures_addUnit
  addArtifact name dependencies := ⟨fun graph => by
    rcases addArtifact_cases graph name dependencies with he | ⟨-, he⟩ <;> rw [he] <;>
      exact .of_types rfl⟩

end Graph

/-! ### What a scope keeps -/

/-- A scope has the same type for a name later on, unless a type of that name is declared. -/
structure Scope.Steady (name : QualifiedName) (scope : Scope) (graph : Graph) (scope' : Scope)
    (graph' : Graph) : Prop where
  matures : Graph.Matures graph graph'
  holds : ∀ {id}, scope.Holds graph name id →
    scope'.Holds graph' name id ∨ Graph.Completes name graph graph'

namespace Scope.Steady

variable {name other : QualifiedName} {scope middle after : Scope} {graph graph' graph'' : Graph}
  {store left : Store} {unit : UnitId} {id : TypeId} {e : GraphError}

/-- The scope stays as it is. -/
theorem of_matures (h : Graph.Matures graph graph') : Steady name scope graph scope graph' :=
  ⟨h, fun hs => .inl (hs.mono h)⟩

/-- What is kept in two stretches is kept all along. -/
theorem trans (h : Steady name scope graph middle graph')
    (h' : Steady name middle graph' after graph'') : Steady name scope graph after graph'' where
  matures := Guarantee.trans h.matures h'.matures
  holds hs := by
    obtain hm | hc := h.holds hs
    · exact (h'.holds hm).imp_right (.of_later h.matures)
    · exact .inr (hc.of_earlier h'.matures)

/-- What is resolved is kept, and so is what it stands beside. -/
theorem resolve (h : scope.resolve other unit store = (.ok (id, after), left)) :
    Steady name scope store.graph after left.graph :=
  ⟨matures_of_run h, fun hs => .inl (hs.resolve h)⟩

/-- A declaration of the name is noticed. -/
theorem declare (h : scope.declare other unit store = (.ok (id, after), left)) :
    Steady name scope store.graph after left.graph :=
  ⟨matures_of_run h, fun hs => (hs.declare h).imp_right (·.2)⟩

end Scope.Steady

/-! ### Scans -/

namespace ScanState

variable {name : QualifiedName}

/-- The scope of a scan has the same type for a name later on. -/
def Steady (name : QualifiedName) (s t : ScanState) : Prop :=
  Scope.Steady name s.scope s.store.graph t.scope t.store.graph

instance : Action.Guarantee (Steady name) where
  refl _ := .of_matures (Guarantee.refl _)
  trans h h' := h.trans h'

/-- Anything else than the scope may change while types mature. -/
private theorem steady_of_matures {α : Type} {action : ScanAction α} {s : ScanState}
    (hs : (action s).2.scope = s.scope)
    (hm : Graph.Matures s.store.graph (action s).2.store.graph) : Steady name s (action s).2 := by
  unfold Steady
  rw [hs]
  exact .of_matures hm

/-- What the scope keeps is kept by the scan. -/
private theorem steady_inScope {operation : Scope → StoreAction (TypeId × Scope)}
    (hk : ∀ scope, Keeps (Store.OnGraph Graph.Matures) (operation scope))
    (ho : ∀ {scope store id after left}, operation scope store = (.ok (id, after), left) →
      Scope.Steady name scope store.graph after left.graph) :
    Keeps (Steady name) (inScope operation) := by
  constructor
  intro s
  have hm := (hk s.scope).keeps s.store
  cases hr : operation s.scope s.store with
  | mk result left =>
    rw [hr] at hm
    cases result with
    | ok value =>
      rw [inScope_ok hr]
      exact ho hr
    | error e =>
      rw [inScope_error hr]
      exact Scope.Steady.of_matures hm

/-- A reference is answered and nothing else gets another type. If the name is required since the
store is at fault, it is not one that the scope has a type for. -/
private theorem steady_resolve (site : ReferenceSite) (other : QualifiedName) (place : Token) :
    Keeps (Steady name) (site.resolve other place) := by
  constructor
  intro s
  have hk : Keeps (OnGraph Graph.Matures) (site.resolve other place) := inferInstance
  have hm := hk.keeps s
  cases hr : s.scope.resolve other site.source.unit s.store with
  | mk result left =>
    cases result with
    | ok value =>
      rw [ReferenceSite.resolve_of_ok place (inScope_ok hr)]
      exact Scope.Steady.resolve hr
    | error e =>
      rw [ReferenceSite.resolve_of_error place (inScope_error hr)] at hm ⊢
      refine ⟨hm, fun {id} hs => ?_⟩
      have hleft : s.scope.Holds left.graph name id := hs.mono (Scope.matures_of_run hr)
      left
      split
      · cases hq : s.scope.require other site.source.unit left with
        | mk result last =>
          cases result with
          | ok value =>
            rw [inScope_ok hq]
            exact hleft.require (hs.ne_of_error hr) hq
          | error e =>
            rw [inScope_error hq]
            exact hleft.mono (Scope.matures_of_run hq)
      · exact hleft

instance (unit : UnitId) : Recording unit (Steady name) where
  report _ := ⟨fun _ => steady_of_matures rfl (Guarantee.refl _)⟩
  note source target := by
    constructor
    intro s
    unfold noteDependency
    split <;> exact .of_matures (Guarantee.refl _)
  answer site other place _ := steady_resolve site other place
  record action hl hu := ⟨fun s =>
    steady_of_matures rfl ((Graph.Upheld.record action hl hu).keeps s.store.graph)⟩
  mainType type := ⟨fun s =>
    steady_of_matures rfl ((Graph.Upheld.mainType unit type).keeps s.store.graph)⟩

instance (unit : UnitId) : Nameless unit (Steady name) where
  report _ _ := Answering.report unit _
  note := Answering.note unit
  declare _ := steady_inScope inferInstance .declare
  record := Recording.record unit
  mainType := Recording.mainType

end ScanState

namespace OpenProject

variable {name : QualifiedName}

/-- The scope of an open project has the same type for a name later on. -/
def Steady (name : QualifiedName) (before after : OpenProject) : Prop :=
  Scope.Steady name before.scope before.store.graph after.scope after.store.graph

instance : Action.Guarantee (Steady name) where
  refl _ := .of_matures (Guarantee.refl _)
  trans h h' := h.trans h'

/-- Whatever happens to the graph, the scope is as it was. -/
private theorem steady_onGraph {α : Type} (action : GraphAction α)
    [hk : Keeps Graph.Matures action] : Keeps (Steady name) (onGraph action) :=
  ⟨fun opened => .of_matures (hk.keeps opened.store.graph)⟩

private theorem steady_scan {α : Type} (diagnostics : List Diagnostic) (action : ScanAction α)
    [Keeps (ScanState.Steady name) action] : Keeps (Steady name) (scan diagnostics action) := by
  have hk : Keeps (ScanState.Steady name)
      (do let result ← action; return (result, ← .read (·.diagnostics)) :
        ScanAction (α × List Diagnostic)) := inferInstance
  exact ⟨fun opened => hk.keeps ⟨opened.store, opened.scope, diagnostics, []⟩⟩

/-- The scan of any text keeps what the scope has, unless a type of the name is declared. -/
instance (config : ScanConfig) (path text : String) :
    Keeps (Steady name) (scanSource config path text) := by
  have := Graph.Enduring.addUnit (R := Graph.Matures) path
  refine keeps_scanSource ⟨fun _ => .of_matures (Guarantee.refl _)⟩
    (fun artifact => steady_onGraph _) (fun unit f hf => ?_) fun diagnostics source header root =>
      steady_scan _ _
  have : Keeps Graph.Matures (Graph.updateUnit unit f) :=
    ⟨fun graph => Graph.Enduring.sameLedger ((Graph.keeps_updateUnit unit f hf).keeps graph)⟩
  exact steady_onGraph _

end OpenProject

/-! ### Steps -/

namespace Session

variable {session : Session} {name : QualifiedName} {id : TypeId} {depth : Nat}

/-- A step does not declare or require a name in the innermost scope. The scan of a file declares the
types of the file; it requires only names that cannot be resolved. -/
def MixedStep.Avoids (name : QualifiedName) (session : Session) (step : MixedStep) : Prop :=
  match step with
  | .nested (.ask .declare other _) | .nested (.ask .require other _) => other ≠ name
  | .scan _ _ _ => ¬ Graph.Completes name session.project.store.graph
      (step.run session).project.store.graph
  | _ => True

/-- The scopes after the innermost one has been asked something. -/
private theorem scopes_ask {scope after : Scope} {scopes : List Scope} {left : Store} {k : TypeId}
    {request : Request} {other : QualifiedName} {unit : UnitId}
    (hs : session.scopes = scope :: scopes)
    (hr : request.operation other unit scope session.project.store = (.ok (k, after), left)) :
    (MixedStep.nested (.ask request other unit)).run session =
      { project := { session.project with store := left }, scopes := after :: scopes } := by
  unfold MixedStep.run NestedStep.run inScope? OpenProject.inScope
  simp only [hs, hr]

/-- The scopes are as they were if the innermost one has failed. -/
private theorem scopes_ask_failed {scope : Scope} {scopes : List Scope} {left : Store}
    {e : GraphError} {request : Request} {other : QualifiedName} {unit : UnitId}
    (hs : session.scopes = scope :: scopes)
    (hr : request.operation other unit scope session.project.store = (.error e, left)) :
    (MixedStep.nested (.ask request other unit)).run session =
      { project := { session.project with store := left }, scopes := scope :: scopes } := by
  unfold MixedStep.run NestedStep.run inScope? OpenProject.inScope
  simp only [hs, hr]

/-- A scope keeps what it has a type for, whatever it is asked, unless it is asked to declare or to
require the name. -/
private theorem holds_operation {scope after : Scope} {store left : Store} {request : Request}
    {other : QualifiedName} {unit : UnitId} {k : TypeId}
    (ha : (MixedStep.nested (.ask request other unit)).Avoids name session)
    (hr : request.operation other unit scope store = (.ok (k, after), left))
    (h : scope.Holds store.graph name id) : after.Holds left.graph name id := by
  cases request with
  | resolve => exact h.resolve hr
  | declare => exact (h.declare hr).resolve_right fun hd => ha hd.1
  | require => exact h.require (.inr ha) hr

/-- What a step does to the open scopes: it leaves the innermost one, enters one, or works with the
innermost one, which goes on to have a type for a name unless it declares or requires the name. -/
private theorem scopes_step (name : QualifiedName) (id : TypeId) {scope : Scope}
    {scopes : List Scope} (hs : session.scopes = scope :: scopes) (step : MixedStep) :
    (step.run session).scopes = scopes ∨
    (∃ inner, (step.run session).scopes = inner :: scope :: scopes) ∨
    ∃ after, (step.run session).scopes = after :: scopes ∧
      (step.Avoids name session → scope.Holds session.project.store.graph name id →
        after.Holds (step.run session).project.store.graph name id) := by
  have hm : Graph.Matures session.project.store.graph (step.run session).project.store.graph :=
    enduring_step session step
  cases step with
  | scanText path text => exact .inr (.inr ⟨scope, hs, fun _ h => h.mono hm⟩)
  | scan config path text =>
    have hk : Keeps (OpenProject.Steady name) (OpenProject.scanSource config path text) :=
      inferInstance
    have hsteady := hk.keeps { session.project with scope }
    have hrun : (MixedStep.scan config path text).run session =
        { project := (OpenProject.scanSource config path text
            { session.project with scope }).2.toProject
          scopes := (OpenProject.scanSource config path text
            { session.project with scope }).2.scope :: scopes } := by
      unfold MixedStep.run Step.run inScope?
      simp only [hs]
    refine .inr (.inr ⟨_, by rw [hrun], fun ha h => ?_⟩)
    unfold MixedStep.Avoids at ha
    rw [hrun] at ha ⊢
    exact (hsteady.holds h).resolve_right ha
  | nested step =>
    cases step with
    | addArtifact name dependencies => exact .inr (.inr ⟨scope, hs, fun _ h => h.mono hm⟩)
    | addUnit path artifact => exact .inr (.inr ⟨scope, hs, fun _ h => h.mono hm⟩)
    | answer answers => exact .inr (.inr ⟨scope, hs, fun _ h => h.mono hm⟩)
    | enter artifact =>
      unfold MixedStep.run NestedStep.run Session.enter
      simp only
      cases Scope.enter session.project.store.graph artifact with
      | ok inner => exact .inr (.inl ⟨inner, congrArg (inner :: ·) hs⟩)
      | error e => exact .inr (.inr ⟨scope, hs, fun _ h => h⟩)
    | ask request other unit =>
      right
      right
      cases hr : request.operation other unit scope session.project.store with
      | mk result left =>
        cases result with
        | ok value =>
          rw [scopes_ask hs hr]
          exact ⟨value.2, rfl, fun ha h => holds_operation ha hr h⟩
        | error e =>
          rw [scopes_ask_failed hs hr] at hm ⊢
          exact ⟨scope, rfl, fun _ h => h.mono hm⟩
    | leave =>
      left
      unfold MixedStep.run NestedStep.run leave?
      simp only [hs]

/-- The scope at a depth has a type for a name. -/
def Holds (session : Session) (depth : Nat) (name : QualifiedName) (id : TypeId) : Prop :=
  ∃ inner scope outer, session.scopes = inner ++ scope :: outer ∧ outer.length + 1 = depth ∧
    scope.Holds session.project.store.graph name id

/-- A scope goes on to have a type for a name while it is open and does not declare or require the
name itself. -/
private theorem Holds.step {step : MixedStep} (h : session.Holds depth name id)
    (hd : depth ≤ (step.run session).depth)
    (ha : session.depth = depth → step.Avoids name session) :
    (step.run session).Holds depth name id := by
  obtain ⟨inner, scope, outer, hs, hl, hh⟩ := h
  have hlater := hh.mono (enduring_step session step)
  cases inner with
  | nil =>
    have havoids : step.Avoids name session := ha (by rw [Session.depth, hs]; exact hl)
    rcases scopes_step name id hs step with hleft | ⟨inner, hentered⟩ | ⟨after, hafter, hholds⟩
    · rw [Session.depth, hleft] at hd
      omega
    · exact ⟨[inner], scope, outer, hentered, hl, hlater⟩
    · exact ⟨[], after, outer, hafter, hl, hholds havoids hh⟩
  | cons first inner =>
    rcases scopes_step name id hs step with hleft | ⟨new, hentered⟩ | ⟨after, hafter, -⟩
    · exact ⟨inner, scope, outer, hleft, hl, hlater⟩
    · exact ⟨new :: first :: inner, scope, outer, hentered, hl, hlater⟩
    · exact ⟨after :: inner, scope, outer, hafter, hl, hlater⟩

/-! ### Runs -/

/-- What can be done with a store while scopes of a session are open. -/
inductive SharedStep where
  | here (step : MixedStep)
  /-- The same, in a scope of its own that is not one of the session. -/
  | elsewhere (scope : Scope) (step : MixedStep)

/-- The session after a step, whether it succeeds or fails. -/
def SharedStep.run (session : Session) : SharedStep → Session
  | .here step => step.run session
  | .elsewhere scope step =>
    { session with project := (step.run { session with scopes := [scope] }).project }

/-- The innermost scope resolves a name. -/
def SharedStep.resolve (name : QualifiedName) (unit : UnitId) : SharedStep :=
  .here (.nested (.ask .resolve name unit))

/-- The session after some steps, beginning with an empty store. -/
def runShared (steps : List SharedStep) : Session := steps.foldl SharedStep.run {}

/-- A step leaves the scope at a depth open and does not declare or require a name in it. -/
def SharedStep.Spares (depth : Nat) (name : QualifiedName) (session : Session) : SharedStep → Prop
  | .here step =>
    depth ≤ (step.run session).depth ∧ (session.depth = depth → step.Avoids name session)
  | .elsewhere _ _ => True

/-- Steps that leave the scope at a depth open, and in which it does not declare or require a name
itself. -/
def Undisturbed (depth : Nat) (name : QualifiedName) : Session → List SharedStep → Prop
  | _, [] => True
  | session, step :: rest =>
    step.Spares depth name session ∧ Undisturbed depth name (step.run session) rest

/-- A scope goes on to have a type for a name in every step that spares it. -/
private theorem Holds.shared {step : SharedStep} (h : session.Holds depth name id)
    (hs : step.Spares depth name session) : (step.run session).Holds depth name id := by
  cases step with
  | here step => exact h.step hs.1 hs.2
  | elsewhere scope step =>
    obtain ⟨inner, current, outer, hscopes, hl, hh⟩ := h
    exact ⟨inner, current, outer, hscopes, hl,
      hh.mono (enduring_step { session with scopes := [scope] } step)⟩

/-- A scope goes on to have a type for a name while it is not disturbed. -/
private theorem Holds.foldl (steps : List SharedStep) :
    ∀ {session : Session}, session.Holds depth name id → Undisturbed depth name session steps →
      (steps.foldl SharedStep.run session).Holds depth name id := by
  induction steps with
  | nil => exact fun h _ => h
  | cons step rest ih => exact fun h hu => ih (h.shared hu.1) hu.2

/-- A scope has a type for a name once it has resolved it. -/
private theorem holds_ask {scope after : Scope} {scopes : List Scope} {unit : UnitId}
    {left : Store} (hs : session.scopes = scope :: scopes)
    (hr : scope.resolve name unit session.project.store = (.ok (id, after), left)) :
    ((SharedStep.resolve name unit).run session).Holds (scopes.length + 1) name id := by
  have ha : Request.resolve.operation name unit scope session.project.store =
      (.ok (id, after), left) := hr
  change ((MixedStep.nested (.ask .resolve name unit)).run session).Holds _ name id
  rw [scopes_ask hs ha]
  exact ⟨[], after, scopes, rfl, rfl, Scope.holds_of_resolve hr⟩

/-- In every run, a name that a scope has resolved stands for the same type as long as the scope is
open and does not declare or require the name itself: whenever it resolves the name again, for
whatever unit, that type is the answer. There is an answer, unless the scope is the global one and
the store does not answer. -/
theorem resolve_stable {before between : List SharedStep} {scope after later : Scope}
    {scopes outer : List Scope} {unit : UnitId} {left : Store}
    (hs : (runShared before).scopes = scope :: scopes)
    (hr : scope.resolve name unit (runShared before).project.store = (.ok (id, after), left))
    (hu : Undisturbed (scopes.length + 1) name (runShared (before ++ [.resolve name unit])) between)
    (hl : (runShared (before ++ .resolve name unit :: between)).scopes = later :: outer)
    (hd : outer.length = scopes.length) (unit' : UnitId) :
    (∀ id' after' left', later.resolve name unit'
        (runShared (before ++ .resolve name unit :: between)).project.store =
          (.ok (id', after'), left') → id' = id) ∧
    ((later = .global →
        (runShared (before ++ .resolve name unit :: between)).project.store.answers = true) →
      later.resolve name unit'
        (runShared (before ++ .resolve name unit :: between)).project.store =
          (.ok (id, later), (runShared (before ++ .resolve name unit :: between)).project.store)) := by
  have hasked : runShared (before ++ [.resolve name unit]) =
      (SharedStep.resolve name unit).run (runShared before) := by
    simp [runShared, List.foldl_append]
  have hrun : runShared (before ++ .resolve name unit :: between) =
      between.foldl SharedStep.run (runShared (before ++ [.resolve name unit])) := by
    simp [runShared, List.foldl_append]
  have hh := Holds.foldl between (hasked ▸ holds_ask hs hr) hu
  rw [← hrun] at hh
  generalize runShared (before ++ .resolve name unit :: between) = session at hh hl
  obtain ⟨inner, current, rest, hscopes, hlength, hholds⟩ := hh
  -- The scope is the innermost one, since as many are around it as before.
  have hinner : inner = [] := by
    have := congrArg List.length (hscopes.symm.trans hl)
    rw [List.length_append, List.length_cons, List.length_cons] at this
    exact List.length_eq_zero_iff.1 (by omega)
  subst hinner
  cases hscopes.symm.trans hl
  exact ⟨fun _ _ _ => hholds.eq_of_resolve, fun ha => (hholds.gives ha).resolve unit'⟩

/-- What the open scopes resolve a name to, innermost first. -/
private def answers (session : Session) (name : QualifiedName) (unit : UnitId) :
    List (Option TypeId) :=
  session.scopes.map fun scope =>
    (scope.resolve name unit session.project.store).1.toOption.map (·.1)

private theorem of_answers {session : Session} {unit : UnitId}
    (h : session.answers name unit = [some id]) :
    ∃ scope after left, session.scopes = [scope] ∧
      scope.resolve name unit session.project.store = (.ok (id, after), left) := by
  unfold answers at h
  obtain ⟨scope, hs, hr⟩ := List.map_eq_singleton_iff.1 h
  obtain ⟨⟨_, after⟩, hok, rfl⟩ := Option.map_eq_some_iff.1 hr
  exact ⟨scope, after, _, hs, Prod.ext (ok_of_toOption hok) rfl⟩

/-- The scope of an artifact with a dependency. -/
def dependent : List SharedStep :=
  [.here (.nested (.addArtifact "lib" [])), .here (.nested (.addArtifact "app" [⟨0⟩])),
    .here (.nested (.addUnit "A.java" (some ⟨1⟩))), .here (.nested (.addUnit "L.java" (some ⟨0⟩))),
    .here (.nested (.enter (some ⟨1⟩)))]

/-- The dependency declares a name in a scope within that one, and so does a global scope. -/
def declaredElsewhere : List SharedStep :=
  [.here (.nested (.enter (some ⟨0⟩))), .here (.nested (.ask .declare missedName ⟨1⟩)),
    .here (.nested .leave), .elsewhere .global (.nested (.ask .declare missedName ⟨1⟩))]

/-- A name that was resolved before it was declared by a dependency stands for the placeholder. -/
theorem resolve_stable_declaredElsewhere :
    ∃ scope after left later,
      (runShared dependent).scopes = [scope] ∧
      scope.resolve missedName ⟨0⟩ (runShared dependent).project.store =
        (.ok (⟨0⟩, after), left) ∧
      Undisturbed 1 missedName (runShared (dependent ++ [.resolve missedName ⟨0⟩]))
        declaredElsewhere ∧
      (runShared (dependent ++ .resolve missedName ⟨0⟩ :: declaredElsewhere)).scopes = [later] ∧
      later.resolve missedName ⟨1⟩
        (runShared (dependent ++ .resolve missedName ⟨0⟩ :: declaredElsewhere)).project.store =
          (.ok (⟨0⟩, later),
            (runShared (dependent ++ .resolve missedName ⟨0⟩ :: declaredElsewhere)).project.store) := by
  have hfirst : (runShared dependent).answers missedName ⟨0⟩ = [some ⟨0⟩] := by decide +kernel
  have hlast : (runShared (dependent ++ .resolve missedName ⟨0⟩ :: declaredElsewhere)).answers
      missedName ⟨1⟩ = [some ⟨0⟩] := by decide +kernel
  have hanswers : (runShared (dependent ++ .resolve missedName ⟨0⟩ ::
      declaredElsewhere)).project.store.answers = true := by decide +kernel
  obtain ⟨scope, after, left, hs, hr⟩ := of_answers hfirst
  obtain ⟨later, -, -, hl, -⟩ := of_answers hlast
  have hu : Undisturbed 1 missedName (runShared (dependent ++ [.resolve missedName ⟨0⟩]))
      declaredElsewhere :=
    ⟨⟨by decide +kernel, fun _ => trivial⟩,
      ⟨by decide +kernel, fun h => absurd h (by decide +kernel)⟩,
      ⟨by decide +kernel, fun _ => trivial⟩, trivial, trivial⟩
  exact ⟨scope, after, left, later, hs, hr, hu, hl,
    (resolve_stable hs hr hu hl rfl ⟨1⟩).2 fun _ => hanswers⟩

end Session

end JavaGraph
