import JavaGraph.Proofs.Scan.Declaring
import JavaGraph.Proofs.Scope.Answers
/-!
# How references are resolved

A reference finds what the scope has under its name, or a placeholder comes in. If the store does
not answer, that is reported, and the scope of an artifact goes on without it.
-/

namespace JavaGraph

open List (Forall₂)
open JavaGraph.Action
open JavaGraph.Graph (SameType SameUnit Since)

/-! ### States -/

namespace ScanState

/-- The state in which a type has been found for a name. -/
def found (state : ScanState) (name : QualifiedName) (id : TypeId) : ScanState :=
  { state with scope := state.scope.withFound name id }

/-- The state in which a placeholder has come in for a name. -/
def missing (state : ScanState) (name : QualifiedName) (unit : UnitId) : ScanState :=
  { state with
    store := { state.store with
      graph := state.store.graph.withMissing name state.scope.artifact? unit }
    scope := state.scope.withCreated name state.store.graph.types.nextId }

/-- The state with one more diagnostic. -/
def saying (state : ScanState) (diagnostic : Diagnostic) : ScanState :=
  { state with diagnostics := state.diagnostics ++ [diagnostic] }

end ScanState

/-! ### References -/

namespace ReferenceSite

variable {site : ReferenceSite} {name : QualifiedName} {s : ScanState}

/-- What is said if the store does not answer. -/
def unanswered (site : ReferenceSite) (name : QualifiedName) (place : Token) : Diagnostic :=
  .atToken site.source.file place (.lookupFailed name.text)

/-- What the scope answers is the answer. -/
theorem resolve_of_ok {id : TypeId} {s' : ScanState} (place : Token)
    (h : ScanState.inScope (·.resolve name site.source.unit) s = (.ok id, s')) :
    site.resolve name place s = (.ok id, s') := by
  have ha : (ScanState.inScope (·.resolve name site.source.unit)).attempt s =
      ((.ok (.ok id), s') : Except GraphError (Except GraphError TypeId) × ScanState) := by
    unfold attempt
    rw [h]
  unfold resolve
  rw [bind_of_ok ha]
  rfl

/-- If the store is at fault, the name is required instead. -/
theorem resolve_of_error {e : GraphError} {s' : ScanState} (place : Token)
    (h : ScanState.inScope (·.resolve name site.source.unit) s = (.error e, s')) :
    site.resolve name place s =
      if e.isStoreFailure = true then
        ScanState.inScope (·.require name site.source.unit)
          (s'.saying (site.unanswered name place))
      else (.error e, s') := by
  have ha : (ScanState.inScope (·.resolve name site.source.unit)).attempt s =
      ((.ok (.error e), s') : Except GraphError (Except GraphError TypeId) × ScanState) := by
    unfold attempt
    rw [h]
  unfold resolve
  rw [bind_of_ok ha]
  dsimp only
  split <;> rfl

/-- What the scope has is the answer. -/
theorem resolve_found {id : TypeId} (place : Token)
    (h : s.scope.lookup name s.store = .ok (some id)) :
    site.resolve name place s = (.ok id, s.found name id) :=
  resolve_of_ok place (ScanState.inScope_ok (Scope.resolve_found h))

/-- If the scope has nothing, a placeholder is the answer. -/
theorem resolve_missing (place : Token) (hs : s.Sound site.source.unit)
    (h : s.scope.lookup name s.store = .ok none) :
    s.store.graph.Lacks name s.scope.artifact? ∧
      site.resolve name place s =
        (.ok s.store.graph.types.nextId, s.missing name site.source.unit) := by
  obtain ⟨hl, hrun⟩ := Scope.resolve_missing hs.1 hs.2 h
  exact ⟨hl, resolve_of_ok place (ScanState.inScope_ok hrun)⟩

/-- If the store does not answer, a placeholder is the answer, or there is none. -/
theorem resolve_unanswered {e : GraphError} (place : Token) (hs : s.Sound site.source.unit)
    (h : s.scope.lookup name s.store = .error e) :
    (s.scope = .global ∧ s.store.answers = false ∧ site.resolve name place s =
      (.error e, s.saying (site.unanswered name place))) ∨
      s.scope ≠ .global ∧ s.store.graph.Lacks name s.scope.artifact? ∧
        site.resolve name place s = (.ok s.store.graph.types.nextId,
          (s.saying (site.unanswered name place)).missing name site.source.unit) := by
  obtain ⟨he, hrun⟩ := Scope.resolve_failed h
  rw [resolve_of_error place (ScanState.inScope_error hrun), if_pos he]
  rcases Scope.require_failed hs.1 hs.2 h with ⟨hg, ha, hrun'⟩ | ⟨hg, hl, hrun'⟩
  · exact .inl ⟨hg, ha, ScanState.inScope_error hrun'⟩
  · exact .inr ⟨hg, hl, ScanState.inScope_ok hrun'⟩

end ReferenceSite

/-! ### References in tandem -/

/-- What an answer may have changed. -/
structure ScanState.Answered (unit : UnitId) (home : Universe) (before after : ScanState)
    (id : TypeId) : Prop where
  placed : Since.Placed unit home before.store.graph after.store.graph
  known : ∃ x, after.store.graph.types.get? id = some x
  artifact : after.scope.artifact? = before.scope.artifact?
  dependencies : after.dependencies = before.dependencies

namespace ScanState

variable {s : ScanState} {unit : UnitId} {home : Universe} {name : QualifiedName}

/-- A found type is an answer. -/
theorem answered_found {id : TypeId} (unit : UnitId) (home : Universe)
    (hx : ∃ x, s.store.graph.types.get? id = some x) :
    Answered unit home s (s.found name id) id :=
  ⟨.refl .., hx, Scope.artifact?_withFound .., rfl⟩

/-- The new placeholder. -/
theorem get?_missing (name : QualifiedName) (unit : UnitId) (hh : s.scope.artifact? = home) :
    ∃ holder, (s.missing name unit).store.graph.types.get? s.store.graph.types.nextId =
      some (Graph.blank name home (.incomplete holder)) := by
  obtain ⟨holder, hk⟩ := Graph.get?_withMissing s.store.graph name home unit
  refine ⟨holder, ?_⟩
  subst hh
  exact (hk _).trans (if_pos rfl)

/-- A new placeholder is an answer. -/
theorem answered_missing (hh : s.scope.artifact? = home) :
    Answered unit home s (s.missing name unit) s.store.graph.types.nextId := by
  obtain ⟨holder, hx⟩ := get?_missing name unit hh
  subst hh
  exact ⟨Graph.placed_withMissing .., ⟨_, hx⟩, Scope.artifact?_withCreated .., rfl⟩

/-- A new placeholder is an answer, whatever is said. -/
theorem answered_saying (hh : s.scope.artifact? = home) (diagnostic : Diagnostic) :
    Answered unit home s ((s.saying diagnostic).missing name unit) s.store.graph.types.nextId := by
  have ha : Answered unit home (s.saying diagnostic) ((s.saying diagnostic).missing name unit)
      s.store.graph.types.nextId := answered_missing hh
  exact ⟨ha.placed, ha.known, ha.artifact, ha.dependencies⟩

end ScanState

namespace Twins

variable {P : Twins} {Q : ScanState → ScanState → Prop} {admits : QualifiedName → Prop}
  {mayFail : Prop} {s t s' t' : ScanState} {w : Graph × Graph} {name : QualifiedName}
  {site site' : ReferenceSite} {place : Token}

/-- Both scans say the same. -/
theorem Paired.saying (hp : P.Paired s t) {a b : Diagnostic}
    (hab : P.Diagnostics s.store.graph t.store.graph a b) :
    P.Paired (s.saying a) (t.saying b) :=
  ⟨hp.sound, hp.sound', hp.scope, hp.scope', hp.graphs, hp.dependencies,
    List.rel_append hp.diagnostics (.cons hab .nil)⟩

/-- That the store does not answer is the same for both. -/
theorem unanswered_alike {g g' : Graph} (hu : site.source = P.source)
    (hu' : site'.source = P.source') (name : QualifiedName) (place : Token) :
    P.Diagnostics g g' (site.unanswered name place) (site'.unanswered name place) :=
  ⟨⟨congrArg SourceUnit.file hu, congrArg SourceUnit.file hu'⟩, rfl, rfl, .alone rfl⟩

/-- Both scans get an answer. -/
theorem outcome_resolved (hs : (P.tandem Q admits mayFail).Holds w s t)
    (hu : site.source = P.source) (hu' : site'.source = P.source') {id id' : TypeId}
    (hrun : site.resolve name place s = (.ok id, s'))
    (hrun' : site'.resolve name place t = (.ok id', t'))
    (ha : s.Answered P.source.unit P.home s' id) (ha' : t.Answered P.source'.unit P.home t' id')
    (hd : Forall₂ (P.Diagnostics s.store.graph t.store.graph) s'.diagnostics t'.diagnostics)
    (hsame : SameType s'.store.graph t'.store.graph id id')
    (hanswers : P.whole → P.Answers s'.store.graph id) (hq : Q s' t') :
    (P.tandem Q admits mayFail).Outcome w
      (fun w a b => SameType w.1 w.2 a b ∧ (P.whole → P.Answers w.1 a))
      (site.resolve name place s) (site'.resolve name place t) := by
  obtain ⟨rfl, hp, -⟩ := hs
  have hk : Keeps (ScanState.PassesOn P.source.unit) (site.resolve name place) := by
    rw [← hu]
    infer_instance
  have hk' : Keeps (ScanState.PassesOn P.source'.unit) (site'.resolve name place) := by
    rw [← hu']
    infer_instance
  have hsound := hk.of_run hrun hp.sound
  have hsound' := hk'.of_run hrun' hp.sound'
  rw [hrun, hrun']
  have hg := ha.placed.since
  have hg' := ha'.placed.since
  refine ⟨(s'.store.graph, t'.store.graph), ⟨hg, hg'⟩, ⟨rfl, ?_, hq⟩, hsame, hanswers⟩
  refine ⟨hsound, hsound', ha.artifact.trans hp.scope, ha'.artifact.trans hp.scope',
    hp.graphs.placed ha.placed ha'.placed, ?_, hd.imp fun _ _ hab => hab.mono hg hg'⟩
  rw [ha.dependencies, ha'.dependencies]
  exact hp.dependencies.imp fun _ _ hab => hab.mono hg hg'

end Twins

end JavaGraph
