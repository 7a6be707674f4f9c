import JavaGraph.Proofs.Scan.Oblivious
/-!
# Scans without an answer

A store that does not answer is of no help to the scope of an artifact, which then does with what it
has. So the scan of a file in it is the scan in an artifact that depends on nothing, except that
every lookup that has failed is reported.
-/

/-!
## Scopes without the help of dependencies

If the store does not answer, the scope of an artifact has nothing but its own universe. It has a
type for the same names as if the artifact depended on nothing; for the others it fails where it
would have nothing.
-/

namespace JavaGraph

open JavaGraph.Action

namespace ArtifactScope

/-- The scope of the artifact if it depended on nothing. -/
def withoutDependencies (scope : ArtifactScope) : ArtifactScope := { scope with dependencies := [] }

/-- What is declared is the same. -/
theorem declare_withoutDependencies (scope : ArtifactScope) (name : QualifiedName) (unit : UnitId)
    (artifact : ArtifactId) (graph : Graph) (answers answers' : Bool) :
    scope.withoutDependencies.declare name unit ⟨graph.withoutDependencies artifact, answers'⟩ =
      ((scope.declare name unit ⟨graph, answers⟩).1.map fun (id, scope) =>
          (id, scope.withoutDependencies),
        ⟨(scope.declare name unit ⟨graph, answers⟩).2.graph.withoutDependencies artifact,
          answers'⟩) := by
  have hsame : ∀ id graph,
      Graph.declareType id unit (some scope.artifact) (Graph.withoutDependencies artifact graph) =
        ((Graph.declareType id unit (some scope.artifact) graph).1,
          (Graph.declareType id unit (some scope.artifact) graph).2.withoutDependencies artifact) :=
    fun id graph => Commutes.commutes graph
  have hpush : (graph.withoutDependencies artifact).withType name (some scope.artifact) =
      (graph.withType name (some scope.artifact)).withoutDependencies artifact := rfl
  have hnext : (graph.withoutDependencies artifact).types.nextId = graph.types.nextId := rfl
  have hk : scope.withoutDependencies.known = scope.known := rfl
  have ha : scope.withoutDependencies.artifact = scope.artifact := rfl
  rw [declare_run, declare_run, hk, ha]
  cases scope.known.find? name with
  | some id =>
    simp only [hsame]
    cases (Graph.declareType id unit (some scope.artifact) graph).1 <;> rfl
  | none =>
    simp only [hpush, hnext, hsame]
    generalize (Graph.declareType _ unit (some scope.artifact) _).1 = result
    cases result <;> rfl

end ArtifactScope

namespace Scope

/-- The scope of the same artifact if it depended on nothing. -/
def withoutDependencies : Scope → Scope
  | .ofArtifact scope => .ofArtifact scope.withoutDependencies
  | .global => .global

/-- It is the same universe. -/
@[simp] theorem artifact?_withoutDependencies (scope : Scope) :
    scope.withoutDependencies.artifact? = scope.artifact? := by
  cases scope <;> rfl

variable {graph : Graph} {scope : Scope} {unit : UnitId} {name : QualifiedName}

/-- A sound scope stays so. -/
theorem Sound.withoutDependencies (h : Sound graph scope) (artifact : ArtifactId) :
    Sound (graph.withoutDependencies artifact) scope.withoutDependencies where
  consistent := h.consistent.withoutDependencies artifact
  covered := h.covered.withoutDependencies artifact
  fits := by
    cases scope with
    | ofArtifact scope =>
      have hf : scope.Fits graph := h.fits
      have hartifact : ∃ node,
          (graph.withoutDependencies artifact).artifacts.get? scope.artifact = some node := by
        obtain ⟨node, hn⟩ := hf.artifact_known
        rw [Graph.get?_artifacts_withoutDependencies, hn]
        exact ⟨_, rfl⟩
      exact ⟨hartifact, hf.known_iff, hf.created_of_held, hf.created_known⟩
    | global => exact h.fits

/-- The unit still belongs to it. -/
theorem Serves.withoutDependencies (h : Serves graph scope unit) (artifact : ArtifactId) :
    Serves (graph.withoutDependencies artifact) scope.withoutDependencies unit := by
  obtain ⟨source, hu, ha⟩ := h
  refine ⟨source.withoutDependencies artifact, ?_, ?_⟩
  · rw [Graph.get?_units_withoutDependencies, hu]
    rfl
  · rw [artifact?_withoutDependencies, ← ha]
    unfold CompilationUnit.withoutDependencies
    split <;> rfl

/-- The scope has a type for a name, whether the store answers or not. -/
structure Knows (scope : Scope) (name : QualifiedName) (id : TypeId) : Prop where
  lookup : ∀ store, scope.lookup name store = .ok (some id)
  withFound : scope.withFound name id = scope
  require : ∀ unit store, scope.require name unit store = (.ok (id, scope), store)

/-- The types of its own universe are known to the scope of an artifact. -/
private theorem knows_of_find? {own : ArtifactScope} {id : TypeId}
    (h : own.known.find? name = some id) : (Scope.ofArtifact own).Knows name id := by
  have hc : own.cached? name = some id := by
    unfold ArtifactScope.cached?
    rw [h, Option.some_or]
  refine ⟨fun store => ?_, ?_, fun unit store => ?_⟩
  · unfold Scope.lookup
    simp only [hc]
  · unfold Scope.withFound
    simp only [hc]
  · rw [require_ofArtifact, ArtifactScope.require_known h]
    rfl

/-- The scope of an artifact that has dependencies and has borrowed nothing from them. -/
def Unaided (scope : Scope) : Prop :=
  ∃ own, scope = .ofArtifact own ∧ own.dependencies ≠ [] ∧ ∀ name, own.borrowed.find? name = none

/-- It is not the global one. -/
theorem Unaided.ne_global (h : scope.Unaided) : scope ≠ .global := by
  obtain ⟨own, rfl, -⟩ := h
  exact Scope.noConfusion

/-- A scope that has borrowed nothing knows the names of its universe. For any other the store
would have to be asked. -/
theorem Unaided.lookup (h : scope.Unaided) (hs : Sound graph scope) (name : QualifiedName) :
    (∃ id x, graph.types.get? id = some x ∧ x.name = name ∧ x.home = scope.artifact? ∧
      scope.Knows name id ∧ scope.withoutDependencies.Knows name id) ∨
    graph.Lacks name scope.artifact? ∧ (∃ e, scope.lookup name ⟨graph, false⟩ = .error e) ∧
      ∀ store, scope.withoutDependencies.lookup name store = .ok none := by
  obtain ⟨own, rfl, hd, hb⟩ := h
  have hfits : own.Fits graph := hs.fits
  cases hk : own.known.find? name with
  | some id =>
    obtain ⟨x, hx, hn, hh⟩ := hfits.known_iff.1 hk
    exact .inl ⟨id, x, hx, hn, hh, knows_of_find? hk, knows_of_find? hk⟩
  | none =>
    have hc : own.cached? name = none := by
      unfold ArtifactScope.cached?
      rw [hk, hb, Option.or_none]
    have hc' : own.withoutDependencies.cached? name = none := hc
    have hempty : own.dependencies.isEmpty = false := by simpa using hd
    refine .inr ⟨hfits.lacks hk, ?_, fun _ => ?_⟩
    · unfold Scope.lookup
      simp only [hc, hempty]
      exact ⟨_, rfl⟩
    · unfold Scope.lookup Scope.withoutDependencies
      simp only [hc']
      rfl

/-- The scope stays unaided. -/
theorem Unaided.withCreated (h : scope.Unaided) (name : QualifiedName) (id : TypeId) :
    (scope.withCreated name id).Unaided := by
  obtain ⟨own, rfl, hd, hb⟩ := h
  exact ⟨_, rfl, hd, hb⟩

/-- The scope stays unaided. -/
theorem Unaided.withDeclared (h : scope.Unaided) (name : QualifiedName) (id : TypeId) :
    (scope.withDeclared name id).Unaided := by
  obtain ⟨own, rfl, hd, hb⟩ := h
  exact ⟨_, rfl, hd, hb⟩

end Scope

end JavaGraph

/-! ## Scans -/

namespace JavaGraph

open JavaGraph.Action

namespace ScanState

/-- The state of the same scan in an artifact that depends on nothing. -/
def alone (artifact : ArtifactId) (answers : Bool) (s : ScanState) : ScanState where
  store := ⟨s.store.graph.withoutDependencies artifact, answers⟩
  scope := s.scope.withoutDependencies
  diagnostics := s.diagnostics.filter (!·.isLookupFailure)
  dependencies := s.dependencies

/-- A state of the scan of a unit in an artifact with dependencies that the store knows nothing
about. -/
structure Unanswered (unit : UnitId) (s : ScanState) : Prop where
  sound : s.Sound unit
  answers : s.store.answers = false
  scope : s.scope.Unaided

variable {artifact : ArtifactId} {answers : Bool} {s t : ScanState} {unit : UnitId}
  {name : QualifiedName}

/-- The state is sound without dependencies. -/
theorem Unanswered.sound_alone (h : s.Unanswered unit) : (s.alone artifact answers).Sound unit :=
  ⟨h.sound.1.withoutDependencies artifact, h.sound.2.withoutDependencies artifact⟩

/-- The state in which a placeholder has come in. -/
theorem alone_missing (s : ScanState) (name : QualifiedName) (unit : UnitId) :
    (s.missing name unit).alone artifact answers =
      (s.alone artifact answers).missing name unit := by
  obtain ⟨store, scope, diagnostics, dependencies⟩ := s
  cases scope with
  | ofArtifact scope =>
    unfold missing alone
    simp only [Scope.artifact?, Graph.withMissing, Graph.withoutDependencies_withPlaceholder]
    rfl
  | global => rfl

/-- A failed lookup is not reported. -/
theorem alone_saying (s : ScanState) {diagnostic : Diagnostic}
    (h : diagnostic.isLookupFailure = true) :
    (s.saying diagnostic).alone artifact answers = s.alone artifact answers := by
  unfold saying alone
  simp only [List.filter_append, List.filter_cons, h]
  simp

/-- A name stands for a type of the universe, or a placeholder comes in. Then the lookup has failed,
and that is reported. -/
theorem Unanswered.resolve_cases {site : ReferenceSite} (h : s.Unanswered site.source.unit)
    (name : QualifiedName) (place : Token) :
    (∃ id x, s.store.graph.types.get? id = some x ∧ x.name = name ∧ x.home = s.scope.artifact? ∧
      site.resolve name place s = (.ok id, s) ∧
      ∀ artifact answers,
        site.resolve name place (s.alone artifact answers) = (.ok id, s.alone artifact answers)) ∨
    s.store.graph.Lacks name s.scope.artifact? ∧
      site.resolve name place s = (.ok s.store.graph.types.nextId,
        (s.saying (site.unanswered name place)).missing name site.source.unit) ∧
      ∀ artifact answers, site.resolve name place (s.alone artifact answers) =
        (.ok s.store.graph.types.nextId,
          (s.alone artifact answers).missing name site.source.unit) := by
  have hstore : s.store = ⟨s.store.graph, false⟩ := by rw [← h.answers]
  have hfound : ∀ {t : ScanState} {id}, t.scope.Knows name id →
      site.resolve name place t = (.ok id, t) := by
    intro t id hk
    rw [ReferenceSite.resolve_found place (hk.lookup _)]
    unfold found
    rw [hk.withFound]
  rcases h.scope.lookup h.sound.1 name with
    ⟨id, x, hx, hn, hh, hk, hk'⟩ | ⟨hlacks, ⟨e, hl⟩, hl'⟩
  · exact .inl ⟨id, x, hx, hn, hh, hfound hk, fun _ _ => hfound hk'⟩
  · refine .inr ⟨hlacks, ?_, fun artifact answers => ?_⟩
    · rcases ReferenceSite.resolve_unanswered place h.sound (by rw [hstore]; exact hl) with
        ⟨hg, -⟩ | ⟨-, -, hrun⟩
      · exact absurd hg h.scope.ne_global
      · exact hrun
    · exact (ReferenceSite.resolve_missing place h.sound_alone (hl' _)).2

/-! ### Scans stay unanswered -/

/-- What changes neither whether the store answers nor the scope. -/
private theorem Unanswered.of_eq (h : s.Unanswered unit) (hs : t.Sound unit)
    (ha : t.store.answers = s.store.answers) (hscope : t.scope = s.scope) : t.Unanswered unit :=
  ⟨hs, ha.trans h.answers, hscope ▸ h.scope⟩

private theorem staysUnanswered_resolve (name : QualifiedName) :
    Keeps (Stays (Unanswered unit)) (inScope (·.resolve name unit)) := by
  constructor
  intro s h
  have hstore : s.store = ⟨s.store.graph, false⟩ := by rw [← h.answers]
  rcases h.scope.lookup h.sound.1 name with
    ⟨id, x, -, -, -, hk, -⟩ | ⟨-, ⟨e, hl⟩, -⟩
  · rw [inScope_ok (Scope.resolve_found (hk.lookup _)), hk.withFound]
    exact h
  · rw [inScope_error (Scope.resolve_failed (by rw [hstore]; exact hl)).2]
    exact h

private theorem staysUnanswered_require (name : QualifiedName) :
    Keeps (Stays (Unanswered unit)) (inScope (·.require name unit)) := by
  constructor
  intro s h
  have hk : Keeps (PassesOn unit) (inScope (·.require name unit)) := Refers.require name
  have hsound := hk.keeps s h.sound
  have hstore : s.store = ⟨s.store.graph, false⟩ := by rw [← h.answers]
  rcases h.scope.lookup h.sound.1 name with
    ⟨id, x, -, -, -, hk, -⟩ | ⟨-, ⟨e, hl⟩, -⟩
  · rw [inScope_ok (hk.require unit s.store)]
    exact h
  · rcases Scope.require_failed h.sound.1 h.sound.2 hl with ⟨hg, -⟩ | ⟨-, -, hrun⟩
    · exact absurd hg h.scope.ne_global
    · rw [inScope_ok (by rw [hstore]; exact hrun)] at hsound ⊢
      exact ⟨hsound, rfl, h.scope.withCreated name _⟩

private theorem staysUnanswered_record {α : Type} (action : GraphAction α)
    (hl : Keeps Graph.SameLedger action) : Keeps (Stays (Unanswered unit)) (onGraph action) :=
  ⟨fun s h => h.of_eq ((keeps_onGraph action hl).keeps s h.sound) rfl rfl⟩

instance : Guarantee unit (Stays (Unanswered unit)) where
  report _ := ⟨fun _ h => h.of_eq h.sound rfl rfl⟩
  note source target := by
    constructor
    intro s h
    unfold noteDependency
    split <;> exact h.of_eq h.sound rfl rfl
  resolve := staysUnanswered_resolve
  require := staysUnanswered_require
  declare name := by
    constructor
    intro s h
    have hk : Keeps (PassesOn unit) (inScope (·.declare name unit)) := Guarantee.declare name
    have hsound := hk.keeps s h.sound
    rcases Twins.inScope_declare_cases h.sound rfl name with ⟨_, -, hrun⟩ | ⟨id, middle, ha, hrun⟩
    · rw [hrun]
      exact h
    · rw [hrun] at hsound ⊢
      exact ⟨hsound, h.answers, h.scope.withDeclared name id⟩
  record action hl _ := staysUnanswered_record action hl
  mainType _ := staysUnanswered_record _ inferInstance

/-! ### Steps without dependencies -/

/-- What is done in the graph without looking at dependencies. -/
instance {α : Type} (action : GraphAction α)
    [h : Commutes (Graph.withoutDependencies artifact) action] :
    Commutes (alone artifact answers) (onGraph action) :=
  commutes_onGraph h (fun _ => rfl) fun _ _ => rfl

/-- What is said about the file, unless a lookup has failed. -/
private theorem commutes_report {diagnostic : Diagnostic}
    (h : diagnostic.isLookupFailure = false) :
    Commutes (alone artifact answers) (report diagnostic) := by
  refine commutes_change fun s => ?_
  unfold alone
  simp only [List.filter_append, List.filter_cons, h]
  rfl

/-- A reference that is kept back. -/
instance (source target : TypeId) :
    Commutes (alone artifact answers) (noteDependency source target) :=
  commutes_noteDependency source target fun _ => rfl

/-- A declaration does not look at dependencies. -/
private theorem Unanswered.declare (h : s.Unanswered unit) (name : QualifiedName) :
    CommutesAt (alone artifact answers) (inScope (·.declare name unit)) s := by
  obtain ⟨own, hown, -⟩ := h.scope
  have hrun := own.declare_withoutDependencies name unit artifact s.store.graph s.store.answers
    answers
  unfold CommutesAt inScope alone
  rw [hown]
  simp only [Scope.withoutDependencies, Scope.declare_ofArtifact, hrun]
  cases own.declare name unit s.store with
  | mk result store => cases result <;> rfl

/-- The scan of a unit does not see that it is not answered, except that this is reported. -/
theorem oblivious_alone (artifact : ArtifactId) (answers : Bool) (source : SourceUnit) :
    Oblivious source (Unanswered source.unit) (alone artifact answers) where
  stays := inferInstance
  types _ _ := rfl
  dependencies _ := rfl
  report _ h := commutes_report h
  note := inferInstance
  record action h := by
    have : Commutes (Graph.withoutDependencies artifact) action :=
      Graph.commutes_withoutDependencies h
    infer_instance
  resolve {s site} name place h hu := by
    subst hu
    unfold CommutesAt
    rcases h.resolve_cases name place with ⟨id, x, -, -, -, hrun, hrun'⟩ | ⟨-, hrun, hrun'⟩
    · rw [hrun, hrun']
    · rw [hrun, hrun', alone_missing, alone_saying _ rfl]
  known {s t id site name place} h hu hrun := by
    subst hu
    rcases h.resolve_cases name place with ⟨_, x, hx, -, -, hrun', -⟩ | ⟨-, hrun', -⟩
    · cases hrun.symm.trans hrun'
      exact ⟨x, hx⟩
    · cases hrun.symm.trans hrun'
      obtain ⟨_, hx⟩ := get?_missing (s := s.saying (site.unanswered name place)) name
        site.source.unit rfl
      exact ⟨_, hx⟩
  declare name h := h.declare name
  declared h hrun := h.sound.declared_known hrun

end ScanState

end JavaGraph
