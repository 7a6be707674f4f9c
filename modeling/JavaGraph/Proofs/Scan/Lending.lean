import JavaGraph.Proofs.Scan.Boundary
import JavaGraph.Proofs.Scan.Oblivious
/-!
# Scopes that answer for placeholders of others

A scope lists the placeholders that it has made, so that it can release them. While another scope is
open beside it, there are held placeholders that it has not made. `Scope.lending` lets it answer for
those as well, which makes it sound. A scan does not see the difference: nothing is read from the
list, and what comes in comes in behind.
-/

namespace JavaGraph

open JavaGraph.Action

/-- A result in the scope of an artifact, with other placeholders to release. -/
abbrev ArtifactScope.Outcome := Except GraphError (TypeId × ArtifactScope) × Store

namespace ArtifactScope

/-- The scope of an artifact, with other placeholders to release before its own. -/
def lending (extra : List TypeId) (scope : ArtifactScope) : ArtifactScope :=
  { scope with created := extra ++ scope.created }

/-- The same outcome, of a scope with other placeholders to release. -/
def Outcome.lending (extra : List TypeId) (outcome : Outcome) : Outcome :=
  (outcome.1.map fun (id, scope) => (id, scope.lending extra), outcome.2)

variable (extra : List TypeId) (scope : ArtifactScope) (name : QualifiedName) (unit : UnitId)
  (store : Store)

/-- What is required is the same. -/
theorem require_lending :
    (scope.lending extra).require name unit store =
      Outcome.lending extra (scope.require name unit store) := by
  cases hk : scope.known.find? name with
  | some id =>
    have hk' : (scope.lending extra).known.find? name = some id := hk
    rw [require_known hk, require_known hk']
    rfl
  | none =>
    have hk' : (scope.lending extra).known.find? name = none := hk
    unfold require
    simp only [hk, hk']
    cases hr : Store.onGraph (placeholder scope.artifact name unit) store with
    | mk result after =>
      have hr' : Store.onGraph (placeholder (scope.lending extra).artifact name unit) store =
          (result, after) := hr
      cases result with
      | error e =>
        rw [bind_of_error hr, bind_of_error hr']
        rfl
      | ok value =>
        rw [bind_of_ok hr, bind_of_ok hr']
        obtain ⟨id, isNew⟩ := value
        cases isNew <;> simp [lending, Outcome.lending, Pure.pure, Except.map]

/-- What is resolved is the same. -/
theorem resolve_lending :
    (scope.lending extra).resolve name unit store =
      Outcome.lending extra (scope.resolve name unit store) := by
  cases hc : scope.cached? name with
  | some id =>
    have hc' : (scope.lending extra).cached? name = some id := hc
    rw [resolve_cached hc, resolve_cached hc']
    rfl
  | none =>
    have hc' : (scope.lending extra).cached? name = none := hc
    rw [resolve_new hc, resolve_new hc', require_lending]
    have hd : (scope.lending extra).dependencies = scope.dependencies := rfl
    rw [hd]
    generalize (if scope.dependencies.isEmpty then .ok none
      else store.findDeclaredType name scope.dependencies) = found
    obtain e | (_ | id) := found <;> rfl

/-- What is declared is the same. -/
theorem declare_lending :
    (scope.lending extra).declare name unit store =
      Outcome.lending extra (scope.declare name unit store) := by
  obtain ⟨graph, answers⟩ := store
  have ha : (scope.lending extra).artifact = scope.artifact := rfl
  have hk : (scope.lending extra).known = scope.known := rfl
  rw [declare_run, declare_run, ha, hk]
  unfold Outcome.lending
  cases scope.known.find? name with
  | some id =>
    simp only
    cases (Graph.declareType id unit (some scope.artifact) graph).1 <;> rfl
  | none =>
    simp only
    generalize (Graph.declareType _ unit (some scope.artifact) _).1 = result
    cases result <;> rfl

end ArtifactScope

namespace Scope

/-- The scope, with other placeholders to release before its own. -/
def lending (extra : List TypeId) : Scope → Scope
  | .ofArtifact scope => .ofArtifact (scope.lending extra)
  | .global => .global

/-- It is the same universe. -/
@[simp] theorem artifact?_lending (extra : List TypeId) (scope : Scope) :
    (scope.lending extra).artifact? = scope.artifact? := by
  cases scope <;> rfl

end Scope

/-! ### Scans -/

namespace ScanState

/-- The state whose scope has other placeholders to release. -/
def lending (extra : List TypeId) (s : ScanState) : ScanState :=
  { s with scope := s.scope.lending extra }

variable {extra : List TypeId} {s : ScanState}

instance (diagnostic : Diagnostic) : Commutes (lending extra) (report diagnostic) := ⟨fun _ => rfl⟩

instance (source target : TypeId) : Commutes (lending extra) (noteDependency source target) :=
  commutes_noteDependency source target fun _ => rfl

instance {α : Type} (action : GraphAction α) : Commutes (lending extra) (onGraph action) :=
  ⟨fun _ => rfl⟩

/-- A scope does an operation in the same way. -/
private theorem commutes_inScope {operation : Scope → StoreAction (TypeId × Scope)}
    (h : ∀ scope store, operation (scope.lending extra) store =
      ((operation scope store).1.map fun (id, scope) => (id, scope.lending extra),
        (operation scope store).2)) : Commutes (lending extra) (inScope operation) := by
  constructor
  intro s
  have hs : operation (lending extra s).scope (lending extra s).store = _ := h s.scope s.store
  unfold CommutesAt inScope
  rw [hs]
  cases operation s.scope s.store with
  | mk result store => cases result <;> rfl

/-- The scope of an artifact does an operation in the same way. -/
private theorem map_lending {left right : ArtifactScope.Outcome} (h : left = right.lending extra) :
    ((left.1.map fun (id, scope) => (id, Scope.ofArtifact scope), left.2) :
        Except GraphError (TypeId × Scope) × Store) =
      ((right.1.map fun (id, scope) => (id, Scope.ofArtifact scope)).map
        fun (id, scope) => (id, scope.lending extra), right.2) := by
  subst h
  obtain ⟨result, store⟩ := right
  cases result <;> rfl

/-- The global scope lends nothing. -/
private theorem global_lending {action : StoreAction TypeId} {store : Store} :
    (do return (← action, Scope.global) : StoreAction (TypeId × Scope)) store =
      (((do return (← action, Scope.global) : StoreAction (TypeId × Scope)) store).1.map
        fun (id, scope) => (id, scope.lending extra),
      ((do return (← action, Scope.global) : StoreAction (TypeId × Scope)) store).2) := by
  cases hr : action store with
  | mk result after =>
    cases result with
    | ok id =>
      rw [bind_of_ok hr]
      rfl
    | error e =>
      rw [bind_of_error hr]
      rfl

instance (name : QualifiedName) (unit : UnitId) :
    Commutes (lending extra) (inScope (·.resolve name unit)) := by
  refine commutes_inScope fun scope store => ?_
  cases scope with
  | ofArtifact own =>
    change (Scope.ofArtifact _).resolve name unit store = _
    simp only [Scope.resolve_ofArtifact]
    exact map_lending (own.resolve_lending extra name unit store)
  | global => exact global_lending

instance (name : QualifiedName) (unit : UnitId) :
    Commutes (lending extra) (inScope (·.require name unit)) := by
  refine commutes_inScope fun scope store => ?_
  cases scope with
  | ofArtifact own =>
    change (Scope.ofArtifact _).require name unit store = _
    simp only [Scope.require_ofArtifact]
    exact map_lending (own.require_lending extra name unit store)
  | global => exact global_lending

instance (name : QualifiedName) (unit : UnitId) :
    Commutes (lending extra) (inScope (·.declare name unit)) := by
  refine commutes_inScope fun scope store => ?_
  cases scope with
  | ofArtifact own =>
    change (Scope.ofArtifact _).declare name unit store = _
    simp only [Scope.declare_ofArtifact]
    exact map_lending (own.declare_lending extra name unit store)
  | global => exact global_lending

/-- A reference is resolved in the same way. -/
instance (site : ReferenceSite) (name : QualifiedName) (place : Token) :
    Commutes (lending extra) (site.resolve name place) := by
  unfold ReferenceSite.resolve
  have h : Commutes (lending extra) (inScope (·.resolve name site.source.unit)) := inferInstance
  refine ⟨fun s => (h.commutes s).attempt.bind fun result => ?_⟩
  cases result with
  | ok id => infer_instance
  | error e =>
    simp only
    split <;> infer_instance

/-! ### States that are sound if the scope answers for others -/

/-- The scope borrows from its dependencies only, and is sound if it answers for the placeholders of
others. -/
structure Lent (extra : List TypeId) (unit : UnitId) (s : ScanState) : Prop where
  sound : (s.lending extra).Sound unit
  honest : Scope.Honest s.store.graph s.scope

/-- What is done in the same way for others keeps that. -/
private theorem stays_lent {α : Type} {unit : UnitId} {action : ScanAction α}
    (hc : Commutes (lending extra) action) (hs : Keeps (PassesOn unit) action)
    (hh : Keeps StaysHonest action) : Keeps (Stays (Lent extra unit)) action := by
  constructor
  intro s h
  have hsound := hs.keeps _ h.sound
  rw [hc.commutes s] at hsound
  exact ⟨hsound, (hh.keeps s).scope h.honest⟩

instance (unit : UnitId) : Guarantee unit (Stays (Lent extra unit)) :=
  have h : Guarantee unit (PassesOn unit) := inferInstance
  have h' : Guarantee unit StaysHonest := inferInstance
  { report := fun diagnostic => stays_lent inferInstance (h.report diagnostic) (h'.report diagnostic)
    note := fun source target =>
      stays_lent inferInstance (h.note source target) (h'.note source target)
    resolve := fun name => stays_lent inferInstance (h.resolve name) (h'.resolve name)
    require := fun name => stays_lent inferInstance (h.require name) (h'.require name)
    declare := fun name => stays_lent inferInstance (h.declare name) (h'.declare name)
    record := fun action hl hu =>
      stays_lent inferInstance (h.record action hl hu) (h'.record action hl hu)
    mainType := fun type => stays_lent inferInstance (h.mainType type) (h'.mainType type) }

end ScanState

/-- What a sound scope has for a name is known if the scope borrows from its dependencies only. -/
theorem Scope.Honest.known_of_lookup {graph : Graph} {answers : Bool} {scope : Scope}
    {name : QualifiedName} {id : TypeId} (h : Honest graph scope) (hs : Sound graph scope)
    (hl : scope.lookup name ⟨graph, answers⟩ = .ok (some id)) :
    ∃ x, graph.types.get? id = some x := by
  have hquery : ∀ {answer : Graph → Option TypeId},
      (⟨graph, answers⟩ : Store).query answer = .ok (some id) → answer graph = some id := by
    intro answer hq
    unfold Store.query at hq
    split at hq
    · injection hq
    · cases hq
  unfold Scope.lookup at hl
  cases scope with
  | ofArtifact own =>
    simp only at hl
    cases hc : own.cached? name with
    | some known =>
      rw [hc] at hl
      cases hl
      rcases Option.or_eq_some_iff.1 hc with hk | ⟨-, hb⟩
      · obtain ⟨x, hx, -⟩ := (ArtifactScope.Fits.known_iff hs.fits).1 hk
        exact ⟨x, hx⟩
      · obtain ⟨x, -, hx, -⟩ := h.borrowed own name id rfl hb
        exact ⟨x, hx⟩
    | none =>
      rw [hc] at hl
      simp only at hl
      split at hl
      · cases hl
      · obtain ⟨x, -, hx, -⟩ := Graph.declared_of_typeDeclaredInAny? (hquery hl)
        exact ⟨x, hx⟩
  | global =>
    obtain ⟨x, hx, -⟩ := Graph.get?_of_typeIn? (hquery hl)
    exact ⟨x, hx⟩

namespace ScanState

variable {extra : List TypeId} {s t : ScanState}

/-- An honest scope lends honestly. -/
theorem honest_lending (h : Scope.Honest s.store.graph s.scope) :
    Scope.Honest s.store.graph (s.lending extra).scope := by
  obtain ⟨store, scope, diagnostics, dependencies⟩ := s
  cases scope with
  | ofArtifact own => exact h.of_borrowed rfl rfl .inl
  | global => exact h

/-- A reference has a known answer. -/
private theorem Lent.resolve_known {site : ReferenceSite} (h : s.Lent extra site.source.unit)
    {name : QualifiedName} {place : Token} {id : TypeId}
    (hrun : site.resolve name place s = (.ok id, t)) : ∃ x, t.store.graph.types.get? id = some x := by
  have hc : Commutes (lending extra) (site.resolve name place) := inferInstance
  have hlent := hc.commutes s
  unfold CommutesAt at hlent
  rw [hrun] at hlent
  have hsame : ∀ {other after}, site.resolve name place (s.lending extra) = (.ok other, after) →
      id = other ∧ t.store.graph = after.store.graph := by
    intro other after h
    have he := hlent.symm.trans h
    simp only [Prod.mk.injEq, Except.ok.injEq] at he
    obtain ⟨rfl, rfl⟩ := he
    exact ⟨rfl, rfl⟩
  cases hl : (s.lending extra).scope.lookup name (s.lending extra).store with
  | ok found =>
    cases found with
    | some other =>
      obtain ⟨rfl, hg⟩ := hsame (ReferenceSite.resolve_found place hl)
      rw [hg]
      exact (honest_lending h.honest).known_of_lookup h.sound.1 hl
    | none =>
      obtain ⟨rfl, hg⟩ := hsame (ReferenceSite.resolve_missing place h.sound hl).2
      rw [hg]
      obtain ⟨holder, hx⟩ := get?_missing (s := s.lending extra) name site.source.unit rfl
      exact ⟨_, hx⟩
  | error e =>
    rcases ReferenceSite.resolve_unanswered place h.sound hl with ⟨-, -, hrun'⟩ | ⟨-, -, hrun'⟩
    · cases hlent.symm.trans hrun'
    · obtain ⟨rfl, hg⟩ := hsame hrun'
      rw [hg]
      obtain ⟨holder, hx⟩ := get?_missing
        (s := (s.lending extra).saying (site.unanswered name place)) name site.source.unit rfl
      exact ⟨_, hx⟩

/-- The scan of a unit does not see whether its scope answers for others. -/
theorem oblivious_lending (extra : List TypeId) (source : SourceUnit) :
    Oblivious source (Lent extra source.unit) (lending extra) where
  stays := inferInstance
  types _ _ := rfl
  dependencies _ := rfl
  report _ _ := inferInstance
  note := inferInstance
  record _ _ := inferInstance
  resolve {s site} name place _ _ :=
    (inferInstance : Commutes (lending extra) (site.resolve name place)).commutes s
  known h hu hrun := Lent.resolve_known (by rw [hu]; exact h) hrun
  declare {s} name _ :=
    (inferInstance : Commutes (lending extra) (inScope (·.declare name source.unit))).commutes s
  declared {s t id name} h hrun := by
    have hc : Commutes (lending extra) (inScope (·.declare name source.unit)) := inferInstance
    have hlent := hc.commutes s
    unfold CommutesAt at hlent
    rw [hrun] at hlent
    suffices hk : ∃ x, (t.lending extra).store.graph.types.get? id = some x from hk
    exact h.sound.declared_known hlent

end ScanState

end JavaGraph
