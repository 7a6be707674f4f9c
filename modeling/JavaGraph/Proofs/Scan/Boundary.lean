import JavaGraph.Proofs.Scan.Settled
import JavaGraph.Proofs.Scope.Passage
/-!
# What a scope may refer to

A scope borrows only types that are declared in one of its direct dependencies. With that a file
refers to types of its own universe, and to declared types of what its artifact depends on, and to
nothing else.
-/

namespace JavaGraph

open JavaGraph.Action

namespace Graph

/-- A type is declared in a direct dependency of an artifact. -/
def Offers (graph : Graph) (artifact : ArtifactId) (id : TypeId) : Prop :=
  ∃ x owner, graph.types.get? id = some x ∧ x.isComplete = true ∧ x.artifact = some owner ∧
    owner ∈ graph.dependenciesOf (some artifact)

/-- What types of a universe may refer to: types of the same universe, and what is declared in the
direct dependencies if the universe is an artifact. -/
def Admits (graph : Graph) (home : Universe) (id : TypeId) : Prop :=
  (∃ x, graph.types.get? id = some x ∧ x.home = home) ∨
    ∃ artifact, home = some artifact ∧ graph.Offers artifact id

/-- Everything that a type refers to is admitted in its universe. -/
def Bounded (graph : Graph) : Prop :=
  ∀ id x, graph.types.get? id = some x → graph.Within (graph.Admits x.home) x

variable {graph after : Graph} {artifact : ArtifactId} {home : Universe} {id : TypeId}

/-- Declared types stay declared, types keep their universes, and dependencies stay. -/
structure Widens (before after : Graph) : Prop where
  known : ∀ {id x}, before.types.get? id = some x →
    ∃ y, after.types.get? id = some y ∧ y.home = x.home
  declared : ∀ {id x}, before.types.get? id = some x → x.isComplete = true →
    ∃ y, after.types.get? id = some y ∧ y.isComplete = true ∧ y.artifact = x.artifact
  dependencies : ∀ artifact, before.dependenciesOf artifact ⊆ after.dependenciesOf artifact

/-- Nothing has changed. -/
theorem Widens.refl (graph : Graph) : Widens graph graph :=
  ⟨fun hx => ⟨_, hx, rfl⟩, fun hx hc => ⟨_, hx, hc, rfl⟩, fun _ => List.Subset.refl _⟩

/-- A graph widens more and more. -/
theorem Widens.trans {middle : Graph} (h : Widens graph middle) (h' : Widens middle after) :
    Widens graph after where
  known hx := by
    obtain ⟨y, hy, hh⟩ := h.known hx
    obtain ⟨z, hz, hh'⟩ := h'.known hy
    exact ⟨z, hz, hh'.trans hh⟩
  declared hx hc := by
    obtain ⟨y, hy, hcy, ha⟩ := h.declared hx hc
    obtain ⟨z, hz, hcz, ha'⟩ := h'.declared hy hcy
    exact ⟨z, hz, hcz, ha'.trans ha⟩
  dependencies artifact := List.Subset.trans (h.dependencies artifact) (h'.dependencies artifact)

/-- What persists widens. -/
theorem Persists.widens (h : Persists graph after) : Widens graph after where
  known hx := by
    obtain ⟨y, hy, -, hh, -⟩ := h.type hx
    exact ⟨y, hy, hh⟩
  declared hx hc := by
    obtain ⟨unit, hs⟩ := TypeNode.isComplete_eq_true.1 hc
    obtain ⟨y, hy, -, -, hd⟩ := h.type hx
    obtain ⟨hsy, ha⟩ := hd unit hs
    exact ⟨y, hy, TypeNode.isComplete_eq_true.2 ⟨unit, hsy⟩, ha⟩
  dependencies artifact := by
    unfold dependenciesOf
    rw [h.artifacts]
    exact List.Subset.refl _

/-- What a unit that declares nothing yet brings in widens. -/
theorem Since.widens {unit : UnitId} (h : Since unit home graph after)
    (hn : ∀ {id x}, graph.types.get? id = some x → x.state ≠ .complete unit) :
    Widens graph after where
  known hx := by
    obtain ⟨y, hy, -, hh⟩ := h.known hx
    exact ⟨y, hy, hh⟩
  declared hx hc := ⟨_, h.foreign hx hc (hn hx), hc, rfl⟩
  dependencies artifact := by
    rw [h.dependencies]
    exact List.Subset.refl _

/-- What is offered stays offered. -/
theorem Offers.mono (h : graph.Offers artifact id) (hw : Widens graph after) :
    after.Offers artifact id := by
  obtain ⟨x, owner, hx, hc, ha, ho⟩ := h
  obtain ⟨y, hy, hcy, hay⟩ := hw.declared hx hc
  exact ⟨y, owner, hy, hcy, hay.trans ha, hw.dependencies _ ho⟩

/-- What is admitted stays admitted. -/
theorem Admits.mono (h : graph.Admits home id) (hw : Widens graph after) :
    after.Admits home id := by
  rcases h with ⟨x, hx, hh⟩ | ⟨artifact, rfl, ho⟩
  · obtain ⟨y, hy, hhy⟩ := hw.known hx
    exact .inl ⟨y, hy, hhy.trans hh⟩
  · exact .inr ⟨artifact, rfl, ho.mono hw⟩

/-- A query in artifacts finds what one of them declares. -/
theorem declared_of_typeDeclaredInAny? {name : QualifiedName} {artifacts : List ArtifactId}
    (h : graph.typeDeclaredInAny? name artifacts = some id) :
    ∃ x owner, graph.types.get? id = some x ∧ x.isComplete = true ∧ x.artifact = some owner ∧
      owner ∈ artifacts := by
  obtain ⟨owner, hm, hf⟩ := List.exists_of_findSome?_eq_some h
  have hp := List.find?_some hf
  rw [Option.any_eq_true] at hp
  obtain ⟨x, hx, hp⟩ := hp
  rw [Bool.and_eq_true, decide_eq_true_eq] at hp
  exact ⟨x, owner, hx, hp.1, hp.2, hm⟩

end Graph

/-! ### Scopes -/

namespace Scope

/-- A scope looks into direct dependencies of its artifact only, and has borrowed only what these
declare. -/
structure Honest (graph : Graph) (scope : Scope) : Prop where
  dependencies : ∀ own, scope = .ofArtifact own →
    own.dependencies ⊆ graph.dependenciesOf (some own.artifact)
  borrowed : ∀ own name id, scope = .ofArtifact own → own.borrowed.find? name = some id →
    graph.Offers own.artifact id

variable {graph after : Graph} {scope scope' : Scope}

/-- A scope stays honest while the graph widens. -/
theorem Honest.mono (h : Honest graph scope) (hw : Graph.Widens graph after) :
    Honest after scope where
  dependencies own hs := List.Subset.trans (h.dependencies own hs) (hw.dependencies _)
  borrowed own name id hs hb := (h.borrowed own name id hs hb).mono hw

/-- The global scope borrows nothing. -/
theorem honest_global (graph : Graph) : Honest graph .global := ⟨nofun, nofun⟩

/-- A scope is as honest as another one that may have borrowed more. -/
theorem Honest.of_borrowed {own own' : ArtifactScope} (h : Honest graph (.ofArtifact own))
    (ha : own'.artifact = own.artifact) (hd : own'.dependencies = own.dependencies)
    (hb : ∀ {name id}, own'.borrowed.find? name = some id →
      own.borrowed.find? name = some id ∨ graph.Offers own.artifact id) :
    Honest graph (.ofArtifact own') where
  dependencies := by
    intro _ hs
    cases hs
    rw [ha, hd]
    exact h.dependencies own rfl
  borrowed := by
    intro _ name id hs hf
    cases hs
    rw [ha]
    rcases hb hf with hf | ho
    · exact h.borrowed own name id rfl hf
    · exact ho

/-- A requirement borrows nothing. -/
private theorem borrowed_require {own own' : ArtifactScope} {name : QualifiedName} {unit : UnitId}
    {id : TypeId} {store store' : Store}
    (h : own.require name unit store = (.ok (id, own'), store')) :
    own'.artifact = own.artifact ∧ own'.dependencies = own.dependencies ∧
      own'.borrowed = own.borrowed := by
  unfold ArtifactScope.require at h
  cases hk : own.known.find? name with
  | some known =>
    rw [hk] at h
    cases h
    exact ⟨rfl, rfl, rfl⟩
  | none =>
    rw [hk] at h
    obtain ⟨_, _, -, h⟩ := ok_of_bind h
    cases h
    exact ⟨rfl, rfl, rfl⟩

/-- A requirement keeps a scope honest. -/
private theorem honest_require {name : QualifiedName} {unit : UnitId} {id : TypeId}
    {store store' : Store} (h : Honest graph scope)
    (hr : scope.require name unit store = (.ok (id, scope'), store')) : Honest graph scope' := by
  unfold Scope.require at hr
  cases scope with
  | global =>
    obtain ⟨_, _, -, hr⟩ := ok_of_bind hr
    cases hr
    exact h
  | ofArtifact own =>
    obtain ⟨_, _, ho, hr⟩ := ok_of_bind hr
    cases hr
    obtain ⟨ha, hd, hb⟩ := borrowed_require ho
    exact h.of_borrowed ha hd fun hf => .inl (hb ▸ hf)

/-- A declaration keeps a scope honest. -/
private theorem honest_declare {name : QualifiedName} {unit : UnitId} {id : TypeId}
    {store store' : Store} (h : Honest graph scope)
    (hr : scope.declare name unit store = (.ok (id, scope'), store')) : Honest graph scope' := by
  unfold Scope.declare at hr
  cases scope with
  | global =>
    obtain ⟨_, _, -, hr⟩ := ok_of_bind hr
    cases hr
    exact h
  | ofArtifact own =>
    obtain ⟨_, _, ho, hr⟩ := ok_of_bind hr
    cases hr
    unfold ArtifactScope.declare at ho
    cases hk : own.known.find? name <;> rw [hk] at ho <;>
    · obtain ⟨_, _, -, ho⟩ := ok_of_bind ho
      obtain ⟨_, _, -, ho⟩ := ok_of_bind ho
      cases ho
      exact h.of_borrowed rfl rfl .inl

/-- What a query in the dependencies finds is offered by one of them. -/
private theorem offers_of_find {own : ArtifactScope} {name : QualifiedName} {id : TypeId}
    {store : Store} (h : Honest store.graph (.ofArtifact own))
    (hf : (if own.dependencies.isEmpty then .ok none
      else store.findDeclaredType name own.dependencies) = .ok (some id)) :
    store.graph.Offers own.artifact id := by
  split at hf
  · cases hf
  · unfold Store.findDeclaredType Store.query at hf
    split at hf
    · injection hf with hf
      obtain ⟨x, owner, hx, hc, ha, hm⟩ := Graph.declared_of_typeDeclaredInAny? hf
      exact ⟨x, owner, hx, hc, ha, h.dependencies own rfl hm⟩
    · cases hf

/-- A scope that resolves a name borrows only what a dependency declares. -/
private theorem honest_resolve {name : QualifiedName} {unit : UnitId} {id : TypeId}
    {store store' : Store} (h : Honest store.graph scope)
    (hr : scope.resolve name unit store = (.ok (id, scope'), store')) :
    Honest store.graph scope' := by
  unfold Scope.resolve at hr
  cases scope with
  | global =>
    obtain ⟨_, _, -, hr⟩ := ok_of_bind hr
    cases hr
    exact h
  | ofArtifact own =>
    obtain ⟨_, _, ho, hr⟩ := ok_of_bind hr
    cases hr
    cases hc : own.cached? name with
    | some known =>
      rw [ArtifactScope.resolve_cached hc] at ho
      cases ho
      exact h
    | none =>
      rw [ArtifactScope.resolve_new hc] at ho
      split at ho
      · cases ho
      · next other hf =>
        cases ho
        refine h.of_borrowed rfl rfl fun {key k} hb => ?_
        change (own.borrowed.insert name other).find? key = some k at hb
        rw [Table.find?_insert] at hb
        split at hb
        · cases hb
          exact .inr (offers_of_find h hf)
        · exact .inl hb
      · obtain ⟨ha, hd, hb⟩ := borrowed_require ho
        exact h.of_borrowed ha hd fun hf => .inl (hb ▸ hf)

/-- A scope that is entered has the dependencies of its artifact, and has borrowed nothing. -/
theorem honest_enter (hc : graph.Consistent) (hv : graph.Covered) {artifact : Option ArtifactId}
    (h : Scope.enter graph artifact = .ok scope) : Honest graph scope := by
  unfold Scope.enter at h
  cases artifact with
  | none =>
    cases h
    exact honest_global graph
  | some artifact =>
    cases hn : graph.artifacts.get? artifact with
    | none => simp [ArtifactScope.enter, Arena.get, hn, bind, Except.bind] at h
    | some node =>
      obtain ⟨known, hrun, -⟩ := ArtifactScope.enter_ok hc hv hn
      simp only [hrun] at h
      cases h
      constructor
      · intro own hs
        cases hs
        simp [Graph.dependenciesOf, hn]
      · intro own name id hs hb
        cases hs
        cases hb

end Scope

/-! ### Scans -/

/-- A scope is as honest when the scan of a new unit begins. -/
theorem OpenProject.honest_initial (opened : OpenProject) (hc : opened.store.graph.Consistent)
    (h : Scope.Honest opened.store.graph opened.scope) (file : FileId) (path : String)
    (parsed : ParsedSource) :
    Scope.Honest (opened.initial file path parsed).store.graph opened.scope :=
  h.mono ((since_withSource _ _ _ opened.scope.artifact? _ _).widens (Twins.declares_nothing hc))

namespace ScanState

/-- Types persist, and a scope that borrows only from its dependencies goes on to do so. -/
structure StaysHonest (before after : ScanState) : Prop where
  persists : Graph.Persists before.store.graph after.store.graph
  scope : Scope.Honest before.store.graph before.scope → Scope.Honest after.store.graph after.scope

instance : Action.Guarantee StaysHonest where
  refl _ := ⟨Guarantee.refl _, id⟩
  trans h h' := ⟨Guarantee.trans h.persists h'.persists, h'.scope ∘ h.scope⟩

/-- The scope is as it was. -/
private theorem StaysHonest.of_scope {before after : ScanState}
    (h : Graph.Persists before.store.graph after.store.graph) (hs : after.scope = before.scope) :
    StaysHonest before after :=
  ⟨h, fun hh => hs ▸ hh.mono h.widens⟩

private theorem staysHonest_inScope {operation : Scope → StoreAction (TypeId × Scope)}
    (hk : ∀ scope, Keeps (Store.OnGraph Graph.Persists) (operation scope))
    (ho : ∀ {scope scope' store store' id}, Scope.Honest store.graph scope →
      operation scope store = (.ok (id, scope'), store') → Scope.Honest store.graph scope') :
    Keeps StaysHonest (inScope operation) := by
  constructor
  intro state
  have hp := (hk state.scope).keeps state.store
  unfold inScope
  cases hr : operation state.scope state.store with
  | mk result store =>
    rw [hr] at hp
    cases result with
    | ok value => exact ⟨hp, fun hh => (ho hh hr).mono (Graph.Persists.widens hp)⟩
    | error e => exact .of_scope hp rfl

instance (unit : UnitId) : Guarantee unit StaysHonest where
  report _ := ⟨fun _ => .of_scope (Guarantee.refl _) rfl⟩
  note source target := by
    constructor
    intro state
    unfold noteDependency
    split <;> exact .of_scope (Guarantee.refl _) rfl
  resolve _ := staysHonest_inScope inferInstance Scope.honest_resolve
  require _ := staysHonest_inScope inferInstance Scope.honest_require
  declare _ := staysHonest_inScope inferInstance Scope.honest_declare
  record action hl hu :=
    ⟨fun state => .of_scope ((Graph.Upheld.record (R := Graph.Persists) action hl hu).keeps
      state.store.graph) rfl⟩
  mainType type :=
    ⟨fun state => .of_scope ((Graph.Upheld.mainType (R := Graph.Persists) unit type).keeps
      state.store.graph) rfl⟩

end ScanState

end JavaGraph
