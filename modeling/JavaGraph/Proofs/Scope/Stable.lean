import JavaGraph.Proofs.Graph.Names
import JavaGraph.Proofs.Scan.Upheld
import JavaGraph.Proofs.Scope.Answers
/-!
# Answers that nothing changes

The scope of an artifact keeps what it has found in its tables, and the global scope has its answers
in the graph. Whatever is done to the graph, types keep their names and universes, and new ones come
behind those that are there. So a scope that has a type for a name has it until it declares or
requires that very name: a name that was found in a dependency may get a type of its own then.
-/

namespace JavaGraph

open JavaGraph.Action

namespace Graph

variable {graph after : Graph} {name : QualifiedName} {home : Universe} {id : TypeId}

/-! ### Types that last -/

/-- Types keep their names and universes, and what is declared stays so. -/
structure Matures (before after : Graph) : Prop where
  type : ∀ {id x}, before.types.get? id = some x → ∃ y, after.types.get? id = some y ∧
    y.name = x.name ∧ y.home = x.home ∧ (x.isComplete = true → y.isComplete = true)

instance : Action.Guarantee Matures where
  refl _ := ⟨fun hx => ⟨_, hx, rfl, rfl, fun h => h⟩⟩
  trans h h' := ⟨fun hx => by
    obtain ⟨y, hy, hn, hh, hc⟩ := h.type hx
    obtain ⟨z, hz, hn', hh', hc'⟩ := h'.type hy
    exact ⟨z, hz, hn'.trans hn, hh'.trans hh, hc' ∘ hc⟩⟩

/-- Types that persist mature. -/
theorem Matures.of_persists (h : Persists graph after) : Matures graph after := by
  constructor
  intro id x hx
  obtain ⟨y, hy, hn, hh, hs⟩ := h.type hx
  refine ⟨y, hy, hn, hh, fun hc => ?_⟩
  obtain ⟨unit, hu⟩ := TypeNode.isComplete_eq_true.1 hc
  exact TypeNode.isComplete_eq_true.2 ⟨unit, (hs unit hu).1⟩

/-- What does not touch the types lets them mature. -/
theorem Matures.of_types (h : after.types = graph.types) : Matures graph after :=
  ⟨fun hx => ⟨_, h ▸ hx, rfl, rfl, fun h => h⟩⟩

private theorem keeps_of_persists {α : Type} {action : GraphAction α}
    (h : Keeps Persists action) : Keeps Matures action :=
  ⟨fun graph => .of_persists (h.keeps graph)⟩

instance : Upheld Matures where
  addType name home := keeps_of_persists (Placing.addType name home)
  addRequirement unit type := keeps_of_persists (Placing.addRequirement unit type)
  hold id holder := keeps_of_persists (Placing.hold id holder)
  declareType type unit artifact := keeps_of_persists (Upheld.declareType type unit artifact)
  record action hl hu := keeps_of_persists (Upheld.record action hl hu)
  mainType unit type := keeps_of_persists (Upheld.mainType unit type)

/-! ### The oldest type of a name -/

/-- The types of a name in a universe. -/
private def Bears (graph : Graph) (name : String) (home : Universe) (id : TypeId) : Prop :=
  ∃ x, graph.types.get? id = some x ∧ x.name.text = name ∧ x.home = home

/-- A type is tested for a name and a universe. -/
private theorem bears_iff {name : String} :
    graph.Bears name home id ↔
      ((graph.types.get? id).any fun x => x.name.text = name) = true ∧
        ((graph.types.get? id).any fun x => x.home = home) = true := by
  unfold Bears
  cases graph.types.get? id with
  | none => simp
  | some x => simp

/-- The type that is found for a name is the first one that bears it. -/
private theorem typeIn?_eq_some_iff {name : String} :
    graph.typeIn? name home = some id ↔
      graph.Bears name home id ∧ ∀ k, k < id.index → ¬ graph.Bears name home ⟨k⟩ := by
  have hknown : graph.Bears name home id → id.index < graph.types.size := by
    rintro ⟨x, hx, -⟩
    unfold Arena.get? at hx
    exact (Array.getElem?_eq_some_iff.1 hx).1
  obtain ⟨i⟩ := id
  unfold typeIn? typesNamed Arena.idsWhere Arena.ids
  rw [List.find?_filter, List.find?_map]
  simp only [Option.map_eq_some_iff, List.find?_range_eq_some, Id.mk.injEq, exists_eq_right,
    Function.comp_apply, ← bears_iff, decide_eq_true_eq, List.mem_range, Bool.not_eq_true',
    decide_eq_false_iff_not]
  exact ⟨fun ⟨hb, _, hf⟩ => ⟨hb, hf⟩, fun ⟨hb, hf⟩ => ⟨hb, hknown hb, hf⟩⟩

/-- A type that comes before a known one is known. -/
private theorem exists_of_lt {x : TypeNode} {k : Nat} (hx : graph.types.get? id = some x)
    (hk : k < id.index) : ∃ y, graph.types.get? ⟨k⟩ = some y := by
  unfold Arena.get? at hx ⊢
  have hlt := (Array.getElem?_eq_some_iff.1 hx).1
  exact ⟨_, Array.getElem?_eq_getElem (Nat.lt_trans hk hlt)⟩

/-- The type that is found for a name is found ever after. -/
theorem Matures.typeIn? (h : Matures graph after) {name : String}
    (ht : graph.typeIn? name home = some id) : after.typeIn? name home = some id := by
  rw [typeIn?_eq_some_iff] at ht ⊢
  obtain ⟨⟨x, hx, hn, hh⟩, hfirst⟩ := ht
  obtain ⟨y, hy, hny, hhy, -⟩ := h.type hx
  refine ⟨⟨y, hy, hny ▸ hn, hhy.trans hh⟩, fun k hk => ?_⟩
  rintro ⟨z, hz, hnz, hhz⟩
  -- What comes before it was there already, and had another name or universe.
  obtain ⟨w, hw⟩ := exists_of_lt hx hk
  obtain ⟨z', hz', hnz', hhz', -⟩ := h.type hw
  cases hz.symm.trans hz'
  exact hfirst k hk ⟨w, hw, hnz' ▸ hnz, hhz'.symm.trans hhz⟩

/-- A name that no type bears is found once a type is made for it. -/
theorem typeIn?_withType (h : graph.typeIn? name.text home = none) :
    (graph.withType name home).typeIn? name.text home = some graph.types.nextId := by
  rw [typeIn?_eq_some_iff]
  refine ⟨⟨_, get?_withType_nextId .., rfl, rfl⟩, fun k hk => ?_⟩
  rintro ⟨x, hx, hn, hh⟩
  have hne : (⟨k⟩ : TypeId) ≠ graph.types.nextId := by
    rintro he
    exact absurd (congrArg Id.index he) (Nat.ne_of_lt hk)
  unfold withType at hx
  rw [Arena.get?_push, if_neg hne] at hx
  exact ne_of_typeIn?_eq_none h hx hn hh

/-! ### Types that are declared -/

/-- A type of a name is declared in between. -/
def Completes (name : QualifiedName) (before after : Graph) : Prop :=
  ∃ id y, after.types.get? id = some y ∧ y.name = name ∧ y.isComplete = true ∧
    ∀ x, before.types.get? id = some x → x.isComplete = false

/-- What is declared first is declared. -/
theorem Completes.of_earlier {middle : Graph} (h : Completes name graph middle)
    (hm : Matures middle after) : Completes name graph after := by
  obtain ⟨id, y, hy, hn, hc, hnew⟩ := h
  obtain ⟨z, hz, hnz, -, hcz⟩ := hm.type hy
  exact ⟨id, z, hz, hnz.trans hn, hcz hc, hnew⟩

/-- What is declared later was not declared before. -/
theorem Completes.of_later {middle : Graph} (hm : Matures graph middle)
    (h : Completes name middle after) : Completes name graph after := by
  obtain ⟨id, z, hz, hn, hc, hnew⟩ := h
  refine ⟨id, z, hz, hn, hc, fun x hx => ?_⟩
  obtain ⟨y, hy, -, -, hcy⟩ := hm.type hx
  rw [← Bool.not_eq_true]
  intro hcx
  exact absurd (hcy hcx) (by rw [hnew y hy]; decide)

/-- A placeholder that is completed is complete. -/
private theorem complete_of_completeType {x : TypeNode} {unit : UnitId}
    {artifact : Option ArtifactId} (hx : graph.types.get? id = some x)
    (h : completeType id unit artifact graph = (.ok (), after)) :
    ∃ y, after.types.get? id = some y ∧ y.name = x.name ∧ y.isComplete = true := by
  unfold completeType at h
  rw [checkType_bind hx] at h
  split at h
  · cases h
  · rw [eq_of_updateType h]
    refine ⟨{ x with state := .complete unit, artifact }, ?_, rfl, rfl⟩
    rw [Arena.get?_modify, if_pos rfl, hx]
    rfl

/-- A type that is declared is complete. -/
theorem complete_of_declareType {x : TypeNode} {unit : UnitId} {artifact : Option ArtifactId}
    (hx : graph.types.get? id = some x)
    (h : declareType id unit artifact graph = (.ok (), after)) :
    ∃ y, after.types.get? id = some y ∧ y.name = x.name ∧ y.isComplete = true := by
  unfold declareType at h
  rw [checkType_bind hx] at h
  cases hd : x.state.declaredBy with
  | some existing =>
    rw [hd] at h
    cases h
  | none =>
    rw [hd] at h
    obtain ⟨⟨⟩, middle, hc, hrest⟩ := ok_of_bind h
    obtain ⟨y, hy, hn, hcy⟩ := complete_of_completeType hx hc
    have hk : Keeps Persists (do
        releaseRequirement id
        updateUnit unit fun node => { node with declaredTypes := node.declaredTypes ++ [id] }) :=
      inferInstance
    have hm := Matures.of_persists (hk.keeps middle)
    rw [hrest] at hm
    obtain ⟨z, hz, hnz, -, hcz⟩ := hm.type hy
    exact ⟨z, hz, hnz.trans hn, hcz hcy⟩

end Graph

/-! ### Scopes that have a type for a name -/

/-- A result that is there was there before it was changed. -/
private theorem ok_of_map {ε α β σ : Type} {result : Except ε α} {f : α → β} {value : β}
    {left after : σ} (h : (result.map f, left) = (.ok value, after)) :
    ∃ first, result = .ok first ∧ f first = value ∧ left = after := by
  cases result with
  | error e => cases h
  | ok first =>
    cases h
    exact ⟨first, rfl, rfl, rfl⟩

namespace ArtifactScope

variable {scope after : ArtifactScope} {store left : Store} {name : QualifiedName} {id : TypeId}
  {unit : UnitId}

/-- What is required is in the tables from then on, and other names are where they were. -/
private theorem cached?_require (h : scope.require name unit store = (.ok (id, after), left)) :
    after.cached? name = some id ∧
      ∀ other, name ≠ other → after.cached? other = scope.cached? other := by
  cases hk : scope.known.find? name with
  | some known =>
    rw [require_known hk] at h
    cases h
    exact ⟨by rw [cached?, hk, Option.some_or], fun _ _ => rfl⟩
  | none =>
    unfold require at h
    rw [hk] at h
    obtain ⟨⟨new, isNew⟩, middle, -, hrest⟩ := ok_of_bind h
    cases hrest
    constructor
    · rw [cached?, Table.find?_insert, if_pos rfl, Option.some_or]
    · intro other hne
      rw [cached?, Table.find?_insert, if_neg hne]
      rfl

/-- What is resolved is in the tables from then on, and other names are where they were. -/
private theorem cached?_resolve (h : scope.resolve name unit store = (.ok (id, after), left)) :
    after.cached? name = some id ∧
      ∀ other, name ≠ other → after.cached? other = scope.cached? other := by
  cases hc : scope.cached? name with
  | some known =>
    rw [resolve_cached hc] at h
    cases h
    exact ⟨hc, fun _ _ => rfl⟩
  | none =>
    rw [resolve_new hc] at h
    split at h
    · cases h
    · cases h
      constructor
      · rw [cached?, withBorrowed, (Option.or_eq_none_iff.1 hc).1, Option.none_or,
          Table.find?_insert, if_pos rfl]
      · intro other hne
        rw [cached?, withBorrowed, Table.find?_insert, if_neg hne]
        rfl
    · exact cached?_require h

/-- What is declared is in the tables from then on. If it was not there before, a type of the name
has been declared. -/
private theorem known_declare (h : scope.declare name unit store = (.ok (id, after), left)) :
    after = scope.withDeclared name id ∧ (scope.known.find? name = some id ∨
      Graph.Completes name store.graph left.graph) := by
  obtain ⟨graph, answers⟩ := store
  rw [declare_run] at h
  cases hk : scope.known.find? name with
  | some known =>
    rw [hk] at h
    obtain ⟨-, -, he, -⟩ := ok_of_map h
    cases he
    exact ⟨rfl, .inl rfl⟩
  | none =>
    rw [hk] at h
    obtain ⟨⟨⟩, hd, he, rfl⟩ := ok_of_map h
    cases he
    obtain ⟨y, hy, hn, hc⟩ := Graph.complete_of_declareType
      (Graph.get?_withType_nextId graph name _) (Prod.ext hd rfl)
    refine ⟨rfl, .inr ⟨graph.types.nextId, y, hy, hn, hc, fun x hx => ?_⟩⟩
    exact absurd hx (by rw [Arena.get?_nextId]; nofun)

end ArtifactScope

namespace Scope

variable {scope after : Scope} {store left : Store} {graph : Graph} {name other : QualifiedName}
  {id k : TypeId} {unit : UnitId}

/-- A scope has a type for a name: the global one in the graph, that of an artifact by itself. -/
def Holds (graph : Graph) (name : QualifiedName) (id : TypeId) : Scope → Prop
  | .ofArtifact scope => scope.cached? name = some id
  | .global => graph.globalType? name = some id

/-- It does so whatever is done to the graph. -/
theorem Holds.mono {graph' : Graph} (h : scope.Holds graph name id)
    (hm : Graph.Matures graph graph') : scope.Holds graph' name id := by
  cases scope with
  | ofArtifact scope => exact h
  | global => exact hm.typeIn? h

/-- The type is the answer, unless the store does not answer and the scope is the global one. -/
theorem Holds.gives (h : scope.Holds store.graph name id)
    (ha : scope = .global → store.answers = true) : scope.Gives store name id := by
  cases scope with
  | ofArtifact scope => exact h
  | global =>
    change store.query _ = _
    unfold Store.query
    rw [if_pos (ha rfl)]
    exact congrArg Except.ok h

/-- Whatever a scope is asked, types mature. -/
theorem matures_of_run {operation : StoreAction (TypeId × Scope)}
    [hk : Keeps (Store.OnGraph Graph.Matures) operation]
    {result : Except GraphError (TypeId × Scope)} (h : operation store = (result, left)) :
    Graph.Matures store.graph left.graph :=
  hk.of_run h

/-- A scope has the type that it has resolved a name to. -/
theorem holds_of_resolve (h : scope.resolve name unit store = (.ok (id, after), left)) :
    after.Holds left.graph name id := by
  cases scope with
  | ofArtifact own =>
    rw [resolve_ofArtifact] at h
    obtain ⟨⟨found, own'⟩, hr, he, -⟩ := ok_of_map h
    cases he
    exact (ArtifactScope.cached?_resolve (Prod.ext hr rfl)).1
  | global =>
    rw [resolve_global] at h
    obtain ⟨found, hr, he, hl⟩ := ok_of_map h
    cases he
    obtain ⟨graph, answers⟩ := store
    have hrun : GlobalScope.resolve name ⟨graph, answers⟩ = (.ok id, left) := Prod.ext hr hl
    rw [GlobalScope.resolve_run] at hrun
    split at hrun
    · split at hrun
      · next hg =>
        cases hrun
        exact hg
      · next hg =>
        cases hrun
        exact Graph.typeIn?_withType hg
    · cases hrun

/-- A scope keeps what it has when a name is resolved. -/
theorem Holds.resolve (h : scope.Holds store.graph other id)
    (hr : scope.resolve name unit store = (.ok (k, after), left)) :
    after.Holds left.graph other id := by
  have hm := matures_of_run hr
  cases scope with
  | ofArtifact own =>
    have hc : own.cached? other = some id := h
    rw [resolve_ofArtifact] at hr
    obtain ⟨⟨found, own'⟩, hrun, he, -⟩ := ok_of_map hr
    cases he
    have hrun : own.resolve name unit store = (.ok (k, own'), _) := Prod.ext hrun rfl
    by_cases hne : name = other
    · subst hne
      rw [ArtifactScope.resolve_cached hc] at hrun
      cases hrun
      exact hc
    · exact ((ArtifactScope.cached?_resolve hrun).2 other hne).trans hc
  | global =>
    rw [resolve_global] at hr
    obtain ⟨found, -, he, -⟩ := ok_of_map hr
    cases he
    exact h.mono hm

/-- A scope does not fail to resolve what it has a type for, unless it is the global one. -/
theorem Holds.ne_of_error {e : GraphError} (h : scope.Holds store.graph other id)
    (hr : scope.resolve name unit store = (.error e, left)) : scope = .global ∨ name ≠ other := by
  cases scope with
  | global => exact .inl rfl
  | ofArtifact own =>
    right
    rintro rfl
    have hg := (h.gives nofun).resolve unit
    cases hg.symm.trans hr

/-- A scope keeps what it has when another name is required. In the global scope it does so in any
case. -/
theorem Holds.require (h : scope.Holds store.graph other id)
    (hne : scope = .global ∨ name ≠ other)
    (hr : scope.require name unit store = (.ok (k, after), left)) :
    after.Holds left.graph other id := by
  cases scope with
  | ofArtifact own =>
    have hc : own.cached? other = some id := h
    rw [require_ofArtifact] at hr
    obtain ⟨⟨found, own'⟩, hrun, he, -⟩ := ok_of_map hr
    cases he
    have hne := hne.resolve_left nofun
    exact ((ArtifactScope.cached?_require (Prod.ext hrun rfl)).2 other hne).trans hc
  | global =>
    rw [require_global] at hr
    exact h.resolve hr

/-- A scope keeps what it has when a name is declared, unless a type of that name is declared. -/
theorem Holds.declare (h : scope.Holds store.graph other id)
    (hr : scope.declare name unit store = (.ok (k, after), left)) :
    after.Holds left.graph other id ∨
      name = other ∧ Graph.Completes other store.graph left.graph := by
  have hm := matures_of_run hr
  cases scope with
  | ofArtifact own =>
    have hc : own.cached? other = some id := h
    rw [declare_ofArtifact] at hr
    obtain ⟨⟨found, own'⟩, hrun, he, hl⟩ := ok_of_map hr
    cases he
    obtain ⟨rfl, hk⟩ := ArtifactScope.known_declare (Prod.ext hrun hl)
    have hfind : ((own.withDeclared name k).known.find? other) =
        if name = other then some k else own.known.find? other := Table.find?_insert ..
    by_cases hne : name = other
    · subst hne
      obtain hk | hk := hk
      · left
        rw [ArtifactScope.cached?, hk, Option.some_or] at hc
        change ((own.withDeclared name k).known.find? name).or _ = _
        rw [hfind, if_pos rfl, Option.some_or, hc]
      · exact .inr ⟨rfl, hk⟩
    · left
      change ((own.withDeclared name k).known.find? other).or _ = _
      rw [hfind, if_neg hne]
      exact hc
  | global =>
    rw [declare_global] at hr
    obtain ⟨found, -, he, -⟩ := ok_of_map hr
    cases he
    exact .inl (h.mono hm)

/-- A scope has one type for a name. -/
theorem Holds.unique (h : scope.Holds graph name id) (h' : scope.Holds graph name k) : id = k := by
  cases scope with
  | ofArtifact own => exact Option.some.inj (h.symm.trans h')
  | global => exact Option.some.inj (h.symm.trans h')

/-- The type that a scope has for a name is what it resolves the name to. -/
theorem Holds.eq_of_resolve (h : scope.Holds store.graph name id)
    (hr : scope.resolve name unit store = (.ok (k, after), left)) : k = id :=
  (holds_of_resolve hr).unique (h.resolve hr)

end Scope

end JavaGraph
