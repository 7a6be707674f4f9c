import JavaGraph.Proofs.Graph.Since
import JavaGraph.Proofs.Scope.Lifecycle
/-!
# How a scope answers

To resolve a name, a scope looks up what it has for it. If it has a type, nothing changes. If it
has none, a placeholder comes in. If the store does not answer, the scope of an artifact can still
do without it, and the global one cannot. `Scope.lookup` is that first look. It depends on nothing
but the names and states of the types.
-/

namespace JavaGraph

variable {graph graph' : Graph} {answers : Bool} {name : QualifiedName} {unit : UnitId}

/-! ### Names and states -/

namespace Graph

/-- Two graphs have types of the same names and states. -/
def SameTypes (graph graph' : Graph) : Prop :=
  ∀ id, (graph.types.get? id).map TypeNode.ledger = (graph'.types.get? id).map TypeNode.ledger

namespace SameTypes

/-- A known type is known in both graphs. -/
theorem get? (h : SameTypes graph graph') {id : TypeId} {x : TypeNode}
    (hx : graph.types.get? id = some x) :
    ∃ y, graph'.types.get? id = some y ∧ y.name = x.name ∧ y.home = x.home ∧
      y.state.declaredBy = x.state.declaredBy := by
  have he := h id
  rw [hx] at he
  obtain ⟨y, hy, hl⟩ := Option.map_eq_some_iff.1 he.symm
  simp only [TypeNode.ledger, Prod.mk.injEq] at hl
  exact ⟨y, hy, hl.1, hl.2.1, hl.2.2.1⟩

/-- Both graphs have as many types. -/
theorem size_eq (h : SameTypes graph graph') : graph.types.size = graph'.types.size := by
  have hle : ∀ {a b : Graph}, SameTypes a b → a.types.size ≤ b.types.size := by
    intro a b hab
    by_contra hlt
    have hlt' : b.types.nextId.index < a.types.nodes.size := by
      change ¬ a.types.nodes.size ≤ b.types.size at hlt
      change b.types.size < _
      omega
    obtain ⟨y, hy, -⟩ := hab.get? (Array.getElem?_eq_getElem hlt')
    rw [Arena.get?_nextId] at hy
    cases hy
  exact Nat.le_antisymm (hle h) (hle fun id => (h id).symm)

/-- The next type gets the same identifier in both. -/
theorem nextId_eq (h : SameTypes graph graph') : graph.types.nextId = graph'.types.nextId := by
  unfold Arena.nextId
  rw [h.size_eq]

/-- What is read off the names and states is the same in both. -/
private theorem any_eq (h : SameTypes graph graph') {p : TypeNode → Bool}
    {q : QualifiedName × Universe × Option UnitId × Option ArtifactId → Bool}
    (hp : ∀ x, p x = q x.ledger) (id : TypeId) :
    (graph.types.get? id).any p = (graph'.types.get? id).any p := by
  have he := h id
  cases hx : graph.types.get? id with
  | none =>
    rw [hx] at he
    rw [Option.map_eq_none_iff.1 he.symm]
  | some x =>
    rw [hx] at he
    obtain ⟨y, hy, hl⟩ := Option.map_eq_some_iff.1 he.symm
    rw [hy, Option.any_some, Option.any_some, hp, hp, hl]

/-- The same types have a name. -/
theorem typesNamed_eq (h : SameTypes graph graph') (name : String) :
    graph.typesNamed name = graph'.typesNamed name := by
  unfold Graph.typesNamed Arena.idsWhere Arena.ids
  rw [h.size_eq]
  congr 1
  funext id
  exact h.any_eq (q := fun l => l.1.text = name) (fun _ => rfl) id

/-- The same type has a name in a universe. -/
theorem typeIn?_eq (h : SameTypes graph graph') (name : String) (home : Universe) :
    graph.typeIn? name home = graph'.typeIn? name home := by
  unfold Graph.typeIn?
  rw [h.typesNamed_eq]
  congr 1
  funext id
  exact h.any_eq (q := fun l => l.2.1 = home) (fun _ => rfl) id

/-- The same type with a name is declared in an artifact. -/
theorem typeDeclaredIn?_eq (h : SameTypes graph graph') (name : QualifiedName)
    (artifact : ArtifactId) : graph.typeDeclaredIn? name artifact =
      graph'.typeDeclaredIn? name artifact := by
  unfold Graph.typeDeclaredIn?
  rw [h.typesNamed_eq]
  congr 1
  funext id
  refine h.any_eq (q := fun l => l.2.2.1.isSome && l.2.2.2 = some artifact) ?_ id
  intro x
  rw [TypeNode.isComplete_eq_isSome]
  rfl

end SameTypes

/-- A placeholder comes in for a name that a universe lacks; in an artifact the unit requires it. -/
def withMissing (graph : Graph) (name : QualifiedName) (home : Universe) (unit : UnitId) : Graph :=
  match home with
  | some artifact => graph.withPlaceholder artifact name unit
  | none => graph.withType name none

/-- The placeholder takes the next identifier. -/
theorem get?_withMissing (graph : Graph) (name : QualifiedName) (home : Universe) (unit : UnitId) :
    ∃ holder, ∀ k, (graph.withMissing name home unit).types.get? k =
      if k = graph.types.nextId then some (blank name home (.incomplete holder))
      else graph.types.get? k := by
  cases home with
  | some artifact => exact ⟨some unit, fun k => Arena.get?_push ..⟩
  | none => exact ⟨none, fun k => Arena.get?_push ..⟩

/-- Only the placeholder comes in. -/
theorem placed_withMissing (graph : Graph) (unit : UnitId) (name : QualifiedName)
    (home : Universe) : Since.Placed unit home graph (graph.withMissing name home unit) := by
  cases home with
  | some artifact => exact .withPlaceholder graph unit artifact name
  | none => exact .withType graph unit name none

/-- A placeholder comes in, in both graphs. -/
theorem SameTypes.withMissing (h : SameTypes graph graph') (name : QualifiedName)
    (home : Universe) (unit : UnitId) :
    SameTypes (graph.withMissing name home unit) (graph'.withMissing name home unit) := by
  intro k
  obtain ⟨holder, hk⟩ := get?_withMissing graph name home unit
  obtain ⟨holder', hk'⟩ := get?_withMissing graph' name home unit
  rw [hk, hk', h.nextId_eq]
  split
  · rfl
  · exact h k

end Graph

/-! ### What a scope has -/

namespace Scope

/-- What a scope has for a name, before anything is made. -/
def lookup (scope : Scope) (name : QualifiedName) (store : Store) :
    Except GraphError (Option TypeId) :=
  match scope with
  | .ofArtifact scope =>
    match scope.cached? name with
    | some id => .ok (some id)
    | none =>
      if scope.dependencies.isEmpty then .ok none
      else store.findDeclaredType name scope.dependencies
  | .global => store.findGlobalType name

/-- The scope that has found a type. -/
def withFound (scope : Scope) (name : QualifiedName) (id : TypeId) : Scope :=
  match scope with
  | .ofArtifact scope =>
    match scope.cached? name with
    | some _ => .ofArtifact scope
    | none => .ofArtifact (scope.withBorrowed name id)
  | .global => .global

/-- The scope that has made a placeholder. -/
def withCreated (scope : Scope) (name : QualifiedName) (id : TypeId) : Scope :=
  match scope with
  | .ofArtifact scope => .ofArtifact (scope.withCreated name id)
  | .global => .global

/-- It is the same universe. -/
@[simp] theorem artifact?_withFound (scope : Scope) (name : QualifiedName) (id : TypeId) :
    (scope.withFound name id).artifact? = scope.artifact? := by
  cases scope with
  | ofArtifact scope =>
    unfold withFound
    simp only
    split <;> rfl
  | global => rfl

/-- It is the same universe. -/
@[simp] theorem artifact?_withCreated (scope : Scope) (name : QualifiedName) (id : TypeId) :
    (scope.withCreated name id).artifact? = scope.artifact? := by
  cases scope <;> rfl

variable {scope : Scope} {store : Store}

/-- A scope has the same for a name in graphs of the same types. -/
theorem lookup_eq (h : Graph.SameTypes graph graph') (scope : Scope) (name : QualifiedName) :
    scope.lookup name ⟨graph, answers⟩ = scope.lookup name ⟨graph', answers⟩ := by
  have hd : graph.typeDeclaredIn? name = graph'.typeDeclaredIn? name :=
    funext (h.typeDeclaredIn?_eq name)
  unfold lookup Store.findDeclaredType Store.findGlobalType Store.query Graph.globalType?
    Graph.typeDeclaredInAny?
  simp only [h.typeIn?_eq, hd]

/-- An answer comes from a store that answers. -/
private theorem answers_of_findGlobalType {result : Option TypeId}
    (h : (⟨graph, answers⟩ : Store).findGlobalType name = .ok result) :
    answers = true ∧ graph.globalType? name = result := by
  unfold Store.findGlobalType Store.query at h
  cases answers with
  | false => cases h
  | true =>
    injection h with hg
    exact ⟨rfl, hg⟩

/-- No answer comes from a store that does not answer. -/
private theorem isStoreFailure_of_query {α : Type} {answer : Graph → α} {e : GraphError}
    (h : store.query answer = .error e) :
    store.answers = false ∧ e = .queryFailed "connection reset" := by
  unfold Store.query at h
  split at h
  · cases h
  · next hn =>
    injection h with he
    exact ⟨by simpa using hn, he.symm⟩

/-- A type that is found is the answer. -/
theorem resolve_found {id : TypeId} (h : scope.lookup name store = .ok (some id)) :
    scope.resolve name unit store = (.ok (id, scope.withFound name id), store) := by
  unfold lookup at h
  unfold withFound
  cases scope with
  | ofArtifact scope =>
    rw [resolve_ofArtifact]
    simp only at h ⊢
    cases hc : scope.cached? name with
    | some known =>
      rw [hc] at h
      cases h
      rw [ArtifactScope.resolve_cached hc]
      rfl
    | none =>
      rw [hc] at h
      simp only at h
      rw [ArtifactScope.resolve_new hc, h]
      rfl
  | global =>
    obtain ⟨graph, answers⟩ := store
    rw [resolve_global, GlobalScope.resolve_run]
    obtain ⟨rfl, hg⟩ := answers_of_findGlobalType h
    simp only [if_pos, hg]
    rfl

/-- What a scope does not know its universe lacks. -/
private theorem lacks_of_cached? {scope : ArtifactScope} (hs : Sound graph (.ofArtifact scope))
    (hc : scope.cached? name = none) :
    scope.known.find? name = none ∧ graph.Lacks name (some scope.artifact) := by
  have hk : scope.known.find? name = none := by
    unfold ArtifactScope.cached? at hc
    exact (Option.or_eq_none_iff.1 hc).1
  exact ⟨hk, ArtifactScope.Fits.lacks hs.fits hk⟩

/-- A name without a type gets a placeholder. -/
theorem resolve_missing (hs : Sound graph scope) (hu : Serves graph scope unit)
    (h : scope.lookup name ⟨graph, answers⟩ = .ok none) :
    graph.Lacks name scope.artifact? ∧ scope.resolve name unit ⟨graph, answers⟩ =
      (.ok (graph.types.nextId, scope.withCreated name graph.types.nextId),
        ⟨graph.withMissing name scope.artifact? unit, answers⟩) := by
  obtain ⟨source, hu, -⟩ := hu
  unfold lookup at h
  cases scope with
  | ofArtifact scope =>
    rw [resolve_ofArtifact]
    simp only at h
    cases hc : scope.cached? name with
    | some known =>
      rw [hc] at h
      cases h
    | none =>
      rw [hc] at h
      simp only at h
      obtain ⟨hk, hl⟩ := lacks_of_cached? hs hc
      refine ⟨hl, ?_⟩
      rw [ArtifactScope.resolve_new hc, h]
      simp only
      rw [ArtifactScope.require_new hk hl hu]
      rfl
  | global =>
    rw [resolve_global, GlobalScope.resolve_run]
    obtain ⟨rfl, hg⟩ := answers_of_findGlobalType h
    refine ⟨Graph.lacks_of_typeIn? hg, ?_⟩
    simp only [if_pos, hg]
    rfl

/-- If the store does not answer, neither does the scope. -/
theorem resolve_failed {e : GraphError} (h : scope.lookup name store = .error e) :
    e.isStoreFailure = true ∧ scope.resolve name unit store = (.error e, store) := by
  unfold lookup at h
  cases scope with
  | ofArtifact scope =>
    rw [resolve_ofArtifact]
    simp only at h
    cases hc : scope.cached? name with
    | some known =>
      rw [hc] at h
      cases h
    | none =>
      rw [hc] at h
      simp only at h
      rw [ArtifactScope.resolve_new hc, h]
      refine ⟨?_, rfl⟩
      split at h
      · cases h
      · obtain ⟨-, rfl⟩ := isStoreFailure_of_query h
        rfl
  | global =>
    obtain ⟨graph, answers⟩ := store
    rw [resolve_global, GlobalScope.resolve_run]
    obtain ⟨ha, rfl⟩ := isStoreFailure_of_query h
    obtain rfl : answers = false := ha
    exact ⟨rfl, rfl⟩

/-- The scope of an artifact can do without the store. -/
theorem require_failed {e : GraphError} (hs : Sound graph scope) (hu : Serves graph scope unit)
    (h : scope.lookup name ⟨graph, answers⟩ = .error e) :
    (scope = .global ∧ answers = false ∧
      scope.require name unit ⟨graph, answers⟩ = (.error e, ⟨graph, answers⟩)) ∨
      scope ≠ .global ∧ graph.Lacks name scope.artifact? ∧
        scope.require name unit ⟨graph, answers⟩ =
          (.ok (graph.types.nextId, scope.withCreated name graph.types.nextId),
            ⟨graph.withMissing name scope.artifact? unit, answers⟩) := by
  cases scope with
  | ofArtifact scope =>
    obtain ⟨source, hu, -⟩ := hu
    unfold lookup at h
    simp only at h
    cases hc : scope.cached? name with
    | some known =>
      rw [hc] at h
      cases h
    | none =>
      obtain ⟨hk, hl⟩ := lacks_of_cached? hs hc
      refine .inr ⟨Scope.noConfusion, hl, ?_⟩
      rw [require_ofArtifact, ArtifactScope.require_new hk hl hu]
      rfl
  | global =>
    have hq : (⟨graph, answers⟩ : Store).query (·.globalType? name) = .error e := h
    obtain ⟨ha, -⟩ := isStoreFailure_of_query hq
    refine .inl ⟨rfl, ha, ?_⟩
    rw [require_global]
    exact (resolve_failed h).2

end Scope

end JavaGraph

/-!
## Answers that stay

Once a scope has found a type for a name, or made one, it gives this type for the name again without
a look at anything that could change. The global scope keeps no table; there the answer stays
because the type stays and has the name alone.
-/

namespace JavaGraph

namespace Scope

/-- The scope gives a type for a name, and nothing has to be looked up outside of its universe. -/
def Gives (scope : Scope) (store : Store) (name : QualifiedName) (id : TypeId) : Prop :=
  match scope with
  | .ofArtifact scope => scope.cached? name = some id
  | .global => store.findGlobalType name = .ok (some id)

variable {scope : Scope} {store : Store} {graph : Graph} {name other : QualifiedName}
  {id id' : TypeId} {unit : UnitId}

/-- It is the answer of the scope, and nothing changes when it is asked. -/
theorem Gives.resolve (h : scope.Gives store name id) (unit : UnitId) :
    scope.resolve name unit store = (.ok (id, scope), store) := by
  cases scope with
  | ofArtifact scope =>
    have hc : scope.cached? name = some id := h
    rw [resolve_ofArtifact, ArtifactScope.resolve_cached hc]
    rfl
  | global =>
    have hf : Scope.global.lookup name store = .ok (some id) := h
    exact resolve_found hf

/-- If a scope gives a type for a name, the name is not missing. -/
theorem Gives.ne (h : scope.Gives store name id)
    (hl : scope.lookup other store = .ok none ∨ ∃ e, scope.lookup other store = .error e) :
    name ≠ other := by
  rintro rfl
  have hsome : scope.lookup name store = .ok (some id) := by
    cases scope with
    | ofArtifact scope =>
      have hc : scope.cached? name = some id := h
      unfold lookup
      simp only [hc]
    | global => exact h
  rcases hl with hl | ⟨e, hl⟩ <;> cases hsome.symm.trans hl

/-- What the scope has found it gives from now on. -/
theorem gives_withFound (h : scope.lookup name store = .ok (some id)) :
    (scope.withFound name id).Gives store name id := by
  cases scope with
  | ofArtifact scope =>
    unfold lookup at h
    unfold withFound
    cases hc : scope.cached? name with
    | some known =>
      simp only [hc] at h ⊢
      cases h
      exact hc
    | none =>
      simp only [hc]
      have hk := (Option.or_eq_none_iff.1 hc).1
      change ((scope.known.find? name).or ((scope.borrowed.insert name id).find? name)) = some id
      rw [hk, Table.find?_insert, if_pos rfl, Option.none_or]
  | global => exact h

/-- It still gives what it gave before. -/
theorem Gives.withFound (h : scope.Gives store other id') (name : QualifiedName) (id : TypeId) :
    (scope.withFound name id).Gives store other id' := by
  cases scope with
  | ofArtifact scope =>
    have ho : scope.cached? other = some id' := h
    unfold Scope.withFound
    cases hc : scope.cached? name with
    | some known =>
      simp only [hc]
      exact h
    | none =>
      have hne : name ≠ other := by
        rintro rfl
        cases hc.symm.trans ho
      simp only [hc]
      change ((scope.known.find? other).or ((scope.borrowed.insert name id).find? other)) = some id'
      rw [Table.find?_insert, if_neg hne]
      exact ho
  | global => exact h

/-- The only type of the global universe with a name is found under it. -/
private theorem globalType?_eq (hc : graph.Consistent) {x : TypeNode}
    (hx : graph.types.get? id = some x) (hn : x.name = name) (hh : x.home = none) :
    graph.globalType? name = some id := by
  unfold Graph.globalType?
  cases hg : graph.typeIn? name.text none with
  | none => exact absurd hh (Graph.ne_of_typeIn?_eq_none hg hx (hn ▸ rfl))
  | some found =>
    obtain ⟨y, hy, hny, hhy⟩ := Graph.get?_of_typeIn? hg
    have hname : y.name = x.name := (QualifiedName.text_inj.1 hny).trans hn.symm
    rw [hc.unique hy hx hname (hhy.trans hh.symm)]

/-- What a scope gives stays as long as types keep their names and universes. -/
theorem Gives.mono {after : Store} (h : scope.Gives store name id)
    (ha : after.answers = store.answers) (hc : after.graph.Consistent)
    (hg : ∀ {id x}, store.graph.types.get? id = some x →
      ∃ y, after.graph.types.get? id = some y ∧ y.name = x.name ∧ y.home = x.home) :
    scope.Gives after name id := by
  cases scope with
  | ofArtifact scope => exact h
  | global =>
    change store.query _ = _ at h
    change after.query _ = _
    unfold Store.query at h ⊢
    rw [ha]
    split at h
    · next hanswers =>
      rw [if_pos hanswers]
      obtain ⟨x, hx, hn, hh⟩ := Graph.get?_of_typeIn? (Except.ok.inj h)
      obtain ⟨y, hy, hny, hhy⟩ := hg hx
      exact congrArg Except.ok (globalType?_eq hc hy
        (hny.trans (QualifiedName.text_inj.1 hn)) (hhy.trans hh))
    · cases h

/-- What the scope has made a placeholder for it gives from now on. -/
theorem gives_withCreated {answers : Bool} (ha : scope = .global → answers = true)
    (hc : (graph.withMissing name scope.artifact? unit).Consistent) :
    (scope.withCreated name graph.types.nextId).Gives
      ⟨graph.withMissing name scope.artifact? unit, answers⟩ name graph.types.nextId := by
  cases scope with
  | ofArtifact scope =>
    change (((scope.known.insert name _).find? name).or (scope.borrowed.find? name)) = some _
    rw [Table.find?_insert, if_pos rfl, Option.some_or]
  | global =>
    obtain ⟨holder, hk⟩ := Graph.get?_withMissing graph name none unit
    have hnew := (hk graph.types.nextId).trans (if_pos rfl)
    change Store.query _ _ = _
    unfold Store.query
    rw [if_pos (ha rfl)]
    exact congrArg Except.ok (globalType?_eq hc hnew rfl rfl)

/-- It still gives what it gave before. -/
theorem Gives.withCreated (h : scope.Gives store other id') (hne : name ≠ other) (id : TypeId) :
    (scope.withCreated name id).Gives store other id' := by
  cases scope with
  | ofArtifact scope =>
    change (((scope.known.insert name id).find? other).or (scope.borrowed.find? other)) = some id'
    rw [Table.find?_insert, if_neg hne]
    exact h
  | global => exact h

end Scope

end JavaGraph

/-!
## Scopes that answer alike

Two scopes of one artifact may stand over different graphs. If they look into the same dependencies
and have borrowed the same, and if their universes have the same names, they find the same: types
of the same name in the universe, and the very same types in the dependencies.
-/

namespace JavaGraph

variable {graph graph' : Graph} {answers : Bool} {name : QualifiedName}

/-- The type with a name that is declared in an artifact is the only one. -/
theorem Graph.typeDeclaredIn?_eq_some_iff (h : graph.Consistent) {owner : ArtifactId}
    {id : TypeId} : graph.typeDeclaredIn? name owner = some id ↔
      ∃ x, graph.types.get? id = some x ∧ x.name = name ∧ x.isComplete = true ∧
        x.artifact = some owner := by
  have hfound : ∀ {k}, graph.typeDeclaredIn? name owner = some k →
      ∃ x, graph.types.get? k = some x ∧ x.name = name ∧ x.isComplete = true ∧
        x.artifact = some owner := by
    intro k hk
    unfold typeDeclaredIn? at hk
    obtain ⟨x, hx, hn⟩ := Arena.mem_idsWhere.1 (List.mem_of_find?_eq_some hk)
    have hp := List.find?_some hk
    rw [hx, Option.any_some, Bool.and_eq_true, decide_eq_true_eq] at hp
    exact ⟨x, hx, QualifiedName.text_inj.1 (of_decide_eq_true hn), hp⟩
  constructor
  · exact hfound
  · rintro ⟨x, hx, hn, hc, ha⟩
    cases hk : graph.typeDeclaredIn? name owner with
    | none =>
      unfold typeDeclaredIn? at hk
      rw [List.find?_eq_none] at hk
      have hm : id ∈ graph.typesNamed name.text :=
        Arena.mem_idsWhere.2 ⟨x, hx, decide_eq_true (congrArg (·.text) hn)⟩
      refine absurd ?_ (hk id hm)
      rw [hx, Option.any_some, hc, ha]
      simp
    | some k =>
      obtain ⟨y, hy, hny, hcy, hay⟩ := hfound hk
      have hhome : y.home = x.home := by
        rw [← h.artifact_eq_home hy hcy, ← h.artifact_eq_home hx hc, hay, ha]
      rw [h.unique hy hx (hny.trans hn.symm) hhome]

namespace Scope

/-- Two scopes look into the same dependencies and have borrowed the same, of which something is
known. -/
def Peers (dependencies : List ArtifactId) (lent : TypeId → Prop) (scope scope' : Scope) : Prop :=
  ∃ own own', scope = .ofArtifact own ∧ scope' = .ofArtifact own' ∧
    own.dependencies = dependencies ∧ own'.dependencies = dependencies ∧
    ∀ name, own'.borrowed.find? name = own.borrowed.find? name ∧
      ∀ id, own.borrowed.find? name = some id → lent id

variable {dependencies : List ArtifactId} {lent : TypeId → Prop} {scope scope' : Scope}
  {home : Universe}

/-- Less may be known of what is borrowed. -/
theorem Peers.imp {lent' : TypeId → Prop} (h : Peers dependencies lent scope scope')
    (hl : ∀ {id}, lent id → lent' id) : Peers dependencies lent' scope scope' := by
  obtain ⟨own, own', rfl, rfl, hd, hd', hb⟩ := h
  exact ⟨own, own', rfl, rfl, hd, hd', fun name =>
    ⟨(hb name).1, fun id hid => hl ((hb name).2 id hid)⟩⟩

/-- A placeholder is not borrowed. -/
theorem Peers.withCreated (h : Peers dependencies lent scope scope') (name : QualifiedName)
    (id id' : TypeId) :
    Peers dependencies lent (scope.withCreated name id) (scope'.withCreated name id') := by
  obtain ⟨own, own', rfl, rfl, hd, hd', hb⟩ := h
  exact ⟨_, _, rfl, rfl, hd, hd', hb⟩

/-- What is declared is not borrowed. -/
theorem Peers.withDeclared (h : Peers dependencies lent scope scope') (name : QualifiedName)
    (id id' : TypeId) :
    Peers dependencies lent (scope.withDeclared name id) (scope'.withDeclared name id') := by
  obtain ⟨own, own', rfl, rfl, hd, hd', hb⟩ := h
  exact ⟨_, _, rfl, rfl, hd, hd', hb⟩

/-- A scope knows a name exactly if its universe has it. -/
private theorem find?_known (name : QualifiedName) {own : ArtifactScope}
    (h : Sound graph (.ofArtifact own)) (ha : (Scope.ofArtifact own).artifact? = home) :
    (∃ id, own.known.find? name = some id ∧ graph.label id = some (name, home)) ∨
      own.known.find? name = none ∧ ¬ graph.Has name home := by
  subst ha
  have hf : own.Fits graph := h.fits
  cases hk : own.known.find? name with
  | some id =>
    obtain ⟨x, hx, hn, hh⟩ := hf.known_iff.1 hk
    refine .inl ⟨id, rfl, ?_⟩
    rw [Graph.label_of_get? hx, hn, hh]
    rfl
  | none => exact .inr ⟨rfl, Graph.lacks_iff_not_has.1 (hf.lacks hk)⟩

/-- What two scopes find under a name. -/
inductive Finds (dependencies : List ArtifactId) (lent : TypeId → Prop) (home : Universe)
    (graph graph' : Graph) (scope scope' : Scope) (name : QualifiedName) :
    Except GraphError (Option TypeId) → Except GraphError (Option TypeId) → Prop where
  /-- The types of that name in the universe. -/
  | own {id id' : TypeId} : graph.label id = some (name, home) →
      graph'.label id' = some (name, home) →
      Peers dependencies lent (scope.withFound name id) (scope'.withFound name id') →
      Finds dependencies lent home graph graph' scope scope' name (.ok (some id)) (.ok (some id'))
  /-- A type of a dependency. -/
  | lent {id : TypeId} : lent id →
      Peers dependencies lent (scope.withFound name id) (scope'.withFound name id) →
      Finds dependencies lent home graph graph' scope scope' name (.ok (some id)) (.ok (some id))
  | nothing : Finds dependencies lent home graph graph' scope scope' name (.ok none) (.ok none)
  | unanswered (e : GraphError) :
      Finds dependencies lent home graph graph' scope scope' name (.error e) (.error e)

/-- Two scopes find the same. -/
theorem Peers.lookup (h : Peers dependencies lent scope scope') (hs : Sound graph scope)
    (hs' : Sound graph' scope') (ha : scope.artifact? = home) (ha' : scope'.artifact? = home)
    (hhas : graph.Has name home ↔ graph'.Has name home)
    (hd : ¬ graph.Has name home →
      graph'.typeDeclaredInAny? name dependencies = graph.typeDeclaredInAny? name dependencies ∧
        ∀ id, graph.typeDeclaredInAny? name dependencies = some id → lent id)
    (answers : Bool) :
    Finds dependencies lent home graph graph' scope scope' name
      (scope.lookup name ⟨graph, answers⟩) (scope'.lookup name ⟨graph', answers⟩) := by
  have hpeers := h
  obtain ⟨own, own', rfl, rfl, hdeps, hdeps', hb⟩ := h
  rcases find?_known name hs ha with ⟨id, hk, hl⟩ | ⟨hk, hn⟩
  · rcases find?_known name hs' ha' with ⟨id', hk', hl'⟩ | ⟨-, hn'⟩
    · have hc : own.cached? name = some id := by unfold ArtifactScope.cached?; rw [hk]; rfl
      have hc' : own'.cached? name = some id' := by unfold ArtifactScope.cached?; rw [hk']; rfl
      unfold Scope.lookup
      simp only [hc, hc']
      refine .own hl hl' ?_
      unfold withFound
      simp only [hc, hc']
      exact hpeers
    · exact absurd (hhas.1 (Graph.has_iff.2 ⟨id, hl⟩)) hn'
  · rcases find?_known name hs' ha' with ⟨id', -, hl'⟩ | ⟨hk', -⟩
    · exact absurd (hhas.2 (Graph.has_iff.2 ⟨id', hl'⟩)) hn
    have hc : own.cached? name = own.borrowed.find? name := by
      unfold ArtifactScope.cached?
      rw [hk]
      rfl
    have hc' : own'.cached? name = own.borrowed.find? name := by
      unfold ArtifactScope.cached?
      rw [hk', (hb name).1]
      rfl
    unfold Scope.lookup
    simp only [hc, hc', hdeps, hdeps']
    cases hfound : own.borrowed.find? name with
    | some id =>
      rw [hfound] at hc hc'
      refine .lent ((hb name).2 id hfound) ?_
      unfold withFound
      simp only [hc, hc']
      exact hpeers
    | none =>
      rw [hfound] at hc hc'
      simp only
      split
      · exact .nothing
      · unfold Store.findDeclaredType Store.query
        obtain ⟨heq, hlent⟩ := hd hn
        simp only [heq]
        cases answers with
        | false => exact .unanswered _
        | true =>
          simp only [if_pos]
          cases hany : graph.typeDeclaredInAny? name dependencies with
          | none => exact .nothing
          | some id =>
            refine .lent (hlent id hany) ?_
            unfold withFound
            simp only [hc, hc']
            refine ⟨_, _, rfl, rfl, hdeps, hdeps', fun other => ?_⟩
            unfold ArtifactScope.withBorrowed
            simp only
            rw [Table.find?_insert, Table.find?_insert, (hb other).1]
            refine ⟨rfl, fun k hk => ?_⟩
            split at hk
            · cases hk
              exact hlent id hany
            · exact (hb other).2 k hk

end Scope

end JavaGraph
