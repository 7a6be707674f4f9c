import JavaGraph.Proofs.Scope.Operations
/-!
# Scopes keep the graph sound

An open scope is sound if its graph is consistent, every placeholder is covered, and the scope
fits the graph. A fresh scope of an artifact is, every operation of the scope keeps it so, whether
it succeeds or fails, and leaving it leaves nothing held.
-/

namespace JavaGraph

variable {graph after : Graph} {answers : Bool} {name : QualifiedName} {unit : UnitId}

/-! ### The table of a scope -/

namespace ArtifactScope.Fits

variable {scope : ArtifactScope}

/-- A scope fits what differs in no name and in no state. -/
theorem of_sameLedger (h : scope.Fits graph) (hs : Graph.SameLedger graph after) :
    scope.Fits after where
  artifact_known := by
    rw [hs.artifacts]
    exact h.artifact_known
  known_iff := by
    intro name id
    rw [h.known_iff]
    constructor
    · rintro ⟨type, ht, hn, hh⟩
      obtain ⟨type', ht', hn', hh', -⟩ := hs.type' ht
      exact ⟨type', ht', hn'.trans hn, hh'.trans hh⟩
    · rintro ⟨type, ht, hn, hh⟩
      obtain ⟨type', ht', hn', hh', -⟩ := hs.type ht
      exact ⟨type', ht', hn'.trans hn, hh'.trans hh⟩
  created_of_held := by
    intro id type unit ht hr
    obtain ⟨type', ht', hr'⟩ := hs.held ht hr
    exact h.created_of_held ht' hr'
  created_known := by
    intro id hid
    obtain ⟨type, ht⟩ := h.created_known hid
    obtain ⟨type', ht', -⟩ := hs.type' ht
    exact ⟨type', ht'⟩

/-- The table with one more name knows the types with the new one among them. -/
private theorem find?_insert_iff (types : TypeId → Option TypeNode)
    {types' : TypeId → Option TypeNode} {known : Table QualifiedName TypeId}
    {artifact : ArtifactId} {new : TypeId} {node : TypeNode}
    (h : ∀ {n id}, known.find? n = some id ↔
      ∃ type, types id = some type ∧ type.name = n ∧ type.home = some artifact)
    (hn : known.find? name = none)
    (ht : ∀ k, types' k = if k = new then some node else types k)
    (hname : node.name = name) (hhome : node.home = some artifact)
    (hfresh : types new = none) {n : QualifiedName} {id : TypeId} :
    (known.insert name new).find? n = some id ↔
      ∃ type, types' id = some type ∧ type.name = n ∧ type.home = some artifact := by
  rw [Table.find?_insert]
  constructor
  · intro hf
    split at hf
    · next hnn =>
      cases hf
      exact ⟨node, by rw [ht, if_pos rfl], by rw [hname, hnn], hhome⟩
    · obtain ⟨type, htype, hrest⟩ := h.1 hf
      have hne : id ≠ new := by
        rintro rfl
        rw [hfresh] at htype
        cases htype
      exact ⟨type, by rw [ht, if_neg hne, htype], hrest⟩
  · rintro ⟨type, htype, htn, hth⟩
    rw [ht] at htype
    split at htype
    · next hid =>
      cases htype
      rw [if_pos (hname.symm.trans htn), hid]
    · have hk := h.2 ⟨type, htype, htn, hth⟩
      rw [if_neg, hk]
      rintro rfl
      rw [hn] at hk
      cases hk

/-- The scope that made a placeholder fits the graph with it. -/
theorem withPlaceholder (h : scope.Fits graph) (hn : scope.known.find? name = none) :
    (scope.withCreated name graph.types.nextId).Fits
      (graph.withPlaceholder scope.artifact name unit) where
  artifact_known := h.artifact_known
  known_iff := find?_insert_iff graph.types.get? h.known_iff hn
    (fun k => Graph.get?_types_withPlaceholder graph scope.artifact name unit k) rfl rfl
    (Arena.get?_nextId _)
  created_of_held := by
    intro id type k ht hr
    rw [Graph.get?_types_withPlaceholder] at ht
    split at ht
    · next hid =>
      rw [hid]
      exact List.mem_append_right _ (List.mem_singleton_self _)
    · exact List.mem_append_left _ (h.created_of_held ht hr)
  created_known := by
    intro id hid
    rcases List.mem_append.1 hid with hid | hid
    · obtain ⟨type, ht⟩ := h.created_known hid
      exact ⟨type, by rw [Graph.get?_types_withPlaceholder, if_neg (Arena.ne_nextId ht), ht]⟩
    · rw [List.mem_singleton.1 hid]
      exact ⟨_, by rw [Graph.get?_types_withPlaceholder, if_pos rfl]⟩

/-- The scope that made a type fits the graph with it. -/
theorem withType (h : scope.Fits graph) (hn : scope.known.find? name = none) :
    (scope.withDeclared name graph.types.nextId).Fits
      (graph.withType name (some scope.artifact)) where
  artifact_known := h.artifact_known
  known_iff := find?_insert_iff graph.types.get? h.known_iff hn
    (fun k => Arena.get?_push graph.types _ k) rfl rfl (Arena.get?_nextId _)
  created_of_held := by
    intro id type k ht hr
    unfold Graph.withType at ht
    rw [Arena.get?_push] at ht
    split at ht
    · cases ht
      cases hr
    · exact h.created_of_held ht hr
  created_known := by
    intro id hid
    obtain ⟨type, ht⟩ := h.created_known hid
    exact ⟨type, Graph.get?_push_of_get? _ ht⟩

/-- A declaration changes no name. -/
theorem withDeclaration (h : scope.Fits graph) {id : TypeId} {artifact : Option ArtifactId} :
    scope.Fits (graph.withDeclaration id unit artifact) where
  artifact_known := h.artifact_known
  known_iff := by
    intro n k
    rw [h.known_iff, Graph.get?_types_withDeclaration]
    split
    · cases graph.types.get? k with
      | none => simp
      | some type => simp
    · rfl
  created_of_held := by
    intro k type u ht hr
    rw [Graph.get?_types_withDeclaration] at ht
    split at ht
    · obtain ⟨old, -, rfl⟩ := Option.map_eq_some_iff.1 ht
      cases hr
    · exact h.created_of_held ht hr
  created_known := by
    intro k hk
    obtain ⟨type, ht⟩ := h.created_known hk
    rw [Graph.get?_types_withDeclaration, ht]
    split <;> exact ⟨_, rfl⟩

/-- A name that is entered again leaves the table as it was. -/
theorem withDeclared (h : scope.Fits graph) {id : TypeId}
    (hk : scope.known.find? name = some id) : (scope.withDeclared name id).Fits graph where
  artifact_known := h.artifact_known
  known_iff := by
    intro n k
    refine Iff.trans ?_ h.known_iff
    unfold ArtifactScope.withDeclared
    simp only
    rw [Table.find?_insert]
    split
    · next hn => rw [← hn, hk]
    · rfl
  created_of_held := h.created_of_held
  created_known := h.created_known

/-- What a scope borrows is not of its universe. -/
theorem withBorrowed (h : scope.Fits graph) (id : TypeId) :
    (scope.withBorrowed name id).Fits graph :=
  ⟨h.artifact_known, h.known_iff, h.created_of_held, h.created_known⟩

end ArtifactScope.Fits

namespace Graph.Unheld

/-- Nothing is held that was not held before. -/
theorem of_sameLedger (h : graph.Unheld) (hs : SameLedger graph after) : after.Unheld := by
  intro id type ht
  cases hr : type.state.requiredBy with
  | none => rfl
  | some unit =>
    obtain ⟨type', ht', hr'⟩ := hs.held ht hr
    rw [h ht'] at hr'
    cases hr'

/-- A new type is not held. -/
theorem withType (h : graph.Unheld) {home : Universe} : (graph.withType name home).Unheld := by
  intro id type ht
  unfold Graph.withType at ht
  rw [Arena.get?_push] at ht
  split at ht
  · cases ht
    rfl
  · exact h ht

/-- A declared type is not held. -/
theorem withDeclaration (h : graph.Unheld) {id : TypeId} {artifact : Option ArtifactId} :
    (graph.withDeclaration id unit artifact).Unheld := by
  intro k type ht
  rw [Graph.get?_types_withDeclaration] at ht
  split at ht
  · obtain ⟨old, -, rfl⟩ := Option.map_eq_some_iff.1 ht
    rfl
  · exact h ht

end Graph.Unheld

/-! ### The operations of a scope -/

namespace Scope

/-- An open scope and its graph are sound. -/
structure Sound (graph : Graph) (scope : Scope) : Prop where
  consistent : graph.Consistent
  covered : graph.Covered
  fits : scope.Fits graph

/-- The artifact of a sound scope is known. -/
theorem Sound.artifact_known {scope : Scope} (h : Sound graph scope) {artifact : ArtifactId}
    (ha : scope.artifact? = some artifact) :
    ∃ node, graph.artifacts.get? artifact = some node := by
  cases scope with
  | ofArtifact scope =>
    cases ha
    exact ArtifactScope.Fits.artifact_known h.fits
  | global => cases ha

/-- A unit still belongs to the universe of a scope if it keeps its artifact. -/
theorem Serves.of_units {scope scope' : Scope} (h : Serves graph scope unit)
    (hs : scope'.artifact? = scope.artifact?)
    (hu : ∀ node, graph.units.get? unit = some node →
      ∃ node', after.units.get? unit = some node' ∧ node'.artifact = node.artifact) :
    Serves after scope' unit := by
  obtain ⟨node, hn, ha⟩ := h
  obtain ⟨node', hn', ha'⟩ := hu node hn
  exact ⟨node', hn', by rw [ha', ha, hs]⟩

/-- What an operation leaves is sound: its scope if it succeeds, and the old one if it fails. -/
def Leaves (scope : Scope) (unit : UnitId)
    (outcome : Except GraphError (TypeId × Scope) × Store) : Prop :=
  match outcome with
  | (.ok (_, next), store) => Sound store.graph next ∧ Serves store.graph next unit
  | (.error _, store) => Sound store.graph scope ∧ Serves store.graph scope unit

end Scope

namespace ArtifactScope

variable {scope : ArtifactScope}

private theorem withPlaceholder_sound (h : Scope.Sound graph (.ofArtifact scope))
    (hs : Scope.Serves graph (.ofArtifact scope) unit) (hn : scope.known.find? name = none) :
    let left := graph.withPlaceholder scope.artifact name unit
    let next := scope.withCreated name graph.types.nextId
    Scope.Sound left (.ofArtifact next) ∧ Scope.Serves left (.ofArtifact next) unit := by
  have hf : scope.Fits graph := h.fits
  obtain ⟨source, hu, ha⟩ := hs
  refine ⟨⟨h.consistent.withPlaceholder (hf.lacks hn) hu ha, h.covered.withPlaceholder hu,
    hf.withPlaceholder hn⟩, ?_⟩
  refine Scope.Serves.of_units ⟨source, hu, ha⟩ rfl ?_
  intro node hnode
  rw [Graph.get?_units_withPlaceholder, if_pos rfl, hnode]
  exact ⟨_, rfl, rfl⟩

private theorem require_leaves (h : Scope.Sound graph (.ofArtifact scope))
    (hs : Scope.Serves graph (.ofArtifact scope) unit) :
    Scope.Leaves (.ofArtifact scope) unit
      (Scope.require (.ofArtifact scope) name unit ⟨graph, answers⟩) := by
  have hf : scope.Fits graph := h.fits
  rw [Scope.require_ofArtifact]
  cases hk : scope.known.find? name with
  | some id =>
    rw [require_known hk]
    exact ⟨h, hs⟩
  | none =>
    obtain ⟨source, hu, ha⟩ := hs
    rw [require_new hk (hf.lacks hk) hu]
    exact withPlaceholder_sound h ⟨source, hu, ha⟩ hk

private theorem resolve_leaves (h : Scope.Sound graph (.ofArtifact scope))
    (hs : Scope.Serves graph (.ofArtifact scope) unit) :
    Scope.Leaves (.ofArtifact scope) unit
      (Scope.resolve (.ofArtifact scope) name unit ⟨graph, answers⟩) := by
  have hf : scope.Fits graph := h.fits
  rw [Scope.resolve_ofArtifact]
  cases hc : scope.cached? name with
  | some id =>
    rw [resolve_cached hc]
    exact ⟨h, hs⟩
  | none =>
    rw [resolve_new hc]
    split
    · exact ⟨h, hs⟩
    · next id _ => exact ⟨⟨h.consistent, h.covered, hf.withBorrowed id⟩, hs⟩
    · have hr : Scope.Leaves (.ofArtifact scope) unit
          (Scope.require (.ofArtifact scope) name unit ⟨graph, answers⟩) := require_leaves h hs
      rwa [Scope.require_ofArtifact] at hr

private theorem withDeclaration_serves {scope' : Scope} {id : TypeId}
    {artifact : Option ArtifactId} (hs : Scope.Serves graph (.ofArtifact scope) unit)
    (ha : scope'.artifact? = some scope.artifact) (k : UnitId) :
    Scope.Serves (graph.withDeclaration id k artifact) scope' unit := by
  refine hs.of_units ha ?_
  intro node hn
  rw [Graph.get?_units_withDeclaration, hn]
  exact ⟨_, rfl, rfl⟩

private theorem declare_leaves (h : Scope.Sound graph (.ofArtifact scope))
    (hs : Scope.Serves graph (.ofArtifact scope) unit) :
    Scope.Leaves (.ofArtifact scope) unit
      (Scope.declare (.ofArtifact scope) name unit ⟨graph, answers⟩) := by
  have hf : scope.Fits graph := h.fits
  obtain ⟨source, hu, ha⟩ := hs
  rw [Scope.declare_ofArtifact]
  cases hk : scope.known.find? name with
  | some id =>
    obtain ⟨type, ht, hn, hh⟩ := hf.known_iff.1 hk
    cases hc : type.isComplete with
    | true =>
      obtain ⟨existing, he⟩ := TypeNode.isComplete_eq_true.1 hc
      rw [declare_duplicate hk ht he]
      exact ⟨h, source, hu, ha⟩
    | false =>
      rw [declare_known h.consistent hk ht hc hu]
      have hcons := h.consistent.withDeclaration ht hc hu (ha.trans hh.symm)
      rw [hh] at hcons
      exact ⟨⟨hcons, h.consistent.covered_withDeclaration fun k _ => h.covered k,
        (hf.withDeclared hk).withDeclaration⟩, withDeclaration_serves ⟨source, hu, ha⟩ rfl unit⟩
  | none =>
    rw [declare_new h.consistent hk hu]
    have hcons := h.consistent.withType (hf.lacks hk)
    have hcons' := hcons.withDeclaration (Graph.get?_withType_nextId ..) rfl hu ha
    have hserves : Scope.Serves (graph.withType name (some scope.artifact)) (.ofArtifact scope)
        unit := ⟨source, hu, ha⟩
    exact ⟨⟨hcons',
      hcons.covered_withDeclaration fun k hne => Graph.CoveredAt.withType (h.covered k) hne,
      (hf.withType hk).withDeclaration⟩,
      withDeclaration_serves hserves rfl unit⟩

end ArtifactScope

namespace GlobalScope

private theorem withType_sound (h : Scope.Sound graph .global)
    (hg : graph.globalType? name = none) : Scope.Sound (graph.withType name none) .global where
  consistent := h.consistent.withType (Graph.lacks_of_typeIn? hg)
  covered := by
    intro id type ht hc hh
    by_cases hid : id = graph.types.nextId
    · rw [hid, Graph.get?_withType_nextId] at ht
      cases ht
      cases hh
    · exact Graph.CoveredAt.withType (h.covered id) hid ht hc hh
  fits := Graph.Unheld.withType h.fits

private theorem resolve_leaves (h : Scope.Sound graph .global)
    (hs : Scope.Serves graph .global unit) :
    Scope.Leaves .global unit (Scope.resolve .global name unit ⟨graph, answers⟩) := by
  rw [Scope.resolve_global, resolve_run]
  cases answers with
  | false => exact ⟨h, hs⟩
  | true =>
    cases hg : graph.globalType? name with
    | some id => exact ⟨h, hs⟩
    | none => exact ⟨withType_sound h hg, hs⟩

private theorem declare_leaves (h : Scope.Sound graph .global)
    (hs : Scope.Serves graph .global unit) :
    Scope.Leaves .global unit (Scope.declare .global name unit ⟨graph, answers⟩) := by
  obtain ⟨source, hu, ha⟩ := hs
  rw [Scope.declare_global]
  cases hg : graph.globalType? name with
  | some id =>
    obtain ⟨type, ht, hn, hh⟩ := Graph.get?_of_typeIn? hg
    cases hc : type.isComplete with
    | true =>
      obtain ⟨existing, he⟩ := TypeNode.isComplete_eq_true.1 hc
      rw [declare_duplicate hg ht he hu]
      exact ⟨h, source, hu, ha⟩
    | false =>
      rw [declare_known h.consistent hg ht hc hu]
      have hcons := h.consistent.withDeclaration ht hc hu (ha.trans hh.symm)
      rw [hh] at hcons
      rw [show source.artifact = none from ha]
      refine ⟨⟨hcons, h.consistent.covered_withDeclaration fun k _ => h.covered k,
        Graph.Unheld.withDeclaration h.fits⟩, ?_⟩
      refine Scope.Serves.of_units ⟨source, hu, ha⟩ rfl ?_
      intro node hn
      rw [Graph.get?_units_withDeclaration, hn]
      exact ⟨_, rfl, rfl⟩
  | none =>
    rw [declare_new h.consistent hg hu]
    have hs' := withType_sound h hg
    have hcons := hs'.consistent.withDeclaration (Graph.get?_withType_nextId ..) rfl hu ha
    rw [show source.artifact = none from ha]
    refine ⟨⟨hcons, hs'.consistent.covered_withDeclaration fun k _ => hs'.covered k,
      Graph.Unheld.withDeclaration hs'.fits⟩, ?_⟩
    refine Scope.Serves.of_units ⟨source, hu, ha⟩ rfl ?_
    intro node hn
    rw [Graph.get?_units_withDeclaration]
    change ∃ node', (graph.units.get? unit).map _ = some node' ∧ _
    rw [hn]
    exact ⟨_, rfl, rfl⟩

end GlobalScope

namespace Scope

variable {scope : Scope}

/-- To resolve a name keeps the graph sound. -/
theorem resolve_leaves (h : Sound graph scope) (hs : Serves graph scope unit) :
    Leaves scope unit (scope.resolve name unit ⟨graph, answers⟩) := by
  cases scope with
  | ofArtifact scope => exact ArtifactScope.resolve_leaves h hs
  | global => exact GlobalScope.resolve_leaves h hs

/-- To require a name keeps the graph sound. -/
theorem require_leaves (h : Sound graph scope) (hs : Serves graph scope unit) :
    Leaves scope unit (scope.require name unit ⟨graph, answers⟩) := by
  cases scope with
  | ofArtifact scope => exact ArtifactScope.require_leaves h hs
  | global => exact GlobalScope.resolve_leaves h hs

/-- To declare a name keeps the graph sound. -/
theorem declare_leaves (h : Sound graph scope) (hs : Serves graph scope unit) :
    Leaves scope unit (scope.declare name unit ⟨graph, answers⟩) := by
  cases scope with
  | ofArtifact scope => exact ArtifactScope.declare_leaves h hs
  | global => exact GlobalScope.declare_leaves h hs

end Scope

end JavaGraph

/-!
## What a scope answers

In a sound scope a declaration is a duplicate or completes a placeholder, and a requirement finds a
type or brings in a placeholder. Which of the two depends only on what the universe of the scope
has under the name.
-/

namespace JavaGraph

variable {graph : Graph} {answers : Bool} {name : QualifiedName} {unit : UnitId}

namespace Scope

/-- The scope that has declared a name. -/
def withDeclared (scope : Scope) (name : QualifiedName) (id : TypeId) : Scope :=
  match scope with
  | .ofArtifact scope => .ofArtifact (scope.withDeclared name id)
  | .global => .global

/-- The declared name does not change which universe it is. -/
@[simp] theorem artifact?_withDeclared (scope : Scope) (name : QualifiedName) (id : TypeId) :
    (scope.withDeclared name id).artifact? = scope.artifact? := by
  cases scope <;> rfl

/-- A placeholder that is there, or comes in for a name that its universe lacks. -/
def Awaits (graph : Graph) (name : QualifiedName) (home : Universe) (middle : Graph) (id : TypeId) :
    Prop :=
  (∃ x, middle.types.get? id = some x ∧ x.name = name ∧ x.home = home ∧ x.isComplete = false) ∧
    (middle = graph ∨
      middle = graph.withType name home ∧ id = graph.types.nextId ∧ graph.Lacks name home)

/-- A declaration is a duplicate of a complete type, or completes a placeholder. -/
theorem declare_cases {scope : Scope} (h : Sound graph scope) (hs : Serves graph scope unit) :
    (∃ id x existing, graph.types.get? id = some x ∧ x.name = name ∧
      x.home = scope.artifact? ∧ x.state = .complete existing ∧
      scope.declare name unit ⟨graph, answers⟩ =
        (.error (.duplicateDeclaration name existing), ⟨graph, answers⟩)) ∨
    ∃ id middle, Awaits graph name scope.artifact? middle id ∧
      scope.declare name unit ⟨graph, answers⟩ =
        (.ok (id, scope.withDeclared name id),
          ⟨middle.withDeclaration id unit scope.artifact?, answers⟩) := by
  obtain ⟨source, hu, ha⟩ := hs
  cases scope with
  | ofArtifact scope =>
    have hf : scope.Fits graph := h.fits
    rw [declare_ofArtifact]
    cases hk : scope.known.find? name with
    | none =>
      refine .inr ⟨graph.types.nextId, graph.withType name (some scope.artifact), ⟨⟨_,
        Graph.get?_withType_nextId .., rfl, rfl, rfl⟩, .inr ⟨rfl, rfl, hf.lacks hk⟩⟩, ?_⟩
      rw [ArtifactScope.declare_new h.consistent hk hu]
      rfl
    | some id =>
      obtain ⟨x, hx, hn, hh⟩ := hf.known_iff.1 hk
      cases hc : x.isComplete with
      | true =>
        obtain ⟨existing, he⟩ := TypeNode.isComplete_eq_true.1 hc
        refine .inl ⟨id, x, existing, hx, hn, hh, he, ?_⟩
        rw [ArtifactScope.declare_duplicate hk hx he, hn]
        rfl
      | false =>
        refine .inr ⟨id, graph, ⟨⟨x, hx, hn, hh, hc⟩, .inl rfl⟩, ?_⟩
        rw [ArtifactScope.declare_known h.consistent hk hx hc hu]
        rfl
  | global =>
    rw [declare_global]
    cases hg : graph.globalType? name with
    | none =>
      refine .inr ⟨graph.types.nextId, graph.withType name none, ⟨⟨_,
        Graph.get?_withType_nextId .., rfl, rfl, rfl⟩, .inr ⟨rfl, rfl,
        Graph.lacks_of_typeIn? hg⟩⟩, ?_⟩
      rw [GlobalScope.declare_new h.consistent hg hu, ha]
      rfl
    | some id =>
      obtain ⟨x, hx, hn, hh⟩ := Graph.get?_of_typeIn? hg
      have hn := QualifiedName.text_inj.1 hn
      cases hc : x.isComplete with
      | true =>
        obtain ⟨existing, he⟩ := TypeNode.isComplete_eq_true.1 hc
        refine .inl ⟨id, x, existing, hx, hn, hh, he, ?_⟩
        rw [GlobalScope.declare_duplicate hg hx he hu, hn]
        rfl
      | false =>
        refine .inr ⟨id, graph, ⟨⟨x, hx, hn, hh, hc⟩, .inl rfl⟩, ?_⟩
        rw [GlobalScope.declare_known h.consistent hg hx hc hu, ha]
        rfl

end Scope

end JavaGraph
