import JavaGraph.Proofs.Graph.Operations
import Mathlib.Data.List.Nodup
/-!
# The life of a type

A type is a placeholder until a unit declares it. `Graph.Lifecycle` says how the state of a type
agrees with what the units declare and require. It follows from `Graph.Consistent`, which every
operation of a scope keeps, and `Graph.Covered`, which holds as soon as the operation is done.
-/

namespace JavaGraph

/-! ### States -/

/-- A state is complete exactly if it names the unit that declares the type. -/
theorem TypeState.declaredBy_eq_some {state : TypeState} {unit : UnitId} :
    state.declaredBy = some unit ↔ state = .complete unit := by
  cases state <;> simp [declaredBy]

/-- A type is complete if it is declared by some unit. -/
theorem TypeNode.isComplete_eq_isSome (type : TypeNode) :
    type.isComplete = type.state.declaredBy.isSome := by
  unfold isComplete
  cases type.state <;> rfl

/-- A type is complete exactly if its state names the unit that declares it. -/
theorem TypeNode.isComplete_eq_true {type : TypeNode} :
    type.isComplete = true ↔ ∃ unit, type.state = .complete unit := by
  unfold isComplete
  cases type.state <;> simp [TypeState.isComplete]

/-- What the life of a type is about. -/
def TypeNode.ledger (type : TypeNode) :
    QualifiedName × Universe × Option UnitId × Option ArtifactId :=
  (type.name, type.home, type.state.declaredBy, type.artifact)

/-- What a unit has to do with the life of types. -/
def CompilationUnit.ledger (unit : CompilationUnit) :
    String × Option ArtifactId × List TypeId × List TypeId :=
  (unit.path, unit.artifact, unit.declaredTypes, unit.requiredTypes)

namespace Graph

/-! ### The invariant -/

/-- The states of the types, and what the units declare and require, agree. -/
structure Lifecycle (graph : Graph) : Prop where
  /-- A name stands for one type in a universe. -/
  unique : ∀ {a b x y}, graph.types.get? a = some x → graph.types.get? b = some y →
    x.name = y.name → x.home = y.home → a = b
  /-- A type is complete by a unit exactly if the unit declares it. -/
  declared_iff : ∀ {id unit}, (∃ type, graph.types.get? id = some type ∧
      type.state = .complete unit) ↔
    ∃ node, graph.units.get? unit = some node ∧ id ∈ node.declaredTypes
  /-- No unit lists a declared type twice. -/
  declared_once : ∀ {unit node id}, graph.units.get? unit = some node →
    id ∈ node.declaredTypes → node.declaredTypes.count id = 1
  /-- No unit requires a complete type. -/
  not_required : ∀ {id type}, graph.types.get? id = some type → type.isComplete = true →
    ∀ {unit node}, graph.units.get? unit = some node → id ∉ node.requiredTypes
  /-- A complete type is declared in its own universe. -/
  artifact_eq_home : ∀ {id type}, graph.types.get? id = some type → type.isComplete = true →
    type.artifact = type.home
  /-- Exactly one unit requires a placeholder of an artifact, once, and it is one of the
  artifact. -/
  required_once : ∀ {id type artifact}, graph.types.get? id = some type →
    type.isComplete = false → type.home = some artifact →
    ∃ unit node, graph.units.get? unit = some node ∧ node.artifact = some artifact ∧
      node.requiredTypes.count id = 1 ∧
      ∀ {other elsewhere}, graph.units.get? other = some elsewhere →
        id ∈ elsewhere.requiredTypes → other = unit
  /-- No unit requires a type of the global universe. -/
  global_not_required : ∀ {id type}, graph.types.get? id = some type → type.home = none →
    ∀ {unit node}, graph.units.get? unit = some node → id ∉ node.requiredTypes
  /-- The units listed for a type are those that require it. -/
  requirers_iff : ∀ {id unit}, unit ∈ (graph.requirers.find? id).getD [] ↔
    ∃ node, graph.units.get? unit = some node ∧ id ∈ node.requiredTypes
  /-- No unit is listed twice for a type. -/
  requirers_nodup : ∀ {id}, ((graph.requirers.find? id).getD []).Nodup

/-- What holds of states and units even while an operation is under way. -/
structure Consistent (graph : Graph) : Prop where
  unique : ∀ {a b x y}, graph.types.get? a = some x → graph.types.get? b = some y →
    x.name = y.name → x.home = y.home → a = b
  complete_declared : ∀ {id type unit}, graph.types.get? id = some type →
    type.state = .complete unit →
    ∃ node, graph.units.get? unit = some node ∧ id ∈ node.declaredTypes
  declared_complete : ∀ {id unit node}, graph.units.get? unit = some node →
    id ∈ node.declaredTypes → ∃ type, graph.types.get? id = some type ∧
      type.state = .complete unit ∧ type.artifact = node.artifact ∧ type.home = node.artifact
  declared_nodup : ∀ {unit node}, graph.units.get? unit = some node → node.declaredTypes.Nodup
  required_placeholder : ∀ {id unit node}, graph.units.get? unit = some node →
    id ∈ node.requiredTypes → ∃ type, graph.types.get? id = some type ∧
      type.isComplete = false ∧ type.home.isSome ∧ type.home = node.artifact
  required_nodup : ∀ {unit node}, graph.units.get? unit = some node → node.requiredTypes.Nodup
  required_unique : ∀ {id a b x y}, graph.units.get? a = some x → graph.units.get? b = some y →
    id ∈ x.requiredTypes → id ∈ y.requiredTypes → a = b
  requirers_iff : ∀ {id unit}, unit ∈ (graph.requirers.find? id).getD [] ↔
    ∃ node, graph.units.get? unit = some node ∧ id ∈ node.requiredTypes
  requirers_nodup : ∀ {id}, ((graph.requirers.find? id).getD []).Nodup
  units_iff : ∀ {artifact owner unit}, graph.artifacts.get? artifact = some owner →
    (unit ∈ owner.units ↔
      ∃ node, graph.units.get? unit = some node ∧ node.artifact = some artifact)
  artifact_known : ∀ {unit node artifact}, graph.units.get? unit = some node →
    node.artifact = some artifact → ∃ owner, graph.artifacts.get? artifact = some owner

/-- If a type is a placeholder of an artifact, a unit requires it. -/
def CoveredAt (graph : Graph) (id : TypeId) : Prop :=
  ∀ {type}, graph.types.get? id = some type → type.isComplete = false → type.home.isSome →
    ∃ unit node, graph.units.get? unit = some node ∧ id ∈ node.requiredTypes

/-- Every placeholder of an artifact is required by a unit. -/
def Covered (graph : Graph) : Prop := ∀ id, graph.CoveredAt id

variable {graph after : Graph}

/-- A complete type is declared in its own universe. -/
theorem Consistent.artifact_eq_home (h : Consistent graph) {id : TypeId} {type : TypeNode}
    (ht : graph.types.get? id = some type) (hs : type.isComplete = true) :
    type.artifact = type.home := by
  obtain ⟨unit, hu⟩ := TypeNode.isComplete_eq_true.1 hs
  obtain ⟨node, hn, hd⟩ := h.complete_declared ht hu
  obtain ⟨other, ho, -, ha, hh⟩ := h.declared_complete hn hd
  rw [ht] at ho
  cases ho
  rw [ha, hh]

/-- Consistency and coverage are all there is to the life of a type. -/
theorem Consistent.lifecycle (h : Consistent graph) (hc : Covered graph) : Lifecycle graph where
  unique := h.unique
  declared_iff := by
    intro id unit
    constructor
    · rintro ⟨type, ht, hs⟩
      exact h.complete_declared ht hs
    · rintro ⟨node, hn, hd⟩
      obtain ⟨type, ht, hs, -, -⟩ := h.declared_complete hn hd
      exact ⟨type, ht, hs⟩
  declared_once := by
    intro unit node id hn hd
    exact List.count_eq_one_of_mem (h.declared_nodup hn) hd
  not_required := by
    intro id type ht hs unit node hn hr
    obtain ⟨other, ho, hi, -, -⟩ := h.required_placeholder hn hr
    rw [ht] at ho
    cases ho
    rw [hs] at hi
    cases hi
  artifact_eq_home := h.artifact_eq_home
  required_once := by
    intro id type artifact ht hs hh
    obtain ⟨unit, node, hn, hr⟩ := hc id ht hs (by simp [hh])
    obtain ⟨other, ho, -, -, ha⟩ := h.required_placeholder hn hr
    rw [ht] at ho
    cases ho
    refine ⟨unit, node, hn, ha.symm.trans hh, ?_, ?_⟩
    · exact List.count_eq_one_of_mem (h.required_nodup hn) hr
    · intro unit' node' hn' hr'
      exact h.required_unique hn' hn hr' hr
  global_not_required := by
    intro id type ht hh unit node hn hr
    obtain ⟨other, ho, -, hsome, -⟩ := h.required_placeholder hn hr
    rw [ht] at ho
    cases ho
    simp [hh] at hsome
  requirers_iff := h.requirers_iff
  requirers_nodup := h.requirers_nodup

/-- The units that are listed for a type are known. -/
theorem Consistent.requirers_known (h : Consistent graph) {id : TypeId} :
    ∀ unit ∈ (graph.requirers.find? id).getD [], (graph.units.get? unit).isSome := by
  intro unit hu
  obtain ⟨node, hn, -⟩ := h.requirers_iff.1 hu
  simp [hn]

/-! ### Changes that do not matter -/

/-- The same types have the same names and are declared by the same units, and the same units
declare and require the same types. No scope holds more placeholders than before. -/
structure SameLedger (before after : Graph) : Prop where
  types : ∀ id, (after.types.get? id).map TypeNode.ledger =
    (before.types.get? id).map TypeNode.ledger
  held : ∀ {id x unit}, after.types.get? id = some x → x.state.requiredBy = some unit →
    ∃ y, before.types.get? id = some y ∧ y.state.requiredBy = some unit
  units : ∀ id, (after.units.get? id).map CompilationUnit.ledger =
    (before.units.get? id).map CompilationUnit.ledger
  artifacts : after.artifacts = before.artifacts
  requirers : after.requirers = before.requirers

namespace SameLedger

instance : Action.Guarantee SameLedger where
  refl _ := ⟨fun _ => rfl, fun hx hr => ⟨_, hx, hr⟩, fun _ => rfl, rfl, rfl⟩
  trans h h' := by
    refine ⟨fun id => (h'.types id).trans (h.types id), ?_,
      fun id => (h'.units id).trans (h.units id), h'.artifacts.trans h.artifacts,
      h'.requirers.trans h.requirers⟩
    intro id x unit hx hr
    obtain ⟨y, hy, hr'⟩ := h'.held hx hr
    exact h.held hy hr'

/-- The same nodes have the same ledger. -/
theorem of_eq (ht : after.types = graph.types) (hu : after.units = graph.units)
    (ha : after.artifacts = graph.artifacts) (hr : after.requirers = graph.requirers) :
    SameLedger graph after :=
  ⟨fun _ => by rw [ht], fun hx h => ⟨_, ht ▸ hx, h⟩, fun _ => by rw [hu], ha, hr⟩

/-- A type had its name and its unit before. -/
theorem type (h : SameLedger graph after) {id : TypeId} {x : TypeNode}
    (hx : after.types.get? id = some x) : ∃ y, graph.types.get? id = some y ∧ y.name = x.name ∧
      y.home = x.home ∧ y.state.declaredBy = x.state.declaredBy ∧ y.artifact = x.artifact := by
  have ht := h.types id
  rw [hx] at ht
  obtain ⟨y, hy, he⟩ := Option.map_eq_some_iff.1 ht.symm
  simp only [TypeNode.ledger, Prod.mk.injEq] at he
  exact ⟨y, hy, he⟩

/-- A type keeps its name and its unit. -/
theorem type' (h : SameLedger graph after) {id : TypeId} {x : TypeNode}
    (hx : graph.types.get? id = some x) : ∃ y, after.types.get? id = some y ∧ y.name = x.name ∧
      y.home = x.home ∧ y.state.declaredBy = x.state.declaredBy ∧ y.artifact = x.artifact := by
  have ht := h.types id
  rw [hx] at ht
  obtain ⟨y, hy, he⟩ := Option.map_eq_some_iff.1 ht
  simp only [TypeNode.ledger, Prod.mk.injEq] at he
  exact ⟨y, hy, he⟩

/-- A unit declared and required the same before. -/
theorem unit (h : SameLedger graph after) {id : UnitId} {x : CompilationUnit}
    (hx : after.units.get? id = some x) : ∃ y, graph.units.get? id = some y ∧ y.path = x.path ∧
      y.artifact = x.artifact ∧ y.declaredTypes = x.declaredTypes ∧
      y.requiredTypes = x.requiredTypes := by
  have hu := h.units id
  rw [hx] at hu
  obtain ⟨y, hy, he⟩ := Option.map_eq_some_iff.1 hu.symm
  simp only [CompilationUnit.ledger, Prod.mk.injEq] at he
  exact ⟨y, hy, he⟩

/-- A unit goes on declaring and requiring the same. -/
theorem unit' (h : SameLedger graph after) {id : UnitId} {x : CompilationUnit}
    (hx : graph.units.get? id = some x) : ∃ y, after.units.get? id = some y ∧ y.path = x.path ∧
      y.artifact = x.artifact ∧ y.declaredTypes = x.declaredTypes ∧
      y.requiredTypes = x.requiredTypes := by
  have hu := h.units id
  rw [hx] at hu
  obtain ⟨y, hy, he⟩ := Option.map_eq_some_iff.1 hu
  simp only [CompilationUnit.ledger, Prod.mk.injEq] at he
  exact ⟨y, hy, he⟩

end SameLedger

/-- Consistency is a matter of the ledger. -/
theorem Consistent.of_sameLedger (h : Consistent graph) (hs : SameLedger graph after) :
    Consistent after where
  unique := by
    intro a b x y hx hy hn hh
    obtain ⟨x', hx', hnx, hhx, -, -⟩ := hs.type hx
    obtain ⟨y', hy', hny, hhy, -, -⟩ := hs.type hy
    exact h.unique hx' hy' (by rw [hnx, hny, hn]) (by rw [hhx, hhy, hh])
  complete_declared := by
    intro id type unit ht hc
    obtain ⟨type', ht', -, -, hd, -⟩ := hs.type ht
    rw [hc, show (TypeState.complete unit).declaredBy = some unit from rfl] at hd
    obtain ⟨node, hn, hm⟩ := h.complete_declared ht' (TypeState.declaredBy_eq_some.1 hd)
    obtain ⟨node', hn', -, -, hd', -⟩ := hs.unit' hn
    exact ⟨node', hn', by rwa [hd']⟩
  declared_complete := by
    intro id unit node hn hm
    obtain ⟨node', hn', -, ha, hd, -⟩ := hs.unit hn
    obtain ⟨type', ht', hc, hta, hth⟩ := h.declared_complete hn' (by rwa [hd])
    obtain ⟨type, ht, -, hh, hdb, hta'⟩ := hs.type' ht'
    rw [TypeState.declaredBy_eq_some.2 hc] at hdb
    exact ⟨type, ht, TypeState.declaredBy_eq_some.1 hdb, by rw [hta', hta, ha], by rw [hh, hth, ha]⟩
  declared_nodup := by
    intro unit node hn
    obtain ⟨node', hn', -, -, hd, -⟩ := hs.unit hn
    rw [← hd]
    exact h.declared_nodup hn'
  required_placeholder := by
    intro id unit node hn hm
    obtain ⟨node', hn', -, ha, -, hr⟩ := hs.unit hn
    obtain ⟨type', ht', hc, hsome, hth⟩ := h.required_placeholder hn' (by rwa [hr])
    obtain ⟨type, ht, -, hh, hdb, -⟩ := hs.type' ht'
    refine ⟨type, ht, ?_, by rw [hh, hsome], by rw [hh, hth, ha]⟩
    rw [TypeNode.isComplete_eq_isSome, hdb, ← TypeNode.isComplete_eq_isSome, hc]
  required_nodup := by
    intro unit node hn
    obtain ⟨node', hn', -, -, -, hr⟩ := hs.unit hn
    rw [← hr]
    exact h.required_nodup hn'
  required_unique := by
    intro id a b x y hx hy hmx hmy
    obtain ⟨x', hx', -, -, -, hrx⟩ := hs.unit hx
    obtain ⟨y', hy', -, -, -, hry⟩ := hs.unit hy
    exact h.required_unique hx' hy' (by rwa [hrx]) (by rwa [hry])
  requirers_iff := by
    intro id unit
    rw [hs.requirers, h.requirers_iff]
    constructor
    · rintro ⟨node, hn, hm⟩
      obtain ⟨node', hn', -, -, -, hr⟩ := hs.unit' hn
      exact ⟨node', hn', by rwa [hr]⟩
    · rintro ⟨node, hn, hm⟩
      obtain ⟨node', hn', -, -, -, hr⟩ := hs.unit hn
      exact ⟨node', hn', by rwa [hr]⟩
  requirers_nodup := by
    intro id
    rw [hs.requirers]
    exact h.requirers_nodup
  units_iff := by
    intro artifact owner unit ho
    rw [hs.artifacts] at ho
    rw [h.units_iff ho]
    constructor
    · rintro ⟨node, hn, ha⟩
      obtain ⟨node', hn', -, ha', -, -⟩ := hs.unit' hn
      exact ⟨node', hn', by rw [ha', ha]⟩
    · rintro ⟨node, hn, ha⟩
      obtain ⟨node', hn', -, ha', -, -⟩ := hs.unit hn
      exact ⟨node', hn', by rw [ha', ha]⟩
  artifact_known := by
    intro unit node artifact hn ha
    obtain ⟨node', hn', -, ha', -, -⟩ := hs.unit hn
    rw [hs.artifacts]
    exact h.artifact_known hn' (ha'.trans ha)

/-- Coverage is a matter of the ledger. -/
theorem CoveredAt.of_sameLedger {id : TypeId} (h : graph.CoveredAt id)
    (hs : SameLedger graph after) : after.CoveredAt id := by
  intro type ht hc hh
  obtain ⟨type', ht', -, hh', hd, -⟩ := hs.type ht
  have hc' : type'.isComplete = false := by
    rw [TypeNode.isComplete_eq_isSome, hd, ← TypeNode.isComplete_eq_isSome, hc]
  obtain ⟨unit, node, hn, hm⟩ := h ht' hc' (by rwa [hh'])
  obtain ⟨node', hn', -, -, -, hr⟩ := hs.unit' hn
  exact ⟨unit, node', hn', by rwa [hr]⟩

/-! ### Units and artifacts -/

/-- The graph with one more unit, which is listed by its artifact. -/
def withUnit (graph : Graph) (path : String) (artifact : Option ArtifactId)
    (dependencies : List ArtifactId) : Graph :=
  { graph with
    units := graph.units.push { path, artifact, dependencies }
    artifacts := match artifact with
      | none => graph.artifacts
      | some owner => graph.artifacts.modify owner fun node =>
          { node with units := node.units ++ [graph.units.nextId] } }

/-- A known node is known after another came in. -/
theorem get?_push_of_get? {kind : EntityKind} {α : Type} {arena : Arena kind α} {id : Id kind}
    {node : α} (new : α) (h : arena.get? id = some node) :
    (arena.push new).get? id = some node := by
  rw [Arena.get?_push, if_neg (Arena.ne_nextId h), h]

/-- What the units of an artifact may resolve names against. -/
def dependenciesOf (graph : Graph) (artifact : Option ArtifactId) : List ArtifactId :=
  match artifact with
  | none => []
  | some owner => ((graph.artifacts.get? owner).map (·.dependencies)).getD []

/-- A path that has no unit yet gets one, if its artifact is known. -/
theorem addUnit_new {path : String} {artifact : Option ArtifactId}
    (hn : graph.unitAt? path artifact = none)
    (ha : ∀ owner, artifact = some owner → ∃ node, graph.artifacts.get? owner = some node) :
    addUnit path artifact graph =
      (.ok graph.units.nextId, graph.withUnit path artifact (graph.dependenciesOf artifact)) := by
  unfold addUnit
  rw [Action.read_bind, hn]
  cases artifact with
  | none => rfl
  | some owner =>
    obtain ⟨node, hnode⟩ := ha owner rfl
    simp only
    rw [Action.read_bind, Action.bind_of_ok (updateArtifact_known _ hnode),
      checkArtifact_bind { node with units := node.units ++ [graph.units.nextId] }]
    · unfold dependenciesOf
      simp only [hnode, Option.map_some, Option.getD_some]
      rfl
    · simp [Arena.get?_modify, hnode]

private theorem unit_of_withUnit {path : String} {artifact : Option ArtifactId}
    {dependencies : List ArtifactId} {k : UnitId} {node : CompilationUnit}
    (hn : (graph.withUnit path artifact dependencies).units.get? k = some node) :
    (k = graph.units.nextId ∧ node.artifact = artifact ∧ node.declaredTypes = [] ∧
      node.requiredTypes = []) ∨ graph.units.get? k = some node := by
  unfold withUnit at hn
  simp only at hn
  rw [Arena.get?_push] at hn
  split at hn
  · next hk =>
    cases hn
    exact .inl ⟨hk, rfl, rfl, rfl⟩
  · exact .inr hn

private theorem unit_withUnit {path : String} {artifact : Option ArtifactId}
    {dependencies : List ArtifactId} {k : UnitId} {node : CompilationUnit}
    (hn : graph.units.get? k = some node) :
    (graph.withUnit path artifact dependencies).units.get? k = some node :=
  get?_push_of_get? _ hn

/-- The new unit is found under the identifier that was the next one. -/
theorem get?_withUnit_nextId (graph : Graph) (path : String) (artifact : Option ArtifactId)
    (dependencies : List ArtifactId) :
    (graph.withUnit path artifact dependencies).units.get? graph.units.nextId =
      some { path, artifact, dependencies } := by
  unfold withUnit
  simp only
  rw [Arena.get?_push, if_pos rfl]

private theorem artifact_of_withUnit {path : String} {artifact : Option ArtifactId}
    {dependencies : List ArtifactId} {a : ArtifactId} {owner : Artifact}
    (ho : (graph.withUnit path artifact dependencies).artifacts.get? a = some owner) :
    ∃ old, graph.artifacts.get? a = some old ∧
      owner.units = if artifact = some a then old.units ++ [graph.units.nextId] else old.units := by
  unfold withUnit at ho
  cases artifact with
  | none => exact ⟨owner, ho, by simp⟩
  | some b =>
    simp only at ho
    rw [Arena.get?_modify] at ho
    split at ho
    · next hab =>
      obtain ⟨old, hold, rfl⟩ := Option.map_eq_some_iff.1 ho
      exact ⟨old, hold, by simp [hab]⟩
    · next hab => exact ⟨owner, ho, by simp [Ne.symm hab]⟩

/-- A new unit declares and requires nothing. -/
theorem Consistent.withUnit {path : String} {artifact : Option ArtifactId}
    {dependencies : List ArtifactId} (h : Consistent graph)
    (ha : ∀ owner, artifact = some owner → ∃ node, graph.artifacts.get? owner = some node) :
    Consistent (graph.withUnit path artifact dependencies) where
  unique := h.unique
  complete_declared := by
    intro id type unit ht hc
    obtain ⟨node, hn, hm⟩ := h.complete_declared ht hc
    exact ⟨node, unit_withUnit hn, hm⟩
  declared_complete := by
    intro id unit node hn hm
    rcases unit_of_withUnit hn with ⟨-, -, hd, -⟩ | hn'
    · simp [hd] at hm
    · exact h.declared_complete hn' hm
  declared_nodup := by
    intro unit node hn
    rcases unit_of_withUnit hn with ⟨-, -, hd, -⟩ | hn'
    · simp [hd]
    · exact h.declared_nodup hn'
  required_placeholder := by
    intro id unit node hn hm
    rcases unit_of_withUnit hn with ⟨-, -, -, hr⟩ | hn'
    · simp [hr] at hm
    · exact h.required_placeholder hn' hm
  required_nodup := by
    intro unit node hn
    rcases unit_of_withUnit hn with ⟨-, -, -, hr⟩ | hn'
    · simp [hr]
    · exact h.required_nodup hn'
  required_unique := by
    intro id a b x y hx hy hmx hmy
    rcases unit_of_withUnit hx with ⟨-, -, -, hr⟩ | hx'
    · simp [hr] at hmx
    · rcases unit_of_withUnit hy with ⟨-, -, -, hr⟩ | hy'
      · simp [hr] at hmy
      · exact h.required_unique hx' hy' hmx hmy
  requirers_iff := by
    intro id unit
    refine h.requirers_iff.trans ⟨?_, ?_⟩
    · rintro ⟨node, hn, hm⟩
      exact ⟨node, unit_withUnit hn, hm⟩
    · rintro ⟨node, hn, hm⟩
      rcases unit_of_withUnit hn with ⟨-, -, -, hr⟩ | hn'
      · simp [hr] at hm
      · exact ⟨node, hn', hm⟩
  requirers_nodup := h.requirers_nodup
  units_iff := by
    intro a owner unit ho
    obtain ⟨old, hold, hunits⟩ := artifact_of_withUnit ho
    have hiff : unit ∈ old.units ↔ _ := h.units_iff hold
    constructor
    · intro hm
      rw [hunits] at hm
      split at hm
      · next hab =>
        rcases List.mem_append.1 hm with hm | hm
        · obtain ⟨node, hn, hna⟩ := hiff.1 hm
          exact ⟨node, unit_withUnit hn, hna⟩
        · rw [List.mem_singleton.1 hm]
          exact ⟨_, get?_withUnit_nextId .., hab⟩
      · obtain ⟨node, hn, hna⟩ := hiff.1 hm
        exact ⟨node, unit_withUnit hn, hna⟩
    · rintro ⟨node, hn, hna⟩
      rw [hunits]
      rcases unit_of_withUnit hn with ⟨hk, hna', -, -⟩ | hn'
      · rw [if_pos (hna'.symm.trans hna), hk]
        simp
      · have hm := hiff.2 ⟨node, hn', hna⟩
        split
        · exact List.mem_append_left _ hm
        · exact hm
  artifact_known := by
    intro unit node a hn hna
    have hk : ∃ owner, graph.artifacts.get? a = some owner := by
      rcases unit_of_withUnit hn with ⟨-, hna', -, -⟩ | hn'
      · exact ha a (hna'.symm.trans hna)
      · exact h.artifact_known hn' hna
    obtain ⟨owner, ho⟩ := hk
    unfold Graph.withUnit
    cases artifact with
    | none => exact ⟨owner, ho⟩
    | some b =>
      simp only
      rw [Arena.get?_modify, ho]
      split <;> exact ⟨_, rfl⟩

/-- A new unit leaves the placeholders covered. -/
theorem Covered.withUnit {path : String} {artifact : Option ArtifactId}
    {dependencies : List ArtifactId} (h : Covered graph) :
    Covered (graph.withUnit path artifact dependencies) := by
  intro id type ht hc hh
  obtain ⟨unit, node, hn, hm⟩ := h id ht hc hh
  exact ⟨unit, node, unit_withUnit hn, hm⟩

/-- A new artifact has no units. -/
theorem Consistent.withArtifact {name : String} {dependencies : List ArtifactId}
    (h : Consistent graph) :
    Consistent { graph with artifacts := graph.artifacts.push { name, dependencies } } where
  unique := h.unique
  complete_declared := h.complete_declared
  declared_complete := h.declared_complete
  declared_nodup := h.declared_nodup
  required_placeholder := h.required_placeholder
  required_nodup := h.required_nodup
  required_unique := h.required_unique
  requirers_iff := h.requirers_iff
  requirers_nodup := h.requirers_nodup
  units_iff := by
    intro a owner unit ho
    simp only at ho
    rw [Arena.get?_push] at ho
    split at ho
    · next hk =>
      cases ho
      constructor
      · intro hm
        simp at hm
      · rintro ⟨node, hn, hna⟩
        obtain ⟨old, hold⟩ := h.artifact_known hn hna
        exact absurd hk (Arena.ne_nextId hold)
    · exact h.units_iff ho
  artifact_known := by
    intro unit node a hn hna
    obtain ⟨owner, ho⟩ := h.artifact_known hn hna
    exact ⟨owner, get?_push_of_get? _ ho⟩

end Graph

end JavaGraph
