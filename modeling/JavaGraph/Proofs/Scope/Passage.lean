import JavaGraph.Proofs.Scope.Lifecycle
/-!
# Entering and leaving scopes

The scope of an artifact begins with every type that the units of the artifact declare or require.
In a sound graph these are exactly the types of its universe. When the scope is left, nothing is
held any more.
-/

namespace JavaGraph

variable {graph : Graph}

namespace ArtifactScope

/-! ### What a scope begins with -/

/-- The types that a unit declares or requires. -/
def listedBy (graph : Graph) (unit : UnitId) : List TypeId :=
  match graph.units.get? unit with
  | some node => node.declaredTypes ++ node.requiredTypes
  | none => []

/-- Whether a type has a name. -/
def isNamed (graph : Graph) (name : QualifiedName) (id : TypeId) : Bool :=
  (graph.types.get? id).any (·.name = name)

private theorem seed_types (graph : Graph) (ids : List TypeId)
    (hk : ∀ id ∈ ids, ∃ type, graph.types.get? id = some type) :
    ∀ known : Table QualifiedName TypeId, ∃ after,
      ids.foldlM (fun known id => do
        let type ← graph.types.get id
        return known.insertIfNew type.name id) known = Except.ok after ∧
      ∀ name, after.find? name = (known.find? name).or (ids.find? (isNamed graph name)) := by
  induction ids with
  | nil =>
    intro known
    exact ⟨known, rfl, by simp⟩
  | cons id rest ih =>
    intro known
    obtain ⟨type, ht⟩ := hk id (List.mem_cons_self ..)
    obtain ⟨after, hrun, hfind⟩ :=
      ih (fun k hm => hk k (List.mem_cons_of_mem _ hm)) (known.insertIfNew type.name id)
    refine ⟨after, ?_, ?_⟩
    · have hg : graph.types.get id = .ok type := by simp [Arena.get, ht]
      rw [List.foldlM_cons, hg]
      exact hrun
    · intro name
      rw [hfind, Table.find?_insertIfNew, List.find?_cons]
      by_cases hn : type.name = name
      · rw [if_pos hn]
        have hp : isNamed graph name id = true := by simp [isNamed, ht, hn]
        rw [hp]
        cases known.find? name <;> simp
      · rw [if_neg hn]
        have hp : isNamed graph name id = false := by simp [isNamed, ht, hn]
        rw [hp]

private theorem seed_units (units : List UnitId)
    (hu : ∀ unit ∈ units, ∃ node, graph.units.get? unit = some node)
    (hk : ∀ unit ∈ units, ∀ id ∈ listedBy graph unit, ∃ type, graph.types.get? id = some type) :
    ∀ known : Table QualifiedName TypeId, ∃ after,
      units.foldlM (fun known unit => do
        let node ← graph.units.get unit
        (node.declaredTypes ++ node.requiredTypes).foldlM (fun known id => do
          let type ← graph.types.get id
          return known.insertIfNew type.name id) known) known = Except.ok after ∧
      ∀ name, after.find? name =
        (known.find? name).or ((units.flatMap (listedBy graph)).find? (isNamed graph name)) := by
  induction units with
  | nil =>
    intro known
    exact ⟨known, rfl, by simp⟩
  | cons unit rest ih =>
    intro known
    obtain ⟨node, hn⟩ := hu unit (List.mem_cons_self ..)
    have hl : listedBy graph unit = node.declaredTypes ++ node.requiredTypes := by
      simp [listedBy, hn]
    obtain ⟨middle, hrun, hfind⟩ := seed_types graph
      (node.declaredTypes ++ node.requiredTypes)
      (fun id hid => hk unit (List.mem_cons_self ..) id (hl ▸ hid)) known
    obtain ⟨after, hrun', hfind'⟩ :=
      ih (fun k hm => hu k (List.mem_cons_of_mem _ hm))
        (fun k hm => hk k (List.mem_cons_of_mem _ hm)) middle
    refine ⟨after, ?_, ?_⟩
    · have hg : graph.units.get unit = .ok node := by simp [Arena.get, hn]
      rw [List.foldlM_cons, hg]
      change (List.foldlM _ known (node.declaredTypes ++ node.requiredTypes) >>= _) = _
      rw [hrun]
      exact hrun'
    · intro name
      rw [hfind', hfind, List.flatMap_cons, hl, Option.or_assoc, ← List.find?_append]

/-- The types that the units of an artifact list are those of its universe. -/
theorem mem_listed_iff (h : graph.Consistent) (hc : graph.Covered) {artifact : ArtifactId}
    {owner : Artifact} (ho : graph.artifacts.get? artifact = some owner) {id : TypeId} :
    id ∈ owner.units.flatMap (listedBy graph) ↔
      ∃ type, graph.types.get? id = some type ∧ type.home = some artifact := by
  rw [List.mem_flatMap]
  constructor
  · rintro ⟨unit, hu, hid⟩
    obtain ⟨node, hn, ha⟩ := (h.units_iff ho).1 hu
    simp only [listedBy, hn] at hid
    rcases List.mem_append.1 hid with hid | hid
    · obtain ⟨type, ht, -, -, hh⟩ := h.declared_complete hn hid
      exact ⟨type, ht, hh.trans ha⟩
    · obtain ⟨type, ht, -, -, hh⟩ := h.required_placeholder hn hid
      exact ⟨type, ht, hh.trans ha⟩
  · rintro ⟨type, ht, hh⟩
    cases hs : type.isComplete with
    | true =>
      obtain ⟨unit, hunit⟩ := TypeNode.isComplete_eq_true.1 hs
      obtain ⟨node, hn, hd⟩ := h.complete_declared ht hunit
      obtain ⟨type', ht', -, -, hh'⟩ := h.declared_complete hn hd
      rw [ht] at ht'
      cases ht'
      refine ⟨unit, (h.units_iff ho).2 ⟨node, hn, hh'.symm.trans hh⟩, ?_⟩
      simp only [listedBy, hn]
      exact List.mem_append_left _ hd
    | false =>
      obtain ⟨unit, node, hn, hr⟩ := hc id ht hs (by simp [hh])
      obtain ⟨type', ht', -, -, hh'⟩ := h.required_placeholder hn hr
      rw [ht] at ht'
      cases ht'
      refine ⟨unit, (h.units_iff ho).2 ⟨node, hn, hh'.symm.trans hh⟩, ?_⟩
      simp only [listedBy, hn]
      exact List.mem_append_right _ hr

/-- The scope of a known artifact can be entered, and it then knows exactly the types of its
universe, by name. -/
theorem enter_ok (h : graph.Consistent) (hc : graph.Covered) {artifact : ArtifactId}
    {owner : Artifact} (ho : graph.artifacts.get? artifact = some owner) :
    ∃ known, enter graph artifact =
        .ok { artifact, dependencies := owner.dependencies, known } ∧
      ∀ {name id}, known.find? name = some id ↔
        ∃ type, graph.types.get? id = some type ∧ type.name = name ∧
          type.home = some artifact := by
  have hu : ∀ unit ∈ owner.units, ∃ node, graph.units.get? unit = some node := by
    intro unit hunit
    obtain ⟨node, hn, -⟩ := (h.units_iff ho).1 hunit
    exact ⟨node, hn⟩
  have hk : ∀ unit ∈ owner.units, ∀ id ∈ listedBy graph unit,
      ∃ type, graph.types.get? id = some type := by
    intro unit hunit id hid
    obtain ⟨type, ht, -⟩ := (mem_listed_iff h hc ho).1 (List.mem_flatMap.2 ⟨unit, hunit, hid⟩)
    exact ⟨type, ht⟩
  obtain ⟨known, hrun, hfind⟩ := seed_units owner.units hu hk {}
  refine ⟨known, ?_, ?_⟩
  · have hg : graph.artifacts.get artifact = .ok owner := by simp [Arena.get, ho]
    have hs : seed graph owner.units = .ok known := hrun
    simp only [enter, hg, bind, Except.bind, hs, pure, Except.pure]
  · intro name id
    rw [hfind, Table.find?_empty, Option.none_or]
    constructor
    · intro hf
      obtain ⟨type, ht, hh⟩ := (mem_listed_iff h hc ho).1 (List.mem_of_find?_eq_some hf)
      have hn := List.find?_some hf
      exact ⟨type, ht, by simpa [isNamed, ht] using hn, hh⟩
    · rintro ⟨type, ht, hn, hh⟩
      have hm := (mem_listed_iff h hc ho).2 ⟨type, ht, hh⟩
      cases hf : (owner.units.flatMap (listedBy graph)).find? (isNamed graph name) with
      | none =>
        have := List.find?_eq_none.1 hf id hm
        simp [isNamed, ht, hn] at this
      | some other =>
        obtain ⟨type', ht', hh'⟩ := (mem_listed_iff h hc ho).1 (List.mem_of_find?_eq_some hf)
        have hn' : type'.name = name := by
          have hp := List.find?_some hf
          simpa [isNamed, ht'] using hp
        rw [h.unique ht' ht (hn'.trans hn.symm) (hh'.trans hh.symm)]

/-! ### What a scope leaves behind -/

private theorem forEach_unhold (ids : List TypeId) :
    ∀ graph : Graph, (∀ id ∈ ids, ∃ type, graph.types.get? id = some type) →
      ∃ types : Arena .type TypeNode,
        (Action.forEach ids fun id => Graph.updateType id (·.setRequiredBy none)) graph =
          (.ok (), { graph with types }) ∧
        ∀ k, types.get? k = (graph.types.get? k).map fun type =>
          if k ∈ ids then type.setRequiredBy none else type := by
  induction ids with
  | nil =>
    intro graph _
    exact ⟨graph.types, rfl, by simp⟩
  | cons id rest ih =>
    intro graph h
    obtain ⟨type, ht⟩ := h id (List.mem_cons_self ..)
    obtain ⟨types, hrun, hget⟩ :=
      ih { graph with types := graph.types.modify id (·.setRequiredBy none) } (by
        intro k hk
        obtain ⟨other, ho⟩ := h k (List.mem_cons_of_mem _ hk)
        simp only
        rw [Arena.get?_modify, ho]
        split <;> exact ⟨_, rfl⟩)
    refine ⟨types, ?_, ?_⟩
    · rw [Action.forEach, Action.bind_of_ok (Graph.updateType_known _ ht), hrun]
    · intro k
      rw [hget]
      simp only
      rw [Arena.get?_modify]
      by_cases hk : k = id
      · subst hk
        cases graph.types.get? k with
        | none => simp
        | some node =>
          by_cases hr : k ∈ rest
          · cases hs : node.state <;> simp [hr, TypeNode.setRequiredBy, hs]
          · simp [hr]
      · simp [hk]

/-- A scope whose placeholders are known can be left. It lets go of them, and nothing else
changes. -/
theorem leave_run {scope : ArtifactScope} (answers : Bool)
    (h : ∀ id ∈ scope.created, ∃ type, graph.types.get? id = some type) :
    ∃ after, scope.leave ⟨graph, answers⟩ = (.ok (), ⟨after, answers⟩) ∧
      Graph.SameLedger graph after ∧
      ∀ k, after.types.get? k = (graph.types.get? k).map fun type =>
        if k ∈ scope.created then type.setRequiredBy none else type := by
  obtain ⟨types, hrun, hget⟩ := forEach_unhold scope.created graph h
  refine ⟨{ graph with types }, Store.onGraph_run hrun, ⟨?_, ?_, fun _ => rfl, rfl, rfl⟩, hget⟩
  · intro k
    simp only
    rw [hget]
    cases graph.types.get? k with
    | none => rfl
    | some type =>
      simp only [Option.map_some]
      split
      · cases hs : type.state <;>
          simp [TypeNode.ledger, TypeNode.setRequiredBy, hs, TypeState.declaredBy]
      · rfl
  · intro k x unit hx hr
    simp only at hx
    rw [hget] at hx
    obtain ⟨old, ho, rfl⟩ := Option.map_eq_some_iff.1 hx
    refine ⟨old, ho, ?_⟩
    split at hr
    · cases hs : old.state <;>
        simp [TypeNode.setRequiredBy, hs, TypeState.requiredBy] at hr
    · exact hr

/-- Leaving a scope succeeds. Only what was held for units changes, and nothing is held any
more. -/
theorem leave_ok {scope : ArtifactScope} (answers : Bool) (h : scope.Fits graph) :
    ∃ after, scope.leave ⟨graph, answers⟩ = (.ok (), ⟨after, answers⟩) ∧
      Graph.SameLedger graph after ∧ after.Unheld := by
  obtain ⟨after, hrun, hledger, hget⟩ := leave_run answers fun id hid => h.created_known hid
  refine ⟨after, hrun, hledger, fun {k type} ht => ?_⟩
  rw [hget] at ht
  obtain ⟨old, ho, rfl⟩ := Option.map_eq_some_iff.1 ht
  split
  · cases hs : old.state <;> simp [TypeNode.setRequiredBy, hs, TypeState.requiredBy]
  · next hk =>
    cases hr : old.state.requiredBy with
    | none => rfl
    | some unit => exact absurd (h.created_of_held ho hr) hk

end ArtifactScope

namespace Scope

/-- Entering the scope of a known artifact, or the global one, begins soundly. -/
theorem enter_sound (h : graph.Consistent) (hc : graph.Covered) (hu : graph.Unheld)
    {artifact : Option ArtifactId} {scope : Scope} (he : enter graph artifact = .ok scope) :
    Sound graph scope ∧ scope.artifact? = artifact := by
  cases artifact with
  | none =>
    cases he
    exact ⟨⟨h, hc, hu⟩, rfl⟩
  | some artifact =>
    cases ho : graph.artifacts.get? artifact with
    | none =>
      simp [enter, ArtifactScope.enter, Arena.get, ho, bind, Except.bind, Functor.map,
        Except.map] at he
    | some owner =>
      obtain ⟨known, hrun, hknown⟩ := ArtifactScope.enter_ok h hc ho
      simp only [enter, hrun, Functor.map, Except.map, Except.ok.injEq] at he
      subst he
      refine ⟨⟨h, hc, ⟨owner, ho⟩, hknown, ?_, ?_⟩, rfl⟩
      · intro id type unit ht hr
        rw [hu ht] at hr
        cases hr
      · intro id hid
        simp at hid

/-- Leaving a scope succeeds and leaves a sound graph in which nothing is held. -/
theorem leave_sound {scope : Scope} (answers : Bool) (h : Sound graph scope) :
    ∃ after, scope.leave ⟨graph, answers⟩ = (.ok (), ⟨after, answers⟩) ∧
      after.Consistent ∧ after.Covered ∧ after.Unheld := by
  cases scope with
  | ofArtifact scope =>
    obtain ⟨after, hrun, hs, hu⟩ := ArtifactScope.leave_ok answers h.fits
    exact ⟨after, hrun, h.consistent.of_sameLedger hs,
      fun id => Graph.CoveredAt.of_sameLedger (h.covered id) hs, hu⟩
  | global => exact ⟨graph, rfl, h.consistent, h.covered, h.fits⟩

end Scope

end JavaGraph
