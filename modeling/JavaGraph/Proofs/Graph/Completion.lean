import JavaGraph.Proofs.Graph.Lifecycle
/-!
# Placeholders and declarations

What a scope does to the types of the graph: it makes placeholders that a unit requires, and it
completes them. Both keep the graph consistent, and leave every placeholder covered.
-/

namespace JavaGraph.Graph

variable {graph : Graph}

/-! ### New types -/

/-- No type of a universe has a name. -/
def Lacks (graph : Graph) (name : QualifiedName) (home : Universe) : Prop :=
  ∀ {id type}, graph.types.get? id = some type → type.name = name → type.home ≠ home

private theorem unique_push {name : QualifiedName} {home : Universe} {state : TypeState}
    (h : Consistent graph) (hl : graph.Lacks name home) {a b : TypeId} {x y : TypeNode}
    (hx : (graph.types.push { name, home, state }).get? a = some x)
    (hy : (graph.types.push { name, home, state }).get? b = some y) (hn : x.name = y.name)
    (hh : x.home = y.home) : a = b := by
  rw [Arena.get?_push] at hx hy
  split at hx
  · next ha =>
    cases hx
    split at hy
    · next hb => rw [ha, hb]
    · exact absurd hh.symm (hl hy hn.symm)
  · split at hy
    · cases hy
      exact absurd hh (hl hx hn)
    · exact h.unique hx hy hn hh

/-- A new type of a new name is consistent with the others. -/
theorem Consistent.withType {name : QualifiedName} {home : Universe} (h : Consistent graph)
    (hl : graph.Lacks name home) : Consistent (graph.withType name home) where
  unique := unique_push h hl
  complete_declared := by
    intro id type unit ht hc
    unfold Graph.withType at ht
    rw [Arena.get?_push] at ht
    split at ht
    · cases ht
      cases hc
    · exact h.complete_declared ht hc
  declared_complete := by
    intro id unit node hn hm
    obtain ⟨type, ht, hc⟩ := h.declared_complete hn hm
    exact ⟨type, get?_push_of_get? _ ht, hc⟩
  declared_nodup := h.declared_nodup
  required_placeholder := by
    intro id unit node hn hm
    obtain ⟨type, ht, hc⟩ := h.required_placeholder hn hm
    exact ⟨type, get?_push_of_get? _ ht, hc⟩
  required_nodup := h.required_nodup
  required_unique := h.required_unique
  requirers_iff := h.requirers_iff
  requirers_nodup := h.requirers_nodup
  units_iff := h.units_iff
  artifact_known := h.artifact_known

/-- Other types stay covered. -/
theorem CoveredAt.withType {name : QualifiedName} {home : Universe} {id : TypeId}
    (h : graph.CoveredAt id) (hid : id ≠ graph.types.nextId) :
    (graph.withType name home).CoveredAt id := by
  intro type ht
  unfold Graph.withType at ht
  rw [Arena.get?_push, if_neg hid] at ht
  exact h ht

private theorem nextId_not_required (h : Consistent graph) {unit : UnitId}
    {node : CompilationUnit} (hn : graph.units.get? unit = some node) :
    graph.types.nextId ∉ node.requiredTypes := by
  intro hm
  obtain ⟨type, ht, -⟩ := h.required_placeholder hn hm
  exact Arena.ne_nextId ht rfl

private theorem requirers_nextId (h : Consistent graph) :
    (graph.requirers.find? graph.types.nextId).getD [] = [] := by
  rw [List.eq_nil_iff_forall_not_mem]
  intro unit hu
  obtain ⟨node, hn, hm⟩ := h.requirers_iff.1 hu
  exact nextId_not_required h hn hm

private theorem mem_requiredTypes_withPlaceholder {artifact : ArtifactId} {name : QualifiedName}
    {unit k : UnitId} {source node : CompilationUnit} {id : TypeId}
    (hu : graph.units.get? unit = some source)
    (hn : (graph.withPlaceholder artifact name unit).units.get? k = some node)
    (hm : id ∈ node.requiredTypes) :
    (id = graph.types.nextId ∧ k = unit) ∨
      ∃ old, graph.units.get? k = some old ∧ id ∈ old.requiredTypes := by
  rw [get?_units_withPlaceholder] at hn
  split at hn
  · next hk =>
    rw [hk, hu] at hn
    cases hn
    rcases List.mem_append.1 hm with hm | hm
    · exact .inr ⟨source, by rw [hk, hu], hm⟩
    · exact .inl ⟨List.mem_singleton.1 hm, hk⟩
  · exact .inr ⟨node, hn, hm⟩

/-- A unit keeps all but what it requires when a placeholder comes in. -/
private theorem unit_of_withPlaceholder {artifact : ArtifactId} {name : QualifiedName}
    {unit k : UnitId} {node : CompilationUnit}
    (hn : (graph.withPlaceholder artifact name unit).units.get? k = some node) :
    ∃ old, graph.units.get? k = some old ∧ node.artifact = old.artifact ∧
      node.declaredTypes = old.declaredTypes := by
  rw [get?_units_withPlaceholder] at hn
  split at hn
  · obtain ⟨old, ho, rfl⟩ := Option.map_eq_some_iff.1 hn
    exact ⟨old, ho, rfl, rfl⟩
  · exact ⟨node, hn, rfl, rfl⟩

private theorem unit_withPlaceholder {artifact : ArtifactId} {name : QualifiedName}
    {unit k : UnitId} {old : CompilationUnit} (ho : graph.units.get? k = some old) :
    ∃ node, (graph.withPlaceholder artifact name unit).units.get? k = some node ∧
      node.artifact = old.artifact ∧ node.declaredTypes = old.declaredTypes ∧
      ∀ id ∈ old.requiredTypes, id ∈ node.requiredTypes := by
  rw [get?_units_withPlaceholder, ho]
  split
  · exact ⟨_, rfl, rfl, rfl, fun id hid => List.mem_append_left _ hid⟩
  · exact ⟨_, rfl, rfl, rfl, fun id hid => hid⟩

private theorem type_withPlaceholder {artifact : ArtifactId} {name : QualifiedName} {unit : UnitId}
    {id : TypeId} {type : TypeNode} (ht : graph.types.get? id = some type) :
    (graph.withPlaceholder artifact name unit).types.get? id = some type := by
  rw [get?_types_withPlaceholder, if_neg (Arena.ne_nextId ht), ht]

/-- The unit that requires the new placeholder lists it. -/
private theorem required_withPlaceholder (artifact : ArtifactId) (name : QualifiedName)
    {unit : UnitId} {source : CompilationUnit} (hu : graph.units.get? unit = some source) :
    ∃ node, (graph.withPlaceholder artifact name unit).units.get? unit = some node ∧
      node.artifact = source.artifact ∧ graph.types.nextId ∈ node.requiredTypes := by
  rw [get?_units_withPlaceholder, if_pos rfl, hu]
  exact ⟨_, rfl, rfl, by simp⟩

/-- A placeholder that a unit requires is consistent with the others. -/
theorem Consistent.withPlaceholder {artifact : ArtifactId} {name : QualifiedName} {unit : UnitId}
    {source : CompilationUnit} (h : Consistent graph) (hl : graph.Lacks name (some artifact))
    (hu : graph.units.get? unit = some source) (ha : source.artifact = some artifact) :
    Consistent (graph.withPlaceholder artifact name unit) where
  unique := unique_push h hl
  complete_declared := by
    intro id type k ht hc
    rw [get?_types_withPlaceholder] at ht
    split at ht
    · cases ht
      cases hc
    · obtain ⟨old, ho, hd⟩ := h.complete_declared ht hc
      obtain ⟨node, hn, -, hd', -⟩ := unit_withPlaceholder ho
      exact ⟨node, hn, by rwa [hd']⟩
  declared_complete := by
    intro id k node hn hd
    obtain ⟨old, ho, ha, hd'⟩ := unit_of_withPlaceholder hn
    obtain ⟨type, ht, hc⟩ := h.declared_complete ho (by rwa [← hd'])
    exact ⟨type, type_withPlaceholder ht, by rwa [ha]⟩
  declared_nodup := by
    intro k node hn
    obtain ⟨old, ho, -, hd⟩ := unit_of_withPlaceholder hn
    rw [hd]
    exact h.declared_nodup ho
  required_placeholder := by
    intro id k node hn hm
    rcases mem_requiredTypes_withPlaceholder hu hn hm with ⟨rfl, rfl⟩ | ⟨old, ho, hm'⟩
    · obtain ⟨node', hn', ha', -⟩ :=
        required_withPlaceholder artifact name hu
      rw [hn] at hn'
      cases hn'
      refine ⟨_, by rw [get?_types_withPlaceholder, if_pos rfl], rfl, rfl, ?_⟩
      rw [ha', ha]
    · obtain ⟨old', ho', ha', -⟩ := unit_of_withPlaceholder hn
      rw [ho] at ho'
      cases ho'
      obtain ⟨type, ht, hc⟩ := h.required_placeholder ho hm'
      exact ⟨type, type_withPlaceholder ht, by rwa [ha']⟩
  required_nodup := by
    intro k node hn
    rw [get?_units_withPlaceholder] at hn
    split at hn
    · obtain ⟨old, ho, rfl⟩ := Option.map_eq_some_iff.1 hn
      have hd := (h.required_nodup ho).concat (nextId_not_required h ho)
      rwa [List.concat_eq_append] at hd
    · exact h.required_nodup hn
  required_unique := by
    intro id a b x y hx hy hmx hmy
    rcases mem_requiredTypes_withPlaceholder hu hx hmx with ⟨hi, ha⟩ | ⟨x', hx', hmx'⟩ <;>
      rcases mem_requiredTypes_withPlaceholder hu hy hmy with ⟨hi', hb⟩ | ⟨y', hy', hmy'⟩
    · rw [ha, hb]
    · exact absurd (hi ▸ hmy') (nextId_not_required h hy')
    · exact absurd (hi' ▸ hmx') (nextId_not_required h hx')
    · exact h.required_unique hx' hy' hmx' hmy'
  requirers_iff := by
    intro id k
    rw [find?_requirers_withPlaceholder]
    split
    · next hi =>
      subst hi
      rw [requirers_nextId h]
      simp only [Option.getD_some, List.nil_append, List.mem_singleton]
      constructor
      · rintro rfl
        obtain ⟨node, hn, -, hm⟩ :=
          required_withPlaceholder artifact name hu
        exact ⟨node, hn, hm⟩
      · rintro ⟨node, hn, hm⟩
        rcases mem_requiredTypes_withPlaceholder hu hn hm with ⟨-, hk⟩ | ⟨old, ho, hm'⟩
        · exact hk
        · exact absurd hm' (nextId_not_required h ho)
    · next hi =>
      rw [h.requirers_iff]
      constructor
      · rintro ⟨old, ho, hm⟩
        obtain ⟨node, hn, -, -, hm'⟩ := unit_withPlaceholder ho
        exact ⟨node, hn, hm' id hm⟩
      · rintro ⟨node, hn, hm⟩
        rcases mem_requiredTypes_withPlaceholder hu hn hm with ⟨hi', -⟩ | ⟨old, ho, hm'⟩
        · exact absurd hi'.symm hi
        · exact ⟨old, ho, hm'⟩
  requirers_nodup := by
    intro id
    rw [find?_requirers_withPlaceholder]
    split
    · rw [requirers_nextId h]
      exact List.nodup_singleton unit
    · exact h.requirers_nodup
  units_iff := by
    intro a owner k ho
    rw [h.units_iff ho]
    constructor
    · rintro ⟨old, hk, hka⟩
      obtain ⟨node, hn, ha', -⟩ := unit_withPlaceholder hk
      exact ⟨node, hn, by rw [ha', hka]⟩
    · rintro ⟨node, hn, hka⟩
      obtain ⟨old, hk, ha', -⟩ := unit_of_withPlaceholder hn
      exact ⟨old, hk, by rw [← ha', hka]⟩
  artifact_known := by
    intro k node a hn hna
    obtain ⟨old, ho, ha', -⟩ := unit_of_withPlaceholder hn
    exact h.artifact_known ho (ha' ▸ hna)

/-- A new placeholder that a unit requires is covered, and what was covered stays so. -/
theorem Covered.withPlaceholder {artifact : ArtifactId} {name : QualifiedName} {unit : UnitId}
    {source : CompilationUnit} (h : Covered graph) (hu : graph.units.get? unit = some source) :
    Covered (graph.withPlaceholder artifact name unit) := by
  intro id type ht hc hh
  rw [get?_types_withPlaceholder] at ht
  split at ht
  · next hi =>
    obtain ⟨node, hn, -, hm⟩ := required_withPlaceholder artifact name hu
    exact ⟨unit, node, hn, hi ▸ hm⟩
  · obtain ⟨k, old, ho, hm⟩ := h id ht hc hh
    obtain ⟨node, hn, -, -, hm'⟩ := unit_withPlaceholder ho
    exact ⟨k, node, hn, hm' id hm⟩

/-! ### Declarations -/

/-- A declared type disappears from what every unit requires, and is added to what its unit
declares. -/
theorem Consistent.get?_units_withDeclaration (h : Consistent graph) (id : TypeId) (unit : UnitId)
    (artifact : Option ArtifactId) (k : UnitId) :
    (graph.withDeclaration id unit artifact).units.get? k =
      (graph.units.get? k).map fun node => { node with
        requiredTypes := node.requiredTypes.filter (· ≠ id)
        declaredTypes :=
          if k = unit then node.declaredTypes ++ [id] else node.declaredTypes } := by
  rw [Graph.get?_units_withDeclaration]
  cases hk : graph.units.get? k with
  | none => rfl
  | some node =>
    simp only [Option.map_some]
    congr 2
    split
    · rfl
    · next hr =>
      symm
      rw [List.filter_eq_self]
      intro other ho
      have hne : other ≠ id := by
        rintro rfl
        exact hr (h.requirers_iff.2 ⟨node, hk, ho⟩)
      simpa using hne

private theorem unit_of_withDeclaration (h : Consistent graph) {id : TypeId} {unit : UnitId}
    {artifact : Option ArtifactId} {k : UnitId} {node : CompilationUnit}
    (hn : (graph.withDeclaration id unit artifact).units.get? k = some node) :
    ∃ old, graph.units.get? k = some old ∧ node.artifact = old.artifact ∧
      node.requiredTypes = old.requiredTypes.filter (· ≠ id) ∧
      node.declaredTypes = if k = unit then old.declaredTypes ++ [id] else old.declaredTypes := by
  rw [h.get?_units_withDeclaration] at hn
  obtain ⟨old, ho, rfl⟩ := Option.map_eq_some_iff.1 hn
  exact ⟨old, ho, rfl, rfl, rfl⟩

private theorem unit_withDeclaration (h : Consistent graph) (id : TypeId) (unit : UnitId)
    (artifact : Option ArtifactId) {k : UnitId} {old : CompilationUnit}
    (ho : graph.units.get? k = some old) :
    ∃ node, (graph.withDeclaration id unit artifact).units.get? k = some node ∧
      node.artifact = old.artifact ∧
      node.requiredTypes = old.requiredTypes.filter (· ≠ id) ∧
      node.declaredTypes = if k = unit then old.declaredTypes ++ [id] else old.declaredTypes := by
  rw [h.get?_units_withDeclaration, ho]
  exact ⟨_, rfl, rfl, rfl, rfl⟩

private theorem type_of_withDeclaration {id k : TypeId} {unit : UnitId}
    {artifact : Option ArtifactId} {type : TypeNode}
    (ht : (graph.withDeclaration id unit artifact).types.get? k = some type) :
    ∃ old, graph.types.get? k = some old ∧ type.name = old.name ∧ type.home = old.home ∧
      (k ≠ id → type = old) ∧ (k = id → type.state = .complete unit ∧ type.artifact = artifact) := by
  rw [get?_types_withDeclaration] at ht
  split at ht
  · next hk =>
    obtain ⟨old, ho, rfl⟩ := Option.map_eq_some_iff.1 ht
    exact ⟨old, ho, rfl, rfl, fun hne => absurd hk hne, fun _ => ⟨rfl, rfl⟩⟩
  · next hk => exact ⟨type, ht, rfl, rfl, fun _ => rfl, fun he => absurd he hk⟩

private theorem type_withDeclaration {id k : TypeId} {unit : UnitId} {artifact : Option ArtifactId}
    {type : TypeNode} (ht : graph.types.get? k = some type) (hk : k ≠ id) :
    (graph.withDeclaration id unit artifact).types.get? k = some type := by
  rw [get?_types_withDeclaration, if_neg hk, ht]

private theorem mem_declaredTypes {k unit : UnitId} {old : List TypeId} {id other : TypeId}
    (hm : other ∈ if k = unit then old ++ [id] else old) :
    (k = unit ∧ other = id) ∨ other ∈ old := by
  split at hm
  · next hk =>
    rcases List.mem_append.1 hm with hm | hm
    · exact .inr hm
    · exact .inl ⟨hk, List.mem_singleton.1 hm⟩
  · exact .inr hm

/-- No unit declares a placeholder. -/
theorem Consistent.not_declared (h : Consistent graph) {id : TypeId} {type : TypeNode}
    (ht : graph.types.get? id = some type) (hs : type.isComplete = false) {unit : UnitId}
    {node : CompilationUnit} (hn : graph.units.get? unit = some node) :
    id ∉ node.declaredTypes := by
  intro hm
  obtain ⟨other, ho, hc, -⟩ := h.declared_complete hn hm
  rw [ht] at ho
  cases ho
  rw [TypeNode.isComplete_eq_true.2 ⟨unit, hc⟩] at hs
  cases hs

/-- A placeholder can be declared by a unit of its universe. -/
theorem Consistent.withDeclaration {id : TypeId} {type : TypeNode} {unit : UnitId}
    {source : CompilationUnit} (h : Consistent graph) (ht : graph.types.get? id = some type)
    (hs : type.isComplete = false) (hu : graph.units.get? unit = some source)
    (ha : source.artifact = type.home) :
    Consistent (graph.withDeclaration id unit type.home) where
  unique := by
    intro a b x y hx hy hn hh
    obtain ⟨x', hx', hnx, hhx, -⟩ := type_of_withDeclaration hx
    obtain ⟨y', hy', hny, hhy, -⟩ := type_of_withDeclaration hy
    exact h.unique hx' hy' (by rw [← hnx, ← hny, hn]) (by rw [← hhx, ← hhy, hh])
  complete_declared := by
    intro k node declarer hk hc
    obtain ⟨old, ho, -, -, hne, heq⟩ := type_of_withDeclaration hk
    by_cases hki : k = id
    · rw [(heq hki).1] at hc
      cases hc
      obtain ⟨owner, hown, -, -, hd⟩ :=
        unit_withDeclaration h id unit type.home hu
      exact ⟨owner, hown, by simp [hd, hki]⟩
    · rw [hne hki] at hc
      obtain ⟨owner, hown, hm⟩ := h.complete_declared ho hc
      obtain ⟨owner', hown', -, -, hd⟩ :=
        unit_withDeclaration h id unit type.home hown
      refine ⟨owner', hown', ?_⟩
      rw [hd]
      split
      · exact List.mem_append_left _ hm
      · exact hm
  declared_complete := by
    intro k owner node hn hm
    obtain ⟨old, ho, hoa, -, hd⟩ := unit_of_withDeclaration h hn
    rw [hd] at hm
    rcases mem_declaredTypes hm with ⟨rfl, rfl⟩ | hm'
    · rw [hu] at ho
      cases ho
      rw [get?_types_withDeclaration, if_pos rfl, ht]
      exact ⟨_, rfl, rfl, by rw [hoa, ha], by rw [hoa, ha]⟩
    · have hne : k ≠ id := by
        rintro rfl
        exact h.not_declared ht hs ho hm'
      obtain ⟨type', ht', hc⟩ := h.declared_complete ho hm'
      exact ⟨type', type_withDeclaration ht' hne, by rwa [hoa]⟩
  declared_nodup := by
    intro k node hn
    obtain ⟨old, ho, -, -, hd⟩ := unit_of_withDeclaration h hn
    rw [hd]
    split
    · have hc := (h.declared_nodup ho).concat (h.not_declared ht hs ho)
      rwa [List.concat_eq_append] at hc
    · exact h.declared_nodup ho
  required_placeholder := by
    intro k owner node hn hm
    obtain ⟨old, ho, hoa, hr, -⟩ := unit_of_withDeclaration h hn
    rw [hr, List.mem_filter] at hm
    obtain ⟨type', ht', hc⟩ := h.required_placeholder ho hm.1
    exact ⟨type', type_withDeclaration ht' (by simpa using hm.2), by rwa [hoa]⟩
  required_nodup := by
    intro k node hn
    obtain ⟨old, ho, -, hr, -⟩ := unit_of_withDeclaration h hn
    rw [hr]
    exact (h.required_nodup ho).filter _
  required_unique := by
    intro k a b x y hx hy hmx hmy
    obtain ⟨x', hx', -, hrx, -⟩ := unit_of_withDeclaration h hx
    obtain ⟨y', hy', -, hry, -⟩ := unit_of_withDeclaration h hy
    rw [hrx, List.mem_filter] at hmx
    rw [hry, List.mem_filter] at hmy
    exact h.required_unique hx' hy' hmx.1 hmy.1
  requirers_iff := by
    intro k owner
    rw [find?_requirers_withDeclaration]
    split
    · next hk =>
      constructor
      · intro hm
        simp at hm
      · rintro ⟨node, hn, hm⟩
        obtain ⟨old, ho, -, hr, -⟩ := unit_of_withDeclaration h hn
        rw [hr, List.mem_filter] at hm
        simp [hk] at hm
    · next hk =>
      rw [h.requirers_iff]
      constructor
      · rintro ⟨old, ho, hm⟩
        obtain ⟨node, hn, -, hr, -⟩ :=
          unit_withDeclaration h id unit type.home ho
        exact ⟨node, hn, by rw [hr, List.mem_filter]; simp [hm, Ne.symm hk]⟩
      · rintro ⟨node, hn, hm⟩
        obtain ⟨old, ho, -, hr, -⟩ := unit_of_withDeclaration h hn
        rw [hr, List.mem_filter] at hm
        exact ⟨old, ho, hm.1⟩
  requirers_nodup := by
    intro k
    rw [find?_requirers_withDeclaration]
    split
    · exact List.nodup_nil
    · exact h.requirers_nodup
  units_iff := by
    intro a owner k ho
    rw [h.units_iff ho]
    constructor
    · rintro ⟨old, hk, hka⟩
      obtain ⟨node, hn, ha', -⟩ :=
        unit_withDeclaration h id unit type.home hk
      exact ⟨node, hn, by rw [ha', hka]⟩
    · rintro ⟨node, hn, hka⟩
      obtain ⟨old, hk, ha', -⟩ := unit_of_withDeclaration h hn
      exact ⟨old, hk, by rw [← ha', hka]⟩
  artifact_known := by
    intro k node a hn hna
    obtain ⟨old, ho, ha', -⟩ := unit_of_withDeclaration h hn
    exact h.artifact_known ho (ha' ▸ hna)

/-- A declaration leaves only the declared type uncovered, and that one is complete. -/
theorem Consistent.covered_withDeclaration {id : TypeId} {unit : UnitId}
    {artifact : Option ArtifactId} (h : Consistent graph)
    (hc : ∀ k, k ≠ id → graph.CoveredAt k) : Covered (graph.withDeclaration id unit artifact) := by
  intro k type ht hs hh
  obtain ⟨old, ho, -, -, hne, heq⟩ := type_of_withDeclaration ht
  by_cases hk : k = id
  · rw [TypeNode.isComplete_eq_true.2 ⟨unit, (heq hk).1⟩] at hs
    cases hs
  · obtain rfl := hne hk
    obtain ⟨owner, node, hn, hm⟩ := hc k hk ho hs hh
    obtain ⟨node', hn', -, hr, -⟩ :=
      unit_withDeclaration h id unit artifact hn
    exact ⟨owner, node', hn', by rw [hr, List.mem_filter]; simp [hm, hk]⟩

end JavaGraph.Graph
