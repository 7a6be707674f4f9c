import JavaGraph.Graph.Basic
import JavaGraph.Proofs.Action
/-!
# What the operations of the graph do

One equation for each operation: what it gives and the graph it leaves, when the identifiers that
it is given are known. The graphs are written with `Arena.push` and `Arena.modify`, whose view is
`Arena.get?`.
-/

namespace JavaGraph

/-! ### Arenas -/

namespace Arena

variable {kind : EntityKind} {α : Type}

/-- The arena with a node changed, if there is one. -/
def modify (arena : Arena kind α) (id : Id kind) (f : α → α) : Arena kind α :=
  ⟨arena.nodes.modify id.index f⟩

/-- No node has the next identifier. -/
@[simp] theorem get?_nextId (arena : Arena kind α) : arena.get? arena.nextId = none := by
  simp [get?, nextId, size]

/-- A known identifier is not the next one. -/
theorem ne_nextId {arena : Arena kind α} {id : Id kind} {node : α}
    (h : arena.get? id = some node) : id ≠ arena.nextId := by
  rintro rfl
  rw [get?_nextId] at h
  cases h

/-- The node that was changed is found changed, and nothing else changes. -/
theorem get?_modify (arena : Arena kind α) (id k : Id kind) (f : α → α) :
    (arena.modify id f).get? k = if k = id then (arena.get? k).map f else arena.get? k := by
  obtain ⟨i⟩ := id
  obtain ⟨j⟩ := k
  simp only [get?, modify, Array.getElem?_modify, Id.mk.injEq]
  split
  · next h => simp [h]
  · next h => simp [Ne.symm h]

/-- A change makes no new nodes. -/
@[simp] theorem size_modify (arena : Arena kind α) (id : Id kind) (f : α → α) :
    (arena.modify id f).size = arena.size := by
  simp [size, modify]

/-- A change does not take the next identifier. -/
@[simp] theorem nextId_modify (arena : Arena kind α) (id : Id kind) (f : α → α) :
    (arena.modify id f).nextId = arena.nextId := by
  simp [nextId]

/-- A new node takes the next identifier. -/
@[simp] theorem size_push (arena : Arena kind α) (node : α) :
    (arena.push node).size = arena.size + 1 := by
  simp [size, push]

/-- Known nodes are changed without an error. -/
theorem update_of_get? {arena : Arena kind α} {id : Id kind} {node : α} (f : α → α)
    (h : arena.get? id = some node) : arena.update id f = .ok (arena.modify id f) := by
  have hlt : id.index < arena.size := by
    unfold get? at h
    exact (Array.getElem?_eq_some_iff.1 h).1
  rw [update, if_pos hlt, modify]

/-- A change of the newest node is a change before it came in. -/
theorem modify_push (arena : Arena kind α) (node : α) (f : α → α) :
    (arena.push node).modify arena.nextId f = arena.push (f node) := by
  obtain ⟨nodes⟩ := arena
  simp only [push, modify, nextId, size, mk.injEq]
  apply Array.ext_getElem?
  intro i
  rw [Array.getElem?_modify, Array.getElem?_push, Array.getElem?_push]
  split
  · next h => simp [← h]
  · next h => simp [Ne.symm h]

/-- The known identifiers are those of nodes. -/
theorem mem_ids {arena : Arena kind α} {id : Id kind} :
    id ∈ arena.ids ↔ (arena.get? id).isSome := by
  obtain ⟨i⟩ := id
  simp [ids, get?, size]

/-- The nodes that satisfy `p` are found. -/
theorem mem_idsWhere {arena : Arena kind α} {p : α → Bool} {id : Id kind} :
    id ∈ arena.idsWhere p ↔ ∃ node, arena.get? id = some node ∧ p node = true := by
  unfold idsWhere
  rw [List.mem_filter, mem_ids]
  cases h : arena.get? id with
  | none => simp
  | some node => simp

end Arena

/-! ### Sequences of actions -/

namespace Action

variable {ε σ τ α β : Type}

/-- What succeeds is followed by the next action. -/
theorem bind_of_ok {action : Action ε σ α} {next : α → Action ε σ β} {state middle : σ} {value : α}
    (h : action state = (.ok value, middle)) : (action >>= next) state = next value middle := by
  simp only [Bind.bind, h]

/-- What is read off the state is passed on. -/
theorem read_bind (f : σ → α) (next : α → Action ε σ β) (state : σ) :
    (read f >>= next) state = next (f state) state := rfl

/-- A change is followed by the next action. -/
theorem change_bind (f : σ → σ) (next : Unit → Action ε σ β) (state : σ) :
    (change f >>= next) state = next () (f state) := rfl

/-- A value is passed on. -/
theorem pure_bind (value : α) (next : α → Action ε σ β) (state : σ) :
    ((pure value : Action ε σ α) >>= next) state = next value state := rfl

/-- What is read off the state without a failure is passed on. -/
theorem check_bind {f : σ → Except ε α} {next : α → Action ε σ β} {state : σ} {value : α}
    (h : f state = .ok value) : (check f >>= next) state = next value state :=
  bind_of_ok (by rw [check, h])

/-- Three actions in sequence. -/
theorem bind_assoc (action : Action ε σ α) (next : α → Action ε σ β) (last : β → Action ε σ γ) :
    (action >>= next) >>= last = action >>= fun value => next value >>= last := by
  funext state
  simp only [Bind.bind]
  cases action state with
  | mk result middle => cases result <;> rfl

/-- What fails is the end. -/
theorem bind_of_error {action : Action ε σ α} {next : α → Action ε σ β} {state middle : σ} {e : ε}
    (h : action state = (.error e, middle)) : (action >>= next) state = (.error e, middle) := by
  simp only [Bind.bind, h]

/-- What succeeds in sequence succeeds step by step. -/
theorem ok_of_bind {action : Action ε σ α} {next : α → Action ε σ β} {state after : σ} {value : β}
    (h : (action >>= next) state = (.ok value, after)) :
    ∃ first middle, action state = (.ok first, middle) ∧ next first middle = (.ok value, after) := by
  cases ha : action state with
  | mk result middle =>
    cases result with
    | ok first =>
      rw [bind_of_ok ha] at h
      exact ⟨first, middle, rfl, h⟩
    | error e =>
      rw [bind_of_error ha] at h
      cases h

end Action

namespace Graph

variable {graph : Graph}

/-! ### Finding types and units -/

/-- The type found under a name is of that name and universe. -/
theorem get?_of_typeIn? {name : String} {home : Universe} {id : TypeId}
    (h : graph.typeIn? name home = some id) :
    ∃ type, graph.types.get? id = some type ∧ type.name.text = name ∧ type.home = home := by
  unfold typeIn? at h
  have hm := List.mem_of_find?_eq_some h
  have hp := List.find?_some h
  unfold typesNamed at hm
  obtain ⟨type, ht, hn⟩ := Arena.mem_idsWhere.1 hm
  refine ⟨type, ht, by simpa using hn, ?_⟩
  simpa [ht] using hp

/-- If no type is found under a name, there is none of that name and universe. -/
theorem ne_of_typeIn?_eq_none {name : String} {home : Universe} {id : TypeId} {type : TypeNode}
    (h : graph.typeIn? name home = none) (ht : graph.types.get? id = some type)
    (hn : type.name.text = name) : type.home ≠ home := by
  intro hh
  unfold typeIn? at h
  have hp := List.find?_eq_none.1 h id (by
    unfold typesNamed
    exact Arena.mem_idsWhere.2 ⟨type, ht, by simp [hn]⟩)
  simp [ht, hh] at hp

/-- The unit found under a path is of that path and artifact. -/
theorem get?_of_unitAt? {path : String} {artifact : Option ArtifactId} {id : UnitId}
    (h : graph.unitAt? path artifact = some id) :
    ∃ unit, graph.units.get? id = some unit ∧ unit.path = path ∧ unit.artifact = artifact := by
  unfold unitAt? at h
  obtain ⟨unit, hu, hp⟩ := Arena.mem_idsWhere.1 (List.mem_of_head? h)
  exact ⟨unit, hu, by simpa using hp⟩

/-- If no unit is found under a path, there is none of that path and artifact. -/
theorem ne_of_unitAt?_eq_none {path : String} {artifact : Option ArtifactId} {id : UnitId}
    {unit : CompilationUnit} (h : graph.unitAt? path artifact = none)
    (hu : graph.units.get? id = some unit) (hp : unit.path = path) : unit.artifact ≠ artifact := by
  intro ha
  unfold unitAt? at h
  rw [List.head?_eq_none_iff] at h
  have hm : id ∈ graph.units.idsWhere fun unit => unit.path = path ∧ unit.artifact = artifact :=
    Arena.mem_idsWhere.2 ⟨unit, hu, by simp [hp, ha]⟩
  rw [h] at hm
  cases hm

/-! ### Known nodes -/

/-- A known type is passed on. -/
theorem checkType_bind {β : Type} {id : TypeId} {type : TypeNode}
    {next : TypeNode → GraphAction β} (h : graph.types.get? id = some type) :
    ((Action.check fun graph : Graph => graph.types.get id) >>= next) graph = next type graph :=
  Action.check_bind (f := fun graph : Graph => graph.types.get id) (by simp [Arena.get, h])

/-- A known unit is passed on. -/
theorem checkUnit_bind {β : Type} {id : UnitId} {unit : CompilationUnit}
    {next : CompilationUnit → GraphAction β} (h : graph.units.get? id = some unit) :
    ((Action.check fun graph : Graph => graph.units.get id) >>= next) graph = next unit graph :=
  Action.check_bind (f := fun graph : Graph => graph.units.get id) (by simp [Arena.get, h])

/-- A known artifact is passed on. -/
theorem checkArtifact_bind {β : Type} {id : ArtifactId} (artifact : Artifact)
    {next : Artifact → GraphAction β} (h : graph.artifacts.get? id = some artifact) :
    ((Action.check fun graph : Graph => graph.artifacts.get id) >>= next) graph =
      next artifact graph :=
  Action.check_bind (f := fun graph : Graph => graph.artifacts.get id) (by simp [Arena.get, h])

/-! ### Changing nodes -/

/-- A known type is changed. -/
theorem updateType_known {id : TypeId} {type : TypeNode} (f : TypeNode → TypeNode)
    (h : graph.types.get? id = some type) :
    updateType id f graph = (.ok (), { graph with types := graph.types.modify id f }) := by
  simp [updateType, Action.tryChange, Arena.update_of_get? f h, Bind.bind, Except.bind, pure,
    Except.pure]

/-- A type that is changed is known. -/
theorem known_of_updateType {id : TypeId} {f : TypeNode → TypeNode} {after : Graph}
    (h : updateType id f graph = (.ok (), after)) : ∃ x, graph.types.get? id = some x := by
  cases hx : graph.types.get? id with
  | some x => exact ⟨x, rfl⟩
  | none =>
    have he := Arena.update_eq_error_iff (f := f) |>.2 ⟨hx, rfl⟩
    simp [updateType, Action.tryChange, he, Bind.bind, Except.bind] at h

/-- A change of a type that succeeds changes it. -/
theorem eq_of_updateType {id : TypeId} {f : TypeNode → TypeNode} {after : Graph}
    (h : updateType id f graph = (.ok (), after)) :
    after = { graph with types := graph.types.modify id f } := by
  obtain ⟨type, hx⟩ := known_of_updateType h
  rw [updateType_known f hx] at h
  cases h
  rfl

/-- A failed change of a type changes nothing. -/
theorem eq_of_updateType_error {id : TypeId} {f : TypeNode → TypeNode} {after : Graph}
    {e : GraphError} (h : updateType id f graph = (.error e, after)) : after = graph := by
  cases hx : graph.types.get? id with
  | none =>
    have he := Arena.update_eq_error_iff (f := f) |>.2 ⟨hx, rfl⟩
    simp only [updateType, Action.tryChange, he, Bind.bind, Except.bind] at h
    cases h
    rfl
  | some type =>
    rw [updateType_known f hx] at h
    cases h

/-- A known unit is changed. -/
theorem updateUnit_known {id : UnitId} {unit : CompilationUnit}
    (f : CompilationUnit → CompilationUnit) (h : graph.units.get? id = some unit) :
    updateUnit id f graph = (.ok (), { graph with units := graph.units.modify id f }) := by
  simp [updateUnit, Action.tryChange, Arena.update_of_get? f h, Bind.bind, Except.bind, pure,
    Except.pure]

/-- A known artifact is changed. -/
theorem updateArtifact_known {id : ArtifactId} {artifact : Artifact} (f : Artifact → Artifact)
    (h : graph.artifacts.get? id = some artifact) :
    updateArtifact id f graph =
      (.ok (), { graph with artifacts := graph.artifacts.modify id f }) := by
  simp [updateArtifact, Action.tryChange, Arena.update_of_get? f h, Bind.bind, Except.bind, pure,
    Except.pure]

/-! ### New nodes -/

/-- The graph with one more placeholder that nobody requires. -/
def withType (graph : Graph) (name : QualifiedName) (home : Universe) : Graph :=
  { graph with types := graph.types.push { name, home } }

/-- The new placeholder is found under the identifier that was the next one. -/
theorem get?_withType_nextId (graph : Graph) (name : QualifiedName) (home : Universe) :
    (graph.withType name home).types.get? graph.types.nextId = some { name, home } := by
  unfold withType
  rw [Arena.get?_push, if_pos rfl]

/-- A new placeholder takes the next identifier. -/
theorem addType_run (name : QualifiedName) (home : Universe) :
    addType name home graph = (.ok graph.types.nextId, graph.withType name home) := rfl

/-- The graph in which a unit requires a type. -/
def withRequirement (graph : Graph) (unit : UnitId) (type : TypeId) : Graph :=
  { graph with
    units := graph.units.modify unit fun node =>
      { node with requiredTypes := node.requiredTypes ++ [type] }
    requirers := graph.requirers.insert type ((graph.requirers.find? type).getD [] ++ [unit]) }

/-- The graph with one more placeholder, which a unit requires. -/
def withPlaceholder (graph : Graph) (artifact : ArtifactId) (name : QualifiedName)
    (unit : UnitId) : Graph :=
  { graph.withRequirement unit graph.types.nextId with
    types := graph.types.push { name, home := some artifact, state := .incomplete (some unit) } }

/-- The new placeholder is found, and nothing else changes among the types. -/
theorem get?_types_withPlaceholder (graph : Graph) (artifact : ArtifactId) (name : QualifiedName)
    (unit : UnitId) (k : TypeId) :
    (graph.withPlaceholder artifact name unit).types.get? k =
      if k = graph.types.nextId then
        some { name, home := some artifact, state := .incomplete (some unit) }
      else graph.types.get? k :=
  Arena.get?_push ..

/-- Only the unit that requires the new placeholder changes. -/
theorem get?_units_withPlaceholder (graph : Graph) (artifact : ArtifactId) (name : QualifiedName)
    (unit k : UnitId) :
    (graph.withPlaceholder artifact name unit).units.get? k =
      if k = unit then
        (graph.units.get? k).map fun node =>
          { node with requiredTypes := node.requiredTypes ++ [graph.types.nextId] }
      else graph.units.get? k :=
  Arena.get?_modify ..

/-- The unit is listed for the new placeholder. -/
theorem find?_requirers_withPlaceholder (graph : Graph) (artifact : ArtifactId)
    (name : QualifiedName) (unit : UnitId) (k : TypeId) :
    (graph.withPlaceholder artifact name unit).requirers.find? k =
      if graph.types.nextId = k then
        some ((graph.requirers.find? graph.types.nextId).getD [] ++ [unit])
      else graph.requirers.find? k :=
  Table.find?_insert ..

/-- A unit gets the placeholder that it requires. -/
theorem addRequirement_known (graph : Graph) {unit : UnitId} {node : CompilationUnit} (type : TypeId)
    (h : graph.units.get? unit = some node) :
    addRequirement unit type graph =
      (.ok (), graph.withRequirement unit type) := by
  unfold addRequirement
  rw [Action.bind_of_ok (updateUnit_known _ h)]
  rfl

/-! ### Declarations -/

/-- The graph in which no unit requires a type any more. -/
def released (graph : Graph) (type : TypeId) : Graph :=
  { graph with
    requirers := graph.requirers.erase type
    units := ((graph.requirers.find? type).getD []).foldl
      (fun units unit => units.modify unit fun node =>
        { node with requiredTypes := node.requiredTypes.filter (· ≠ type) }) graph.units }

/-- The graph in which a type is complete. -/
def completed (graph : Graph) (type : TypeId) (unit : UnitId) (artifact : Option ArtifactId) :
    Graph :=
  { graph with
    types := graph.types.modify type fun node => { node with state := .complete unit, artifact } }

/-- The graph in which a placeholder is declared by a unit. -/
def withDeclaration (graph : Graph) (type : TypeId) (unit : UnitId)
    (artifact : Option ArtifactId) : Graph :=
  let after := (graph.completed type unit artifact).released type
  { after with
    units := after.units.modify unit fun node =>
      { node with declaredTypes := node.declaredTypes ++ [type] } }

private theorem get?_foldl_release (type : TypeId) (requirers : List UnitId)
    (units : Arena .unit CompilationUnit) (k : UnitId) :
    (requirers.foldl (fun units unit => units.modify unit fun node =>
        { node with requiredTypes := node.requiredTypes.filter (· ≠ type) }) units).get? k =
      (units.get? k).map fun node =>
        if k ∈ requirers then
          { node with requiredTypes := node.requiredTypes.filter (· ≠ type) }
        else node := by
  induction requirers generalizing units with
  | nil => simp
  | cons unit rest ih =>
    rw [List.foldl_cons, ih, Arena.get?_modify]
    by_cases hk : k = unit
    · subst hk
      cases units.get? k with
      | none => simp
      | some node => by_cases hr : k ∈ rest <;> simp [hr]
    · simp [hk]

/-- The units that required a released type do not list it any more. -/
theorem get?_units_released (graph : Graph) (type : TypeId) (k : UnitId) :
    (graph.released type).units.get? k = (graph.units.get? k).map fun node =>
      if k ∈ (graph.requirers.find? type).getD [] then
        { node with requiredTypes := node.requiredTypes.filter (· ≠ type) }
      else node :=
  get?_foldl_release type _ graph.units k

private theorem forEach_release (type : TypeId) (requirers : List UnitId) :
    ∀ graph : Graph, (∀ unit ∈ requirers, (graph.units.get? unit).isSome) →
      (Action.forEach requirers fun unit => updateUnit unit fun node =>
        { node with requiredTypes := node.requiredTypes.filter (· ≠ type) }) graph =
        (.ok (), { graph with
          units := requirers.foldl (fun units unit => units.modify unit fun node =>
            { node with requiredTypes := node.requiredTypes.filter (· ≠ type) }) graph.units }) := by
  induction requirers with
  | nil =>
    intro graph _
    rfl
  | cons unit rest ih =>
    intro graph h
    obtain ⟨node, hn⟩ := Option.isSome_iff_exists.1 (h unit (List.mem_cons_self ..))
    rw [Action.forEach, Action.bind_of_ok (updateUnit_known _ hn), ih]
    · rfl
    · intro k hk
      have := h k (List.mem_cons_of_mem _ hk)
      rw [Arena.get?_modify]
      split <;> simpa using this

/-- Releasing a type succeeds if the units that require it are known. -/
theorem releaseRequirement_known (graph : Graph) {type : TypeId}
    (h : ∀ unit ∈ (graph.requirers.find? type).getD [], (graph.units.get? unit).isSome) :
    releaseRequirement type graph = (.ok (), graph.released type) := by
  exact forEach_release type _ { graph with requirers := graph.requirers.erase type } h

/-- The declared type is complete, and nothing else changes among the types. -/
theorem get?_types_withDeclaration (graph : Graph) (type : TypeId) (unit : UnitId)
    (artifact : Option ArtifactId) (k : TypeId) :
    (graph.withDeclaration type unit artifact).types.get? k =
      if k = type then
        (graph.types.get? k).map fun node => { node with state := .complete unit, artifact }
      else graph.types.get? k :=
  Arena.get?_modify ..

/-- The units that required the declared type do not list it any more, and its unit declares
it. -/
theorem get?_units_withDeclaration (graph : Graph) (type : TypeId) (unit : UnitId)
    (artifact : Option ArtifactId) (k : UnitId) :
    (graph.withDeclaration type unit artifact).units.get? k =
      (graph.units.get? k).map fun node => { node with
        requiredTypes :=
          if k ∈ (graph.requirers.find? type).getD [] then
            node.requiredTypes.filter (· ≠ type)
          else node.requiredTypes
        declaredTypes :=
          if k = unit then node.declaredTypes ++ [type] else node.declaredTypes } := by
  unfold withDeclaration
  rw [Arena.get?_modify, get?_units_released]
  change (if k = unit then Option.map _ (Option.map _ (graph.units.get? k)) else
    Option.map _ (graph.units.get? k)) = _
  cases graph.units.get? k with
  | none => simp
  | some node =>
    by_cases hk : k = unit <;>
      by_cases hr : k ∈ (graph.requirers.find? type).getD [] <;>
        simp [hk, completed] <;> simp_all

/-- No unit is listed for a declared type. -/
theorem find?_requirers_withDeclaration (graph : Graph) (type : TypeId) (unit : UnitId)
    (artifact : Option ArtifactId) (k : TypeId) :
    (graph.withDeclaration type unit artifact).requirers.find? k =
      if type = k then none else graph.requirers.find? k :=
  Table.find?_erase ..

/-- A placeholder is declared if its unit, and the units that require it, are known. -/
theorem declareType_placeholder (graph : Graph) {type : TypeId} {unit : UnitId} {node : TypeNode}
    {source : CompilationUnit} (artifact : Option ArtifactId)
    (ht : graph.types.get? type = some node) (hs : node.isComplete = false)
    (hu : graph.units.get? unit = some source)
    (hr : ∀ unit ∈ (graph.requirers.find? type).getD [], (graph.units.get? unit).isSome) :
    declareType type unit artifact graph =
      (.ok (), graph.withDeclaration type unit artifact) := by
  have hd : node.state.declaredBy = none := by
    unfold TypeNode.isComplete at hs
    cases h : node.state <;> simp_all [TypeState.isComplete, TypeState.declaredBy]
  unfold declareType
  rw [checkType_bind ht]
  simp only [hd]
  have hc : completeType type unit artifact graph =
      (.ok (), graph.completed type unit artifact) := by
    unfold completeType
    rw [checkType_bind ht]
    simp only [hs, Bool.false_eq_true, if_false]
    exact updateType_known _ ht
  have hk : ∃ node, ((graph.completed type unit artifact).released type).units.get? unit =
      some node := by
    rw [get?_units_released]
    exact ⟨_, congrArg (Option.map _) hu⟩
  obtain ⟨released, hk⟩ := hk
  rw [Action.bind_of_ok hc,
    Action.bind_of_ok (releaseRequirement_known (graph.completed type unit artifact) hr),
    updateUnit_known _ hk]
  rfl

/-- A declared type is not declared again. -/
theorem declareType_complete {type : TypeId} {node : TypeNode} {existing : UnitId} (unit : UnitId)
    (artifact : Option ArtifactId) (ht : graph.types.get? type = some node)
    (hs : node.state = .complete existing) :
    declareType type unit artifact graph =
      (.error (.duplicateDeclaration node.name existing), graph) := by
  unfold declareType
  rw [checkType_bind ht]
  simp [hs, TypeState.declaredBy, Action.fail]

end Graph

end JavaGraph
