import JavaGraph.Proofs.Graph.Correspondence
import JavaGraph.Scan.Member
/-!
# What is recorded of a type

The operations that record something of a declared type change that type, bring in new members,
and leave everything else as it is. `Graph.Recorded` says so, and there is one equation for each
operation.
-/

namespace JavaGraph

/-- The parameter that is recorded for a head. -/
def ReferenceSite.ParameterHead.parameter (head : ParameterHead) (function : FunctionId)
    (index : Nat) : Parameter where
  name := head.name
  index := index
  typeUse := head.typeUse
  function := function
  isVarargs := head.isVarargs

namespace Graph

open List (Forall₂)
open ReferenceSite (ParameterHead addParameters)

/-- Artifacts and plain text are as they were. -/
structure SameSurroundings (before after : Graph) : Prop where
  artifacts : after.artifacts = before.artifacts
  textFiles : after.textFiles = before.textFiles
  lines : after.lines = before.lines

/-- Nothing changes. -/
theorem SameSurroundings.refl (graph : Graph) : SameSurroundings graph graph := ⟨rfl, rfl, rfl⟩

/-- Nothing changes step by step. -/
theorem SameSurroundings.trans {graph middle after : Graph} (h : SameSurroundings graph middle)
    (h' : SameSurroundings middle after) : SameSurroundings graph after :=
  ⟨h'.artifacts.trans h.artifacts, h'.textFiles.trans h.textFiles, h'.lines.trans h.lines⟩

/-- Only one type is changed, and members come in. -/
structure Recorded (id : TypeId) (f : TypeNode → TypeNode) (before after : Graph) : Prop where
  types : after.types = before.types.modify id f
  units : after.units = before.units
  surroundings : SameSurroundings before after
  requirers : after.requirers = before.requirers
  accesses : after.accesses = before.accesses
  field : ∀ {k x}, before.fields.get? k = some x → after.fields.get? k = some x
  function : ∀ {k x}, before.functions.get? k = some x → after.functions.get? k = some x
  parameter : ∀ {k x}, before.parameters.get? k = some x → after.parameters.get? k = some x

variable {graph : Graph}

/-! ### Types -/

/-- A change of a type alone. -/
theorem recorded_modify (graph : Graph) (id : TypeId) (f : TypeNode → TypeNode) :
    Recorded id f graph { graph with types := graph.types.modify id f } :=
  ⟨rfl, rfl, ⟨rfl, rfl, rfl⟩, rfl, rfl, fun h => h, fun h => h, fun h => h⟩

/-- The changed type is found changed. -/
theorem Recorded.get?_self {id : TypeId} {f : TypeNode → TypeNode} {after : Graph} {x : TypeNode}
    (h : Recorded id f graph after) (hx : graph.types.get? id = some x) :
    after.types.get? id = some (f x) := by
  rw [h.types, Arena.get?_modify, if_pos rfl, hx]
  rfl

/-- The other types are as they were. -/
theorem Recorded.get?_ne {id k : TypeId} {f : TypeNode → TypeNode} {after : Graph}
    (h : Recorded id f graph after) (hk : k ≠ id) :
    after.types.get? k = graph.types.get? k := by
  rw [h.types, Arena.get?_modify, if_neg hk]

/-- Types keep their labels if the changed one does. -/
theorem Recorded.label {id : TypeId} {f : TypeNode → TypeNode} {after : Graph}
    (h : Recorded id f graph after) (hn : ∀ x, (f x).name = x.name)
    (hh : ∀ x, (f x).home = x.home) (k : TypeId) : after.label k = graph.label k := by
  unfold Graph.label
  rw [h.types, Arena.get?_modify]
  split
  · cases graph.types.get? k with
    | none => rfl
    | some x => simp [hn, hh]
  · rfl

/-! ### Fields -/

/-- The graph with one more field. -/
def withField (graph : Graph) (field : Field) : Graph :=
  { graph with
    types := graph.types.modify field.declaringType fun node =>
      { node with fields := node.fields ++ [graph.fields.nextId] }
    fields := graph.fields.push field }

/-- A field of a known type comes in under the next identifier. -/
theorem addField_known {field : Field} {type : TypeNode}
    (h : graph.types.get? field.declaringType = some type) :
    addField field graph = (.ok graph.fields.nextId, graph.withField field) := by
  unfold addField
  rw [Action.read_bind, Action.bind_of_ok (updateType_known _ h)]
  rfl

/-- A new field is recorded of its type. -/
theorem recorded_withField (graph : Graph) (field : Field) :
    Recorded field.declaringType
      (fun node => { node with fields := node.fields ++ [graph.fields.nextId] }) graph
      (graph.withField field) :=
  ⟨rfl, rfl, ⟨rfl, rfl, rfl⟩, rfl, rfl, get?_push_of_get? field, fun h => h, fun h => h⟩

/-- The new field is found. -/
theorem get?_withField (graph : Graph) (field : Field) :
    (graph.withField field).fields.get? graph.fields.nextId = some field := by
  unfold withField
  simp only
  rw [Arena.get?_push, if_pos rfl]

/-! ### Functions -/

/-- The graph with one more function. -/
def withFunction (graph : Graph) (function : Function) : Graph :=
  { graph with
    types := graph.types.modify function.declaringType fun node =>
      { node with functions := node.functions ++ [graph.functions.nextId] }
    functions := graph.functions.push function }

/-- A function of a known type comes in under the next identifier. -/
theorem addFunction_known {function : Function} {type : TypeNode}
    (h : graph.types.get? function.declaringType = some type) :
    addFunction function graph = (.ok graph.functions.nextId, graph.withFunction function) := by
  unfold addFunction
  rw [Action.read_bind, Action.bind_of_ok (updateType_known _ h)]
  rfl

/-- The new function is found. -/
theorem get?_withFunction (graph : Graph) (function : Function) :
    (graph.withFunction function).functions.get? graph.functions.nextId = some function :=
  (Arena.get?_push ..).trans (if_pos rfl)

/-- A known function is changed. -/
theorem updateFunction_known {id : FunctionId} {function : Function} (f : Function → Function)
    (h : graph.functions.get? id = some function) :
    updateFunction id f graph =
      (.ok (), { graph with functions := graph.functions.modify id f }) := by
  simp [updateFunction, Action.tryChange, Arena.update_of_get? f h, Bind.bind, Except.bind, pure,
    Except.pure]

/-- The graph with one more parameter. -/
def withParameter (graph : Graph) (parameter : Parameter) : Graph :=
  { graph with
    functions := graph.functions.modify parameter.function fun node =>
      { node with parameters := node.parameters ++ [graph.parameters.nextId] }
    parameters := graph.parameters.push parameter }

/-- A parameter of a known function comes in under the next identifier. -/
theorem addParameter_known {parameter : Parameter} {function : Function}
    (h : graph.functions.get? parameter.function = some function) :
    addParameter parameter graph =
      (.ok graph.parameters.nextId, graph.withParameter parameter) := by
  unfold addParameter
  rw [Action.read_bind, Action.bind_of_ok (updateFunction_known _ h)]
  rfl

/-- What the parameters of a function are after those of some heads came in. -/
structure Parametrized (id : FunctionId) (function : Function) (heads : List ParameterHead)
    (offset : Nat) (before after : Graph) : Prop where
  unchanged : after = { before with functions := after.functions, parameters := after.parameters }
  size : after.functions.size = before.functions.size
  other : ∀ {k}, k ≠ id → after.functions.get? k = before.functions.get? k
  self : ∃ ids, after.functions.get? id =
      some { function with parameters := function.parameters ++ ids } ∧
    Forall₂ (fun (head, index) k => after.parameters.get? k = some (head.parameter id index))
      (heads.zipIdx offset) ids
  parameter : ∀ {k x}, before.parameters.get? k = some x → after.parameters.get? k = some x

/-- Parameters of a known function come in. -/
private theorem addParameters_from {id : FunctionId} (heads : List ParameterHead) :
    ∀ (offset : Nat) (function : Function) (graph : Graph),
      graph.functions.get? id = some function →
      ∃ after, (Action.forEach (heads.zipIdx offset) fun (head, index) =>
          discard (addParameter (head.parameter id index))) graph = (.ok (), after) ∧
        Parametrized id function heads offset graph after := by
  induction heads with
  | nil =>
    intro offset function graph h
    refine ⟨graph, rfl, rfl, rfl, fun _ => rfl, ⟨[], ?_, .nil⟩, fun h => h⟩
    rw [h, List.append_nil]
  | cons head rest ih =>
    intro offset function graph h
    have hadd : addParameter (head.parameter id offset) graph =
        (.ok graph.parameters.nextId, graph.withParameter (head.parameter id offset)) :=
      addParameter_known h
    have hfound : (graph.withParameter (head.parameter id offset)).functions.get? id =
        some { function with parameters := function.parameters ++ [graph.parameters.nextId] } := by
      unfold withParameter ParameterHead.parameter
      simp only
      rw [Arena.get?_modify, if_pos rfl, h]
      rfl
    obtain ⟨after, hrun, hp⟩ := ih (offset + 1) _ _ hfound
    refine ⟨after, ?_, ?_⟩
    · rw [List.zipIdx_cons, Action.forEach]
      have hfirst : (discard (addParameter (head.parameter id offset)) : GraphAction Unit) graph =
          (.ok (), graph.withParameter (head.parameter id offset)) :=
        Action.bind_of_ok hadd
      rw [Action.bind_of_ok hfirst]
      exact hrun
    · obtain ⟨ids, hids, hrest⟩ := hp.self
      have hnew : after.parameters.get? graph.parameters.nextId =
          some (head.parameter id offset) := by
        refine hp.parameter ?_
        unfold withParameter
        simp only
        rw [Arena.get?_push, if_pos rfl]
      refine ⟨hp.unchanged, hp.size.trans (Arena.size_modify ..), ?_, ?_, ?_⟩
      · intro k hk
        rw [hp.other hk]
        unfold withParameter
        simp only
        rw [Arena.get?_modify]
        exact if_neg hk
      · refine ⟨graph.parameters.nextId :: ids, ?_, ?_⟩
        · rw [hids]
          simp only [List.append_assoc, List.singleton_append]
        · rw [List.zipIdx_cons]
          exact .cons hnew hrest
      · intro k x hx
        exact hp.parameter (get?_push_of_get? _ hx)

/-- A function of a known type comes in with its parameters. -/
theorem addFunction_parameters {function : Function} {type : TypeNode} (heads : List ParameterHead)
    (h : graph.types.get? function.declaringType = some type) (hp : function.parameters = []) :
    ∃ after ids, (do
        let id ← addFunction function
        addParameters id heads
        return id : GraphAction FunctionId) graph = (.ok graph.functions.nextId, after) ∧
      Recorded function.declaringType
        (fun node => { node with functions := node.functions ++ [graph.functions.nextId] })
        graph after ∧
      after.fields = graph.fields ∧ after.functions.size = graph.functions.size + 1 ∧
      after.functions.get? graph.functions.nextId =
        some { function with parameters := ids } ∧
      Forall₂ (fun (head, index) k => after.parameters.get? k =
        some (head.parameter graph.functions.nextId index)) heads.zipIdx ids := by
  obtain ⟨after, hrun, hpar⟩ := addParameters_from heads 0 function _
    (get?_withFunction graph function)
  obtain ⟨ids, hids, hall⟩ := hpar.self
  have hunchanged := hpar.unchanged
  have hparameters : addParameters graph.functions.nextId heads (graph.withFunction function) =
      (.ok (), after) := hrun
  refine ⟨after, ids, ?_, ?_, ?_, ?_, ?_, hall⟩
  · rw [Action.bind_of_ok (addFunction_known h), Action.bind_of_ok hparameters]
    rfl
  · refine ⟨?_, ?_, ?_, ?_, ?_, ?_, ?_, ?_⟩
    · rw [hunchanged]
      rfl
    · rw [hunchanged]
      rfl
    · rw [hunchanged]
      exact ⟨rfl, rfl, rfl⟩
    · rw [hunchanged]
      rfl
    · rw [hunchanged]
      rfl
    · rw [hunchanged]
      exact fun h => h
    · intro k x hx
      rw [hpar.other (Arena.ne_nextId hx)]
      exact get?_push_of_get? function hx
    · exact hpar.parameter
  · rw [hunchanged]
    rfl
  · rw [hpar.size]
    exact Arena.size_push ..
  · rw [hids, hp]
    rfl

/-! ### Main types and uses of fields -/

/-- The graph in which a unit has a main type. -/
def withMainType (graph : Graph) (unit : UnitId) (type : TypeId) : Graph :=
  { graph with units := graph.units.modify unit fun node => { node with mainType := some type } }

/-- A unit gets one of its types as its main type. -/
theorem setMainType_declared {unit : UnitId} {node : CompilationUnit} {type : TypeId}
    (h : graph.units.get? unit = some node) (ht : type ∈ node.declaredTypes) :
    setMainType unit type graph = (.ok (), graph.withMainType unit type) := by
  unfold setMainType
  rw [checkUnit_bind h, if_pos (List.contains_iff_mem.2 ht), updateUnit_known _ h]
  rfl

/-- The graph with one more use of a field. -/
def withAccess (graph : Graph) (access : Access) : Graph :=
  { graph with accesses := graph.accesses.push access }

/-- A use of a known field by a known function comes in. -/
theorem addAccess_known {access : Access} {function : Function} {field : Field}
    (h : graph.functions.get? access.function = some function)
    (hf : graph.fields.get? access.field = some field) :
    addAccess access graph = (.ok (), graph.withAccess access) := by
  unfold addAccess
  simp only [discard, Functor.discard, Functor.mapConst, Action.check, Arena.get, h, hf,
    Bind.bind, Function.comp]
  rfl

/-- A use of a field comes in, or nothing changes. -/
theorem addAccess_cases {access : Access} {result : Except GraphError Unit} {after : Graph}
    (h : addAccess access graph = (result, after)) :
    after = graph ∨ after = graph.withAccess access := by
  cases hf : graph.functions.get? access.function with
  | none =>
    left
    simp only [addAccess, discard, Functor.discard, Functor.mapConst, Action.check, Arena.get, hf,
      Bind.bind, Function.comp] at h
    cases h
    rfl
  | some function =>
    cases hg : graph.fields.get? access.field with
    | none =>
      left
      simp only [addAccess, discard, Functor.discard, Functor.mapConst, Action.check, Arena.get,
        hf, hg, Bind.bind, Function.comp] at h
      cases h
      rfl
    | some field =>
      right
      rw [addAccess_known hf hg] at h
      cases h
      rfl

end Graph

end JavaGraph
