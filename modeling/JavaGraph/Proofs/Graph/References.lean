import JavaGraph.Proofs.Graph.Since
/-!
# What types refer to

A declared type refers to its supertypes, to the types that its fields, functions and parameters
use, and to what it depends on. References come in while a file is read, after all its types are
declared. What is known then keeps its name, its state and its kind.
-/

namespace JavaGraph

/-- The declared type that a use names, if it names one, has a property. -/
def TypeUse.Within (R : TypeId → Prop) (use : TypeUse) : Prop :=
  ∀ target, use.declared? = some target → R target

/-- All that a type refers to, and its members. -/
def TypeNode.references (type : TypeNode) :
    Option TypeId × List TypeId × List FieldId × List FunctionId × List TypeId :=
  (type.superclass, type.interfaces, type.fields, type.functions, type.dependsOn)

/-- A type that refers to nothing and has no members. -/
def TypeNode.Unread (type : TypeNode) : Prop := type.references = (none, [], [], [], [])

namespace Graph

/-! ### References -/

/-- A type refers to another one. -/
inductive Refers (graph : Graph) (type : TypeNode) (target : TypeId) : Prop where
  | superclass : type.superclass = some target → Refers graph type target
  | interface : target ∈ type.interfaces → Refers graph type target
  | field {id : FieldId} {field : Field} : id ∈ type.fields →
      graph.fields.get? id = some field → field.typeUse.declared? = some target →
      Refers graph type target
  | returns {id : FunctionId} {function : Function} {use : TypeUse} : id ∈ type.functions →
      graph.functions.get? id = some function → function.returns = some use →
      use.declared? = some target → Refers graph type target
  | throws {id : FunctionId} {function : Function} : id ∈ type.functions →
      graph.functions.get? id = some function → target ∈ function.throws →
      Refers graph type target
  | parameter {id : FunctionId} {function : Function} {place : ParameterId}
      {parameter : Parameter} : id ∈ type.functions →
      graph.functions.get? id = some function → place ∈ function.parameters →
      graph.parameters.get? place = some parameter →
      parameter.typeUse.declared? = some target → Refers graph type target
  | dependency : target ∈ type.dependsOn → Refers graph type target

/-- The parameters of a function are known, and all that it refers to has a property. -/
structure FunctionWithin (graph : Graph) (R : TypeId → Prop) (function : Function) : Prop where
  returns : ∀ {use}, function.returns = some use → use.Within R
  throws : ∀ {target}, target ∈ function.throws → R target
  parameters : ∀ {id}, id ∈ function.parameters →
    ∃ parameter, graph.parameters.get? id = some parameter ∧ parameter.typeUse.Within R

/-- The members of a type are known, and all that it refers to has a property. -/
structure Within (graph : Graph) (R : TypeId → Prop) (type : TypeNode) : Prop where
  superclass : ∀ {target}, type.superclass = some target → R target
  interfaces : ∀ {target}, target ∈ type.interfaces → R target
  fields : ∀ {id}, id ∈ type.fields →
    ∃ field, graph.fields.get? id = some field ∧ field.typeUse.Within R
  functions : ∀ {id}, id ∈ type.functions →
    ∃ function, graph.functions.get? id = some function ∧ graph.FunctionWithin R function
  dependsOn : ∀ {target}, target ∈ type.dependsOn → R target

variable {graph middle after : Graph} {R R' : TypeId → Prop} {type : TypeNode}

/-- What a type refers to has the property. -/
theorem Within.of_refers (h : graph.Within R type) {target : TypeId}
    (hr : graph.Refers type target) : R target := by
  cases hr with
  | superclass hs => exact h.superclass hs
  | interface hi => exact h.interfaces hi
  | field hm hf hu =>
    obtain ⟨field, hf', hw⟩ := h.fields hm
    cases hf.symm.trans hf'
    exact hw _ hu
  | returns hm hf hr hu =>
    obtain ⟨function, hf', hw⟩ := h.functions hm
    cases hf.symm.trans hf'
    exact hw.returns hr _ hu
  | throws hm hf ht =>
    obtain ⟨function, hf', hw⟩ := h.functions hm
    cases hf.symm.trans hf'
    exact hw.throws ht
  | parameter hm hf hp hg hu =>
    obtain ⟨function, hf', hw⟩ := h.functions hm
    cases hf.symm.trans hf'
    obtain ⟨parameter, hg', hw'⟩ := hw.parameters hp
    cases hg.symm.trans hg'
    exact hw' _ hu
  | dependency hd => exact h.dependsOn hd

/-- A type that refers to nothing. -/
theorem Within.of_unread (h : type.Unread) : graph.Within R type := by
  simp only [TypeNode.Unread, TypeNode.references, Prod.mk.injEq] at h
  obtain ⟨hs, hi, hf, hg, hd⟩ := h
  refine ⟨?_, ?_, ?_, ?_, ?_⟩ <;> intro target ht
  · rw [hs] at ht
    cases ht
  · rw [hi] at ht
    cases ht
  · rw [hf] at ht
    cases ht
  · rw [hg] at ht
    cases ht
  · rw [hd] at ht
    cases ht

/-! ### What is kept while a file is read -/

/-- Members stay as they are. -/
structure KeepsMembers (before after : Graph) : Prop where
  field : ∀ {id x}, before.fields.get? id = some x → after.fields.get? id = some x
  function : ∀ {id x}, before.functions.get? id = some x → after.functions.get? id = some x
  parameter : ∀ {id x}, before.parameters.get? id = some x → after.parameters.get? id = some x

/-- What is known keeps its name, its state and its kind, and members stay as they are. -/
structure Retains (before after : Graph) : Prop extends KeepsMembers before after where
  type : ∀ {id x}, before.types.get? id = some x → ∃ y, after.types.get? id = some y ∧
    y.name = x.name ∧ y.home = x.home ∧ y.state = x.state ∧ y.kind = x.kind

/-- No member has come in. -/
theorem KeepsMembers.refl (graph : Graph) : KeepsMembers graph graph := ⟨id, id, id⟩

/-- More and more members come in. -/
theorem KeepsMembers.trans (h : KeepsMembers graph middle) (h' : KeepsMembers middle after) :
    KeepsMembers graph after :=
  ⟨h'.field ∘ h.field, h'.function ∘ h.function, h'.parameter ∘ h.parameter⟩

/-- Nothing has come in. -/
theorem Retains.refl (graph : Graph) : Retains graph graph :=
  ⟨.refl graph, fun hx => ⟨_, hx, rfl, rfl, rfl, rfl⟩⟩

/-- More and more is read. -/
theorem Retains.trans (h : Retains graph middle) (h' : Retains middle after) :
    Retains graph after where
  type hx := by
    obtain ⟨y, hy, hn, hh, hs, hk⟩ := h.type hx
    obtain ⟨z, hz, hn', hh', hs', hk'⟩ := h'.type hy
    exact ⟨z, hz, hn'.trans hn, hh'.trans hh, hs'.trans hs, hk'.trans hk⟩
  toKeepsMembers := h.toKeepsMembers.trans h'.toKeepsMembers

/-- A universe keeps its names. -/
theorem Retains.has (h : Retains graph after) {name : QualifiedName} {home : Universe}
    (hn : graph.Has name home) : after.Has name home := by
  obtain ⟨id, x, hx, hname, hhome⟩ := hn
  obtain ⟨y, hy, hn, hh, -⟩ := h.type hx
  exact ⟨id, y, hy, hn.trans hname, hh.trans hhome⟩

/-- A record of a type that leaves its name, its state and its kind alone. -/
theorem Recorded.retains {id : TypeId} {f : TypeNode → TypeNode} (h : Recorded id f graph after)
    (hn : ∀ x, (f x).name = x.name) (hh : ∀ x, (f x).home = x.home)
    (hs : ∀ x, (f x).state = x.state) (hk : ∀ x, (f x).kind = x.kind) : Retains graph after where
  type := by
    intro k x hx
    by_cases hki : k = id
    · subst hki
      exact ⟨f x, h.get?_self hx, hn x, hh x, hs x, hk x⟩
    · exact ⟨x, by rw [h.get?_ne hki, hx], rfl, rfl, rfl, rfl⟩
  field := h.field
  function := h.function
  parameter := h.parameter

/-- At most a placeholder comes in. -/
theorem Since.Placed.retains {unit : UnitId} {home : Universe}
    (h : Since.Placed unit home graph after) : Retains graph after where
  type hx := ⟨_, h.types hx, rfl, rfl, rfl, rfl⟩
  field := h.since.extended.field
  function := h.since.extended.function
  parameter := h.since.extended.parameter

/-- A use of a field comes in. -/
theorem retains_withAccess (graph : Graph) (access : Access) :
    Retains graph (graph.withAccess access) :=
  ⟨⟨id, id, id⟩, fun hx => ⟨_, hx, rfl, rfl, rfl, rfl⟩⟩

/-- References stay within a property that only gets weaker. -/
theorem Within.mono (h : graph.Within R type) (hg : KeepsMembers graph after)
    (hR : ∀ {target}, R target → R' target) : after.Within R' type where
  superclass ht := hR (h.superclass ht)
  interfaces ht := hR (h.interfaces ht)
  fields hm := by
    obtain ⟨field, hf, hw⟩ := h.fields hm
    exact ⟨field, hg.field hf, fun target ht => hR (hw target ht)⟩
  functions hm := by
    obtain ⟨function, hf, hw⟩ := h.functions hm
    refine ⟨function, hg.function hf, fun hr target ht => hR (hw.returns hr target ht),
      fun ht => hR (hw.throws ht), fun hp => ?_⟩
    obtain ⟨parameter, hp, hw'⟩ := hw.parameters hp
    exact ⟨parameter, hg.parameter hp, fun target ht => hR (hw' target ht)⟩
  dependsOn ht := hR (h.dependsOn ht)

/-! ### What is kept while types are declared -/

/-- Placeholders have come in, and some of them are declared by a unit. Nothing is read. -/
structure Enrols (unit : UnitId) (before after : Graph) : Prop where
  back : ∀ {id y}, after.types.get? id = some y →
    (∃ x, before.types.get? id = some x ∧ y.references = x.references ∧
      (y.state = x.state ∨ x.isComplete = false ∧ y.state = .complete unit)) ∨
    before.types.get? id = none ∧ y.Unread ∧ (y.isComplete = false ∨ y.state = .complete unit)
  forth : ∀ {id x}, before.types.get? id = some x → ∃ y, after.types.get? id = some y ∧
    (x.isComplete = true → y.isComplete = true)

namespace Enrols

variable {unit : UnitId}

/-- Nothing has come in. -/
theorem refl (unit : UnitId) (graph : Graph) : Enrols unit graph graph where
  back hy := .inl ⟨_, hy, rfl, .inl rfl⟩
  forth hx := ⟨_, hx, id⟩

/-- More and more types are declared. -/
theorem trans (h : Enrols unit graph middle) (h' : Enrols unit middle after) :
    Enrols unit graph after where
  back := by
    intro id z hz
    rcases h'.back hz with ⟨y, hy, hr, hs⟩ | ⟨hn, hz⟩
    · rcases h.back hy with ⟨x, hx, hr', hs'⟩ | ⟨hn, hu, hs'⟩
      · refine .inl ⟨x, hx, hr.trans hr', ?_⟩
        rcases hs with hs | ⟨hi, hs⟩
        · rcases hs' with hs' | ⟨hi', hs'⟩
          · exact .inl (hs.trans hs')
          · exact .inr ⟨hi', hs.trans hs'⟩
        · rcases hs' with hs' | ⟨hi', -⟩
          · refine .inr ⟨?_, hs⟩
            unfold TypeNode.isComplete at hi ⊢
            rwa [← hs']
          · exact .inr ⟨hi', hs⟩
      · refine .inr ⟨hn, hr.trans hu, ?_⟩
        rcases hs with hs | ⟨-, hs⟩
        · unfold TypeNode.isComplete at hs' ⊢
          rwa [hs]
        · exact .inr hs
    · refine .inr ⟨?_, hz⟩
      cases hx : graph.types.get? id with
      | none => rfl
      | some x =>
        obtain ⟨y, hy, -⟩ := h.forth hx
        rw [hn] at hy
        cases hy
  forth hx := by
    obtain ⟨y, hy, hc⟩ := h.forth hx
    obtain ⟨z, hz, hc'⟩ := h'.forth hy
    exact ⟨z, hz, hc' ∘ hc⟩

/-- A placeholder comes in. -/
theorem withType (graph : Graph) (unit : UnitId) (name : QualifiedName) (home : Universe) :
    Enrols unit graph (graph.withType name home) where
  back := by
    intro id y hy
    unfold Graph.withType at hy
    simp only at hy
    rw [Arena.get?_push] at hy
    split at hy
    · next hid =>
      cases hy
      exact .inr ⟨by rw [hid, Arena.get?_nextId], rfl, .inl rfl⟩
    · exact .inl ⟨y, hy, rfl, .inl rfl⟩
  forth hx := ⟨_, get?_push_of_get? _ hx, id⟩

/-- The unit declares a placeholder. -/
theorem declared {id : TypeId} {x : TypeNode} {artifact : Option ArtifactId}
    (hx : graph.types.get? id = some x) (hi : x.isComplete = false) :
    Enrols unit graph (graph.withDeclaration id unit artifact) where
  back := by
    intro k y hy
    rw [get?_types_withDeclaration] at hy
    split at hy
    · next hk =>
      rw [hk, hx] at hy
      cases hy
      exact .inl ⟨x, by rw [hk, hx], rfl, .inr ⟨hi, rfl⟩⟩
    · exact .inl ⟨y, hy, rfl, .inl rfl⟩
  forth := by
    intro k y hy
    rw [get?_types_withDeclaration]
    split
    · rw [hy]
      exact ⟨_, rfl, fun _ => rfl⟩
    · exact ⟨y, hy, fun hc => hc⟩

/-- Something about a type changes, but no reference. -/
theorem modify (graph : Graph) (unit : UnitId) (id : TypeId) {f : TypeNode → TypeNode}
    (hr : ∀ x, (f x).references = x.references) (hs : ∀ x, (f x).state = x.state) :
    Enrols unit graph { graph with types := graph.types.modify id f } where
  back := by
    intro k y hy
    simp only at hy
    rw [Arena.get?_modify] at hy
    split at hy
    · obtain ⟨x, hx, rfl⟩ := Option.map_eq_some_iff.1 hy
      exact .inl ⟨x, hx, hr x, .inl (hs x)⟩
    · exact .inl ⟨y, hy, rfl, .inl rfl⟩
  forth := by
    intro k x hx
    simp only
    rw [Arena.get?_modify, hx]
    split
    · refine ⟨f x, rfl, fun hc => ?_⟩
      unfold TypeNode.isComplete at hc ⊢
      rwa [hs]
    · exact ⟨x, rfl, fun hc => hc⟩

/-- What the unit declares is not read yet if the unit has declared nothing before. -/
theorem unread (h : Enrols unit graph after)
    (hb : ∀ {id x}, graph.types.get? id = some x → x.isComplete = false → x.Unread)
    (hn : ∀ {id x}, graph.types.get? id = some x → x.state ≠ .complete unit) {id : TypeId}
    {y : TypeNode} (hy : after.types.get? id = some y) (hs : y.state = .complete unit) :
    y.Unread := by
  rcases h.back hy with ⟨x, hx, hr, hsx | ⟨hi, -⟩⟩ | ⟨-, hu, -⟩
  · exact absurd (hsx.symm.trans hs) (hn hx)
  · exact hr.trans (hb hx hi)
  · exact hu

end Enrols

end Graph

end JavaGraph
