import JavaGraph.Proofs.Graph.Intact
import JavaGraph.Proofs.Scope.Answers
/-!
# What keeps graphs intact

The operations that make and change nodes leave an intact graph intact, if the identifiers that
they are given are known. For each of them `Graph.Stores` says which identifiers come into the
nodes, and `Graph.BuildsOn` says what stays.
-/

namespace JavaGraph

namespace Graph

open Relation (ReflTransGen)

variable {graph middle after : Graph} {new : List Ref}

/-! ### What comes in, and what stays -/

/-- Nodes hold the identifiers that they held, and new ones. -/
structure Stores (new : List Ref) (before after : Graph) : Prop where
  artifacts : after.artifacts.refs Artifact.refs ⊆ before.artifacts.refs Artifact.refs ++ new
  units : after.units.refs CompilationUnit.refs ⊆ before.units.refs CompilationUnit.refs ++ new
  types : after.types.refs TypeNode.refs ⊆ before.types.refs TypeNode.refs ++ new
  fields : after.fields.refs Field.refs ⊆ before.fields.refs Field.refs ++ new
  functions : after.functions.refs Function.refs ⊆ before.functions.refs Function.refs ++ new
  parameters : after.parameters.refs Parameter.refs ⊆
    before.parameters.refs Parameter.refs ++ new
  accesses : after.accesses.toList.flatMap Access.refs ⊆
    before.accesses.toList.flatMap Access.refs ++ new
  textFiles : after.textFiles.refs TextFile.refs ⊆ before.textFiles.refs TextFile.refs ++ new
  lines : after.lines.refs Line.refs ⊆ before.lines.refs Line.refs ++ new

/-- Nothing is lost: no node, no name, no declaration and no owner. -/
structure BuildsOn (before after : Graph) : Prop where
  size : ∀ kind, before.size kind ≤ after.size kind
  type : ∀ {id x}, before.types.get? id = some x → ∃ y, after.types.get? id = some y ∧
    y.name = x.name ∧ (∀ unit, x.state = .complete unit → y.state = .complete unit) ∧
    ∀ outer, x.declaringType = some outer → y.declaringType = some outer
  field : ∀ {id x}, before.fields.get? id = some x →
    ∃ y, after.fields.get? id = some y ∧ y.declaringType = x.declaringType
  function : ∀ {id x}, before.functions.get? id = some x →
    ∃ y, after.functions.get? id = some y ∧ y.declaringType = x.declaringType

/-- A graph has no identifiers in it but those that are there. -/
theorem Stores.refl (new : List Ref) (graph : Graph) : Stores new graph graph :=
  ⟨List.subset_append_left .., List.subset_append_left .., List.subset_append_left ..,
    List.subset_append_left .., List.subset_append_left .., List.subset_append_left ..,
    List.subset_append_left .., List.subset_append_left .., List.subset_append_left ..⟩

/-- Nothing changes. -/
theorem BuildsOn.refl (graph : Graph) : BuildsOn graph graph where
  size _ := Nat.le_refl _
  type hx := ⟨_, hx, rfl, fun _ h => h, fun _ h => h⟩
  field hx := ⟨_, hx, rfl⟩
  function hx := ⟨_, hx, rfl⟩

/-- More and more comes in. -/
theorem BuildsOn.trans (h : BuildsOn graph middle) (h' : BuildsOn middle after) :
    BuildsOn graph after where
  size kind := Nat.le_trans (h.size kind) (h'.size kind)
  type hx := by
    obtain ⟨y, hy, hn, hs, hd⟩ := h.type hx
    obtain ⟨z, hz, hn', hs', hd'⟩ := h'.type hy
    exact ⟨z, hz, hn'.trans hn, fun unit hu => hs' unit (hs unit hu),
      fun outer ho => hd' outer (hd outer ho)⟩
  field hx := by
    obtain ⟨y, hy, hd⟩ := h.field hx
    obtain ⟨z, hz, hd'⟩ := h'.field hy
    exact ⟨z, hz, hd'.trans hd⟩
  function hx := by
    obtain ⟨y, hy, hd⟩ := h.function hx
    obtain ⟨z, hz, hd'⟩ := h'.function hy
    exact ⟨z, hz, hd'.trans hd⟩

/-- A known identifier stays known. -/
theorem Knows.mono (hg : BuildsOn graph after) {ref : Ref} (h : graph.Knows ref) : after.Knows ref :=
  Nat.lt_of_lt_of_le h (hg.size _)

/-- A type stays where it is declared. -/
theorem DeclaredIn.mono (hg : BuildsOn graph after) {id outer : TypeId}
    (h : graph.DeclaredIn id outer) : after.DeclaredIn id outer := by
  obtain ⟨x, hx, hd⟩ := h
  obtain ⟨y, hy, -, -, hdy⟩ := hg.type hx
  exact ⟨y, hy, hdy outer hd⟩

/-- A type stays around another one. -/
theorem Around.mono (hg : BuildsOn graph after) {id outer : TypeId} (h : graph.Around outer id) :
    after.Around outer id :=
  ReflTransGen.mono (fun _ _ hd => DeclaredIn.mono hg hd) _ _ h

/-- No identifier dangles if the new ones do not. -/
theorem closed_of_stores (new : List Ref) (h : ∀ ref ∈ graph.refs, graph.Knows ref)
    (hg : BuildsOn graph after) (hs : Stores new graph after) (hn : ∀ ref ∈ new, after.Knows ref) :
    ∀ ref ∈ after.refs, after.Knows ref := by
  intro ref hr
  have hsplit : ref ∈ graph.refs ∨ ref ∈ new := by
    simp only [refs, List.mem_append] at hr ⊢
    rcases hr with (((((((hr | hr) | hr) | hr) | hr) | hr) | hr) | hr) | hr
    · have := List.mem_append.1 (hs.artifacts hr); tauto
    · have := List.mem_append.1 (hs.units hr); tauto
    · have := List.mem_append.1 (hs.types hr); tauto
    · have := List.mem_append.1 (hs.fields hr); tauto
    · have := List.mem_append.1 (hs.functions hr); tauto
    · have := List.mem_append.1 (hs.parameters hr); tauto
    · have := List.mem_append.1 (hs.accesses hr); tauto
    · have := List.mem_append.1 (hs.textFiles hr); tauto
    · have := List.mem_append.1 (hs.lines hr); tauto
  rcases hsplit with hr | hr
  · exact (h ref hr).mono hg
  · exact hn ref hr

/-- Functions go on using fields of the types around them. -/
theorem accesses_of_buildsOn (h : graph.Intact) (hg : BuildsOn graph after) {access : Access}
    (hm : access ∈ graph.accesses.toList) :
    ∃ function field, after.functions.get? access.function = some function ∧
      after.fields.get? access.field = some field ∧
      after.Around field.declaringType function.declaringType := by
  obtain ⟨function, field, hf, hd, ha⟩ := h.accesses hm
  obtain ⟨function', hf', hdf⟩ := hg.function hf
  obtain ⟨field', hd', hdd⟩ := hg.field hd
  refine ⟨function', field', hf', hd', ?_⟩
  rw [hdf, hdd]
  exact ha.mono hg

/-- Steps that keep a graph intact keep it intact together. -/
theorem Intact.forEach {α : Type} {f : α → GraphAction Unit} {Q : Graph → α → Prop}
    (hQ : ∀ {graph after x}, BuildsOn graph after → Q graph x → Q after x)
    (hf : ∀ {graph x}, graph.Intact → Q graph x →
      ∃ after, f x graph = (.ok (), after) ∧ after.Intact ∧ BuildsOn graph after)
    (items : List α) : ∀ {graph : Graph}, graph.Intact → (∀ x ∈ items, Q graph x) →
      ∃ after, Action.forEach items f graph = (.ok (), after) ∧ after.Intact ∧
        BuildsOn graph after := by
  induction items with
  | nil => exact fun h _ => ⟨_, rfl, h, .refl _⟩
  | cons x rest ih =>
    intro graph h hx
    obtain ⟨middle, hrun, hi, hg⟩ := hf h (hx x (List.mem_cons_self ..))
    obtain ⟨after, hrun', hi', hg'⟩ :=
      ih hi fun y hy => hQ hg (hx y (List.mem_cons_of_mem _ hy))
    exact ⟨after, by rw [Action.forEach, Action.bind_of_ok hrun, hrun'], hi', hg.trans hg'⟩

/-! ### Changes of a type -/

/-- A change that leaves alone what names, places and describes a type. -/
structure Retouches (f : TypeNode → TypeNode) : Prop where
  name : ∀ x, (f x).name = x.name
  declaredBy : ∀ x unit, (f x).state = .complete unit ↔ x.state = .complete unit
  kind : ∀ x, (f x).kind = x.kind
  span : ∀ x, (f x).span = x.span
  declaringType : ∀ x, (f x).declaringType = x.declaringType

namespace Retouches

/-- A type may stay as it is. -/
theorem refl : Retouches fun type => type :=
  ⟨fun _ => rfl, fun _ _ => Iff.rfl, fun _ => rfl, fun _ => rfl, fun _ => rfl⟩

variable {f : TypeNode → TypeNode} {id k : TypeId}

/-- The type is as complete as before. -/
theorem isComplete (hf : Retouches f) (x : TypeNode) : (f x).isComplete = x.isComplete := by
  rw [Bool.eq_iff_iff, TypeNode.isComplete_eq_true, TypeNode.isComplete_eq_true]
  exact exists_congr fun unit => hf.declaredBy x unit

/-- The types that were there are there. -/
theorem type (hf : Retouches f) {x : TypeNode} (hx : graph.types.get? k = some x) :
    ∃ y, (graph.types.modify id f).get? k = some y ∧ y.name = x.name ∧
      (∀ unit, x.state = .complete unit → y.state = .complete unit) ∧
      ∀ outer, x.declaringType = some outer → y.declaringType = some outer := by
  rw [Arena.get?_modify, hx]
  split
  · exact ⟨f x, rfl, hf.name x, fun unit => (hf.declaredBy x unit).2,
      fun outer ho => (hf.declaringType x).trans ho⟩
  · exact ⟨x, rfl, rfl, fun _ h => h, fun _ h => h⟩

/-- The types that are there were there. -/
theorem back {y : TypeNode} (hy : (graph.types.modify id f).get? k = some y) :
    ∃ x, graph.types.get? k = some x ∧ (y = x ∨ k = id ∧ y = f x) := by
  rw [Arena.get?_modify] at hy
  split at hy
  · next hk =>
    obtain ⟨x, hx, rfl⟩ := Option.map_eq_some_iff.1 hy
    exact ⟨x, hx, .inr ⟨hk, rfl⟩⟩
  · exact ⟨y, hy, .inl rfl⟩

end Retouches

/-- A type keeps its place in types that keep their names and their units. -/
theorem nested_of_buildsOn (h : graph.Intact) (hg : BuildsOn graph after)
    {id outer : TypeId} {x y : TypeNode} (hx : graph.types.get? id = some x)
    (hy : after.types.get? id = some y) (hd : x.declaringType = some outer) :
    ∃ node, after.types.get? outer = some node ∧ y.NestedIn node := by
  obtain ⟨node, hn, unit, suffix, hs, hso, hne, hname⟩ := h.nested hx hd
  obtain ⟨y', hy', hny, hsy, -⟩ := hg.type hx
  cases hy.symm.trans hy'
  obtain ⟨node', hn', hnn, hsn, -⟩ := hg.type hn
  exact ⟨node', hn', unit, suffix, hsy unit hs, hsn unit hso, hne, by rw [hny, hnn, hname]⟩

section

variable (h : graph.Intact) {f : TypeNode → TypeNode} (hf : Retouches f) {id : TypeId}
include h hf

/-- Types are nested as they were when one is retouched. -/
private theorem nested_of_retouches (hg : BuildsOn graph after)
    (ht : after.types = graph.types.modify id f) {k outer : TypeId} {y : TypeNode}
    (hy : after.types.get? k = some y) (hd : y.declaringType = some outer) :
    ∃ node, after.types.get? outer = some node ∧ y.NestedIn node := by
  obtain ⟨x, hx, he⟩ := Retouches.back (ht ▸ hy)
  refine nested_of_buildsOn h hg hx hy ?_
  rcases he with rfl | ⟨-, rfl⟩
  · exact hd
  · exact (hf.declaringType x).symm.trans hd

/-- Types are described as they were when one is retouched. -/
private theorem described_of_retouches {k : TypeId} {y : TypeNode}
    (hy : (graph.types.modify id f).get? k = some y) :
    y.kind.isSome = y.isComplete ∧ y.span.isSome = y.isComplete := by
  obtain ⟨x, hx, rfl | ⟨-, rfl⟩⟩ := Retouches.back hy
  · exact h.described hx
  · rw [hf.kind, hf.span, hf.isComplete]
    exact h.described hx

/-- Types list what is within them as they did when one is retouched. -/
private theorem innerTypes_of_retouches (hi : ∀ x, (f x).innerTypes = x.innerTypes) :
    (graph.types.modify id f).Lists (·.innerTypes) (graph.types.modify id f) (·.declaringType) :=
  (h.innerTypes.modify_owner id hi).modify_member id fun _ => hf.declaringType _

omit hf in
/-- No type comes to depend on itself unless the changed one does. -/
private theorem irreflexive_of_modify {k : TypeId} {y : TypeNode}
    (hy : (graph.types.modify id f).get? k = some y)
    (hd : ∀ {x}, graph.types.get? id = some x → id ∉ (f x).dependsOn) : k ∉ y.dependsOn := by
  obtain ⟨x, hx, rfl | ⟨rfl, rfl⟩⟩ := Retouches.back hy
  · exact h.irreflexive hx
  · exact hd hx

/-- A type that keeps its lists is retouched. -/
theorem Intact.retouched (id : TypeId) (new : List Ref) (hi : ∀ x, (f x).innerTypes = x.innerTypes)
    (hl : ∀ x, (f x).fields = x.fields ∧ (f x).functions = x.functions)
    (hr : ∀ {x}, graph.types.get? id = some x → (f x).refs ⊆ x.refs ++ new)
    (hn : ∀ ref ∈ new, graph.Knows ref)
    (hd : ∀ {x}, graph.types.get? id = some x → id ∉ (f x).dependsOn) :
    let after := { graph with types := graph.types.modify id f }
    after.Intact ∧ BuildsOn graph after := by
  intro after
  have hg : BuildsOn graph after :=
    { BuildsOn.refl graph with
      size := fun kind => by cases kind <;> simp [Graph.size, after]
      type := hf.type }
  exact ⟨{
    closed := closed_of_stores _ h.closed hg
      { Stores.refl _ graph with types := Arena.refs_modify id hr }
      fun ref hm => (hn ref hm).mono hg
    units := h.units
    fields := h.fields.modify_owner id fun x => (hl x).1
    functions := h.functions.modify_owner id fun x => (hl x).2
    innerTypes := innerTypes_of_retouches h hf hi
    parameters := h.parameters
    nested := nested_of_retouches h hf hg rfl
    described := described_of_retouches h hf
    irreflexive := fun hy => irreflexive_of_modify h hy hd
    accesses := accesses_of_buildsOn h hg }, hg⟩

end

/-! ### New placeholders -/

/-- A placeholder has nothing but its name. -/
theorem Intact.withBlank (h : graph.Intact) {name : QualifiedName} {home : Universe}
    {holder : Option UnitId} (hh : ∀ artifact, home = some artifact →
      graph.Knows ⟨.artifact, artifact⟩) (hu : ∀ unit, holder = some unit →
      graph.Knows ⟨.unit, unit⟩) :
    let after := { graph with types := graph.types.push (blank name home (.incomplete holder)) }
    after.Intact ∧ BuildsOn graph after := by
  intro after
  have hfound : ∀ {k y}, after.types.get? k = some y → graph.types.get? k = some y ∨
      k = graph.types.nextId ∧ y = blank name home (.incomplete holder) := by
    intro k y hy
    rw [Arena.get?_push] at hy
    split at hy
    · next hk =>
      cases hy
      exact .inr ⟨hk, rfl⟩
    · exact .inl hy
  have hg : BuildsOn graph after := { BuildsOn.refl graph with
    size := fun kind => by cases kind <;> simp [Graph.size, after]
    type := fun hx => ⟨_, get?_push_of_get? _ hx, rfl, fun _ h => h, fun _ h => h⟩ }
  have hunknown : ∀ ref : Ref, ref = ⟨.type, graph.types.nextId⟩ → ref ∉ graph.refs := by
    rintro ref rfl hr
    exact graph.not_knows_nextId (h.closed _ hr)
  have hfield : ∀ {id x}, graph.fields.get? id = some x →
      some x.declaringType ≠ some graph.types.nextId := by
    intro id x hx he
    refine hunknown ⟨.type, x.declaringType⟩ (by rw [Option.some.inj he]) ?_
    have : (⟨.type, x.declaringType⟩ : Ref) ∈ graph.fields.refs Field.refs :=
      Arena.mem_refs.2 ⟨id, x, hx, by simp [Field.refs]⟩
    simp only [refs, List.mem_append]
    tauto
  have hfunction : ∀ {id x}, graph.functions.get? id = some x →
      some x.declaringType ≠ some graph.types.nextId := by
    intro id x hx he
    refine hunknown ⟨.type, x.declaringType⟩ (by rw [Option.some.inj he]) ?_
    have : (⟨.type, x.declaringType⟩ : Ref) ∈ graph.functions.refs Function.refs :=
      Arena.mem_refs.2 ⟨id, x, hx, by simp [Function.refs]⟩
    simp only [refs, List.mem_append]
    tauto
  have hinner : ∀ {id x}, graph.types.get? id = some x →
      x.declaringType ≠ some graph.types.nextId := by
    intro id x hx he
    obtain ⟨y, hy, -⟩ := h.nested hx he
    rw [Arena.get?_nextId] at hy
    cases hy
  have hnew : ∀ ref ∈ (blank name home (.incomplete holder)).refs, after.Knows ref := by
    intro ref hr
    simp only [blank, TypeNode.refs, TypeState.declaredBy, TypeState.requiredBy, List.mem_append,
      mem_refsOf, Option.mem_toList] at hr
    simp only [List.not_mem_nil, reduceCtorEq, false_and, exists_false, or_false] at hr
    rcases hr with ⟨artifact, ha, rfl⟩ | ⟨unit, hm, rfl⟩
    · exact (hh artifact ha).mono hg
    · exact (hu unit hm).mono hg
  exact ⟨{
    closed := closed_of_stores _ h.closed hg
      { Stores.refl _ graph with types := Arena.refs_push (List.Subset.refl _) } hnew
    units := h.units
    fields := h.fields.push_owner rfl hfield
    functions := h.functions.push_owner rfl hfunction
    innerTypes := (h.innerTypes.push_owner rfl hinner).push_orphan rfl
    parameters := h.parameters
    nested := by
      intro k y outer hy hdy
      rcases hfound hy with hx | ⟨-, rfl⟩
      · exact nested_of_buildsOn h hg hx hy hdy
      · cases hdy
    described := by
      intro k y hy
      rcases hfound hy with hx | ⟨-, rfl⟩
      · exact h.described hx
      · exact ⟨rfl, rfl⟩
    irreflexive := by
      intro k y hy
      rcases hfound hy with hx | ⟨-, rfl⟩
      · exact h.irreflexive hx
      · exact List.not_mem_nil
    accesses := accesses_of_buildsOn h hg }, hg⟩

/-! ### Units and artifacts -/

/-- The bookkeeping of what units require is not part of the nodes. -/
theorem Intact.withRequirers (h : graph.Intact) (requirers : Table TypeId (List UnitId)) :
    Intact { graph with requirers } :=
  { h with }

/-- A unit changes and stays in its artifact. -/
theorem Intact.unitChanged (h : graph.Intact) {f : CompilationUnit → CompilationUnit}
    (unit : UnitId) (new : List Ref) (ha : ∀ x, (f x).artifact = x.artifact)
    (hr : ∀ {x}, graph.units.get? unit = some x → (f x).refs ⊆ x.refs ++ new)
    (hn : ∀ ref ∈ new, graph.Knows ref) :
    let after := { graph with units := graph.units.modify unit f }
    after.Intact ∧ BuildsOn graph after := by
  intro after
  have hg : BuildsOn graph after :=
    { BuildsOn.refl graph with size := fun kind => by cases kind <;> simp [Graph.size, after] }
  exact ⟨{ h with
    closed := closed_of_stores _ h.closed hg
      { Stores.refl _ graph with units := Arena.refs_modify unit hr }
      fun ref hm => (hn ref hm).mono hg
    units := h.units.modify_member unit fun _ => ha _
    accesses := accesses_of_buildsOn h hg }, hg⟩

/-- A name that is missing comes in as a placeholder. -/
theorem Intact.withMissing (h : graph.Intact) (name : QualifiedName) {home : Universe}
    {unit : UnitId} (hh : ∀ artifact, home = some artifact →
      graph.Knows ⟨.artifact, artifact⟩) (hu : graph.Knows ⟨.unit, unit⟩) :
    (graph.withMissing name home unit).Intact ∧
      BuildsOn graph (graph.withMissing name home unit) := by
  cases home with
  | none => exact h.withBlank hh fun _ hm => by cases hm
  | some artifact =>
    have hholder : ∀ other, some unit = some other → graph.Knows ⟨.unit, other⟩ := by
      rintro other ⟨⟩
      exact hu
    obtain ⟨hi, hg⟩ := h.withBlank hh hholder
    have hnew := (Arena.get?_push graph.types (blank name (some artifact) (.incomplete (some unit)))
      graph.types.nextId).trans (if_pos rfl)
    have hknown : ∀ ref ∈ refsOf [graph.types.nextId], Knows
        { graph with types := graph.types.push (blank name (some artifact)
          (.incomplete (some unit))) } ref := by
      intro ref hm
      obtain ⟨id, hm, rfl⟩ := mem_refsOf.1 hm
      rw [List.mem_singleton.1 hm]
      exact knows_of_get? hnew
    obtain ⟨hi', hg'⟩ := hi.unitChanged unit _ (fun _ => rfl) (fun {x} _ ref => by
      simp only [CompilationUnit.refs, refsOf, List.map_append, List.mem_append]
      tauto) hknown (f := fun node =>
        { node with requiredTypes := node.requiredTypes ++ [graph.types.nextId] })
    exact ⟨hi'.withRequirers _, hg.trans { hg' with }⟩

/-- No unit requires a type any more. -/
theorem Intact.released (h : graph.Intact) (type : TypeId) :
    (graph.released type).Intact ∧ BuildsOn graph (graph.released type) := by
  have hunits : ∀ (units : List UnitId) (graph : Graph), graph.Intact →
      let after := { graph with
        units := units.foldl (fun units unit => units.modify unit fun node =>
          { node with requiredTypes := node.requiredTypes.filter (· ≠ type) }) graph.units }
      after.Intact ∧ BuildsOn graph after := by
    intro units
    induction units with
    | nil => exact fun graph h => ⟨h, .refl graph⟩
    | cons unit rest ih =>
      intro graph h
      obtain ⟨hi, hg⟩ := h.unitChanged unit _ (fun _ => rfl) (fun {x} _ ref => by
          have hreq : ref ∈ refsOf (x.requiredTypes.filter (· ≠ type)) →
              ref ∈ refsOf x.requiredTypes := fun hm =>
            refsOf_subset (fun _ => List.mem_of_mem_filter) hm
          simp only [CompilationUnit.refs, List.mem_append]
          tauto) (fun ref hm => (List.not_mem_nil hm).elim)
        (f := fun node => { node with requiredTypes := node.requiredTypes.filter (· ≠ type) })
      obtain ⟨hi', hg'⟩ := ih _ hi
      exact ⟨hi', hg.trans hg'⟩
  obtain ⟨hi, hg⟩ := hunits ((graph.requirers.find? type).getD []) graph h
  exact ⟨hi.withRequirers _, { hg with }⟩

/-- A new unit comes into an artifact, or into none. -/
theorem Intact.withUnit (h : graph.Intact) (unit : CompilationUnit)
    (hd : unit.declaredTypes = []) (hm : unit.mainType = none) (hq : unit.requiredTypes = [])
    (ha : ∀ artifact, unit.artifact = some artifact → graph.Knows ⟨.artifact, artifact⟩)
    (hr : ∀ dependency ∈ unit.dependencies, graph.Knows ⟨.artifact, dependency⟩) :
    let after := { graph with
      artifacts := match unit.artifact with
        | none => graph.artifacts
        | some owner => graph.artifacts.modify owner fun node =>
          { node with units := node.units ++ [graph.units.nextId] }
      units := graph.units.push unit }
    after.Intact ∧ BuildsOn graph after := by
  intro after
  have hg : BuildsOn graph after := { BuildsOn.refl graph with
    size := fun kind => by
      cases kind <;> simp only [Graph.size, after, Arena.size_push, Nat.le_refl, Nat.le_add_right]
      split <;> simp }
  have hnew : after.Knows ⟨.unit, graph.units.nextId⟩ :=
    Arena.lt_size_of_get? ((Arena.get?_push ..).trans (if_pos rfl))
  have hartifacts : after.artifacts.refs Artifact.refs ⊆
      graph.artifacts.refs Artifact.refs ++ refsOf [graph.units.nextId] := by
    simp only [after]
    split
    · exact List.subset_append_left ..
    · refine Arena.refs_modify _ fun _ ref => ?_
      simp only [Artifact.refs, refsOf, List.map_append, List.mem_append]
      tauto
  have hunits : after.units.refs CompilationUnit.refs ⊆
      graph.units.refs CompilationUnit.refs ++ unit.refs := Arena.refs_push (List.Subset.refl _)
  refine ⟨{ h with
    closed := ?_
    units := ?_
    accesses := accesses_of_buildsOn h hg }, hg⟩
  · refine closed_of_stores (refsOf [graph.units.nextId] ++ unit.refs) h.closed hg
      { Stores.refl _ graph with artifacts := ?_, units := ?_ } ?_
    · intro ref hm
      have := hartifacts hm
      simp only [List.mem_append] at this ⊢
      tauto
    · intro ref hm
      have := hunits hm
      simp only [List.mem_append] at this ⊢
      tauto
    · intro ref hm
      simp only [CompilationUnit.refs, hd, hq, ‹unit.mainType = none›, List.mem_append, mem_refsOf,
        List.mem_singleton, Option.mem_toList, List.not_mem_nil, reduceCtorEq, false_and,
        exists_false, or_false, exists_eq_left] at hm
      rcases hm with rfl | ⟨artifact, hm, rfl⟩ | ⟨dependency, hm, rfl⟩
      · exact hnew
      · exact (ha artifact hm).mono hg
      · exact (hr dependency hm).mono hg
  · simp only [after]
    split
    · next he => exact h.units.push_orphan he
    · next owner he => exact h.units.push_member he fun _ => rfl

/-- A new artifact has no units. -/
theorem Intact.withArtifact (h : graph.Intact) {name : String} {dependencies : List ArtifactId}
    (hd : ∀ dependency ∈ dependencies, graph.Knows ⟨.artifact, dependency⟩) :
    Intact { graph with artifacts := graph.artifacts.push { name, dependencies } } := by
  have hg : BuildsOn graph
      { graph with artifacts := graph.artifacts.push { name, dependencies } } :=
    { BuildsOn.refl graph with size := fun kind => by cases kind <;> simp [Graph.size] }
  have hnew : ∀ {unit node}, graph.units.get? unit = some node →
      node.artifact ≠ some graph.artifacts.nextId := by
    intro unit node hn ha
    have hr : (⟨.artifact, graph.artifacts.nextId⟩ : Ref) ∈ graph.units.refs CompilationUnit.refs :=
      Arena.mem_refs.2 ⟨unit, node, hn, by simp [CompilationUnit.refs, ha]⟩
    have hk := h.closed ⟨.artifact, graph.artifacts.nextId⟩ (by
      simp only [refs, List.mem_append]
      tauto)
    exact absurd hk (Nat.lt_irrefl _)
  refine { h with
    closed := closed_of_stores _ h.closed hg
      { Stores.refl _ graph with artifacts := Arena.refs_push (List.Subset.refl _) } ?_
    units := h.units.push_owner rfl hnew
    accesses := accesses_of_buildsOn h hg }
  intro ref hm
  simp only [Artifact.refs, List.mem_append, mem_refsOf, List.not_mem_nil, false_and,
    exists_false, false_or] at hm
  obtain ⟨dependency, hm, rfl⟩ := hm
  exact (hd dependency hm).mono hg

/-! ### Members -/

/-- A new field belongs to a known type. -/
theorem Intact.withField (h : graph.Intact) (field : Field)
    (ho : graph.Knows ⟨.type, field.declaringType⟩)
    (hu : ∀ ref ∈ field.typeUse.refs, graph.Knows ref) :
    (graph.withField field).Intact ∧ BuildsOn graph (graph.withField field) := by
  have hf : Retouches fun node : TypeNode =>
      { node with fields := node.fields ++ [graph.fields.nextId] } :=
      { Retouches.refl with }
  have hg : BuildsOn graph (graph.withField field) := { BuildsOn.refl graph with
    size := fun kind => by cases kind <;> simp [Graph.size, Graph.withField]
    type := hf.type
    field := fun hx => ⟨_, get?_push_of_get? field hx, rfl⟩ }
  refine ⟨{ h with
    closed := ?_
    fields := h.fields.push_member rfl fun _ => rfl
    functions := h.functions.modify_owner _ fun _ => rfl
    innerTypes := innerTypes_of_retouches h hf fun _ => rfl
    nested := nested_of_retouches h hf hg rfl
    described := described_of_retouches h hf
    irreflexive := fun hy => irreflexive_of_modify h hy fun hx hm => h.irreflexive hx hm
    accesses := accesses_of_buildsOn h hg }, hg⟩
  refine closed_of_stores (refsOf [graph.fields.nextId] ++ field.refs) h.closed hg
    { Stores.refl _ graph with
      types := Arena.refs_modify _ fun _ ref => ?_
      fields := Arena.refs_push (List.subset_append_right ..) } fun ref hm => ?_
  · simp only [TypeNode.refs, refsOf, List.map_append, List.mem_append]
    tauto
  · simp only [Field.refs, List.mem_append, mem_refsOf, List.mem_singleton, exists_eq_left] at hm
    rcases hm with rfl | rfl | hm
    · exact Arena.lt_size_of_get? (get?_withField graph field)
    · exact ho.mono hg
    · exact (hu ref hm).mono hg

/-- A new function without parameters belongs to a known type. -/
theorem Intact.withFunction (h : graph.Intact) (function : Function)
    (ho : graph.Knows ⟨.type, function.declaringType⟩) (hp : function.parameters = [])
    (hr : ∀ use, function.returns = some use → ∀ ref ∈ use.refs, graph.Knows ref)
    (ht : ∀ target ∈ function.throws, graph.Knows ⟨.type, target⟩) :
    (graph.withFunction function).Intact ∧ BuildsOn graph (graph.withFunction function) := by
  have hf : Retouches fun node : TypeNode =>
      { node with functions := node.functions ++ [graph.functions.nextId] } :=
      { Retouches.refl with }
  have hg : BuildsOn graph (graph.withFunction function) := { BuildsOn.refl graph with
    size := fun kind => by cases kind <;> simp [Graph.size, Graph.withFunction]
    type := hf.type
    function := fun hx => ⟨_, get?_push_of_get? function hx, rfl⟩ }
  have hself := get?_withFunction graph function
  refine ⟨{ h with
    closed := ?_
    fields := h.fields.modify_owner _ fun _ => rfl
    functions := h.functions.push_member rfl fun _ => rfl
    innerTypes := innerTypes_of_retouches h hf fun _ => rfl
    parameters := ?_
    nested := nested_of_retouches h hf hg rfl
    described := described_of_retouches h hf
    irreflexive := fun hy => irreflexive_of_modify h hy fun hx hm => h.irreflexive hx hm
    accesses := accesses_of_buildsOn h hg }, hg⟩
  · refine closed_of_stores (refsOf [graph.functions.nextId] ++ function.refs) h.closed hg
      { Stores.refl _ graph with
        types := Arena.refs_modify _ fun _ ref => ?_
        functions := Arena.refs_push (List.subset_append_right ..) } fun ref hm => ?_
    · simp only [TypeNode.refs, refsOf, List.map_append, List.mem_append]
      tauto
    · simp only [Function.refs, hp, List.mem_append, mem_refsOf, List.mem_singleton,
        exists_eq_left, List.mem_flatMap, Option.mem_toList, List.not_mem_nil, false_and,
        exists_false, or_false] at hm
      rcases hm with rfl | (rfl | ⟨use, hm, hu⟩) | ⟨target, hm, rfl⟩
      · exact Arena.lt_size_of_get? hself
      · exact ho.mono hg
      · exact (hr use hm ref hu).mono hg
      · exact (ht target hm).mono hg
  · intro id node hn k place hk
    change (graph.functions.push function).get? id = some node at hn
    rw [Arena.get?_push] at hn
    split at hn
    · cases hn
      rw [hp] at hk
      cases hk
    · exact h.parameters hn hk

/-- A new parameter comes last among those of its function. -/
theorem Intact.withParameter (h : graph.Intact) (parameter : Parameter) {function : Function}
    (hf : graph.functions.get? parameter.function = some function)
    (hi : parameter.index = function.parameters.length)
    (hu : ∀ ref ∈ parameter.typeUse.refs, graph.Knows ref) :
    (graph.withParameter parameter).Intact ∧ BuildsOn graph (graph.withParameter parameter) := by
  have hg : BuildsOn graph (graph.withParameter parameter) := { BuildsOn.refl graph with
    size := fun kind => by cases kind <;> simp [Graph.size, Graph.withParameter]
    function := by
      intro id x hx
      unfold Graph.withParameter
      simp only
      rw [Arena.get?_modify, hx]
      split
      · exact ⟨_, rfl, rfl⟩
      · exact ⟨x, rfl, rfl⟩ }
  have hself : (graph.withParameter parameter).parameters.get? graph.parameters.nextId =
      some parameter := (Arena.get?_push ..).trans (if_pos rfl)
  refine ⟨{ h with
    closed := ?_
    functions := h.functions.modify_member _ fun _ => rfl
    parameters := ?_
    accesses := accesses_of_buildsOn h hg }, hg⟩
  · refine closed_of_stores (refsOf [graph.parameters.nextId] ++ parameter.refs) h.closed hg
      { Stores.refl _ graph with
        functions := Arena.refs_modify _ fun _ ref => ?_
        parameters := Arena.refs_push (List.subset_append_right ..) } fun ref hm => ?_
    · simp only [Function.refs, refsOf, List.map_append, List.mem_append]
      tauto
    · simp only [Parameter.refs, List.mem_append, mem_refsOf, List.mem_singleton,
        exists_eq_left] at hm
      rcases hm with rfl | hm | rfl
      · exact Arena.lt_size_of_get? hself
      · exact (hu ref hm).mono hg
      · exact Nat.lt_of_lt_of_le (Arena.lt_size_of_get? hf) (hg.size .function)
  · -- The place of the new parameter is the one behind all that were listed.
    have hold : ∀ {k place id node}, graph.functions.get? id = some node →
        node.parameters[k]? = some place →
        ∃ other, (graph.withParameter parameter).parameters.get? place = some other ∧
          other.index = k ∧ other.function = id := by
      intro k place id node hn hk
      obtain ⟨other, ho, hrest⟩ := h.parameters hn hk
      exact ⟨other, get?_push_of_get? parameter ho, hrest⟩
    intro id node hn k place hk
    change (graph.functions.modify parameter.function _).get? id = some node at hn
    rw [Arena.get?_modify] at hn
    split at hn
    · next hid =>
      rw [hid, hf] at hn
      cases hn
      rcases Nat.lt_or_ge k function.parameters.length with hlt | hge
      · rw [List.getElem?_append_left hlt] at hk
        exact hold (hid ▸ hf) hk
      · rw [List.getElem?_append_right hge] at hk
        cases hz : k - function.parameters.length with
        | zero =>
          rw [hz] at hk
          cases hk
          exact ⟨parameter, hself, by omega, hid.symm⟩
        | succ n =>
          rw [hz] at hk
          cases hk
    · exact hold hn hk

open ReferenceSite (ParameterHead) in
/-- The parameters of a function come in one after another. -/
theorem Intact.addParameters {id : FunctionId} (heads : List ParameterHead) :
    ∀ {offset : Nat} {function : Function} {graph : Graph}, graph.Intact →
      graph.functions.get? id = some function → function.parameters.length = offset →
      (∀ head ∈ heads, ∀ ref ∈ head.typeUse.refs, graph.Knows ref) →
      ∃ after, (Action.forEach (heads.zipIdx offset) fun (head, index) =>
          discard (addParameter (head.parameter id index))) graph = (.ok (), after) ∧
        after.Intact ∧ BuildsOn graph after := by
  induction heads with
  | nil => exact fun h _ _ _ => ⟨_, rfl, h, .refl _⟩
  | cons head rest ih =>
    intro offset function graph h hf hl hk
    obtain ⟨hi, hg⟩ := h.withParameter (head.parameter id offset) hf hl.symm
      (hk head (List.mem_cons_self ..))
    have hfound : (graph.withParameter (head.parameter id offset)).functions.get? id = some
        { function with parameters := function.parameters ++ [graph.parameters.nextId] } := by
      refine (Arena.get?_modify ..).trans ((if_pos rfl).trans ?_)
      rw [hf]
      rfl
    obtain ⟨after, hrun, hi', hg'⟩ := ih hi hfound
      (by rw [List.length_append, hl, List.length_singleton])
      fun other hm ref hr => (hk other (List.mem_cons_of_mem _ hm) ref hr).mono hg
    refine ⟨after, ?_, hi', hg.trans hg'⟩
    have hfirst : (discard (addParameter (head.parameter id offset)) : GraphAction Unit) graph =
        (.ok (), graph.withParameter (head.parameter id offset)) :=
      Action.bind_of_ok (addParameter_known hf)
    rw [List.zipIdx_cons, Action.forEach, Action.bind_of_ok hfirst]
    exact hrun

end Graph

end JavaGraph
