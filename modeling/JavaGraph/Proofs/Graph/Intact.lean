import JavaGraph.Proofs.Graph.References
import Mathlib.Data.List.Basic
import Mathlib.Logic.Relation
/-!
# Intact graphs

What a graph has to be like to be read without a check. No identifier in it dangles. What is kept
at both of its ends agrees: what a node lists is what belongs to it, each once. Types are nested in
types of the same unit, under their names. Only declared types are described, no type depends on
itself, and functions use fields of the types around them.
-/

namespace JavaGraph

/-! ### Identifiers in nodes -/

/-- An identifier of any kind. -/
abbrev Ref := (kind : EntityKind) × Id kind

/-- Identifiers of one kind. -/
def refsOf {kind : EntityKind} (ids : List (Id kind)) : List Ref := ids.map (Sigma.mk kind)

@[simp] theorem mem_refsOf {kind : EntityKind} {ids : List (Id kind)} {ref : Ref} :
    ref ∈ refsOf ids ↔ ∃ id ∈ ids, ⟨kind, id⟩ = ref := List.mem_map

/-- Fewer identifiers. -/
theorem refsOf_subset {kind : EntityKind} {ids ids' : List (Id kind)} (h : ids ⊆ ids') :
    refsOf ids ⊆ refsOf ids' := List.map_subset _ h

/-- The identifiers in an artifact. -/
def Artifact.refs (artifact : Artifact) : List Ref :=
  refsOf artifact.units ++ refsOf artifact.dependencies

/-- The identifiers in a unit. -/
def CompilationUnit.refs (unit : CompilationUnit) : List Ref :=
  refsOf unit.artifact.toList ++ refsOf unit.declaredTypes ++ refsOf unit.mainType.toList ++
    refsOf unit.requiredTypes ++ refsOf unit.dependencies

/-- The identifiers in a type. -/
def TypeNode.refs (type : TypeNode) : List Ref :=
  refsOf type.home.toList ++ refsOf type.state.declaredBy.toList ++
    refsOf type.state.requiredBy.toList ++ refsOf type.artifact.toList ++
    refsOf type.superclass.toList ++ refsOf type.interfaces ++ refsOf type.innerTypes ++
    refsOf type.declaringType.toList ++ refsOf type.fields ++ refsOf type.functions ++
    refsOf type.dependsOn

/-- The identifiers in a use of a type. -/
def TypeUse.refs (use : TypeUse) : List Ref := refsOf use.declared?.toList

/-- The identifiers in a field. -/
def Field.refs (field : Field) : List Ref := refsOf [field.declaringType] ++ field.typeUse.refs

/-- The identifiers in a function. -/
def Function.refs (function : Function) : List Ref :=
  refsOf [function.declaringType] ++ refsOf function.parameters ++
    function.returns.toList.flatMap TypeUse.refs ++ refsOf function.throws

/-- The identifiers in a parameter. -/
def Parameter.refs (parameter : Parameter) : List Ref :=
  parameter.typeUse.refs ++ refsOf [parameter.function]

/-- The identifiers in a use of a field. -/
def Access.refs (access : Access) : List Ref := refsOf [access.function] ++ refsOf [access.field]

/-- The identifiers in a text file. -/
def TextFile.refs (file : TextFile) : List Ref := refsOf file.lines

/-- The identifiers in a line. -/
def Line.refs (line : Line) : List Ref := refsOf [line.file] ++ refsOf line.next.toList

namespace Arena

variable {kind : EntityKind} {α : Type}

/-- The identifiers in the nodes of an arena. -/
def refs (arena : Arena kind α) (f : α → List Ref) : List Ref := arena.toList.flatMap f

/-- An identifier is in the nodes if it is in one of them. -/
theorem mem_refs {arena : Arena kind α} {f : α → List Ref} {ref : Ref} :
    ref ∈ arena.refs f ↔ ∃ id x, arena.get? id = some x ∧ ref ∈ f x := by
  unfold refs toList get?
  rw [List.mem_flatMap]
  constructor
  · rintro ⟨x, hx, hr⟩
    obtain ⟨i, hi⟩ := Array.mem_iff_getElem?.1 (Array.mem_toList_iff.1 hx)
    exact ⟨⟨i⟩, x, hi, hr⟩
  · rintro ⟨id, x, hx, hr⟩
    exact ⟨x, Array.mem_toList_iff.2 (Array.mem_of_getElem? hx), hr⟩

/-- A new node brings its own identifiers. -/
theorem refs_push {arena : Arena kind α} {f : α → List Ref} {x : α} {new : List Ref}
    (h : f x ⊆ new) : (arena.push x).refs f ⊆ arena.refs f ++ new := by
  intro ref hr
  obtain ⟨id, y, hy, hr⟩ := mem_refs.1 hr
  rw [get?_push] at hy
  split at hy
  · cases hy
    exact List.mem_append_right _ (h hr)
  · exact List.mem_append_left _ (mem_refs.2 ⟨id, y, hy, hr⟩)

/-- A change brings the identifiers that it puts into a node. -/
theorem refs_modify {arena : Arena kind α} {f : α → List Ref} {g : α → α} (id : Id kind)
    {new : List Ref} (h : ∀ {x}, arena.get? id = some x → f (g x) ⊆ f x ++ new) :
    (arena.modify id g).refs f ⊆ arena.refs f ++ new := by
  intro ref hr
  obtain ⟨k, y, hy, hr⟩ := mem_refs.1 hr
  rw [get?_modify] at hy
  split at hy
  · next hk =>
    obtain ⟨x, hx, rfl⟩ := Option.map_eq_some_iff.1 hy
    rcases List.mem_append.1 (h (hk ▸ hx) hr) with hr | hr
    · exact List.mem_append_left _ (mem_refs.2 ⟨k, x, hx, hr⟩)
    · exact List.mem_append_right _ hr
  · exact List.mem_append_left _ (mem_refs.2 ⟨k, y, hy, hr⟩)

/-- A known identifier is within the bounds. -/
theorem lt_size_of_get? {arena : Arena kind α} {id : Id kind} {x : α}
    (h : arena.get? id = some x) : id.index < arena.size :=
  (Array.getElem?_eq_some_iff.1 h).1

/-- An identifier within the bounds is known. -/
theorem get?_of_lt_size {arena : Arena kind α} {id : Id kind} (h : id.index < arena.size) :
    ∃ x, arena.get? id = some x :=
  ⟨_, Array.getElem?_eq_getElem h⟩

/-- Two changes of a node are one. -/
theorem modify_modify (arena : Arena kind α) (id : Id kind) (f g : α → α) :
    (arena.modify id f).modify id g = arena.modify id (g ∘ f) := by
  obtain ⟨nodes⟩ := arena
  simp only [modify, mk.injEq]
  apply Array.ext_getElem?
  intro i
  simp only [Array.getElem?_modify]
  split
  · simp
  · rfl

/-! ### Lists of members -/

variable {member : EntityKind} {β : Type}

/-- Each node lists the members that belong to it: no other ones, and none twice. -/
structure Lists (owners : Arena kind α) (list : α → List (Id member)) (members : Arena member β)
    (owner? : β → Option (Id kind)) : Prop where
  nodup : ∀ {id x}, owners.get? id = some x → (list x).Nodup
  mem_iff : ∀ {id x m}, owners.get? id = some x →
    (m ∈ list x ↔ ∃ y, members.get? m = some y ∧ owner? y = some id)

namespace Lists

variable {owners : Arena kind α} {list : α → List (Id member)} {members : Arena member β}
  {owner? : β → Option (Id kind)}

/-- What is not listed of a node may change. -/
theorem modify_owner (h : owners.Lists list members owner?) (k : Id kind) {f : α → α}
    (hf : ∀ x, list (f x) = list x) : (owners.modify k f).Lists list members owner? := by
  have hback : ∀ {id x}, (owners.modify k f).get? id = some x →
      ∃ y, owners.get? id = some y ∧ list x = list y := by
    intro id x hx
    rw [get?_modify] at hx
    split at hx
    · obtain ⟨y, hy, rfl⟩ := Option.map_eq_some_iff.1 hx
      exact ⟨y, hy, hf y⟩
    · exact ⟨x, hx, rfl⟩
  constructor
  · intro id x hx
    obtain ⟨y, hy, hl⟩ := hback hx
    rw [hl]
    exact h.nodup hy
  · intro id x m hx
    obtain ⟨y, hy, hl⟩ := hback hx
    rw [hl]
    exact h.mem_iff hy

/-- A member may change as long as it belongs where it did. -/
theorem modify_member (h : owners.Lists list members owner?) (k : Id member) {f : β → β}
    (hf : ∀ {y}, members.get? k = some y → owner? (f y) = owner? y) :
    owners.Lists list (members.modify k f) owner? := by
  refine ⟨h.nodup, fun hx => (h.mem_iff hx).trans ?_⟩
  rw [get?_modify]
  split
  · next hm =>
    rw [hm]
    constructor
    · rintro ⟨y, hy, ho⟩
      exact ⟨f y, by rw [hy]; rfl, (hf hy).trans ho⟩
    · rintro ⟨y, hy, ho⟩
      obtain ⟨z, hz, rfl⟩ := Option.map_eq_some_iff.1 hy
      exact ⟨z, hz, (hf hz).symm.trans ho⟩
  · exact Iff.rfl

/-- A new node lists nothing, because nothing belongs to it yet. -/
theorem push_owner (h : owners.Lists list members owner?) {x : α} (hx : list x = [])
    (hn : ∀ {m y}, members.get? m = some y → owner? y ≠ some owners.nextId) :
    (owners.push x).Lists list members owner? := by
  constructor
  · intro id y hy
    rw [get?_push] at hy
    split at hy
    · cases hy
      rw [hx]
      exact .nil
    · exact h.nodup hy
  · intro id y m hy
    rw [get?_push] at hy
    split at hy
    · next hid =>
      cases hy
      rw [hx, hid]
      refine ⟨fun hm => (List.not_mem_nil hm).elim, ?_⟩
      rintro ⟨z, hz, ho⟩
      exact absurd ho (hn hz)
    · exact h.mem_iff hy

/-- A new member that does not belong to a node leaves its list complete. -/
private theorem belongs_push {m : Id member} {y : β} {id : Id kind} (hy : owner? y ≠ some id) :
    (∃ z, members.get? m = some z ∧ owner? z = some id) ↔
      ∃ z, (members.push y).get? m = some z ∧ owner? z = some id := by
  rw [get?_push]
  split
  · next hm => simp [hm, hy]
  · exact Iff.rfl

/-- A new member that belongs to nothing is listed nowhere. -/
theorem push_orphan (h : owners.Lists list members owner?) {y : β} (hy : owner? y = none) :
    owners.Lists list (members.push y) owner? :=
  ⟨h.nodup, fun hx => (h.mem_iff hx).trans (belongs_push (by rw [hy]; exact nofun))⟩

/-- A member is listed last. -/
private theorem nodup_append_new {ids : List (Id member)} {m : Id member} (h : ids.Nodup)
    (hm : m ∉ ids) : (ids ++ [m]).Nodup := by
  refine List.nodup_append.2 ⟨h, List.nodup_singleton _, fun a ha b hb => ?_⟩
  rw [List.mem_singleton.1 hb]
  rintro rfl
  exact hm ha

/-- A new member is listed by what it belongs to. -/
theorem push_member (h : owners.Lists list members owner?) {k : Id kind} {y : β} {f : α → α}
    (hy : owner? y = some k) (hf : ∀ x, list (f x) = list x ++ [members.nextId]) :
    (owners.modify k f).Lists list (members.push y) owner? := by
  have hnew : ∀ {id x}, owners.get? id = some x → members.nextId ∉ list x := by
    intro id x hx hm
    obtain ⟨z, hz, -⟩ := (h.mem_iff hx).1 hm
    rw [get?_nextId] at hz
    cases hz
  constructor
  · intro id x hx
    rw [get?_modify] at hx
    split at hx
    · obtain ⟨z, hz, rfl⟩ := Option.map_eq_some_iff.1 hx
      rw [hf]
      exact nodup_append_new (h.nodup hz) (hnew hz)
    · exact h.nodup hx
  · intro id x m hx
    rw [get?_modify] at hx
    split at hx
    · next hid =>
      obtain ⟨z, hz, rfl⟩ := Option.map_eq_some_iff.1 hx
      rw [hf, List.mem_append, List.mem_singleton, h.mem_iff hz, get?_push]
      split
      · next hm => simp [hm, hy, hid]
      · next hm => simp [hm]
    · next hid =>
      refine (h.mem_iff hx).trans (belongs_push ?_)
      rw [hy]
      rintro ⟨rfl⟩
      exact hid rfl

/-- A member that belonged to nothing is listed by what it comes to belong to. -/
theorem adopt (h : owners.Lists list members owner?) {k : Id kind} {m : Id member} {y : β}
    {f : α → α} {g : β → β} (hy : members.get? m = some y) (hn : owner? y = none)
    (hg : owner? (g y) = some k) (hf : ∀ x, list (f x) = list x ++ [m]) :
    (owners.modify k f).Lists list (members.modify m g) owner? := by
  have hnew : ∀ {id x}, owners.get? id = some x → m ∉ list x := by
    intro id x hx hm
    obtain ⟨z, hz, ho⟩ := (h.mem_iff hx).1 hm
    cases hy.symm.trans hz
    rw [hn] at ho
    cases ho
  constructor
  · intro id x hx
    rw [get?_modify] at hx
    split at hx
    · obtain ⟨z, hz, rfl⟩ := Option.map_eq_some_iff.1 hx
      rw [hf]
      exact nodup_append_new (h.nodup hz) (hnew hz)
    · exact h.nodup hx
  · intro id x other hx
    rw [get?_modify] at hx
    split at hx
    · next hid =>
      obtain ⟨z, hz, rfl⟩ := Option.map_eq_some_iff.1 hx
      rw [hf, List.mem_append, List.mem_singleton, h.mem_iff hz, get?_modify]
      split
      · next hm => simp [hm, hy, hg, hid]
      · next hm => simp [hm]
    · next hid =>
      refine (h.mem_iff hx).trans ?_
      rw [get?_modify]
      split
      · next hm => simp [hm, hy, hn, hg, Ne.symm hid]
      · exact Iff.rfl

end Lists

end Arena

/-! ### Intact graphs -/

/-- A type is nested in another one of the same unit, under its name. -/
def TypeNode.NestedIn (type outer : TypeNode) : Prop :=
  ∃ unit suffix, type.state = .complete unit ∧ outer.state = .complete unit ∧ suffix ≠ "" ∧
    type.name.text = outer.name.text ++ "$" ++ suffix

namespace Graph

/-- The number of nodes of a kind. -/
def size (graph : Graph) : EntityKind → Nat
  | .artifact => graph.artifacts.size
  | .unit => graph.units.size
  | .type => graph.types.size
  | .field => graph.fields.size
  | .function => graph.functions.size
  | .parameter => graph.parameters.size
  | .textFile => graph.textFiles.size
  | .line => graph.lines.size

/-- There is a node with an identifier. -/
def Knows (graph : Graph) (ref : Ref) : Prop := ref.2.index < graph.size ref.1

/-- All identifiers in nodes and edges. -/
def refs (graph : Graph) : List Ref :=
  graph.artifacts.refs Artifact.refs ++ graph.units.refs CompilationUnit.refs ++
    graph.types.refs TypeNode.refs ++ graph.fields.refs Field.refs ++
    graph.functions.refs Function.refs ++ graph.parameters.refs Parameter.refs ++
    graph.accesses.toList.flatMap Access.refs ++ graph.textFiles.refs TextFile.refs ++
    graph.lines.refs Line.refs

/-- A type is directly within another one. -/
def DeclaredIn (graph : Graph) (id outer : TypeId) : Prop :=
  ∃ type, graph.types.get? id = some type ∧ type.declaringType = some outer

/-- A type is another one or around it. -/
def Around (graph : Graph) (outer id : TypeId) : Prop :=
  Relation.ReflTransGen graph.DeclaredIn id outer

/-- Every identifier is that of a node, both ends of what is kept twice agree, and types are
nested, described and used as they are declared. -/
structure Intact (graph : Graph) : Prop where
  closed : ∀ ref ∈ graph.refs, graph.Knows ref
  units : graph.artifacts.Lists (·.units) graph.units (·.artifact)
  fields : graph.types.Lists (·.fields) graph.fields (some ·.declaringType)
  functions : graph.types.Lists (·.functions) graph.functions (some ·.declaringType)
  innerTypes : graph.types.Lists (·.innerTypes) graph.types (·.declaringType)
  /-- A parameter knows its function, and its place among the parameters. -/
  parameters : ∀ {id function}, graph.functions.get? id = some function →
    ∀ {k place}, function.parameters[k]? = some place →
      ∃ parameter, graph.parameters.get? place = some parameter ∧ parameter.index = k ∧
        parameter.function = id
  nested : ∀ {id type outer}, graph.types.get? id = some type →
    type.declaringType = some outer →
      ∃ node, graph.types.get? outer = some node ∧ type.NestedIn node
  described : ∀ {id type}, graph.types.get? id = some type →
    type.kind.isSome = type.isComplete ∧ type.span.isSome = type.isComplete
  irreflexive : ∀ {id type}, graph.types.get? id = some type → id ∉ type.dependsOn
  /-- A function uses fields of its type and of the types around it. -/
  accesses : ∀ {access}, access ∈ graph.accesses.toList →
    ∃ function field, graph.functions.get? access.function = some function ∧
      graph.fields.get? access.field = some field ∧
      graph.Around field.declaringType function.declaringType

variable {graph after : Graph}

/-- A type around another one has the shorter name. -/
private theorem Intact.length_lt (h : graph.Intact) {id outer : TypeId}
    (hd : Relation.TransGen graph.DeclaredIn id outer) :
    ∃ x y, graph.types.get? id = some x ∧ graph.types.get? outer = some y ∧
      y.name.text.length < x.name.text.length := by
  have hstep : ∀ {id outer}, graph.DeclaredIn id outer →
      ∃ x y, graph.types.get? id = some x ∧ graph.types.get? outer = some y ∧
        y.name.text.length < x.name.text.length := by
    rintro id outer ⟨x, hx, hd⟩
    obtain ⟨y, hy, -, suffix, -, -, -, hn⟩ := h.nested hx hd
    refine ⟨x, y, hx, hy, ?_⟩
    have hdollar : "$".length = 1 := rfl
    rw [hn, String.length_append, String.length_append]
    omega
  induction hd with
  | single hd => exact hstep hd
  | tail _ hd ih =>
    obtain ⟨x, y, hx, hy, hl⟩ := ih
    obtain ⟨y', z, hy', hz, hl'⟩ := hstep hd
    cases hy.symm.trans hy'
    exact ⟨x, z, hx, hz, Nat.lt_trans hl' hl⟩

/-- No type is within itself. -/
theorem Intact.acyclic (h : graph.Intact) (id : TypeId) :
    ¬ Relation.TransGen graph.DeclaredIn id id := by
  intro hd
  obtain ⟨x, y, hx, hy, hl⟩ := h.length_lt hd
  cases hx.symm.trans hy
  exact absurd hl (Nat.lt_irrefl _)

/-! ### Known identifiers -/

/-- The next identifier of a type is not known. -/
theorem not_knows_nextId (graph : Graph) : ¬ graph.Knows ⟨.type, graph.types.nextId⟩ :=
  Nat.lt_irrefl _

/-- A type with a node is known. -/
theorem knows_of_get? {id : TypeId} {type : TypeNode} (h : graph.types.get? id = some type) :
    graph.Knows ⟨.type, id⟩ := Arena.lt_size_of_get? h

/-- A known type has a node. -/
theorem get?_of_knows {id : TypeId} (h : graph.Knows ⟨.type, id⟩) :
    ∃ type, graph.types.get? id = some type := Arena.get?_of_lt_size h

section

variable (h : ∀ ref ∈ graph.refs, graph.Knows ref)
include h

/-- The identifiers in an artifact are known. -/
theorem knows_of_artifact {id : ArtifactId} {x : Artifact} (hx : graph.artifacts.get? id = some x)
    {ref : Ref} (hr : ref ∈ x.refs) : graph.Knows ref := by
  have : ref ∈ graph.artifacts.refs Artifact.refs := Arena.mem_refs.2 ⟨id, x, hx, hr⟩
  exact h ref (by simp only [refs, List.mem_append]; tauto)

end

end Graph

end JavaGraph
