import JavaGraph.Graph.Lookup
import JavaGraph.Proofs.Graph.Alike
import JavaGraph.Proofs.Graph.Names
/-!
# Graphs that correspond

Two graphs correspond if they are the same up to identifiers. Types are matched by their names and
universes, units by their paths and artifacts, fields and functions by their places in the types
that are matched. `Graph.Extends` says what a graph keeps when others come to depend on it, so that
what is matched stays matched.
-/

namespace JavaGraph.Graph

open List (Forall₂)

/-! ### Matched identifiers -/

/-- Two types have the same name and universe. -/
def SameType (graph other : Graph) (a b : TypeId) : Prop :=
  ∃ label, graph.label a = some label ∧ other.label b = some label

/-- Two units have the same path and artifact. -/
def SameUnit (graph other : Graph) (a b : UnitId) : Prop :=
  ∃ x y, graph.units.get? a = some x ∧ other.units.get? b = some y ∧ x.path = y.path ∧
    x.artifact = y.artifact

/-- Two fields have the same place in types of the same name. -/
def SameField (graph other : Graph) (a b : FieldId) : Prop :=
  ∃ owner owner' x y, ∃ place : Nat, SameType graph other owner owner' ∧
    graph.types.get? owner = some x ∧ other.types.get? owner' = some y ∧
    x.fields[place]? = some a ∧ y.fields[place]? = some b

/-- Two functions have the same place in types of the same name. -/
def SameFunction (graph other : Graph) (a b : FunctionId) : Prop :=
  ∃ owner owner' x y, ∃ place : Nat, SameType graph other owner owner' ∧
    graph.types.get? owner = some x ∧ other.types.get? owner' = some y ∧
    x.functions[place]? = some a ∧ y.functions[place]? = some b

/-! ### Matched nodes -/

/-- Two fields are alike. -/
def FieldsAlike (graph other : Graph) (a b : FieldId) : Prop :=
  ∃ x y, graph.fields.get? a = some x ∧ other.fields.get? b = some y ∧
    Field.Alike (SameType graph other) x y

/-- Two parameters are alike and belong to two functions. -/
def ParametersAlike (graph other : Graph) (f g : FunctionId) (a b : ParameterId) : Prop :=
  ∃ x y, graph.parameters.get? a = some x ∧ other.parameters.get? b = some y ∧
    x.function = f ∧ y.function = g ∧ Parameter.Alike (SameType graph other) x y

/-- Two functions are alike, and so are their parameters. -/
def FunctionsAlike (graph other : Graph) (a b : FunctionId) : Prop :=
  ∃ x y, graph.functions.get? a = some x ∧ other.functions.get? b = some y ∧
    Function.Alike (SameType graph other) x y ∧
    Forall₂ (ParametersAlike graph other a b) x.parameters y.parameters

/-- Two types are alike, and so are their members. -/
def NodesAlike (graph other : Graph) : TypeNode → TypeNode → Prop :=
  TypeNode.Alike (SameUnit graph other) (SameType graph other) (FieldsAlike graph other)
    (FunctionsAlike graph other)

/-- Two graphs are the same up to identifiers. What units require is left open, and so is which
supertype an anonymous class has. -/
structure Corresponds (graph other : Graph) : Prop where
  /-- There are the same types. -/
  types : ∀ label, (∃ id, graph.label id = some label) ↔ ∃ id, other.label id = some label
  type : ∀ {a b x y}, SameType graph other a b → graph.types.get? a = some x →
    other.types.get? b = some y → NodesAlike graph other x y
  /-- Every function uses the same fields in the same order. -/
  accesses : ∀ {a b}, SameFunction graph other a b →
    Forall₂ (Access.Alike (SameField graph other) (SameFunction graph other))
      (graph.accessesFrom a) (other.accessesFrom b)
  /-- There are the same units. -/
  units : ∀ path artifact,
    (∃ id x, graph.units.get? id = some x ∧ x.path = path ∧ x.artifact = artifact) ↔
      ∃ id x, other.units.get? id = some x ∧ x.path = path ∧ x.artifact = artifact
  unit : ∀ {a b x y}, SameUnit graph other a b → graph.units.get? a = some x →
    other.units.get? b = some y → CompilationUnit.Alike (SameType graph other) x y

/-! ### Growing graphs -/

/-- What has a name keeps it, and members stay as they are. -/
structure Extends (before after : Graph) : Prop where
  label : ∀ {id l}, before.label id = some l → after.label id = some l
  unit : ∀ {id x}, before.units.get? id = some x →
    ∃ y, after.units.get? id = some y ∧ y.path = x.path ∧ y.artifact = x.artifact
  field : ∀ {id x}, before.fields.get? id = some x → after.fields.get? id = some x
  function : ∀ {id x}, before.functions.get? id = some x → after.functions.get? id = some x
  parameter : ∀ {id x}, before.parameters.get? id = some x → after.parameters.get? id = some x

variable {graph other after after' : Graph}

/-- A graph extends itself. -/
theorem Extends.refl (graph : Graph) : Extends graph graph :=
  ⟨id, fun hx => ⟨_, hx, rfl, rfl⟩, id, id, id⟩

/-- Graphs grow step by step. -/
theorem Extends.trans {middle : Graph} (h : Extends graph middle) (h' : Extends middle after) :
    Extends graph after where
  label := h'.label ∘ h.label
  unit hx := by
    obtain ⟨y, hy, hp, ha⟩ := h.unit hx
    obtain ⟨z, hz, hp', ha'⟩ := h'.unit hy
    exact ⟨z, hz, hp'.trans hp, ha'.trans ha⟩
  field := h'.field ∘ h.field
  function := h'.function ∘ h.function
  parameter := h'.parameter ∘ h.parameter

/-- The label of a known type. -/
theorem label_of_get? {id : TypeId} {x : TypeNode} (h : graph.types.get? id = some x) :
    graph.label id = some (x.name, x.home) := by
  unfold label
  rw [h]
  rfl

/-- A type with a label is known. -/
theorem get?_of_label {id : TypeId} {l : QualifiedName × Universe}
    (h : graph.label id = some l) : ∃ x, graph.types.get? id = some x ∧ (x.name, x.home) = l :=
  Option.map_eq_some_iff.1 h

/-- A known type is the same as itself. -/
theorem SameType.refl {id : TypeId} {x : TypeNode} (h : graph.types.get? id = some x) :
    SameType graph graph id id :=
  ⟨_, label_of_get? h, label_of_get? h⟩

/-- Types of the same name and universe. -/
theorem SameType.of_get? {a b : TypeId} {x y : TypeNode} (hx : graph.types.get? a = some x)
    (hy : other.types.get? b = some y) (hn : x.name = y.name) (hh : x.home = y.home) :
    SameType graph other a b :=
  ⟨_, label_of_get? hx, by rw [label_of_get? hy, hn, hh]⟩

/-- Matched types are known and have the same name and universe. -/
theorem SameType.get? {a b : TypeId} (h : SameType graph other a b) :
    ∃ x y, graph.types.get? a = some x ∧ other.types.get? b = some y ∧ x.name = y.name ∧
      x.home = y.home := by
  obtain ⟨l, ha, hb⟩ := h
  obtain ⟨x, hx, rfl⟩ := get?_of_label ha
  obtain ⟨y, hy, hl⟩ := get?_of_label hb
  simp only [Prod.mk.injEq] at hl
  exact ⟨x, y, hx, hy, hl.1.symm, hl.2.symm⟩

/-- In graphs without ambiguous names, types are matched one by one. -/
theorem sameType_injective (h : graph.Unambiguous) (h' : other.Unambiguous) :
    Injective (SameType graph other) := by
  rintro a b a' b' ⟨l, ha, hb⟩ ⟨l', ha', hb'⟩
  rw [unambiguous_iff] at h h'
  constructor
  · rintro rfl
    rw [ha] at ha'
    cases ha'
    exact h' hb hb'
  · rintro rfl
    rw [hb] at hb'
    cases hb'
    exact h ha ha'

/-- Two types that match a third one. -/
theorem SameType.both {third : Graph} {c a b : TypeId} (h : SameType third graph c a)
    (h' : SameType third other c b) : SameType graph other a b := by
  obtain ⟨l, hc, ha⟩ := h
  obtain ⟨l', hc', hb⟩ := h'
  rw [hc] at hc'
  cases hc'
  exact ⟨l, ha, hb⟩

/-- Two units that match a third one. -/
theorem SameUnit.both {third : Graph} {c a b : UnitId} (h : SameUnit third graph c a)
    (h' : SameUnit third other c b) : SameUnit graph other a b := by
  obtain ⟨z, x, hz, hx, hp, ha⟩ := h
  obtain ⟨z', y, hz', hy, hp', ha'⟩ := h'
  rw [hz] at hz'
  cases hz'
  exact ⟨x, y, hx, hy, hp.symm.trans hp', ha.symm.trans ha'⟩

section

variable (h : Extends graph after) (h' : Extends other after')
include h h'

/-- Types stay matched. -/
theorem SameType.mono {a b : TypeId} (hab : SameType graph other a b) :
    SameType after after' a b := by
  obtain ⟨l, ha, hb⟩ := hab
  exact ⟨l, h.label ha, h'.label hb⟩

/-- Units stay matched. -/
theorem SameUnit.mono {a b : UnitId} (hab : SameUnit graph other a b) :
    SameUnit after after' a b := by
  obtain ⟨x, y, hx, hy, hp, ha⟩ := hab
  obtain ⟨x', hx', hpx, hax⟩ := h.unit hx
  obtain ⟨y', hy', hpy, hay⟩ := h'.unit hy
  exact ⟨x', y', hx', hy', by rw [hpx, hp, hpy], by rw [hax, ha, hay]⟩

/-- Fields stay alike. -/
theorem FieldsAlike.mono {a b : FieldId} (hab : FieldsAlike graph other a b) :
    FieldsAlike after after' a b := by
  obtain ⟨x, y, hx, hy, hxy⟩ := hab
  exact ⟨x, y, h.field hx, h'.field hy, hxy.imp fun ht => ht.mono h h'⟩

/-- Parameters stay alike. -/
theorem ParametersAlike.mono {f g : FunctionId} {a b : ParameterId}
    (hab : ParametersAlike graph other f g a b) : ParametersAlike after after' f g a b := by
  obtain ⟨x, y, hx, hy, hf, hg, hxy⟩ := hab
  exact ⟨x, y, h.parameter hx, h'.parameter hy, hf, hg, hxy.imp fun ht => ht.mono h h'⟩

/-- Functions stay alike. -/
theorem FunctionsAlike.mono {a b : FunctionId} (hab : FunctionsAlike graph other a b) :
    FunctionsAlike after after' a b := by
  obtain ⟨x, y, hx, hy, hxy, hp⟩ := hab
  exact ⟨x, y, h.function hx, h'.function hy, hxy.imp fun ht => ht.mono h h',
    hp.imp fun _ _ hpq => hpq.mono h h'⟩

/-- Types stay alike. -/
theorem NodesAlike.mono {x y : TypeNode} (hxy : NodesAlike graph other x y) :
    NodesAlike after after' x y :=
  TypeNode.Alike.imp (fun hu => SameUnit.mono h h' hu) (fun ht => SameType.mono h h' ht)
    (fun hf => FieldsAlike.mono h h' hf) (fun hg => FunctionsAlike.mono h h' hg) hxy

end

/-- Two fields that are alike to a third one. -/
theorem FieldsAlike.both {third : Graph} {c a b : FieldId} (h : FieldsAlike third graph c a)
    (h' : FieldsAlike third other c b) : FieldsAlike graph other a b := by
  obtain ⟨z, x, hz, hx, hzx⟩ := h
  obtain ⟨z', y, hz', hy, hzy⟩ := h'
  rw [hz] at hz'
  cases hz'
  refine ⟨x, y, hx, hy, hzx.both ?_ hzy⟩
  exact fun _ _ _ ht ht' => ht.both ht'

/-- Two functions that are alike to a third one. -/
theorem FunctionsAlike.both {third : Graph} {c a b : FunctionId}
    (h : FunctionsAlike third graph c a) (h' : FunctionsAlike third other c b) :
    FunctionsAlike graph other a b := by
  obtain ⟨z, x, hz, hx, hzx, hp⟩ := h
  obtain ⟨z', y, hz', hy, hzy, hp'⟩ := h'
  rw [hz] at hz'
  cases hz'
  have htype : ∀ c a b, SameType third graph c a → SameType third other c b →
      SameType graph other a b := fun _ _ _ ht ht' => ht.both ht'
  refine ⟨x, y, hx, hy, hzx.both htype hzy, forall₂_both ?_ hp hp'⟩
  rintro r p q ⟨w, u, hw, hu, -, hf, hwu⟩ ⟨w', v, hw', hv, -, hg, hwv⟩
  rw [hw] at hw'
  cases hw'
  exact ⟨u, v, hu, hv, hf, hg, hwu.both htype hwv⟩

end JavaGraph.Graph
