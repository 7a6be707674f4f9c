import JavaGraph.Proofs.Graph.Completion
/-!
# Names and universes

A type keeps its name and its universe for good, so what can make a name ambiguous is a new type
only.
-/

namespace JavaGraph

open JavaGraph.Action

namespace Graph

/-- No name stands for two types in a universe. -/
def Unambiguous (graph : Graph) : Prop :=
  ∀ a b x y, graph.types.get? a = some x → graph.types.get? b = some y →
    x.name = y.name → x.home = y.home → a = b

/-- Whether a universe has a type with a name. -/
def Has (graph : Graph) (name : QualifiedName) (home : Universe) : Prop :=
  ∃ id type, graph.types.get? id = some type ∧ type.name = name ∧ type.home = home

/-- What a type is called, and where. -/
def label (graph : Graph) (id : TypeId) : Option (QualifiedName × Universe) :=
  (graph.types.get? id).map fun type => (type.name, type.home)

/-- Types keep their names and universes, and no name becomes ambiguous. -/
structure NamesKept (before after : Graph) : Prop where
  label : ∀ {id l}, before.label id = some l → after.label id = some l
  unambiguous : before.Unambiguous → after.Unambiguous

instance : Action.Guarantee NamesKept where
  refl _ := ⟨id, id⟩
  trans h h' := ⟨h'.label ∘ h.label, h'.unambiguous ∘ h.unambiguous⟩

variable {graph after : Graph} {name : QualifiedName} {home : Universe}

/-- Types are unambiguous exactly if no two have the same label. -/
theorem unambiguous_iff :
    graph.Unambiguous ↔ ∀ {a b l}, graph.label a = some l → graph.label b = some l → a = b := by
  unfold Unambiguous label
  constructor
  · intro h a b l ha hb
    obtain ⟨x, hx, rfl⟩ := Option.map_eq_some_iff.1 ha
    obtain ⟨y, hy, he⟩ := Option.map_eq_some_iff.1 hb
    simp only [Prod.mk.injEq] at he
    exact h a b x y hx hy he.1.symm he.2.symm
  · intro h a b x y hx hy hn hh
    have ha : (graph.types.get? a).map (fun type => (type.name, type.home)) =
        some (x.name, x.home) := by rw [hx]; rfl
    refine h ha ?_
    rw [hy, hn, hh]
    rfl

/-- A universe has a name if one of its types is labelled so. -/
theorem has_iff : graph.Has name home ↔ ∃ id, graph.label id = some (name, home) := by
  unfold Has label
  constructor
  · rintro ⟨id, type, ht, rfl, rfl⟩
    exact ⟨id, by rw [ht]; rfl⟩
  · rintro ⟨id, hl⟩
    obtain ⟨type, ht, he⟩ := Option.map_eq_some_iff.1 hl
    simp only [Prod.mk.injEq] at he
    exact ⟨id, type, ht, he⟩

/-- A universe lacks a name or has it. -/
theorem lacks_iff_not_has : graph.Lacks name home ↔ ¬ graph.Has name home := by
  constructor
  · rintro hl ⟨id, type, ht, hn, hh⟩
    exact hl ht hn hh
  · intro hn id type ht hname hhome
    exact hn ⟨id, type, ht, hname, hhome⟩

/-- The same labels keep the names. -/
theorem NamesKept.of_label (h : ∀ id, after.label id = graph.label id) :
    NamesKept graph after := by
  constructor
  · intro id l hl
    rw [h, hl]
  · intro hu
    rw [unambiguous_iff] at hu ⊢
    intro a b l ha hb
    rw [h] at ha hb
    exact hu ha hb

/-- What does not touch the types keeps the names. -/
theorem NamesKept.of_types (h : after.types = graph.types) : NamesKept graph after :=
  .of_label fun id => by unfold Graph.label; rw [h]

/-! ### Operations that make no type -/

/-- A change of a type keeps the names if it does not change its name. -/
theorem namesKept_updateType (id : TypeId) (f : TypeNode → TypeNode)
    (hf : ∀ type, (f type).name = type.name ∧ (f type).home = type.home) :
    Keeps NamesKept (updateType id f) := by
  constructor
  intro graph
  cases ht : graph.types.get? id with
  | none =>
    have he := Arena.update_eq_error_iff (f := f) |>.2 ⟨ht, rfl⟩
    simp only [updateType, tryChange, he, bind, Except.bind]
    exact Action.Guarantee.refl graph
  | some type =>
    rw [updateType_known f ht]
    apply NamesKept.of_label
    intro k
    unfold label
    simp only
    rw [Arena.get?_modify]
    split
    · cases graph.types.get? k with
      | none => rfl
      | some old => simp [hf old]
    · rfl

private theorem types_tryChange {f : Graph → Except GraphError Graph}
    (h : ∀ {before after}, f before = .ok after → after.types = before.types) :
    Keeps NamesKept (tryChange f) := by
  constructor
  intro graph
  unfold tryChange
  cases hf : f graph with
  | error e => exact Action.Guarantee.refl graph
  | ok after => exact NamesKept.of_types (h hf)

instance (id : UnitId) (f : CompilationUnit → CompilationUnit) :
    Keeps NamesKept (updateUnit id f) := by
  apply types_tryChange
  intro before after h
  cases hu : before.units.update id f with
  | error e => simp [hu, bind, Except.bind] at h
  | ok units =>
    simp only [hu, bind, Except.bind, pure, Except.pure, Except.ok.injEq] at h
    rw [← h]

instance (id : ArtifactId) (f : Artifact → Artifact) : Keeps NamesKept (updateArtifact id f) := by
  apply types_tryChange
  intro before after h
  cases hu : before.artifacts.update id f with
  | error e => simp [hu, bind, Except.bind] at h
  | ok artifacts =>
    simp only [hu, bind, Except.bind, pure, Except.pure, Except.ok.injEq] at h
    rw [← h]

private theorem types_change {f : Graph → Graph} (h : ∀ graph, (f graph).types = graph.types) :
    Keeps NamesKept (change f : GraphAction Unit) :=
  ⟨fun graph => NamesKept.of_types (h graph)⟩

instance (unit : UnitId) (type : TypeId) : Keeps NamesKept (addRequirement unit type) := by
  unfold addRequirement
  exact Keeps.bind inferInstance fun _ => types_change fun _ => rfl

instance (type : TypeId) : Keeps NamesKept (releaseRequirement type) := by
  unfold releaseRequirement
  refine Keeps.bind inferInstance fun units => ?_
  exact Keeps.bind (types_change fun _ => rfl) fun _ => inferInstance

instance (type : TypeId) (unit : UnitId) (artifact : Option ArtifactId) :
    Keeps NamesKept (completeType type unit artifact) := by
  have := namesKept_updateType type
    (fun node => { node with state := .complete unit, artifact }) fun _ => ⟨rfl, rfl⟩
  unfold completeType
  infer_instance

instance (type : TypeId) (unit : UnitId) (artifact : Option ArtifactId) :
    Keeps NamesKept (declareType type unit artifact) := by
  unfold declareType
  refine Keeps.bind inferInstance ?_
  intro node
  split <;> infer_instance

instance (name : String) (dependencies : List ArtifactId) :
    Keeps NamesKept (addArtifact name dependencies) := by
  unfold addArtifact
  refine Keeps.bind inferInstance fun _ => Keeps.bind inferInstance fun id => ?_
  exact Keeps.bind (types_change fun _ => rfl) fun _ => inferInstance

instance (path : String) (artifact : Option ArtifactId) :
    Keeps NamesKept (addUnit path artifact) := by
  unfold addUnit
  refine Keeps.bind inferInstance ?_
  intro existing
  cases existing with
  | some unit => infer_instance
  | none =>
    refine Keeps.bind inferInstance ?_
    intro id
    have hc := fun dependencies => types_change
      (f := fun graph => { graph with units := graph.units.push { path, artifact, dependencies } })
      fun _ => rfl
    cases artifact <;> infer_instance

/-- A declaration does not change what types are called. -/
theorem label_withDeclaration {type : TypeId} {unit : UnitId} {artifact : Option ArtifactId}
    (id : TypeId) : (graph.withDeclaration type unit artifact).label id = graph.label id := by
  unfold label
  rw [get?_types_withDeclaration]
  split
  · cases graph.types.get? id <;> rfl
  · rfl

/-! ### New types -/

/-- A new type has its label, and the others keep theirs. -/
theorem label_withType (id : TypeId) :
    (graph.withType name home).label id =
      if id = graph.types.nextId then some (name, home) else graph.label id := by
  unfold label withType
  simp only
  rw [Arena.get?_push]
  split <;> rfl

/-- A type keeps its label when another one comes in. -/
theorem label_withType_of_label {id : TypeId} {l : QualifiedName × Universe}
    (h : graph.label id = some l) : (graph.withType name home).label id = some l := by
  rw [label_withType, if_neg, h]
  rintro rfl
  simp [label] at h

/-- A type of a new name keeps the names. -/
theorem namesKept_withType (hl : ¬ graph.Has name home) :
    NamesKept graph (graph.withType name home) := by
  refine ⟨label_withType_of_label, ?_⟩
  intro hu
  rw [unambiguous_iff] at hu ⊢
  intro a b l ha hb
  rw [label_withType] at ha hb
  split at ha
  · next ha' =>
    cases ha
    split at hb
    · next hb' => rw [ha', hb']
    · exact absurd (has_iff.2 ⟨b, hb⟩) hl
  · split at hb
    · cases hb
      exact absurd (has_iff.2 ⟨a, ha⟩) hl
    · exact hu ha hb

/-- A type of a name that there is already makes the name ambiguous. -/
theorem ambiguous_withType (hl : graph.Has name home) :
    ¬ (graph.withType name home).Unambiguous := by
  obtain ⟨id, hid⟩ := has_iff.1 hl
  intro hu
  have hne : id ≠ graph.types.nextId := by
    rintro rfl
    simp [label] at hid
  refine hne (unambiguous_iff.1 hu (l := (name, home)) ?_ ?_)
  · exact label_withType_of_label hid
  · rw [label_withType, if_pos rfl]

/-- What is ambiguous stays so. -/
theorem NamesKept.ambiguous (h : NamesKept graph after) (hu : ¬ graph.Unambiguous) :
    ¬ after.Unambiguous := by
  intro ha
  rw [unambiguous_iff] at hu ha
  exact hu fun hla hlb => ha (h.label hla) (h.label hlb)

end Graph

end JavaGraph
