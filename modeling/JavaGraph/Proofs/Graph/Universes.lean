import JavaGraph.Proofs.Graph.Released
import JavaGraph.Proofs.Graph.Since
/-!
# The part of a graph that belongs to a universe

Two graphs may correspond in one universe, whatever the others have: the types of the universe with
their members, the units of the artifact and what these require, and what its functions use. Here,
unlike in `Graph.Corresponds`, anonymous classes have the same supertypes and units require the
same.
-/

namespace JavaGraph.Graph

open List (Forall₂)

/-! ### Matched nodes -/

/-- Two types differ in identifiers only, and so do their members. -/
structure NodesMatch (graph other : Graph) (x y : TypeNode) : Prop where
  alike : NodesAlike graph other x y
  superclass : Option.Rel (SameType graph other) x.superclass y.superclass
  interfaces : Forall₂ (SameType graph other) x.interfaces y.interfaces

/-- Two units differ in identifiers only. -/
structure UnitsMatch (graph other : Graph) (x y : CompilationUnit) : Prop where
  alike : CompilationUnit.Alike (SameType graph other) x y
  requiredTypes : Forall₂ (SameType graph other) x.requiredTypes y.requiredTypes

/-- Two artifacts differ in the identifiers of their units only. -/
structure ArtifactsMatch (graph other : Graph) (x y : Artifact) : Prop where
  name : x.name = y.name
  units : Forall₂ (SameUnit graph other) x.units y.units
  dependencies : x.dependencies = y.dependencies

/-- Two uses of fields differ in identifiers only. -/
abbrev UsesMatch (graph other : Graph) : Access → Access → Prop :=
  Access.Alike (SameField graph other) (SameFunction graph other)

/-- What belongs to a universe is the same in two graphs, up to identifiers. -/
structure CorrespondsIn (home : Universe) (graph other : Graph) : Prop where
  /-- There are the same types. -/
  types : ∀ name, graph.Has name home ↔ other.Has name home
  type : ∀ {a b x y}, SameType graph other a b → graph.types.get? a = some x →
    other.types.get? b = some y → x.home = home → NodesMatch graph other x y
  /-- Every function uses the same fields in the same order. -/
  accesses : ∀ {a b x y f g} {place : Nat}, SameType graph other a b →
    graph.types.get? a = some x → other.types.get? b = some y → x.home = home →
    x.functions[place]? = some f → y.functions[place]? = some g →
    Forall₂ (UsesMatch graph other) (graph.accessesFrom f) (other.accessesFrom g)
  /-- There are the same units. -/
  units : ∀ path,
    (∃ id x, graph.units.get? id = some x ∧ x.path = path ∧ x.artifact = home) ↔
      ∃ id x, other.units.get? id = some x ∧ x.path = path ∧ x.artifact = home
  unit : ∀ {a b x y}, SameUnit graph other a b → graph.units.get? a = some x →
    other.units.get? b = some y → x.artifact = home → UnitsMatch graph other x y
  artifact : ∀ id, home = some id →
    Option.Rel (ArtifactsMatch graph other) (graph.artifacts.get? id) (other.artifacts.get? id)

/-- A declared type of another universe that is the same in two graphs. -/
def Lends (home : Universe) (graph other : Graph) (id : TypeId) : Prop :=
  ∃ x, graph.types.get? id = some x ∧ other.types.get? id = some x ∧ x.isComplete = true ∧
    x.home ≠ home

/-- The same types are declared in an artifact. -/
def SameDeclared (owner : ArtifactId) (graph other : Graph) : Prop :=
  ∀ id x, x.isComplete = true → x.artifact = some owner →
    (graph.types.get? id = some x ↔ other.types.get? id = some x)

variable {graph other after after' : Graph} {home : Universe}

section

variable (h : Extends graph after) (h' : Extends other after')
include h h'

/-- Types stay matched. -/
theorem NodesMatch.mono {x y : TypeNode} (hxy : NodesMatch graph other x y) :
    NodesMatch after after' x y :=
  ⟨hxy.alike.mono h h', rel_imp (fun ht => ht.mono h h') hxy.superclass,
    hxy.interfaces.imp fun _ _ ht => ht.mono h h'⟩

/-- Units stay matched. -/
theorem UnitsMatch.mono {x y : CompilationUnit} (hxy : UnitsMatch graph other x y) :
    UnitsMatch after after' x y :=
  ⟨hxy.alike.imp fun ht => ht.mono h h', hxy.requiredTypes.imp fun _ _ ht => ht.mono h h'⟩

/-- Artifacts stay matched. -/
theorem ArtifactsMatch.mono {x y : Artifact} (hxy : ArtifactsMatch graph other x y) :
    ArtifactsMatch after after' x y :=
  ⟨hxy.name, hxy.units.imp fun _ _ hu => hu.mono h h', hxy.dependencies⟩

end

/-- Placeholders of the same name match. -/
theorem nodesMatch_blank (name : QualifiedName) (home : Universe) (holder holder' : Option UnitId) :
    NodesMatch graph other (blank name home (.incomplete holder))
      (blank name home (.incomplete holder')) :=
  ⟨⟨rfl, rfl, .none, rfl, rfl, rfl, rfl, fun _ => .none, fun _ => .nil, .nil, .none, rfl, .nil,
    .nil, .nil⟩, .none, .nil⟩

/-- A type that matches a declared one is declared. -/
theorem NodesMatch.isComplete_eq {x y : TypeNode} (h : NodesMatch graph other x y) :
    x.isComplete = y.isComplete := by
  have hd := h.alike.declaredBy
  rw [TypeNode.isComplete_eq_isSome, TypeNode.isComplete_eq_isSome]
  revert hd
  generalize x.state.declaredBy = a
  generalize y.state.declaredBy = b
  intro hd
  cases hd <;> rfl

/-! ### Members that keep their places -/

/-- The graph has grown, and members keep their places. -/
structure KeepsPlaces (before after : Graph) : Prop where
  extended : Extends before after
  members : ∀ {id x}, before.types.get? id = some x → ∃ y, after.types.get? id = some y ∧
    x.fields <+: y.fields ∧ x.functions <+: y.functions

/-- Members have the same places in the same graph. -/
theorem KeepsPlaces.refl (graph : Graph) : KeepsPlaces graph graph :=
  ⟨.refl graph, fun hx => ⟨_, hx, List.prefix_refl _, List.prefix_refl _⟩⟩

/-- A member of a list keeps its place in longer ones. -/
private theorem getElem?_of_prefix {α : Type} {as bs : List α} (h : as <+: bs) {i : Nat} {a : α}
    (ha : as[i]? = some a) : bs[i]? = some a := by
  obtain ⟨rest, rfl⟩ := h
  rw [List.getElem?_append_left (List.getElem?_eq_some_iff.1 ha).1, ha]

section

variable (h : KeepsPlaces graph after) (h' : KeepsPlaces other after')
include h h'

/-- Fields stay matched. -/
theorem SameField.mono {a b : FieldId} (hab : SameField graph other a b) :
    SameField after after' a b := by
  obtain ⟨owner, owner', x, y, place, ht, hx, hy, ha, hb⟩ := hab
  obtain ⟨x', hx', hfx, -⟩ := h.members hx
  obtain ⟨y', hy', hfy, -⟩ := h'.members hy
  exact ⟨owner, owner', x', y', place, ht.mono h.extended h'.extended, hx', hy',
    getElem?_of_prefix hfx ha, getElem?_of_prefix hfy hb⟩

/-- Functions stay matched. -/
theorem SameFunction.mono {a b : FunctionId} (hab : SameFunction graph other a b) :
    SameFunction after after' a b := by
  obtain ⟨owner, owner', x, y, place, ht, hx, hy, ha, hb⟩ := hab
  obtain ⟨x', hx', -, hgx⟩ := h.members hx
  obtain ⟨y', hy', -, hgy⟩ := h'.members hy
  exact ⟨owner, owner', x', y', place, ht.mono h.extended h'.extended, hx', hy',
    getElem?_of_prefix hgx ha, getElem?_of_prefix hgy hb⟩

/-- Uses of fields stay matched. -/
theorem uses_mono {uses uses' : List Access} (hu : Forall₂ (UsesMatch graph other) uses uses') :
    Forall₂ (UsesMatch after after') uses uses' :=
  hu.imp fun _ _ ha => ha.imp (fun hf => hf.mono h h') fun hf => hf.mono h h'

end

/-! ### Placeholders that are released -/

/-- What is released keeps its places. -/
theorem Released.keepsPlaces (h : Released graph after) : KeepsPlaces graph after where
  extended := h.extended
  members hx := by
    obtain ⟨y, hy, hf, hg⟩ := h.members hx
    exact ⟨y, hy, hf ▸ List.prefix_refl _, hg ▸ List.prefix_refl _⟩

/-- What is declared stays as it is when placeholders are released. -/
theorem Released.complete_iff (h : Released graph after) {id : TypeId} {x : TypeNode}
    (hc : x.isComplete = true) : after.types.get? id = some x ↔ graph.types.get? id = some x := by
  rcases h.types id with he | ⟨y, hy, hi, hz⟩
  · rw [he]
  · rw [hy, hz]
    constructor
    · rintro ⟨⟩
      cases hc
    · rintro ⟨⟩
      rw [hi] at hc
      cases hc

/-- A type that is released matches whatever it matched. -/
private theorem NodesMatch.released {x y x' y' : TypeNode} (h : NodesMatch graph other x' y')
    (hx : x = x' ∨ x'.isComplete = false ∧ x = { x' with state := .incomplete none })
    (hy : y = y' ∨ y'.isComplete = false ∧ y = { y' with state := .incomplete none }) :
    NodesMatch graph other x y := by
  have hnone : ∀ {x : TypeNode}, x.isComplete = false → x.state.declaredBy = none := by
    intro x hx
    rw [TypeNode.isComplete_eq_isSome] at hx
    exact Option.isSome_eq_false_iff.1 hx |> Option.isNone_iff_eq_none.1
  have hd := h.alike.declaredBy
  rcases hx with rfl | ⟨hix, rfl⟩ <;> rcases hy with rfl | ⟨hiy, rfl⟩
  · exact h
  · rw [hnone hiy] at hd
    exact ⟨{ h.alike with declaredBy := hd }, h.superclass, h.interfaces⟩
  · rw [hnone hix] at hd
    exact ⟨{ h.alike with declaredBy := hd }, h.superclass, h.interfaces⟩
  · exact ⟨{ h.alike with declaredBy := .none }, h.superclass, h.interfaces⟩

/-- What corresponds goes on to do so when placeholders are released, and when other artifacts come
in. -/
theorem CorrespondsIn.released (hc : CorrespondsIn home graph other) (h : Released graph after)
    (h' : Released other after')
    (ha : ∀ id, home = some id → after.artifacts.get? id = graph.artifacts.get? id)
    (ha' : ∀ id, home = some id → after'.artifacts.get? id = other.artifacts.get? id) :
    CorrespondsIn home after after' where
  types name := by
    rw [has_iff, has_iff]
    simp only [h.label, h'.label]
    rw [← has_iff, ← has_iff]
    exact hc.types name
  type := by
    intro a b x y hab hx hy hh
    obtain ⟨x', hx', hxx⟩ := h.type hx
    obtain ⟨y', hy', hyy⟩ := h'.type hy
    have hh' : x'.home = home := by rcases hxx with rfl | ⟨-, rfl⟩ <;> exact hh
    exact (((hc.type (hab.of_released h h') hx' hy' hh').mono h.extended h'.extended)).released
      hxx hyy
  accesses := by
    intro a b x y f g place hab hx hy hh hf hg
    obtain ⟨x', hx', hxx⟩ := h.type hx
    obtain ⟨y', hy', hyy⟩ := h'.type hy
    have hh' : x'.home = home := by rcases hxx with rfl | ⟨-, rfl⟩ <;> exact hh
    have hfx : x'.functions[place]? = some f := by rcases hxx with rfl | ⟨-, rfl⟩ <;> exact hf
    have hgy : y'.functions[place]? = some g := by rcases hyy with rfl | ⟨-, rfl⟩ <;> exact hg
    have hall := hc.accesses (hab.of_released h h') hx' hy' hh' hfx hgy
    unfold accessesFrom at hall ⊢
    rw [h.accesses, h'.accesses]
    exact uses_mono h.keepsPlaces h'.keepsPlaces hall
  units path := by
    rw [h.units, h'.units]
    exact hc.units path
  unit := by
    rintro a b x y ⟨x', y', hx', hy', hp, he⟩ hx hy hh
    rw [h.units] at hx hx'
    rw [h'.units] at hy hy'
    exact (hc.unit ⟨x', y', hx', hy', hp, he⟩ hx hy hh).mono h.extended h'.extended
  artifact id hid := by
    rw [ha id hid, ha' id hid]
    exact rel_imp (fun hm => hm.mono h.extended h'.extended) (hc.artifact id hid)

end JavaGraph.Graph
