import JavaGraph.Proofs.Action
import JavaGraph.Proofs.Graph.Correspondence
/-!
# Placeholders that are released

When a scope is left, its placeholders are no longer held for a unit. Nothing else about the types
and units changes then, and nothing at all when plain text is recorded.
-/

namespace JavaGraph.Graph

open List (Forall₂)
open JavaGraph.Action

/-- Nothing has changed but that some placeholders are no longer held. -/
structure Released (before after : Graph) : Prop where
  types : ∀ id, after.types.get? id = before.types.get? id ∨
    ∃ x, before.types.get? id = some x ∧ x.isComplete = false ∧
      after.types.get? id = some { x with state := .incomplete none }
  units : after.units = before.units
  fields : after.fields = before.fields
  functions : after.functions = before.functions
  parameters : after.parameters = before.parameters
  accesses : after.accesses = before.accesses

instance : Action.Guarantee Released where
  refl _ := ⟨fun _ => .inl rfl, rfl, rfl, rfl, rfl, rfl⟩
  trans := by
    intro a b c h h'
    refine ⟨fun id => ?_, h'.units.trans h.units, h'.fields.trans h.fields,
      h'.functions.trans h.functions, h'.parameters.trans h.parameters,
      h'.accesses.trans h.accesses⟩
    rcases h'.types id with he' | ⟨y, hy, hc, hz⟩
    · rw [he']
      exact h.types id
    · rcases h.types id with he | ⟨x, hx, hcx, hy'⟩
      · exact .inr ⟨y, he ▸ hy, hc, hz⟩
      · rw [hy] at hy'
        cases hy'
        exact .inr ⟨x, hx, hcx, hz⟩

/-! ### Actions -/

/-- Graphs that differ in nothing but artifacts and plain text. -/
theorem Released.of_eq {before after : Graph} (ht : after.types = before.types)
    (hu : after.units = before.units) (hf : after.fields = before.fields)
    (hg : after.functions = before.functions) (hp : after.parameters = before.parameters)
    (ha : after.accesses = before.accesses) : Released before after :=
  ⟨fun _ => .inl (by rw [ht]), hu, hf, hg, hp, ha⟩

private theorem keeps_tryChange {f : Graph → Except GraphError Graph}
    (h : ∀ {before after}, f before = .ok after → Released before after) :
    Keeps Released (tryChange f) := by
  constructor
  intro graph
  unfold tryChange
  cases hf : f graph with
  | ok after => exact h hf
  | error e => exact Guarantee.refl graph

instance (id : TypeId) : Keeps Released (updateType id (·.setRequiredBy none)) := by
  constructor
  intro graph
  cases hx : graph.types.get? id with
  | none =>
    have he := Arena.update_eq_error_iff (f := (·.setRequiredBy none)) |>.2 ⟨hx, rfl⟩
    simp only [updateType, tryChange, he, bind, Except.bind]
    exact Guarantee.refl graph
  | some x =>
    rw [updateType_known _ hx]
    refine ⟨fun k => ?_, rfl, rfl, rfl, rfl, rfl⟩
    simp only
    rw [Arena.get?_modify]
    split
    · next hk =>
      rw [hk, hx]
      unfold TypeNode.setRequiredBy TypeNode.isComplete
      cases hs : x.state with
      | incomplete holder => exact .inr ⟨x, rfl, by rw [hs]; rfl, by simp [hs]⟩
      | complete unit => exact .inl (by simp [hs])
    · exact .inl rfl

instance (path : String) : Keeps Released (addTextFile path) := by
  have : Keeps Released (change fun graph : Graph =>
      { graph with textFiles := graph.textFiles.push { path } } : GraphAction Unit) :=
    ⟨fun _ => .of_eq rfl rfl rfl rfl rfl rfl⟩
  unfold addTextFile
  infer_instance

instance (id : TextFileId) (f : TextFile → TextFile) : Keeps Released (updateTextFile id f) := by
  refine keeps_tryChange fun {before after} h => ?_
  cases hu : before.textFiles.update id f with
  | error e =>
    rw [hu] at h
    cases h
  | ok textFiles =>
    rw [hu] at h
    cases h
    exact .of_eq rfl rfl rfl rfl rfl rfl

instance (id : LineId) (f : Line → Line) : Keeps Released (updateLine id f) := by
  refine keeps_tryChange fun {before after} h => ?_
  cases hu : before.lines.update id f with
  | error e =>
    rw [hu] at h
    cases h
  | ok lines =>
    rw [hu] at h
    cases h
    exact .of_eq rfl rfl rfl rfl rfl rfl

instance (file : TextFileId) (text : String) : Keeps Released (addLine file text) := by
  have := fun line => (⟨fun _ => .of_eq rfl rfl rfl rfl rfl rfl⟩ :
    Keeps Released (change fun graph : Graph =>
      { graph with lines := graph.lines.push line } : GraphAction Unit))
  unfold addLine
  refine Keeps.bind inferInstance fun _ => Keeps.bind inferInstance ?_
  intro node
  refine Keeps.bind inferInstance fun _ => Keeps.bind inferInstance ?_
  intro _
  dsimp only
  split <;> infer_instance

/-! ### What is kept -/

variable {graph other after after' : Graph}

/-- Everything keeps its name. -/
theorem Released.extended (h : Released graph after) : Extends graph after where
  label := by
    intro id l hl
    unfold label at hl ⊢
    rcases h.types id with he | ⟨x, hx, -, hy⟩
    · rw [he, hl]
    · rw [hx] at hl
      rw [hy]
      exact hl
  unit hx := ⟨_, by rw [h.units, hx], rfl, rfl⟩
  field hx := by rw [h.fields, hx]
  function hx := by rw [h.functions, hx]
  parameter hx := by rw [h.parameters, hx]

/-- A type is known before exactly if it is known after. -/
theorem Released.type (h : Released graph after) {id : TypeId} {y : TypeNode}
    (hy : after.types.get? id = some y) : ∃ x, graph.types.get? id = some x ∧
      (y = x ∨ x.isComplete = false ∧ y = { x with state := .incomplete none }) := by
  rcases h.types id with he | ⟨x, hx, hc, hy'⟩
  · exact ⟨y, he ▸ hy, .inl rfl⟩
  · rw [hy] at hy'
    cases hy'
    exact ⟨x, hx, .inr ⟨hc, rfl⟩⟩

/-- A type keeps its members. -/
theorem Released.members (h : Released graph after) {id : TypeId} {x : TypeNode}
    (hx : graph.types.get? id = some x) :
    ∃ y, after.types.get? id = some y ∧ y.fields = x.fields ∧ y.functions = x.functions := by
  rcases h.types id with he | ⟨z, hz, -, hy⟩
  · exact ⟨x, by rw [he, hx], rfl, rfl⟩
  · rw [hx] at hz
    cases hz
    exact ⟨_, hy, rfl, rfl⟩

/-- Nobody declares a placeholder. -/
private theorem declaredBy_eq_none {x : TypeNode} (h : x.isComplete = false) :
    x.state.declaredBy = none := by
  unfold TypeNode.isComplete at h
  cases hs : x.state with
  | incomplete holder => rfl
  | complete unit =>
    rw [hs] at h
    cases h

/-- Types have the same labels before and after. -/
theorem Released.label (h : Released graph after) (id : TypeId) :
    after.label id = graph.label id := by
  unfold Graph.label
  rcases h.types id with he | ⟨x, hx, -, hy⟩
  · rw [he]
  · rw [hx, hy]
    rfl

section

variable (h : Released graph after) (h' : Released other after')
include h h'

/-- Fields stay matched. -/
theorem SameField.released {a b : FieldId} (hab : SameField graph other a b) :
    SameField after after' a b := by
  obtain ⟨owner, owner', x, y, place, ht, hx, hy, ha, hb⟩ := hab
  obtain ⟨x', hx', hfx, -⟩ := h.members hx
  obtain ⟨y', hy', hfy, -⟩ := h'.members hy
  exact ⟨owner, owner', x', y', place, ht.mono h.extended h'.extended, hx', hy', by rw [hfx, ha],
    by rw [hfy, hb]⟩

/-- Functions stay matched. -/
theorem SameFunction.released {a b : FunctionId} (hab : SameFunction graph other a b) :
    SameFunction after after' a b := by
  obtain ⟨owner, owner', x, y, place, ht, hx, hy, ha, hb⟩ := hab
  obtain ⟨x', hx', -, hgx⟩ := h.members hx
  obtain ⟨y', hy', -, hgy⟩ := h'.members hy
  exact ⟨owner, owner', x', y', place, ht.mono h.extended h'.extended, hx', hy', by rw [hgx, ha],
    by rw [hgy, hb]⟩

/-- Types are matched before if they are matched after. -/
theorem SameType.of_released {a b : TypeId} (hab : SameType after after' a b) :
    SameType graph other a b := by
  obtain ⟨l, ha, hb⟩ := hab
  exact ⟨l, by rw [← h.label, ha], by rw [← h'.label, hb]⟩

/-- Graphs that are the same up to identifiers stay so. -/
theorem Corresponds.released (hc : Corresponds graph other) : Corresponds after after' where
  types label := by
    simp only [h.label, h'.label]
    exact hc.types label
  type := by
    intro a b x y hab hx hy
    obtain ⟨x', hx', hxx⟩ := h.type hx
    obtain ⟨y', hy', hyy⟩ := h'.type hy
    have halike := (hc.type (hab.of_released h h') hx' hy').mono h.extended h'.extended
    have hd := halike.declaredBy
    have hdx : x.state.declaredBy = x'.state.declaredBy := by
      rcases hxx with rfl | ⟨hi, rfl⟩
      · rfl
      · rw [declaredBy_eq_none hi]
        rfl
    have hdy : y.state.declaredBy = y'.state.declaredBy := by
      rcases hyy with rfl | ⟨hi, rfl⟩
      · rfl
      · rw [declaredBy_eq_none hi]
        rfl
    rw [← hdx, ← hdy] at hd
    rcases hxx with rfl | ⟨-, rfl⟩ <;> rcases hyy with rfl | ⟨-, rfl⟩ <;>
      exact ⟨halike.name, halike.home, hd, halike.artifact, halike.kind, halike.modifiers,
        halike.span, halike.superclass, halike.interfaces, halike.innerTypes,
        halike.declaringType, halike.anonymousIndex, halike.fields, halike.functions,
        halike.dependsOn⟩
  accesses := by
    rintro f g ⟨owner, owner', x, y, place, hab, hx, hy, hf, hg⟩
    obtain ⟨x', hx', hxx⟩ := h.type hx
    obtain ⟨y', hy', hyy⟩ := h'.type hy
    have hfx : x.functions = x'.functions := by rcases hxx with rfl | ⟨-, rfl⟩ <;> rfl
    have hgy : y.functions = y'.functions := by rcases hyy with rfl | ⟨-, rfl⟩ <;> rfl
    have hall := hc.accesses ⟨owner, owner', x', y', place, hab.of_released h h', hx', hy',
      hfx ▸ hf, hgy ▸ hg⟩
    unfold accessesFrom at hall ⊢
    rw [h.accesses, h'.accesses]
    exact hall.imp fun _ _ ha => ha.imp (·.released h h') (·.released h h')
  units path artifact := by
    rw [h.units, h'.units]
    exact hc.units path artifact
  unit := by
    rintro a b x y ⟨x', y', hx', hy', hp, ha⟩ hx hy
    rw [h.units] at hx hx'
    rw [h'.units] at hy hy'
    exact (hc.unit ⟨x', y', hx', hy', hp, ha⟩ hx hy).imp fun ht => ht.mono h.extended h'.extended

end

end JavaGraph.Graph
