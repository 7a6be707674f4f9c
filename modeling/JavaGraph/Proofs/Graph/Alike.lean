import Mathlib.Data.List.Forall2
import JavaGraph.Graph.Basic
/-!
# Nodes that differ in identifiers only

Two nodes are alike if they hold the same data and, in the same places, related identifiers. What
relates the identifiers is left open.
-/

/-!
## Related lists and options

Functions on lists and options that look at members only through what related members have in
common give related or equal results for related arguments.
-/

namespace JavaGraph

open List (Forall₂)

/-- Related lists have related members that satisfy corresponding conditions. -/
theorem forall₂_filter {α β : Type} {S : α → β → Prop} {p : α → Bool} {q : β → Bool}
    {as : List α} {bs : List β} (h : Forall₂ S as bs) (hpq : ∀ {a b}, S a b → p a = q b) :
    Forall₂ S (as.filter p) (bs.filter q) := by
  induction h with
  | nil => exact .nil
  | @cons a b as bs hab hrest ih =>
    rw [List.filter_cons, List.filter_cons, hpq hab]
    split
    · exact .cons hab ih
    · exact ih

/-- The first members that satisfy corresponding conditions are related. -/
theorem rel_find? {α β : Type} {S : α → β → Prop} {p : α → Bool} {q : β → Bool}
    {as : List α} {bs : List β} (h : Forall₂ S as bs) (hpq : ∀ {a b}, S a b → p a = q b) :
    Option.Rel S (as.find? p) (bs.find? q) := by
  induction h with
  | nil => exact .none
  | @cons a b as bs hab hrest ih =>
    rw [List.find?_cons, List.find?_cons, hpq hab]
    split
    · exact .some hab
    · exact ih

/-- Results that may be missing are related if they come from related members. -/
theorem forall₂_filterMap {α β γ δ : Type} {S : α → β → Prop} {U : γ → δ → Prop}
    {f : α → Option γ} {g : β → Option δ} {as : List α} {bs : List β} (h : Forall₂ S as bs)
    (hfg : ∀ {a b}, S a b → Option.Rel U (f a) (g b)) :
    Forall₂ U (as.filterMap f) (bs.filterMap g) := by
  induction h with
  | nil => exact .nil
  | @cons a b as bs hab hrest ih =>
    have hr := hfg hab
    rw [List.filterMap_cons, List.filterMap_cons]
    cases hf : f a with
    | none =>
      rw [hf] at hr
      cases hg : g b with
      | none => exact ih
      | some y => rw [hg] at hr; cases hr
    | some x =>
      rw [hf] at hr
      cases hg : g b with
      | none => rw [hg] at hr; cases hr
      | some y =>
        rw [hg] at hr
        cases hr with
        | some hxy => exact .cons hxy ih

/-- The first members of related lists are related. -/
theorem rel_head? {α β : Type} {S : α → β → Prop} {as : List α} {bs : List β}
    (h : Forall₂ S as bs) : Option.Rel S as.head? bs.head? := by
  cases h with
  | nil => exact .none
  | cons hab hrest => exact .some hab

/-- The last members of related lists are related. -/
theorem rel_getLast? {α β : Type} {S : α → β → Prop} {as : List α} {bs : List β}
    (h : Forall₂ S as bs) : Option.Rel S as.getLast? bs.getLast? := by
  rw [List.getLast?_eq_head?_reverse, List.getLast?_eq_head?_reverse]
  exact rel_head? (List.forall₂_reverse_iff.2 h)

/-- Equal values that are read off related ones. -/
theorem map_eq_of_rel {α β γ : Type} {S : α → β → Prop} {f : α → γ} {g : β → γ} {a : Option α}
    {b : Option β} (h : Option.Rel S a b) (hfg : ∀ {a b}, S a b → f a = g b) :
    a.map f = b.map g := by
  cases h with
  | none => rfl
  | some hab => exact congrArg some (hfg hab)

/-- Equal values that are read off related lists. -/
theorem map_eq_of_forall₂ {α β γ : Type} {S : α → β → Prop} {f : α → γ} {g : β → γ} {as : List α}
    {bs : List β} (h : Forall₂ S as bs) (hfg : ∀ {a b}, S a b → f a = g b) :
    as.map f = bs.map g := by
  induction h with
  | nil => rfl
  | cons hab hrest ih => rw [List.map_cons, List.map_cons, hfg hab, ih]

/-- The first result that related lists have is the same. -/
theorem findSome?_eq_of_forall₂ {α β γ : Type} {S : α → β → Prop} {f : α → Option γ}
    {g : β → Option γ} {as : List α} {bs : List β} (h : Forall₂ S as bs)
    (hfg : ∀ {a b}, S a b → f a = g b) : as.findSome? f = bs.findSome? g := by
  induction h with
  | nil => rfl
  | cons hab hrest ih => rw [List.findSome?_cons, List.findSome?_cons, hfg hab, ih]

/-- A condition that one of related members satisfies. -/
theorem any_eq_of_forall₂ {α β : Type} {S : α → β → Prop} {p : α → Bool} {q : β → Bool}
    {as : List α} {bs : List β} (h : Forall₂ S as bs) (hpq : ∀ {a b}, S a b → p a = q b) :
    as.any p = bs.any q := by
  induction h with
  | nil => rfl
  | cons hab hrest ih => rw [List.any_cons, List.any_cons, hpq hab, ih]

/-- Related options have related values. -/
theorem rel_map {α β γ δ : Type} {S : α → β → Prop} {U : γ → δ → Prop} {f : α → γ} {g : β → δ}
    {a : Option α} {b : Option β} (h : Option.Rel S a b) (hfg : ∀ {a b}, S a b → U (f a) (g b)) :
    Option.Rel U (a.map f) (b.map g) := by
  cases h with
  | none => exact .none
  | some hab => exact .some (hfg hab)

/-- Related options with related alternatives. -/
theorem rel_or {α β : Type} {S : α → β → Prop} {a a' : Option α} {b b' : Option β}
    (h : Option.Rel S a b) (h' : Option.Rel S a' b') : Option.Rel S (a.or a') (b.or b') := by
  cases h with
  | none => exact h'
  | some hab => exact .some hab

/-- A weaker relation between options. -/
theorem rel_imp {α β : Type} {S S' : α → β → Prop} (hi : ∀ {a b}, S a b → S' a b) {a : Option α}
    {b : Option β} (h : Option.Rel S a b) : Option.Rel S' a b := by
  cases h with
  | none => exact .none
  | some hab => exact .some (hi hab)

/-- Options that are related to a third one. -/
theorem rel_both {α β γ : Type} {S : γ → α → Prop} {S' : γ → β → Prop} {U : α → β → Prop}
    (hU : ∀ c a b, S c a → S' c b → U a b) {c : Option γ} {a : Option α} {b : Option β}
    (h : Option.Rel S c a) (h' : Option.Rel S' c b) : Option.Rel U a b := by
  cases h with
  | none =>
    cases h' with
    | none => exact .none
  | some hca =>
    cases h' with
    | some hcb => exact .some (hU _ _ _ hca hcb)

/-- Lists that are related to a third one. -/
theorem forall₂_both {α β γ : Type} {S : γ → α → Prop} {S' : γ → β → Prop} {U : α → β → Prop}
    (hU : ∀ c a b, S c a → S' c b → U a b) {cs : List γ} {as : List α} {bs : List β}
    (h : Forall₂ S cs as) (h' : Forall₂ S' cs bs) : Forall₂ U as bs := by
  induction h generalizing bs with
  | nil =>
    cases h'
    exact .nil
  | cons hca hrest ih =>
    cases h' with
    | cons hcb hrest' => exact .cons (hU _ _ _ hca hcb) (ih hrest')

/-- Related lists have related members in the same places. -/
theorem getElem?_of_forall₂ {α β : Type} {S : α → β → Prop} {as : List α} {bs : List β}
    (h : Forall₂ S as bs) {i : Nat} {a : α} (ha : as[i]? = some a) :
    ∃ b, bs[i]? = some b ∧ S a b := by
  induction h generalizing i with
  | nil => cases ha
  | @cons x y xs ys hxy hrest ih =>
    cases i with
    | zero =>
      cases ha
      exact ⟨y, rfl, hxy⟩
    | succ n => exact ih ha

/-- A member of one of two related lists is related to one of the other. -/
theorem mem_of_forall₂ {α β : Type} {S : α → β → Prop} {as : List α} {bs : List β}
    (h : Forall₂ S as bs) {a : α} (ha : a ∈ as) : ∃ b ∈ bs, S a b := by
  obtain ⟨i, hi⟩ := List.mem_iff_getElem?.1 ha
  obtain ⟨b, hb, hab⟩ := getElem?_of_forall₂ h hi
  exact ⟨b, List.mem_of_getElem? hb, hab⟩

/-- A member of both of two related lists, under a relation that identifies no members. -/
theorem mem_iff_of_forall₂ {α β : Type} {S : α → β → Prop} {as : List α} {bs : List β}
    (h : Forall₂ S as bs) {a : α} {b : β} (hi : ∀ {a' b'}, S a' b' → (a = a' ↔ b = b')) :
    a ∈ as ↔ b ∈ bs := by
  induction h with
  | nil => simp
  | cons hxy hrest ih => rw [List.mem_cons, List.mem_cons, hi hxy, ih]

/-- The first results of related lists are related. -/
theorem rel_findSome? {α β γ δ : Type} {S : α → β → Prop} {U : γ → δ → Prop} {f : α → Option γ}
    {g : β → Option δ} {as : List α} {bs : List β} (h : Forall₂ S as bs)
    (hfg : ∀ {a b}, S a b → Option.Rel U (f a) (g b)) :
    Option.Rel U (as.findSome? f) (bs.findSome? g) := by
  induction h with
  | nil => exact .none
  | @cons a b as bs hab hrest ih =>
    have hr := hfg hab
    rw [List.findSome?_cons, List.findSome?_cons]
    cases hf : f a with
    | none =>
      rw [hf] at hr
      cases hg : g b with
      | none => exact ih
      | some y => rw [hg] at hr; cases hr
    | some x =>
      rw [hf] at hr
      cases hg : g b with
      | none => rw [hg] at hr; cases hr
      | some y => rw [hg] at hr; exact hr

/-- Lists that come from related members are related together. -/
theorem forall₂_flatMap {α β γ δ : Type} {S : α → β → Prop} {U : γ → δ → Prop} {f : α → List γ}
    {g : β → List δ} {as : List α} {bs : List β} (h : Forall₂ S as bs)
    (hfg : ∀ {a b}, S a b → Forall₂ U (f a) (g b)) :
    Forall₂ U (as.flatMap f) (bs.flatMap g) := by
  induction h with
  | nil => exact .nil
  | cons hab hrest ih =>
    rw [List.flatMap_cons, List.flatMap_cons]
    exact List.rel_append (hfg hab) ih

end JavaGraph

/-! ## Nodes -/

namespace JavaGraph

open List (Forall₂)

/-- A relation that identifies no two types. -/
def Injective (R : TypeId → TypeId → Prop) : Prop :=
  ∀ {a b a' b'}, R a b → R a' b' → (a = a' ↔ b = b')

/-! ### Kinds of nodes -/

/-- Two bases of type uses name related types. -/
inductive TypeBase.Alike (R : TypeId → TypeId → Prop) : TypeBase → TypeBase → Prop where
  | primitive (name : String) : Alike R (.primitive name) (.primitive name)
  | declared {a b : TypeId} : R a b → Alike R (.declared a) (.declared b)
  | typeVariable (name : String) : Alike R (.typeVariable name) (.typeVariable name)

/-- Two uses of types name related types. -/
structure TypeUse.Alike (R : TypeId → TypeId → Prop) (a b : TypeUse) : Prop where
  base : TypeBase.Alike R a.base b.base
  dimensions : a.dimensions = b.dimensions

/-- Two fields differ in identifiers only. -/
structure Field.Alike (R : TypeId → TypeId → Prop) (a b : Field) : Prop where
  name : a.name = b.name
  declaringType : R a.declaringType b.declaringType
  typeUse : TypeUse.Alike R a.typeUse b.typeUse
  modifiers : a.modifiers = b.modifiers
  line : a.line = b.line
  signature : a.signature = b.signature

/-- Two functions differ in identifiers only, their parameters apart. -/
structure Function.Alike (R : TypeId → TypeId → Prop) (a b : Function) : Prop where
  name : a.name = b.name
  kind : a.kind = b.kind
  declaringType : R a.declaringType b.declaringType
  returns : Option.Rel (TypeUse.Alike R) a.returns b.returns
  throws : Forall₂ R a.throws b.throws
  modifiers : a.modifiers = b.modifiers
  span : a.span = b.span
  signature : a.signature = b.signature

/-- Two parameters differ in identifiers only, their functions apart. -/
structure Parameter.Alike (R : TypeId → TypeId → Prop) (a b : Parameter) : Prop where
  name : a.name = b.name
  index : a.index = b.index
  typeUse : TypeUse.Alike R a.typeUse b.typeUse
  isVarargs : a.isVarargs = b.isVarargs

/-- Two uses of fields differ in identifiers only. -/
structure Access.Alike (F : FieldId → FieldId → Prop) (G : FunctionId → FunctionId → Prop)
    (a b : Access) : Prop where
  function : G a.function b.function
  field : F a.field b.field
  line : a.line = b.line
  kind : a.kind = b.kind

/-- Two types differ in identifiers only. Which supertype an anonymous class has is left open. -/
structure TypeNode.Alike (U : UnitId → UnitId → Prop) (R : TypeId → TypeId → Prop)
    (F : FieldId → FieldId → Prop) (G : FunctionId → FunctionId → Prop) (a b : TypeNode) :
    Prop where
  name : a.name = b.name
  home : a.home = b.home
  declaredBy : Option.Rel U a.state.declaredBy b.state.declaredBy
  artifact : a.artifact = b.artifact
  kind : a.kind = b.kind
  modifiers : a.modifiers = b.modifiers
  span : a.span = b.span
  superclass : a.anonymousIndex = none → Option.Rel R a.superclass b.superclass
  interfaces : a.anonymousIndex = none → Forall₂ R a.interfaces b.interfaces
  innerTypes : Forall₂ R a.innerTypes b.innerTypes
  declaringType : Option.Rel R a.declaringType b.declaringType
  anonymousIndex : a.anonymousIndex = b.anonymousIndex
  fields : Forall₂ F a.fields b.fields
  functions : Forall₂ G a.functions b.functions
  dependsOn : Forall₂ R a.dependsOn b.dependsOn

/-- Two units differ in identifiers only. What they require is left open. -/
structure CompilationUnit.Alike (R : TypeId → TypeId → Prop) (a b : CompilationUnit) : Prop where
  path : a.path = b.path
  package : a.package = b.package
  artifact : a.artifact = b.artifact
  mayNotCompile : a.mayNotCompile = b.mayNotCompile
  declaredTypes : Forall₂ R a.declaredTypes b.declaredTypes
  mainType : Option.Rel R a.mainType b.mainType
  dependencies : a.dependencies = b.dependencies

/-- Units that are alike but for what they require. -/
theorem CompilationUnit.Alike.congr {R : TypeId → TypeId → Prop} {a b a' b' : CompilationUnit}
    (h : CompilationUnit.Alike R a b)
    (ha : { a' with requiredTypes := [] } = { a with requiredTypes := [] })
    (hb : { b' with requiredTypes := [] } = { b with requiredTypes := [] }) :
    CompilationUnit.Alike R a' b' := by
  obtain ⟨path, package, artifact, mayNotCompile, declaredTypes, mainType, required, deps⟩ := a
  obtain ⟨path, package, artifact, mayNotCompile, declaredTypes, mainType, required, deps⟩ := b
  obtain ⟨path, package, artifact, mayNotCompile, declaredTypes, mainType, required, deps⟩ := a'
  obtain ⟨path, package, artifact, mayNotCompile, declaredTypes, mainType, required, deps⟩ := b'
  cases ha
  cases hb
  exact ⟨h.path, h.package, h.artifact, h.mayNotCompile, h.declaredTypes, h.mainType,
    h.dependencies⟩

/-- The types that related uses refer to are related. -/
theorem TypeUse.Alike.declared? {R : TypeId → TypeId → Prop} {a b : TypeUse}
    (h : TypeUse.Alike R a b) : Option.Rel R a.declared? b.declared? := by
  obtain ⟨base, dimensions⟩ := a
  obtain ⟨base', dimensions'⟩ := b
  have hb := h.base
  cases hb with
  | primitive name => exact .none
  | declared hab => exact .some hab
  | typeVariable name => exact .none

/-! ### Weaker relations -/

section

variable {U U' : UnitId → UnitId → Prop} {R R' : TypeId → TypeId → Prop}
variable {F F' : FieldId → FieldId → Prop} {G G' : FunctionId → FunctionId → Prop}
variable (hU : ∀ {a b}, U a b → U' a b) (hR : ∀ {a b}, R a b → R' a b)
variable (hF : ∀ {a b}, F a b → F' a b) (hG : ∀ {a b}, G a b → G' a b)

include hR in
/-- Uses that are alike under a weaker relation. -/
theorem TypeUse.Alike.imp {a b : TypeUse} (h : TypeUse.Alike R a b) : TypeUse.Alike R' a b := by
  refine ⟨?_, h.dimensions⟩
  have hb := h.base
  revert hb
  generalize a.base = x
  generalize b.base = y
  intro hb
  cases hb with
  | primitive name => exact .primitive name
  | declared hab => exact .declared (hR hab)
  | typeVariable name => exact .typeVariable name

include hR in
/-- Fields that are alike under a weaker relation. -/
theorem Field.Alike.imp {a b : Field} (h : Field.Alike R a b) : Field.Alike R' a b :=
  ⟨h.name, hR h.declaringType, h.typeUse.imp hR, h.modifiers, h.line, h.signature⟩

include hR in
/-- Functions that are alike under a weaker relation. -/
theorem Function.Alike.imp {a b : Function} (h : Function.Alike R a b) : Function.Alike R' a b :=
  ⟨h.name, h.kind, hR h.declaringType, rel_imp (fun hu => hu.imp hR) h.returns,
    h.throws.imp fun _ _ => hR, h.modifiers, h.span, h.signature⟩

include hR in
/-- Parameters that are alike under a weaker relation. -/
theorem Parameter.Alike.imp {a b : Parameter} (h : Parameter.Alike R a b) :
    Parameter.Alike R' a b :=
  ⟨h.name, h.index, h.typeUse.imp hR, h.isVarargs⟩

include hF hG in
/-- Uses of fields that are alike under weaker relations. -/
theorem Access.Alike.imp {a b : Access} (h : Access.Alike F G a b) : Access.Alike F' G' a b :=
  ⟨hG h.function, hF h.field, h.line, h.kind⟩

include hU hR hF hG in
/-- Types that are alike under weaker relations. -/
theorem TypeNode.Alike.imp {a b : TypeNode} (h : TypeNode.Alike U R F G a b) :
    TypeNode.Alike U' R' F' G' a b where
  name := h.name
  home := h.home
  declaredBy := rel_imp hU h.declaredBy
  artifact := h.artifact
  kind := h.kind
  modifiers := h.modifiers
  span := h.span
  superclass hn := rel_imp hR (h.superclass hn)
  interfaces hn := (h.interfaces hn).imp fun _ _ => hR
  innerTypes := h.innerTypes.imp fun _ _ => hR
  declaringType := rel_imp hR h.declaringType
  anonymousIndex := h.anonymousIndex
  fields := h.fields.imp fun _ _ => hF
  functions := h.functions.imp fun _ _ => hG
  dependsOn := h.dependsOn.imp fun _ _ => hR

include hR in
/-- Units that are alike under a weaker relation. -/
theorem CompilationUnit.Alike.imp {a b : CompilationUnit} (h : CompilationUnit.Alike R a b) :
    CompilationUnit.Alike R' a b :=
  ⟨h.path, h.package, h.artifact, h.mayNotCompile, h.declaredTypes.imp fun _ _ => hR,
    rel_imp hR h.mainType, h.dependencies⟩

end

/-! ### Nodes that are alike to a third one -/

section

variable {U₁ U₂ U : UnitId → UnitId → Prop} {R₁ R₂ R : TypeId → TypeId → Prop}
variable {F₁ F₂ F : FieldId → FieldId → Prop} {G₁ G₂ G : FunctionId → FunctionId → Prop}
variable (hU : ∀ c a b, U₁ c a → U₂ c b → U a b) (hR : ∀ c a b, R₁ c a → R₂ c b → R a b)
variable (hF : ∀ c a b, F₁ c a → F₂ c b → F a b) (hG : ∀ c a b, G₁ c a → G₂ c b → G a b)

include hR in
/-- Uses that are alike to a third one. -/
theorem TypeUse.Alike.both {c a b : TypeUse} (h : TypeUse.Alike R₁ c a)
    (h' : TypeUse.Alike R₂ c b) : TypeUse.Alike R a b := by
  refine ⟨?_, h.dimensions.symm.trans h'.dimensions⟩
  have hb := h.base
  have hb' := h'.base
  revert hb hb'
  generalize c.base = z
  generalize a.base = x
  generalize b.base = y
  intro hb hb'
  cases hb with
  | primitive name =>
    cases hb' with
    | primitive name => exact .primitive name
  | declared hca =>
    cases hb' with
    | declared hcb => exact .declared (hR _ _ _ hca hcb)
  | typeVariable name =>
    cases hb' with
    | typeVariable name => exact .typeVariable name

include hR in
/-- Fields that are alike to a third one. -/
theorem Field.Alike.both {c a b : Field} (h : Field.Alike R₁ c a) (h' : Field.Alike R₂ c b) :
    Field.Alike R a b :=
  ⟨h.name.symm.trans h'.name, hR _ _ _ h.declaringType h'.declaringType, h.typeUse.both hR h'.typeUse,
    h.modifiers.symm.trans h'.modifiers, h.line.symm.trans h'.line,
    h.signature.symm.trans h'.signature⟩

include hR in
/-- Functions that are alike to a third one. -/
theorem Function.Alike.both {c a b : Function} (h : Function.Alike R₁ c a)
    (h' : Function.Alike R₂ c b) : Function.Alike R a b :=
  ⟨h.name.symm.trans h'.name, h.kind.symm.trans h'.kind, hR _ _ _ h.declaringType h'.declaringType,
    rel_both (fun _ _ _ hc hc' => hc.both hR hc') h.returns h'.returns,
    forall₂_both hR h.throws h'.throws, h.modifiers.symm.trans h'.modifiers,
    h.span.symm.trans h'.span, h.signature.symm.trans h'.signature⟩

include hR in
/-- Parameters that are alike to a third one. -/
theorem Parameter.Alike.both {c a b : Parameter} (h : Parameter.Alike R₁ c a)
    (h' : Parameter.Alike R₂ c b) : Parameter.Alike R a b :=
  ⟨h.name.symm.trans h'.name, h.index.symm.trans h'.index, h.typeUse.both hR h'.typeUse,
    h.isVarargs.symm.trans h'.isVarargs⟩

include hF hG in
/-- Uses of fields that are alike to a third one. -/
theorem Access.Alike.both {c a b : Access} (h : Access.Alike F₁ G₁ c a)
    (h' : Access.Alike F₂ G₂ c b) : Access.Alike F G a b :=
  ⟨hG _ _ _ h.function h'.function, hF _ _ _ h.field h'.field, h.line.symm.trans h'.line,
    h.kind.symm.trans h'.kind⟩

include hU hR hF hG in
/-- Types that are alike to a third one. -/
theorem TypeNode.Alike.both {c a b : TypeNode} (h : TypeNode.Alike U₁ R₁ F₁ G₁ c a)
    (h' : TypeNode.Alike U₂ R₂ F₂ G₂ c b) : TypeNode.Alike U R F G a b where
  name := h.name.symm.trans h'.name
  home := h.home.symm.trans h'.home
  declaredBy := rel_both hU h.declaredBy h'.declaredBy
  artifact := h.artifact.symm.trans h'.artifact
  kind := h.kind.symm.trans h'.kind
  modifiers := h.modifiers.symm.trans h'.modifiers
  span := h.span.symm.trans h'.span
  superclass hn := by
    have hc := h.anonymousIndex.trans hn
    exact rel_both hR (h.superclass hc) (h'.superclass hc)
  interfaces hn := by
    have hc := h.anonymousIndex.trans hn
    exact forall₂_both hR (h.interfaces hc) (h'.interfaces hc)
  innerTypes := forall₂_both hR h.innerTypes h'.innerTypes
  declaringType := rel_both hR h.declaringType h'.declaringType
  anonymousIndex := h.anonymousIndex.symm.trans h'.anonymousIndex
  fields := forall₂_both hF h.fields h'.fields
  functions := forall₂_both hG h.functions h'.functions
  dependsOn := forall₂_both hR h.dependsOn h'.dependsOn

include hR in
/-- Units that are alike to a third one. -/
theorem CompilationUnit.Alike.both {c a b : CompilationUnit} (h : CompilationUnit.Alike R₁ c a)
    (h' : CompilationUnit.Alike R₂ c b) : CompilationUnit.Alike R a b :=
  ⟨h.path.symm.trans h'.path, h.package.symm.trans h'.package, h.artifact.symm.trans h'.artifact,
    h.mayNotCompile.symm.trans h'.mayNotCompile,
    forall₂_both hR h.declaredTypes h'.declaredTypes, rel_both hR h.mainType h'.mainType,
    h.dependencies.symm.trans h'.dependencies⟩

end

end JavaGraph
