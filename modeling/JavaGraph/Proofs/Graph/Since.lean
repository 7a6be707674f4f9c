import JavaGraph.Proofs.Graph.Members
/-!
# What the scan of a unit leaves alone

The scan of a unit changes the types that the unit declares and brings in placeholders. Types that
others declare, other units, and all members that are there already stay as they are.
-/

namespace JavaGraph.Graph

/-- A placeholder of which nothing is recorded but the name. -/
def blank (name : QualifiedName) (home : Universe) (state : TypeState) : TypeNode :=
  { name, home, state }

/-- What is left of a unit when one does not ask what it requires. -/
def outline (unit : CompilationUnit) : CompilationUnit := { unit with requiredTypes := [] }

/-- A unit may have been released from types that are declared by now. -/
def Freed (after : Graph) (x y : CompilationUnit) : Prop :=
  ∃ p : TypeId → Bool, y.requiredTypes = x.requiredTypes.filter p ∧
    ∀ {id}, p id = false → ∃ z, after.types.get? id = some z ∧ z.isComplete = true

/-- A unit that requires the same is released from nothing. -/
theorem freed_refl (graph : Graph) {x y : CompilationUnit}
    (h : y.requiredTypes = x.requiredTypes) : Freed graph x y := by
  refine ⟨fun _ => true, ?_, fun hp => by cases hp⟩
  rw [List.filter_true, h]

/-- What is known stays known, and what a unit declares gets more members. -/
structure Grows (unit : UnitId) (before after : Graph) : Prop where
  extended : Extends before after
  own : ∀ {id x}, before.types.get? id = some x → x.state = .complete unit →
    ∃ y, after.types.get? id = some y ∧ y.state = .complete unit ∧ x.fields ⊆ y.fields ∧
      x.functions ⊆ y.functions

/-- A unit that records something of a type lets the graph grow. -/
theorem Recorded.grows {unit : UnitId} {before after : Graph} {id : TypeId}
    {f : TypeNode → TypeNode} {x : TypeNode} (hr : Recorded id f before after)
    (hx : before.types.get? id = some x) (hn : (f x).name = x.name) (hh : (f x).home = x.home)
    (hs : (f x).state = x.state) (hf : x.fields ⊆ (f x).fields)
    (hg : x.functions ⊆ (f x).functions) : Grows unit before after where
  extended := by
    refine ⟨?_, fun hu => ⟨_, by rw [hr.units, hu], rfl, rfl⟩, hr.field, hr.function, hr.parameter⟩
    intro k l hl
    by_cases hk : k = id
    · subst hk
      rw [label_of_get? hx] at hl
      cases hl
      rw [label_of_get? (hr.get?_self hx), hn, hh]
    · unfold Graph.label at hl ⊢
      rw [hr.get?_ne hk, hl]
  own := by
    intro k y hy hsy
    by_cases hk : k = id
    · subst hk
      rw [hx] at hy
      cases hy
      exact ⟨f x, hr.get?_self hx, hs.trans hsy, hf, hg⟩
    · exact ⟨y, by rw [hr.get?_ne hk, hy], hsy, List.Subset.refl _, List.Subset.refl _⟩

/-- What a unit of a universe has changed between two graphs, if anything. -/
structure Since (unit : UnitId) (home : Universe) (before after : Graph) : Prop where
  extended : Extends before after
  /-- What others declare stays as it is. -/
  foreign : ∀ {id x}, before.types.get? id = some x → x.isComplete = true →
    x.state ≠ .complete unit → after.types.get? id = some x
  /-- What the unit declares gets more members. -/
  own : ∀ {id x}, before.types.get? id = some x → x.state = .complete unit →
    ∃ y, after.types.get? id = some y ∧ y.state = .complete unit ∧
      y.anonymousIndex = x.anonymousIndex ∧ x.fields ⊆ y.fields ∧ x.functions ⊆ y.functions
  /-- A placeholder stays as it is, or the unit declares it. -/
  placeholder : ∀ {id x}, before.types.get? id = some x → x.isComplete = false →
    after.types.get? id = some x ∨ ∃ y, after.types.get? id = some y ∧ y.state = .complete unit
  /-- What the unit does not declare was there before, or is a new placeholder. -/
  back : ∀ {id y}, after.types.get? id = some y → y.state ≠ .complete unit →
    before.types.get? id = some y ∨
      before.types.get? id = none ∧ ∃ name holder, y = blank name home (.incomplete holder)
  /-- New types belong to the universe. -/
  within : ∀ {id y}, after.types.get? id = some y → before.types.get? id = none → y.home = home
  others : ∀ {k}, k ≠ unit → (after.units.get? k).map outline = (before.units.get? k).map outline
  requires : ∀ {k x y}, k ≠ unit → before.units.get? k = some x → after.units.get? k = some y →
    Freed after x y
  dependencies : ∀ artifact, after.dependenciesOf artifact = before.dependenciesOf artifact
  accesses : before.accesses.toList <+: after.accesses.toList

namespace Since

variable {unit : UnitId} {home : Universe} {graph middle after : Graph}

/-- Nothing has changed. -/
theorem refl (unit : UnitId) (home : Universe) (graph : Graph) : Since unit home graph graph where
  extended := .refl graph
  foreign hx _ _ := hx
  own hx hs := ⟨_, hx, hs, rfl, List.Subset.refl _, List.Subset.refl _⟩
  placeholder hx _ := .inl hx
  back hy _ := .inl hy
  within hy hn := by
    rw [hn] at hy
    cases hy
  others _ := rfl
  requires _ hx hy := by
    rw [hx] at hy
    cases hy
    exact freed_refl _ rfl
  dependencies _ := rfl
  accesses := List.prefix_refl _

/-- What the unit declares grows. -/
theorem grows (h : Since unit home graph after) : Grows unit graph after where
  extended := h.extended
  own hx hs := by
    obtain ⟨y, hy, hsy, -, hf, hg⟩ := h.own hx hs
    exact ⟨y, hy, hsy, hf, hg⟩

/-- What another unit declares stays as it is. -/
theorem grows_other (h : Since unit home graph after) {other : UnitId} (hne : other ≠ unit) :
    Grows other graph after where
  extended := h.extended
  own := by
    intro id x hx hs
    have hc : x.isComplete = true := TypeNode.isComplete_eq_true.2 ⟨other, hs⟩
    refine ⟨x, h.foreign hx hc ?_, hs, List.Subset.refl _, List.Subset.refl _⟩
    rw [hs]
    exact fun he => hne (TypeState.complete.inj he)

/-- A type that is known stays known. -/
theorem known (h : Since unit home graph after) {id : TypeId} {x : TypeNode}
    (hx : graph.types.get? id = some x) :
    ∃ y, after.types.get? id = some y ∧ y.name = x.name ∧ y.home = x.home := by
  obtain ⟨y, hy, hl⟩ := get?_of_label (h.extended.label (label_of_get? hx))
  simp only [Prod.mk.injEq] at hl
  exact ⟨y, hy, hl⟩

/-- A declared type stays declared and keeps its members. -/
theorem declared_known (h : Since unit home graph after) {id : TypeId} {x : TypeNode}
    (hx : graph.types.get? id = some x) (hc : x.isComplete = true) :
    ∃ y, after.types.get? id = some y ∧ y.isComplete = true ∧ x.fields ⊆ y.fields ∧
      x.functions ⊆ y.functions := by
  by_cases hs : x.state = .complete unit
  · obtain ⟨y, hy, hsy, -, hf, hg⟩ := h.own hx hs
    refine ⟨y, hy, ?_, hf, hg⟩
    unfold TypeNode.isComplete at hc ⊢
    rwa [hsy, ← hs]
  · exact ⟨x, h.foreign hx hc hs, hc, List.Subset.refl _, List.Subset.refl _⟩

/-- A type that is not known was not known before. -/
theorem unknown (h : Since unit home graph after) {id : TypeId}
    (hy : after.types.get? id = none) : graph.types.get? id = none := by
  cases hx : graph.types.get? id with
  | none => rfl
  | some x =>
    obtain ⟨y, hy', -⟩ := h.known hx
    rw [hy] at hy'
    cases hy'

/-- A unit that there is was there before. -/
theorem unit_back (h : Since unit home graph after) (hn : ∃ node, graph.units.get? unit = some node)
    {k : UnitId} {y : CompilationUnit} (hy : after.units.get? k = some y) :
    ∃ x, graph.units.get? k = some x ∧ x.path = y.path ∧ x.artifact = y.artifact := by
  have hknown : ∃ x, graph.units.get? k = some x := by
    by_cases hk : k = unit
    · rw [hk]
      exact hn
    · have ho := h.others hk
      rw [hy] at ho
      obtain ⟨x, hx, -⟩ := Option.map_eq_some_iff.1 ho.symm
      exact ⟨x, hx⟩
  obtain ⟨x, hx⟩ := hknown
  obtain ⟨z, hz, hp, ha⟩ := h.extended.unit hx
  rw [hy] at hz
  cases hz
  exact ⟨x, hx, hp.symm, ha.symm⟩

/-- Changes add up. -/
theorem trans (h : Since unit home graph middle) (h' : Since unit home middle after) :
    Since unit home graph after where
  extended := h.extended.trans h'.extended
  foreign hx hc hs := h'.foreign (h.foreign hx hc hs) hc hs
  own hx hs := by
    obtain ⟨y, hy, hsy, hay, hfy, hgy⟩ := h.own hx hs
    obtain ⟨z, hz, hsz, haz, hfz, hgz⟩ := h'.own hy hsy
    exact ⟨z, hz, hsz, haz.trans hay, List.Subset.trans hfy hfz, List.Subset.trans hgy hgz⟩
  placeholder hx hc := by
    rcases h.placeholder hx hc with hy | ⟨y, hy, hs⟩
    · exact h'.placeholder hy hc
    · obtain ⟨z, hz, hsz, -⟩ := h'.own hy hs
      exact .inr ⟨z, hz, hsz⟩
  back hz hs := by
    rcases h'.back hz hs with hy | ⟨hn, hb⟩
    · exact h.back hy hs
    · exact .inr ⟨h.unknown hn, hb⟩
  within := by
    intro id z hz hn
    cases hy : middle.types.get? id with
    | none => exact h'.within hz hy
    | some y =>
      obtain ⟨z', hz', -, hh⟩ := h'.known hy
      rw [hz] at hz'
      cases hz'
      rw [hh]
      exact h.within hy hn
  others hk := (h'.others hk).trans (h.others hk)
  requires := by
    intro k x z hk hx hz
    obtain ⟨y, hy, -⟩ := h.extended.unit hx
    obtain ⟨p, hyx, hp⟩ := h.requires hk hx hy
    obtain ⟨q, hzy, hq⟩ := h'.requires hk hy hz
    refine ⟨fun id => q id && p id, ?_, ?_⟩
    · rw [hzy, hyx, List.filter_filter]
    · intro id hpq
      rcases Bool.and_eq_false_iff.1 hpq with hf | hf
      · exact hq hf
      · obtain ⟨u, hu, hc⟩ := hp hf
        obtain ⟨v, hv, hcv, -⟩ := h'.declared_known hu hc
        exact ⟨v, hv, hcv⟩
  dependencies artifact := (h'.dependencies artifact).trans (h.dependencies artifact)
  accesses := h.accesses.trans h'.accesses

/-- A unit that records something of a type that it declares. -/
theorem recorded {id : TypeId} {f : TypeNode → TypeNode} {x : TypeNode}
    (h : Since unit home graph middle) (hr : Recorded id f middle after)
    (hx : middle.types.get? id = some x) (hs : x.state = .complete unit)
    (hn : (f x).name = x.name) (hh : (f x).home = x.home) (hsf : (f x).state = x.state)
    (ha : ∀ {y}, graph.types.get? id = some y → y.state = .complete unit →
      (f x).anonymousIndex = x.anonymousIndex)
    (hf : x.fields ⊆ (f x).fields) (hg : x.functions ⊆ (f x).functions) :
    Since unit home graph after where
  extended := by
    have hgrows : Grows unit middle after := hr.grows hx hn hh hsf hf hg
    exact h.extended.trans hgrows.extended
  foreign := by
    intro k y hy hc hsy
    have hm := h.foreign hy hc hsy
    rw [hr.get?_ne ?_, hm]
    rintro rfl
    rw [hx] at hm
    cases hm
    exact hsy hs
  own := by
    intro k y hy hsy
    obtain ⟨z, hz, hsz, haz, hfz, hgz⟩ := h.own hy hsy
    by_cases hk : k = id
    · subst hk
      rw [hx] at hz
      cases hz
      exact ⟨f x, hr.get?_self hx, hsf.trans hs, (ha hy hsy).trans haz,
        List.Subset.trans hfz hf, List.Subset.trans hgz hg⟩
    · exact ⟨z, by rw [hr.get?_ne hk, hz], hsz, haz, hfz, hgz⟩
  placeholder := by
    intro k y hy hc
    by_cases hk : k = id
    · subst hk
      exact .inr ⟨f x, hr.get?_self hx, hsf.trans hs⟩
    · rw [hr.get?_ne hk]
      exact h.placeholder hy hc
  back := by
    intro k y hy hsy
    refine h.back ?_ hsy
    rw [← hr.get?_ne ?_, hy]
    rintro rfl
    rw [hr.get?_self hx] at hy
    cases hy
    exact hsy (hsf.trans hs)
  within := by
    intro k y hy hk
    by_cases he : k = id
    · subst he
      rw [hr.get?_self hx] at hy
      cases hy
      rw [hh]
      exact h.within hx hk
    · rw [hr.get?_ne he] at hy
      exact h.within hy hk
  others hk := by
    rw [hr.units]
    exact h.others hk
  requires := by
    intro k y z hk hy hz
    rw [hr.units] at hz
    obtain ⟨p, hp, hc⟩ := h.requires hk hy hz
    refine ⟨p, hp, fun {k} hf => ?_⟩
    obtain ⟨u, hu, hcu⟩ := hc hf
    by_cases he : k = id
    · subst he
      exact ⟨f x, hr.get?_self hx, TypeNode.isComplete_eq_true.2 ⟨unit, hsf.trans hs⟩⟩
    · exact ⟨u, by rw [hr.get?_ne he, hu], hcu⟩
  dependencies artifact := by
    refine Eq.trans ?_ (h.dependencies artifact)
    unfold dependenciesOf
    rw [hr.surroundings.artifacts]
  accesses := by
    rw [hr.accesses]
    exact h.accesses

/-- The other types are as they were when a type comes in. -/
private theorem of_push {node : TypeNode} {k : TypeId} {y : TypeNode}
    (hy : (graph.types.push node).get? k = some y) :
    (k = graph.types.nextId ∧ y = node) ∨ graph.types.get? k = some y := by
  rw [Arena.get?_push] at hy
  split at hy
  · next hk =>
    cases hy
    exact .inl ⟨hk, rfl⟩
  · exact .inr hy

/-- A placeholder of the universe comes in; only the unit may change besides. -/
private theorem pushed {name : QualifiedName} (holder : Option UnitId)
    (ht : after.types = graph.types.push (blank name home (.incomplete holder)))
    (hu : ∀ {k x}, graph.units.get? k = some x →
      ∃ y, after.units.get? k = some y ∧ y.path = x.path ∧ y.artifact = x.artifact)
    (ho : ∀ {k}, k ≠ unit → after.units.get? k = graph.units.get? k)
    (ha : after.artifacts = graph.artifacts) (hx : after.accesses = graph.accesses)
    (hf : after.fields = graph.fields) (hg : after.functions = graph.functions)
    (hp : after.parameters = graph.parameters) : Since unit home graph after where
  extended := by
    refine ⟨?_, hu, fun h => by rwa [hf], fun h => by rwa [hg], fun h => by rwa [hp]⟩
    intro k l hl
    obtain ⟨x, hx, rfl⟩ := get?_of_label hl
    refine label_of_get? ?_
    rw [ht]
    exact get?_push_of_get? _ hx
  foreign hx _ _ := by
    rw [ht]
    exact get?_push_of_get? _ hx
  own hx hs := by
    refine ⟨_, ?_, hs, rfl, List.Subset.refl _, List.Subset.refl _⟩
    rw [ht]
    exact get?_push_of_get? _ hx
  placeholder hx _ := by
    refine .inl ?_
    rw [ht]
    exact get?_push_of_get? _ hx
  back := by
    intro k y hy _
    rw [ht] at hy
    rcases of_push hy with ⟨rfl, rfl⟩ | hy
    · exact .inr ⟨Arena.get?_nextId _, name, holder, rfl⟩
    · exact .inl hy
  within := by
    intro k y hy hn
    rw [ht] at hy
    rcases of_push hy with ⟨-, rfl⟩ | hy
    · rfl
    · rw [hn] at hy
      cases hy
  others hk := by rw [ho hk]
  requires := by
    intro k x y hk hx hy
    rw [ho hk, hx] at hy
    cases hy
    exact freed_refl _ rfl
  dependencies artifact := by
    unfold dependenciesOf
    rw [ha]
  accesses := by simp only [hx, List.prefix_rfl]

/-- A placeholder that nobody requires comes in. -/
theorem withType (graph : Graph) (unit : UnitId) (name : QualifiedName) (home : Universe) :
    Since unit home graph (graph.withType name home) :=
  pushed none rfl (fun hx => ⟨_, hx, rfl, rfl⟩) (fun _ => rfl) rfl rfl rfl rfl rfl

/-- A placeholder that the unit requires comes in. -/
theorem withPlaceholder (graph : Graph) (unit : UnitId) (artifact : ArtifactId)
    (name : QualifiedName) :
    Since unit (some artifact) graph (graph.withPlaceholder artifact name unit) := by
  refine pushed (some unit) rfl ?_ ?_ rfl rfl rfl rfl rfl
  · intro k x hx
    rw [get?_units_withPlaceholder, hx]
    split
    · exact ⟨_, rfl, rfl, rfl⟩
    · exact ⟨x, rfl, rfl, rfl⟩
  · intro k hk
    rw [get?_units_withPlaceholder, if_neg hk]

/-- At most a placeholder comes in. -/
structure Placed (unit : UnitId) (home : Universe) (before after : Graph) : Prop where
  since : Since unit home before after
  types : ∀ {id x}, before.types.get? id = some x → after.types.get? id = some x
  own : ∀ {id y}, after.types.get? id = some y → y.state = .complete unit →
    before.types.get? id = some y
  unit : ∀ {x}, before.units.get? unit = some x →
    ∃ y, after.units.get? unit = some y ∧ outline y = outline x
  fields : after.fields = before.fields
  functions : after.functions = before.functions
  accesses : after.accesses = before.accesses
  surroundings : SameSurroundings before after

/-- Nothing comes in. -/
theorem Placed.refl (unit : UnitId) (home : Universe) (graph : Graph) :
    Placed unit home graph graph :=
  ⟨.refl unit home graph, id, fun hy _ => hy, fun hx => ⟨_, hx, rfl⟩, rfl, rfl, rfl, .refl graph⟩

/-- A placeholder that nobody requires comes in. -/
theorem Placed.withType (graph : Graph) (unit : UnitId) (name : QualifiedName) (home : Universe) :
    Placed unit home graph (graph.withType name home) := by
  refine ⟨.withType graph unit name home, get?_push_of_get? _, ?_, fun hx => ⟨_, hx, rfl⟩, rfl, rfl,
    rfl, rfl, rfl, rfl⟩
  intro k y hy hs
  rcases of_push hy with ⟨-, rfl⟩ | hy
  · cases hs
  · exact hy

/-- A placeholder that the unit requires comes in. -/
theorem Placed.withPlaceholder (graph : Graph) (unit : UnitId) (artifact : ArtifactId)
    (name : QualifiedName) :
    Placed unit (some artifact) graph (graph.withPlaceholder artifact name unit) := by
  refine ⟨.withPlaceholder graph unit artifact name, get?_push_of_get? _, ?_, ?_, rfl, rfl, rfl,
    rfl, rfl, rfl⟩
  · intro k y hy hs
    rcases of_push hy with ⟨-, rfl⟩ | hy
    · cases hs
    · exact hy
  · intro x hx
    rw [get?_units_withPlaceholder, if_pos rfl, hx]
    exact ⟨_, rfl, rfl⟩

/-- The unit declares a placeholder. -/
theorem declared {id : TypeId} {x : TypeNode} {artifact : Option ArtifactId}
    (h : Since unit home graph middle) (hx : middle.types.get? id = some x)
    (hc : x.isComplete = false) :
    Since unit home graph (middle.withDeclaration id unit artifact) := by
  have hself : (middle.withDeclaration id unit artifact).types.get? id =
      some { x with state := .complete unit, artifact } := by
    rw [get?_types_withDeclaration, if_pos rfl, hx]
    rfl
  have hne : ∀ {k}, k ≠ id → (middle.withDeclaration id unit artifact).types.get? k =
      middle.types.get? k := by
    intro k hk
    rw [get?_types_withDeclaration, if_neg hk]
  have hcomplete : ∀ {y}, middle.types.get? id = some y → y.isComplete = true → False := by
    intro y hy hcy
    rw [hx] at hy
    cases hy
    rw [hc] at hcy
    cases hcy
  refine ⟨h.extended.trans ⟨?_, ?_, fun hf => hf, fun hg => hg, fun hp => hp⟩, ?_, ?_, ?_, ?_, ?_,
    ?_, ?_, h.dependencies, h.accesses⟩
  · intro k l hl
    by_cases hk : k = id
    · subst hk
      rw [label_of_get? hx] at hl
      cases hl
      rw [label_of_get? hself]
    · unfold label at hl ⊢
      rw [hne hk, hl]
  · intro k y hy
    rw [get?_units_withDeclaration, hy]
    exact ⟨_, rfl, rfl, rfl⟩
  · intro k y hy hcy hs
    have hm := h.foreign hy hcy hs
    rw [hne ?_, hm]
    rintro rfl
    exact hcomplete hm hcy
  · intro k y hy hs
    obtain ⟨z, hz, hsz, hrest⟩ := h.own hy hs
    refine ⟨z, ?_, hsz, hrest⟩
    rw [hne ?_, hz]
    rintro rfl
    exact hcomplete hz (TypeNode.isComplete_eq_true.2 ⟨unit, hsz⟩)
  · intro k y hy hcy
    by_cases hk : k = id
    · subst hk
      exact .inr ⟨_, hself, rfl⟩
    · rw [hne hk]
      exact h.placeholder hy hcy
  · intro k y hy hs
    by_cases hk : k = id
    · subst hk
      rw [hself] at hy
      cases hy
      exact absurd rfl hs
    · rw [hne hk] at hy
      exact h.back hy hs
  · intro k y hy hn
    by_cases hk : k = id
    · subst hk
      rw [hself] at hy
      cases hy
      have hh := h.within hx hn
      exact hh
    · rw [hne hk] at hy
      exact h.within hy hn
  · intro k hk
    rw [get?_units_withDeclaration, ← h.others hk]
    cases middle.units.get? k with
    | none => rfl
    | some node => simp [outline, hk]
  · intro k y z hk hy hz
    obtain ⟨node, hnode, -⟩ := h.extended.unit hy
    obtain ⟨p, hp, hcp⟩ := h.requires hk hy hnode
    rw [get?_units_withDeclaration, hnode] at hz
    cases hz
    have hdeclared : ∀ {i u}, middle.types.get? i = some u → u.isComplete = true →
        ∃ v, (middle.withDeclaration id unit artifact).types.get? i = some v ∧
          v.isComplete = true := by
      intro i u hu hcu
      by_cases hi : i = id
      · exact ⟨_, by rw [hi, hself], rfl⟩
      · exact ⟨u, by rw [hne hi, hu], hcu⟩
    by_cases hr : k ∈ (middle.requirers.find? id).getD []
    · refine ⟨fun i => p i && i ≠ id, ?_, ?_⟩
      · simp only [if_pos hr, hp, List.filter_filter, Bool.and_comm]
      · intro i hi
        rcases Bool.and_eq_false_iff.1 hi with hf | hf
        · obtain ⟨u, hu, hcu⟩ := hcp hf
          exact hdeclared hu hcu
        · simp only [ne_eq, decide_not, Bool.not_eq_eq_eq_not, Bool.not_false,
            decide_eq_true_eq] at hf
          exact ⟨_, by rw [hf, hself], rfl⟩
    · refine ⟨p, by simp only [if_neg hr, hp], fun hf => ?_⟩
      obtain ⟨u, hu, hcu⟩ := hcp hf
      exact hdeclared hu hcu

/-- The unit itself changes. -/
theorem withMainType (graph : Graph) (unit : UnitId) (home : Universe) (type : TypeId) :
    Since unit home graph (graph.withMainType unit type) where
  extended := by
    refine ⟨id, ?_, id, id, id⟩
    intro k x hx
    unfold Graph.withMainType
    simp only
    rw [Arena.get?_modify]
    split
    · rw [hx]
      exact ⟨_, rfl, rfl, rfl⟩
    · exact ⟨x, hx, rfl, rfl⟩
  foreign hx _ _ := hx
  own hx hs := ⟨_, hx, hs, rfl, List.Subset.refl _, List.Subset.refl _⟩
  placeholder hx _ := .inl hx
  back hy _ := .inl hy
  within hy hn := by
    change graph.types.get? _ = _ at hy
    rw [hn] at hy
    cases hy
  others hk := by
    unfold Graph.withMainType
    simp only
    rw [Arena.get?_modify, if_neg hk]
  requires := by
    intro k x y hk hx hy
    unfold Graph.withMainType at hy
    simp only at hy
    rw [Arena.get?_modify, if_neg hk, hx] at hy
    cases hy
    exact freed_refl _ rfl
  dependencies _ := rfl
  accesses := List.prefix_refl _

/-- A use of a field comes in. -/
theorem withAccess (graph : Graph) (unit : UnitId) (home : Universe) (access : Access) :
    Since unit home graph (graph.withAccess access) where
  extended := ⟨id, fun hx => ⟨_, hx, rfl, rfl⟩, id, id, id⟩
  foreign hx _ _ := hx
  own hx hs := ⟨_, hx, hs, rfl, List.Subset.refl _, List.Subset.refl _⟩
  placeholder hx _ := .inl hx
  back hy _ := .inl hy
  within hy hn := by
    change graph.types.get? _ = _ at hy
    rw [hn] at hy
    cases hy
  others _ := rfl
  requires _ hx hy := by
    change graph.units.get? _ = _ at hy
    rw [hx] at hy
    cases hy
    exact freed_refl _ rfl
  dependencies _ := rfl
  accesses := by
    unfold Graph.withAccess
    simp only
    rw [Array.toList_push]
    exact List.prefix_append ..

end Since

end JavaGraph.Graph

/-!
## What units require in two graphs

In one universe of two graphs, units of the same path may require types of the same names. Nothing
that is done to the types of both graphs alike changes that.
-/

namespace JavaGraph.Graph

open List (Forall₂)

/-- Units of a universe require types of the same names in two graphs. -/
structure RequiresAlike (home : Universe) (graph other : Graph) : Prop where
  unit : ∀ {a b x y}, SameUnit graph other a b → graph.units.get? a = some x →
    other.units.get? b = some y → x.artifact = home →
    Forall₂ (SameType graph other) x.requiredTypes y.requiredTypes

variable {graph after other after' : Graph} {home : Universe} {name : QualifiedName}

/-- Units that are as they were require the same. -/
theorem RequiresAlike.mono (h : RequiresAlike home graph other) (he : Extends graph after)
    (he' : Extends other after') (hu : after.units = graph.units)
    (hu' : after'.units = other.units) : RequiresAlike home after after' := by
  refine ⟨?_⟩
  rintro a b x y ⟨x', y', hx', hy', hsame⟩ hx hy hh
  rw [hu] at hx hx'
  rw [hu'] at hy hy'
  exact (h.unit ⟨x', y', hx', hy', hsame⟩ hx hy hh).imp fun _ _ ht => ht.mono he he'

/-- What units require is a matter of the ledger. -/
theorem RequiresAlike.of_sameLedger (h : RequiresAlike home graph other)
    (hs : SameLedger graph after) (hs' : SameLedger other after') :
    RequiresAlike home after after' := by
  have hmono : ∀ {a b}, SameType graph other a b → SameType after after' a b := by
    intro a b hab
    obtain ⟨x, y, hx, hy, hn, hh⟩ := hab.get?
    obtain ⟨x', hx', hnx, hhx, -⟩ := hs.type' hx
    obtain ⟨y', hy', hny, hhy, -⟩ := hs'.type' hy
    exact .of_get? hx' hy' (hnx.trans (hn.trans hny.symm)) (hhx.trans (hh.trans hhy.symm))
  refine ⟨?_⟩
  rintro a b x y ⟨x', y', hx', hy', hp, he⟩ hx hy hh
  cases hx.symm.trans hx'
  cases hy.symm.trans hy'
  obtain ⟨u, hu, hpu, hau, -, hru⟩ := hs.unit hx
  obtain ⟨v, hv, hpv, hav, -, hrv⟩ := hs'.unit hy
  rw [← hru, ← hrv]
  refine (h.unit ⟨u, v, hu, hv, ?_, ?_⟩ hu hv (hau.trans hh)).imp fun _ _ => hmono
  · rw [hpu, hp, hpv]
  · rw [hau, he, hav]

/-- Of a unit, at most the new placeholder comes to what it requires. -/
private theorem unit_withPlaceholder_cases {artifact : ArtifactId} {unit k : UnitId}
    {x : CompilationUnit}
    (hx : (graph.withPlaceholder artifact name unit).units.get? k = some x) :
    ∃ u, graph.units.get? k = some u ∧ u.path = x.path ∧ u.artifact = x.artifact ∧
      x.requiredTypes =
        if k = unit then u.requiredTypes ++ [graph.types.nextId] else u.requiredTypes := by
  rw [get?_units_withPlaceholder] at hx
  split at hx
  · next hk =>
    obtain ⟨u, hu, rfl⟩ := Option.map_eq_some_iff.1 hx
    exact ⟨u, hu, rfl, rfl, by rw [if_pos hk]⟩
  · next hk => exact ⟨x, hx, rfl, rfl, by rw [if_neg hk]⟩

/-- Matched units require one more placeholder of the same name. -/
theorem RequiresAlike.withPlaceholder {artifact : ArtifactId} {unit unit' : UnitId}
    (h : RequiresAlike home graph other)
    (hu : ∀ {a b}, SameUnit graph other a b → (a = unit ↔ b = unit')) :
    RequiresAlike home (graph.withPlaceholder artifact name unit)
      (other.withPlaceholder artifact name unit') := by
  have hg : Extends graph (graph.withPlaceholder artifact name unit) :=
    (Since.Placed.withPlaceholder graph unit artifact name).since.extended
  have hg' : Extends other (other.withPlaceholder artifact name unit') :=
    (Since.Placed.withPlaceholder other unit' artifact name).since.extended
  have hnew : SameType (graph.withPlaceholder artifact name unit)
      (other.withPlaceholder artifact name unit') graph.types.nextId other.types.nextId := by
    refine .of_get? (?_ : _ = some (blank name (some artifact) (.incomplete (some unit))))
      (?_ : _ = some (blank name (some artifact) (.incomplete (some unit')))) rfl rfl
    · rw [get?_types_withPlaceholder, if_pos rfl]
      rfl
    · rw [get?_types_withPlaceholder, if_pos rfl]
      rfl
  refine ⟨?_⟩
  rintro a b x y ⟨x', y', hx', hy', hp, he⟩ hx hy hh
  cases hx.symm.trans hx'
  cases hy.symm.trans hy'
  obtain ⟨u, hgu, hpu, hau, hru⟩ := unit_withPlaceholder_cases hx
  obtain ⟨v, hgv, hpv, hav, hrv⟩ := unit_withPlaceholder_cases hy
  have hsame : SameUnit graph other a b :=
    ⟨u, v, hgu, hgv, by rw [hpu, hp, hpv], by rw [hau, he, hav]⟩
  have hrest : Forall₂ (SameType (graph.withPlaceholder artifact name unit)
      (other.withPlaceholder artifact name unit')) u.requiredTypes v.requiredTypes :=
    (h.unit hsame hgu hgv (hau.trans hh)).imp fun _ _ ht => ht.mono hg hg'
  rw [hru, hrv]
  by_cases ha : a = unit
  · rw [if_pos ha, if_pos ((hu hsame).1 ha)]
    exact List.rel_append hrest (.cons hnew .nil)
  · rw [if_neg ha, if_neg fun hb => ha ((hu hsame).2 hb)]
    exact hrest

/-- Matched units are released from a type of the same name. -/
theorem RequiresAlike.withDeclaration {id id' : TypeId} {unit unit' : UnitId}
    {artifact : Option ArtifactId} (h : RequiresAlike home graph other) (hc : graph.Consistent)
    (hc' : other.Consistent) (hid : SameType graph other id id') :
    RequiresAlike home (graph.withDeclaration id unit artifact)
      (other.withDeclaration id' unit' artifact) := by
  have hi : Injective (SameType graph other) :=
    sameType_injective (fun _ _ _ _ hx hy => hc.unique hx hy) fun _ _ _ _ hx hy =>
      hc'.unique hx hy
  refine ⟨?_⟩
  rintro a b x y ⟨x', y', hx', hy', hp, he⟩ hx hy hh
  cases hx.symm.trans hx'
  cases hy.symm.trans hy'
  rw [hc.get?_units_withDeclaration] at hx
  rw [hc'.get?_units_withDeclaration] at hy
  obtain ⟨u, hgu, rfl⟩ := Option.map_eq_some_iff.1 hx
  obtain ⟨v, hgv, rfl⟩ := Option.map_eq_some_iff.1 hy
  refine (forall₂_filter (h.unit ⟨u, v, hgu, hgv, hp, he⟩ hgu hgv hh) fun hab => ?_).imp
    fun k k' hk => ?_
  · have hiff := hi hab hid
    simp only [ne_eq, hiff]
  · obtain ⟨l, hl, hl'⟩ := hk
    exact ⟨l, by rw [label_withDeclaration, hl], by rw [label_withDeclaration, hl']⟩

end JavaGraph.Graph
