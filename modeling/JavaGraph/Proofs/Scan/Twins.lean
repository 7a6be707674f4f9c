import JavaGraph.Proofs.Graph.Since
import JavaGraph.Proofs.Scope.Lifecycle
import JavaGraph.Scan.Source
/-!
# Two graphs in which one file is scanned

The same file may be scanned into two graphs, by units of their own. `Twins` holds the graphs that
the scans begin with. While they run, what the two units have declared is alike, and the members
that they have brought in are counted in the same order, so they are matched by their numbers.
-/

namespace JavaGraph

open List (Forall₂)

/-- Two scans of one file: the units, the universe, and the graphs that they begin with. -/
structure Twins where
  source : SourceUnit
  source' : SourceUnit
  home : Universe
  start : Graph
  start' : Graph
  /-- Whether anonymous classes are to have the same supertypes. These depend on what is known of
  their bases when the file is scanned. -/
  whole : Prop := False

namespace Twins

open JavaGraph.Graph

/-! ### New members -/

/-- Two nodes came in as the same one in order. -/
def Fresh {kind : EntityKind} {α : Type} (base base' : Arena kind α) (a b : Id kind) : Prop :=
  ∃ n, a.index = base.size + n ∧ b.index = base'.size + n

/-- Both arenas have as many new nodes. -/
def Level {kind : EntityKind} {α : Type} (base base' arena arena' : Arena kind α) : Prop :=
  ∃ n, arena.size = base.size + n ∧ arena'.size = base'.size + n

section

variable {kind : EntityKind} {α : Type} {base base' arena arena' : Arena kind α} {a a' b b' : Id kind}

/-- New nodes are matched one by one. -/
theorem fresh_injective (h : Fresh base base' a b) (h' : Fresh base base' a' b') :
    a = a' ↔ b = b' := by
  obtain ⟨n, ha, hb⟩ := h
  obtain ⟨n', ha', hb'⟩ := h'
  obtain ⟨i⟩ := a
  obtain ⟨i'⟩ := a'
  obtain ⟨j⟩ := b
  obtain ⟨j'⟩ := b'
  simp only [Id.mk.injEq] at *
  omega

/-- The next nodes are matched. -/
theorem fresh_nextId (h : Level base base' arena arena') :
    Fresh base base' arena.nextId arena'.nextId := by
  obtain ⟨n, ha, hb⟩ := h
  exact ⟨n, ha, hb⟩

/-- Both arenas get one more node. -/
theorem level_of_succ {next next' : Arena kind α} (h : Level base base' arena arena')
    (hs : next.size = arena.size + 1) (hs' : next'.size = arena'.size + 1) :
    Level base base' next next' := by
  obtain ⟨n, ha, hb⟩ := h
  exact ⟨n + 1, by omega, by omega⟩

/-- It is the same the other way round. -/
theorem fresh_symm (h : Fresh base base' a b) : Fresh base' base b a := by
  obtain ⟨n, ha, hb⟩ := h
  exact ⟨n, hb, ha⟩

/-- A new node has the place of the one that it came in with. -/
theorem place_of_fresh {R : Id kind → Id kind → Prop} {as bs : List (Id kind)}
    (h : Forall₂ (fun a b => R a b ∧ Fresh base base' a b) as bs) {i : Nat} (ha : as[i]? = some a)
    (hf : Fresh base base' a b) : bs[i]? = some b := by
  obtain ⟨c, hc, -, hf'⟩ := getElem?_of_forall₂ h ha
  rw [hc, (fresh_injective hf hf').1 rfl]

/-- A new node was not known before. -/
theorem get?_of_fresh (h : Fresh base base' a b) : base.get? a = none := by
  obtain ⟨n, ha, -⟩ := h
  unfold Arena.get?
  rw [Array.getElem?_eq_none]
  unfold Arena.size at ha
  omega

end

/-! ### What the scans have in common -/

variable (P : Twins)

/-- A type that the first unit declares and one that the second declares are alike. -/
structure NodesAlike (g g' : Graph) (x y : TypeNode) : Prop extends
    TypeNode.Alike (fun a b => a = P.source.unit ∧ b = P.source'.unit) (SameType g g')
      (fun a b => FieldsAlike g g' a b ∧ Fresh P.start.fields P.start'.fields a b)
      (fun a b => FunctionsAlike g g' a b ∧ Fresh P.start.functions P.start'.functions a b)
      x y where
  supertypes : P.whole → Option.Rel (SameType g g') x.superclass y.superclass ∧
    Forall₂ (SameType g g') x.interfaces y.interfaces

/-- New fields that are alike, of a type that the unit declares. -/
def Fields (g g' : Graph) (a b : FieldId) : Prop :=
  FieldsAlike g g' a b ∧ Fresh P.start.fields P.start'.fields a b ∧
    ∃ owner x, g.types.get? owner = some x ∧ x.state = .complete P.source.unit ∧ a ∈ x.fields

/-- New functions that are alike, of a type that the unit declares. -/
def Functions (g g' : Graph) (a b : FunctionId) : Prop :=
  FunctionsAlike g g' a b ∧ Fresh P.start.functions P.start'.functions a b ∧
    ∃ owner x, g.types.get? owner = some x ∧ x.state = .complete P.source.unit ∧ a ∈ x.functions

/-- What is recorded of the units and of what they declare is alike, and nothing else has
changed. -/
structure Alike (g g' : Graph) : Prop where
  since : Since P.source.unit P.home P.start g
  since' : Since P.source'.unit P.home P.start' g'
  owned : ∀ {id x}, g.types.get? id = some x → x.state = .complete P.source.unit →
    ∃ id' y, g'.types.get? id' = some y ∧ P.NodesAlike g g' x y
  owned' : ∀ {id' y}, g'.types.get? id' = some y → y.state = .complete P.source'.unit →
    ∃ id x, g.types.get? id = some x ∧ P.NodesAlike g g' x y
  fields : Level P.start.fields P.start'.fields g.fields g'.fields
  functions : Level P.start.functions P.start'.functions g.functions g'.functions
  unit : ∃ x y, g.units.get? P.source.unit = some x ∧ g'.units.get? P.source'.unit = some y ∧
    CompilationUnit.Alike (SameType g g') x y
  accesses : ∃ new new', g.accesses.toList = P.start.accesses.toList ++ new ∧
    g'.accesses.toList = P.start'.accesses.toList ++ new' ∧
    Forall₂ (Access.Alike (P.Fields g g') (P.Functions g g')) new new'
  surroundings : SameSurroundings P.start g
  surroundings' : SameSurroundings P.start' g'

/-- A type that a scope may answer with: one of the universe, or a declared one of another universe
that is the same in both graphs. -/
def Answers (g : Graph) (id : TypeId) : Prop :=
  (∃ x, g.types.get? id = some x ∧ x.home = P.home) ∨
    ∃ x, P.start.types.get? id = some x ∧ P.start'.types.get? id = some x ∧
      x.isComplete = true ∧ x.home ≠ P.home

/-- Neither unit declares anything to begin with. -/
structure Ready : Prop where
  new : ∀ {id x}, P.start.types.get? id = some x → x.state ≠ .complete P.source.unit
  new' : ∀ {id x}, P.start'.types.get? id = some x → x.state ≠ .complete P.source'.unit

variable {P} {g g' h h' : Graph}

/-- What the first unit declares is declared by the second. -/
theorem NodesAlike.state {x y : TypeNode} (hn : P.NodesAlike g g' x y)
    (hs : x.state = .complete P.source.unit) : y.state = .complete P.source'.unit := by
  have hd := hn.declaredBy
  rw [hs] at hd
  change Option.Rel _ (some _) _ at hd
  cases hy : y.state.declaredBy with
  | none =>
    rw [hy] at hd
    cases hd
  | some unit =>
    rw [hy] at hd
    cases hd with
    | some hu => exact TypeState.declaredBy_eq_some.1 (by rw [hy, hu.2])

/-- What the second unit declares is declared by the first. -/
theorem NodesAlike.state' {x y : TypeNode} (hn : P.NodesAlike g g' x y)
    (hs : y.state = .complete P.source'.unit) : x.state = .complete P.source.unit := by
  have hd := hn.declaredBy
  rw [hs] at hd
  change Option.Rel _ _ (some _) at hd
  cases hx : x.state.declaredBy with
  | none =>
    rw [hx] at hd
    cases hd
  | some unit =>
    rw [hx] at hd
    cases hd with
    | some hu => exact TypeState.declaredBy_eq_some.1 (by rw [hx, hu.1])

section

variable (hg : Grows P.source.unit g h) (hg' : Grows P.source'.unit g' h')
include hg hg'

/-- Declared types stay alike. -/
theorem NodesAlike.mono {x y : TypeNode} (hn : P.NodesAlike g g' x y) :
    P.NodesAlike h h' x y where
  toAlike := hn.toAlike.imp id (fun ht => ht.mono hg.extended hg'.extended)
    (fun hf => ⟨hf.1.mono hg.extended hg'.extended, hf.2⟩)
    (fun hf => ⟨hf.1.mono hg.extended hg'.extended, hf.2⟩)
  supertypes hw := by
    obtain ⟨hc, hi⟩ := hn.supertypes hw
    exact ⟨rel_imp (fun ht => ht.mono hg.extended hg'.extended) hc,
      hi.imp fun _ _ ht => ht.mono hg.extended hg'.extended⟩

/-- New fields stay alike. -/
theorem Fields.mono {a b : FieldId} (hf : P.Fields g g' a b) : P.Fields h h' a b := by
  obtain ⟨halike, hfresh, owner, x, hx, hs, hm⟩ := hf
  obtain ⟨y, hy, hsy, hfields, -⟩ := hg.own hx hs
  exact ⟨halike.mono hg.extended hg'.extended, hfresh, owner, y, hy, hsy, hfields hm⟩

/-- New functions stay alike. -/
theorem Functions.mono {a b : FunctionId} (hf : P.Functions g g' a b) : P.Functions h h' a b := by
  obtain ⟨halike, hfresh, owner, x, hx, hs, hm⟩ := hf
  obtain ⟨y, hy, hsy, -, hfunctions⟩ := hg.own hx hs
  exact ⟨halike.mono hg.extended hg'.extended, hfresh, owner, y, hy, hsy, hfunctions hm⟩

/-- Uses of new fields stay alike. -/
theorem accesses_mono {new new' : List Access}
    (hn : Forall₂ (Access.Alike (P.Fields g g') (P.Functions g g')) new new') :
    Forall₂ (Access.Alike (P.Fields h h') (P.Functions h h')) new new' :=
  hn.imp fun _ _ ha => ha.imp (fun hf => hf.mono hg hg') (fun hf => hf.mono hg hg')

end

/-- An answer stays one. -/
theorem Answers.mono {id : TypeId} (ha : P.Answers g id) (hg : Extends g h) : P.Answers h id := by
  rcases ha with ⟨x, hx, hh⟩ | hl
  · obtain ⟨y, hy, he⟩ := get?_of_label (hg.label (label_of_get? hx))
    simp only [Prod.mk.injEq] at he
    exact .inl ⟨y, hy, he.2.trans hh⟩
  · exact .inr hl

/-! ### Steps of the scans -/

namespace Alike

/-- A change that a record of a type may be. -/
structure Keeps (f : TypeNode → TypeNode) : Prop where
  name : ∀ x, (f x).name = x.name
  home : ∀ x, (f x).home = x.home
  state : ∀ x, (f x).state = x.state
  artifact : ∀ x, (f x).artifact = x.artifact
  fields : ∀ x : TypeNode, x.fields ⊆ (f x).fields
  functions : ∀ x : TypeNode, x.functions ⊆ (f x).functions

/-- A record of a type does not touch its ledger. -/
theorem Keeps.ledger {f : TypeNode → TypeNode} (hk : Keeps f) (x : TypeNode) :
    (f x).ledger = x.ledger ∧ (f x).state = x.state := by
  refine ⟨?_, hk.state x⟩
  unfold TypeNode.ledger
  rw [hk.name, hk.home, hk.state, hk.artifact]

/-- The units record something of types that are alike. -/
theorem recorded (ha : P.Alike g g') (hP : P.Ready) (hi : Injective (SameType g g'))
    {id id' : TypeId} {x y : TypeNode} {f f' : TypeNode → TypeNode} (hr : Recorded id f g h)
    (hr' : Recorded id' f' g' h') (hk : Keeps f) (hk' : Keeps f')
    (hx : g.types.get? id = some x) (hy : g'.types.get? id' = some y)
    (hs : x.state = .complete P.source.unit) (hxy : P.NodesAlike g g' x y)
    (hg : Grows P.source.unit g h) (hg' : Grows P.source'.unit g' h')
    (hfields : Level P.start.fields P.start'.fields h.fields h'.fields)
    (hfunctions : Level P.start.functions P.start'.functions h.functions h'.functions)
    (hf : P.NodesAlike h h' (f x) (f' y)) : P.Alike h h' where
  since := by
    refine ha.since.recorded hr hx hs (hk.name x) (hk.home x) (hk.state x) ?_ (hk.fields x)
      (hk.functions x)
    intro y hy hsy
    exact absurd hsy (hP.new hy)
  since' := by
    refine ha.since'.recorded hr' hy (hxy.state hs) (hk'.name y) (hk'.home y) (hk'.state y) ?_
      (hk'.fields y) (hk'.functions y)
    intro z hz hsz
    exact absurd hsz (hP.new' hz)
  owned := by
    intro k z hz hsz
    by_cases hkid : k = id
    · subst hkid
      rw [hr.get?_self hx] at hz
      cases hz
      exact ⟨id', f' y, hr'.get?_self hy, hf⟩
    · rw [hr.get?_ne hkid] at hz
      obtain ⟨k', u, hu, hzu⟩ := ha.owned hz hsz
      refine ⟨k', u, ?_, hzu.mono hg hg'⟩
      rw [hr'.get?_ne ?_, hu]
      rintro rfl
      have hsame := SameType.of_get? hz hu hzu.name hzu.home
      exact hkid ((hi hsame (SameType.of_get? hx hy hxy.name hxy.home)).2 rfl)
  owned' := by
    intro k' u hu hsu
    by_cases hkid : k' = id'
    · subst hkid
      rw [hr'.get?_self hy] at hu
      cases hu
      exact ⟨id, f x, hr.get?_self hx, hf⟩
    · rw [hr'.get?_ne hkid] at hu
      obtain ⟨k, z, hz, hzu⟩ := ha.owned' hu hsu
      refine ⟨k, z, ?_, hzu.mono hg hg'⟩
      rw [hr.get?_ne ?_, hz]
      rintro rfl
      have hsame := SameType.of_get? hz hu hzu.name hzu.home
      exact hkid ((hi hsame (SameType.of_get? hx hy hxy.name hxy.home)).1 rfl)
  fields := hfields
  functions := hfunctions
  unit := by
    obtain ⟨z, u, hz, hu, hzu⟩ := ha.unit
    exact ⟨z, u, by rw [hr.units, hz], by rw [hr'.units, hu],
      hzu.imp fun ht => ht.mono hg.extended hg'.extended⟩
  accesses := by
    obtain ⟨new, new', hn, hn', hall⟩ := ha.accesses
    exact ⟨new, new', by rw [hr.accesses, hn], by rw [hr'.accesses, hn'],
      accesses_mono hg hg' hall⟩
  surroundings := ha.surroundings.trans hr.surroundings
  surroundings' := ha.surroundings'.trans hr'.surroundings

/-- At most placeholders come in. -/
theorem placed (ha : P.Alike g g') (hp : Since.Placed P.source.unit P.home g h)
    (hp' : Since.Placed P.source'.unit P.home g' h') : P.Alike h h' where
  since := ha.since.trans hp.since
  since' := ha.since'.trans hp'.since
  owned := by
    intro id x hx hs
    obtain ⟨id', y, hy, hxy⟩ := ha.owned (hp.own hx hs) hs
    exact ⟨id', y, hp'.types hy, hxy.mono hp.since.grows hp'.since.grows⟩
  owned' := by
    intro id' y hy hs
    obtain ⟨id, x, hx, hxy⟩ := ha.owned' (hp'.own hy hs) hs
    exact ⟨id, x, hp.types hx, hxy.mono hp.since.grows hp'.since.grows⟩
  fields := by
    rw [hp.fields, hp'.fields]
    exact ha.fields
  functions := by
    rw [hp.functions, hp'.functions]
    exact ha.functions
  unit := by
    obtain ⟨x, y, hx, hy, hxy⟩ := ha.unit
    obtain ⟨x', hx', hox⟩ := hp.unit hx
    obtain ⟨y', hy', hoy⟩ := hp'.unit hy
    have hxy := hxy.imp fun ht => SameType.mono hp.since.extended hp'.since.extended ht
    exact ⟨x', y', hx', hy', hxy.congr hox hoy⟩
  accesses := by
    obtain ⟨new, new', hn, hn', hall⟩ := ha.accesses
    exact ⟨new, new', by rw [hp.accesses, hn], by rw [hp'.accesses, hn'],
      accesses_mono hp.since.grows hp'.since.grows hall⟩
  surroundings := ha.surroundings.trans hp.surroundings
  surroundings' := ha.surroundings'.trans hp'.surroundings

/-- Types of which nothing is recorded are alike. -/
theorem blank_alike (name : QualifiedName) (home : Universe) :
    P.NodesAlike g g' { blank name home (.complete P.source.unit) with artifact := home }
      { blank name home (.complete P.source'.unit) with artifact := home } :=
  ⟨⟨rfl, rfl, .some ⟨rfl, rfl⟩, rfl, rfl, rfl, rfl, fun _ => .none, fun _ => .nil, .nil, .none, rfl,
    .nil, .nil, .nil⟩, fun _ => ⟨.none, .nil⟩⟩

/-- A unit that declares a type lists it last. -/
private theorem unit_withDeclaration (id : TypeId) (artifact : Option ArtifactId) {unit : UnitId}
    {x : CompilationUnit} (hx : g.units.get? unit = some x) :
    ∃ x', (g.withDeclaration id unit artifact).units.get? unit = some x' ∧
      outline x' = outline { x with declaredTypes := x.declaredTypes ++ [id] } := by
  rw [get?_units_withDeclaration, hx]
  refine ⟨_, rfl, ?_⟩
  simp [outline]

/-- The units declare placeholders of the same name. -/
theorem declared (ha : P.Alike g g') (hi : Injective (SameType g g')) {id id' : TypeId}
    {name : QualifiedName} {holder holder' : Option UnitId}
    (hx : g.types.get? id = some (blank name P.home (.incomplete holder)))
    (hy : g'.types.get? id' = some (blank name P.home (.incomplete holder'))) :
    P.Alike (g.withDeclaration id P.source.unit P.home)
      (g'.withDeclaration id' P.source'.unit P.home) := by
  have hg : Since P.source.unit P.home g (g.withDeclaration id P.source.unit P.home) :=
    (Since.refl ..).declared hx rfl
  have hg' : Since P.source'.unit P.home g' (g'.withDeclaration id' P.source'.unit P.home) :=
    (Since.refl ..).declared hy rfl
  have hself : (g.withDeclaration id P.source.unit P.home).types.get? id =
      some { blank name P.home (.complete P.source.unit) with artifact := P.home } := by
    rw [get?_types_withDeclaration, if_pos rfl, hx]
    rfl
  have hself' : (g'.withDeclaration id' P.source'.unit P.home).types.get? id' =
      some { blank name P.home (.complete P.source'.unit) with artifact := P.home } := by
    rw [get?_types_withDeclaration, if_pos rfl, hy]
    rfl
  have hsame : SameType g g' id id' := SameType.of_get? hx hy rfl rfl
  refine ⟨ha.since.declared hx rfl, ha.since'.declared hy rfl, ?_, ?_, ha.fields, ha.functions, ?_,
    ?_, ha.surroundings.trans ⟨rfl, rfl, rfl⟩, ha.surroundings'.trans ⟨rfl, rfl, rfl⟩⟩
  · intro k z hz hs
    by_cases hk : k = id
    · subst hk
      rw [hself] at hz
      cases hz
      exact ⟨id', _, hself', blank_alike name P.home⟩
    · rw [get?_types_withDeclaration, if_neg hk] at hz
      obtain ⟨k', u, hu, hzu⟩ := ha.owned hz hs
      refine ⟨k', u, ?_, hzu.mono hg.grows hg'.grows⟩
      rw [get?_types_withDeclaration, if_neg ?_, hu]
      rintro rfl
      exact hk ((hi (SameType.of_get? hz hu hzu.name hzu.home) hsame).2 rfl)
  · intro k' u hu hs
    by_cases hk : k' = id'
    · subst hk
      rw [hself'] at hu
      cases hu
      exact ⟨id, _, hself, blank_alike name P.home⟩
    · rw [get?_types_withDeclaration, if_neg hk] at hu
      obtain ⟨k, z, hz, hzu⟩ := ha.owned' hu hs
      refine ⟨k, z, ?_, hzu.mono hg.grows hg'.grows⟩
      rw [get?_types_withDeclaration, if_neg ?_, hz]
      rintro rfl
      exact hk ((hi (SameType.of_get? hz hu hzu.name hzu.home) hsame).1 rfl)
  · obtain ⟨x, y, hx', hy', hxy⟩ := ha.unit
    have hxy := hxy.imp fun ht => SameType.mono hg.extended hg'.extended ht
    obtain ⟨x', hx', hox⟩ := unit_withDeclaration id P.home hx'
    obtain ⟨y', hy', hoy⟩ := unit_withDeclaration id' P.home hy'
    refine ⟨x', y', hx', hy', CompilationUnit.Alike.congr ?_ hox hoy⟩
    exact ⟨hxy.path, hxy.package, hxy.artifact, hxy.mayNotCompile,
      List.rel_append hxy.declaredTypes (.cons (hsame.mono hg.extended hg'.extended) .nil),
      hxy.mainType, hxy.dependencies⟩
  · obtain ⟨new, new', hn, hn', hall⟩ := ha.accesses
    exact ⟨new, new', hn, hn', accesses_mono hg.grows hg'.grows hall⟩

/-- The units get main types of the same name. -/
theorem withMainType (ha : P.Alike g g') {id id' : TypeId} (hsame : SameType g g' id id') :
    P.Alike (g.withMainType P.source.unit id) (g'.withMainType P.source'.unit id') := by
  have hg := Since.withMainType g P.source.unit P.home id
  have hg' := Since.withMainType g' P.source'.unit P.home id'
  refine ⟨ha.since.trans hg, ha.since'.trans hg', ?_, ?_, ha.fields, ha.functions, ?_, ?_,
    ha.surroundings.trans ⟨rfl, rfl, rfl⟩, ha.surroundings'.trans ⟨rfl, rfl, rfl⟩⟩
  · intro k x hx hs
    obtain ⟨k', y, hy, hxy⟩ := ha.owned hx hs
    exact ⟨k', y, hy, hxy.mono hg.grows hg'.grows⟩
  · intro k' y hy hs
    obtain ⟨k, x, hx, hxy⟩ := ha.owned' hy hs
    exact ⟨k, x, hx, hxy.mono hg.grows hg'.grows⟩
  · obtain ⟨x, y, hx, hy, hxy⟩ := ha.unit
    have hxy := hxy.imp fun ht => SameType.mono hg.extended hg'.extended ht
    refine ⟨{ x with mainType := some id }, { y with mainType := some id' }, ?_, ?_,
      ⟨hxy.path, hxy.package, hxy.artifact, hxy.mayNotCompile, hxy.declaredTypes,
        .some (hsame.mono hg.extended hg'.extended), hxy.dependencies⟩⟩
    · unfold Graph.withMainType
      simp only
      rw [Arena.get?_modify, if_pos rfl, hx]
      rfl
    · unfold Graph.withMainType
      simp only
      rw [Arena.get?_modify, if_pos rfl, hy]
      rfl
  · obtain ⟨new, new', hn, hn', hall⟩ := ha.accesses
    exact ⟨new, new', hn, hn', accesses_mono hg.grows hg'.grows hall⟩

/-- Uses of fields that are alike come in. -/
theorem withAccess (ha : P.Alike g g') {a b : Access}
    (hab : Access.Alike (P.Fields g g') (P.Functions g g') a b) :
    P.Alike (g.withAccess a) (g'.withAccess b) := by
  have hg := Since.withAccess g P.source.unit P.home a
  have hg' := Since.withAccess g' P.source'.unit P.home b
  refine ⟨ha.since.trans hg, ha.since'.trans hg', ?_, ?_, ha.fields, ha.functions, ?_, ?_,
    ha.surroundings.trans ⟨rfl, rfl, rfl⟩, ha.surroundings'.trans ⟨rfl, rfl, rfl⟩⟩
  · intro k x hx hs
    obtain ⟨k', y, hy, hxy⟩ := ha.owned hx hs
    exact ⟨k', y, hy, hxy.mono hg.grows hg'.grows⟩
  · intro k' y hy hs
    obtain ⟨k, x, hx, hxy⟩ := ha.owned' hy hs
    exact ⟨k, x, hx, hxy.mono hg.grows hg'.grows⟩
  · obtain ⟨x, y, hx, hy, hxy⟩ := ha.unit
    exact ⟨x, y, hx, hy, hxy.imp fun ht => SameType.mono hg.extended hg'.extended ht⟩
  · obtain ⟨new, new', hn, hn', hall⟩ := ha.accesses
    refine ⟨new ++ [a], new' ++ [b], ?_, ?_, ?_⟩
    · unfold Graph.withAccess
      simp only
      rw [Array.toList_push, hn, List.append_assoc]
    · unfold Graph.withAccess
      simp only
      rw [Array.toList_push, hn', List.append_assoc]
    · exact accesses_mono hg.grows hg'.grows (List.rel_append hall (.cons hab .nil))

end Alike

end Twins

end JavaGraph

/-!
## What a scan leaves for good

When two scans of one file are over, other files may be scanned into the second graph. What the file
has left there stays as it is: the scan of another unit changes neither the types that the first
one declares nor the uses of fields by their functions.
-/

namespace JavaGraph

open List (Forall₂)
open JavaGraph.Graph (SameType SameUnit Since Extends)

/-! ### Uses of fields -/

namespace Graph

/-- The uses of fields that have come in are by new functions. -/
def NewUses (before after : Graph) : Prop :=
  ∃ new, after.accesses.toList = before.accesses.toList ++ new ∧
    ∀ access ∈ new, before.functions.get? access.function = none

variable {before after : Graph}

/-- No use comes in. -/
theorem NewUses.of_eq (h : after.accesses = before.accesses) : NewUses before after :=
  ⟨[], by rw [h, List.append_nil], List.forall_mem_nil _⟩

/-- More and more uses come in, while functions stay known. -/
theorem NewUses.trans {middle : Graph} (h : NewUses before middle) (h' : NewUses middle after)
    (hf : ∀ {id x}, before.functions.get? id = some x → middle.functions.get? id = some x) :
    NewUses before after := by
  obtain ⟨new, hn, hnew⟩ := h
  obtain ⟨new', hn', hnew'⟩ := h'
  refine ⟨new ++ new', by rw [hn', hn, List.append_assoc], fun access hm => ?_⟩
  rcases List.mem_append.1 hm with hm | hm
  · exact hnew access hm
  · refine Option.eq_none_iff_forall_not_mem.2 fun x hx => ?_
    have hx' := hf hx
    rw [hnew' access hm] at hx'
    cases hx'

/-- A known function uses the same fields as before. -/
theorem NewUses.accessesFrom (h : NewUses before after) {id : FunctionId} {x : Function}
    (hx : before.functions.get? id = some x) : after.accessesFrom id = before.accessesFrom id := by
  obtain ⟨new, hn, hnew⟩ := h
  unfold Graph.accessesFrom
  rw [hn, List.filter_append]
  have hempty : new.filter (·.function = id) = [] := by
    rw [List.filter_eq_nil_iff]
    intro access hm
    simp only [decide_eq_true_eq]
    rintro rfl
    rw [hnew access hm] at hx
    cases hx
  rw [hempty, List.append_nil]

/-- Uses are by known functions. -/
def UsesKnown (graph : Graph) : Prop :=
  ∀ access ∈ graph.accesses.toList, ∃ x, graph.functions.get? access.function = some x

/-- A new function uses what has come in. -/
theorem UsesKnown.accessesFrom (h : before.UsesKnown) {new : List Access}
    (hn : after.accesses.toList = before.accesses.toList ++ new) {id : FunctionId}
    (hid : before.functions.get? id = none) :
    after.accessesFrom id = new.filter (·.function = id) := by
  unfold Graph.accessesFrom
  rw [hn, List.filter_append]
  have hempty : before.accesses.toList.filter (·.function = id) = [] := by
    rw [List.filter_eq_nil_iff]
    intro access hm
    simp only [decide_eq_true_eq]
    rintro rfl
    obtain ⟨x, hx⟩ := h access hm
    rw [hid] at hx
    cases hx
  rw [hempty, List.nil_append]

end Graph

/-! ### Imprints -/

namespace Twins

variable {P : Twins} {g G G' : Graph}

/-- What the second unit has in a graph is alike to what the first unit has in its own. -/
structure Imprint (P : Twins) (g G : Graph) : Prop where
  owned : ∀ {id x}, g.types.get? id = some x → x.state = .complete P.source.unit →
    ∃ id' y, G.types.get? id' = some y ∧ P.NodesAlike g G x y
  owned' : ∀ {id' y}, G.types.get? id' = some y → y.state = .complete P.source'.unit →
    ∃ id x, g.types.get? id = some x ∧ P.NodesAlike g G x y
  unit : ∃ x y, g.units.get? P.source.unit = some x ∧ G.units.get? P.source'.unit = some y ∧
    CompilationUnit.Alike (SameType g G) x y
  accesses : ∀ {a b}, P.Functions g G a b →
    Forall₂ (Access.Alike (P.Fields g G) (P.Functions g G)) (g.accessesFrom a) (G.accessesFrom b)

/-- New uses are by new functions. -/
theorem Alike.newUses (h : P.Alike g G) :
    Graph.NewUses P.start g ∧ Graph.NewUses P.start' G := by
  obtain ⟨new, new', hn, hn', hall⟩ := h.accesses
  refine ⟨⟨new, hn, fun access hm => ?_⟩, new', hn', fun access hm => ?_⟩
  · obtain ⟨other, -, ha⟩ := mem_of_forall₂ hall hm
    exact get?_of_fresh ha.function.2.1
  · obtain ⟨other, -, ha⟩ := mem_of_forall₂ hall.flip hm
    exact get?_of_fresh (fresh_symm ha.function.2.1)

/-- What two scans leave when they are over. -/
theorem Alike.imprint (h : P.Alike g G) (hu : P.start.UsesKnown) (hu' : P.start'.UsesKnown) :
    P.Imprint g G where
  owned := h.owned
  owned' := h.owned'
  unit := h.unit
  accesses := by
    intro a b hab
    obtain ⟨new, new', hn, hn', hall⟩ := h.accesses
    rw [hu.accessesFrom hn (get?_of_fresh hab.2.1),
      hu'.accessesFrom hn' (get?_of_fresh (fresh_symm hab.2.1))]
    refine forall₂_filter hall fun haccess => ?_
    have hiff := fresh_injective haccess.function.2.1 hab.2.1
    simp only [hiff]

/-- The scan of another unit leaves an imprint as it is. -/
theorem Imprint.later (h : P.Imprint g G) {unit : UnitId} {home : Universe}
    (hs : Since unit home G G') (hne : unit ≠ P.source'.unit) (hn : Graph.NewUses G G') :
    P.Imprint g G' := by
  have hg : Graph.Grows P.source.unit g g := (Since.refl P.source.unit home g).grows
  have hg' : Graph.Grows P.source'.unit G G' := hs.grows_other hne.symm
  refine ⟨?_, ?_, ?_, ?_⟩
  · intro id x hx hsx
    obtain ⟨id', y, hy, hxy⟩ := h.owned hx hsx
    have hsy := hxy.state hsx
    have hcy : y.isComplete = true := TypeNode.isComplete_eq_true.2 ⟨_, hsy⟩
    refine ⟨id', y, hs.foreign hy hcy ?_, hxy.mono hg hg'⟩
    rw [hsy]
    exact fun he => hne (TypeState.complete.inj he).symm
  · intro id' y hy hsy
    have hback := hs.back hy (by
      rw [hsy]
      exact fun he => hne (TypeState.complete.inj he).symm)
    rcases hback with hy' | ⟨-, _, _, rfl⟩
    · obtain ⟨id, x, hx, hxy⟩ := h.owned' hy' hsy
      exact ⟨id, x, hx, hxy.mono hg hg'⟩
    · cases hsy
  · obtain ⟨x, y, hx, hy, hxy⟩ := h.unit
    have ho := hs.others hne.symm
    rw [hy] at ho
    obtain ⟨z, hz, hzy⟩ := Option.map_eq_some_iff.1 ho
    exact ⟨x, z, hx, hz,
      (hxy.imp fun hab => SameType.mono hg.extended hg'.extended hab).congr rfl hzy⟩
  · intro a b hab
    obtain ⟨-, hfresh, owner, x, hx, hsx, hm⟩ := hab
    -- The function that `a` is matched with was there before the other unit came in.
    obtain ⟨id', y, -, hxy⟩ := h.owned hx hsx
    obtain ⟨b', -, halike, hfresh'⟩ := mem_of_forall₂ hxy.functions hm
    obtain rfl := (fresh_injective hfresh hfresh').1 rfl
    obtain ⟨u, v, -, hv, -⟩ := id halike
    rw [hn.accessesFrom hv]
    exact accesses_mono hg hg' (h.accesses ⟨halike, hfresh', owner, x, hx, hsx, hm⟩)

end Twins

end JavaGraph
