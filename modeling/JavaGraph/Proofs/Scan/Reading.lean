import JavaGraph.Proofs.Scan.Diagonal
import JavaGraph.Proofs.Scan.Trace
/-!
# A file that is read

When all types of a file are declared, the file is read. `Reading` follows one scan from then on.
Every reference that it records is settled: it points into the universe of the scan, or to a type
that the scope has borrowed for a name that the universe does not have. A borrowed name stays
borrowed, so the universe does not get it later in the same scan. An anonymous class is recorded
with the supertype that its base gives it as it is known in that scan.
-/

namespace JavaGraph

open JavaGraph.Action
open JavaGraph.Graph (Since Recorded Retains Within)

/-- A file that is read once its types are declared. -/
structure Reading where
  source : SourceUnit
  home : Universe
  declared : Declarations
  /-- The names that the universe has when reading begins. -/
  own : QualifiedName → Prop

/-- A scope has borrowed a type for a name. -/
def Scope.Borrows (scope : Scope) (name : QualifiedName) (id : TypeId) : Prop :=
  ∃ own, scope = .ofArtifact own ∧ own.borrowed.find? name = some id

namespace Reading

variable (P : Reading)

/-- A type of the universe, or one that is borrowed for a name that the universe did not have. -/
def Settled (s : ScanState) (id : TypeId) : Prop :=
  ∃ x, s.store.graph.types.get? id = some x ∧
    (x.home = P.home ∨ s.scope.Borrows x.name id ∧ ¬ P.own x.name)

/-- An anonymous class has the supertypes that its base gives it. -/
def Based (graph : Graph) (type : DeclaredType) : Prop :=
  ∀ node, type.site.base? = some (.typeRef node) →
    ∃ x, graph.types.get? type.id = some x ∧
      match ReferenceSite.baseName? ⟨P.source, P.declared, type⟩ [] node with
      | none => x.superclass = none ∧ x.interfaces = []
      | some name => ∃ base y, graph.types.get? base = some y ∧ y.name = name ∧
          (x.superclass, x.interfaces) = Tandem.onBase y.kind base

/-- What a state is like while the file is read; the supertypes of some types are recorded. -/
structure Reached (done : TypeId → Prop) (s : ScanState) : Prop where
  sound : s.Sound P.source.unit
  scope : s.scope.artifact? = P.home
  borrowed : Twins.BorrowedKnown s.store.graph s.scope
  own : ∀ {name}, P.own name → s.store.graph.Has name P.home
  lent : ∀ {name id}, s.scope.Borrows name id → s.store.graph.Has name P.home → P.own name
  within : ∀ {id x}, s.store.graph.types.get? id = some x → x.state = .complete P.source.unit →
    s.store.graph.Within (P.Settled s) x
  dependencies : ∀ pair ∈ s.dependencies, P.Settled s pair.2
  based : ∀ type ∈ P.declared.types, done type.id → P.Based s.store.graph type

/-- What is kept while the file is read. -/
structure Follows (before after : ScanState) : Prop where
  retains : Retains before.store.graph after.store.graph
  borrows : ∀ {name id}, before.scope.Borrows name id → after.scope.Borrows name id

variable {P} {done : TypeId → Prop} {s t u : ScanState} {name : QualifiedName} {id : TypeId}

/-- Nothing has changed. -/
theorem Follows.refl (s : ScanState) : Follows s s := ⟨.refl _, id⟩

/-- More and more is read. -/
theorem Follows.trans (h : Follows s t) (h' : Follows t u) : Follows s u :=
  ⟨h.retains.trans h'.retains, h'.borrows ∘ h.borrows⟩

/-- What is settled stays settled. -/
theorem Settled.mono (h : P.Settled s id) (hf : Follows s t) : P.Settled t id := by
  obtain ⟨x, hx, hs⟩ := h
  obtain ⟨y, hy, hn, hh, -⟩ := hf.retains.type hx
  refine ⟨y, hy, ?_⟩
  rw [hn, hh]
  exact hs.imp (fun hh => hh) fun hb => ⟨hf.borrows hb.1, hb.2⟩

/-- A type of the universe is settled. -/
theorem Settled.of_home {x : TypeNode} (hx : s.store.graph.types.get? id = some x)
    (hh : x.home = P.home) : P.Settled s id := ⟨x, hx, .inl hh⟩

/-- A settled type is in the universe exactly if the universe has its name. -/
theorem Reached.home_iff (h : P.Reached done s) (hs : P.Settled s id) {x : TypeNode}
    (hx : s.store.graph.types.get? id = some x) :
    x.home = P.home ↔ s.store.graph.Has x.name P.home := by
  constructor
  · exact fun hh => ⟨id, x, hx, rfl, hh⟩
  · intro hn
    obtain ⟨y, hy, hs⟩ := hs
    cases hx.symm.trans hy
    rcases hs with hh | ⟨hb, ho⟩
    · exact hh
    · exact absurd (h.lent hb hn) ho

/-! ### Notes -/

/-- What is noted beside the graph. -/
theorem Reached.noted (h : P.Reached done s) (hstore : t.store = s.store)
    (hscope : t.scope = s.scope) (hd : ∀ pair ∈ t.dependencies, P.Settled s pair.2) :
    P.Reached done t := by
  have hsettled : ∀ {id}, P.Settled s id → P.Settled t id := by
    unfold Settled
    rw [hstore, hscope]
    exact fun h => h
  refine ⟨?_, by rw [hscope, h.scope], by rw [hstore, hscope]; exact h.borrowed, ?_, ?_, ?_,
    fun pair hp => hsettled (hd pair hp), by rw [hstore]; exact h.based⟩
  · unfold ScanState.Sound
    rw [hstore, hscope]
    exact h.sound
  · rw [hstore]
    exact h.own
  · rw [hstore, hscope]
    exact h.lent
  · rw [hstore]
    intro id x hx hs
    exact (h.within hx hs).mono (.refl _) hsettled

/-- What is noted changes nothing else. -/
theorem follows_noted (hstore : t.store = s.store) (hscope : t.scope = s.scope) : Follows s t := by
  constructor
  · rw [hstore]
    exact .refl _
  · rw [hscope]
    exact fun h => h

/-! ### Records -/

/-- A change of a type that leaves alone what names, places and classifies it. -/
structure Annotates (f : TypeNode → TypeNode) : Prop where
  name : ∀ x, (f x).name = x.name
  home : ∀ x, (f x).home = x.home
  state : ∀ x, (f x).state = x.state
  artifact : ∀ x, (f x).artifact = x.artifact
  kind : ∀ x, (f x).kind = x.kind

/-- Such a change does not touch the ledger. -/
theorem Annotates.ledger {f : TypeNode → TypeNode} (hk : Annotates f) (x : TypeNode) :
    (f x).ledger = x.ledger ∧ (f x).state = x.state := by
  refine ⟨?_, hk.state x⟩
  unfold TypeNode.ledger
  rw [hk.name, hk.home, hk.state, hk.artifact]

variable {f : TypeNode → TypeNode} {after : Graph}

/-- What is recorded of a type changes nothing else. -/
theorem follows_recorded (hr : Recorded id f s.store.graph after) (hk : Annotates f) :
    Follows s (s.withGraph after) :=
  ⟨hr.retains hk.name hk.home hk.state hk.kind, fun h => h⟩

/-- An anonymous class keeps its supertypes if only other types get theirs. -/
theorem Based.recorded {graph : Graph} {type : DeclaredType} (h : P.Based graph type)
    (hr : Recorded id f graph after) (hk : Annotates f)
    (hf : type.id = id → ∀ x, (f x).superclass = x.superclass ∧ (f x).interfaces = x.interfaces) :
    P.Based after type := by
  intro node hnode
  obtain ⟨x, hx, hb⟩ := h node hnode
  have hx' : ∃ x', after.types.get? type.id = some x' ∧ x'.superclass = x.superclass ∧
      x'.interfaces = x.interfaces := by
    by_cases hid : type.id = id
    · rw [hid] at hx ⊢
      exact ⟨f x, hr.get?_self hx, hf hid x⟩
    · exact ⟨x, by rw [hr.get?_ne hid, hx], rfl, rfl⟩
  obtain ⟨x', hx', hsuper, hinterfaces⟩ := hx'
  refine ⟨x', hx', ?_⟩
  rw [hsuper, hinterfaces]
  revert hb
  generalize ReferenceSite.baseName? ⟨P.source, P.declared, type⟩ [] node = name
  intro hb
  cases name with
  | none => exact hb
  | some name =>
    obtain ⟨base, y, hy, hn, he⟩ := hb
    obtain ⟨z, hz, hnz, -, -, hkz⟩ :=
      (hr.retains hk.name hk.home hk.state hk.kind).type hy
    exact ⟨base, z, hz, hnz.trans hn, by rw [hkz]; exact he⟩

/-- Something is recorded of a type, and all that it refers to is settled. -/
theorem Reached.recorded (h : P.Reached done s) {done' : TypeId → Prop} {α : Type}
    {action : GraphAction α} (hl : Keeps Graph.SameLedger action)
    {result : Except GraphError α} (hrun : action s.store.graph = (result, after))
    (hr : Recorded id f s.store.graph after) (hk : Annotates f)
    (hw : ∀ {x}, s.store.graph.types.get? id = some x → x.state = .complete P.source.unit →
      s.store.graph.Within (P.Settled s) x → after.Within (P.Settled (s.withGraph after)) (f x))
    (hb : ∀ type ∈ P.declared.types, done' type.id → P.Based after type) :
    P.Reached done' (s.withGraph after) := by
  have hf := follows_recorded (s := s) hr hk
  have hhas : ∀ {name}, after.Has name P.home → s.store.graph.Has name P.home := by
    intro name hn
    rw [Graph.has_iff] at hn ⊢
    obtain ⟨k, hk'⟩ := hn
    exact ⟨k, by rw [← hr.label hk.name hk.home, hk']⟩
  refine ⟨h.sound.withGraph hl hrun, h.scope, ?_, fun ho => hf.retains.has (h.own ho),
    fun hbr hn => h.lent hbr (hhas hn), ?_, fun pair hp => (h.dependencies pair hp).mono hf, hb⟩
  · refine h.borrowed.of_known fun hx => ?_
    obtain ⟨y, hy, hn, -⟩ := hf.retains.type hx
    exact ⟨y, hy, hn⟩
  · intro k y hy hs
    by_cases hki : k = id
    · subst hki
      change after.types.get? k = some y at hy
      rw [hr.types, Arena.get?_modify, if_pos rfl] at hy
      obtain ⟨x, hx, rfl⟩ := Option.map_eq_some_iff.1 hy
      have hsx := (hk.state x).symm.trans hs
      exact hw hx hsx (h.within hx hsx)
    · have hx : s.store.graph.types.get? k = some y := by rw [← hr.get?_ne hki]; exact hy
      exact (h.within hx hs).mono hf.retains.toKeepsMembers fun ht => ht.mono hf

/-! ### Answers of the scope -/

/-- A placeholder comes in for a name that is not borrowed. -/
theorem reached_missing (h : P.Reached done s) (hb : ∀ id, ¬ s.scope.Borrows name id)
    (hsound : (s.missing name P.source.unit).Sound P.source.unit) :
    P.Reached done (s.missing name P.source.unit) ∧ Follows s (s.missing name P.source.unit) := by
  have hplaced : Since.Placed P.source.unit P.home s.store.graph
      (s.missing name P.source.unit).store.graph := by
    rw [← h.scope]
    exact Graph.placed_withMissing ..
  have hborrows : ∀ {other id}, (s.missing name P.source.unit).scope.Borrows other id ↔
      s.scope.Borrows other id := by
    intro other id
    unfold ScanState.missing Scope.Borrows
    cases s.scope with
    | ofArtifact scope =>
      constructor
      · rintro ⟨own, he, hf⟩
        cases he
        exact ⟨scope, rfl, hf⟩
      · rintro ⟨own, he, hf⟩
        cases he
        exact ⟨_, rfl, hf⟩
    | global => exact Iff.rfl
  have hf : Follows s (s.missing name P.source.unit) := ⟨hplaced.retains, hborrows.2⟩
  refine ⟨⟨hsound, (Scope.artifact?_withCreated ..).trans h.scope, ?_,
    fun ho => hf.retains.has (h.own ho), ?_, ?_, fun pair hp => (h.dependencies pair hp).mono hf, ?_⟩,
    hf⟩
  · refine (Twins.borrowedKnown_withCreated h.borrowed).of_known fun hx => ?_
    exact ⟨_, hplaced.types hx, rfl⟩
  · -- The new placeholder is the only name that the universe may not have had.
    rintro other id hbr ⟨k, y, hy, hn, hh⟩
    have hbr := hborrows.1 hbr
    obtain ⟨holder, hk⟩ := Graph.get?_withMissing s.store.graph name s.scope.artifact? P.source.unit
    change (s.store.graph.withMissing name s.scope.artifact? P.source.unit).types.get? k = _ at hy
    rw [hk] at hy
    split at hy
    · cases hy
      change name = other at hn
      subst hn
      exact absurd hbr (hb id)
    · exact h.lent hbr ⟨k, y, hy, hn, hh⟩
  · intro id x hx hs
    exact (h.within (hplaced.own hx hs) hs).mono hf.retains.toKeepsMembers fun ht => ht.mono hf
  · intro type htype hd node hnode
    obtain ⟨x, hx, hbased⟩ := h.based type htype hd node hnode
    refine ⟨x, hplaced.types hx, ?_⟩
    revert hbased
    generalize ReferenceSite.baseName? ⟨P.source, P.declared, type⟩ [] node = base
    intro hbased
    cases base with
    | none => exact hbased
    | some base =>
      obtain ⟨k, y, hy, hrest⟩ := hbased
      exact ⟨k, y, hplaced.types hy, hrest⟩

/-- What a scope borrows for a name is what it has for the name. -/
private theorem cached?_of_borrows {scope : ArtifactScope}
    (h : (Scope.ofArtifact scope).Borrows name id) : ∃ other, scope.cached? name = some other := by
  obtain ⟨own, he, hf⟩ := h
  cases he
  unfold ArtifactScope.cached?
  rw [hf]
  cases scope.known.find? name with
  | none => exact ⟨id, rfl⟩
  | some other => exact ⟨other, rfl⟩

/-- A name for which the scope finds nothing is not borrowed. -/
theorem not_borrows_of_lookup {scope : Scope} {store : Store}
    (h : ∀ id, scope.lookup name store ≠ .ok (some id)) (id : TypeId) :
    ¬ scope.Borrows name id := by
  intro hb
  cases scope with
  | global =>
    obtain ⟨own, he, -⟩ := hb
    cases he
  | ofArtifact scope =>
    obtain ⟨other, hc⟩ := cached?_of_borrows hb
    refine h other ?_
    unfold Scope.lookup
    simp only [hc]

/-- What changes when a scope finds a type: it may borrow it for a name that the universe lacks. -/
private structure Found (graph : Graph) (home : Universe) (scope : Scope) (name : QualifiedName)
    (id : TypeId) (x : TypeNode) : Prop where
  borrows : ∀ {other k}, scope.Borrows other k → (scope.withFound name id).Borrows other k
  back : ∀ {other k}, (scope.withFound name id).Borrows other k →
    scope.Borrows other k ∨ other = name ∧ ¬ graph.Has name home
  settled : x.home = home ∨ (scope.withFound name id).Borrows name id ∧ ¬ graph.Has name home

/-- What a scope finds is of the universe, or borrowed for a name that the universe lacks. -/
private theorem found_of_lookup {graph : Graph} {answers : Bool} {scope : Scope} {x : TypeNode}
    (hs : Scope.Sound graph scope) (hx : graph.types.get? id = some x)
    (hl : scope.lookup name ⟨graph, answers⟩ = .ok (some id)) :
    Found graph scope.artifact? scope name id x := by
  unfold Scope.lookup at hl
  cases scope with
  | global =>
    refine ⟨fun h => h, fun h => .inl h, .inl ?_⟩
    simp only at hl
    unfold Store.findGlobalType Store.query at hl
    split at hl
    · injection hl with hg
      obtain ⟨y, hy, -, hh⟩ := Graph.get?_of_typeIn? hg
      cases hx.symm.trans hy
      exact hh
    · cases hl
  | ofArtifact scope =>
    have hfits : scope.Fits graph := hs.fits
    simp only at hl
    cases hc : scope.cached? name with
    | some known =>
      rw [hc] at hl
      cases hl
      have hsame : (Scope.ofArtifact scope).withFound name id = .ofArtifact scope := by
        unfold Scope.withFound
        simp only [hc]
      unfold ArtifactScope.cached? at hc
      refine ⟨fun h => by rwa [hsame], fun h => by rw [hsame] at h; exact .inl h, ?_⟩
      rw [hsame]
      rcases Option.or_eq_some_iff.1 hc with hk | ⟨hk, hb⟩
      · obtain ⟨y, hy, -, hh⟩ := hfits.known_iff.1 hk
        cases hx.symm.trans hy
        exact .inl hh
      · exact .inr ⟨⟨scope, rfl, hb⟩, Graph.lacks_iff_not_has.1 (hfits.lacks hk)⟩
    | none =>
      have hk : scope.known.find? name = none := by
        unfold ArtifactScope.cached? at hc
        exact (Option.or_eq_none_iff.1 hc).1
      have hlacks := Graph.lacks_iff_not_has.1 (hfits.lacks hk)
      have hborrowed : (Scope.ofArtifact scope).withFound name id =
          .ofArtifact (scope.withBorrowed name id) := by
        unfold Scope.withFound
        simp only [hc]
      have hfind : ∀ other, (scope.withBorrowed name id).borrowed.find? other =
          if name = other then some id else scope.borrowed.find? other :=
        fun other => Table.find?_insert ..
      refine ⟨?_, ?_, .inr ⟨⟨_, hborrowed, by rw [hfind, if_pos rfl]⟩, hlacks⟩⟩
      · rintro other k ⟨own, he, hb⟩
        cases he
        rw [hborrowed]
        refine ⟨_, rfl, ?_⟩
        rw [hfind, if_neg ?_, hb]
        rintro rfl
        obtain ⟨known, hknown⟩ := cached?_of_borrows ⟨scope, rfl, hb⟩
        rw [hc] at hknown
        cases hknown
      · intro other k hb
        rw [hborrowed] at hb
        obtain ⟨own, he, hb⟩ := hb
        cases he
        rw [hfind] at hb
        split at hb
        · next ho => exact .inr ⟨ho.symm, hlacks⟩
        · exact .inl ⟨scope, rfl, hb⟩

/-- What the scope finds is settled when it is found. -/
theorem reached_found (h : P.Reached done s) (hl : s.scope.lookup name s.store = .ok (some id))
    (hsound : (s.found name id).Sound P.source.unit) :
    P.Reached done (s.found name id) ∧ Follows s (s.found name id) ∧
      P.Settled (s.found name id) id ∧
      ∃ x, (s.found name id).store.graph.types.get? id = some x ∧ x.name = name := by
  obtain ⟨x, hx, hn⟩ := Twins.known_of_lookup h.sound.1 h.borrowed hl
  have hfound := found_of_lookup h.sound.1 hx hl
  rw [h.scope] at hfound
  have hf : Follows s (s.found name id) := ⟨.refl _, hfound.borrows⟩
  refine ⟨⟨hsound, (Scope.artifact?_withFound ..).trans h.scope,
    Twins.borrowedKnown_withFound h.borrowed ⟨x, hx, hn⟩, h.own, ?_, ?_,
    fun pair hp => (h.dependencies pair hp).mono hf, h.based⟩, hf, ⟨x, hx, ?_⟩, x, hx, hn⟩
  · intro other k hb hhas
    rcases hfound.back hb with hb | ⟨rfl, hlacks⟩
    · exact h.lent hb hhas
    · exact absurd hhas hlacks
  · exact fun hx hs => (h.within hx hs).mono (.refl _) fun ht => ht.mono hf
  · rw [hn]
    exact hfound.settled.imp (fun hh => hh) fun hb => ⟨hb.1, fun ho => hb.2 (h.own ho)⟩

end Reading

end JavaGraph
