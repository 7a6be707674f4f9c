import JavaGraph.Proofs.Scan.Oblivious
import JavaGraph.Proofs.Scan.Solo
/-!
# Scans confined to one artifact

A graph may have nothing but what belongs to one artifact without dependencies. Then the scope of
the artifact and the global scope find the same types, make the same placeholders and refuse the
same declarations, though the one asks its own table and the other one the store.
-/

namespace JavaGraph

open List (Forall₂)
open JavaGraph.Action
open ReferenceSite (ParameterHead)

namespace Graph

variable {graph after : Graph} {home : Universe} {name : QualifiedName} {id : TypeId}

/-! ### Graphs of one universe -/

/-- All types and units belong to one universe. -/
structure Sole (graph : Graph) (home : Universe) : Prop where
  types : ∀ {id x}, graph.types.get? id = some x → x.home = home
  units : ∀ {id x}, graph.units.get? id = some x → x.artifact = home

/-- What a unit of the universe changes belongs to it. -/
theorem Sole.of_since (h : graph.Sole home) {unit : UnitId} (hs : Since unit home graph after)
    (hu : ∃ x, graph.units.get? unit = some x) : after.Sole home where
  types := by
    intro id y hy
    cases hx : graph.types.get? id with
    | none => exact hs.within hy hx
    | some x =>
      obtain ⟨y', hy', -, hh⟩ := hs.known hx
      cases hy.symm.trans hy'
      exact hh.trans (h.types hx)
  units := by
    intro k y hy
    by_cases hk : k = unit
    · obtain ⟨x, hx⟩ := hu
      obtain ⟨y', hy', -, ha⟩ := hs.extended.unit hx
      rw [← hk] at hx hy'
      cases hy.symm.trans hy'
      exact ha.trans (h.units hx)
    · have ho := hs.others hk
      rw [hy] at ho
      obtain ⟨x, hx, hxy⟩ := Option.map_eq_some_iff.1 ho.symm
      exact (congrArg (·.artifact) hxy).symm.trans (h.units hx)

/-- What does not touch the ledger leaves everything where it belongs. -/
theorem Sole.of_sameLedger (h : graph.Sole home) (hl : SameLedger graph after) :
    after.Sole home where
  types := by
    intro id y hy
    have he := hl.types id
    rw [hy] at he
    obtain ⟨x, hx, hxy⟩ := Option.map_eq_some_iff.1 he.symm
    exact (congrArg (·.2.1) hxy).symm.trans (h.types hx)
  units := by
    intro k y hy
    have he := hl.units k
    rw [hy] at he
    obtain ⟨x, hx, hxy⟩ := Option.map_eq_some_iff.1 he.symm
    exact (congrArg (·.2.1) hxy).symm.trans (h.units hx)

/-! ### What is left of it -/

/-- The type is known without its artifact. -/
theorem get?_forgotten {x : TypeNode} (hx : graph.types.get? id = some x) :
    graph.forgotten.types.get? id = some x.forgotten := by
  simp [without, hx]

/-- Every type that is left was one. -/
theorem get?_of_forgotten {y : TypeNode} (hy : graph.forgotten.types.get? id = some y) :
    ∃ x, graph.types.get? id = some x ∧ y = x.forgotten := by
  simp only [without, Arena.get?_map] at hy
  obtain ⟨x, hx, rfl⟩ := Option.map_eq_some_iff.1 hy
  exact ⟨x, hx, rfl⟩

/-- Every unit that is left was one. -/
theorem unit_of_forgotten {unit : UnitId} {y : CompilationUnit}
    (hy : graph.forgotten.units.get? unit = some y) :
    ∃ x, graph.units.get? unit = some x ∧ y = x.unplaced := by
  simp only [without, Arena.get?_map] at hy
  obtain ⟨x, hx, rfl⟩ := Option.map_eq_some_iff.1 hy
  exact ⟨x, hx, rfl⟩

/-- A consistent graph of one universe stays so if its artifact is forgotten. -/
theorem Consistent.forgotten (h : graph.Consistent) (hs : graph.Sole home) :
    graph.forgotten.Consistent where
  unique := by
    intro a b x y hx hy hn _
    obtain ⟨x', hx', rfl⟩ := get?_of_forgotten hx
    obtain ⟨y', hy', rfl⟩ := get?_of_forgotten hy
    exact h.unique hx' hy' hn ((hs.types hx').trans (hs.types hy').symm)
  complete_declared := by
    intro id y unit hy hc
    obtain ⟨x, hx, rfl⟩ := get?_of_forgotten hy
    have hcx : x.state = .complete unit := by
      change x.state.released = _ at hc
      cases hsx : x.state with
      | incomplete holder =>
        rw [hsx] at hc
        cases hc
      | complete other =>
        rw [hsx] at hc
        exact hc
    obtain ⟨node, hn, hm⟩ := h.complete_declared hx hcx
    exact ⟨node.unplaced, by simp [without, hn], hm⟩
  declared_complete := by
    intro id unit node hn hm
    obtain ⟨node', hn', rfl⟩ := unit_of_forgotten hn
    obtain ⟨x, hx, hc, -, -⟩ := h.declared_complete hn' hm
    refine ⟨x.forgotten, get?_forgotten hx, ?_, rfl, rfl⟩
    change x.state.released = _
    rw [hc]
    rfl
  declared_nodup := by
    intro unit node hn
    obtain ⟨node', hn', rfl⟩ := unit_of_forgotten hn
    have hnodup := h.declared_nodup hn'
    exact hnodup
  required_placeholder := by
    intro id unit node hn hm
    obtain ⟨node, -, rfl⟩ := unit_of_forgotten hn
    cases hm
  required_nodup := by
    intro unit node hn
    obtain ⟨node, -, rfl⟩ := unit_of_forgotten hn
    exact .nil
  required_unique := by
    intro id a b x y hx _ hm
    obtain ⟨x, -, rfl⟩ := unit_of_forgotten hx
    cases hm
  requirers_iff := by
    intro id unit
    constructor
    · intro hm
      cases hm
    · rintro ⟨node, hn, hm⟩
      obtain ⟨node, -, rfl⟩ := unit_of_forgotten hn
      cases hm
  requirers_nodup := .nil
  units_iff := by
    intro artifact owner unit ho
    simp [without, Arena.get?] at ho
  artifact_known := by
    intro unit node artifact hn ha
    obtain ⟨node, -, rfl⟩ := unit_of_forgotten hn
    cases ha

/-- The global scope is sound then. -/
theorem Consistent.sound_global (h : graph.Consistent) (hs : graph.Sole home) :
    Scope.Sound graph.forgotten .global where
  consistent := h.forgotten hs
  covered := by
    intro id y hy _ hh
    obtain ⟨x, -, rfl⟩ := get?_of_forgotten hy
    cases hh
  fits := by
    intro id y hy
    obtain ⟨x, -, rfl⟩ := get?_of_forgotten hy
    change x.state.released.requiredBy = none
    cases x.state <;> rfl

/-- A name of the universe is one of the global universe then. -/
theorem globalType?_forgotten (h : graph.Consistent) (hs : graph.Sole home) {x : TypeNode}
    (hx : graph.types.get? id = some x) : graph.forgotten.globalType? x.name = some id := by
  cases hg : graph.forgotten.typeIn? x.name.text none with
  | none => exact absurd rfl (ne_of_typeIn?_eq_none hg (get?_forgotten hx) rfl)
  | some k =>
    obtain ⟨y, hy, hn, -⟩ := get?_of_typeIn? hg
    obtain ⟨y', hy', rfl⟩ := get?_of_forgotten hy
    have hname : y'.name = x.name := QualifiedName.text_inj.1 hn
    rw [globalType?, hg, h.unique hy' hx hname ((hs.types hy').trans (hs.types hx).symm)]

/-- A name that the universe lacks is lacking then. -/
theorem Lacks.forgotten (h : graph.Lacks name home) (hs : graph.Sole home) :
    graph.forgotten.Lacks name none := by
  intro id y hy hn
  obtain ⟨x, hx, rfl⟩ := get?_of_forgotten hy
  exact absurd (hs.types hx) (h hx hn)

/-- A declared name is declared then. -/
theorem declaredAs_forgotten {unit : UnitId} (h : Twins.DeclaredAs graph name home unit) :
    Twins.DeclaredAs graph.forgotten name none unit := by
  obtain ⟨id, x, hx, hn, -, hs⟩ := h
  refine ⟨id, x.forgotten, get?_forgotten hx, hn, rfl, ?_⟩
  change x.state.released = _
  rw [hs]
  rfl

end Graph

/-! ### Declarations -/

namespace Scope

variable {graph middle middle' : Graph} {home : Universe} {name : QualifiedName} {id id' : TypeId}

/-- What waits for a declaration waits for it then. -/
theorem Awaits.forgotten (h : Awaits graph name home middle id) (hs : graph.Sole home) :
    Awaits graph.forgotten name none middle.forgotten id := by
  obtain ⟨⟨x, hx, hn, -, hc⟩, hm⟩ := h
  refine ⟨⟨x.forgotten, Graph.get?_forgotten hx, hn, rfl, by simpa using hc⟩, ?_⟩
  rcases hm with rfl | ⟨rfl, rfl, hl⟩
  · exact .inl rfl
  · exact .inr ⟨Graph.forgotten_withType .., by simp [Graph.without], hl.forgotten hs⟩

/-- Only one type waits for the declaration of a name. -/
theorem Awaits.unique (h : Awaits graph name home middle id)
    (h' : Awaits graph name home middle' id') (hc : graph.Consistent) :
    id = id' ∧ middle = middle' := by
  obtain ⟨⟨x, hx, hn, hh, -⟩, hm⟩ := h
  obtain ⟨⟨y, hy, hn', hh', -⟩, hm'⟩ := h'
  rcases hm with rfl | ⟨rfl, rfl, hl⟩ <;> rcases hm' with rfl | ⟨rfl, rfl, hl'⟩
  · exact ⟨hc.unique hx hy (hn.trans hn'.symm) (hh.trans hh'.symm), rfl⟩
  · exact absurd hh (hl' hx hn)
  · exact absurd hh' (hl hy hn')
  · exact ⟨rfl, rfl⟩

end Scope

/-! ### States -/

namespace ScanState

variable {s : ScanState} {unit : UnitId} {name : QualifiedName}

/-- The state of the same scan in the global scope, without the artifact. -/
def globally (s : ScanState) : ScanState :=
  { s with store := { s.store with graph := s.store.graph.forgotten }, scope := .global }

/-- A state of the scan of a unit in an artifact without dependencies, to which everything
belongs. -/
structure Confined (unit : UnitId) (s : ScanState) : Prop where
  sound : s.Sound unit
  scope : s.scope.Independent
  answers : s.store.answers = true
  sole : s.store.graph.Sole s.scope.artifact?

/-- The state is sound without the artifact. -/
theorem Confined.sound_globally (h : s.Confined unit) : s.globally.Sound unit := by
  refine ⟨h.sound.1.consistent.sound_global h.sole, ?_⟩
  obtain ⟨source, hu, -⟩ := h.sound.2
  exact ⟨source.unplaced, by simp [globally, Graph.without, hu], rfl⟩

/-- The unit is known. -/
theorem Confined.unit_known (h : s.Confined unit) :
    ∃ x, s.store.graph.units.get? unit = some x := by
  obtain ⟨source, hu, -⟩ := h.sound.2
  exact ⟨source, hu⟩

/-- What the scope has for a name, the global scope has without the artifact. -/
theorem Confined.lookup (h : s.Confined unit) (name : QualifiedName) :
    (∃ id x, s.store.graph.types.get? id = some x ∧
      s.scope.lookup name s.store = .ok (some id) ∧
      s.globally.scope.lookup name s.globally.store = .ok (some id)) ∨
    s.scope.lookup name s.store = .ok none ∧
      s.globally.scope.lookup name s.globally.store = .ok none := by
  have hglobal : s.globally.scope.lookup name s.globally.store =
      .ok (s.store.graph.forgotten.globalType? name) := by
    unfold Scope.lookup globally Store.findGlobalType Store.query
    simp only [h.answers, if_true]
  rw [hglobal]
  rcases h.scope.lookup h.sound.1 s.store.answers name with ⟨id, hl, hlabel⟩ | hl
  · obtain ⟨x, hx, he⟩ := Graph.get?_of_label hlabel
    obtain rfl : x.name = name := congrArg Prod.fst he
    exact .inl ⟨id, x, hx, hl, by rw [Graph.globalType?_forgotten h.sound.1.consistent h.sole hx]⟩
  · obtain ⟨hlacks, -⟩ := Scope.resolve_missing h.sound.1 h.sound.2 hl
    exact .inr ⟨hl, congrArg Except.ok (Graph.Lacks.typeIn?_eq_none (hlacks.forgotten h.sole))⟩

/-- The state in which a placeholder has come in. -/
theorem globally_missing (s : ScanState) (name : QualifiedName) (unit : UnitId) :
    (s.missing name unit).globally = s.globally.missing name unit := by
  have hgraph : (s.store.graph.withMissing name s.scope.artifact? unit).forgotten =
      s.store.graph.forgotten.withMissing name none unit := by
    cases s.scope.artifact? with
    | some artifact => exact Graph.forgotten_withPlaceholder ..
    | none => exact Graph.forgotten_withType ..
  unfold missing globally
  simp only [hgraph]
  rfl

/-- The state in which a placeholder is declared. -/
theorem globally_declaredState (s : ScanState) (unit : UnitId) (name : QualifiedName)
    (middle : Graph) (id : TypeId) :
    (Twins.declaredState s unit name middle id).globally =
      Twins.declaredState s.globally unit name middle.forgotten id := by
  unfold Twins.declaredState globally
  simp only [Graph.forgotten_withDeclaration]
  rfl

/-- A scope without dependencies requires what it resolves. -/
private theorem Confined.require_eq (h : s.Confined unit) (name : QualifiedName) :
    inScope (·.require name unit) s = inScope (·.resolve name unit) s := by
  obtain ⟨store, scope, diagnostics, dependencies⟩ := s
  obtain ⟨own, rfl, hd, hb⟩ := h.scope
  have hc : own.cached? name = own.known.find? name := by
    unfold ArtifactScope.cached?
    rw [hb, Option.or_none]
  have heq : own.require name unit store = own.resolve name unit store := by
    cases hk : own.known.find? name with
    | some id =>
      rw [ArtifactScope.require_known hk, ArtifactScope.resolve_cached (hc.trans hk)]
    | none =>
      rw [ArtifactScope.resolve_new (hc.trans hk), hd]
      rfl
  unfold inScope
  simp only [Scope.require_ofArtifact, Scope.resolve_ofArtifact, heq]

/-! ### Scans stay confined -/

/-- What changes neither the store nor the scope. -/
private theorem Confined.of_eq {t : ScanState} (h : s.Confined unit) (hstore : t.store = s.store)
    (hscope : t.scope = s.scope) : t.Confined unit := by
  obtain ⟨store, scope, diagnostics, dependencies⟩ := t
  cases hstore
  cases hscope
  exact ⟨h.sound, h.scope, h.answers, h.sole⟩

/-- A type is found in the scope. -/
private theorem Confined.found (h : s.Confined unit) {id : TypeId}
    (hl : s.scope.lookup name s.store = .ok (some id)) : (s.found name id).Confined unit := by
  have hrun : inScope (·.resolve name unit) s = (.ok id, s.found name id) :=
    inScope_ok (Scope.resolve_found hl)
  have hk : Keeps (PassesOn unit) (inScope (·.resolve name unit)) := Refers.resolve name
  have hsound := hk.of_run hrun h.sound
  exact ⟨hsound, h.scope.withFound hl, h.answers, by
    change s.store.graph.Sole (s.scope.withFound name id).artifact?
    rw [Scope.artifact?_withFound]
    exact h.sole⟩

/-- A placeholder comes in. -/
private theorem Confined.missing (h : s.Confined unit)
    (hl : s.scope.lookup name s.store = .ok none) : (s.missing name unit).Confined unit := by
  obtain ⟨-, hres⟩ := Scope.resolve_missing h.sound.1 h.sound.2 hl
  have hrun : inScope (·.resolve name unit) s =
      (.ok s.store.graph.types.nextId, s.missing name unit) := inScope_ok hres
  have hk : Keeps (PassesOn unit) (inScope (·.resolve name unit)) := Refers.resolve name
  have hsound := hk.of_run hrun h.sound
  refine ⟨hsound, h.scope.withCreated name _, h.answers, ?_⟩
  have hplaced := (Graph.placed_withMissing s.store.graph unit name s.scope.artifact?).since
  change (s.store.graph.withMissing name s.scope.artifact? unit).Sole
    (s.scope.withCreated name s.store.graph.types.nextId).artifact?
  rw [Scope.artifact?_withCreated]
  exact h.sole.of_since hplaced h.unit_known

/-- The unit declares a placeholder. -/
private theorem Confined.declared (h : s.Confined unit) {id : TypeId} {middle : Graph}
    (ha : Scope.Awaits s.store.graph name s.scope.artifact? middle id)
    (hrun : inScope (·.declare name unit) s =
      (.ok id, Twins.declaredState s unit name middle id)) :
    (Twins.declaredState s unit name middle id).Confined unit := by
  have hk : Keeps (PassesOn unit) (inScope (·.declare name unit)) := Guarantee.declare name
  have hsound := hk.of_run hrun h.sound
  refine ⟨hsound, h.scope.withDeclared name id, h.answers, ?_⟩
  obtain ⟨x, hx, -, hh, hc⟩ := ha.1
  have hplaced := (Twins.placed_of_awaits unit ha).since
  change (middle.withDeclaration id unit s.scope.artifact?).Sole
    (s.scope.withDeclared name id).artifact?
  rw [Scope.artifact?_withDeclared]
  exact h.sole.of_since (hplaced.declared hx hc) h.unit_known

private theorem staysConfined_resolve (name : QualifiedName) :
    Keeps (Stays (Confined unit)) (inScope (·.resolve name unit)) := by
  constructor
  intro s h
  rcases h.lookup name with ⟨id, x, -, hl, -⟩ | ⟨hl, -⟩
  · rw [inScope_ok (Scope.resolve_found hl)]
    exact h.found hl
  · rw [inScope_ok (Scope.resolve_missing h.sound.1 h.sound.2 hl).2]
    exact h.missing hl

private theorem staysConfined_record {α : Type} (action : GraphAction α)
    (hl : Keeps Graph.SameLedger action) : Keeps (Stays (Confined unit)) (onGraph action) := by
  constructor
  intro s h
  exact ⟨(keeps_onGraph action hl).keeps s h.sound, h.scope, h.answers,
    h.sole.of_sameLedger (hl.keeps s.store.graph)⟩

instance : Guarantee unit (Stays (Confined unit)) where
  report _ := ⟨fun _ h => h.of_eq rfl rfl⟩
  note source target := by
    constructor
    intro s h
    unfold noteDependency
    split <;> exact h.of_eq rfl rfl
  resolve := staysConfined_resolve
  require name := by
    constructor
    intro s h
    rw [h.require_eq]
    exact (staysConfined_resolve name).keeps s h
  declare name := by
    constructor
    intro s h
    rcases Twins.inScope_declare_cases h.sound rfl name with ⟨_, -, hrun⟩ | ⟨id, middle, ha, hrun⟩
    · rw [hrun]
      exact h
    · rw [hrun]
      exact h.declared ha hrun
  record action hl _ := staysConfined_record action hl
  mainType _ := staysConfined_record _ inferInstance

/-! ### Steps in the global scope -/

/-- What is done in the graph without looking at artifacts. -/
instance {α : Type} (action : GraphAction α) [h : Commutes Graph.forgotten action] :
    Commutes globally (onGraph action) :=
  commutes_onGraph h (fun _ => rfl) fun _ _ => rfl

/-- What is said about the file. -/
instance (diagnostic : Diagnostic) : Commutes globally (report diagnostic) := ⟨fun _ => rfl⟩

/-- A reference that is kept back. -/
instance (source target : TypeId) : Commutes globally (noteDependency source target) :=
  commutes_noteDependency source target fun _ => rfl

/-- A reference has the same answer in the global scope. -/
theorem Confined.resolve {site : ReferenceSite} (h : s.Confined site.source.unit)
    (name : QualifiedName) (place : Token) : CommutesAt globally (site.resolve name place) s := by
  unfold CommutesAt
  rcases h.lookup name with ⟨id, x, -, hl, hl'⟩ | ⟨hl, hl'⟩
  · rw [ReferenceSite.resolve_found place hl, ReferenceSite.resolve_found place hl']
    rfl
  · rw [(ReferenceSite.resolve_missing place h.sound hl).2,
      (ReferenceSite.resolve_missing place h.sound_globally hl').2]
    simp only [globally_missing]
    simp [globally, Graph.without]

/-- The answer is known. -/
theorem Confined.resolve_known {site : ReferenceSite} (h : s.Confined site.source.unit)
    {place : Token} {id : TypeId} {t : ScanState} (hrun : site.resolve name place s = (.ok id, t)) :
    ∃ x, t.store.graph.types.get? id = some x := by
  rcases h.lookup name with ⟨id, x, hx, hl, -⟩ | ⟨hl, -⟩
  · rw [ReferenceSite.resolve_found place hl] at hrun
    cases hrun
    exact ⟨x, hx⟩
  · rw [(ReferenceSite.resolve_missing place h.sound hl).2] at hrun
    cases hrun
    obtain ⟨_, hx⟩ := get?_missing (s := s) name site.source.unit rfl
    exact ⟨_, hx⟩

/-- A declaration is a duplicate or completes a placeholder, as it does in the global scope. -/
theorem Confined.declare (h : s.Confined unit) (name : QualifiedName) :
    CommutesAt globally (inScope (·.declare name unit)) s := by
  unfold CommutesAt
  have hsound := h.sound_globally
  have hc := h.sound.1.consistent
  have hc' := hsound.1.consistent
  rcases Twins.inScope_declare_cases h.sound rfl name with
    ⟨existing, hd, hrun⟩ | ⟨id, middle, ha, hrun⟩ <;>
  rcases Twins.inScope_declare_cases hsound rfl name with
    ⟨existing', hd', hrun'⟩ | ⟨id', middle', ha', hrun'⟩
  · rw [hrun, hrun', Twins.declaredAs_unique hc' hd' (Graph.declaredAs_forgotten hd)]
  · exact absurd (Graph.declaredAs_forgotten hd) (Twins.not_declared_of_awaits hc' ha')
  · exact absurd hd' (Twins.not_declared_of_awaits hc' (ha.forgotten h.sole))
  · obtain ⟨rfl, rfl⟩ := ha'.unique (ha.forgotten h.sole) hc'
    rw [hrun, hrun', globally_declaredState]

/-- The scan of a unit does not see that the artifact is there and not the global scope. -/
theorem oblivious_globally (source : SourceUnit) :
    Oblivious source (Confined source.unit) globally where
  stays := inferInstance
  types s id := by
    change (s.store.graph.forgotten.types.get? id).map _ = _
    simp only [Graph.without, Arena.get?_map, Option.map_map]
    congr 1
    exact funext TypeNode.forgotten_forgotten
  dependencies _ := rfl
  report _ _ := inferInstance
  note := inferInstance
  record action h := by
    have : Commutes Graph.forgotten action := h .forgetting
    infer_instance
  resolve name place h hu := Confined.resolve (by rw [hu]; exact h) name place
  known h hu hrun := Confined.resolve_known (by rw [hu]; exact h) hrun
  declare name h := h.declare name
  declared h hrun := h.sound.declared_known hrun

end ScanState

end JavaGraph
