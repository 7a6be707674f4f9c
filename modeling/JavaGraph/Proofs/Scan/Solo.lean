import JavaGraph.Proofs.Scan.Resolving
/-!
# A scan with and without others before it

The scope of an artifact without dependencies answers every name with the type of its universe. So
a file is scanned in tandem with itself whether or not other files have been scanned before, as long
as those have declared none of its names.
-/

namespace JavaGraph

open List (Forall₂)
open JavaGraph.Action
open JavaGraph.Graph (SameType SameUnit Since)

/-! ### Scopes without dependencies -/

namespace Scope

/-- The scope of an artifact without dependencies. -/
def Independent (scope : Scope) : Prop :=
  ∃ own, scope = .ofArtifact own ∧ own.dependencies = [] ∧ ∀ name, own.borrowed.find? name = none

variable {scope : Scope} {graph : Graph} {answers : Bool} {name : QualifiedName}

/-- A scope without dependencies has exactly the types of its universe. -/
theorem Independent.lookup (h : scope.Independent) (hs : Sound graph scope) (answers : Bool)
    (name : QualifiedName) :
    (∃ id, scope.lookup name ⟨graph, answers⟩ = .ok (some id) ∧
      graph.label id = some (name, scope.artifact?)) ∨
    scope.lookup name ⟨graph, answers⟩ = .ok none := by
  obtain ⟨own, rfl, hd, hb⟩ := h
  have hc : own.cached? name = own.known.find? name := by
    unfold ArtifactScope.cached?
    rw [hb, Option.or_none]
  unfold Scope.lookup
  simp only [hc, hd, List.isEmpty_nil, if_pos]
  cases hk : own.known.find? name with
  | some id =>
    obtain ⟨x, hx, hn, hh⟩ := (ArtifactScope.Fits.known_iff hs.fits).1 hk
    refine .inl ⟨id, rfl, ?_⟩
    rw [Graph.label_of_get? hx, hn, hh]
    rfl
  | none => exact .inr rfl

/-- The scope stays without dependencies. -/
theorem Independent.withFound (h : scope.Independent) {id : TypeId}
    (hl : scope.lookup name ⟨graph, answers⟩ = .ok (some id)) :
    (scope.withFound name id).Independent := by
  obtain ⟨own, rfl, hd, hb⟩ := h
  unfold Scope.lookup at hl
  unfold Scope.withFound
  simp only at hl ⊢
  cases hc : own.cached? name with
  | some known => exact ⟨own, rfl, hd, hb⟩
  | none =>
    rw [hc] at hl
    simp [hd] at hl

/-- The scope stays without dependencies. -/
theorem Independent.withCreated (h : scope.Independent) (name : QualifiedName) (id : TypeId) :
    (scope.withCreated name id).Independent := by
  obtain ⟨own, rfl, hd, hb⟩ := h
  exact ⟨_, rfl, hd, hb⟩

/-- The scope stays without dependencies. -/
theorem Independent.withDeclared (h : scope.Independent) (name : QualifiedName) (id : TypeId) :
    (scope.withDeclared name id).Independent := by
  obtain ⟨own, rfl, hd, hb⟩ := h
  exact ⟨_, rfl, hd, hb⟩

end Scope

/-! ### Names that come in -/

namespace Graph

variable {graph : Graph} {name other : QualifiedName} {home : Universe}

/-- At most one name comes in. -/
def Gains (before after : Graph) (name : QualifiedName) (home : Universe) : Prop :=
  ∀ other, after.Has other home ↔ before.Has other home ∨ other = name

/-- A name that is there does not come in again. -/
theorem gains_refl (h : graph.Has name home) : Gains graph graph name home := by
  intro other
  constructor
  · exact .inl
  · rintro (ho | rfl)
    · exact ho
    · exact h

/-- The name of a new type comes in. -/
theorem gains_of_push {after : Graph} {x : TypeNode} (hn : x.name = name) (hh : x.home = home)
    (ht : ∀ k, after.types.get? k =
      if k = graph.types.nextId then some x else graph.types.get? k) :
    Gains graph after name home := by
  intro other
  constructor
  · rintro ⟨k, y, hy, hny, hhy⟩
    rw [ht] at hy
    split at hy
    · cases hy
      exact .inr (hny.symm.trans hn)
    · exact .inl ⟨k, y, hy, hny, hhy⟩
  · rintro (⟨k, y, hy, hny, hhy⟩ | rfl)
    · exact ⟨k, y, by rw [ht, if_neg (Arena.ne_nextId hy), hy], hny, hhy⟩
    · exact ⟨_, x, by rw [ht, if_pos rfl], hn, hh⟩

/-- A declaration brings in no name. -/
theorem has_withDeclaration {id : TypeId} {unit : UnitId} {artifact : Option ArtifactId} :
    (graph.withDeclaration id unit artifact).Has other home ↔ graph.Has other home := by
  rw [has_iff, has_iff]
  simp only [label_withDeclaration]

end Graph

/-! ### What an independent scope does -/

namespace ScanState

variable {s : ScanState} {unit : UnitId} {home : Universe} {name : QualifiedName}

/-- A reference in an independent scope has an answer of its name. -/
private theorem resolve_independent {site : ReferenceSite} (place : Token)
    (hs : s.Sound site.source.unit) (hh : s.scope.artifact? = home) (hi : s.scope.Independent)
    (name : QualifiedName) :
    ∃ id s', site.resolve name place s = (.ok id, s') ∧ s.Answered site.source.unit home s' id ∧
      s'.diagnostics = s.diagnostics ∧ s'.scope.Independent ∧
      s'.store.graph.label id = some (name, home) ∧
      Graph.Gains s.store.graph s'.store.graph name home := by
  subst hh
  have hlookup := hi.lookup hs.1 s.store.answers name
  rcases hlookup with ⟨id, hl, hlabel⟩ | hl
  · obtain ⟨x, hx, -⟩ := Graph.get?_of_label hlabel
    exact ⟨id, s.found name id, ReferenceSite.resolve_found place hl, answered_found _ _ ⟨x, hx⟩,
      rfl, hi.withFound hl, hlabel, Graph.gains_refl (Graph.has_iff.2 ⟨id, hlabel⟩)⟩
  · obtain ⟨-, hrun⟩ := ReferenceSite.resolve_missing place hs hl
    obtain ⟨holder, hk⟩ :=
      Graph.get?_withMissing s.store.graph name s.scope.artifact? site.source.unit
    refine ⟨_, _, hrun, answered_missing rfl, rfl, hi.withCreated name _, ?_,
      Graph.gains_of_push rfl rfl hk⟩
    exact Graph.label_of_get? ((hk _).trans (if_pos rfl))

end ScanState

namespace Twins

/-- What the second scan begins with has everything that the first one begins with, except for
placeholders that are declared since. -/
structure Based (P : Twins) : Prop where
  types : ∀ {id x}, P.start.types.get? id = some x → x.isComplete = true →
    P.start'.types.get? id = some x
  units : ∀ {k x}, P.start.units.get? k = some x → k ≠ P.source.unit →
    k ≠ P.source'.unit ∧ ∃ y, P.start'.units.get? k = some y ∧ y.path = x.path ∧
      y.artifact = x.artifact

/-- Both scopes are independent, and the second graph has a name exactly if it had it before or
the first graph has it. -/
structure Beside (P : Twins) (s t : ScanState) : Prop where
  scope : s.scope.Independent
  scope' : t.scope.Independent
  has : ∀ name, t.store.graph.Has name P.home ↔
    P.start'.Has name P.home ∨ s.store.graph.Has name P.home

/-- The names that the second unit can still declare, as far as the first one could. -/
def Free (P : Twins) (name : QualifiedName) : Prop :=
  ∀ unit', DeclaredAs P.start' name P.home unit' → ∃ unit, DeclaredAs P.start name P.home unit

variable {P : Twins} {s t : ScanState} {name : QualifiedName}

/-- The same name comes in on both sides. -/
private theorem Beside.gains {s' t' : ScanState} (h : P.Beside s t)
    (hs : s'.scope.Independent) (ht : t'.scope.Independent)
    (hg : Graph.Gains s.store.graph s'.store.graph name P.home)
    (hg' : Graph.Gains t.store.graph t'.store.graph name P.home) : P.Beside s' t' where
  scope := hs
  scope' := ht
  has other := by rw [hg', hg, h.has, or_assoc]

/-- A change that is not of names and states brings in no name. -/
theorem has_of_sameLedger {graph after : Graph} {home : Universe}
    (h : Graph.SameLedger graph after) : after.Has name home ↔ graph.Has name home := by
  constructor
  · rintro ⟨id, x, hx, hn, hh⟩
    obtain ⟨y, hy, hny, hhy, -⟩ := h.type hx
    exact ⟨id, y, hy, hny.trans hn, hhy.trans hh⟩
  · rintro ⟨id, x, hx, hn, hh⟩
    obtain ⟨y, hy, hny, hhy, -⟩ := h.type' hx
    exact ⟨id, y, hy, hny.trans hn, hhy.trans hh⟩

/-- What is recorded brings in no name. -/
private theorem Beside.stable {s' t' : ScanState} (h : P.Beside s t) (hs : SameScope s s')
    (ht : SameScope t t') : P.Beside s' t' where
  scope := by
    rw [hs.scope]
    exact h.scope
  scope' := by
    rw [ht.scope]
    exact h.scope'
  has name := by
    rw [has_of_sameLedger ht.ledger, has_of_sameLedger hs.ledger]
    exact h.has name

/-- A declaration brings in its name. -/
theorem gains_of_awaits {graph middle : Graph} {home : Universe} {id : TypeId} (unit : UnitId)
    (artifact : Option ArtifactId) (ha : Scope.Awaits graph name home middle id) :
    Graph.Gains graph (middle.withDeclaration id unit artifact) name home := by
  intro other
  rw [Graph.has_withDeclaration]
  obtain ⟨⟨x, hx, hn, hh, -⟩, rfl | ⟨rfl, -, -⟩⟩ := ha
  · exact Graph.gains_refl ⟨id, x, hx, hn, hh⟩ other
  · have ht : ∀ k, (graph.withType name home).types.get? k =
        if k = graph.types.nextId then some { name, home } else graph.types.get? k :=
      fun k => Arena.get?_push ..
    exact Graph.gains_of_push rfl rfl ht other

/-- A declaration brings in the name on both sides. -/
private theorem Beside.declared (h : P.Beside s t) {id id' : TypeId} {middle middle' : Graph}
    (ha : Scope.Awaits s.store.graph name P.home middle id)
    (ha' : Scope.Awaits t.store.graph name P.home middle' id') :
    P.Beside (declaredState s P.source.unit name middle id)
      (declaredState t P.source'.unit name middle' id') :=
  h.gains (h.scope.withDeclared name id) (h.scope'.withDeclared name id') (gains_of_awaits _ _ ha)
    (gains_of_awaits _ _ ha')

/-- Both scans resolve a name to the type of its name. -/
private theorem runs_resolve_solo {admits : QualifiedName → Prop} {mayFail : Prop}
    {w : Graph × Graph} {site site' : ReferenceSite} (hw : ¬ P.whole) (name : QualifiedName)
    (place : Token) (hu : site.source = P.source) (hu' : site'.source = P.source') :
    (P.tandem P.Beside admits mayFail).Runs w
      (fun w a b => SameType w.1 w.2 a b ∧ (P.whole → P.Answers w.1 a))
      (site.resolve name place) (site'.resolve name place) := by
  intro s t hs
  have hp := hs.2.1
  have hq : P.Beside s t := hs.2.2
  have he := hs.1
  subst he
  have hsound : s.Sound site.source.unit := by
    rw [hu]
    exact hp.sound
  have hsound' : t.Sound site'.source.unit := by
    rw [hu']
    exact hp.sound'
  obtain ⟨id, s', hrun, ha, hd, hi, hl, hg⟩ :=
    ScanState.resolve_independent place hsound hp.scope hq.scope name
  obtain ⟨id', t', hrun', ha', hd', hi', hl', hg'⟩ :=
    ScanState.resolve_independent place hsound' hp.scope' hq.scope' name
  rw [hu] at ha
  rw [hu'] at ha'
  refine outcome_resolved hs hu hu' hrun hrun' ha ha' ?_ ⟨_, hl, hl'⟩ (fun h => absurd h hw)
    (hq.gains hi hi' hg hg')
  rw [hd, hd']
  exact hp.diagnostics

/-- A unit that was there is the same in both graphs. -/
private theorem sameUnit_of_based (hb : P.Based) (hp : P.Paired s t) {unit : UnitId}
    {x : CompilationUnit} (hx : s.store.graph.units.get? unit = some x)
    (hk : unit ≠ P.source.unit) : SameUnit s.store.graph t.store.graph unit unit := by
  have ho := hp.graphs.since.others hk
  rw [hx] at ho
  obtain ⟨y, hy, hxy⟩ := Option.map_eq_some_iff.1 ho.symm
  obtain ⟨hk', z, hz, hpath, hartifact⟩ := hb.units hy hk
  have ho' := hp.graphs.since'.others hk'
  rw [hz] at ho'
  obtain ⟨u, hu, huz⟩ := Option.map_eq_some_iff.1 ho'
  have hpx : (Graph.outline y).path = (Graph.outline x).path := by rw [hxy]
  have hpu : (Graph.outline u).path = (Graph.outline z).path := by rw [huz]
  have hax : (Graph.outline y).artifact = (Graph.outline x).artifact := by rw [hxy]
  have hau : (Graph.outline u).artifact = (Graph.outline z).artifact := by rw [huz]
  exact ⟨x, u, hx, hu, hpx.symm.trans (hpath.symm.trans hpu.symm),
    hax.symm.trans (hartifact.symm.trans hau.symm)⟩

/-- A scan is in tandem with the same scan after others in the artifact. -/
theorem lookup_solo (hready : P.Ready) (hblank : Blank P.start) (hblank' : Blank P.start')
    (hb : P.Based) (hw : ¬ P.whole) : P.Lookup P.Beside P.Free False where
  ready := hready
  blank := hblank
  blank' := hblank'
  stable h hs ht := h.stable hs ht
  resolve name place hsites := runs_resolve_solo hw name place hsites.source hsites.source'
  kind h := absurd h hw
  duplicate := by
    intro s t name unit hp hq hd
    obtain ⟨id, x, hx, hn, hh, hs⟩ := hd
    by_cases hk : unit = P.source.unit
    · subst hk
      obtain ⟨id', y, hy, hxy⟩ := hp.graphs.owned hx hs
      obtain ⟨u, v, hu, hv, huv⟩ := hp.graphs.unit
      exact ⟨P.source'.unit, ⟨id', y, hy, hxy.name.symm.trans hn, hxy.home.symm.trans hh,
        hxy.state hs⟩, u, v, hu, hv, huv.path, huv.artifact⟩
    · have hc : x.isComplete = true := TypeNode.isComplete_eq_true.2 ⟨unit, hs⟩
      have hne : x.state ≠ .complete P.source.unit := by
        rw [hs]
        exact fun he => hk (TypeState.complete.inj he)
      obtain ⟨node, hnode, -⟩ := hp.sound.1.consistent.complete_declared hx hs
      rcases hp.graphs.since.back hx hne with hstart | ⟨-, _, _, rfl⟩
      · have hstart' := hb.types hstart hc
        exact ⟨unit, ⟨id, x, hp.graphs.since'.foreign hstart' hc (hready.new' hstart'), hn, hh, hs⟩,
          sameUnit_of_based hb hp hnode hk⟩
      · cases hc
  duplicate' := by
    intro s t name unit' hp hq hfree hd
    obtain ⟨id', y, hy, hn, hh, hs⟩ := hd
    by_cases hk : unit' = P.source'.unit
    · subst hk
      obtain ⟨id, x, hx, hxy⟩ := hp.graphs.owned' hy hs
      exact ⟨P.source.unit, id, x, hx, hxy.name.trans hn, hxy.home.trans hh, hxy.state' hs⟩
    · have hc : y.isComplete = true := TypeNode.isComplete_eq_true.2 ⟨unit', hs⟩
      have hne : y.state ≠ .complete P.source'.unit := by
        rw [hs]
        exact fun he => hk (TypeState.complete.inj he)
      rcases hp.graphs.since'.back hy hne with hstart | ⟨-, _, _, rfl⟩
      · obtain ⟨unit, id, x, hx, hnx, hhx, hsx⟩ := hfree unit' ⟨id', y, hstart, hn, hh, hs⟩
        have hcx : x.isComplete = true := TypeNode.isComplete_eq_true.2 ⟨unit, hsx⟩
        exact ⟨unit, id, x, hp.graphs.since.foreign hx hcx (hready.new hx), hnx, hhx, hsx⟩
      · cases hc
  declared := fun hp hq ha ha' => Beside.declared hq ha ha'

end Twins

end JavaGraph
