import JavaGraph.Proofs.Graph.Universes
import JavaGraph.Proofs.Scan.Solo
import JavaGraph.Proofs.Scan.Tidy
/-!
# Scans of one file abreast

One file is scanned into two graphs that correspond in the universe of the scan, and that have the
same declared types in its dependencies; in other universes they may differ. The two scans meet the
same types under all names, and what they leave corresponds again.
-/

/-!
## Units of other universes

A new unit declares types of its own universe, and brings in placeholders there. What belongs to
another universe stays as it is, to the last node.
-/

namespace JavaGraph.Graph

open List (Forall₂)

variable {graph after other : Graph} {home elsewhere : Universe} {unit : UnitId}

/-- What a unit leaves alone keeps its place, if the unit declares nothing to begin with. -/
theorem Since.keepsPlaces (h : Since unit home graph after) (hb : Twins.Blank graph)
    (hn : ∀ {id x}, graph.types.get? id = some x → x.state ≠ .complete unit) :
    KeepsPlaces graph after where
  extended := h.extended
  members {id x} hx := by
    cases hc : x.isComplete with
    | true => exact ⟨x, h.foreign hx hc (hn hx), List.prefix_refl _, List.prefix_refl _⟩
    | false =>
      -- A placeholder has no members, whoever declares it.
      obtain ⟨holder, hblank⟩ := hb hx hc
      obtain ⟨y, hy, -⟩ := h.known hx
      rw [hblank]
      exact ⟨y, hy, List.nil_prefix, List.nil_prefix⟩

/-- A new unit of one universe has come in, and this is about another universe. -/
structure Elsewhere (home elsewhere : Universe) (before after : Graph) : Prop where
  ne : elsewhere ≠ home
  since : Since before.units.nextId elsewhere before after
  own : ∀ {id x}, after.types.get? id = some x → x.state = .complete before.units.nextId →
    x.home = elsewhere
  unit : ∀ {x}, after.units.get? before.units.nextId = some x → x.artifact = elsewhere
  uses : NewUses before after
  artifact : ∀ id, home = some id → after.artifacts.get? id = before.artifacts.get? id

namespace Elsewhere

variable (h : Elsewhere home elsewhere graph after) (hc : graph.Consistent)
include h hc

/-- The types of the universe stay as they are. -/
theorem type_iff {id : TypeId} {x : TypeNode} (hh : x.home = home) :
    after.types.get? id = some x ↔ graph.types.get? id = some x := by
  constructor
  · intro hx
    rcases h.since.back hx fun hs => h.ne ((h.own hx hs).symm.trans hh) with hx' | ⟨-, _, _, rfl⟩
    · exact hx'
    · exact absurd hh h.ne
  · intro hx
    cases hi : x.isComplete with
    | true => exact h.since.foreign hx hi (Twins.declares_nothing hc hx)
    | false =>
      rcases h.since.placeholder hx hi with hy | ⟨y, hy, hs⟩
      · exact hy
      · obtain ⟨z, hz, -, hhz⟩ := h.since.known hx
        cases hy.symm.trans hz
        exact absurd ((h.own hy hs).symm.trans (hhz.trans hh)) h.ne

/-- A unit of the universe is released from nothing. -/
private theorem unit_eq {k : UnitId} {x y : CompilationUnit} (hx : graph.units.get? k = some x)
    (hy : after.units.get? k = some y) (hh : x.artifact = home) : y = x := by
  have hk : k ≠ graph.units.nextId := Arena.ne_nextId hx
  have ho := h.since.others hk
  rw [hx, hy] at ho
  have houtline : outline y = outline x := Option.some.inj ho
  obtain ⟨p, hp, hfree⟩ := h.since.requires hk hx hy
  have hrequired : y.requiredTypes = x.requiredTypes := by
    rw [hp, List.filter_eq_self]
    intro id hid
    obtain ⟨z, hz, hi, -, hhz⟩ := hc.required_placeholder hx hid
    cases hpi : p id with
    | true => rfl
    | false =>
      obtain ⟨z', hz', hi'⟩ := hfree hpi
      rw [(h.type_iff hc (hhz.trans hh)).2 hz] at hz'
      cases hz'
      rw [hi] at hi'
      cases hi'
  obtain ⟨path, package, artifact, mayNotCompile, declaredTypes, mainType, required, deps⟩ := x
  obtain ⟨path', package', artifact', mayNotCompile', declaredTypes', mainType', required', deps'⟩ :=
    y
  simp only [outline, CompilationUnit.mk.injEq] at houtline hrequired ⊢
  obtain ⟨hpath, hpackage, hartifact, hmay, hdeclared, hmain, -, hdeps⟩ := houtline
  exact ⟨hpath, hpackage, hartifact, hmay, hdeclared, hmain, hrequired, hdeps⟩

/-- The units of the universe stay as they are. -/
theorem unit_iff {k : UnitId} {x : CompilationUnit} (hh : x.artifact = home) :
    after.units.get? k = some x ↔ graph.units.get? k = some x := by
  constructor
  · intro hx
    have hk : k ≠ graph.units.nextId := by
      rintro rfl
      exact h.ne ((h.unit hx).symm.trans hh)
    have ho := h.since.others hk
    rw [hx] at ho
    obtain ⟨y, hy, hyx⟩ := Option.map_eq_some_iff.1 ho.symm
    have hhy : y.artifact = home := (congrArg (·.artifact) hyx).trans hh
    rw [h.unit_eq hc hy hx hhy]
    exact hy
  · intro hx
    obtain ⟨y, hy, -⟩ := h.since.extended.unit hx
    rw [← h.unit_eq hc hx hy hh]
    exact hy

/-- A type of the universe is matched as it was before. -/
private theorem sameType {a b : TypeId} {x : TypeNode} (hab : SameType after other a b)
    (hx : after.types.get? a = some x) (hh : x.home = home) : SameType graph other a b := by
  obtain ⟨l, ha, hb⟩ := hab
  rw [label_of_get? hx] at ha
  cases ha
  exact ⟨_, label_of_get? ((h.type_iff hc hh).1 hx), hb⟩

/-- What corresponds in the universe goes on to do so. -/
theorem corresponds (hb : Twins.Blank graph) (hco : CorrespondsIn home graph other) :
    CorrespondsIn home after other where
  types name := by
    refine Iff.trans ?_ (hco.types name)
    constructor
    · rintro ⟨id, x, hx, hn, hh⟩
      exact ⟨id, x, (h.type_iff hc hh).1 hx, hn, hh⟩
    · rintro ⟨id, x, hx, hn, hh⟩
      exact ⟨id, x, (h.type_iff hc hh).2 hx, hn, hh⟩
  type := by
    intro a b x y hab hx hy hh
    exact (hco.type (h.sameType hc hab hx hh) ((h.type_iff hc hh).1 hx) hy hh).mono
      h.since.extended (.refl other)
  accesses := by
    intro a b x y f g place hab hx hy hh hf hg
    have hab' := h.sameType hc hab hx hh
    have hx' := (h.type_iff hc hh).1 hx
    obtain ⟨-, -, ⟨node, -, hnode, -⟩⟩ := getElem?_of_forall₂
      (hco.type hab' hx' hy hh).alike.functions hf
    rw [h.uses.accessesFrom hnode]
    exact uses_mono (h.since.keepsPlaces hb fun hx => Twins.declares_nothing hc hx) (.refl other)
      (hco.accesses hab' hx' hy hh hf hg)
  units path := by
    refine Iff.trans ?_ (hco.units path)
    constructor
    · rintro ⟨id, x, hx, hp, hh⟩
      exact ⟨id, x, (h.unit_iff hc hh).1 hx, hp, hh⟩
    · rintro ⟨id, x, hx, hp, hh⟩
      exact ⟨id, x, (h.unit_iff hc hh).2 hx, hp, hh⟩
  unit := by
    rintro a b x y ⟨x', y', hx', hy', hp, he⟩ hx hy hh
    cases hx.symm.trans hx'
    cases hy.symm.trans hy'
    have hx' := (h.unit_iff hc hh).1 hx
    exact (hco.unit ⟨x, y, hx', hy, hp, he⟩ hx' hy hh).mono h.since.extended (.refl other)
  artifact id hid := by
    rw [h.artifact id hid]
    exact rel_imp (fun hm => hm.mono h.since.extended (.refl other)) (hco.artifact id hid)

end Elsewhere

end JavaGraph.Graph

/-! ## The two scans -/

namespace JavaGraph

open List (Forall₂)
open JavaGraph.Action
open JavaGraph.Graph (SameType SameUnit Since CorrespondsIn)

/-! ### Scans that begin alike -/

namespace Twins

/-- Both graphs correspond in the universe of the scan when it begins, and have the same declared
types in the dependencies. -/
structure Even (P : Twins) (dependencies : List ArtifactId) : Prop where
  ready : P.Ready
  tidy : P.start.Tidy
  tidy' : P.start'.Tidy
  unit : SameUnit P.start P.start' P.source.unit P.source'.unit
  corresponds : CorrespondsIn P.home P.start P.start'
  lent : ∀ owner ∈ dependencies, some owner ≠ P.home →
    Graph.SameDeclared owner P.start P.start'

/-- A declared type of another universe that both scans find as it is. -/
abbrev Lent (P : Twins) : TypeId → Prop := Graph.Lends P.home P.start P.start'

/-- Both scopes answer alike, and the universes have the same names and requirements. -/
structure Abreast (P : Twins) (dependencies : List ArtifactId) (s t : ScanState) : Prop where
  scopes : Scope.Peers dependencies P.Lent s.scope t.scope
  answers : s.store.answers = t.store.answers
  has : ∀ name, s.store.graph.Has name P.home ↔ t.store.graph.Has name P.home
  requires : Graph.RequiresAlike P.home s.store.graph t.store.graph

variable {P : Twins} {deps : List ArtifactId} {s t s' t' : ScanState} {name : QualifiedName}
  {admits : QualifiedName → Prop} {mayFail : Prop} {w : Graph × Graph}

/-- A lent type stays the same for both scans. -/
theorem Even.lends (he : P.Even deps) (hp : P.Paired s t) {id : TypeId} (hl : P.Lent id) :
    Graph.Lends P.home s.store.graph t.store.graph id := by
  obtain ⟨x, hx, hx', hc, hh⟩ := hl
  exact ⟨x, hp.graphs.since.foreign hx hc (he.ready.new hx),
    hp.graphs.since'.foreign hx' hc (he.ready.new' hx'), hc, hh⟩

/-- The new units are matched with each other. -/
theorem Even.unit_iff (he : P.Even deps) {g g' : Graph}
    (hg : Since P.source.unit P.home P.start g) (hg' : Since P.source'.unit P.home P.start' g')
    {a b : UnitId} (hab : SameUnit g g' a b) : a = P.source.unit ↔ b = P.source'.unit := by
  obtain ⟨u, v, hu, hv, hpath, hartifact⟩ := he.unit
  obtain ⟨x, y, hx, hy, hp, ha⟩ := hab
  obtain ⟨x', hx', hpx, hax⟩ := hg.unit_back ⟨u, hu⟩ hx
  obtain ⟨y', hy', hpy, hay⟩ := hg'.unit_back ⟨v, hv⟩ hy
  constructor
  · rintro rfl
    cases hx'.symm.trans hu
    exact he.tidy'.path hy' hv (by rw [hpy, ← hp, ← hpx, hpath]) (by rw [hay, ← ha, ← hax, hartifact])
  · rintro rfl
    cases hy'.symm.trans hv
    exact he.tidy.path hx' hu (by rw [hpx, hp, ← hpy, hpath]) (by rw [hax, ha, ← hay, hartifact])

/-! ### Matched types -/

/-- A type of the universe that was there is matched with one that was there. -/
private theorem known_of_sameType {home : Universe} {start start' g g' : Graph}
    (he : Graph.Extends start g) (he' : Graph.Extends start' g')
    (hu : ∀ {a b x y}, g'.types.get? a = some x → g'.types.get? b = some y → x.name = y.name →
      x.home = y.home → a = b)
    (hhas : ∀ {name}, start.Has name home → start'.Has name home) {a b : TypeId} {x : TypeNode}
    (hab : SameType g g' a b) (hx : start.types.get? a = some x) (hh : x.home = home) :
    ∃ y, start'.types.get? b = some y ∧ SameType start start' a b := by
  obtain ⟨l, hl, hl'⟩ := hab
  rw [he.label (Graph.label_of_get? hx)] at hl
  cases hl
  obtain ⟨k, y, hy, hn, hhy⟩ := hhas ⟨a, x, hx, rfl, hh⟩
  have hly := Graph.label_of_get? hy
  rw [hn, hhy, ← hh] at hly
  obtain ⟨z, hz, hez⟩ := Graph.get?_of_label hl'
  obtain ⟨z', hz', hez'⟩ := Graph.get?_of_label (he'.label hly)
  simp only [Prod.mk.injEq] at hez hez'
  obtain rfl := hu hz hz' (hez.1.trans hez'.1.symm) (hez.2.trans hez'.2.symm)
  exact ⟨y, hy, _, Graph.label_of_get? hx, hly⟩

/-- A declared type of the second universe is matched with a declared one. -/
private theorem Even.complete' (he : P.Even deps) (hp : P.Paired s t) {a b : TypeId}
    {x y : TypeNode} (hab : SameType s.store.graph t.store.graph a b)
    (hx : s.store.graph.types.get? a = some x) (hy : t.store.graph.types.get? b = some y)
    (hh : y.home = P.home) (hc : y.isComplete = true) : x.isComplete = true := by
  by_cases hs : y.state = .complete P.source'.unit
  · obtain ⟨a', x', hx', hxy⟩ := hp.graphs.owned' hy hs
    obtain rfl := (hp.injective hab (.of_get? hx' hy hxy.name hxy.home)).2 rfl
    cases hx.symm.trans hx'
    exact TypeNode.isComplete_eq_true.2 ⟨_, hxy.state' hs⟩
  · rcases hp.graphs.since'.back hy hs with hy' | ⟨-, _, _, rfl⟩
    · obtain ⟨l, hl, hl'⟩ := hab
      obtain ⟨z, hz, l', hlb, hla⟩ := known_of_sameType hp.graphs.since'.extended
        hp.graphs.since.extended (fun hx hy => hp.sound.1.consistent.unique hx hy)
        (he.corresponds.types _).2 ⟨l, hl', hl⟩ hy' hh
      have hsame : SameType P.start P.start' a b := ⟨l', hla, hlb⟩
      have hlz := hla
      rw [Graph.label_of_get? hz] at hlz
      rw [Graph.label_of_get? hy'] at hlb
      cases hlz
      simp only [Option.some.injEq, Prod.mk.injEq] at hlb
      have hcz := (he.corresponds.type hsame hz hy' (hlb.2.symm.trans hh)).isComplete_eq.trans hc
      cases hx.symm.trans (hp.graphs.since.foreign hz hcz (he.ready.new hz))
      exact hcz
    · cases hc

/-- How two types of one name come to be in the universe. -/
inductive Standing (P : Twins) (g g' : Graph) (a b : TypeId) : TypeNode → TypeNode → Prop where
  /-- Both units declare them. -/
  | declared {x y : TypeNode} : x.state = .complete P.source.unit → P.NodesAlike g g' x y →
      Standing P g g' a b x y
  /-- They were declared before. -/
  | kept {x y : TypeNode} : P.start.types.get? a = some x → P.start'.types.get? b = some y →
      SameType P.start P.start' a b → x.isComplete = true → Standing P g g' a b x y
  /-- Nobody declares them. -/
  | blank (name : QualifiedName) (holder holder' : Option UnitId) :
      Standing P g g' a b (Graph.blank name P.home (.incomplete holder))
        (Graph.blank name P.home (.incomplete holder'))

/-- Matched types of the universe have come to be there in the same way. -/
theorem Even.standing (he : P.Even deps) (hp : P.Paired s t) {a b : TypeId} {x y : TypeNode}
    (hab : SameType s.store.graph t.store.graph a b) (hx : s.store.graph.types.get? a = some x)
    (hy : t.store.graph.types.get? b = some y) (hh : x.home = P.home) :
    P.Standing s.store.graph t.store.graph a b x y := by
  obtain ⟨x', y', hx', hy', hn, hhome⟩ := hab.get?
  cases hx.symm.trans hx'
  cases hy.symm.trans hy'
  cases hc : x.isComplete with
  | true =>
    by_cases hs : x.state = .complete P.source.unit
    · obtain ⟨b', z, hz, hxz⟩ := hp.graphs.owned hx hs
      obtain rfl := (hp.injective hab (.of_get? hx hz hxz.name hxz.home)).1 rfl
      cases hy.symm.trans hz
      exact .declared hs hxz
    · rcases hp.graphs.since.back hx hs with hx' | ⟨-, _, _, rfl⟩
      · obtain ⟨z, hz, hsame⟩ := known_of_sameType hp.graphs.since.extended
          hp.graphs.since'.extended (fun hx hy => hp.sound'.1.consistent.unique hx hy)
          (he.corresponds.types _).1 hab hx' hh
        have hcz := (he.corresponds.type hsame hx' hz hh).isComplete_eq.symm.trans hc
        cases hy.symm.trans (hp.graphs.since'.foreign hz hcz (he.ready.new' hz))
        exact .kept hx' hz hsame hc
      · cases hc
  | false =>
    have hcy : y.isComplete = false := by
      cases hcy : y.isComplete with
      | false => rfl
      | true => exact absurd (he.complete' hp hab hx hy (hhome.symm.trans hh) hcy) (by simp [hc])
    have hblank : ∀ {start g : Graph} {unit : UnitId} {id : TypeId} {z : TypeNode}, Blank start →
        Since unit P.home start g → g.types.get? id = some z → z.isComplete = false →
        ∃ holder, z = Graph.blank z.name z.home (.incomplete holder) := by
      intro start g unit id z hb hs hz hi
      have hne : z.state ≠ .complete unit := by
        intro hs
        rw [TypeNode.isComplete_eq_true.2 ⟨unit, hs⟩] at hi
        cases hi
      rcases hs.back hz hne with hz' | ⟨-, _, holder, rfl⟩
      · exact hb hz' hi
      · exact ⟨holder, rfl⟩
    obtain ⟨holder, hbx⟩ := hblank he.tidy.blank hp.graphs.since hx hc
    obtain ⟨holder', hby⟩ := hblank he.tidy'.blank hp.graphs.since' hy hcy
    rw [hbx, hby, ← hn, ← hhome, hh]
    exact .blank x.name holder holder'

/-! ### What both scopes do -/

/-- A type that is declared elsewhere is the same as when the scan began. -/
private theorem get?_elsewhere {start : Graph} {unit : UnitId} {home : Universe} (hs : s.Sound unit)
    (hh : s.scope.artifact? = home) (hg : Since unit home start s.store.graph)
    (hn : ∀ {id x}, start.types.get? id = some x → x.state ≠ .complete unit) {id : TypeId}
    {x : TypeNode} (hc : x.isComplete = true) (ha : x.artifact ≠ home) :
    s.store.graph.types.get? id = some x ↔ start.types.get? id = some x := by
  constructor
  · intro hx
    have hne : x.state ≠ .complete unit := fun hsx =>
      ha ((hs.1.consistent.artifact_eq_home hx hc).trans ((hs.home_of_complete hx hsx).trans hh))
    rcases hg.back hx hne with hx' | ⟨-, _, _, rfl⟩
    · exact hx'
    · cases hc
  · exact fun hx => hg.foreign hx hc (hn hx)

/-- The dependencies go on to have the same declared types. -/
theorem Even.sameDeclared (he : P.Even deps) (hp : P.Paired s t) {owner : ArtifactId}
    (ho : owner ∈ deps) (hne : some owner ≠ P.home) :
    Graph.SameDeclared owner s.store.graph t.store.graph := by
  intro id x hc ha
  have hx : x.artifact ≠ P.home := ha ▸ hne
  rw [get?_elsewhere hp.sound hp.scope hp.graphs.since he.ready.new hc hx,
    get?_elsewhere hp.sound' hp.scope' hp.graphs.since' he.ready.new' hc hx]
  exact he.lent owner ho hne id x hc ha

/-- What the dependencies have for a name that the universe does not have. -/
private theorem Even.borrows (he : P.Even deps) (hp : P.Paired s t)
    (hhas : s.store.graph.Has name P.home ↔ t.store.graph.Has name P.home)
    (hn : ¬ s.store.graph.Has name P.home) :
    t.store.graph.typeDeclaredInAny? name deps = s.store.graph.typeDeclaredInAny? name deps ∧
      ∀ id, s.store.graph.typeDeclaredInAny? name deps = some id → P.Lent id := by
  have hc := hp.sound.1.consistent
  have hc' := hp.sound'.1.consistent
  -- What declares the name is not the universe.
  have hne : ∀ {graph : Graph} {owner id}, graph.Consistent → ¬ graph.Has name P.home →
      graph.typeDeclaredIn? name owner = some id → some owner ≠ P.home := by
    intro graph owner id hc hn hid ho
    obtain ⟨x, hx, hnx, hcx, hax⟩ := (Graph.typeDeclaredIn?_eq_some_iff hc).1 hid
    exact hn ⟨id, x, hx, hnx, (hc.artifact_eq_home hx hcx).symm.trans (hax.trans ho)⟩
  constructor
  · refine findSome?_eq_of_forall₂ (List.forall₂_same.2 fun owner ho => ?_) id
    refine Option.ext fun id => ⟨fun hid => ?_, fun hid => ?_⟩
    · have hsame := he.sameDeclared hp ho (hne hc' (fun h => hn (hhas.2 h)) hid)
      obtain ⟨x, hx, hnx, hcx, hax⟩ := (Graph.typeDeclaredIn?_eq_some_iff hc').1 hid
      exact (Graph.typeDeclaredIn?_eq_some_iff hc).2 ⟨x, (hsame id x hcx hax).2 hx, hnx, hcx, hax⟩
    · have hsame := he.sameDeclared hp ho (hne hc hn hid)
      obtain ⟨x, hx, hnx, hcx, hax⟩ := (Graph.typeDeclaredIn?_eq_some_iff hc).1 hid
      exact (Graph.typeDeclaredIn?_eq_some_iff hc').2 ⟨x, (hsame id x hcx hax).1 hx, hnx, hcx, hax⟩
  · intro id hid
    obtain ⟨owner, ho, hf⟩ := List.exists_of_findSome?_eq_some hid
    have hnotHome := hne hc hn hf
    obtain ⟨x, hx, -, hcx, hax⟩ := (Graph.typeDeclaredIn?_eq_some_iff hc).1 hf
    have hx₀ := (get?_elsewhere hp.sound hp.scope hp.graphs.since he.ready.new hcx
      (hax ▸ hnotHome)).1 hx
    refine ⟨x, hx₀, (he.lent owner ho hnotHome id x hcx hax).1 hx₀, hcx, ?_⟩
    rw [← hc.artifact_eq_home hx hcx, hax]
    exact hnotHome

namespace Abreast

/-- What is recorded changes nothing. -/
private theorem stable (h : P.Abreast deps s t) (hs : SameScope s s') (ht : SameScope t t') :
    P.Abreast deps s' t' where
  scopes := by
    rw [hs.scope, ht.scope]
    exact h.scopes
  answers := by
    rw [hs.answers, ht.answers]
    exact h.answers
  has name := by
    rw [has_of_sameLedger hs.ledger, has_of_sameLedger ht.ledger]
    exact h.has name
  requires := h.requires.of_sameLedger hs.ledger ht.ledger

/-- Both scopes belong to an artifact. -/
private theorem artifact (h : P.Abreast deps s t) (hp : P.Paired s t) :
    ∃ artifact, P.home = some artifact ∧ s.scope ≠ .global ∧ t.scope ≠ .global := by
  obtain ⟨own, own', hs, ht, -⟩ := h.scopes
  have hscope := hp.scope
  rw [hs] at hscope ⊢
  rw [ht]
  exact ⟨own.artifact, hscope.symm, Scope.noConfusion, Scope.noConfusion⟩

/-- Both scans say something. -/
private theorem saying (h : P.Abreast deps s t) (a b : Diagnostic) :
    P.Abreast deps (s.saying a) (t.saying b) :=
  ⟨h.scopes, h.answers, h.has, h.requires⟩

/-- Placeholders of the same name come in. -/
private theorem missing (h : P.Abreast deps s t) (he : P.Even deps) (hp : P.Paired s t)
    (name : QualifiedName) :
    P.Abreast deps (s.missing name P.source.unit) (t.missing name P.source'.unit) where
  scopes := h.scopes.withCreated ..
  answers := h.answers
  has other := by
    have hgains : ∀ (graph : Graph) (unit : UnitId),
        Graph.Gains graph (graph.withMissing name P.home unit) name P.home := by
      intro graph unit
      obtain ⟨_, hk⟩ := Graph.get?_withMissing graph name P.home unit
      exact Graph.gains_of_push rfl rfl hk
    unfold ScanState.missing
    simp only
    rw [hp.scope, hp.scope', hgains, hgains, h.has]
  requires := by
    obtain ⟨artifact, hhome, -⟩ := h.artifact hp
    have heq : ∀ (graph : Graph) (unit : UnitId),
        graph.withMissing name P.home unit = graph.withPlaceholder artifact name unit := by
      intro graph unit
      rw [hhome]
      rfl
    unfold ScanState.missing
    simp only
    rw [hp.scope, hp.scope', heq, heq]
    exact h.requires.withPlaceholder fun hab => he.unit_iff hp.graphs.since hp.graphs.since' hab

/-- Both units declare a name. -/
private theorem declared (h : P.Abreast deps s t) (hp : P.Paired s t) {id id' : TypeId}
    {middle middle' : Graph} (ha : Scope.Awaits s.store.graph name P.home middle id)
    (ha' : Scope.Awaits t.store.graph name P.home middle' id') :
    P.Abreast deps (declaredState s P.source.unit name middle id)
      (declaredState t P.source'.unit name middle' id') where
  scopes := h.scopes.withDeclared ..
  answers := h.answers
  has other := by
    unfold declaredState
    simp only
    rw [gains_of_awaits _ _ ha, gains_of_awaits _ _ ha', h.has]
  requires := by
    have hmiddle : ∀ {graph middle : Graph} {id : TypeId}, graph.Consistent →
        Scope.Awaits graph name P.home middle id →
        middle.Consistent ∧ Graph.Extends graph middle ∧ middle.units = graph.units := by
      intro graph middle id hc ha
      refine ⟨?_, (placed_of_awaits P.source.unit ha).since.extended, ?_⟩
      · rcases ha.2 with rfl | ⟨rfl, -, hl⟩
        · exact hc
        · exact hc.withType hl
      · rcases ha.2 with rfl | ⟨rfl, -, -⟩ <;> rfl
    obtain ⟨hc, hext, hunits⟩ := hmiddle hp.sound.1.consistent ha
    obtain ⟨hc', hext', hunits'⟩ := hmiddle hp.sound'.1.consistent ha'
    obtain ⟨x, hx, hn, hh, -⟩ := ha.1
    obtain ⟨y, hy, hn', hh', -⟩ := ha'.1
    unfold declaredState
    simp only
    rw [hp.scope, hp.scope']
    exact (h.requires.mono hext hext' hunits hunits').withDeclaration hc hc'
      (.of_get? hx hy (hn.trans hn'.symm) (hh.trans hh'.symm))

end Abreast

/-- Both scans resolve a name to the type of its name in the universe, or to the same type of a
dependency. -/
private theorem runs_resolve_abreast (he : P.Even deps) {site site' : ReferenceSite}
    (name : QualifiedName) (place : Token) (hu : site.source = P.source)
    (hu' : site'.source = P.source') :
    (P.tandem (P.Abreast deps) admits mayFail).Runs w
      (fun w a b => SameType w.1 w.2 a b ∧ (P.whole → P.Answers w.1 a))
      (site.resolve name place) (site'.resolve name place) := by
  intro s t hs
  have hp := hs.2.1
  have hq : P.Abreast deps s t := hs.2.2
  have hsound : s.Sound site.source.unit := by
    rw [hu]
    exact hp.sound
  have hsound' : t.Sound site'.source.unit := by
    rw [hu']
    exact hp.sound'
  have hd : P.Diagnostics s.store.graph t.store.graph
      (site.unanswered name place) (site'.unanswered name place) :=
    unanswered_alike hu hu' name place
  -- A new placeholder is of the universe, whatever is said before.
  have hmissing : ∀ {u v : ScanState}, u.scope.artifact? = P.home → v.scope.artifact? = P.home →
      SameType (u.missing name P.source.unit).store.graph (v.missing name P.source'.unit).store.graph
          u.store.graph.types.nextId v.store.graph.types.nextId ∧
        P.Answers (u.missing name P.source.unit).store.graph u.store.graph.types.nextId := by
    intro u v hu hv
    obtain ⟨_, hx⟩ := ScanState.get?_missing name P.source.unit hu
    obtain ⟨_, hy⟩ := ScanState.get?_missing name P.source'.unit hv
    exact ⟨.of_get? hx hy rfl rfl, .inl ⟨_, hx, rfl⟩⟩
  have hfinds := hq.scopes.lookup hp.sound.1 hp.sound'.1 hp.scope hp.scope' (hq.has name)
    (he.borrows hp (hq.has name)) s.store.answers
  have hstore : (⟨t.store.graph, s.store.answers⟩ : Store) = t.store := by rw [hq.answers]
  rw [hstore] at hfinds
  generalize hl : s.scope.lookup name _ = found at hfinds
  generalize hl' : t.scope.lookup name t.store = found' at hfinds
  cases hfinds with
  | own hlabel hlabel' hscopes =>
    obtain ⟨x, hx, hlx⟩ := Graph.get?_of_label hlabel
    obtain ⟨y, hy, -⟩ := Graph.get?_of_label hlabel'
    simp only [Prod.mk.injEq] at hlx
    exact outcome_resolved hs hu hu' (ReferenceSite.resolve_found place hl)
      (ReferenceSite.resolve_found place hl') (ScanState.answered_found _ _ ⟨x, hx⟩)
      (ScanState.answered_found _ _ ⟨y, hy⟩) hp.diagnostics ⟨_, hlabel, hlabel'⟩
      (fun _ => .inl ⟨x, hx, hlx.2⟩) ⟨hscopes, hq.answers, hq.has, hq.requires⟩
  | lent hlent hscopes =>
    obtain ⟨x, hx, hy, -⟩ := he.lends hp hlent
    exact outcome_resolved hs hu hu' (ReferenceSite.resolve_found place hl)
      (ReferenceSite.resolve_found place hl') (ScanState.answered_found _ _ ⟨x, hx⟩)
      (ScanState.answered_found _ _ ⟨x, hy⟩) hp.diagnostics (.of_get? hx hy rfl rfl)
      (fun _ => .inr hlent) ⟨hscopes, hq.answers, hq.has, hq.requires⟩
  | nothing =>
    obtain ⟨-, hrun⟩ := ReferenceSite.resolve_missing place hsound hl
    obtain ⟨-, hrun'⟩ := ReferenceSite.resolve_missing place hsound' hl'
    rw [hu] at hrun
    rw [hu'] at hrun'
    obtain ⟨hsame, hanswers⟩ := hmissing hp.scope hp.scope'
    exact outcome_resolved hs hu hu' hrun hrun' (ScanState.answered_missing hp.scope)
      (ScanState.answered_missing hp.scope') hp.diagnostics hsame (fun _ => hanswers)
      (hq.missing he hp name)
  | unanswered e =>
    obtain ⟨-, -, hglobal, hglobal'⟩ := hq.artifact hp
    rcases ReferenceSite.resolve_unanswered place hsound hl with ⟨hg, -⟩ | ⟨-, -, hrun⟩
    · exact absurd hg hglobal
    rcases ReferenceSite.resolve_unanswered place hsound' hl' with ⟨hg, -⟩ | ⟨-, -, hrun'⟩
    · exact absurd hg hglobal'
    rw [hu] at hrun
    rw [hu'] at hrun'
    obtain ⟨hsame, hanswers⟩ := hmissing (u := s.saying (site.unanswered name place))
      (v := t.saying (site'.unanswered name place)) hp.scope hp.scope'
    exact outcome_resolved hs hu hu' hrun hrun' (ScanState.answered_saying hp.scope _)
      (ScanState.answered_saying hp.scope' _) (hp.saying hd).diagnostics hsame (fun _ => hanswers)
      ((hq.saying _ _).missing he (hp.saying hd) name)

/-- A type with a name in the universe is matched with one in the other. -/
private theorem Abreast.matched (h : P.Abreast deps s t) {id : TypeId} {x : TypeNode}
    (hx : s.store.graph.types.get? id = some x) (hn : x.name = name) (hh : x.home = P.home) :
    ∃ id' y, t.store.graph.types.get? id' = some y ∧ y.name = name ∧ y.home = P.home ∧
      SameType s.store.graph t.store.graph id id' := by
  obtain ⟨id', y, hy, hn', hh'⟩ := (h.has name).1 ⟨id, x, hx, hn, hh⟩
  exact ⟨id', y, hy, hn', hh', .of_get? hx hy (hn.trans hn'.symm) (hh.trans hh'.symm)⟩

/-- Two scans that begin alike go on abreast. -/
theorem lookup_abreast (he : P.Even deps) :
    P.Lookup (P.Abreast deps) (fun _ => True) False where
  ready := he.ready
  blank := he.tidy.blank
  blank' := he.tidy'.blank
  stable h hs ht := h.stable hs ht
  resolve name place hsites := runs_resolve_abreast he name place hsites.source hsites.source'
  kind := by
    intro hw s t a b x y hp hq ha hab hx hy
    rcases ha with ⟨x', hx', hh⟩ | hlent
    · cases hx.symm.trans hx'
      cases he.standing hp hab hx hy hh with
      | declared _ hxy => exact hxy.kind
      | kept hx₀ hy₀ hsame _ => exact (he.corresponds.type hsame hx₀ hy₀ hh).alike.kind
      | blank => rfl
    · obtain ⟨z, hz, hz', -⟩ := he.lends hp hlent
      cases hx.symm.trans hz
      obtain rfl := (hp.injective hab (.of_get? hz hz' rfl rfl)).1 rfl
      cases hy.symm.trans hz'
      rfl
  duplicate := by
    intro s t name unit hp hq hd
    obtain ⟨id, x, hx, hn, hh, hs⟩ := hd
    obtain ⟨id', y, hy, hn', hh', hsame⟩ := hq.matched hx hn hh
    cases he.standing hp hsame hx hy hh with
    | declared hsx hxy =>
      cases hs.symm.trans hsx
      obtain ⟨u, v, hu, hv, huv⟩ := hp.graphs.unit
      exact ⟨_, ⟨id', y, hy, hn', hh', hxy.state hsx⟩, u, v, hu, hv, huv.path, huv.artifact⟩
    | kept hx₀ hy₀ hsame₀ _ =>
      have hd := (he.corresponds.type hsame₀ hx₀ hy₀ hh).alike.declaredBy
      rw [hs] at hd
      change Option.Rel _ (some unit) _ at hd
      cases hs' : y.state.declaredBy with
      | none =>
        rw [hs'] at hd
        cases hd
      | some unit' =>
        rw [hs'] at hd
        cases hd with
        | some hu =>
          exact ⟨unit', ⟨id', y, hy, hn', hh', TypeState.declaredBy_eq_some.1 hs'⟩,
            hu.mono hp.graphs.since.extended hp.graphs.since'.extended⟩
    | blank => cases hs
  duplicate' := by
    intro s t name unit' hp hq _ hd
    obtain ⟨id', y, hy, hn, hh, hs⟩ := hd
    obtain ⟨id, x, hx, hnx, hhx⟩ := (hq.has name).2 ⟨id', y, hy, hn, hh⟩
    have hc := he.complete' hp (.of_get? hx hy (hnx.trans hn.symm) (hhx.trans hh.symm)) hx hy hh
      (TypeNode.isComplete_eq_true.2 ⟨unit', hs⟩)
    obtain ⟨unit, hsx⟩ := TypeNode.isComplete_eq_true.1 hc
    exact ⟨unit, id, x, hx, hnx, hhx, hsx⟩
  declared hp hq ha ha' := hq.declared hp ha ha'

end Twins

end JavaGraph
