import JavaGraph.Proofs.Scan.Abreast
import JavaGraph.Proofs.Scan.Beside
/-!
# A file that is scanned in two projects

Two open projects may have the same in one universe, and the same in what it depends on, whatever
they have besides. A file that is scanned in both leaves them so, and the reports are the same up to
identifiers.
-/

namespace JavaGraph

open List (Forall₂)
open JavaGraph.Action
open JavaGraph.Graph (SameType SameUnit SameField SameFunction Since Extends CorrespondsIn outline)

/-! ### What two scans leave -/

namespace Twins

variable {P : Twins} {deps : List ArtifactId} {s t : ScanState} {g g' : Graph}

/-- New fields that are matched have the same place. -/
private theorem Alike.sameField (h : P.Alike g g') {a b : FieldId} (hab : P.Fields g g' a b) :
    SameField g g' a b := by
  obtain ⟨-, hfresh, owner, x, hx, hs, hm⟩ := hab
  obtain ⟨i, hi⟩ := List.mem_iff_getElem?.1 hm
  obtain ⟨owner', y, hy, hxy⟩ := h.owned hx hs
  exact ⟨owner, owner', x, y, i, .of_get? hx hy hxy.name hxy.home, hx, hy, hi,
    place_of_fresh hxy.fields hi hfresh⟩

/-- New functions that are matched have the same place. -/
private theorem Alike.sameFunction (h : P.Alike g g') {a b : FunctionId}
    (hab : P.Functions g g' a b) : SameFunction g g' a b := by
  obtain ⟨-, hfresh, owner, x, hx, hs, hm⟩ := hab
  obtain ⟨i, hi⟩ := List.mem_iff_getElem?.1 hm
  obtain ⟨owner', y, hy, hxy⟩ := h.owned hx hs
  exact ⟨owner, owner', x, y, i, .of_get? hx hy hxy.name hxy.home, hx, hy, hi,
    place_of_fresh hxy.functions hi hfresh⟩

section

variable (he : P.Even deps) (hp : P.Paired s t) (hq : P.Abreast deps s t)
include he hp

/-- Matched types of the universe match to the last reference. -/
private theorem Even.nodesMatch (hw : P.whole) {a b : TypeId} {x y : TypeNode}
    (hab : SameType s.store.graph t.store.graph a b) (hx : s.store.graph.types.get? a = some x)
    (hy : t.store.graph.types.get? b = some y) (hh : x.home = P.home) :
    Graph.NodesMatch s.store.graph t.store.graph x y := by
  cases he.standing hp hab hx hy hh with
  | declared _ hxy =>
    obtain ⟨u, v, hu, hv, huv⟩ := hp.graphs.unit
    obtain ⟨hsuper, hinterfaces⟩ := hxy.supertypes hw
    refine ⟨hxy.toAlike.imp ?_ id And.left And.left, hsuper, hinterfaces⟩
    rintro k k' ⟨rfl, rfl⟩
    exact ⟨u, v, hu, hv, huv.path, huv.artifact⟩
  | kept hx₀ hy₀ hsame _ =>
    exact (he.corresponds.type hsame hx₀ hy₀ hh).mono hp.graphs.since.extended
      hp.graphs.since'.extended
  | blank name holder holder' => exact Graph.nodesMatch_blank ..

/-- Functions in the same place use the same fields. -/
private theorem Even.accessesFrom {a b : TypeId} {x y : TypeNode} {f f' : FunctionId} {place : Nat}
    (hab : SameType s.store.graph t.store.graph a b) (hx : s.store.graph.types.get? a = some x)
    (hy : t.store.graph.types.get? b = some y) (hh : x.home = P.home)
    (hf : x.functions[place]? = some f) (hf' : y.functions[place]? = some f') :
    Forall₂ (Graph.UsesMatch s.store.graph t.store.graph) (s.store.graph.accessesFrom f)
      (t.store.graph.accessesFrom f') := by
  cases he.standing hp hab hx hy hh with
  | declared hs hxy =>
    obtain ⟨k, hk, halike, hfresh⟩ := getElem?_of_forall₂ hxy.functions hf
    cases hf'.symm.trans hk
    have himprint := hp.graphs.imprint he.tidy.usesKnown he.tidy'.usesKnown
    exact (himprint.accesses ⟨halike, hfresh, a, x, hx, hs, List.mem_of_getElem? hf⟩).imp
      fun _ _ hu => hu.imp (fun hab => hp.graphs.sameField hab) fun hab => hp.graphs.sameFunction hab
  | kept hx₀ hy₀ hsame _ =>
    obtain ⟨k, hk, u, v, hu, hv, -⟩ := getElem?_of_forall₂
      (he.corresponds.type hsame hx₀ hy₀ hh).alike.functions hf
    cases hf'.symm.trans hk
    obtain ⟨hnew, hnew'⟩ := hp.graphs.newUses
    rw [hnew.accessesFrom hu, hnew'.accessesFrom hv]
    exact Graph.uses_mono
      (hp.graphs.since.keepsPlaces he.tidy.blank he.ready.new)
      (hp.graphs.since'.keepsPlaces he.tidy'.blank he.ready.new')
      (he.corresponds.accesses hsame hx₀ hy₀ hh hf hf')
  | blank name holder holder' => cases hf

include hq

/-- Matched units of the universe match, and so does what they require. -/
private theorem Even.unitsMatch {a b : UnitId} {x y : CompilationUnit}
    (hab : SameUnit s.store.graph t.store.graph a b) (hx : s.store.graph.units.get? a = some x)
    (hy : t.store.graph.units.get? b = some y) (hh : x.artifact = P.home) :
    Graph.UnitsMatch s.store.graph t.store.graph x y := by
  refine ⟨?_, hq.requires.unit hab hx hy hh⟩
  by_cases ha : a = P.source.unit
  · obtain ⟨u, v, hu, hv, huv⟩ := hp.graphs.unit
    rw [ha, hu] at hx
    rw [(he.unit_iff hp.graphs.since hp.graphs.since' hab).1 ha, hv] at hy
    cases hx
    cases hy
    exact huv
  · have hb : b ≠ P.source'.unit := fun hb =>
      ha ((he.unit_iff hp.graphs.since hp.graphs.since' hab).2 hb)
    have ho := hp.graphs.since.others ha
    have ho' := hp.graphs.since'.others hb
    rw [hx] at ho
    rw [hy] at ho'
    obtain ⟨u, hu, hux⟩ := Option.map_eq_some_iff.1 ho.symm
    obtain ⟨v, hv, hvy⟩ := Option.map_eq_some_iff.1 ho'.symm
    obtain ⟨x', y', hx', hy', hpath, hartifact⟩ := hab
    cases hx.symm.trans hx'
    cases hy.symm.trans hy'
    have hpu : u.path = x.path := congrArg (·.path) hux
    have hau : u.artifact = x.artifact := congrArg (·.artifact) hux
    have hpv : v.path = y.path := congrArg (·.path) hvy
    have hav : v.artifact = y.artifact := congrArg (·.artifact) hvy
    have hmatch := he.corresponds.unit
      ⟨u, v, hu, hv, by rw [hpu, hpath, hpv], by rw [hau, hartifact, hav]⟩ hu hv (hau.trans hh)
    exact (hmatch.mono hp.graphs.since.extended hp.graphs.since'.extended).alike.congr hux.symm
      hvy.symm

/-- What corresponds in the universe goes on to do so when both scans are over. -/
theorem Even.correspondsIn (hw : P.whole) :
    CorrespondsIn P.home s.store.graph t.store.graph where
  types := hq.has
  type := he.nodesMatch hp hw
  accesses := he.accessesFrom hp
  units path := by
    have hunits : ∀ {start after : Graph} {unit : UnitId}, Since unit P.home start after →
        (∃ node, start.units.get? unit = some node) →
        ((∃ id x, after.units.get? id = some x ∧ x.path = path ∧ x.artifact = P.home) ↔
          ∃ id x, start.units.get? id = some x ∧ x.path = path ∧ x.artifact = P.home) := by
      intro start after unit hs hn
      constructor
      · rintro ⟨id, x, hx, hpath, hartifact⟩
        obtain ⟨y, hy, hpy, hay⟩ := hs.unit_back hn hx
        exact ⟨id, y, hy, hpy.trans hpath, hay.trans hartifact⟩
      · rintro ⟨id, x, hx, hpath, hartifact⟩
        obtain ⟨y, hy, hpy, hay⟩ := hs.extended.unit hx
        exact ⟨id, y, hy, hpy.trans hpath, hay.trans hartifact⟩
    obtain ⟨u, v, hu, hv, -⟩ := he.unit
    rw [hunits hp.graphs.since ⟨u, hu⟩, hunits hp.graphs.since' ⟨v, hv⟩]
    exact he.corresponds.units path
  unit := he.unitsMatch hp hq
  artifact id hid := by
    rw [hp.graphs.surroundings.artifacts, hp.graphs.surroundings'.artifacts]
    exact rel_imp (fun hm => hm.mono hp.graphs.since.extended hp.graphs.since'.extended)
      (he.corresponds.artifact id hid)

end

end Twins

/-! ### The new unit -/

section

variable {graph other : Graph} {home : Universe} {path : String}

/-- A path that is new in one of two graphs is new in the other. -/
private theorem unitAt?_eq_none (h : CorrespondsIn home graph other)
    (hn : graph.unitAt? path home = none) : other.unitAt? path home = none := by
  cases hu : other.unitAt? path home with
  | none => rfl
  | some unit =>
    obtain ⟨y, hy, hpath, hartifact⟩ := Graph.get?_of_unitAt? hu
    obtain ⟨k, x, hx, hpx, hax⟩ := (h.units path).2 ⟨unit, y, hy, hpath, hartifact⟩
    exact absurd hax (Graph.ne_of_unitAt?_eq_none hn hx hpx)

/-- The universe has the same dependencies in both graphs. -/
theorem Graph.CorrespondsIn.dependenciesOf (h : CorrespondsIn home graph other) :
    other.dependenciesOf home = graph.dependenciesOf home := by
  cases home with
  | none => rfl
  | some owner =>
    have ha := h.artifact owner rfl
    unfold Graph.dependenciesOf
    simp only
    generalize graph.artifacts.get? owner = a at ha
    generalize other.artifacts.get? owner = b at ha
    cases ha with
    | some hm => exact hm.dependencies.symm
    | none => rfl

/-- Members are where they were when a unit comes in. -/
private theorem keepsPlaces_withSource (graph : Graph) (path : String) (home : Universe)
    (package : Option String) (mayNotCompile : Bool) :
    Graph.KeepsPlaces graph (OpenProject.withSource graph path home package mayNotCompile) :=
  ⟨OpenProject.extends_withSource .., fun hx => ⟨_, hx, List.prefix_refl _, List.prefix_refl _⟩⟩

/-- What corresponds goes on to do so when the unit of a new file comes in. -/
theorem Graph.CorrespondsIn.withSource (h : CorrespondsIn home graph other)
    (hn : graph.unitAt? path home = none) (package : Option String) (mayNotCompile : Bool) :
    CorrespondsIn home (OpenProject.withSource graph path home package mayNotCompile)
      (OpenProject.withSource other path home package mayNotCompile) := by
  have hn' := unitAt?_eq_none h hn
  have hg := OpenProject.extends_withSource graph path home package mayNotCompile
  have hg' := OpenProject.extends_withSource other path home package mayNotCompile
  have hnew := OpenProject.get?_units_withSource graph path home package mayNotCompile
  have hnew' := OpenProject.get?_units_withSource other path home package mayNotCompile
  refine ⟨h.types, ?_, ?_, ?_, ?_, ?_⟩
  · intro a b x y hab hx hy hh
    exact (h.type hab hx hy hh).mono hg hg'
  · intro a b x y f g place hab hx hy hh hf hf'
    exact Graph.uses_mono (keepsPlaces_withSource graph path home package mayNotCompile)
      (keepsPlaces_withSource other path home package mayNotCompile)
      (h.accesses hab hx hy hh hf hf')
  · intro p
    have hunits : ∀ {graph : Graph},
        ((∃ id x, (OpenProject.withSource graph path home package mayNotCompile).units.get? id =
            some x ∧ x.path = p ∧ x.artifact = home) ↔
          path = p ∨ ∃ id x, graph.units.get? id = some x ∧ x.path = p ∧ x.artifact = home) := by
      intro graph
      constructor
      · rintro ⟨id, x, hx, hp, ha⟩
        rw [OpenProject.get?_units_withSource] at hx
        split at hx
        · cases hx
          exact .inl hp
        · exact .inr ⟨id, x, hx, hp, ha⟩
      · rintro (rfl | ⟨id, x, hx, hp, ha⟩)
        · exact ⟨_, _, by rw [OpenProject.get?_units_withSource, if_pos rfl], rfl, rfl⟩
        · refine ⟨id, x, ?_, hp, ha⟩
          rw [OpenProject.get?_units_withSource, if_neg (Arena.ne_nextId hx), hx]
    rw [hunits, hunits, h.units p]
  · rintro a b x y ⟨x', y', hx', hy', hpath, hartifact⟩ hx hy hh
    cases hx.symm.trans hx'
    cases hy.symm.trans hy'
    rw [hnew] at hx
    rw [hnew'] at hy
    split at hx <;> split at hy
    · cases hx
      cases hy
      exact ⟨⟨rfl, rfl, rfl, rfl, .nil, .none, h.dependenciesOf.symm⟩, .nil⟩
    · cases hx
      exact absurd hartifact.symm (Graph.ne_of_unitAt?_eq_none hn' hy hpath.symm)
    · cases hy
      exact absurd hartifact (Graph.ne_of_unitAt?_eq_none hn hx hpath)
    · exact (h.unit ⟨x, y, hx, hy, hpath, hartifact⟩ hx hy hh).mono hg hg'
  · rintro id rfl
    rw [OpenProject.get?_artifacts_withSource, OpenProject.get?_artifacts_withSource]
    have ha := h.artifact id rfl
    generalize graph.artifacts.get? id = u at ha
    generalize other.artifacts.get? id = v at ha
    cases ha with
    | none => exact .none
    | some hm =>
      have hm := hm.mono hg hg'
      simp only [Option.map_some, if_true]
      refine .some ⟨hm.name, List.rel_append hm.units (.cons ?_ .nil), hm.dependencies⟩
      exact ⟨_, _, (hnew _).trans (if_pos rfl), (hnew' _).trans (if_pos rfl), rfl, rfl⟩

end

/-! ### Files in two open projects -/

namespace OpenProject

/-- Two open projects have the same in the universe of their scopes and in its dependencies, and the
scopes answer alike. -/
structure Alongside (dependencies : List ArtifactId) (opened opened' : OpenProject) : Prop where
  artifact : opened'.scope.artifact? = opened.scope.artifact?
  corresponds : CorrespondsIn opened.scope.artifact? opened.store.graph opened'.store.graph
  scopes : Scope.Peers dependencies
    (Graph.Lends opened.scope.artifact? opened.store.graph opened'.store.graph) opened.scope
    opened'.scope
  lent : ∀ owner ∈ dependencies, some owner ≠ opened.scope.artifact? →
    Graph.SameDeclared owner opened.store.graph opened'.store.graph
  answers : opened.store.answers = opened'.store.answers

variable {deps : List ArtifactId} {opened opened' : OpenProject} {config : ScanConfig}
  {source : SourceText}

/-- The scans of a file in both projects. -/
private abbrev both (config : ScanConfig) (opened opened' : OpenProject) (source : SourceText) :
    Twins :=
  Twins.ofOpened (opened.seeing source.path) (opened'.seeing source.path) (opened.fileOf source)
    (opened'.fileOf source) source.path (parsed config source) True

/-- Both scans of a new file begin even. -/
private theorem Alongside.even (h : Alongside deps opened opened') (hs : opened.Sound)
    (ht : opened.Tidy) (hs' : opened'.Sound) (ht' : opened'.Tidy)
    (hn : opened.store.graph.unitAt? source.path opened.scope.artifact? = none) :
    (both config opened opened' source).Even deps := by
  have hn' : opened'.store.graph.unitAt? source.path opened'.scope.artifact? = none := by
    rw [h.artifact]
    exact unitAt?_eq_none h.corresponds hn
  have hpackage := congrArg Header.package (Header.ofTree_alike
    (both config opened opened' source) {} {} (parsed config source).root).1
  refine ⟨Twins.ready_ofOpened hs hs', ?_, ?_, ?_, ?_, h.lent⟩
  · exact Tidy.initial ⟨ht.graph, ht.borrowed⟩ _ _ hn
  · exact Tidy.initial ⟨ht'.graph, ht'.borrowed⟩ _ _ hn'
  · exact ⟨_, _, unit_initial (opened.seeing source.path) .., unit_initial
      (opened'.seeing source.path) .., rfl, h.artifact.symm⟩
  · have hc := h.corresponds.withSource hn
      (Header.ofTree (opened.fileOf source) (parsed config source).root).1.package
      (parsed config source).hasErrors
    change CorrespondsIn opened.scope.artifact? _ (withSource opened'.store.graph source.path
      opened'.scope.artifact?
      (Header.ofTree (opened'.fileOf source) (parsed config source).root).1.package
      (parsed config source).hasErrors)
    rw [h.artifact]
    change (Header.ofTree (opened.fileOf source) (parsed config source).root).1.package =
      (Header.ofTree (opened'.fileOf source) (parsed config source).root).1.package at hpackage
    rw [← hpackage]
    exact hc

/-- A new file leaves the same in both projects. -/
private theorem Alongside.scan_new (h : Alongside deps opened opened') (hs : opened.Sound)
    (ht : opened.Tidy) (hs' : opened'.Sound) (ht' : opened'.Tidy)
    (hn : opened.store.graph.unitAt? source.path opened.scope.artifact? = none) :
    ∃ report report' after after', scanOne config source opened = (.ok report, after) ∧
      scanOne config source opened' = (.ok report', after') ∧ Alongside deps after after' ∧
      UnitReport.Alike (FileSet.SameFile after.files after'.files)
        (SameUnit after.store.graph after'.store.graph)
        (SameType after.store.graph after'.store.graph) report report' := by
  have hn' : opened'.store.graph.unitAt? source.path opened'.scope.artifact? = none := by
    rw [h.artifact]
    exact unitAt?_eq_none h.corresponds hn
  have he : (both config opened opened' source).Even deps := h.even hs ht hs' ht' hn
  have hq : (both config opened opened' source).Abreast deps
      ((opened.seeing source.path).initial (opened.fileOf source) source.path
        (parsed config source))
      ((opened'.seeing source.path).initial (opened'.fileOf source) source.path
        (parsed config source)) :=
    ⟨h.scopes, h.answers, h.corresponds.types, ⟨fun hab hx hy hh =>
      (he.corresponds.unit hab hx hy hh).requiredTypes⟩⟩
  have hseen : (opened.seeing source.path).Sound := hs
  have hseen' : (opened'.seeing source.path).Sound := hs'
  obtain ⟨hp, hq, hv⟩ := Twins.scanned rfl (Twins.lookup_abreast he) hseen hseen' h.artifact
    h.corresponds.dependenciesOf hq
    (show passes config opened source = ((passes config opened source).1, _) from rfl)
    (show passes config opened' source = ((passes config opened' source).1, _) from rfl) (by
      cases (passes config opened source).1 with
      | ok declared => exact fun _ _ => trivial
      | error e => exact fun _ => trivial)
  have hrun := scanOne_new config hs hn
  have hrun' := scanOne_new config hs' hn'
  cases hr : (passes config opened source).1 with
  | error e =>
    cases hr' : (passes config opened' source).1 <;> rw [hr, hr'] at hv <;> exact hv.elim
  | ok declared =>
    cases hr' : (passes config opened' source).1 with
    | error e =>
      rw [hr, hr'] at hv
      exact hv.elim
    | ok declared' =>
      rw [hr, hr'] at hv
      rw [hr] at hrun
      rw [hr'] at hrun'
      have hscope : (passes config opened source).2.scope.artifact? = opened.scope.artifact? :=
        hp.scope
      refine ⟨_, _, _, _, hrun, hrun', ⟨hp.scope'.trans hscope.symm, ?_, ?_, ?_, hq.answers⟩, ?_⟩
      · have hc := he.correspondsIn hp hq trivial
        change CorrespondsIn (passes config opened source).2.scope.artifact? _ _
        rw [hscope]
        exact hc
      · refine hq.scopes.imp fun hl => ?_
        have hl := he.lends hp hl
        change Graph.Lends (passes config opened source).2.scope.artifact? _ _ _
        rw [hscope]
        exact hl
      · intro owner ho hne
        refine he.sameDeclared hp ho ?_
        change some owner ≠ (passes config opened source).2.scope.artifact? at hne
        rwa [hscope] at hne
      · obtain ⟨x, y, hx, hy, hxy⟩ := hp.graphs.unit
        refine ⟨⟨x, y, hx, hy, hxy.path, hxy.artifact⟩, ?_, rfl, rfl, rfl, ?_, ?_⟩
        · exact ⟨source.path, FileSet.path?_idOf .., FileSet.path?_idOf ..⟩
        · change Forall₂ _ (declared.types.map (·.id)) (declared'.types.map (·.id))
          rw [List.forall₂_map_left_iff, List.forall₂_map_right_iff]
          exact hv.types.imp fun _ _ hd => hd.alike.id
        · refine hp.diagnostics.imp fun _ _ hdiag => hdiag.imp ?_ id
          rintro a b ⟨rfl, rfl⟩
          exact ⟨source.path, FileSet.path?_idOf .., FileSet.path?_idOf ..⟩

/-- A file that both projects have is left as it is. -/
private theorem Alongside.scan_existing (h : Alongside deps opened opened')
    (ht' : opened'.Tidy) {unit : UnitId}
    (hu : opened.store.graph.unitAt? source.path opened.scope.artifact? = some unit) :
    ∃ report report' after after', scanOne config source opened = (.ok report, after) ∧
      scanOne config source opened' = (.ok report', after') ∧ Alongside deps after after' ∧
      UnitReport.Alike (FileSet.SameFile after.files after'.files)
        (SameUnit after.store.graph after'.store.graph)
        (SameType after.store.graph after'.store.graph) report report' := by
  obtain ⟨x, hx, hpath, hartifact⟩ := Graph.get?_of_unitAt? hu
  obtain ⟨k, y, hy, hpy, hay⟩ := (h.corresponds.units _).1 ⟨unit, x, hx, hpath, hartifact⟩
  have hu' : opened'.store.graph.unitAt? source.path opened'.scope.artifact? = some k := by
    cases hk : opened'.store.graph.unitAt? source.path opened'.scope.artifact? with
    | none => exact absurd (hay.trans h.artifact.symm) (Graph.ne_of_unitAt?_eq_none hk hy hpy)
    | some other =>
      obtain ⟨z, hz, hpz, haz⟩ := Graph.get?_of_unitAt? hk
      rw [ht'.graph.path hz hy (hpz.trans hpy.symm) (haz.trans (h.artifact.trans hay.symm))]
  have hsame : SameUnit opened.store.graph opened'.store.graph unit k :=
    ⟨x, y, hx, hy, hpath.trans hpy.symm, hartifact.trans hay.symm⟩
  have hm := (h.corresponds.unit hsame hx hy hartifact).alike
  refine ⟨_, _, _, _, scanOne_existing config hu hx, scanOne_existing config hu' hy,
    ⟨h.artifact, h.corresponds, h.scopes, h.lent, h.answers⟩,
    hsame, ?_, rfl, rfl, hm.mayNotCompile, hm.declaredTypes, .nil⟩
  exact ⟨source.path, FileSet.path?_idOf .., FileSet.path?_idOf ..⟩

/-- A file that is scanned in both projects leaves them alongside, and the reports are the same up to
identifiers. -/
theorem Alongside.scanOne (h : Alongside deps opened opened') (hs : opened.Sound)
    (ht : opened.Tidy) (hs' : opened'.Sound) (ht' : opened'.Tidy) (config : ScanConfig)
    (source : SourceText) :
    ∃ report report' after after', scanOne config source opened = (.ok report, after) ∧
      OpenProject.scanOne config source opened' = (.ok report', after') ∧
      Alongside deps after after' ∧
      UnitReport.Alike (FileSet.SameFile after.files after'.files)
        (SameUnit after.store.graph after'.store.graph)
        (SameType after.store.graph after'.store.graph) report report' := by
  cases hu : opened.store.graph.unitAt? source.path opened.scope.artifact? with
  | none => exact h.scan_new hs ht hs' ht' hu
  | some unit => exact h.scan_existing ht' hu

end OpenProject

end JavaGraph
