import JavaGraph.Proofs.Session.Settled
/-!
# Supertypes of anonymous classes

An anonymous class gets its supertype when its file is scanned, and keeps it. The base is one of its
interfaces only if it is known as an interface by then. A base that is declared as an interface
later, or not at all, stays the superclass.
-/

namespace JavaGraph

/-- Whether an anonymous class names its base. -/
def AnonymousBase.isNamed : AnonymousBase → Bool
  | .typeRef _ => true
  | .enclosingEnum => false

/-- A graph declares a type. -/
def Graph.DeclaresType (graph : Graph) (id : TypeId) : Prop :=
  ∃ x, graph.types.get? id = some x ∧ x.isComplete = true

instance (graph : Graph) (id : TypeId) : Decidable (graph.DeclaresType id) :=
  decidable_of_iff ((graph.types.get? id).any (·.isComplete) = true) (by
    rw [Option.any_eq_true]
    rfl)

/-- The supertypes of an anonymous class by the name of its base: an interface if the base was
declared as one at an earlier moment, and else a superclass. -/
def Graph.BasedOn (earlier graph : Graph) (x : TypeNode) : Option QualifiedName → Prop
  | none => x.superclass = none ∧ x.interfaces = []
  | some name => ∃ base y, graph.types.get? base = some y ∧ y.name = name ∧
      (x.superclass, x.interfaces) =
        if y.kind = some .interfaceType ∧ earlier.DeclaresType base then (none, [base])
        else (some base, [])

/-- A base that is known at an earlier moment; it is declared then, or it is a placeholder of no
kind. -/
private theorem onBase_eq {earlier graph : Graph} (ht : earlier.Tidy)
    (hg : Graph.Preserves earlier graph) {base : TypeId} {y : TypeNode}
    (hy : earlier.types.get? base = some y) :
    ∃ z, graph.types.get? base = some z ∧ z.name = y.name ∧
      Tandem.onBase y.kind base =
        if z.kind = some .interfaceType ∧ earlier.DeclaresType base then (none, [base])
        else (some base, []) := by
  cases hc : y.isComplete with
  | true =>
    refine ⟨y, hg.declared hy hc, rfl, ?_⟩
    have hdeclares : earlier.DeclaresType base := ⟨y, hy, hc⟩
    unfold Tandem.onBase
    simp only [hdeclares, and_true]
  | false =>
    obtain ⟨z, hz, hn, -⟩ := hg.known hy
    obtain ⟨holder, hblank⟩ := ht.blank hy hc
    have hdeclares : ¬ earlier.DeclaresType base := by
      rintro ⟨x, hx, hcx⟩
      cases hx.symm.trans hy
      rw [hc] at hcx
      cases hcx
    refine ⟨z, hz, hn, ?_⟩
    rw [hblank, if_neg fun h => hdeclares h.2]
    rfl

namespace Session

/-- After every run, the base of an anonymous class is one of its interfaces if it is an interface
that was declared when the file of the class had been scanned, and else its superclass. Only a base
that is no declared type gives no supertype. -/
theorem anonymous_supertypes_run (before later : List Step) {scope : Scope}
    {artifact : ArtifactId} {config : ScanConfig} {source : SourceText} {declared : Declarations}
    {type : DeclaredType} {node : Tree} (hnew : (run before).ScansNew scope source)
    (ha : scope.artifact? = some artifact)
    (hd : ((run before).passes scope config source).1 = .ok declared)
    (ht : type ∈ declared.types) (hb : type.site.base? = some (.typeRef node)) :
    let scan : Step := .scan config source.path source.text
    let scanned := (run (before ++ [scan])).project.store.graph
    let graph := (run (before ++ scan :: later)).project.store.graph
    let unit : SourceUnit := ⟨(run before).project.store.graph.units.nextId,
      ((run before).project.files.idOf source.path).1⟩
    ∃ x, graph.types.get? type.id = some x ∧ x.isComplete = true ∧
      Graph.BasedOn scanned graph x (ReferenceSite.baseName? ⟨unit, declared, type⟩ [] node) := by
  intro scan scanned graph unit
  obtain ⟨hsound, htidy⟩ := hnew.opened (sound_run before) (tidy_run before)
  have hscanned : scanned = ((run before).passes scope config source).2.store.graph := by
    have hrun : run (before ++ [scan]) = Step.run (run before) scan := by
      simp [run, List.foldl_append]
    change (run (before ++ [scan])).project.store.graph = _
    rw [hrun]
    exact hnew.graph (sound_run before) (tidy_run before) config
  have hpreserves : Graph.Preserves scanned graph := by
    have h := preserves_run (before ++ [scan]) later
    rwa [List.append_assoc] at h
  obtain ⟨declared', m, done, hd', hreached, hdone⟩ :=
    OpenProject.reached_passes hsound htidy config source (by
      change scope.artifact?.isSome
      rw [ha]
      rfl)
  obtain rfl : declared = declared' := Except.ok.inj (hd.symm.trans hd')
  obtain ⟨hrecorded, hby⟩ := hdone type ht
  obtain ⟨x, hx, hbased⟩ := hreached.based type ht hrecorded node hb
  obtain ⟨x', hx', -, hsx, -⟩ := hby.self
  cases hx.symm.trans hx'
  have hc : x.isComplete = true := TypeNode.isComplete_eq_true.2 ⟨_, hsx⟩
  change ((run before).passes scope config source).2.store.graph.types.get? _ = _ at hx
  rw [← hscanned] at hx
  refine ⟨x, hpreserves.declared hx hc, hc, ?_⟩
  change match ReferenceSite.baseName? ⟨unit, declared, type⟩ [] node with
    | none => x.superclass = none ∧ x.interfaces = []
    | some name => ∃ base y,
        ((run before).passes scope config source).2.store.graph.types.get? base = some y ∧
          y.name = name ∧ (x.superclass, x.interfaces) = Tandem.onBase y.kind base at hbased
  rw [← hscanned] at hbased
  revert hbased
  generalize ReferenceSite.baseName? ⟨unit, declared, type⟩ [] node = name
  intro hbased
  cases name with
  | none => exact hbased
  | some name =>
    obtain ⟨base, y, hy, hn, he⟩ := hbased
    obtain ⟨z, hz, hnz, hbase⟩ := onBase_eq (tidy_run (before ++ [scan])).graph hpreserves hy
    exact ⟨base, z, hz, hnz.trans hn, he.trans hbase⟩

/-- An artifact declares an interface and then an anonymous class that implements it. -/
theorem anonymous_supertypes_declaredFirst :
    let before : List Step := [.addArtifact "app" [], .enter (some ⟨0⟩),
      .scan {} "B.java" "interface B \x7b \x7d"]
    let source : SourceText := ⟨"A.java", "class A \x7b Object f = new B() \x7b \x7d; \x7d"⟩
    ∃ scope declared type node, (run before).ScansNew scope source ∧
      scope.artifact? = some ⟨0⟩ ∧ ((run before).passes scope {} source).1 = .ok declared ∧
      type ∈ declared.types ∧ type.site.base? = some (.typeRef node) ∧
      ∃ x, (run (before ++ [.scan {} source.path source.text])).project.store.graph.types.get?
          type.id = some x ∧ x.isComplete = true ∧
        Graph.BasedOn (run (before ++ [.scan {} source.path source.text])).project.store.graph
          (run (before ++ [.scan {} source.path source.text])).project.store.graph x
          (ReferenceSite.baseName? ⟨⟨(run before).project.store.graph.units.nextId,
            ((run before).project.files.idOf source.path).1⟩, declared, type⟩ [] node) := by
  intro before source
  have hscopes : (run before).scopes.map (·.artifact?) = [some ⟨0⟩] := by decide +kernel
  obtain ⟨scope, hs, hartifact⟩ := List.map_eq_singleton_iff.1 hscopes
  have hn : (run before).project.store.graph.unitAt? source.path scope.artifact? = none := by
    rw [hartifact]
    decide +kernel
  have hpasses : (run before).scopes.all (fun scope =>
      ((run before).passes scope {} source).1.toOption.any fun declared =>
        declared.types.any fun type => type.site.base?.any (·.isNamed)) = true := by
    decide +kernel
  rw [hs, List.all_cons, Bool.and_eq_true] at hpasses
  obtain ⟨declared, hd, hany⟩ := (Option.any_eq_true ..).1 hpasses.1
  obtain ⟨type, htype, hbase⟩ := List.any_eq_true.1 hany
  have hok : ((run before).passes scope {} source).1 = .ok declared := by
    cases hr : ((run before).passes scope {} source).1 with
    | ok value =>
      rw [hr] at hd
      cases hd
      rfl
    | error e =>
      rw [hr] at hd
      cases hd
  obtain ⟨base, hb, hnamed⟩ := (Option.any_eq_true ..).1 hbase
  cases base with
  | typeRef node =>
    exact ⟨scope, declared, type, node, ⟨hs, hn⟩, hartifact, hok, htype, hb,
      anonymous_supertypes_run before [] ⟨hs, hn⟩ hartifact hok htype hb⟩
  | enclosingEnum => cases hnamed

/-- The file of the anonymous class is scanned before the one that declares the interface. -/
theorem superclass_interface_declaredLater :
    let steps : List Step := [.addArtifact "app" [], .enter (some ⟨0⟩),
      .scan {} "A.java" "class A \x7b Object f = new B() \x7b \x7d; \x7d",
      .scan {} "B.java" "interface B \x7b \x7d"]
    ∃ x b : TypeNode, (run steps).project.store.graph.types.get? ⟨1⟩ = some x ∧
      x.anonymousIndex = some 1 ∧ (run steps).project.store.graph.types.get? ⟨3⟩ = some b ∧
      b.name.text = "B" ∧ b.home = some ⟨0⟩ ∧ b.isComplete = true ∧
      b.kind = some .interfaceType ∧ x.superclass = some ⟨3⟩ ∧ x.interfaces = [] := by
  intro steps
  have h : ((run steps).project.store.graph.types.get? ⟨1⟩).map
        (fun x => (x.anonymousIndex, x.superclass, x.interfaces)) = some (some 1, some ⟨3⟩, []) ∧
      ((run steps).project.store.graph.types.get? ⟨3⟩).map
        (fun b => (b.name.text, b.home, b.isComplete, b.kind)) =
          some ("B", some ⟨0⟩, true, some .interfaceType) := by decide +kernel
  obtain ⟨x, hx, hex⟩ := Option.map_eq_some_iff.1 h.1
  obtain ⟨b, hb, heb⟩ := Option.map_eq_some_iff.1 h.2
  simp only [Prod.mk.injEq] at hex heb
  exact ⟨x, b, hx, hex.1, hb, heb.1, heb.2.1, heb.2.2.1, heb.2.2.2, hex.2.1, hex.2.2⟩

end Session

end JavaGraph
