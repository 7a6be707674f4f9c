import JavaGraph.Proofs.Scan.Recording
/-!
# What paired scans declare

The same site is declared by both scans, or it is a duplicate for both. With that the tandem of two
scans is lawful, whenever their scopes answer alike.
-/

namespace JavaGraph

open List (Forall₂)
open JavaGraph.Action
open JavaGraph.Graph (SameType SameUnit Since)

/-! ### One declaration -/

namespace Site

variable {site : Site} {source : SourceUnit} {outer : Option DeclaredType} {name : QualifiedName}
  {s s' : ScanState}

/-- The type of a site, declared under a name. -/
def declaredType (site : Site) (outer : Option DeclaredType) (name : QualifiedName) (id : TypeId) :
    DeclaredType where
  id := id
  name := name
  site := site
  sourceName? := site.sourceName? name
  kind := TypeKind.ofNode site.node.kind
  outer :=
    match outer with
    | none => []
    | some outer => outer.id :: outer.outer

/-- A type is listed in the type around it, if there is one. -/
def listWithin (outer : Option DeclaredType) (id : TypeId) : ScanAction Unit :=
  match outer with
  | none => pure ()
  | some outer =>
    ScanState.onGraph <| Graph.updateType outer.id fun type =>
      { type with innerTypes := type.innerTypes ++ [id] }

/-- A duplicate is reported. -/
theorem declareAs_duplicate {existing : UnitId}
    (h : ScanState.inScope (·.declare name source.unit) s =
      (.error (.duplicateDeclaration name existing), s')) :
    site.declareAs source outer name s =
      (.ok none, { s' with
        diagnostics := s'.diagnostics ++
          [.atNode source.file site.node (.duplicateDeclaration name.text existing)] }) := by
  have ha : (ScanState.inScope (·.declare name source.unit)).attempt s =
      ((.ok (.error (.duplicateDeclaration name existing)), s') :
        Except GraphError (Except GraphError TypeId) × ScanState) := by
    unfold attempt
    rw [h]
  unfold declareAs
  rw [bind_of_ok ha]
  rfl

/-- What is recorded of a type that is declared. -/
theorem declareAs_new {id : TypeId} {graph : Graph}
    (h : ScanState.inScope (·.declare name source.unit) s = (.ok id, s'))
    (hu : Graph.updateType id (site.declaredNode outer) s'.store.graph = (.ok (), graph)) :
    site.declareAs source outer name s =
      (do
        listWithin outer id
        return some (site.declaredType outer name id) : ScanAction (Option DeclaredType))
        (s'.withGraph graph) := by
  have ha : (ScanState.inScope (·.declare name source.unit)).attempt s =
      ((.ok (.ok id), s') : Except GraphError (Except GraphError TypeId) × ScanState) := by
    unfold attempt
    rw [h]
  unfold declareAs
  rw [bind_of_ok ha]
  simp only
  rw [bind_of_ok (ScanState.onGraph_run hu)]
  cases outer <;> rfl

end Site

namespace Twins

variable {P : Twins} {Q : ScanState → ScanState → Prop} {admits : QualifiedName → Prop}
  {mayFail : Prop} {s t : ScanState} {w : Graph × Graph} {name : QualifiedName} {site : Site}
  {outer outer' : Option DeclaredType} {id id' : TypeId} {middle middle' : Graph}

/-! ### Names that wait for a declaration -/

/-- A name that waits is not declared. -/
theorem not_declared_of_awaits {graph : Graph} {home : Universe} {unit : UnitId}
    (hc : graph.Consistent) (h : Scope.Awaits graph name home middle id) :
    ¬ DeclaredAs graph name home unit := by
  rintro ⟨k, y, hy, hn, hh, hs⟩
  obtain ⟨⟨x, hx, hnx, hhx, hcx⟩, hm⟩ := h
  rcases hm with rfl | ⟨-, -, hl⟩
  · obtain rfl := hc.unique hx hy (hnx.trans hn.symm) (hhx.trans hh.symm)
    rw [hx] at hy
    cases hy
    rw [TypeNode.isComplete_eq_true.2 ⟨unit, hs⟩] at hcx
    cases hcx
  · exact hl hy hn hh

/-- Only one unit declares a name. -/
theorem declaredAs_unique {graph : Graph} {home : Universe} {unit unit' : UnitId}
    (hc : graph.Consistent) (h : DeclaredAs graph name home unit)
    (h' : DeclaredAs graph name home unit') : unit = unit' := by
  obtain ⟨id, x, hx, hn, hh, hs⟩ := h
  obtain ⟨id', y, hy, hn', hh', hs'⟩ := h'
  obtain rfl := hc.unique hx hy (hn.trans hn'.symm) (hh.trans hh'.symm)
  rw [hx] at hy
  cases hy
  rw [hs] at hs'
  cases hs'
  rfl

/-- At most the placeholder has come in. -/
theorem placed_of_awaits {graph : Graph} {home : Universe} (unit : UnitId)
    (h : Scope.Awaits graph name home middle id) : Since.Placed unit home graph middle := by
  rcases h.2 with rfl | ⟨rfl, -, -⟩
  · exact .refl ..
  · exact .withType ..

/-- A placeholder has nothing but its name. -/
private theorem blank_of_awaits {start graph : Graph} {home : Universe} {unit : UnitId}
    (hb : Blank start) (hg : Since unit home start graph)
    (h : Scope.Awaits graph name home middle id) :
    ∃ holder, middle.types.get? id = some (Graph.blank name home (.incomplete holder)) := by
  obtain ⟨⟨x, hx, hn, hh, hc⟩, hm⟩ := h
  rcases hm with rfl | ⟨rfl, rfl, -⟩
  · have hs : x.state ≠ .complete unit := by
      intro hs
      rw [TypeNode.isComplete_eq_true.2 ⟨unit, hs⟩] at hc
      cases hc
    rcases hg.back hx hs with hx' | ⟨-, other, holder, he⟩
    · obtain ⟨holder, he⟩ := hb hx' hc
      rw [hn, hh] at he
      exact ⟨holder, by rw [hx, he]⟩
    · have hno : other = name := by rw [← hn, he]; rfl
      rw [hno] at he
      exact ⟨holder, by rw [hx, he]⟩
  · exact ⟨none, Graph.get?_withType_nextId ..⟩

/-! ### What is recorded of a site -/

private theorem keeps_declaredNode (site : Site) (outer : Option DeclaredType) :
    Alike.Keeps (site.declaredNode outer) :=
  ⟨fun _ => rfl, fun _ => rfl, fun _ => rfl, fun _ => rfl, fun _ => List.Subset.refl _,
    fun _ => List.Subset.refl _⟩

/-- The modifiers of nested types depend on the kind of the type around them. -/
private theorem ofNestedType_eq {a b : DeclaredType} (h : a.kind = b.kind) (modifiers : Modifiers)
    (kind : TypeKind) : modifiers.ofNestedType kind a = modifiers.ofNestedType kind b := by
  unfold Modifiers.ofNestedType DeclaredType.isInterfaceLike
  rw [h]

/-- The same is recorded of types that are alike. -/
private theorem declaredNode_alike {g g' h h' : Graph} {x y : TypeNode}
    (ho : Option.Rel (P.Declares g g') outer outer')
    (ht : ∀ {a b}, SameType g g' a b → SameType h h' a b) (hx : x.superclass = none)
    (hy : y.superclass = none) (hxi : x.interfaces = []) (hyi : y.interfaces = [])
    (hxy : P.NodesAlike h h' x y) :
    P.NodesAlike h h' (site.declaredNode outer x) (site.declaredNode outer' y) := by
  have hsuper : Option.Rel (SameType h h') x.superclass y.superclass := by
    rw [hx, hy]
    exact .none
  have hinterfaces : Forall₂ (SameType h h') x.interfaces y.interfaces := by
    rw [hxi, hyi]
    exact .nil
  unfold Site.declaredNode
  cases ho with
  | none =>
    exact { hxy with
      kind := rfl
      modifiers := rfl
      span := rfl
      superclass := fun _ => hsuper
      interfaces := fun _ => hinterfaces
      supertypes := fun _ => ⟨hsuper, hinterfaces⟩
      declaringType := .none
      anonymousIndex := rfl }
  | some hab =>
    exact { hxy with
      kind := rfl
      modifiers := ofNestedType_eq hab.alike.kind _ _
      span := rfl
      superclass := fun _ => hsuper
      interfaces := fun _ => hinterfaces
      supertypes := fun _ => ⟨hsuper, hinterfaces⟩
      declaringType := .some (ht hab.alike.id)
      anonymousIndex := rfl }

/-! ### Declarations in tandem -/

/-- The graph when a placeholder is declared, with what is recorded of its site. -/
def declaredGraph (site : Site) (outer : Option DeclaredType) (middle : Graph)
    (id : TypeId) (unit : UnitId) (home : Universe) : Graph :=
  let graph := middle.withDeclaration id unit home
  { graph with types := graph.types.modify id (site.declaredNode outer) }

/-- The declared placeholder. -/
private theorem get?_withDeclaration_self {graph : Graph} {home : Universe}
    {holder : Option UnitId} (unit : UnitId)
    (hx : graph.types.get? id = some (Graph.blank name home (.incomplete holder))) :
    (graph.withDeclaration id unit home).types.get? id =
      some { Graph.blank name home (.complete unit) with artifact := home } := by
  rw [Graph.get?_types_withDeclaration, if_pos rfl, hx]
  rfl

/-- A placeholder that a unit declares is the unit's own from then on. -/
private theorem since_declaredGraph {graph : Graph} {home : Universe} {unit : UnitId}
    {holder : Option UnitId} (hp : Since unit home graph middle)
    (hown : ∀ {y}, graph.types.get? id = some y → y.state ≠ .complete unit)
    (hx : middle.types.get? id = some (Graph.blank name home (.incomplete holder))) :
    Since unit home graph (declaredGraph site outer middle id unit home) := by
  have hk := keeps_declaredNode site outer
  refine (hp.declared hx rfl).recorded (Graph.recorded_modify ..)
    (get?_withDeclaration_self unit hx) rfl (hk.name _) (hk.home _) (hk.state _) ?_ (hk.fields _) (hk.functions _)
  intro y hy hs
  exact absurd hs (hown hy)

/-- A name that waits is not the unit's own. -/
private theorem not_own_of_awaits {graph : Graph} {home : Universe} {unit : UnitId}
    (h : Scope.Awaits graph name home middle id) {y : TypeNode}
    (hy : graph.types.get? id = some y) : y.state ≠ .complete unit := by
  intro hs
  obtain ⟨⟨x, hx, -, -, hc⟩, hm⟩ := h
  rcases hm with rfl | ⟨-, rfl, -⟩
  · rw [hx] at hy
    cases hy
    rw [TypeNode.isComplete_eq_true.2 ⟨unit, hs⟩] at hc
    cases hc
  · rw [Arena.get?_nextId] at hy
    cases hy

/-- A declaration is a duplicate, or completes a placeholder. -/
theorem inScope_declare_cases {unit : UnitId} {home : Universe} (hs : s.Sound unit)
    (hh : s.scope.artifact? = home) (name : QualifiedName) :
    (∃ existing, DeclaredAs s.store.graph name home existing ∧
      ScanState.inScope (·.declare name unit) s =
        (.error (.duplicateDeclaration name existing), s)) ∨
    ∃ id middle, Scope.Awaits s.store.graph name home middle id ∧
      ScanState.inScope (·.declare name unit) s =
        (.ok id, declaredState s unit name middle id) := by
  rw [← hh]
  rcases Scope.declare_cases hs.1 hs.2 with ⟨id, x, existing, hx, hn, hx', hsx, hrun⟩ |
    ⟨id, middle, ha, hrun⟩
  · exact .inl ⟨existing, ⟨id, x, hx, hn, hx', hsx⟩, ScanState.inScope_error hrun⟩
  · exact .inr ⟨id, middle, ha, ScanState.inScope_ok hrun⟩

/-- What is recorded of the site of a declared placeholder. -/
theorem updated_of_awaits {home : Universe} (unit : UnitId)
    (ha : Scope.Awaits s.store.graph name home middle id) (hh : s.scope.artifact? = home)
    (site : Site) (outer : Option DeclaredType) :
    Graph.updateType id (site.declaredNode outer)
        (declaredState s unit name middle id).store.graph =
      (.ok (), declaredGraph site outer middle id unit home) := by
  obtain ⟨⟨x, hx, -⟩, -⟩ := ha
  have hfind : (middle.withDeclaration id unit home).types.get? id =
      some { x with state := .complete unit, artifact := home } := by
    rw [Graph.get?_types_withDeclaration, if_pos rfl, hx]
    rfl
  subst hh
  exact Graph.updateType_known _ hfind

/-- A declaration that is admitted has an admitted name. -/
private theorem admits_of_declared {action : ScanAction Unit} {type : DeclaredType}
    (h : (P.tandem Q admits mayFail).Admits Option.toList ((do action; return some type) s).1) :
    admits type.name := by
  cases hr : (do action; return some type : ScanAction (Option DeclaredType)) s with
  | mk result s' =>
    rw [hr] at h
    cases result with
    | error e => exact h type.name
    | ok value =>
      obtain ⟨_, _, -, hv⟩ := Action.ok_of_bind hr
      cases hv
      exact h type (List.mem_singleton.2 rfl)

/-- A declared placeholder leaves a sound state. -/
private theorem sound_declared {unit : UnitId} (hs : s.Sound unit)
    (hrun : ScanState.inScope (·.declare name unit) s =
      (.ok id, declaredState s unit name middle id)) :
    (declaredState s unit name middle id).Sound unit := by
  have hk : Keeps (ScanState.PassesOn unit) (ScanState.inScope (·.declare name unit)) :=
    ScanState.Guarantee.declare name
  have hp := hk.keeps s hs
  rwa [hrun] at hp

/-- A type and the types around it are declared. -/
private theorem declaredBy_within {unit : UnitId} {graph : Graph} {type : DeclaredType}
    (h : DeclaredBy unit graph type) :
    ∀ outer ∈ type.id :: type.outer,
      ∃ x, graph.types.get? outer = some x ∧ x.state = .complete unit := by
  intro outer hm
  rcases List.mem_cons.1 hm with rfl | hm
  · obtain ⟨x, hx, -, hs, -⟩ := h.self
    exact ⟨x, hx, hs⟩
  · exact h.outer outer hm

section

variable (hl : P.Lookup Q admits mayFail) (hs : (P.tandem Q admits mayFail).Holds w s t)
include hl hs

/-- Both units declare a placeholder. -/
private theorem holds_declared (ho : Option.Rel (P.Declares w.1 w.2) outer outer')
    (hn : site.Numbered) (ha : Scope.Awaits s.store.graph name P.home middle id)
    (ha' : Scope.Awaits t.store.graph name P.home middle' id')
    (hrun : ScanState.inScope (·.declare name P.source.unit) s =
      (.ok id, declaredState s P.source.unit name middle id))
    (hrun' : ScanState.inScope (·.declare name P.source'.unit) t =
      (.ok id', declaredState t P.source'.unit name middle' id')) :
    let g := declaredGraph site outer middle id P.source.unit P.home
    let g' := declaredGraph site outer' middle' id' P.source'.unit P.home
    Since P.source.unit P.home w.1 g ∧ Since P.source'.unit P.home w.2 g' ∧
      (P.tandem Q admits mayFail).Holds (g, g')
        ((declaredState s P.source.unit name middle id).withGraph g)
        ((declaredState t P.source'.unit name middle' id').withGraph g') ∧
      P.Declares g g' (site.declaredType outer name id) (site.declaredType outer' name id') := by
  intro g g'
  obtain ⟨rfl, hp, hq⟩ := hs
  obtain ⟨holder, hx⟩ := blank_of_awaits hl.blank hp.graphs.since ha
  obtain ⟨holder', hx'⟩ := blank_of_awaits hl.blank' hp.graphs.since' ha'
  have hplaced := placed_of_awaits P.source.unit ha
  have hplaced' := placed_of_awaits P.source'.unit ha'
  have hg : Since P.source.unit P.home s.store.graph g :=
    since_declaredGraph hplaced.since (fun hy => not_own_of_awaits ha hy) hx
  have hg' : Since P.source'.unit P.home t.store.graph g' :=
    since_declaredGraph hplaced'.since (fun hy => not_own_of_awaits ha' hy) hx'
  have hk := keeps_declaredNode site outer
  have hk' := keeps_declaredNode site outer'
  have hr := Graph.recorded_modify (middle.withDeclaration id P.source.unit P.home) id
    (site.declaredNode outer)
  have hr' := Graph.recorded_modify (middle'.withDeclaration id' P.source'.unit P.home) id'
    (site.declaredNode outer')
  have hself := get?_withDeclaration_self P.source.unit hx
  have hself' := get?_withDeclaration_self P.source'.unit hx'
  have hsound := sound_declared hp.sound hrun
  have hsound' := sound_declared hp.sound' hrun'
  have hgraph : (declaredState s P.source.unit name middle id).store.graph =
      middle.withDeclaration id P.source.unit P.home := by rw [← hp.scope]; rfl
  have hgraph' : (declaredState t P.source'.unit name middle' id').store.graph =
      middle'.withDeclaration id' P.source'.unit P.home := by rw [← hp.scope']; rfl
  have hi : Injective (SameType (middle.withDeclaration id P.source.unit P.home)
      (middle'.withDeclaration id' P.source'.unit P.home)) := by
    rw [← hgraph, ← hgraph']
    exact Graph.sameType_injective (fun _ _ _ _ hx hy => hsound.1.consistent.unique hx hy)
      (fun _ _ _ _ hx hy => hsound'.1.consistent.unique hx hy)
  have hd : Since P.source.unit P.home middle (middle.withDeclaration id P.source.unit P.home) :=
    (Since.refl ..).declared hx rfl
  have hd' : Since P.source'.unit P.home middle'
      (middle'.withDeclaration id' P.source'.unit P.home) :=
    (Since.refl ..).declared hx' rfl
  have hmiddle : Injective (SameType middle middle') := fun hab hab' =>
    hi (hab.mono hd.extended hd'.extended) (hab'.mono hd.extended hd'.extended)
  have hdeclared := (hp.graphs.placed hplaced hplaced').declared hmiddle hx hx'
  have hgrows : Graph.Grows P.source.unit _ g :=
    hr.grows hself (hk.name _) (hk.home _) (hk.state _) (hk.fields _) (hk.functions _)
  have hgrows' : Graph.Grows P.source'.unit _ g' :=
    hr'.grows hself' (hk'.name _) (hk'.home _) (hk'.state _) (hk'.fields _) (hk'.functions _)
  have hmono := fun {a b} (hab : SameType s.store.graph t.store.graph a b) =>
    hab.mono hg.extended hg'.extended
  have halike : P.Alike g g' := by
    refine hdeclared.recorded hl.ready hi hr hr' hk hk' hself hself' rfl
      (Alike.blank_alike name P.home) hgrows hgrows' hdeclared.fields hdeclared.functions ?_
    exact declaredNode_alike ho hmono rfl rfl rfl rfl (Alike.blank_alike name P.home)
  have hfind : g.types.get? id = _ := hr.get?_self hself
  have hfind' : g'.types.get? id' = _ := hr'.get?_self hself'
  have hupdate := updated_of_awaits P.source.unit ha hp.scope site outer
  have hupdate' := updated_of_awaits P.source'.unit ha' hp.scope' site outer'
  have hledger := Graph.keeps_updateType id (site.declaredNode outer) hk.ledger
  have hledger' := Graph.keeps_updateType id' (site.declaredNode outer') hk'.ledger
  have hsame : SameType g g' id id' := SameType.of_get? hfind hfind' rfl rfl
  have hbase : site.base?.isSome →
      (if site.isAnonymous then site.number? else none).isSome := by
    intro hb
    cases hn with
    | mk anonymous _ =>
      obtain ⟨hname, hnumber, -⟩ := anonymous hb
      rw [if_pos (by rw [Site.isAnonymous, hname]; rfl)]
      exact hnumber
  refine ⟨hg, hg', ⟨rfl, ⟨hsound.withGraph hledger hupdate, hsound'.withGraph hledger' hupdate', ?_,
    ?_, halike, ?_, ?_⟩, ?_⟩, ⟨hsame, rfl, rfl, rfl, rfl, ?_⟩, ?_, ?_⟩
  · exact (Scope.artifact?_withDeclared ..).trans hp.scope
  · exact (Scope.artifact?_withDeclared ..).trans hp.scope'
  · exact hp.dependencies.imp fun _ _ hab => hab.mono hg hg'
  · exact hp.diagnostics.imp fun _ _ hab => hab.mono hg hg'
  · have hk₁ := hledger.keeps (declaredState s P.source.unit name middle id).store.graph
    have hk₂ := hledger'.keeps (declaredState t P.source'.unit name middle' id').store.graph
    rw [hupdate] at hk₁
    rw [hupdate'] at hk₂
    exact hl.stable (hl.declared hp hq ha ha') ⟨rfl, rfl, hk₁⟩ ⟨rfl, rfl, hk₂⟩
  · cases ho with
    | none => exact .nil
    | some hab => exact .cons (hmono hab.alike.id) (hab.alike.outer.imp fun _ _ => hmono)
  · refine ⟨⟨_, hfind, rfl, rfl, hbase⟩, ?_⟩
    cases ho with
    | none => exact fun _ hm => by cases hm
    | some hab => exact declaredBy_within (hab.left.mono hg)
  · refine ⟨⟨_, hfind', rfl, rfl, hbase⟩, ?_⟩
    cases ho with
    | none => exact fun _ hm => by cases hm
    | some hab => exact declaredBy_within (hab.right.mono hg')

/-- What is declared within a type is listed there. -/
private theorem outcome_outer (ho : Option.Rel (P.Declares w.1 w.2) outer outer')
    {type type' : DeclaredType} (ht : P.Declares w.1 w.2 type type') :
    (P.tandem Q admits mayFail).Outcome w (fun w => Option.Rel (P.Declares w.1 w.2))
      ((do Site.listWithin outer type.id; return some type) s)
      ((do Site.listWithin outer' type'.id; return some type') t) := by
  cases ho with
  | none => exact ⟨w, ⟨.refl .., .refl ..⟩, hs, .some ht⟩
  | @some a b hab =>
    have hk : ∀ id : TypeId,
        Alike.Keeps fun node => { node with innerTypes := node.innerTypes ++ [id] } := fun id =>
      ⟨fun _ => rfl, fun _ => rfl, fun _ => rfl, fun _ => rfl, fun _ => List.Subset.refl _,
        fun _ => List.Subset.refl _⟩
    have hu := outcome_update hl hs hab (hk type.id) (hk type'.id) (fun _ => rfl) (fun _ => rfl)
      fun hg hg' _ hxy => { hxy with
        innerTypes := List.rel_append hxy.innerTypes
          (.cons (ht.alike.id.mono hg.extended hg'.extended) .nil) }
    refine hu.bind (fun h h' => ⟨h.1.trans h'.1, h.2.trans h'.2⟩) fun {w' _ _ s' t'} hle hs' _ => ?_
    exact ⟨w', ⟨.refl .., .refl ..⟩, hs', .some (ht.mono hle.1 hle.2)⟩

/-- Both scans report a duplicate. -/
private theorem outcome_duplicate {existing existing' : UnitId}
    (hu : SameUnit s.store.graph t.store.graph existing existing')
    (hrun : ScanState.inScope (·.declare name P.source.unit) s =
      (.error (.duplicateDeclaration name existing), s))
    (hrun' : ScanState.inScope (·.declare name P.source'.unit) t =
      (.error (.duplicateDeclaration name existing'), t)) :
    (P.tandem Q admits mayFail).Outcome w (fun w => Option.Rel (P.Declares w.1 w.2))
      (site.declareAs P.source outer name s) (site.declareAs P.source' outer' name t) := by
  rw [Site.declareAs_duplicate hrun, Site.declareAs_duplicate hrun']
  have hp := hs.2.1
  have hdiagnostics := List.rel_append hp.diagnostics
    (.cons (⟨⟨rfl, rfl⟩, rfl, rfl, .duplicate name.text hu⟩ : P.Diagnostics _ _
      (.atNode P.source.file site.node (.duplicateDeclaration name.text existing))
      (.atNode P.source'.file site.node (.duplicateDeclaration name.text existing'))) .nil)
  obtain ⟨w', hle, hs', -⟩ := outcome_note hl hs (rfl : (ScanState.store { s with
    diagnostics := s.diagnostics ++ _ }) = _) rfl (rfl : (ScanState.store { t with
    diagnostics := t.diagnostics ++ _ }) = _) rfl hp.dependencies hdiagnostics
  exact ⟨w', hle, hs', .none⟩

end

/-- Both scans declare the type of a site, or it is a duplicate for both. -/
theorem outcome_declareAs (hl : P.Lookup Q admits mayFail)
    (hs : (P.tandem Q admits mayFail).Holds w s t)
    (ho : Option.Rel (P.Declares w.1 w.2) outer outer') (hn : site.Numbered)
    (hadmits : (P.tandem Q admits mayFail).Admits Option.toList
      (site.declareAs P.source outer name s).1) :
    (P.tandem Q admits mayFail).Outcome w (fun w => Option.Rel (P.Declares w.1 w.2))
      (site.declareAs P.source outer name s) (site.declareAs P.source' outer' name t) := by
  have hp := hs.2.1
  have hq := hs.2.2
  have hc := hp.sound.1.consistent
  have hc' := hp.sound'.1.consistent
  rcases inScope_declare_cases hp.sound hp.scope name with ⟨existing, hd, hrun⟩ |
    ⟨id, middle, ha, hrun⟩
  · obtain ⟨unit', hd', hu⟩ := hl.duplicate hp hq hd
    rcases inScope_declare_cases hp.sound' hp.scope' name with ⟨existing', hd'', hrun'⟩ |
      ⟨id', middle', ha', -⟩
    · rw [← declaredAs_unique hc' hd' hd''] at hrun'
      exact outcome_duplicate hl hs hu hrun hrun'
    · exact absurd hd' (not_declared_of_awaits hc' ha')
  · rcases inScope_declare_cases hp.sound' hp.scope' name with ⟨existing', hd', hrun'⟩ |
      ⟨id', middle', ha', hrun'⟩
    · rw [Site.declareAs_new hrun (updated_of_awaits _ ha hp.scope site outer)] at hadmits
      have hname := admits_of_declared hadmits
      obtain ⟨unit, hd⟩ := hl.duplicate' hp hq hname hd'
      exact absurd hd (not_declared_of_awaits hc ha)
    · rw [Site.declareAs_new hrun (updated_of_awaits _ ha hp.scope site outer),
        Site.declareAs_new hrun' (updated_of_awaits _ ha' hp.scope' site outer')]
      obtain ⟨hg, hg', hs', hdeclares⟩ := holds_declared hl hs ho hn ha ha' hrun hrun'
      have ho' := rel_imp (fun hab => Declares.mono hg hg' hab) ho
      obtain ⟨w', hle, hs'', hv⟩ := outcome_outer hl hs' ho' hdeclares
      exact ⟨w', ⟨hg.trans hle.1, hg'.trans hle.2⟩, hs'', hv⟩

/-! ### The tandem -/

/-- Two scans in scopes that answer alike are in tandem. -/
theorem lawful (hl : P.Lookup Q admits mayFail) : (P.tandem Q admits mayFail).Declaring where
  refl _ := ⟨.refl .., .refl ..⟩
  trans h h' := ⟨h.1.trans h'.1, h.2.trans h'.2⟩
  type_mono hle hab := hab.mono hle.1.extended hle.2.extended
  field_mono hle hab := Fields.mono hle.1.grows hle.2.grows hab
  function_mono hle hab := Functions.mono hle.1.grows hle.2.grows hab
  owner_mono hle hab := Declares.mono hle.1 hle.2 hab
  named_mono hle h hw := (h hw).mono hle.1.extended
  recorded_mono _ h := h
  injective hs := by
    rw [hs.1]
    exact hs.2.1.injective
  alike hab := hab.alike
  known hs hab := by
    obtain ⟨x, y, hx, hy, -⟩ := hab.get?
    rw [hs.1] at hx hy
    exact ⟨⟨x, hx⟩, y, hy⟩
  display hs hab := by
    rw [hs.1] at hab
    exact display_eq hab
  report line column text := runs_report hl line column text
  resolve name place h := hl.resolve name place h
  note ho hab := runs_note hl ho hab
  supertypes h _ hc hi := runs_updateSupertypes hl h.owner hc hi
  base h hb _ hab hn := runs_recordBase hl h.owner (by rw [hb]; rfl) hab hn
  addField ho ha hb hab := runs_addField hl ho ha hb hab
  addFunction ho ha hb hpa hpb hab hh := runs_addFunction hl ho ha hb hpa hpb hab hh
  declareAs hn _ ho hs hadmits := outcome_declareAs hl hs ho hn hadmits
  setMainType ho := runs_setMainType hl ho
  flush ha := runs_flush hl <| ha.imp fun _ _ ⟨_, _, _, hu⟩ =>
    hu.imp (fun ⟨_, _, hf⟩ => hf) fun hf => hf

end Twins

end JavaGraph
