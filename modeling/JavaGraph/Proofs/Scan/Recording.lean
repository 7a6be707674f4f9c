import JavaGraph.Proofs.Scan.Pairs
/-!
# What paired scans record

The primitive steps of two scans of one file record the same, if the scopes of both answer alike.
Every law of `Tandem.Lawful` is shown for the tandem of the scans.
-/

namespace JavaGraph.Twins

open List (Forall₂)
open JavaGraph.Action
open JavaGraph.Graph (SameType SameUnit Since Recorded FieldsAlike FunctionsAlike ParametersAlike)
open ReferenceSite (ParameterHead)

variable {P : Twins} {Q : ScanState → ScanState → Prop} {admits : QualifiedName → Prop}
  {mayFail : Prop} {s t : ScanState} {w : Graph × Graph}

/-- The nodes of types that both units declare. -/
theorem Paired.nodes (h : P.Paired s t) {a b : DeclaredType}
    (hd : P.Declares s.store.graph t.store.graph a b) :
    ∃ x y, s.store.graph.types.get? a.id = some x ∧ t.store.graph.types.get? b.id = some y ∧
      x.state = .complete P.source.unit ∧ P.NodesAlike s.store.graph t.store.graph x y ∧
      (a.site.base?.isSome → x.anonymousIndex.isSome) := by
  obtain ⟨x, hx, -, hs, hbase⟩ := hd.left.self
  obtain ⟨id', y, hy, hxy⟩ := h.graphs.owned hx hs
  have hsame := SameType.of_get? hx hy hxy.name hxy.home
  rw [(h.injective hd.alike.id hsame).1 rfl]
  exact ⟨x, y, hx, hy, hs, hxy, hbase⟩

section

variable (hl : P.Lookup Q admits mayFail)
include hl

/-! ### Notes -/

/-- What is noted beside the graph. -/
theorem outcome_note {s' t' : ScanState}
    (hs : (P.tandem Q admits mayFail).Holds w s t)
    (hstore : s'.store = s.store) (hscope : s'.scope = s.scope)
    (hstore' : t'.store = t.store) (hscope' : t'.scope = t.scope)
    (hd : Forall₂ (P.References s.store.graph t.store.graph) s'.dependencies t'.dependencies)
    (hr : Forall₂ (P.Diagnostics s.store.graph t.store.graph) s'.diagnostics t'.diagnostics) :
    (P.tandem Q admits mayFail).Outcome w (P.tandem Q admits mayFail).Done (.ok (), s')
      (.ok (), t') := by
  obtain ⟨rfl, hp, hq⟩ := hs
  refine ⟨(s.store.graph, t.store.graph), ⟨.refl .., .refl ..⟩, ⟨by rw [hstore, hstore'], ?_, ?_⟩,
    trivial⟩
  · obtain ⟨hsound, hsound', hsc, hsc', hgraphs, -, -⟩ := hp
    unfold ScanState.Sound at *
    refine ⟨?_, ?_, by rw [hscope, hsc], by rw [hscope', hsc'], ?_, ?_, ?_⟩
    · unfold ScanState.Sound
      rwa [hstore, hscope]
    · unfold ScanState.Sound
      rwa [hstore', hscope']
    · rwa [hstore, hstore']
    · rwa [hstore, hstore']
    · rwa [hstore, hstore']
  · refine hl.stable hq ⟨hscope, by rw [hstore], ?_⟩ ⟨hscope', by rw [hstore'], ?_⟩
    · rw [hstore]
      exact Guarantee.refl _
    · rw [hstore']
      exact Guarantee.refl _

/-- A malformed name is reported by both. -/
theorem runs_report (line column : Nat) (text : String) :
    (P.tandem Q admits mayFail).Runs w (P.tandem Q admits mayFail).Done
      (ScanState.report ⟨P.source.file, line, column, .malformedName text⟩)
      (ScanState.report ⟨P.source'.file, line, column, .malformedName text⟩) := by
  intro s t hs
  have hp := hs.2.1
  refine outcome_note hl hs rfl rfl rfl rfl hp.dependencies ?_
  exact List.rel_append hp.diagnostics (.cons ⟨⟨rfl, rfl⟩, rfl, rfl, .alone rfl⟩ .nil)

/-- A reference is noted by both. -/
theorem runs_note {owner owner' : DeclaredType} {a b : TypeId}
    (ho : P.Declares w.1 w.2 owner owner') (hab : SameType w.1 w.2 a b) :
    (P.tandem Q admits mayFail).Runs w (P.tandem Q admits mayFail).Done
      (ScanState.noteDependency owner.id a) (ScanState.noteDependency owner'.id b) := by
  intro s t hs
  have hp := hs.2.1
  have hw := hs.1
  subst hw
  have hiff : owner.id = a ↔ owner'.id = b := hp.injective ho.alike.id hab
  unfold ScanState.noteDependency
  by_cases h : owner.id = a
  · rw [if_pos h, if_pos (hiff.1 h)]
    exact outcome_note hl hs rfl rfl rfl rfl hp.dependencies hp.diagnostics
  · rw [if_neg h, if_neg fun h' => h (hiff.2 h')]
    refine outcome_note hl hs rfl rfl rfl rfl ?_ hp.diagnostics
    obtain ⟨x, hx, -, hsx, -⟩ := ho.left.self
    exact List.rel_append hp.dependencies (.cons ⟨⟨x, hx, hsx⟩, ho.alike.id, hab⟩ .nil)

omit hl in
/-- Uses of types of the same name have the same text. -/
theorem display_eq {g g' : Graph} {a b : TypeUse} (h : TypeUse.Alike (SameType g g') a b) :
    a.display g = b.display g' := by
  obtain ⟨base, dimensions⟩ := a
  obtain ⟨base', dimensions'⟩ := b
  obtain ⟨hbase, rfl⟩ := h
  unfold TypeUse.display
  cases hbase with
  | primitive name => rfl
  | typeVariable name => rfl
  | declared hab =>
    obtain ⟨x, y, hx, hy, hn, -⟩ := hab.get?
    simp only [hx, hy, hn, Option.map_some, Option.getD_some]

/-! ### Types -/

/-- Both units change types that they declare. -/
theorem outcome_update (hs : (P.tandem Q admits mayFail).Holds w s t) {a b : DeclaredType}
    (hd : P.Declares w.1 w.2 a b) {f f' : TypeNode → TypeNode} (hk : Alike.Keeps f)
    (hk' : Alike.Keeps f') (ha : ∀ x, (f x).anonymousIndex = x.anonymousIndex)
    (ha' : ∀ x, (f' x).anonymousIndex = x.anonymousIndex)
    (hf : ∀ {h h' x y}, Since P.source.unit P.home w.1 h → Since P.source'.unit P.home w.2 h' →
      (a.site.base?.isSome → x.anonymousIndex.isSome) → P.NodesAlike h h' x y →
      P.NodesAlike h h' (f x) (f' y)) :
    (P.tandem Q admits mayFail).Outcome w (P.tandem Q admits mayFail).Done
      (ScanState.onGraph (Graph.updateType a.id f) s)
      (ScanState.onGraph (Graph.updateType b.id f') t) := by
  have hp := hs.2.1
  have hw := hs.1
  subst hw
  obtain ⟨x, y, hx, hy, hsx, hxy, hbase⟩ := hp.nodes hd
  have hr := Graph.recorded_modify s.store.graph a.id f
  have hr' := Graph.recorded_modify t.store.graph b.id f'
  have hg : Since P.source.unit P.home s.store.graph _ :=
    (Since.refl ..).recorded hr hx hsx (hk.name x) (hk.home x) (hk.state x) (fun _ _ => ha x)
      (hk.fields x) (hk.functions x)
  have hg' : Since P.source'.unit P.home t.store.graph _ :=
    (Since.refl ..).recorded hr' hy (hxy.state hsx) (hk'.name y) (hk'.home y) (hk'.state y)
      (fun _ _ => ha' y) (hk'.fields y) (hk'.functions y)
  refine outcome_record hl hs (Graph.keeps_updateType a.id f hk.ledger)
    (Graph.keeps_updateType b.id f' hk'.ledger) (Graph.updateType_known f hx)
    (Graph.updateType_known f' hy) hg hg' ?_ trivial
  exact hp.graphs.recorded hl.ready hp.injective hr hr' hk hk' hx hy hsx hxy hg.grows hg'.grows
    hp.graphs.fields hp.graphs.functions (hf hg hg' hbase (hxy.mono hg.grows hg'.grows))

/-- Supertypes of the same name are recorded. -/
theorem runs_updateSupertypes {owner owner' : DeclaredType} {superclass superclass' : Option TypeId}
    {interfaces interfaces' : List TypeId} (ho : P.Declares w.1 w.2 owner owner')
    (hc : Option.Rel (SameType w.1 w.2) superclass superclass')
    (hi : Forall₂ (SameType w.1 w.2) interfaces interfaces') :
    (P.tandem Q admits mayFail).Runs w (P.tandem Q admits mayFail).Done
      (ScanState.onGraph <| Graph.updateType owner.id fun type =>
        { type with superclass, interfaces })
      (ScanState.onGraph <| Graph.updateType owner'.id fun type =>
        { type with superclass := superclass', interfaces := interfaces' }) := by
  intro s t hs
  refine outcome_update hl hs ho ?_ ?_ (fun _ => rfl) (fun _ => rfl) ?_
  · exact ⟨fun _ => rfl, fun _ => rfl, fun _ => rfl, fun _ => rfl, fun _ => List.Subset.refl _,
      fun _ => List.Subset.refl _⟩
  · exact ⟨fun _ => rfl, fun _ => rfl, fun _ => rfl, fun _ => rfl, fun _ => List.Subset.refl _,
      fun _ => List.Subset.refl _⟩
  · intro h h' x y hg hg' _ hxy
    have hmono := fun {a b} (ht : SameType w.1 w.2 a b) => ht.mono hg.extended hg'.extended
    exact { hxy with
      superclass := fun _ => rel_imp hmono hc
      interfaces := fun _ => hi.imp fun _ _ => hmono
      supertypes := fun _ => ⟨rel_imp hmono hc, hi.imp fun _ _ => hmono⟩ }

omit hl in
/-- Bases of the same kind give supertypes of the same name. -/
private theorem onBase_alike {g g' : Graph} (kind : Option TypeKind) {a b : TypeId}
    (hab : SameType g g' a b) :
    Option.Rel (SameType g g') (Tandem.onBase kind a).1 (Tandem.onBase kind b).1 ∧
      Forall₂ (SameType g g') (Tandem.onBase kind a).2 (Tandem.onBase kind b).2 := by
  unfold Tandem.onBase
  split
  · exact ⟨.none, .cons hab .nil⟩
  · exact ⟨.some hab, .nil⟩

/-- Which supertype an anonymous class has is left open, unless both scans know its base as the same
kind of type. -/
theorem runs_recordBase {owner owner' : DeclaredType} {a b : TypeId}
    (ho : P.Declares w.1 w.2 owner owner') (hbase : owner.site.base?.isSome)
    (hab : SameType w.1 w.2 a b) (hanswers : P.whole → P.Answers w.1 a) :
    (P.tandem Q admits mayFail).Runs w (P.tandem Q admits mayFail).Done
      (Tandem.recordBase owner.id a) (Tandem.recordBase owner'.id b) := by
  intro s t hs
  obtain ⟨x, y, hx, hy, -⟩ := hab.get?
  have hp := hs.2.1
  have hq := hs.2.2
  have hw := hs.1
  subst hw
  have hkind : P.whole → x.kind = y.kind := fun hw =>
    hl.kind hw hp hq (hanswers hw) hab hx hy
  have hl' : ScanState.readGraph (fun graph => graph.types.get a) s = (.ok x, s) := by
    simp [ScanState.readGraph, Action.check, Arena.get, hx]
  have hr' : ScanState.readGraph (fun graph => graph.types.get b) t = (.ok y, t) := by
    simp [ScanState.readGraph, Action.check, Arena.get, hy]
  unfold Tandem.recordBase
  rw [Action.bind_of_ok hl', Action.bind_of_ok hr']
  refine outcome_update hl hs ho ?_ ?_ (fun _ => rfl) (fun _ => rfl) ?_
  · exact ⟨fun _ => rfl, fun _ => rfl, fun _ => rfl, fun _ => rfl, fun _ => List.Subset.refl _,
      fun _ => List.Subset.refl _⟩
  · exact ⟨fun _ => rfl, fun _ => rfl, fun _ => rfl, fun _ => rfl, fun _ => List.Subset.refl _,
      fun _ => List.Subset.refl _⟩
  · intro h h' z u hg hg' ha hzu
    have hsome := ha hbase
    exact { hzu with
      superclass := fun hn => by
        change z.anonymousIndex = none at hn
        rw [hn] at hsome
        cases hsome
      interfaces := fun hn => by
        change z.anonymousIndex = none at hn
        rw [hn] at hsome
        cases hsome
      supertypes := fun hw => by
        rw [hkind hw]
        exact onBase_alike y.kind (hab.mono hg.extended hg'.extended) }

/-! ### Members -/

/-- A field comes in, in both graphs. -/
theorem runs_addField {owner owner' : DeclaredType} {a b : Field}
    (ho : P.Declares w.1 w.2 owner owner') (ha : a.declaringType = owner.id)
    (hb : b.declaringType = owner'.id) (hab : Field.Alike (SameType w.1 w.2) a b) :
    (P.tandem Q admits mayFail).Runs w (fun w => P.Fields w.1 w.2)
      (ScanState.onGraph (Graph.addField a)) (ScanState.onGraph (Graph.addField b)) := by
  intro s t hs
  have hp := hs.2.1
  have hw := hs.1
  subst hw
  obtain ⟨x, y, hx, hy, hsx, hxy, -⟩ := hp.nodes ho
  have hr := Graph.recorded_withField s.store.graph a
  have hr' := Graph.recorded_withField t.store.graph b
  rw [ha] at hr
  rw [hb] at hr'
  have hk : ∀ id : FieldId,
      Alike.Keeps fun node => { node with fields := node.fields ++ [id] } := fun id =>
    ⟨fun _ => rfl, fun _ => rfl, fun _ => rfl, fun _ => rfl,
      fun _ => List.subset_append_left .., fun _ => List.Subset.refl _⟩
  have hg : Since P.source.unit P.home s.store.graph (s.store.graph.withField a) :=
    (Since.refl ..).recorded hr hx hsx rfl rfl rfl (fun _ _ => rfl) ((hk _).fields x)
      ((hk _).functions x)
  have hg' : Since P.source'.unit P.home t.store.graph (t.store.graph.withField b) :=
    (Since.refl ..).recorded hr' hy (hxy.state hsx) rfl rfl rfl (fun _ _ => rfl)
      ((hk _).fields y) ((hk _).functions y)
  have hmono := fun {a b} (ht : SameType s.store.graph t.store.graph a b) =>
    ht.mono hg.extended hg'.extended
  have hfields : FieldsAlike (s.store.graph.withField a) (t.store.graph.withField b)
      s.store.graph.fields.nextId t.store.graph.fields.nextId :=
    ⟨a, b, Graph.get?_withField .., Graph.get?_withField .., hab.imp hmono⟩
  have hfresh := fresh_nextId hp.graphs.fields
  have hlevel := level_of_succ hp.graphs.fields (Arena.size_push s.store.graph.fields a)
    (Arena.size_push t.store.graph.fields b)
  have hxy' := hxy.mono hg.grows hg'.grows
  refine outcome_record hl hs inferInstance inferInstance
    (Graph.addField_known (by rw [ha]; exact hx)) (Graph.addField_known (by rw [hb]; exact hy))
    hg hg' ?_ ?_
  · refine hp.graphs.recorded hl.ready hp.injective hr hr' (hk _) (hk _) hx hy hsx hxy hg.grows
      hg'.grows hlevel hp.graphs.functions { hxy' with fields := ?_ }
    exact List.rel_append hxy'.fields (.cons ⟨hfields, hfresh⟩ .nil)
  · refine ⟨hfields, hfresh, owner.id, _, hr.get?_self hx, hsx, ?_⟩
    exact List.mem_append_right _ (List.mem_singleton.2 rfl)

omit hl in
/-- The parameters of two functions are alike. -/
private theorem parameters_alike {g g' : Graph} {f f' : FunctionId}
    {heads heads' : List ParameterHead} {ids ids' : List ParameterId} {offset : Nat}
    (hh : Forall₂ (ParameterHead.Alike (SameType g g')) heads heads')
    (hi : Forall₂ (fun (head, index) k => g.parameters.get? k = some (head.parameter f index))
      (heads.zipIdx offset) ids)
    (hi' : Forall₂ (fun (head, index) k => g'.parameters.get? k = some (head.parameter f' index))
      (heads'.zipIdx offset) ids') :
    Forall₂ (ParametersAlike g g' f f') ids ids' := by
  induction hh generalizing ids ids' offset with
  | nil =>
    cases hi
    cases hi'
    exact .nil
  | cons hab hrest ih =>
    rw [List.zipIdx_cons] at hi hi'
    cases hi with
    | cons hk hi =>
      cases hi' with
      | cons hk' hi' =>
        exact .cons ⟨_, _, hk, hk', rfl, rfl, hab.name, rfl, hab.typeUse, hab.isVarargs⟩
          (ih hi hi')

/-- A function comes in with its parameters, in both graphs. -/
theorem runs_addFunction {owner owner' : DeclaredType} {a b : Function}
    {heads heads' : List ParameterHead}
    (ho : P.Declares w.1 w.2 owner owner') (ha : a.declaringType = owner.id)
    (hb : b.declaringType = owner'.id) (hpa : a.parameters = []) (hpb : b.parameters = [])
    (hab : Function.Alike (SameType w.1 w.2) a b)
    (hh : Forall₂ (ParameterHead.Alike (SameType w.1 w.2)) heads heads') :
    (P.tandem Q admits mayFail).Runs w (fun w => P.Functions w.1 w.2)
      (ScanState.onGraph do
        let id ← Graph.addFunction a
        ReferenceSite.addParameters id heads
        return id)
      (ScanState.onGraph do
        let id ← Graph.addFunction b
        ReferenceSite.addParameters id heads'
        return id) := by
  intro s t hs
  have hp := hs.2.1
  have hw := hs.1
  subst hw
  obtain ⟨x, y, hx, hy, hsx, hxy, -⟩ := hp.nodes ho
  obtain ⟨h, ids, hrun, hr, hfields, hsize, hself, hids⟩ :=
    Graph.addFunction_parameters heads (by rw [ha]; exact hx) hpa
  obtain ⟨h', ids', hrun', hr', hfields', hsize', hself', hids'⟩ :=
    Graph.addFunction_parameters heads' (by rw [hb]; exact hy) hpb
  rw [ha] at hr
  rw [hb] at hr'
  have hk : ∀ id : FunctionId,
      Alike.Keeps fun node => { node with functions := node.functions ++ [id] } := fun id =>
    ⟨fun _ => rfl, fun _ => rfl, fun _ => rfl, fun _ => rfl, fun _ => List.Subset.refl _,
      fun _ => List.subset_append_left ..⟩
  have hg : Since P.source.unit P.home s.store.graph h :=
    (Since.refl ..).recorded hr hx hsx rfl rfl rfl (fun _ _ => rfl) ((hk _).fields x)
      ((hk _).functions x)
  have hg' : Since P.source'.unit P.home t.store.graph h' :=
    (Since.refl ..).recorded hr' hy (hxy.state hsx) rfl rfl rfl (fun _ _ => rfl)
      ((hk _).fields y) ((hk _).functions y)
  have hmono := fun {a b} (ht : SameType s.store.graph t.store.graph a b) =>
    ht.mono hg.extended hg'.extended
  have hheads := hh.imp fun _ _ hc =>
    (⟨hc.name, hc.typeUse.imp hmono, hc.isVarargs⟩ : ParameterHead.Alike (SameType h h') _ _)
  have hfunctions : FunctionsAlike h h' s.store.graph.functions.nextId
      t.store.graph.functions.nextId := by
    have hab' := hab.imp hmono
    refine ⟨_, _, hself, hself', ?_, parameters_alike hheads hids hids'⟩
    exact { hab' with }
  have hfresh := fresh_nextId hp.graphs.functions
  have hlevel := level_of_succ hp.graphs.functions hsize hsize'
  have hxy' := hxy.mono hg.grows hg'.grows
  refine outcome_record hl hs inferInstance inferInstance hrun hrun' hg hg' ?_ ?_
  · refine hp.graphs.recorded hl.ready hp.injective hr hr' (hk _) (hk _) hx hy hsx hxy hg.grows
      hg'.grows ?_ hlevel { hxy' with functions := ?_ }
    · rw [hfields, hfields']
      exact hp.graphs.fields
    · exact List.rel_append hxy'.functions (.cons ⟨hfunctions, hfresh⟩ .nil)
  · refine ⟨hfunctions, hfresh, owner.id, _, hr.get?_self hx, hsx, ?_⟩
    exact List.mem_append_right _ (List.mem_singleton.2 rfl)

/-! ### Main types -/

omit hl in
/-- A declared type is listed by its unit. -/
private theorem listed {unit : UnitId} {state : ScanState} (hsound : state.Sound unit)
    {type : DeclaredType} (hd : DeclaredBy unit state.store.graph type) :
    ∃ node, state.store.graph.units.get? unit = some node ∧ type.id ∈ node.declaredTypes := by
  obtain ⟨x, hx, -, hs, -⟩ := hd.self
  exact hsound.1.consistent.complete_declared hx hs

/-- Both units get a main type. -/
theorem runs_setMainType {owner owner' : DeclaredType} (ho : P.Declares w.1 w.2 owner owner') :
    (P.tandem Q admits mayFail).Runs w (P.tandem Q admits mayFail).Done
      (ScanState.onGraph (Graph.setMainType P.source.unit owner.id))
      (ScanState.onGraph (Graph.setMainType P.source'.unit owner'.id)) := by
  intro s t hs
  have hp := hs.2.1
  have hw := hs.1
  subst hw
  obtain ⟨node, hn, hm⟩ := listed hp.sound ho.left
  obtain ⟨node', hn', hm'⟩ := listed hp.sound' ho.right
  exact outcome_record hl hs inferInstance inferInstance (Graph.setMainType_declared hn hm)
    (Graph.setMainType_declared hn' hm') (.withMainType ..) (.withMainType ..)
    (hp.graphs.withMainType ho.alike.id) trivial

/-! ### What was kept back -/

/-- The types that a type depends on, with one more unless it is listed. -/
def depending (target : TypeId) (type : TypeNode) : TypeNode :=
  if type.dependsOn.contains target then type
  else { type with dependsOn := type.dependsOn ++ [target] }

omit hl in
private theorem keeps_depending (target : TypeId) : Alike.Keeps (depending target) := by
  refine ⟨?_, ?_, ?_, ?_, ?_, ?_⟩ <;> intro x <;> unfold depending <;> split <;>
    first | rfl | exact List.Subset.refl _

omit hl in
private theorem anonymousIndex_depending (target : TypeId) (x : TypeNode) :
    (depending target x).anonymousIndex = x.anonymousIndex := by
  unfold depending
  split <;> rfl

omit hl in
/-- Types of the same name are listed in both graphs, or in none. -/
private theorem depending_alike {g g' : Graph} (hi : Injective (SameType g g')) {a b : TypeId}
    (hab : SameType g g' a b) {x y : TypeNode} (hxy : P.NodesAlike g g' x y) :
    P.NodesAlike g g' (depending a x) (depending b y) := by
  have hiff : a ∈ x.dependsOn ↔ b ∈ y.dependsOn :=
    mem_iff_of_forall₂ hxy.dependsOn fun h => hi hab h
  unfold depending
  by_cases h : a ∈ x.dependsOn
  · rw [if_pos (List.contains_iff_mem.2 h), if_pos (List.contains_iff_mem.2 (hiff.1 h))]
    exact hxy
  · rw [if_neg (by simpa using h), if_neg (by simpa using fun h' => h (hiff.2 h'))]
    exact { hxy with dependsOn := List.rel_append hxy.dependsOn (.cons hab .nil) }

omit hl in
/-- References enter the graphs. -/
private theorem addDependencies_alike (hP : P.Ready) {pairs pairs' : List (TypeId × TypeId)} :
    ∀ {g g' : Graph}, P.Alike g g' → Injective (SameType g g') →
      Forall₂ (P.References g g') pairs pairs' →
      ∃ h h', (Action.forEach pairs ScanState.addDependency : GraphAction Unit) g = (.ok (), h) ∧
        (Action.forEach pairs' ScanState.addDependency : GraphAction Unit) g' = (.ok (), h') ∧
        Since P.source.unit P.home g h ∧ Since P.source'.unit P.home g' h' ∧ P.Alike h h' := by
  induction pairs generalizing pairs' with
  | nil =>
    intro g g' ha hi hr
    cases hr
    exact ⟨g, g', rfl, rfl, .refl .., .refl .., ha⟩
  | cons pair rest ih =>
    intro g g' ha hi hr
    cases hr with
    | @cons _ pair' _ rest' hpair hrest =>
      obtain ⟨x, hx, hsx⟩ := hpair.owned
      obtain ⟨id', y, hy, hxy⟩ := ha.owned hx hsx
      obtain rfl := (hi (SameType.of_get? hx hy hxy.name hxy.home) hpair.source).1 rfl
      have hrec := Graph.recorded_modify g pair.1 (depending pair.2)
      have hrec' := Graph.recorded_modify g' pair'.1 (depending pair'.2)
      have hk := keeps_depending pair.2
      have hk' := keeps_depending pair'.2
      have hg : Since P.source.unit P.home g _ :=
        (Since.refl ..).recorded hrec hx hsx (hk.name x) (hk.home x) (hk.state x)
          (fun _ _ => anonymousIndex_depending pair.2 x) (hk.fields x) (hk.functions x)
      have hg' : Since P.source'.unit P.home g' _ :=
        (Since.refl ..).recorded hrec' hy (hxy.state hsx) (hk'.name y) (hk'.home y) (hk'.state y)
          (fun _ _ => anonymousIndex_depending pair'.2 y) (hk'.fields y) (hk'.functions y)
      have hi' : Injective (SameType { g with types := g.types.modify pair.1 (depending pair.2) }
          { g' with types := g'.types.modify pair'.1 (depending pair'.2) }) := by
        intro a b a' b' hab hab'
        unfold SameType at hab hab'
        simp only [hrec.label hk.name hk.home, hrec'.label hk'.name hk'.home] at hab hab'
        exact hi hab hab'
      have htarget := hpair.target.mono hg.extended hg'.extended
      have halike := ha.recorded hP hi hrec hrec' hk hk' hx hy hsx hxy hg.grows hg'.grows ha.fields
        ha.functions (depending_alike hi' htarget (hxy.mono hg.grows hg'.grows))
      obtain ⟨h, h', hrun, hrun', hgh, hgh', hfinal⟩ :=
        ih halike hi' (hrest.imp fun _ _ hp => hp.mono hg hg')
      have hstep : ScanState.addDependency pair g = (.ok (), _) :=
        Graph.updateType_known (depending pair.2) hx
      have hstep' : ScanState.addDependency pair' g' = (.ok (), _) :=
        Graph.updateType_known (depending pair'.2) hy
      refine ⟨h, h', ?_, ?_, hg.trans hgh, hg'.trans hgh', hfinal⟩
      · rw [Action.forEach, Action.bind_of_ok hstep]
        exact hrun
      · rw [Action.forEach, Action.bind_of_ok hstep']
        exact hrun'

omit hl in
/-- Uses of fields enter the graphs. -/
private theorem addAccesses_alike {accesses accesses' : List Access} :
    ∀ {g g' : Graph}, P.Alike g g' →
      Forall₂ (Access.Alike (P.Fields g g') (P.Functions g g')) accesses accesses' →
      ∃ h h', (Action.forEach accesses Graph.addAccess : GraphAction Unit) g = (.ok (), h) ∧
        (Action.forEach accesses' Graph.addAccess : GraphAction Unit) g' = (.ok (), h') ∧
        Since P.source.unit P.home g h ∧ Since P.source'.unit P.home g' h' ∧ P.Alike h h' := by
  induction accesses generalizing accesses' with
  | nil =>
    intro g g' ha hr
    cases hr
    exact ⟨g, g', rfl, rfl, .refl .., .refl .., ha⟩
  | cons access rest ih =>
    intro g g' ha hr
    cases hr with
    | @cons _ access' _ rest' haccess hrest =>
      obtain ⟨⟨x, y, hx, hy, -⟩, -⟩ := haccess.function
      obtain ⟨⟨u, v, hu, hv, -⟩, -⟩ := haccess.field
      have hg := Since.withAccess g P.source.unit P.home access
      have hg' := Since.withAccess g' P.source'.unit P.home access'
      obtain ⟨h, h', hrun, hrun', hgh, hgh', hfinal⟩ :=
        ih (ha.withAccess haccess) (accesses_mono hg.grows hg'.grows hrest)
      refine ⟨h, h', ?_, ?_, hg.trans hgh, hg'.trans hgh', hfinal⟩
      · rw [Action.forEach, Action.bind_of_ok (Graph.addAccess_known hx hu)]
        exact hrun
      · rw [Action.forEach, Action.bind_of_ok (Graph.addAccess_known hy hv)]
        exact hrun'

/-- What was kept back enters both graphs. -/
theorem runs_flush {accesses accesses' : List Access}
    (ha : Forall₂ (Access.Alike (P.Fields w.1 w.2) (P.Functions w.1 w.2)) accesses accesses') :
    (P.tandem Q admits mayFail).Runs w (P.tandem Q admits mayFail).Done (ScanState.flush accesses)
      (ScanState.flush accesses') := by
  intro s t hs
  have hp := hs.2.1
  have hw := hs.1
  subst hw
  obtain ⟨h, h', hrun, hrun', hg, hg', halike⟩ :=
    addDependencies_alike hl.ready hp.graphs hp.injective hp.dependencies
  obtain ⟨w₁, hle₁, hs₁, -⟩ := outcome_record (V := (P.tandem Q admits mayFail).Done) hl hs
    inferInstance inferInstance hrun hrun' hg hg' halike trivial
  rw [ScanState.onGraph_run hrun, ScanState.onGraph_run hrun'] at hs₁
  obtain ⟨k, k', hrun₂, hrun₂', hg₂, hg₂', halike₂⟩ :=
    addAccesses_alike halike (accesses_mono hg.grows hg'.grows ha)
  obtain ⟨w₂, hle₂, hs₂, -⟩ := outcome_record (V := (P.tandem Q admits mayFail).Done) hl hs₁
    inferInstance inferInstance hrun₂ hrun₂' hg₂ hg₂' halike₂ trivial
  unfold ScanState.flush
  rw [Action.read_bind, Action.read_bind, Action.bind_of_ok (ScanState.onGraph_run hrun),
    Action.bind_of_ok (ScanState.onGraph_run hrun')]
  exact ⟨w₂, ⟨hle₁.1.trans hle₂.1, hle₁.2.trans hle₂.2⟩, hs₂, by
    rw [ScanState.onGraph_run hrun₂, ScanState.onGraph_run hrun₂']
    trivial⟩

end

end JavaGraph.Twins
