import JavaGraph.Proofs.Scan.Accounted
import JavaGraph.Proofs.Scan.Beside
import JavaGraph.Proofs.Scan.Reading
/-!
# References are settled

The scan of a file, taken twice from the same state, is the tandem of its reading. Every primitive
step of it refers to settled types only, and leaves anonymous classes with the supertypes that
their bases give them. With that the second and the third pass do.
-/

namespace JavaGraph.Reading

open List (Forall₂)
open JavaGraph.Action
open JavaGraph.Graph (Within Recorded)
open ReferenceSite (ParameterHead)

variable (P : Reading)

/-- A type that the file declares, within others that it declares. -/
def Owned (graph : Graph) (type : DeclaredType) : Prop :=
  ∀ id ∈ type.id :: type.outer, ∃ x, graph.types.get? id = some x ∧ x.home = P.home ∧
    x.state = .complete P.source.unit

/-- What a file declares is well formed: no two types have the same identifier, and an anonymous
class is a class body. -/
structure Ready : Prop where
  distinct : ∀ {a b}, a ∈ P.declared.types → b ∈ P.declared.types → a.id = b.id → a = b
  body : ∀ type ∈ P.declared.types, type.site.base?.isSome → type.node.kind = .classBody

variable {P} in
/-- What the file declares stays declared. -/
private theorem Owned.mono {graph after : Graph} {type : DeclaredType} (h : P.Owned graph type)
    (hg : Graph.Retains graph after) : P.Owned after type := by
  intro id hm
  obtain ⟨x, hx, hh, hs⟩ := h id hm
  obtain ⟨y, hy, -, hhy, hsy, -⟩ := hg.type hx
  exact ⟨y, hy, hhy.trans hh, hsy.trans hs⟩

/-- The reading of a file, taken twice. -/
def tandem : Tandem where
  World := ScanState × (TypeId → Prop)
  le w w' := Follows w.1 w'.1 ∧ ∀ id, w.2 id → w'.2 id
  Holds w s t := w.1 = s ∧ s = t ∧ P.Reached w.2 s
  source := P.source
  source' := P.source
  type w a b := a = b ∧ P.Settled w.1 a
  field _ _ a b := a = b
  function _ _ a b := a = b
  owner w a b := a = b ∧ a ∈ P.declared.types ∧ P.Owned w.1.store.graph a
  named w name id := ∃ x, w.1.store.graph.types.get? id = some x ∧ x.name = name
  among declared := declared = P.declared
  recorded w type := w.2 type.id
  admits _ := False
  mayFail := True

variable {P} {α : Type} {w : ScanState × (TypeId → Prop)} {site site' : ReferenceSite}
  {owner owner' : DeclaredType}

/-- What one step of the reading does. -/
private theorem runs_self {V : ScanState × (TypeId → Prop) → α → α → Prop} {action : ScanAction α}
    (h : P.Reached w.2 w.1 → ∃ done, (∀ id, w.2 id → done id) ∧ Follows w.1 (action w.1).2 ∧
      P.Reached done (action w.1).2 ∧
      ∀ {x}, (action w.1).1 = .ok x → V ((action w.1).2, done) x x) :
    P.tandem.Runs w V action action := by
  rintro s t ⟨rfl, rfl, hs⟩
  obtain ⟨done, hd, hf, hr, hv⟩ := h hs
  refine ⟨((action w.1).2, done), ⟨hf, hd⟩, ⟨rfl, rfl, hr⟩, ?_⟩
  cases hx : (action w.1).1 with
  | ok x => exact hv hx
  | error e => exact trivial

/-! ### The same sites -/

/-- A declared type is itself. -/
private theorem alike_of_owner (h : P.tandem.owner w owner owner') :
    DeclaredType.Alike (P.tandem.type w) owner owner' := by
  obtain ⟨rfl, -, ho⟩ := h
  have hself : ∀ id ∈ owner.id :: owner.outer, P.Settled w.1 id := by
    intro id hm
    obtain ⟨x, hx, hh, -⟩ := ho id hm
    exact .of_home hx hh
  refine ⟨⟨rfl, hself _ (List.mem_cons_self ..)⟩, rfl, rfl, rfl, rfl, ?_⟩
  refine List.forall₂_same.2 fun id hm => ⟨rfl, hself id (List.mem_cons_of_mem _ hm)⟩

/-- A site of the file. -/
private theorem site_eq (h : P.tandem.Sites w site site') :
    site = ⟨P.source, P.declared, site.owner⟩ ∧ site'.owner = site.owner ∧
      site.owner ∈ P.declared.types ∧ P.Owned w.1.store.graph site.owner := by
  obtain ⟨source, declared, owner⟩ := site
  obtain ⟨rfl, -, rfl, -, rfl, hm, ho⟩ := h
  exact ⟨rfl, rfl, hm, ho⟩

/-! ### The laws -/

/-- Something is said about the file. -/
private theorem runs_report (diagnostic : Diagnostic) :
    P.tandem.Runs w P.tandem.Done (ScanState.report diagnostic) (ScanState.report diagnostic) :=
  runs_self fun hs => ⟨w.2, fun _ h => h, follows_noted rfl rfl,
    hs.noted (t := w.1.saying diagnostic) rfl rfl hs.dependencies, fun _ => trivial⟩

/-- A reference is kept back. -/
private theorem runs_note {source target : TypeId} (ht : P.Settled w.1 target) :
    P.tandem.Runs w P.tandem.Done (ScanState.noteDependency source target)
      (ScanState.noteDependency source target) := by
  refine runs_self fun hs => ⟨w.2, fun _ h => h, ?_⟩
  unfold ScanState.noteDependency
  split
  · exact ⟨.refl _, hs, fun _ => trivial⟩
  · refine ⟨follows_noted rfl rfl, hs.noted rfl rfl fun pair hp => ?_, fun _ => trivial⟩
    rcases List.mem_append.1 hp with hp | hp
    · exact hs.dependencies pair hp
    · rw [List.mem_singleton.1 hp]
      exact ht

/-- A new placeholder is settled. -/
private theorem settled_missing {s : ScanState} (hh : s.scope.artifact? = P.home)
    (name : QualifiedName) :
    P.Settled (s.missing name P.source.unit) s.store.graph.types.nextId ∧
      ∃ x, (s.missing name P.source.unit).store.graph.types.get? s.store.graph.types.nextId =
        some x ∧ x.name = name := by
  obtain ⟨holder, hx⟩ := ScanState.get?_missing name P.source.unit hh
  exact ⟨.of_home hx rfl, _, hx, rfl⟩

/-- A name stands for a settled type of that name. -/
private theorem runs_resolve (name : QualifiedName) (place : Token) (hu : site.source = P.source) :
    P.tandem.Runs w (fun w a b => P.tandem.type w a b ∧ P.tandem.named w name a)
      (site.resolve name place) (site.resolve name place) := by
  refine runs_self fun hs => ⟨w.2, fun _ h => h, ?_⟩
  have hk : Keeps (ScanState.PassesOn P.source.unit) (site.resolve name place) := by
    rw [← hu]
    infer_instance
  have hsound := hk.keeps w.1 hs.sound
  have hsound' : w.1.Sound site.source.unit := by rw [hu]; exact hs.sound
  cases hl : w.1.scope.lookup name w.1.store with
  | ok found =>
    cases found with
    | some id =>
      rw [ReferenceSite.resolve_found place hl] at hsound ⊢
      obtain ⟨hr, hf, hsettled, hname⟩ := reached_found hs hl hsound
      exact ⟨hf, hr, fun hx => by cases hx; exact ⟨⟨rfl, hsettled⟩, hname⟩⟩
    | none =>
      obtain ⟨-, hrun⟩ := ReferenceSite.resolve_missing place hsound' hl
      rw [hu] at hrun
      rw [hrun] at hsound ⊢
      have hb : ∀ id, ¬ w.1.scope.Borrows name id :=
        not_borrows_of_lookup fun id => by rw [hl]; exact nofun
      obtain ⟨hr, hf⟩ := reached_missing hs hb hsound
      obtain ⟨hsettled, hname⟩ := settled_missing hs.scope name
      exact ⟨hf, hr, fun hx => by cases hx; exact ⟨⟨rfl, hsettled⟩, hname⟩⟩
  | error e =>
    have hsaid : P.Reached w.2 (w.1.saying (site.unanswered name place)) :=
      hs.noted rfl rfl hs.dependencies
    have hfollows : Follows w.1 (w.1.saying (site.unanswered name place)) := follows_noted rfl rfl
    rcases ReferenceSite.resolve_unanswered place hsound' hl with ⟨-, -, hrun⟩ | ⟨-, -, hrun⟩
    · rw [hrun]
      exact ⟨hfollows, hsaid, fun hx => by cases hx⟩
    · rw [hu] at hrun
      rw [hrun] at hsound ⊢
      have hb : ∀ id, ¬ w.1.scope.Borrows name id :=
        not_borrows_of_lookup fun id => by rw [hl]; exact nofun
      obtain ⟨hr, hf⟩ := reached_missing hsaid hb hsound
      obtain ⟨hsettled, hname⟩ := settled_missing hsaid.scope name
      exact ⟨hfollows.trans hf, hr, fun hx => by cases hx; exact ⟨⟨rfl, hsettled⟩, hname⟩⟩

/-- The graph with what is recorded of a type. -/
private theorem runs_record {V : ScanState × (TypeId → Prop) → α → α → Prop}
    {action : GraphAction α} {id : TypeId} {f : TypeNode → TypeNode} {result : α} {after : Graph}
    (done : TypeId → Prop) (hl : Keeps Graph.SameLedger action)
    (hrun : action w.1.store.graph = (.ok result, after))
    (hr : Recorded id f w.1.store.graph after) (hk : Annotates f)
    (hd : ∀ id, w.2 id → done id)
    (hw : ∀ {x}, w.1.store.graph.Within (P.Settled w.1) x →
      after.Within (P.Settled (w.1.withGraph after)) (f x))
    (hb : P.Reached w.2 w.1 → ∀ type ∈ P.declared.types, done type.id → P.Based after type)
    (hv : V (w.1.withGraph after, done) result result) :
    P.tandem.Runs w V (ScanState.onGraph action) (ScanState.onGraph action) := by
  refine runs_self fun hs => ⟨done, hd, ?_⟩
  rw [ScanState.onGraph_run hrun]
  exact ⟨follows_recorded hr hk, hs.recorded hl hrun hr hk (fun _ _ hx => hw hx) (hb hs),
    fun hx => by cases hx; exact hv⟩

/-- What is recorded of a type besides its supertypes leaves anonymous classes as they are. -/
private theorem based_recorded {id : TypeId} {f : TypeNode → TypeNode} {after : Graph}
    (hr : Recorded id f w.1.store.graph after) (hk : Annotates f)
    (hf : ∀ x, (f x).superclass = x.superclass ∧ (f x).interfaces = x.interfaces)
    (hs : P.Reached w.2 w.1) : ∀ type ∈ P.declared.types, w.2 type.id → P.Based after type :=
  fun type hm hd => (hs.based type hm hd).recorded hr hk fun _ => hf

/-- Supertypes of a type are recorded. -/
private theorem runs_supertypes (hP : P.Ready) {superclass : Option TypeId}
    {interfaces : List TypeId} (ho : P.tandem.owner w owner owner)
    (hc : ∀ target, superclass = some target → P.Settled w.1 target)
    (hi : ∀ target ∈ interfaces, P.Settled w.1 target)
    (hb : ∀ {x after}, w.1.store.graph.types.get? owner.id = some x →
      Recorded owner.id (fun type => { type with superclass, interfaces }) w.1.store.graph after →
      after.types.get? owner.id = some { x with superclass, interfaces } → P.Based after owner) :
    P.tandem.Runs w (fun w _ _ => P.tandem.recorded w owner)
      (ScanState.onGraph <| Graph.updateType owner.id fun type =>
        { type with superclass, interfaces })
      (ScanState.onGraph <| Graph.updateType owner.id fun type =>
        { type with superclass, interfaces }) := by
  obtain ⟨-, hm, ho⟩ := ho
  obtain ⟨x, hx, -⟩ := ho _ (List.mem_cons_self ..)
  have hk : Annotates fun type => { type with superclass, interfaces } :=
    ⟨fun _ => rfl, fun _ => rfl, fun _ => rfl, fun _ => rfl, fun _ => rfl⟩
  have hr := Graph.recorded_modify w.1.store.graph owner.id fun type =>
    { type with superclass, interfaces }
  have hf := follows_recorded (s := w.1) hr hk
  refine runs_record (fun id => w.2 id ∨ id = owner.id)
    (Graph.keeps_updateType _ _ hk.ledger) (Graph.updateType_known _ hx) hr hk
    (fun _ => .inl) ?_ ?_ (.inr rfl)
  · intro y hy
    exact { hy.mono hf.retains.toKeepsMembers fun ht => ht.mono hf with
      superclass := fun ht => (hc _ ht).mono hf
      interfaces := fun ht => (hi _ ht).mono hf }
  · intro hs type htype hd
    by_cases hid : type.id = owner.id
    · rw [hP.distinct htype hm hid]
      exact hb hx hr (hr.get?_self hx)
    · exact (hs.based type htype (hd.resolve_right hid)).recorded hr hk fun h => absurd h hid

/-- An anonymous class gets the supertype that its base gives it. -/
private theorem runs_base (hP : P.Ready) (h : P.tandem.Sites w site site') {node : Tree}
    {name : QualifiedName} {a : TypeId} (hbase : site.owner.site.base? = some (.typeRef node))
    (hname : site.baseName? [] node = some name) (hs : P.Settled w.1 a)
    (hn : P.tandem.named w name a) :
    P.tandem.Runs w (fun w _ _ => P.tandem.recorded w site.owner)
      (Tandem.recordBase site.owner.id a) (Tandem.recordBase site.owner.id a) := by
  obtain ⟨hsite, -, hm, ho⟩ := site_eq h
  obtain ⟨y, hy, hny⟩ := hn
  rintro s t ⟨rfl, rfl, hreached⟩
  have hread : ScanState.readGraph (fun graph => graph.types.get a) w.1 = (.ok y, w.1) := by
    simp [ScanState.readGraph, Action.check, Arena.get, hy]
  unfold Tandem.recordBase
  rw [Action.bind_of_ok hread]
  refine runs_supertypes hP ⟨rfl, hm, ho⟩ ?_ ?_ ?_ _ _ ⟨rfl, rfl, hreached⟩
  · intro target ht
    unfold Tandem.onBase at ht
    split at ht <;> cases ht
    exact hs
  · intro target ht
    unfold Tandem.onBase at ht
    split at ht
    · rw [List.mem_singleton.1 ht]
      exact hs
    · cases ht
  · intro x after hx hr hself other hother
    obtain rfl : node = other := by
      rw [hbase] at hother
      cases hother
      rfl
    refine ⟨_, hself, ?_⟩
    rw [← hsite, hname]
    obtain ⟨z, hz, hnz, -, -, hkz⟩ := (hr.retains (fun _ => rfl) (fun _ => rfl) (fun _ => rfl)
      fun _ => rfl).type hy
    exact ⟨a, z, hz, hnz.trans hny, by rw [hkz]⟩

/-- A field comes in. -/
private theorem runs_addField {field : Field} (ho : P.tandem.owner w owner owner)
    (hd : field.declaringType = owner.id) (hu : field.typeUse.Within (P.Settled w.1)) :
    P.tandem.Runs w (P.tandem.field · owner.id) (ScanState.onGraph (Graph.addField field))
      (ScanState.onGraph (Graph.addField field)) := by
  obtain ⟨x, hx, -⟩ := ho.2.2 _ (List.mem_cons_self ..)
  have hr := Graph.recorded_withField w.1.store.graph field
  have hk : Annotates fun node =>
      { node with fields := node.fields ++ [w.1.store.graph.fields.nextId] } :=
    ⟨fun _ => rfl, fun _ => rfl, fun _ => rfl, fun _ => rfl, fun _ => rfl⟩
  have hf := follows_recorded (s := w.1) hr hk
  refine runs_record w.2 inferInstance (Graph.addField_known (by rw [hd]; exact hx)) hr hk
    (fun _ h => h) ?_ (based_recorded hr hk fun _ => ⟨rfl, rfl⟩) rfl
  intro y hy
  have hy := hy.mono hf.retains.toKeepsMembers fun ht => ht.mono hf
  refine { hy with fields := fun hm => ?_ }
  rcases List.mem_append.1 hm with hm | hm
  · exact hy.fields hm
  · rw [List.mem_singleton.1 hm]
    exact ⟨field, Graph.get?_withField .., fun target ht => (hu target ht).mono hf⟩

/-- A function comes in with its parameters. -/
private theorem runs_addFunction {function : Function} {heads : List ParameterHead}
    (ho : P.tandem.owner w owner owner) (hd : function.declaringType = owner.id)
    (hp : function.parameters = [])
    (hreturns : ∀ use, function.returns = some use → use.Within (P.Settled w.1))
    (hthrows : ∀ target ∈ function.throws, P.Settled w.1 target)
    (hheads : ∀ head ∈ heads, head.typeUse.Within (P.Settled w.1)) :
    P.tandem.Runs w (P.tandem.function · owner.id)
      (ScanState.onGraph do
        let id ← Graph.addFunction function
        ReferenceSite.addParameters id heads
        return id)
      (ScanState.onGraph do
        let id ← Graph.addFunction function
        ReferenceSite.addParameters id heads
        return id) := by
  obtain ⟨x, hx, -⟩ := ho.2.2 _ (List.mem_cons_self ..)
  obtain ⟨after, ids, hrun, hr, -, -, hself, hids⟩ :=
    Graph.addFunction_parameters heads (by rw [hd]; exact hx) hp
  have hk : Annotates fun node =>
      { node with functions := node.functions ++ [w.1.store.graph.functions.nextId] } :=
    ⟨fun _ => rfl, fun _ => rfl, fun _ => rfl, fun _ => rfl, fun _ => rfl⟩
  have hf := follows_recorded (s := w.1) hr hk
  refine runs_record w.2 inferInstance hrun hr hk (fun _ h => h) ?_
    (based_recorded hr hk fun _ => ⟨rfl, rfl⟩) rfl
  intro y hy
  have hy := hy.mono hf.retains.toKeepsMembers fun ht => ht.mono hf
  refine { hy with functions := fun hm => ?_ }
  rcases List.mem_append.1 hm with hm | hm
  · exact hy.functions hm
  · rw [List.mem_singleton.1 hm]
    refine ⟨_, hself, ?_, ?_, ?_⟩
    · exact fun hu target ht => (hreturns _ hu target ht).mono hf
    · exact fun ht => (hthrows _ ht).mono hf
    · intro id hm
      obtain ⟨⟨head, index⟩, hh, hp⟩ := mem_of_forall₂ hids.flip hm
      have hhead := hheads head (List.mem_of_getElem? (List.mem_zipIdx_iff_getElem?.1 hh))
      exact ⟨_, hp, fun target ht => (hhead target ht).mono hf⟩

/-! ### What was kept back -/

/-- A dependency does not name, place or classify a type. -/
private theorem annotates_depending (target : TypeId) : Annotates (Twins.depending target) := by
  refine ⟨?_, ?_, ?_, ?_, ?_⟩ <;> intro x <;> unfold Twins.depending <;> split <;> rfl

/-- A dependency is no supertype and no member. -/
private theorem depending_references (target : TypeId) (x : TypeNode) :
    (Twins.depending target x).superclass = x.superclass ∧
      (Twins.depending target x).interfaces = x.interfaces ∧
      (Twins.depending target x).fields = x.fields ∧
      (Twins.depending target x).functions = x.functions ∧
      ∀ id ∈ (Twins.depending target x).dependsOn, id ∈ x.dependsOn ∨ id = target := by
  unfold Twins.depending
  split
  · exact ⟨rfl, rfl, rfl, rfl, fun _ => .inl⟩
  · exact ⟨rfl, rfl, rfl, rfl, fun id hm => (List.mem_append.1 hm).imp_right List.mem_singleton.1⟩

variable {done : TypeId → Prop} {s : ScanState}

/-- A dependency on a settled type. -/
private theorem reached_dependency {pair : TypeId × TypeId} (h : P.Reached done s)
    (ht : P.Settled s pair.2) :
    P.Reached done (s.withGraph (ScanState.addDependency pair s.store.graph).2) ∧
      Follows s (s.withGraph (ScanState.addDependency pair s.store.graph).2) := by
  cases hrun : ScanState.addDependency pair s.store.graph with
  | mk result after =>
    cases result with
    | error e =>
      obtain rfl : after = s.store.graph := Graph.eq_of_updateType_error hrun
      exact ⟨h, .refl s⟩
    | ok u =>
      have hk := annotates_depending pair.2
      have hr : Recorded pair.1 (Twins.depending pair.2) s.store.graph after := by
        rw [Graph.eq_of_updateType hrun]
        exact Graph.recorded_modify ..
      have hf := follows_recorded (s := s) hr hk
      refine ⟨h.recorded inferInstance hrun hr hk ?_ ?_, hf⟩
      · intro x _ _ hw
        have hw := hw.mono hf.retains.toKeepsMembers fun ht => ht.mono hf
        obtain ⟨hsuper, hinterfaces, hfields, hfunctions, hdepends⟩ :=
          depending_references pair.2 x
        refine ⟨?_, ?_, ?_, ?_, ?_⟩
        · rw [hsuper]
          exact hw.superclass
        · rw [hinterfaces]
          exact hw.interfaces
        · rw [hfields]
          exact hw.fields
        · rw [hfunctions]
          exact hw.functions
        · intro target hm
          rcases hdepends target hm with hm | rfl
          · exact hw.dependsOn hm
          · exact ht.mono hf
      · intro type hm hd
        exact (h.based type hm hd).recorded hr hk fun _ x =>
          ⟨(depending_references pair.2 x).1, (depending_references pair.2 x).2.1⟩

/-- A use of a field. -/
private theorem reached_access (access : Access) (h : P.Reached done s) :
    P.Reached done (s.withGraph (Graph.addAccess access s.store.graph).2) ∧
      Follows s (s.withGraph (Graph.addAccess access s.store.graph).2) := by
  cases hrun : Graph.addAccess access s.store.graph with
  | mk result after =>
    have hledger : Keeps Graph.SameLedger (Graph.addAccess access) := inferInstance
    have hsound := h.sound.withGraph hledger hrun
    rcases Graph.addAccess_cases hrun with rfl | rfl
    · exact ⟨h, .refl s⟩
    · have hf : Follows s (s.withGraph (s.store.graph.withAccess access)) :=
        ⟨Graph.retains_withAccess .., fun h => h⟩
      exact ⟨⟨hsound, h.scope, h.borrowed, h.own, h.lent,
        fun hx hs => (h.within hx hs).mono hf.retains.toKeepsMembers fun ht => ht.mono hf,
        fun pair hp => (h.dependencies pair hp).mono hf, h.based⟩, hf⟩

/-- One after another, as long as all goes well. -/
private theorem reached_forEach {α : Type} {f : α → GraphAction Unit}
    (Q : ScanState → α → Prop) (hQ : ∀ {s t x}, Follows s t → Q s x → Q t x)
    (hf : ∀ {s x}, P.Reached done s → Q s x → P.Reached done (s.withGraph (f x s.store.graph).2) ∧
      Follows s (s.withGraph (f x s.store.graph).2)) (items : List α) :
    ∀ {s}, P.Reached done s → (∀ x ∈ items, Q s x) →
      P.Reached done (s.withGraph (Action.forEach items f s.store.graph).2) ∧
        Follows s (s.withGraph (Action.forEach items f s.store.graph).2) := by
  induction items with
  | nil => exact fun h _ => ⟨h, .refl _⟩
  | cons x rest ih =>
    intro s h hx
    obtain ⟨hr, hfollows⟩ := hf h (hx x (List.mem_cons_self ..))
    rw [Action.forEach]
    cases hrun : f x s.store.graph with
    | mk result after =>
      rw [hrun] at hr hfollows
      cases result with
      | error e =>
        simp only [Bind.bind, hrun]
        exact ⟨hr, hfollows⟩
      | ok u =>
        rw [Action.bind_of_ok hrun]
        obtain ⟨hr', hfollows'⟩ :=
          ih hr fun y hy => hQ hfollows (hx y (List.mem_cons_of_mem _ hy))
        exact ⟨hr', hfollows.trans hfollows'⟩

/-- What was kept back comes in. -/
private theorem runs_flush (accesses : List Access) :
    P.tandem.Runs w P.tandem.Done (ScanState.flush accesses) (ScanState.flush accesses) := by
  refine runs_self fun hs => ⟨w.2, fun _ h => h, ?_⟩
  obtain ⟨hr, hf⟩ := reached_forEach (fun s pair => P.Settled s pair.2)
    (fun hf ht => Settled.mono ht hf) reached_dependency w.1.dependencies hs hs.dependencies
  unfold ScanState.flush
  rw [Action.read_bind]
  cases hrun : Action.forEach w.1.dependencies ScanState.addDependency w.1.store.graph with
  | mk result after =>
    rw [hrun] at hr hf
    have hgraph := ScanState.onGraph_run hrun
    cases result with
    | error e =>
      simp only [Bind.bind, hgraph]
      exact ⟨hf, hr, fun hx => by cases hx⟩
    | ok u =>
      rw [Action.bind_of_ok hgraph]
      obtain ⟨hr', hf'⟩ := reached_forEach (fun _ _ => True) (fun _ h => h)
        (f := Graph.addAccess) (fun h _ => reached_access _ h) accesses hr fun _ _ => trivial
      have hlast : ScanState.onGraph (Action.forEach accesses Graph.addAccess)
          (w.1.withGraph after) = (_, _) := ScanState.onGraph_run rfl
      rw [hlast]
      exact ⟨hf.trans hf', hr', fun _ => trivial⟩

/-! ### The tandem -/

/-- Primitive steps refer to settled types only. -/
theorem lawful (hP : P.Ready) : P.tandem.Lawful where
  refl w := ⟨.refl _, fun _ h => h⟩
  trans h h' := ⟨h.1.trans h'.1, fun id hd => h'.2 id (h.2 id hd)⟩
  type_mono hle hab := ⟨hab.1, hab.2.mono hle.1⟩
  field_mono _ hab := hab
  function_mono _ hab := hab
  owner_mono hle hab := ⟨hab.1, hab.2.1, hab.2.2.mono hle.1.retains⟩
  named_mono hle hn := by
    obtain ⟨x, hx, hn⟩ := hn
    obtain ⟨y, hy, hny, -⟩ := hle.1.retains.type hx
    exact ⟨y, hy, hny.trans hn⟩
  recorded_mono hle hd := hle.2 _ hd
  injective _ := by
    intro a b a' b' hab hab'
    rw [hab.1, hab'.1]
  alike ho := alike_of_owner ho
  known := by
    rintro w s t a b ⟨rfl, rfl, -⟩ ⟨rfl, x, hx, -⟩
    exact ⟨⟨x, hx⟩, x, hx⟩
  display := by
    rintro w s t a b ⟨rfl, rfl, -⟩ hu
    rw [(eq_of_use hu).1]
  report line column text := runs_report _
  resolve name place h := by
    have hsame : ∀ site' : ReferenceSite, site'.source = P.source → ∀ site : ReferenceSite,
        site.source = P.source → site.resolve name place = site'.resolve name place := by
      intro site' h' site h
      unfold ReferenceSite.resolve
      rw [h, h']
    rw [hsame _ h.source _ h.source']
    exact runs_resolve name place h.source
  note ho ht := by
    rw [← ho.1, ← ht.1]
    exact runs_note ht.2
  supertypes h hb hc hi := by
    obtain ⟨hsite, hsame, hm, ho⟩ := site_eq h
    obtain ⟨rfl, hsuperclass⟩ := eq_of_type? hc
    obtain ⟨rfl, hall⟩ := eq_of_types hi
    rw [hsame]
    refine runs_supertypes hP ⟨rfl, hm, ho⟩ hsuperclass hall fun hx hr hself node hnode => ?_
    have hbody := hP.body _ hm (by rw [hnode]; rfl)
    obtain ⟨hname, hsuper, hinterfaces⟩ := hb node hbody hnode
    refine ⟨_, hself, ?_⟩
    rw [← hsite, hname]
    exact ⟨hsuper, hinterfaces⟩
  base h hb hname hs hn := by
    obtain ⟨-, hsame, -⟩ := site_eq h
    rw [hsame, ← hs.1]
    exact runs_base hP h hb hname hs.2 hn
  addField ho hd _ hab := by
    obtain ⟨rfl, hu⟩ := eq_of_field hab
    obtain rfl := ho.1
    exact runs_addField ho hd hu
  addFunction ho hd _ hpa hpb hab hh := by
    obtain ⟨rfl, hreturns, hthrows⟩ := eq_of_function hab hpa hpb
    obtain ⟨rfl, hheads⟩ := eq_of_heads hh
    obtain rfl := ho.1
    exact runs_addFunction ho hd hpa hreturns hthrows hheads
  flush ha := by
    rw [eq_of_accesses (fun h => h) (fun h => h) ha]
    exact runs_flush _

end JavaGraph.Reading

/-!
## What a scanned file refers to

When the three passes over a new file are done, all that its types refer to is settled, and its
anonymous classes have the supertypes that their bases give them.
-/

namespace JavaGraph

open JavaGraph.Action

/-- A type that is of a universe exactly if the universe had its name at an earlier moment. -/
def Graph.OwnIfHad (home : Universe) (earlier graph : Graph) (target : TypeId) : Prop :=
  ∃ y, graph.types.get? target = some y ∧ (y.home = home ↔ earlier.Has y.name home)

namespace OpenProject

section

variable {opened : OpenProject} {file : FileId} {path : String} {parsed : ParsedSource}

/-- The reading of a new file, from a state on in which its types are declared. -/
def reading (opened : OpenProject) (file : FileId) (declared : Declarations) (s : ScanState) :
    Reading where
  source := ⟨opened.store.graph.units.nextId, file⟩
  home := opened.scope.artifact?
  declared := declared
  own name := s.store.graph.Has name opened.scope.artifact?

/-- The types that are declared are those of the unit. -/
private theorem declared_diagonal (hs : opened.Sound) (ht : opened.Tidy) {declared : Declarations}
    {m : ScanState}
    (hr : Declarations.declare ⟨opened.store.graph.units.nextId, file⟩
      (Header.ofTree file parsed.root).1 parsed.root (opened.initial file path parsed) =
        (.ok declared, m)) :
    m.scope.artifact? = opened.scope.artifact? ∧ Twins.BorrowedKnown m.store.graph m.scope ∧
      ∀ type ∈ declared.types,
        Twins.DeclaredBy opened.store.graph.units.nextId m.store.graph type := by
  have hlookup : (Twins.ofOpened opened opened file file path parsed).Lookup
      (Twins.SameAnswers opened.store.answers) (fun _ => True)
      (opened.scope.artifact? = none ∧ opened.store.answers = false) :=
    Twins.lookup_diagonal (Twins.ready_ofOpened hs hs) ht.graph.blank
  have hq : Twins.SameAnswers opened.store.answers (opened.initial file path parsed)
      (opened.initial file path parsed) := ⟨rfl, rfl, rfl, fun _ => rfl, ht.borrowed⟩
  have hrun := Tandem.runs_declarations (Twins.lawful hlookup) (Header.ofTree file parsed.root).1
    parsed.root _ _ ⟨rfl, Twins.paired_initial hs hs rfl rfl, hq⟩ (by
      change Tandem.Admits _ _ (Declarations.declare ⟨opened.store.graph.units.nextId, file⟩ _ _ _).1
      rw [hr]
      exact fun _ _ => trivial)
  change Tandem.Outcome _ _ _ (Declarations.declare ⟨opened.store.graph.units.nextId, file⟩ _ _ _)
    (Declarations.declare ⟨opened.store.graph.units.nextId, file⟩ _ _ _) at hrun
  rw [hr] at hrun
  obtain ⟨_, -, ⟨rfl, hp, hq⟩, hv⟩ := hrun
  refine ⟨hp.scope, hq.borrowed, fun type htype => ?_⟩
  obtain ⟨other, -, hd⟩ := mem_of_forall₂ hv.types htype
  exact hd.left

/-- A placeholder refers to nothing, and the unit has declared nothing before; so the types of the
unit are not read when all of them are declared. -/
theorem unread_scanning (hs : opened.Sound) (ht : opened.Tidy) {declared : Declarations}
    {m m' : ScanState}
    (hscan : Scanning ⟨opened.store.graph.units.nextId, file⟩ (Header.ofTree file parsed.root).1
      parsed.root (opened.initial file path parsed) declared m m') {id : TypeId} {x : TypeNode}
    (hx : m'.store.graph.types.get? id = some x)
    (hc : x.state = .complete opened.store.graph.units.nextId) : x.Unread := by
  have hfresh : (Twins.ofOpened opened opened file file path parsed).Ready :=
    Twins.ready_ofOpened hs hs
  have he := Declarations.enrolled_declare (initial_sound file path parsed hs) hscan.declare
  rw [hscan.types] at hx
  refine he.enrols.unread ?_ ?_ hx hc
  · intro k y hy hi
    change opened.store.graph.types.get? k = some y at hy
    obtain ⟨holder, hblank⟩ := ht.graph.blank hy hi
    rw [hblank]
    rfl
  · intro k y hy hsy
    exact hfresh.new hy hsy

/-- When the three passes are done, or have failed, all is settled. -/
theorem reached_scanTypes (hs : opened.Sound) (ht : opened.Tidy) {recordAccesses : Bool}
    {result : Except GraphError Declarations} {s : ScanState}
    (hr : scanTypes recordAccesses ⟨opened.store.graph.units.nextId, file⟩
      (Header.ofTree file parsed.root).1 path parsed.root (opened.initial file path parsed) =
        (result, s)) :
    ∃ declared m done, (opened.reading file declared m).Reached done s ∧
      ∀ other, result = .ok other → other = declared ∧ ∀ type ∈ declared.types, done type.id := by
  have hinitial := initial_sound file path parsed hs
  obtain ⟨declared, m, m', hscan, hrun⟩ := scanTypes_run
    ⟨opened.store.graph.units.nextId, file⟩ hinitial recordAccesses
    (Header.ofTree file parsed.root).1 path parsed.root
  rw [hrun] at hr
  obtain ⟨hhome, hborrowed, hby⟩ := declared_diagonal hs ht hscan.declare
  have he := Declarations.enrolled_declare hinitial hscan.declare
  have hsound := hscan.sound
  have hscope := hscan.scope
  have hget : ∀ id, m'.store.graph.types.get? id = m.store.graph.types.get? id := by
    intro id
    rw [hscan.types]
  have hready : (opened.reading file declared m').Ready := by
    constructor
    · exact fun ha hb hid => List.inj_on_of_nodup_map he.distinct ha hb hid
    · intro type hm hbase
      cases he.numbered type hm with
      | mk anonymous _ => exact (anonymous hbase).2.2
  have hreached : (opened.reading file declared m').Reached (fun _ => False) m' := by
    refine ⟨hsound, by rw [hscope]; exact hhome, ?_, fun h => h, fun _ h => h, ?_, ?_,
      fun _ _ h => h.elim⟩
    · rw [hscope]
      exact hborrowed.of_known fun hx => ⟨_, (hget _).trans hx, rfl⟩
    · intro id x hx hsx
      exact .of_unread (unread_scanning hs ht hscan hx hsx)
    · intro pair hp
      rw [hscan.dependencies, he.dependencies] at hp
      cases hp
  have howned : ∀ type ∈ declared.types,
      (opened.reading file declared m').Owned m'.store.graph type := by
    intro type hm id hid
    have hknown : ∃ x, m'.store.graph.types.get? id = some x ∧
        x.state = .complete opened.store.graph.units.nextId := by
      rcases List.mem_cons.1 hid with rfl | hid
      · obtain ⟨x, hx, -, hsx, -⟩ := (hby type hm).self
        exact ⟨x, (hget _).trans hx, hsx⟩
      · obtain ⟨x, hx, hsx⟩ := (hby type hm).outer id hid
        exact ⟨x, (hget _).trans hx, hsx⟩
    obtain ⟨x, hx, hsx⟩ := hknown
    exact ⟨x, hx, (hsound.home_of_complete hx hsx).trans (hscope ▸ hhome), hsx⟩
  have hdeclared : Declarations.Alike
      ((opened.reading file declared m').tandem.owner (m', fun _ => False)) declared declared :=
    ⟨rfl, rfl, List.forall₂_same.2 fun type hm => ⟨rfl, hm, howned type hm⟩⟩
  have hrun := Tandem.runs_readTypes (Reading.lawful hready) recordAccesses rfl hdeclared m' m'
    ⟨rfl, rfl, hreached⟩
  change Tandem.Outcome _ _ _
    (readTypes recordAccesses ⟨opened.store.graph.units.nextId, file⟩ declared m')
    (readTypes recordAccesses ⟨opened.store.graph.units.nextId, file⟩ declared m') at hrun
  rw [hr] at hrun
  obtain ⟨⟨s', done⟩, -, ⟨rfl, -, hreached⟩, hv⟩ := hrun
  refine ⟨declared, m', done, hreached, fun other ho => ?_⟩
  subst ho
  exact ⟨eq_of_readTypes hr, hv.2⟩

end

/-! ### New files -/

variable {opened : OpenProject} {source : SourceText} {id : TypeId} {x : TypeNode}

/-- The scan of a new file in the scope of an artifact succeeds, and all is settled then. -/
theorem reached_passes (hs : opened.Sound) (ht : opened.Tidy) (config : ScanConfig)
    (source : SourceText) (ha : opened.scope.artifact?.isSome) :
    ∃ declared m done, (passes config opened source).1 = .ok declared ∧
      (opened.reading (opened.fileOf source) declared m).Reached done
        (passes config opened source).2 ∧
      ∀ type ∈ declared.types, done type.id ∧
        Twins.DeclaredBy opened.store.graph.units.nextId (passes config opened source).2.store.graph
          type := by
  have hs' : (opened.seeing source.path).Sound := hs
  have ht' : (opened.seeing source.path).Tidy := ⟨ht.graph, ht.borrowed⟩
  cases hr : passes config opened source with
  | mk result s =>
    obtain ⟨-, -, hg⟩ := scanned_diagonal hs' ht' hr
    cases result with
    | error e =>
      have hnone : opened.scope.artifact? = none := hg.1
      rw [hnone] at ha
      cases ha
    | ok declared =>
      obtain ⟨other, m, done, hreached, hdone⟩ := reached_scanTypes hs' ht' hr
      obtain ⟨rfl, hdone⟩ := hdone declared rfl
      exact ⟨declared, m, done, rfl, hreached, fun type hm => ⟨hdone type hm, hg type hm⟩⟩

/-- A scan stays in tandem with itself. -/
theorem paired_passes (hs : opened.Sound) (ht : opened.Tidy) (config : ScanConfig)
    (source : SourceText) :
    (Twins.ofOpened (opened.seeing source.path) (opened.seeing source.path)
      (opened.fileOf source) (opened.fileOf source) source.path (parsed config source)).Paired
      (passes config opened source).2 (passes config opened source).2 := by
  have hs' : (opened.seeing source.path).Sound := hs
  have ht' : (opened.seeing source.path).Tidy := ⟨ht.graph, ht.borrowed⟩
  cases hr : passes config opened source with
  | mk result s => exact (scanned_diagonal hs' ht' hr).1

/-- What the new unit does not declare was declared before. -/
theorem complete_passes (hs : opened.Sound) (ht : opened.Tidy) (config : ScanConfig)
    (source : SourceText)
    (hx : (passes config opened source).2.store.graph.types.get? id = some x)
    (hc : x.isComplete = true) :
    opened.store.graph.types.get? id = some x ∨
      x.state = .complete opened.store.graph.units.nextId := by
  have hp := paired_passes hs ht config source
  by_cases hsx : x.state = .complete opened.store.graph.units.nextId
  · exact .inr hsx
  · rcases hp.graphs.since.back hx hsx with hx' | ⟨-, name, holder, rfl⟩
    · exact .inl hx'
    · cases hc

/-- What the new unit declares belongs to the universe of the scope. -/
theorem home_passes (hs : opened.Sound) (ht : opened.Tidy) {config : ScanConfig}
    (hx : (passes config opened source).2.store.graph.types.get? id = some x)
    (hsx : x.state = .complete opened.store.graph.units.nextId) :
    x.home = opened.scope.artifact? := by
  have hp := paired_passes hs ht config source
  exact (hp.sound.home_of_complete hx hsx).trans hp.scope

/-- A new file refers to the types of its own universe if it has them when the file is scanned. -/
theorem ownIfHad_passes (hs : opened.Sound) (ht : opened.Tidy) (config : ScanConfig)
    (source : SourceText)
    (ha : opened.scope.artifact?.isSome)
    (hx : (passes config opened source).2.store.graph.types.get? id = some x)
    (hsx : x.state = .complete opened.store.graph.units.nextId) :
    (passes config opened source).2.store.graph.Within
      (Graph.OwnIfHad opened.scope.artifact? (passes config opened source).2.store.graph
        (passes config opened source).2.store.graph) x := by
  obtain ⟨declared, m, done, -, hreached, -⟩ := reached_passes hs ht config source ha
  refine (hreached.within hx hsx).mono (.refl _) fun {target} hsettled => ?_
  obtain ⟨y, hy, hown⟩ := hsettled
  exact ⟨y, hy, hreached.home_iff ⟨y, hy, hown⟩ hy⟩

end OpenProject

end JavaGraph
