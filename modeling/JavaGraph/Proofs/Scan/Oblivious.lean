import JavaGraph.Proofs.Graph.Unplaced
import JavaGraph.Proofs.Scan.Accounted
import JavaGraph.Proofs.Scan.Alike
import JavaGraph.Proofs.Scan.Walk
/-!
# What scans do not see

A state may have something that the scan of a unit does not look at. With or without it, every
primitive step gives the same and leaves the same state but for that. Then so does the whole scan:
it is in tandem with the same scan without what it does not see.
-/

namespace JavaGraph

open List (Forall₂)
open JavaGraph.Action
open ReferenceSite (ParameterHead)

namespace ScanState

/-- A declared type is known in a sound state. -/
theorem Sound.declared_known {unit : UnitId} {s t : ScanState} (h : s.Sound unit)
    {name : QualifiedName} {id : TypeId} (hrun : inScope (·.declare name unit) s = (.ok id, t)) :
    ∃ x, t.store.graph.types.get? id = some x := by
  rcases Twins.inScope_declare_cases h rfl name with
    ⟨_, -, hrun'⟩ | ⟨id', middle, ⟨⟨x, hx, -⟩, -⟩, hrun'⟩
  · cases hrun'.symm.trans hrun
  · cases hrun'.symm.trans hrun
    refine ⟨{ x with state := .complete unit, artifact := s.scope.artifact? }, ?_⟩
    change (middle.withDeclaration id unit s.scope.artifact?).types.get? id = _
    rw [Graph.get?_types_withDeclaration, if_pos rfl, hx]
    rfl

/-- What is done in the graph does not look at something if that is nothing of the graph that it looks
at. -/
theorem commutes_onGraph {α : Type} {φ : ScanState → ScanState} {ψ : Graph → Graph}
    {action : GraphAction α} (h : Commutes ψ action)
    (hget : ∀ s, (φ s).store.graph = ψ s.store.graph)
    (hset : ∀ s graph, (φ s).withGraph (ψ graph) = φ (s.withGraph graph)) :
    Commutes φ (onGraph action) := by
  constructor
  intro s
  have hrun : action (φ s).store.graph =
      ((action s.store.graph).1, ψ (action s.store.graph).2) := by
    rw [hget]
    exact h.commutes s.store.graph
  have hplain : onGraph action s = ((action s.store.graph).1, s.withGraph (action s.store.graph).2) :=
    onGraph_run rfl
  unfold CommutesAt
  rw [onGraph_run hrun, hplain, hset]

/-- A reference is kept back whatever is not looked at, if that is no reference. -/
theorem commutes_noteDependency {φ : ScanState → ScanState} (source target : TypeId)
    (h : ∀ s, { φ s with dependencies := (φ s).dependencies ++ [(source, target)] } =
      φ { s with dependencies := s.dependencies ++ [(source, target)] }) :
    Commutes φ (noteDependency source target) := by
  constructor
  intro s
  unfold noteDependency
  split
  · rfl
  · exact congrArg (Prod.mk _) (h s)

/-- If an invariant holds, it goes on to hold. -/
def Stays (Inv : ScanState → Prop) (before after : ScanState) : Prop := Inv before → Inv after

instance (Inv : ScanState → Prop) : Action.Guarantee (Stays Inv) where
  refl _ := id
  trans h h' := h' ∘ h

/-- While an invariant holds, the scan of a unit does not see what `φ` changes in a state. Of types
that is at most to which artifact they belong, and of diagnostics whether lookups have failed. -/
structure Oblivious (source : SourceUnit) (Inv : ScanState → Prop) (φ : ScanState → ScanState) :
    Prop where
  stays : Guarantee source.unit (Stays Inv)
  types : ∀ s id, ((φ s).store.graph.types.get? id).map TypeNode.forgotten =
    (s.store.graph.types.get? id).map TypeNode.forgotten
  dependencies : ∀ s, (φ s).dependencies = s.dependencies
  report : ∀ diagnostic, diagnostic.isLookupFailure = false → Commutes φ (report diagnostic)
  note : ∀ source target, Commutes φ (noteDependency source target)
  record : ∀ {α : Type} (action : GraphAction α),
    (∀ blur : Graph.Blur, Commutes blur.apply action) → Commutes φ (onGraph action)
  resolve : ∀ {s} {site : ReferenceSite} name place, Inv s → site.source = source →
    CommutesAt φ (site.resolve name place) s
  /-- Types that are found or come in are known. -/
  known : ∀ {s t id} {site : ReferenceSite} {name place}, Inv s → site.source = source →
    site.resolve name place s = (.ok id, t) → ∃ x, t.store.graph.types.get? id = some x
  declare : ∀ {s} name, Inv s → CommutesAt φ (inScope (·.declare name source.unit)) s
  /-- A declared type is known. -/
  declared : ∀ {s t id name}, Inv s → inScope (·.declare name source.unit) s = (.ok id, t) →
    ∃ x, t.store.graph.types.get? id = some x

/-- The types that a graph has. -/
def Has (graph : Graph) (id : TypeId) : Prop := ∃ x, graph.types.get? id = some x

/-- A scan of a unit and the same scan without what it does not see; a world is what the graph
has. -/
def blindTandem (source : SourceUnit) (Inv : ScanState → Prop) (φ : ScanState → ScanState) :
    Tandem where
  World := Graph
  le := Graph.Persists
  Holds graph s t := graph = s.store.graph ∧ t = φ s ∧ Inv s
  source := source
  source' := source
  type graph := Same (Has graph)
  field _ _ := Eq
  function _ _ := Eq
  owner graph a b := a = b ∧ ∀ id ∈ a.id :: a.outer, Has graph id
  named _ _ _ := True
  among _ := True
  recorded _ _ := True
  admits _ := True
  mayFail := True

variable {α : Type} {source : SourceUnit} {Inv : ScanState → Prop} {φ : ScanState → ScanState}
  {w graph after : Graph} {owner owner' : DeclaredType} {site site' : ReferenceSite}

private theorem has_mono (h : Graph.Persists graph after) {id : TypeId} (hx : Has graph id) :
    Has after id := by
  obtain ⟨x, hx⟩ := hx
  obtain ⟨y, hy, -⟩ := h.type hx
  exact ⟨y, hy⟩

/-- A declared type is itself. -/
private theorem alike_of_blind (h : (blindTandem source Inv φ).owner w owner owner') :
    DeclaredType.Alike ((blindTandem source Inv φ).type w) owner owner' := by
  obtain ⟨rfl, ho⟩ := h
  refine ⟨⟨rfl, ho _ (List.mem_cons_self ..)⟩, rfl, rfl, rfl, rfl, ?_⟩
  exact List.forall₂_same.2 fun id hm => ⟨rfl, ho id (List.mem_cons_of_mem _ hm)⟩

/-! ### What is seen of types -/

/-- A known type is known, of the same name and kind, whatever is not seen. -/
private theorem Oblivious.get? (h : Oblivious source Inv φ) {s : ScanState} {id : TypeId}
    {x : TypeNode} (hx : s.store.graph.types.get? id = some x) :
    ∃ y, (φ s).store.graph.types.get? id = some y ∧ y.name = x.name ∧ y.kind = x.kind := by
  have hs := h.types s id
  rw [hx] at hs
  obtain ⟨y, hy, hyx⟩ := Option.map_eq_some_iff.1 hs
  have hname : y.forgotten.name = x.forgotten.name := by rw [hyx]
  have hkind : y.forgotten.kind = x.forgotten.kind := by rw [hyx]
  exact ⟨y, hy, hname, hkind⟩

/-- A type that is not known is not known either. -/
private theorem Oblivious.get?_none (h : Oblivious source Inv φ) {s : ScanState} {id : TypeId}
    (hx : s.store.graph.types.get? id = none) : (φ s).store.graph.types.get? id = none := by
  have hs := h.types s id
  rw [hx] at hs
  exact Option.map_eq_none_iff.1 hs

/-- Uses of types have the same text. -/
private theorem Oblivious.display_eq (h : Oblivious source Inv φ) (s : ScanState) (use : TypeUse) :
    use.display (φ s).store.graph = use.display s.store.graph := by
  obtain ⟨base, dimensions⟩ := use
  unfold TypeUse.display
  cases base with
  | declared id =>
    cases hx : s.store.graph.types.get? id with
    | none => simp only [h.get?_none hx, hx]
    | some x =>
      obtain ⟨y, hy, hn, -⟩ := h.get? hx
      simp only [hy, hx, hn, Option.map_some]
  | _ => rfl

/-! ### Steps -/

section

variable (h : Oblivious source Inv φ)
include h

omit h in
/-- An action that does not see it. -/
private theorem outcome_at {V : Graph → α → α → Prop} {action : ScanAction α} {s : ScanState}
    [hk : Keeps (Stays Inv) action] [hp : Keeps (ScanState.OnGraph Graph.Persists) action]
    (hs : Inv s) (hc : CommutesAt φ action s)
    (hv : ∀ {x t}, action s = (.ok x, t) → V t.store.graph x x) :
    (blindTandem source Inv φ).Outcome s.store.graph V (action s) (action (φ s)) := by
  refine ⟨(action s).2.store.graph, hp.keeps s, ?_⟩
  rw [hc]
  refine ⟨⟨rfl, rfl, hk.keeps s hs⟩, ?_⟩
  cases hx : action s with
  | mk result t =>
    cases result with
    | ok x => exact hv hx
    | error e => exact trivial

omit h in
/-- An action that never sees it, of whose result nothing is known. -/
private theorem runs_commutes {V : Graph → α → α → Prop} {action : ScanAction α}
    [Keeps (Stays Inv) action] [Keeps (ScanState.OnGraph Graph.Persists) action]
    (hc : Commutes φ action) (hv : ∀ graph x, V graph x x) :
    (blindTandem source Inv φ).Runs w V action action := by
  rintro s t ⟨rfl, rfl, hs⟩
  exact outcome_at hs (hc.commutes s) fun _ => hv ..

/-- Something is recorded in the graph. -/
private theorem runs_onGraph {V : Graph → α → α → Prop} {action : GraphAction α}
    (hl : Keeps Graph.SameLedger action) (hu : Keeps Graph.SameUnits action)
    (hc : ∀ blur : Graph.Blur, Commutes blur.apply action) (hv : ∀ graph x, V graph x x) :
    (blindTandem source Inv φ).Runs w V (onGraph action) (onGraph action) := by
  have h' : Guarantee source.unit (ScanState.OnGraph Graph.Persists) := inferInstance
  have := h.stays.record action hl hu
  have := h'.record action hl hu
  exact runs_commutes (h.record action hc) hv

/-- A name stands for the same type. -/
private theorem runs_resolve (hu : site.source = source) (hu' : site'.source = source)
    (name : QualifiedName) (place : Token) :
    (blindTandem source Inv φ).Runs w (Same ∘ Has) (site.resolve name place)
      (site'.resolve name place) := by
  have hsame : site'.resolve name place = site.resolve name place := by
    unfold ReferenceSite.resolve
    rw [hu, hu']
  have : Guarantee site.source.unit (Stays Inv) := by
    rw [hu]
    exact h.stays
  rw [hsame]
  rintro s t ⟨rfl, rfl, hs⟩
  exact outcome_at hs (h.resolve name place hs hu) fun hrun => ⟨rfl, h.known hs hu hrun⟩

/-- Supertypes are recorded. -/
private theorem runs_supertypes (owner : TypeId) (superclass : Option TypeId)
    (interfaces : List TypeId) :
    (blindTandem source Inv φ).Runs w (fun _ _ _ => True)
      (onGraph <| Graph.updateType owner fun type => { type with superclass, interfaces })
      (onGraph <| Graph.updateType owner fun type => { type with superclass, interfaces }) :=
  runs_onGraph h (Graph.keeps_updateType _ _ fun _ => ⟨rfl, rfl⟩) inferInstance
    (fun blur => blur.commutes_updateType _ fun _ => rfl) fun _ _ => trivial

/-- The base of an anonymous class is recorded. -/
private theorem runs_base (owner base : TypeId) :
    (blindTandem source Inv φ).Runs w (fun _ _ _ => True) (Tandem.recordBase owner base)
      (Tandem.recordBase owner base) := by
  have hfails : ∀ {s : ScanState}, s.store.graph.types.get? base = none →
      readGraph (fun graph => graph.types.get base) s =
        (.error (.unknownId .type base.index), s) := by
    intro s hx
    simp [readGraph, check, Arena.get, hx]
  have hreads : ∀ {s : ScanState} {x}, s.store.graph.types.get? base = some x →
      readGraph (fun graph => graph.types.get base) s = (.ok x, s) := by
    intro s x hx
    simp [readGraph, check, Arena.get, hx]
  rintro s t ⟨rfl, rfl, hs⟩
  unfold Tandem.recordBase
  cases hx : s.store.graph.types.get? base with
  | none =>
    rw [bind_of_error (hfails hx), bind_of_error (hfails (h.get?_none hx))]
    exact ⟨_, Guarantee.refl (R := Graph.Persists) _, ⟨rfl, rfl, hs⟩, trivial⟩
  | some x =>
    obtain ⟨y, hy, -, hkind⟩ := h.get? hx
    rw [bind_of_ok (hreads hx), bind_of_ok (hreads hy), hkind]
    exact runs_supertypes h owner _ _ _ _ ⟨rfl, rfl, hs⟩

omit h in
private instance (blur : Graph.Blur) (pair : TypeId × TypeId) :
    Commutes blur.apply (addDependency pair) := by
  refine blur.commutes_updateType _ fun type => ?_
  change _ = if type.dependsOn.contains pair.2 then _ else _
  split <;> rfl

/-- What was kept back comes in. -/
private theorem runs_flush (accesses : List Access) :
    (blindTandem source Inv φ).Runs w (blindTandem source Inv φ).Done (flush accesses)
      (flush accesses) := by
  have := commutes_read (ε := GraphError) h.dependencies
  have := fun pairs => h.record (.forEach pairs addDependency) fun _ => inferInstance
  have := h.record (.forEach accesses Graph.addAccess) fun _ => inferInstance
  have hc : Commutes φ (flush accesses) := by
    unfold flush
    infer_instance
  have := h.stays
  have := keeps_flush (R := Stays Inv) source.unit accesses
  have := keeps_flush (R := ScanState.OnGraph Graph.Persists) source.unit accesses
  exact runs_commutes hc fun _ _ => trivial

omit h in
private instance (blur : Graph.Blur) (function : FunctionId) (heads : List ParameterHead) :
    Commutes blur.apply (ReferenceSite.addParameters function heads) := by
  unfold ReferenceSite.addParameters
  infer_instance

/-- A site is declared or refused in the same way. -/
private theorem declareAs_commutes {s : ScanState} (hs : Inv s) (site : Site)
    (outer : Option DeclaredType) (name : QualifiedName) :
    CommutesAt φ (site.declareAs source outer name) s := by
  have := fun text existing => h.report
    (.atNode source.file site.node (.duplicateDeclaration text existing)) rfl
  unfold Site.declareAs
  refine (h.declare name hs).attempt.bind fun result => ?_
  cases result with
  | error e => cases e <;> infer_instance
  | ok id =>
    have := h.record _ fun blur =>
      blur.commutes_updateType id (f := site.declaredNode outer) fun _ => rfl
    cases outer with
    | none => infer_instance
    | some outer =>
      have := h.record _ fun blur => blur.commutes_updateType outer.id (f := fun type =>
        { type with innerTypes := type.innerTypes ++ [id] }) fun _ => rfl
      infer_instance

omit h in
/-- A site that is not refused declares a type that is known then, and only records something. -/
theorem declare_of_declareAs {s t : ScanState} {site : Site} {outer : Option DeclaredType}
    {name : QualifiedName} {type : DeclaredType}
    (hrun : site.declareAs source outer name s = (.ok (some type), t)) :
    ∃ id s', inScope (·.declare name source.unit) s = (.ok id, s') ∧
      type = site.declaredType outer name id ∧ (∃ x, s'.store.graph.types.get? id = some x) ∧
      Graph.Persists s'.store.graph t.store.graph := by
  rcases hdeclare : inScope (·.declare name source.unit) s with ⟨declared, s'⟩
  have hattempt : (inScope (·.declare name source.unit)).attempt s =
      ((.ok declared, s') : Except GraphError (Except GraphError TypeId) × ScanState) := by
    unfold attempt
    rw [hdeclare]
  unfold Site.declareAs at hrun
  rw [bind_of_ok hattempt] at hrun
  cases declared with
  | error e => cases e <;> cases hrun
  | ok id =>
    have h' : Guarantee source.unit (ScanState.OnGraph Graph.Persists) := inferInstance
    have hnode := h'.record (Graph.updateType id (site.declaredNode outer))
      (Graph.keeps_updateType _ _ fun _ => ⟨rfl, rfl⟩) inferInstance
    obtain ⟨_, middle, hupdate, hrun⟩ := ok_of_bind hrun
    have hp := hnode.of_run hupdate
    have hx : ∃ x, s'.store.graph.types.get? id = some x := by
      cases hr : Graph.updateType id (site.declaredNode outer) s'.store.graph with
      | mk result after =>
        rw [onGraph_run hr] at hupdate
        cases hupdate
        exact Graph.known_of_updateType hr
    cases outer with
    | none =>
      cases hrun
      exact ⟨id, s', rfl, rfl, hx, hp⟩
    | some outer =>
      obtain ⟨_, last, hrecord, hrun⟩ := ok_of_bind hrun
      cases hrun
      have hlist := h'.record (Graph.updateType outer.id fun type =>
        { type with innerTypes := type.innerTypes ++ [id] })
        (Graph.keeps_updateType _ _ fun _ => ⟨rfl, rfl⟩) inferInstance
      have hp' := hlist.of_run hrecord
      exact ⟨id, s', rfl, rfl, hx, Guarantee.trans (R := Graph.Persists) hp hp'⟩

/-- A site is declared or refused, and its type is known. -/
private theorem outcome_declareAs {s : ScanState} {outer outer' : Option DeclaredType}
    (ho : Option.Rel ((blindTandem source Inv φ).owner s.store.graph) outer outer') (site : Site)
    (name : QualifiedName) (hs : Inv s) :
    (blindTandem source Inv φ).Outcome s.store.graph
      (fun w => Option.Rel ((blindTandem source Inv φ).owner w))
      (site.declareAs source outer name s) (site.declareAs source outer' name (φ s)) := by
  have hsame : outer' = outer ∧
      ∀ type, outer = some type → ∀ id ∈ type.id :: type.outer, Has s.store.graph id := by
    cases ho with
    | none => exact ⟨rfl, nofun⟩
    | some hab =>
      obtain ⟨rfl, hall⟩ := hab
      refine ⟨rfl, fun type ht => ?_⟩
      cases ht
      exact hall
  obtain ⟨rfl, hall⟩ := hsame
  have := h.stays
  refine outcome_at hs (declareAs_commutes h hs site outer' name) fun {found t} hrun => ?_
  have hp : Keeps (ScanState.OnGraph Graph.Persists) (site.declareAs source outer' name) :=
    inferInstance
  have hpersists := hp.of_run hrun
  cases found with
  | none => exact .none
  | some type =>
    obtain ⟨id, s', hdeclare, rfl, -, hp'⟩ := declare_of_declareAs hrun
    refine .some ⟨rfl, fun k hm => ?_⟩
    rcases List.mem_cons.1 hm with rfl | hm
    · exact has_mono hp' (h.declared hs hdeclare)
    · cases outer' with
      | none => cases hm
      | some type => exact has_mono hpersists (hall type rfl k hm)

/-- The steps of a scan give the same. -/
theorem Oblivious.declaring : (blindTandem source Inv φ).Declaring where
  refl w := Guarantee.refl (R := Graph.Persists) w
  trans := Guarantee.trans (R := Graph.Persists)
  type_mono hle hab := ⟨hab.1, has_mono hle hab.2⟩
  field_mono _ hab := hab
  function_mono _ hab := hab
  owner_mono hle hab := ⟨hab.1, fun id hm => has_mono hle (hab.2 id hm)⟩
  named_mono _ _ := trivial
  recorded_mono _ _ := trivial
  injective _ := by
    intro a b a' b' hab hab'
    rw [hab.1, hab'.1]
  alike := alike_of_blind
  known := by
    rintro w s t a b ⟨rfl, rfl, -⟩ ⟨rfl, x, hx⟩
    obtain ⟨y, hy, -⟩ := h.get? hx
    exact ⟨⟨x, hx⟩, y, hy⟩
  display := by
    rintro w s t a b ⟨rfl, rfl, -⟩ hu
    rw [(eq_of_use hu).1]
    exact (h.display_eq ..).symm
  report := by
    intro w line column text
    have h' : Guarantee source.unit (ScanState.OnGraph Graph.Persists) := inferInstance
    have := h.stays.report
    have := h'.report
    exact runs_commutes (h.report _ rfl) fun _ _ => trivial
  resolve name place hsites :=
    (runs_resolve h hsites.source hsites.source' name place).imp fun hab => ⟨hab, trivial⟩
  note := by
    intro w owner owner' a b ho hab
    have h' : Guarantee source.unit (ScanState.OnGraph Graph.Persists) := inferInstance
    have := h.stays.note
    have := h'.note
    rw [← ho.1, ← hab.1]
    exact runs_commutes (h.note ..) fun _ _ => trivial
  supertypes hsites _ hc hi := by
    obtain ⟨rfl, -⟩ := eq_of_type? hc
    obtain ⟨rfl, -⟩ := eq_of_types hi
    rw [← hsites.owner.1]
    exact runs_supertypes h _ _ _
  base hsites _ _ hab _ := by
    rw [← hsites.owner.1, ← hab.1]
    exact runs_base h _ _
  addField _ _ _ hab := by
    obtain ⟨rfl, -⟩ := eq_of_field hab
    exact runs_onGraph h inferInstance inferInstance (fun _ => inferInstance) fun _ _ => rfl
  addFunction _ _ _ hpa hpb hab hh := by
    obtain ⟨rfl, -⟩ := eq_of_function hab hpa hpb
    obtain ⟨rfl, -⟩ := eq_of_heads hh
    exact runs_onGraph h inferInstance inferInstance (fun _ => inferInstance) fun _ _ => rfl
  flush ha := by
    rw [eq_of_accesses (fun h => h) (fun h => h) ha]
    exact runs_flush h _
  declareAs := by
    rintro w s t outer outer' site package name - - ho ⟨rfl, rfl, hs⟩ -
    exact outcome_declareAs h ho site name hs
  setMainType := by
    intro w owner owner' ho
    have h' : Guarantee source.unit (ScanState.OnGraph Graph.Persists) := inferInstance
    have := h.stays.mainType owner.id
    have := h'.mainType owner.id
    rw [← ho.1]
    change (blindTandem source Inv φ).Runs w _ (onGraph (Graph.setMainType source.unit owner.id))
      (onGraph (Graph.setMainType source.unit owner.id))
    exact runs_commutes (h.record _ fun _ => inferInstance) fun _ _ => trivial

/-- The scan of a file leaves the same without what it does not see, and succeeds in the same
cases, with the same result. -/
theorem Oblivious.run_scanTypes {s : ScanState} (hs : Inv s) (recordAccesses : Bool) (header : Header)
    (path : String) (root : Tree) :
    (scanTypes recordAccesses source header path root (φ s)).2 =
        φ (scanTypes recordAccesses source header path root s).2 ∧
      ∀ declared, (scanTypes recordAccesses source header path root s).1 = .ok declared ↔
        (scanTypes recordAccesses source header path root (φ s)).1 = .ok declared := by
  have hadmits : (blindTandem source Inv φ).Admits (·.types)
      (scanTypes recordAccesses source header path root s).1 := by
    cases (scanTypes recordAccesses source header path root s).1 with
    | ok declared => exact fun _ _ => trivial
    | error e => exact fun _ => trivial
  have hout : (blindTandem source Inv φ).Outcome s.store.graph
      (fun w => Declarations.Alike ((blindTandem source Inv φ).owner w))
      (scanTypes recordAccesses source header path root s)
      (scanTypes recordAccesses source header path root (φ s)) :=
    Tandem.runs_scanTypes h.declaring recordAccesses header path root
      (fun _ => trivial) s (φ s) ⟨rfl, rfl, hs⟩ hadmits
  obtain ⟨w, -, ⟨-, ht, -⟩, hv⟩ := hout
  refine ⟨ht, fun declared => ?_⟩
  cases hr : (scanTypes recordAccesses source header path root s).1 <;>
    cases hr' : (scanTypes recordAccesses source header path root (φ s)).1 <;>
    rw [hr, hr'] at hv
  · exact ⟨nofun, nofun⟩
  · exact hv.elim
  · exact hv.elim
  · next here there =>
    obtain ⟨header, topLevel, types⟩ := here
    obtain ⟨header', topLevel', types'⟩ := there
    obtain ⟨rfl, rfl, htypes⟩ := hv
    have htypes : types = types' := List.forall₂_eq_eq_eq ▸ htypes.imp fun _ _ hab => hab.1
    rw [htypes]

end

end ScanState

end JavaGraph
