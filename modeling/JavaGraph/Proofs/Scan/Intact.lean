import JavaGraph.Proofs.Graph.Nesting
import JavaGraph.Proofs.Scan.Alike
import JavaGraph.Proofs.Scan.Tidy
/-!
# Scans of intact graphs

A scan that begins with an intact graph keeps it intact at every step. It is in tandem with itself;
what is known of the identifiers on its way is that they are known, that fields and functions belong
to the type they were recorded for, and that a declared type is within the types around its site.
-/

namespace JavaGraph

open List (Forall₂)
open JavaGraph.Action
open JavaGraph.Graph (BuildsOn)
open ReferenceSite (ParameterHead)

/-- Behind a last `$` there is an empty segment. -/
private theorem Name.segments_dollar (cs : List Char) : ∀ nested : Bool,
    ∃ first rest, Name.segments nested (cs ++ ['$']) = first :: rest ∧ ⟨true, []⟩ ∈ rest := by
  induction cs with
  | nil => exact fun nested => ⟨⟨nested, []⟩, [⟨true, []⟩], rfl, List.mem_singleton.2 rfl⟩
  | cons c cs ih =>
    intro nested
    rw [List.cons_append, Name.segments]
    split
    · obtain ⟨first, rest, he, hm⟩ := ih (c == '$')
      exact ⟨_, _, rfl, by rw [he]; exact List.mem_cons_of_mem _ hm⟩
    · obtain ⟨first, rest, he, hm⟩ := ih nested
      rw [he]
      exact ⟨_, _, rfl, hm⟩

/-- A nested name adds a label to the name it is nested in. -/
theorem QualifiedName.text_of_nested {outer name : QualifiedName} {label : String}
    (h : outer.nested label = .ok name) :
    label ≠ "" ∧ name.text = outer.text ++ "$" ++ label := by
  have ht := text_of_parse h
  refine ⟨?_, ht⟩
  rintro rfl
  have hf := name.faultless
  obtain ⟨first, rest, he, hm⟩ := Name.segments_dollar outer.text.toList false
  have hchars : name.text.toList = outer.text.toList ++ ['$'] := by
    rw [ht, String.append_empty, String.toList_append]
    rfl
  unfold Name.fault? at hf
  rw [hchars, he] at hf
  split at hf
  · cases hf
  · have hnone := List.findSome?_eq_none_iff.1 hf ⟨true, []⟩ (List.mem_cons_of_mem _ hm)
    cases hnone

namespace ScanState

/-- A known type is to depend on another one. -/
def Noted (graph : Graph) (pair : TypeId × TypeId) : Prop :=
  graph.Knows ⟨.type, pair.1⟩ ∧ graph.Knows ⟨.type, pair.2⟩ ∧ pair.1 ≠ pair.2

/-- The graph is intact, the scope finds types that there are, and no type waits to depend on
itself. -/
structure Whole (unit : UnitId) (s : ScanState) : Prop where
  sound : s.Sound unit
  intact : s.store.graph.Intact
  borrowed : Twins.BorrowedKnown s.store.graph s.scope
  dependencies : ∀ pair ∈ s.dependencies, Noted s.store.graph pair

/-- A unit declares a type and the types around it, which it is within. -/
structure Owned (unit : UnitId) (graph : Graph) (type : DeclaredType) : Prop where
  named : ∃ x, graph.types.get? type.id = some x ∧ x.name = type.name
  declared : ∀ id ∈ type.id :: type.outer,
    ∃ x, graph.types.get? id = some x ∧ x.state = .complete unit
  around : ∀ id ∈ type.id :: type.outer, graph.Around id type.id

/-- The scan of a unit over an intact graph, taken twice. -/
def intactTandem (source : SourceUnit) : Tandem where
  World := Graph
  le := BuildsOn
  Holds graph s t := graph = s.store.graph ∧ s = t ∧ s.Whole source.unit
  source := source
  source' := source
  type graph := Same fun id => graph.Knows ⟨.type, id⟩
  field graph owner a b := a = b ∧ ∃ x, graph.fields.get? a = some x ∧ x.declaringType = owner
  function graph owner a b :=
    a = b ∧ ∃ x, graph.functions.get? a = some x ∧ x.declaringType = owner
  owner graph a b := a = b ∧ Owned source.unit graph a
  named _ _ _ := True
  among _ := True
  recorded _ _ := True
  admits _ := True
  mayFail := True

variable {α : Type} {source : SourceUnit} {w graph after : Graph} {unit : UnitId}
  {owner owner' : DeclaredType} {site site' : ReferenceSite} {s t : ScanState}

/-- What is noted stays so. -/
private theorem Noted.mono {pair : TypeId × TypeId} (hg : BuildsOn graph after)
    (h : Noted graph pair) : Noted after pair :=
  ⟨h.1.mono hg, h.2.1.mono hg, h.2.2⟩

/-- What is declared stays declared. -/
private theorem Owned.mono (hg : BuildsOn graph after) (h : Owned unit graph owner) :
    Owned unit after owner where
  named := by
    obtain ⟨x, hx, hn⟩ := h.named
    obtain ⟨y, hy, hny, -⟩ := hg.type hx
    exact ⟨y, hy, hny.trans hn⟩
  declared id hm := by
    obtain ⟨x, hx, hs⟩ := h.declared id hm
    obtain ⟨y, hy, -, hsy, -⟩ := hg.type hx
    exact ⟨y, hy, hsy unit hs⟩
  around id hm := (h.around id hm).mono hg

/-- A declared type is known. -/
private theorem Owned.knows (h : Owned unit graph owner) {id : TypeId}
    (hm : id ∈ owner.id :: owner.outer) : graph.Knows ⟨.type, id⟩ := by
  obtain ⟨x, hx, -⟩ := h.declared id hm
  exact Graph.knows_of_get? hx

/-- A declared type is itself. -/
private theorem alike_of_owned (h : (intactTandem source).owner w owner owner') :
    DeclaredType.Alike ((intactTandem source).type w) owner owner' := by
  obtain ⟨rfl, ho⟩ := h
  refine ⟨⟨rfl, ho.knows (List.mem_cons_self ..)⟩, rfl, rfl, rfl, rfl, ?_⟩
  exact List.forall₂_same.2 fun id hm => ⟨rfl, ho.knows (List.mem_cons_of_mem _ hm)⟩

/-! ### Steps -/

/-- What one step of the scan does. -/
private theorem runs_whole {V : Graph → α → α → Prop} {action : ScanAction α}
    (h : ∀ {s : ScanState}, s.store.graph = w → s.Whole source.unit →
      BuildsOn w (action s).2.store.graph ∧ (action s).2.Whole source.unit ∧
        ∀ {x}, (action s).1 = .ok x → V (action s).2.store.graph x x) :
    (intactTandem source).Runs w V action action := by
  rintro s t ⟨rfl, rfl, hs⟩
  obtain ⟨hg, hw, hv⟩ := h rfl hs
  refine ⟨_, hg, ⟨rfl, rfl, hw⟩, ?_⟩
  cases hx : (action s).1 with
  | ok x => exact hv hx
  | error e => exact trivial

/-- A graph that builds on the one of a whole state. -/
private theorem Whole.withGraph (hs : s.Whole unit) (hsound : (s.withGraph after).Sound unit)
    (hi : after.Intact) (hg : BuildsOn s.store.graph after) : (s.withGraph after).Whole unit where
  sound := hsound
  intact := hi
  borrowed := hs.borrowed.of_known fun hx => by
    obtain ⟨y, hy, hn, -⟩ := hg.type hx
    exact ⟨y, hy, hn⟩
  dependencies pair hm := (hs.dependencies pair hm).mono hg

/-- An action on the graph that leaves the lives of types alone. -/
private theorem runs_onIntact {V : Graph → α → α → Prop} {action : GraphAction α}
    (hl : Keeps Graph.SameLedger action)
    (h : ∀ {s : ScanState}, s.store.graph = w → s.Whole source.unit →
      (action w).2.Intact ∧ BuildsOn w (action w).2 ∧
        ∀ {x}, (action w).1 = .ok x → V (action w).2 x x) :
    (intactTandem source).Runs w V (onGraph action) (onGraph action) := by
  refine runs_whole fun {s} hw hs => ?_
  subst hw
  obtain ⟨hi, hg, hv⟩ := h rfl hs
  cases hrun : action s.store.graph with
  | mk result after =>
    rw [hrun] at hi hg hv
    rw [onGraph_run hrun]
    exact ⟨hg, hs.withGraph (hs.sound.withGraph hl hrun) hi hg, hv⟩

/-- Something is said about the file. -/
private theorem runs_saying (diagnostic : Diagnostic) :
    (intactTandem source).Runs w (intactTandem source).Done (report diagnostic)
      (report diagnostic) := by
  refine runs_whole fun {s} hw hs => ⟨?_, ⟨hs.sound, hs.intact, hs.borrowed, hs.dependencies⟩,
    fun _ => trivial⟩
  subst hw
  exact .refl _

/-- A reference is kept back. -/
private theorem runs_noting {source' target : TypeId} (ho : w.Knows ⟨.type, source'⟩)
    (ht : w.Knows ⟨.type, target⟩) :
    (intactTandem source).Runs w (intactTandem source).Done (noteDependency source' target)
      (noteDependency source' target) := by
  refine runs_whole fun {s} hw hs => ?_
  subst hw
  unfold noteDependency
  split
  · exact ⟨.refl _, hs, fun _ => trivial⟩
  · next hne =>
    refine ⟨.refl _, ⟨hs.sound, hs.intact, hs.borrowed, fun pair hm => ?_⟩, fun _ => trivial⟩
    rcases List.mem_append.1 hm with hm | hm
    · exact hs.dependencies pair hm
    · rw [List.mem_singleton.1 hm]
      exact ⟨ho, ht, hne⟩

/-- A placeholder comes in for a missing name. -/
private theorem Whole.missing (hs : s.Whole unit) {name : QualifiedName}
    (hsound : (s.missing name unit).Sound unit) :
    BuildsOn s.store.graph (s.missing name unit).store.graph ∧ (s.missing name unit).Whole unit ∧
      (s.missing name unit).store.graph.Knows ⟨.type, s.store.graph.types.nextId⟩ := by
  obtain ⟨node, hn, -⟩ := hs.sound.2
  have hhome : ∀ artifact, s.scope.artifact? = some artifact →
      s.store.graph.Knows ⟨.artifact, artifact⟩ := by
    intro artifact ha
    obtain ⟨x, hx⟩ := hs.sound.1.artifact_known ha
    exact Arena.lt_size_of_get? hx
  obtain ⟨hi, hg⟩ := hs.intact.withMissing name hhome (Arena.lt_size_of_get? hn)
  obtain ⟨holder, hnew⟩ := get?_missing name unit (s := s) rfl
  refine ⟨hg, ⟨hsound, hi, ?_, fun pair hm => (hs.dependencies pair hm).mono hg⟩,
    Graph.knows_of_get? hnew⟩
  refine (Twins.borrowedKnown_withCreated hs.borrowed).of_known fun hx => ?_
  obtain ⟨y, hy, hny, -⟩ := hg.type hx
  exact ⟨y, hy, hny⟩

/-- A name stands for a known type. -/
private theorem runs_resolving (hu : site.source = source) (name : QualifiedName) (place : Token) :
    (intactTandem source).Runs w
      (fun w a b => (intactTandem source).type w a b ∧ (intactTandem source).named w name a)
      (site.resolve name place) (site.resolve name place) := by
  refine runs_whole fun {s} hw hs => ?_
  subst hw hu
  have hk : Keeps (PassesOn site.source.unit) (site.resolve name place) := inferInstance
  have hsound := hk.keeps s hs.sound
  cases hl : s.scope.lookup name s.store with
  | ok found =>
    cases found with
    | some id =>
      obtain ⟨x, hx, hn⟩ := Twins.known_of_lookup hs.sound.1 hs.borrowed hl
      rw [ReferenceSite.resolve_found place hl] at hsound ⊢
      refine ⟨.refl _, ⟨hsound, hs.intact, ?_, hs.dependencies⟩, fun he => ?_⟩
      · exact Twins.borrowedKnown_withFound hs.borrowed ⟨x, hx, hn⟩
      · cases he
        exact ⟨⟨rfl, Graph.knows_of_get? hx⟩, trivial⟩
    | none =>
      obtain ⟨-, hrun⟩ := ReferenceSite.resolve_missing place hs.sound hl
      rw [hrun] at hsound ⊢
      obtain ⟨hg, hw, hknown⟩ := hs.missing hsound
      exact ⟨hg, hw, fun he => by cases he; exact ⟨⟨rfl, hknown⟩, trivial⟩⟩
  | error e =>
    have hsaid : (s.saying (site.unanswered name place)).Whole site.source.unit :=
      ⟨hs.sound, hs.intact, hs.borrowed, hs.dependencies⟩
    rcases ReferenceSite.resolve_unanswered place hs.sound hl with ⟨-, -, hrun⟩ | ⟨-, -, hrun⟩
    · rw [hrun]
      exact ⟨.refl _, hsaid, fun he => by cases he⟩
    · rw [hrun] at hsound ⊢
      obtain ⟨hg, hw, hknown⟩ := hsaid.missing hsound
      exact ⟨hg, hw, fun he => by cases he; exact ⟨⟨rfl, hknown⟩, trivial⟩⟩

/-! ### Records -/

/-- A type that the file declares is found. -/
private theorem Owned.get? (h : Owned unit graph owner) :
    ∃ x, graph.types.get? owner.id = some x := by
  obtain ⟨x, hx, -⟩ := h.declared _ (List.mem_cons_self ..)
  exact ⟨x, hx⟩

/-- Supertypes of a type are recorded. -/
private theorem runs_supers (ho : Owned source.unit w owner) {superclass : Option TypeId}
    {interfaces : List TypeId} (hc : ∀ target, superclass = some target → w.Knows ⟨.type, target⟩)
    (hi : ∀ target ∈ interfaces, w.Knows ⟨.type, target⟩) :
    (intactTandem source).Runs w (fun _ _ _ => True)
      (onGraph <| Graph.updateType owner.id fun type => { type with superclass, interfaces })
      (onGraph <| Graph.updateType owner.id fun type => { type with superclass, interfaces }) := by
  obtain ⟨x, hx⟩ := ho.get?
  refine runs_onIntact (Graph.keeps_updateType _ _ fun _ => ⟨rfl, rfl⟩) fun {s} hw hs => ?_
  subst hw
  rw [Graph.updateType_known _ hx]
  have hk : Graph.Retouches fun type => { type with superclass, interfaces } :=
    { Graph.Retouches.refl with }
  obtain ⟨hi, hg⟩ := hs.intact.retouched hk owner.id
    (refsOf superclass.toList ++ refsOf interfaces) (fun _ => rfl) (fun _ => ⟨rfl, rfl⟩)
    (fun {y} _ ref => by
      simp only [TypeNode.refs, List.mem_append]
      tauto)
    (fun ref hm => by
      simp only [List.mem_append, mem_refsOf, Option.mem_toList] at hm
      rcases hm with ⟨id, hm, rfl⟩ | ⟨id, hm, rfl⟩
      · exact hc id hm
      · exact hi id hm)
    (fun hy hm => hs.intact.irreflexive hy hm)
  exact ⟨hi, hg, fun _ => trivial⟩

/-- The base of an anonymous class is recorded. -/
private theorem runs_basing (ho : Owned source.unit w owner) {base : TypeId}
    (hb : w.Knows ⟨.type, base⟩) :
    (intactTandem source).Runs w (fun _ _ _ => True) (Tandem.recordBase owner.id base)
      (Tandem.recordBase owner.id base) := by
  obtain ⟨y, hy⟩ := Graph.get?_of_knows hb
  rintro s t ⟨rfl, rfl, hs⟩
  have hread : readGraph (fun graph => graph.types.get base) s = (.ok y, s) := by
    simp [readGraph, Action.check, Arena.get, hy]
  unfold Tandem.recordBase
  rw [bind_of_ok hread]
  refine runs_supers ho ?_ ?_ s s ⟨rfl, rfl, hs⟩
  · intro target ht
    unfold Tandem.onBase at ht
    split at ht <;> cases ht
    exact hb
  · intro target ht
    unfold Tandem.onBase at ht
    split at ht
    · rw [List.mem_singleton.1 ht]
      exact hb
    · cases ht

/-- The identifiers in a use of known types are known. -/
private theorem knows_of_within {use : TypeUse}
    (h : use.Within fun id => graph.Knows ⟨.type, id⟩) : ∀ ref ∈ use.refs, graph.Knows ref := by
  intro ref hm
  obtain ⟨id, hid, rfl⟩ := mem_refsOf.1 hm
  exact h id (Option.mem_toList.1 hid)

/-- A field comes in. -/
private theorem runs_field {field : Field} (ho : Owned source.unit w owner)
    (hd : field.declaringType = owner.id)
    (hu : field.typeUse.Within fun id => w.Knows ⟨.type, id⟩) :
    (intactTandem source).Runs w ((intactTandem source).field · owner.id)
      (onGraph (Graph.addField field)) (onGraph (Graph.addField field)) := by
  obtain ⟨x, hx⟩ := ho.get?
  refine runs_onIntact inferInstance fun {s} hw hs => ?_
  subst hw
  rw [Graph.addField_known (by rw [hd]; exact hx)]
  obtain ⟨hi, hg⟩ := hs.intact.withField field
    (by rw [hd]; exact Graph.knows_of_get? hx) (knows_of_within hu)
  exact ⟨hi, hg, fun he => by cases he; exact ⟨rfl, field, Graph.get?_withField .., hd⟩⟩

/-- A function comes in with its parameters. -/
private theorem runs_function {function : Function} {heads : List ParameterHead}
    (ho : Owned source.unit w owner) (hd : function.declaringType = owner.id)
    (hp : function.parameters = [])
    (hreturns : ∀ use, function.returns = some use → use.Within fun id => w.Knows ⟨.type, id⟩)
    (hthrows : ∀ target ∈ function.throws, w.Knows ⟨.type, target⟩)
    (hheads : ∀ head ∈ heads, head.typeUse.Within fun id => w.Knows ⟨.type, id⟩) :
    (intactTandem source).Runs w ((intactTandem source).function · owner.id)
      (onGraph do
        let id ← Graph.addFunction function
        ReferenceSite.addParameters id heads
        return id)
      (onGraph do
        let id ← Graph.addFunction function
        ReferenceSite.addParameters id heads
        return id) := by
  obtain ⟨x, hx⟩ := ho.get?
  refine runs_onIntact inferInstance fun {s} hw hs => ?_
  subst hw
  obtain ⟨hi, hg⟩ := hs.intact.withFunction function
    (by rw [hd]; exact Graph.knows_of_get? hx) hp
    (fun use hu => knows_of_within (hreturns use hu)) hthrows
  have hself := Graph.get?_withFunction s.store.graph function
  obtain ⟨after, hrun, hi', hg'⟩ := hi.addParameters heads hself (by rw [hp])
    fun head hm ref hr => (knows_of_within (hheads head hm) ref hr).mono hg
  have hparameters : ReferenceSite.addParameters s.store.graph.functions.nextId heads
      (s.store.graph.withFunction function) = (.ok (), after) := hrun
  rw [bind_of_ok (Graph.addFunction_known (by rw [hd]; exact hx)), bind_of_ok hparameters]
  exact ⟨hi', hg.trans hg', fun he => by
    cases he
    obtain ⟨y, hy, hdy⟩ := hg'.function hself
    exact ⟨rfl, y, hy, hdy.trans hd⟩⟩

/-! ### What was kept back -/

/-- A dependency on another type. -/
private theorem intact_dependency {pair : TypeId × TypeId} (h : graph.Intact)
    (hp : Noted graph pair) :
    ∃ after, addDependency pair graph = (.ok (), after) ∧ after.Intact ∧ BuildsOn graph after := by
  obtain ⟨x, hx⟩ := Graph.get?_of_knows hp.1
  have hk : Graph.Retouches (Twins.depending pair.2) := by
    refine ⟨?_, ?_, ?_, ?_, ?_⟩ <;> intro x <;> unfold Twins.depending <;> split <;>
      first | rfl | exact fun _ => Iff.rfl
  obtain ⟨hi, hg⟩ := h.retouched hk pair.1 (refsOf [pair.2])
    (fun x => by unfold Twins.depending; split <;> rfl)
    (fun x => by unfold Twins.depending; split <;> exact ⟨rfl, rfl⟩)
    (fun {y} _ => by
      unfold Twins.depending
      split
      · exact List.subset_append_left ..
      · intro ref
        simp only [TypeNode.refs, refsOf, List.map_append, List.mem_append]
        tauto)
    (fun ref hm => by
      obtain ⟨id, hid, rfl⟩ := mem_refsOf.1 hm
      rw [List.mem_singleton.1 hid]
      exact hp.2.1)
    (fun {y} hy hm => by
      unfold Twins.depending at hm
      split at hm
      · exact h.irreflexive hy hm
      · rcases List.mem_append.1 hm with hm | hm
        · exact h.irreflexive hy hm
        · exact hp.2.2 (List.mem_singleton.1 hm))
  exact ⟨_, Graph.updateType_known _ hx, hi, hg⟩

/-- What a use of a field needs. -/
private def Usable (graph : Graph) (access : Access) : Prop :=
  ∃ function field, graph.functions.get? access.function = some function ∧
    graph.fields.get? access.field = some field ∧
    graph.Around field.declaringType function.declaringType

/-- A usable field stays usable. -/
private theorem Usable.mono {access : Access} (hg : BuildsOn graph after)
    (h : Usable graph access) : Usable after access := by
  obtain ⟨function, field, hf, hd, ha⟩ := h
  obtain ⟨function', hf', hdf⟩ := hg.function hf
  obtain ⟨field', hd', hdd⟩ := hg.field hd
  exact ⟨function', field', hf', hd', by rw [hdf, hdd]; exact ha.mono hg⟩

/-- What was kept back comes in. -/
private theorem runs_flushing {accesses : List Access} (ha : ∀ access ∈ accesses, Usable w access) :
    (intactTandem source).Runs w (intactTandem source).Done (flush accesses) (flush accesses) := by
  refine runs_whole fun {s} hw hs => ?_
  subst hw
  have hk : Keeps (PassesOn source.unit) (flush accesses) := keeps_flush source.unit accesses
  have hsound := hk.keeps s hs.sound
  obtain ⟨middle, hrun, hi, hg⟩ := hs.intact.forEach (Q := Noted) Noted.mono intact_dependency
    s.dependencies hs.dependencies
  obtain ⟨after, hrun', hi', hg'⟩ := hi.forEach (Q := Usable) Usable.mono
    (fun {graph access} hi hu => by
      obtain ⟨function, field, hf, hd, ha⟩ := hu
      obtain ⟨hi, hg⟩ := hi.withAccess hf hd ha
      exact ⟨_, Graph.addAccess_known hf hd, hi, hg⟩)
    accesses fun access hm => (ha access hm).mono hg
  have hflush : flush accesses s = (.ok (), s.withGraph after) := by
    unfold flush
    rw [read_bind, bind_of_ok (onGraph_run hrun)]
    exact onGraph_run hrun'
  rw [hflush] at hsound ⊢
  exact ⟨hg.trans hg', hs.withGraph hsound hi' (hg.trans hg'), fun _ => trivial⟩

/-! ### Declarations -/

/-- A declared type is the main type of its unit. -/
private theorem runs_mainType (ho : Owned source.unit w owner) :
    (intactTandem source).Runs w (intactTandem source).Done
      (onGraph (Graph.setMainType source.unit owner.id))
      (onGraph (Graph.setMainType source.unit owner.id)) := by
  refine runs_onIntact inferInstance fun {s} hw hs => ?_
  subst hw
  obtain ⟨x, hx, hsx⟩ := ho.declared _ (List.mem_cons_self ..)
  obtain ⟨node, hn, hm⟩ := hs.sound.1.consistent.complete_declared hx hsx
  rw [Graph.setMainType_declared hn hm]
  obtain ⟨hi, hg⟩ := hs.intact.unitChanged source.unit (refsOf [owner.id])
    (f := fun node => { node with mainType := some owner.id }) (fun _ => rfl)
    (fun {y} _ ref => by
      simp only [CompilationUnit.refs, refsOf, Option.toList_some, List.mem_append]
      tauto)
    (fun ref hm => by
      obtain ⟨id, hid, rfl⟩ := mem_refsOf.1 hm
      rw [List.mem_singleton.1 hid]
      exact Graph.knows_of_get? hx)
  exact ⟨hi, hg, fun _ => trivial⟩

/-- What a declaration makes of a placeholder, up to the type around it. -/
private def described (decl : Site) (outer : Option DeclaredType) (unit : UnitId) (home : Universe)
    (type : TypeNode) : TypeNode :=
  { decl.declaredNode outer { type with state := .complete unit, artifact := home } with
    declaringType := none }

/-- The graph in which the type of a site is declared. -/
private def declaredWithin (decl : Site) (outer : Option DeclaredType) (middle : Graph)
    (id : TypeId) (unit : UnitId) (home : Universe) : Graph :=
  let declared := Twins.declaredGraph decl outer middle id unit home
  match outer with
  | none => declared
  | some type => { declared with
      types := declared.types.modify type.id fun node =>
        { node with innerTypes := node.innerTypes ++ [id] } }

section

variable {middle : Graph} {id : TypeId} {x : TypeNode} {home : Universe} {decl : Site}
  {outer : Option DeclaredType} {package : Option String} {name : QualifiedName}

/-- The placeholder is declared first, then put within the type around it, and then listed. -/
private theorem declaredWithin_eq (decl : Site) (outer : Option DeclaredType) (middle : Graph)
    (id : TypeId) (unit : UnitId) (home : Universe) :
    let alone := { middle with types := middle.types.modify id (described decl outer unit home) }
    let put := match outer with
      | none => alone
      | some type => alone.putIn id type.id
    declaredWithin decl outer middle id unit home =
      { put.released id with
        units := (put.released id).units.modify unit fun node =>
          { node with declaredTypes := node.declaredTypes ++ [id] } } := by
  cases outer with
  | none =>
    simp only [declaredWithin, Twins.declaredGraph, Graph.withDeclaration, Graph.released,
      Graph.completed, Arena.modify_modify]
    rfl
  | some type =>
    simp only [declaredWithin, Twins.declaredGraph, Graph.withDeclaration, Graph.released,
      Graph.completed, Graph.putIn, Arena.modify_modify]
    rfl

/-- A placeholder becomes the type of a site. -/
private theorem intact_declared (h : middle.Intact) (hx : middle.types.get? id = some x)
    (hname : x.name = name) (hc : x.isComplete = false) (hunit : middle.Knows ⟨.unit, unit⟩)
    (hhome : ∀ artifact, home = some artifact → middle.Knows ⟨.artifact, artifact⟩)
    (hq : decl.qualifiedName package outer = .ok name)
    (ho : ∀ type, outer = some type → Owned unit middle type) :
    (declaredWithin decl outer middle id unit home).Intact ∧
      BuildsOn middle (declaredWithin decl outer middle id unit home) ∧
      Owned unit (declaredWithin decl outer middle id unit home)
        (decl.declaredType outer name id) := by
  have hf : Graph.Describes unit (described decl outer unit home) :=
    ⟨fun _ => rfl, fun _ => rfl, fun _ => rfl, fun _ => rfl, fun _ => rfl, fun _ => rfl,
      fun _ => rfl, fun _ => rfl⟩
  obtain ⟨hi, hg⟩ := h.declared (refsOf [unit] ++ refsOf home.toList) hx hc hf rfl
    (fun ref => by
      simp only [described, Site.declaredNode, TypeNode.refs, TypeState.declaredBy,
        TypeState.requiredBy, refsOf, Option.toList_some, Option.toList_none, List.map_nil,
        List.append_nil, List.mem_append]
      tauto)
    (fun ref hm => by
      simp only [List.mem_append, mem_refsOf, List.mem_singleton, Option.mem_toList,
        exists_eq_left] at hm
      rcases hm with rfl | ⟨artifact, hm, rfl⟩
      · exact hunit
      · exact hhome artifact hm)
  have hself : (middle.types.modify id (described decl outer unit home)).get? id =
      some (described decl outer unit home x) := by
    rw [Arena.get?_modify, if_pos rfl, hx]
    rfl
  -- What is declared of the type does not depend on what happens to it from here on.
  have hdeclared : ∀ {after : Graph}, BuildsOn { middle with
      types := middle.types.modify id (described decl outer unit home) } after →
      ∃ y, after.types.get? id = some y ∧ y.name = name ∧ y.state = .complete unit := by
    intro after hg'
    obtain ⟨y, hy, hn, hs, -⟩ := hg'.type hself
    exact ⟨y, hy, hn.trans hname, hs unit rfl⟩
  rw [declaredWithin_eq]
  cases outer with
  | none =>
    obtain ⟨hi', hg'⟩ := hi.listed (Graph.knows_of_get? hself) unit
    obtain ⟨y, hy, hn, hs⟩ := hdeclared hg'
    refine ⟨hi', hg.trans hg', ⟨y, hy, hn⟩, fun k hm => ?_, fun k hm => ?_⟩
    · rw [List.mem_singleton.1 hm]
      exact ⟨y, hy, hs⟩
    · rw [List.mem_singleton.1 hm]
      exact .refl
  | some type =>
    have hown := (ho type rfl).mono hg
    obtain ⟨z, hz, hnz⟩ := hown.named
    obtain ⟨z', hz', hsz⟩ := hown.declared _ (List.mem_cons_self ..)
    cases hz.symm.trans hz'
    obtain ⟨hlabel, htext⟩ := QualifiedName.text_of_nested hq
    obtain ⟨hi', hg'⟩ := hi.putIn hself rfl hz
      ⟨unit, decl.label, rfl, hsz, hlabel, by
        rw [hf.name, hname, htext, hnz]⟩
    obtain ⟨hi'', hg''⟩ := hi'.listed ((Graph.knows_of_get? hself).mono hg') unit
    obtain ⟨y, hy, hn, hs⟩ := hdeclared (hg'.trans hg'')
    have hown' := hown.mono (hg'.trans hg'')
    refine ⟨hi'', hg.trans (hg'.trans hg''), ⟨y, hy, hn⟩, fun k hm => ?_, fun k hm => ?_⟩
    · rcases List.mem_cons.1 hm with rfl | hm
      · exact ⟨y, hy, hs⟩
      · exact hown'.declared k hm
    · rcases List.mem_cons.1 hm with rfl | hm
      · exact .refl
      · exact .head ((Graph.declaredIn_putIn hself type.id).mono hg'') (hown'.around k hm)

/-- The placeholder that is declared comes in if it is not there. -/
private theorem intact_awaited (h : graph.Intact)
    (hhome : ∀ artifact, home = some artifact → graph.Knows ⟨.artifact, artifact⟩)
    (ha : Scope.Awaits graph name home middle id) : middle.Intact ∧ BuildsOn graph middle := by
  obtain ⟨-, rfl | ⟨rfl, -, -⟩⟩ := ha
  · exact ⟨h, .refl _⟩
  · exact h.withBlank hhome fun _ hm => by cases hm

/-- The type of a site is declared in a whole state. -/
private theorem declareAs_run
    (ha : Scope.Awaits s.store.graph name s.scope.artifact? middle id)
    (hrun : inScope (·.declare name source.unit) s =
      (.ok id, Twins.declaredState s source.unit name middle id))
    (ho : ∀ type, outer = some type → ∃ y, middle.types.get? type.id = some y) :
    decl.declareAs source outer name s =
      (.ok (some (decl.declaredType outer name id)),
        (Twins.declaredState s source.unit name middle id).withGraph
          (declaredWithin decl outer middle id source.unit s.scope.artifact?)) := by
  rw [Site.declareAs_new hrun (Twins.updated_of_awaits source.unit ha rfl decl outer)]
  cases outer with
  | none => rfl
  | some type =>
    obtain ⟨y, hy⟩ := ho type rfl
    have hknown : ∃ z, (Twins.declaredGraph decl (some type) middle id source.unit
        s.scope.artifact?).types.get? type.id = some z := by
      unfold Twins.declaredGraph
      simp only
      rw [Arena.get?_modify, Graph.get?_types_withDeclaration, hy]
      split_ifs <;> exact ⟨_, rfl⟩
    obtain ⟨z, hz⟩ := hknown
    have hlist : Site.listWithin (some type) id
        ((Twins.declaredState s source.unit name middle id).withGraph
          (Twins.declaredGraph decl (some type) middle id source.unit s.scope.artifact?)) =
        (.ok (), (Twins.declaredState s source.unit name middle id).withGraph
          (declaredWithin decl (some type) middle id source.unit s.scope.artifact?)) :=
      onGraph_run (Graph.updateType_known _ hz)
    rw [bind_of_ok hlist]
    rfl

/-- A site is declared or refused in a whole state. -/
private theorem outcome_declaring (hs : s.Whole source.unit)
    (hq : decl.qualifiedName package outer = .ok name)
    (ho : ∀ type, outer = some type → Owned source.unit s.store.graph type) :
    BuildsOn s.store.graph (decl.declareAs source outer name s).2.store.graph ∧
      (decl.declareAs source outer name s).2.Whole source.unit ∧
      ∀ {found}, (decl.declareAs source outer name s).1 = .ok found →
        ∀ type, found = some type →
          Owned source.unit (decl.declareAs source outer name s).2.store.graph type := by
  have hk : Keeps (PassesOn source.unit) (decl.declareAs source outer name) := inferInstance
  have hsound := hk.keeps s hs.sound
  rcases Twins.inScope_declare_cases hs.sound rfl name with ⟨existing, -, hrun⟩ |
    ⟨id, middle, ha, hrun⟩
  · rw [Site.declareAs_duplicate hrun]
    exact ⟨.refl _, ⟨hs.sound, hs.intact, hs.borrowed, hs.dependencies⟩,
      fun he type ht => by cases he; cases ht⟩
  · have hhome : ∀ artifact, s.scope.artifact? = some artifact →
        s.store.graph.Knows ⟨.artifact, artifact⟩ := by
      intro artifact hartifact
      obtain ⟨x, hx⟩ := hs.sound.1.artifact_known hartifact
      exact Arena.lt_size_of_get? hx
    obtain ⟨node, hn, -⟩ := hs.sound.2
    have hunit : s.store.graph.Knows ⟨.unit, source.unit⟩ := Arena.lt_size_of_get? hn
    obtain ⟨hi, hg⟩ := intact_awaited hs.intact hhome ha
    obtain ⟨x, hx, hname, -, hc⟩ := ha.1
    obtain ⟨hi', hg', hown⟩ := intact_declared hi hx hname hc
      (hunit.mono hg)
      (fun artifact hartifact => (hhome artifact hartifact).mono hg) hq
      fun type ht => (ho type ht).mono hg
    rw [declareAs_run ha hrun fun type ht => ((ho type ht).mono hg).get?] at hsound ⊢
    refine ⟨hg.trans hg', ⟨hsound, hi', ?_, fun pair hm =>
      (hs.dependencies pair hm).mono (hg.trans hg')⟩, ?_⟩
    · refine (Twins.borrowedKnown_withDeclared hs.borrowed).of_known fun hx => ?_
      obtain ⟨y, hy, hny, -⟩ := (hg.trans hg').type hx
      exact ⟨y, hy, hny⟩
    · intro found he type ht
      cases he
      cases ht
      exact hown

end

/-! ### The tandem -/

/-- The steps of a scan keep an intact graph intact. -/
theorem intact_declaring (source : SourceUnit) : (intactTandem source).Declaring where
  refl := .refl
  trans := .trans
  type_mono hle hab := ⟨hab.1, hab.2.mono hle⟩
  field_mono hle hab := by
    obtain ⟨rfl, x, hx, hd⟩ := hab
    obtain ⟨y, hy, hdy⟩ := hle.field hx
    exact ⟨rfl, y, hy, hdy.trans hd⟩
  function_mono hle hab := by
    obtain ⟨rfl, x, hx, hd⟩ := hab
    obtain ⟨y, hy, hdy⟩ := hle.function hx
    exact ⟨rfl, y, hy, hdy.trans hd⟩
  owner_mono hle hab := ⟨hab.1, hab.2.mono hle⟩
  named_mono _ _ := trivial
  recorded_mono _ _ := trivial
  injective _ := by
    intro a b a' b' hab hab'
    rw [hab.1, hab'.1]
  alike := alike_of_owned
  known := by
    rintro w s t a b ⟨rfl, rfl, -⟩ ⟨rfl, ha⟩
    exact ⟨Graph.get?_of_knows ha, Graph.get?_of_knows ha⟩
  display := by
    rintro w s t a b ⟨rfl, rfl, -⟩ hu
    rw [(eq_of_use hu).1]
  report line column text := runs_saying _
  resolve name place h := by
    have hsame : ∀ site' : ReferenceSite, site'.source = source → ∀ site : ReferenceSite,
        site.source = source → site.resolve name place = site'.resolve name place := by
      intro site' h' site h
      unfold ReferenceSite.resolve
      rw [h, h']
    rw [hsame _ h.source _ h.source']
    exact runs_resolving h.source name place
  note ho ht := by
    rw [← ho.1, ← ht.1]
    exact runs_noting (ho.2.knows (List.mem_cons_self ..)) ht.2
  supertypes h _ hc hi := by
    obtain ⟨rfl, hsuperclass⟩ := eq_of_type? hc
    obtain ⟨rfl, hall⟩ := eq_of_types hi
    rw [← h.owner.1]
    exact runs_supers h.owner.2 hsuperclass hall
  base h _ _ hs _ := by
    rw [← h.owner.1, ← hs.1]
    exact runs_basing h.owner.2 hs.2
  addField ho hd _ hab := by
    obtain ⟨rfl, hu⟩ := eq_of_field hab
    exact runs_field ho.2 hd hu
  addFunction ho hd _ hpa hpb hab hh := by
    obtain ⟨rfl, hreturns, hthrows⟩ := eq_of_function hab hpa hpb
    obtain ⟨rfl, hheads⟩ := eq_of_heads hh
    exact runs_function ho.2 hd hpa hreturns hthrows hheads
  flush ha := by
    rw [← eq_of_accesses And.left And.left ha]
    refine runs_flushing fun access hm => ?_
    obtain ⟨_, -, owner, _, ⟨-, hown⟩, halike⟩ := mem_of_forall₂ ha hm
    obtain ⟨-, function, hfunction, hdf⟩ := halike.function
    obtain ⟨outer, hm, -, field, hfield, hdd⟩ := halike.field
    exact ⟨function, field, hfunction, hfield, by rw [hdf, hdd]; exact hown.around outer hm⟩
  declareAs := by
    rintro w s t outer outer' decl package name - hq ho ⟨rfl, rfl, hs⟩ -
    have hsame : outer' = outer ∧
        ∀ type, outer = some type → Owned source.unit s.store.graph type := by
      cases ho with
      | none => exact ⟨rfl, nofun⟩
      | some hab =>
        obtain ⟨rfl, hown⟩ := hab
        exact ⟨rfl, fun type ht => by cases ht; exact hown⟩
    obtain ⟨rfl, hall⟩ := hsame
    obtain ⟨hg, hw, hv⟩ := outcome_declaring hs hq hall
    change (intactTandem source).Outcome s.store.graph _
      (decl.declareAs source outer' name s) (decl.declareAs source outer' name s)
    refine ⟨_, hg, ⟨rfl, rfl, hw⟩, ?_⟩
    cases hx : (decl.declareAs source outer' name s).1 with
    | error e => exact trivial
    | ok found =>
      cases found with
      | none => exact .none
      | some type => exact .some ⟨rfl, hv hx type rfl⟩
  setMainType ho := by
    rw [← ho.1]
    exact runs_mainType ho.2

/-- The scan of a file keeps an intact graph intact. -/
theorem Whole.scanTypes (hs : s.Whole source.unit) (recordAccesses : Bool) (header : Header)
    (path : String) (root : Tree) :
    (scanTypes recordAccesses source header path root s).2.Whole source.unit := by
  have hadmits : (intactTandem source).Admits (·.types)
      (JavaGraph.scanTypes recordAccesses source header path root s).1 := by
    cases (JavaGraph.scanTypes recordAccesses source header path root s).1 with
    | ok declared => exact fun _ _ => trivial
    | error e => exact fun _ => trivial
  have hout : (intactTandem source).Outcome s.store.graph
      (fun w => Declarations.Alike ((intactTandem source).owner w))
      (JavaGraph.scanTypes recordAccesses source header path root s)
      (JavaGraph.scanTypes recordAccesses source header path root s) :=
    Tandem.runs_scanTypes (intact_declaring source) recordAccesses header path root
      (fun _ => trivial) s s ⟨rfl, rfl, hs⟩ hadmits
  obtain ⟨w, -, ⟨-, -, hw⟩, -⟩ := hout
  exact hw

end ScanState

end JavaGraph
