import JavaGraph.Proofs.Graph.Unrecorded
import JavaGraph.Proofs.Scan.Counted
import JavaGraph.Proofs.Scan.Oblivious
import JavaGraph.Proofs.Scan.Trace
/-!
# Scans that do not record uses of fields

No step of a scan looks at the uses of fields that the graph has. They come in last, and by then the
fields and the functions of the file are known, so nothing speaks against them. A scan that leaves
them out gives the same as one that records them, and leaves the same but for them.
-/

/-!
## Steps that do not look at uses of fields
-/

namespace JavaGraph

open JavaGraph.Action

namespace ScanState

/-- The state without the uses of fields that are recorded in its graph. -/
def withoutAccesses (state : ScanState) : ScanState :=
  { state with store := state.store.withoutAccesses }

instance (diagnostic : Diagnostic) : Commutes withoutAccesses (report diagnostic) :=
  commutes_change fun _ => rfl

instance (source target : TypeId) : Commutes withoutAccesses (noteDependency source target) :=
  commutes_noteDependency source target fun _ => rfl

/-- Something else is read off the graph. -/
private theorem commutes_readGraph {α : Type} {f : Graph → Except GraphError α}
    (h : ∀ graph, f graph.withoutAccesses = f graph) : Commutes withoutAccesses (readGraph f) :=
  commutes_check fun state => h state.store.graph

instance {α : Type} (action : GraphAction α) [h : Commutes Graph.withoutAccesses action] :
    Commutes withoutAccesses (onGraph action) :=
  commutes_onGraph h (fun _ => rfl) fun _ _ => rfl

/-- A scope is asked. -/
private theorem commutes_scoped {f : Scope → StoreAction (TypeId × Scope)}
    (h : ∀ scope, Commutes Store.withoutAccesses (f scope)) :
    Commutes withoutAccesses (inScope f) := by
  constructor
  intro state
  have hrun : f state.withoutAccesses.scope state.withoutAccesses.store = _ :=
    (h state.scope).commutes state.store
  simp only [CommutesAt, inScope, hrun]
  rcases f state.scope state.store with ⟨⟨⟨id, scope⟩ | e⟩, store⟩ <;> rfl

end ScanState

/-! ### References -/

namespace ReferenceSite

variable (site : ReferenceSite)

instance (name : QualifiedName) (place : Token) :
    Commutes ScanState.withoutAccesses (site.resolve name place) := by
  have := ScanState.commutes_scoped (f := (·.resolve name site.source.unit))
    fun _ => inferInstance
  have := ScanState.commutes_scoped (f := (·.require name site.source.unit))
    fun _ => inferInstance
  unfold resolve
  refine Commutes.bind inferInstance fun result => ?_
  cases result with
  | ok id => infer_instance
  | error e => infer_instance

instance (segments : List Token) : Commutes ScanState.withoutAccesses (site.refer segments) := by
  unfold refer
  split
  · infer_instance
  · dsimp only
    split <;> infer_instance

instance (typeVariables : List String) (mention : Mention) :
    Commutes ScanState.withoutAccesses (site.mention typeVariables mention) := by
  unfold ReferenceSite.mention
  split <;> infer_instance

instance (typeVariables : List String) (mentions : List Mention) :
    Commutes ScanState.withoutAccesses (site.mentionAll typeVariables mentions) := by
  unfold mentionAll
  infer_instance

instance (node : Tree) : Commutes ScanState.withoutAccesses (site.annotationUse node) := by
  unfold annotationUse
  infer_instance

instance (node : Tree) : Commutes ScanState.withoutAccesses (site.annotationUses node) := by
  unfold annotationUses
  infer_instance

instance (typeVariables : List String) (node : Tree) :
    Commutes ScanState.withoutAccesses (site.typeBase typeVariables node) := by
  unfold typeBase
  split <;> infer_instance

instance (typeVariables : List String) (node : Tree) (dimensions : Nat) :
    Commutes ScanState.withoutAccesses (site.typeUse typeVariables node dimensions) := by
  unfold typeUse
  infer_instance

instance (typeVariables : List String) (node : Tree) :
    Commutes ScanState.withoutAccesses (site.declaredType typeVariables node) := by
  unfold declaredType
  infer_instance

instance (typeVariables : List String) (node : Tree) :
    Commutes ScanState.withoutAccesses (site.declaredTypes typeVariables node) := by
  unfold declaredTypes
  infer_instance

instance (typeVariables : List String) (event : BodyEvent) :
    Commutes ScanState.withoutAccesses (site.recordEvent typeVariables event) := by
  unfold recordEvent
  split <;> infer_instance

instance (fields : VisibleFields) (body : Body) :
    Commutes ScanState.withoutAccesses (site.recordBody fields body) := by
  unfold recordBody
  infer_instance

/-! ### Members -/

instance (kind : NodeKind) : Commutes ScanState.withoutAccesses (site.clause kind) := by
  unfold clause
  split <;> infer_instance

instance : Commutes ScanState.withoutAccesses site.supertypes := by
  have := fun base => ScanState.commutes_readGraph (f := fun graph => graph.types.get base)
    fun _ => rfl
  unfold supertypes
  split
  · infer_instance
  · infer_instance
  · infer_instance
  · infer_instance
  · refine Commutes.bind inferInstance fun base => ?_
    cases base <;> infer_instance
  · infer_instance

instance : Commutes ScanState.withoutAccesses site.recordSupertypes := by
  unfold recordSupertypes
  infer_instance

instance (typeRef : Tree) (modifiers : Modifiers) (declarator : Tree) :
    Commutes ScanState.withoutAccesses (site.recordField typeRef modifiers declarator) := by
  have := fun use : TypeUse => ScanState.commutes_readGraph
    (f := fun graph => .ok (use.display graph)) fun _ => rfl
  unfold recordField
  split
  · infer_instance
  · refine Commutes.bind inferInstance fun use => ?_
    cases use <;> infer_instance

instance (node : Tree) : Commutes ScanState.withoutAccesses (site.recordFields node) := by
  unfold recordFields
  refine Commutes.bind inferInstance fun _ => ?_
  split <;> infer_instance

instance (node : Tree) : Commutes ScanState.withoutAccesses (site.recordEnumConstant node) := by
  unfold recordEnumConstant
  refine Commutes.bind inferInstance fun _ => ?_
  split <;> infer_instance

instance (node : Tree) : Commutes ScanState.withoutAccesses (site.functionTypeParameters node) := by
  unfold functionTypeParameters
  split <;> infer_instance

instance (typeVariables : List String) (node : Tree) :
    Commutes ScanState.withoutAccesses (site.returnType typeVariables node) := by
  unfold returnType
  split
  · infer_instance
  · split <;> infer_instance

instance (typeVariables : List String) (node : Tree) :
    Commutes ScanState.withoutAccesses (site.parameterHead typeVariables node) := by
  unfold parameterHead
  refine Commutes.bind inferInstance fun _ => ?_
  split <;> infer_instance

instance (typeVariables : List String) (node : Tree) :
    Commutes ScanState.withoutAccesses (site.parameterHeads typeVariables node) := by
  unfold parameterHeads
  split <;> infer_instance

instance (function : FunctionId) (heads : List ParameterHead) :
    Commutes Graph.withoutAccesses (addParameters function heads) := by
  unfold addParameters
  infer_instance

instance (node : Tree) : Commutes ScanState.withoutAccesses (site.recordFunction node) := by
  have := fun heads : List ParameterHead => ScanState.commutes_readGraph
    (f := fun graph => .ok (heads.map (·.typeUse.display graph))) fun _ => rfl
  unfold recordFunction
  refine Commutes.bind inferInstance fun _ => Commutes.bind inferInstance fun typeParameters => ?_
  split
  · infer_instance
  · dsimp only
    split <;>
      refine Commutes.bind inferInstance fun _ => Commutes.bind inferInstance fun parameters => ?_ <;>
      split <;> infer_instance

instance (node : Tree) : Commutes ScanState.withoutAccesses (site.recordMember node) := by
  unfold recordMember
  split <;> infer_instance

instance : Commutes ScanState.withoutAccesses site.recordMembers := by
  unfold recordMembers
  refine Commutes.bind inferInstance fun _ => Commutes.bind inferInstance fun _ => ?_
  split <;> infer_instance

end ReferenceSite

/-! ### Declarations -/

namespace Site

variable (source : SourceUnit)

instance (site : Site) (outer : Option DeclaredType) (name : QualifiedName) :
    Commutes ScanState.withoutAccesses (site.declareAs source outer name) := by
  have := ScanState.commutes_scoped (f := (·.declare name source.unit))
    fun _ => inferInstance
  unfold declareAs
  refine Commutes.bind inferInstance fun result => ?_
  cases result with
  | error e => cases e <;> infer_instance
  | ok id => cases outer <;> infer_instance

instance (site : Site) (package : Option String) (outer : Option DeclaredType) :
    Commutes ScanState.withoutAccesses (site.declare source package outer) := by
  unfold declare
  split <;> infer_instance

mutual

private theorem commutes_declareTree (package : Option String) (outer : Option DeclaredType) :
    ∀ site, Commutes ScanState.withoutAccesses (declareTree source package outer site)
  | ⟨name?, number?, base?, node, within⟩ => by
    have ih := fun outer => commutes_declareAll package outer within
    unfold declareTree
    refine Commutes.bind inferInstance fun type => ?_
    cases type <;> infer_instance

private theorem commutes_declareAll (package : Option String) (outer : Option DeclaredType) :
    ∀ sites, Commutes ScanState.withoutAccesses (declareAll source package outer sites)
  | [] => by
    unfold declareAll
    infer_instance
  | site :: rest => by
    have := commutes_declareTree package outer site
    have := commutes_declareAll package outer rest
    unfold declareAll
    infer_instance

end

end Site

instance (source : SourceUnit) (header : Header) (root : Tree) :
    Commutes ScanState.withoutAccesses (Declarations.declare source header root) := by
  have := Site.commutes_declareAll source
  unfold Declarations.declare
  infer_instance

end JavaGraph

/-!
## Uses of known fields

When the uses of fields of a file come in, its types have their members, and what code sees under a
name is one of these. So none of the uses is refused.
-/

namespace JavaGraph

open List (Forall₂)
open JavaGraph.Action

namespace Graph

/-- The field and the function of a use are known. -/
structure KnowsUse (graph : Graph) (access : Access) : Prop where
  function : ∃ x, graph.functions.get? access.function = some x
  field : ∃ x, graph.fields.get? access.field = some x

/-- Members stay known. -/
theorem KnowsUse.mono {graph after : Graph} {access : Access} (h : graph.KnowsUse access)
    (hg : KeepsMembers graph after) : after.KnowsUse access := by
  obtain ⟨⟨x, hx⟩, y, hy⟩ := h
  exact ⟨⟨x, hg.function hx⟩, y, hg.field hy⟩

/-- Uses of known fields come in, and nothing else changes. -/
theorem mirrorsAt_addAccesses {accesses : List Access} : ∀ {graph : Graph},
    (∀ access ∈ accesses, graph.KnowsUse access) →
      MirrorsAt withoutAccesses (forEach accesses addAccess) (pure ()) graph := by
  induction accesses with
  | nil => exact fun _ => rfl
  | cons access rest ih =>
    intro graph h
    rw [List.forall_mem_cons] at h
    obtain ⟨⟨⟨function, hf⟩, field, hg⟩, hrest⟩ := h
    have hrun : forEach (access :: rest) addAccess graph =
        forEach rest addAccess (graph.withAccess access) :=
      bind_of_ok (addAccess_known hf hg)
    unfold MirrorsAt
    rw [hrun]
    exact ih fun other ho => (hrest other ho).mono (retains_withAccess graph access).toKeepsMembers

end Graph

namespace TypeMembers

/-- A field that is known, as one that is alike to itself. -/
private def KnownField (graph : Graph) (_ : TypeId) (field other : FieldId) : Prop :=
  field = other ∧ ∃ x, graph.fields.get? field = some x

/-- A function that is known, as one that is alike to itself. -/
private def KnownFunction (graph : Graph) (_ : TypeId) (function other : FunctionId) : Prop :=
  function = other ∧ ∃ x, graph.functions.get? function = some x

/-- What is recorded of a type is alike to itself if its members are known. -/
private theorem alike_record {graph : Graph} {found : TypeMembers}
    (h : ∀ member ∈ found.members, member.Known graph found.type.id) :
    TypeRecord.Alike Eq (KnownField graph) (KnownFunction graph) found.record found.record := by
  refine ⟨rfl, ?_, ?_⟩
  · refine List.forall₂_same.2 fun pair hp => ⟨rfl, rfl, ?_⟩
    obtain ⟨member, hm, hpair⟩ := List.mem_filterMap.1 hp
    have hk := h member hm
    cases member with
    | field id node value? =>
      obtain ⟨x, hx, -⟩ := hk
      obtain ⟨name, -, rfl⟩ := Option.map_eq_some_iff.1 hpair
      exact ⟨x, hx⟩
    | function id node parameters => cases hpair
  · refine List.forall₂_same.2 fun body hb => ⟨?_, rfl, rfl, rfl⟩
    obtain ⟨member, hm, hbody⟩ := List.mem_filterMap.1 hb
    have hk := h member hm
    cases member with
    | field id node value? =>
      obtain ⟨value, -, rfl⟩ := Option.map_eq_some_iff.1 hbody
      exact .none
    | function id node parameters =>
      obtain ⟨x, hx, -⟩ := hk
      obtain ⟨block, -, rfl⟩ := Option.map_eq_some_iff.1 hbody
      exact .some ⟨rfl, x, hx⟩

/-- Code uses known fields, and belongs to known functions, if the members of all types are known. -/
theorem knowsUse_of_known {graph : Graph} {found : List TypeMembers}
    (h : ∀ one ∈ found, ∀ member ∈ one.members, member.Known graph one.type.id) :
    ∀ access ∈ TypeRecord.accesses (found.map (·.record)), graph.KnowsUse access := by
  have hrecords : ∀ record ∈ found.map (·.record),
      TypeRecord.Alike Eq (KnownField graph) (KnownFunction graph) record record :=
    List.forall_mem_map.2 fun one ho => alike_record (h one ho)
  have hself : ∀ {a b : DeclaredType}, a = b → DeclaredType.Alike Eq a b := by
    rintro a _ rfl
    exact ⟨rfl, rfl, rfl, rfl, rfl, List.forall₂_same.2 fun _ _ => rfl⟩
  have halike := TypeRecord.Alike.accesses (fun {_ _ _ _} hab hab' => by rw [hab, hab']) hself
    (List.forall₂_same.2 hrecords)
  intro access ha
  obtain ⟨_, _, -, ⟨-, hfunction⟩, ⟨_, -, -, hfield⟩, -⟩ := List.forall₂_same.1 halike access ha
  exact ⟨hfunction, hfield⟩

end TypeMembers

/-- Uses of known fields may be left out. -/
theorem mirrorsAt_flush {accesses : List Access} {s : ScanState}
    (h : ∀ access ∈ accesses, s.store.graph.KnowsUse access) :
    MirrorsAt ScanState.withoutAccesses (ScanState.flush accesses) (ScanState.flush []) s := by
  have hone : ∀ pair, Commutes Graph.withoutAccesses (ScanState.addDependency pair) := by
    intro pair
    unfold ScanState.addDependency
    infer_instance
  have hread : Commutes ScanState.withoutAccesses (read (·.dependencies) : ScanAction _) :=
    commutes_read fun _ => rfl
  refine MirrorsAt.bind (hread.commutes s) fun {pairs m} hr => ?_
  cases hr
  refine MirrorsAt.bind (Commutes.commutes s) fun {_ m} hd => ?_
  have := ReferenceSite.takesIn_onGraph (Graph.takesIn_addDependencies s.dependencies)
  have hkept := ReferenceSite.takesIn_of_run hd
  have huses := Graph.mirrorsAt_addAccesses fun access ha => (h access ha).mono hkept.toKeepsMembers
  exact MirrorsAt.within (MirrorsAt.within huses rfl fun _ => rfl) rfl fun _ => rfl

/-! ### Files -/

open ReferenceSite (Owns)

/-- A known type stays known. -/
private theorem owns_of_persists {s t : ScanState} {owner : TypeId} (h : Owns s owner)
    (hg : Graph.Persists s.store.graph t.store.graph) : Owns t owner := by
  obtain ⟨x, hx⟩ := h
  obtain ⟨y, hy, -⟩ := hg.type hx
  exact ⟨y, hy⟩

/-- The types that are declared are known. -/
theorem Site.Declared.owns {source : SourceUnit} {s t : ScanState} {types : List DeclaredType}
    (h : Site.Declared source s types t) :
    Graph.Persists s.store.graph t.store.graph ∧ ∀ type ∈ types, Owns t type.id := by
  induction h with
  | nothing s => exact ⟨Guarantee.refl _, nofun⟩
  | malformed s diagnostic => exact ⟨Guarantee.refl (R := Graph.Persists) _, nofun⟩
  | @site site outer type name s t hn h =>
    have hk : Keeps (ScanState.OnGraph Graph.Persists) (site.declareAs source outer name) :=
      inferInstance
    refine ⟨hk.of_run h, fun declared hm => ?_⟩
    cases type with
    | none => cases hm
    | some type =>
      obtain rfl := List.mem_singleton.1 hm
      obtain ⟨id, m, -, rfl, hx, hp⟩ := ScanState.declare_of_declareAs h
      exact owns_of_persists (s := m) hx hp
  | append _ _ ih ih' =>
    refine ⟨Guarantee.trans ih.1 ih'.1, List.forall_mem_append.2 ⟨fun type hm => ?_, ih'.2⟩⟩
    exact owns_of_persists (ih.2 type hm) ih'.1

/-- The second and the third pass over known types. -/
theorem mirrorsAt_readTypes {source : SourceUnit} {declared : Declarations} {s : ScanState}
    (hs : ∀ type ∈ declared.types, Owns s type.id) :
    MirrorsAt ScanState.withoutAccesses (readTypes true source declared)
      (readTypes false source declared) s := by
  refine MirrorsAt.bind (Commutes.commutes s) fun {records m} hr => ?_
  obtain ⟨found, -, rfl, -, htakes⟩ := recorded_types hs hr
  refine MirrorsAt.bind (Commutes.commutes m) fun {_ m'} hb => ?_
  have hbodies : Keeps (ScanState.OnGraph (Graph.TakesIn [] []))
      (forEach (found.map (·.record)) fun record =>
        forEach record.members.bodies (ReferenceSite.recordBody
          ⟨source, declared, record.type⟩ (record.visibleFields (found.map (·.record))))) :=
    inferInstance
  have hkept := (hbodies.of_run hb).toKeepsMembers
  refine MirrorsAt.bind (mirrorsAt_flush ?_) fun _ => rfl
  refine TypeMembers.knowsUse_of_known fun one ho member hm => ?_
  exact (htakes.known (one.type.id, member)
    (List.mem_flatMap.2 ⟨one, ho, List.mem_map.2 ⟨member, hm, rfl⟩⟩)).mono hkept

/-- The types of a file are known when they are declared. -/
theorem Declarations.owns_declare {source : SourceUnit} {header : Header} {root : Tree}
    {declared : Declarations} {s t : ScanState}
    (h : Declarations.declare source header root s = (.ok declared, t)) :
    ∀ type ∈ declared.types, Owns t type.id := by
  obtain ⟨types, _, hr, hp⟩ := ok_of_bind h
  cases hp
  exact (Site.declared_of_declareAll _ (fun _ => Site.numbered_ofTree) hr).owns.2

/-- A scan that records no uses of fields gives the same as one that does, and leaves the same but for
them. -/
theorem mirrors_scanTypes (source : SourceUnit) (header : Header) (path : String) (root : Tree) :
    Mirrors ScanState.withoutAccesses (scanTypes true source header path root)
      (scanTypes false source header path root) := by
  intro s
  refine MirrorsAt.bind (Commutes.commutes s) fun {declared m} hd => ?_
  have howns := Declarations.owns_declare hd
  dsimp only
  cases declared.mainType? path with
  | none => exact mirrorsAt_readTypes howns
  | some type =>
    refine MirrorsAt.bind (Commutes.commutes m) fun {_ m'} hm => ?_
    have hmain : ScanState.Guarantee source.unit (ScanState.OnGraph Graph.Persists) := inferInstance
    have hpersists := (hmain.mainType type.id).of_run hm
    exact mirrorsAt_readTypes fun other ho => owns_of_persists (howns other ho) hpersists

end JavaGraph
