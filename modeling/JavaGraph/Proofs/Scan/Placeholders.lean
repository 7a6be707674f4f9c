import JavaGraph.Proofs.Scan.Contents
import JavaGraph.Proofs.Scan.Warned
import JavaGraph.Proofs.Scan.Written
/-!
# Where placeholders come from

A scan makes a placeholder only for a reference. So every placeholder that comes in has a name that
is written in one of the declared types: of an annotation, of a type that is no type parameter, or
of a type in front of a dot.
-/

namespace JavaGraph

open JavaGraph.Action

/-! ### What is written -/

namespace ReferenceSite

/-- What is mentioned in the declaration of a type or in its body, and the type parameters of the
member around it. -/
inductive Mentions (site : ReferenceSite) : List String → Mention → Prop
  | supertype {mention : Mention} : mention ∈ Mention.ofSupertypes site.owner →
      Mentions site [] mention
  | onType {mention : Mention} : mention ∈ Mention.ofAnnotations site.owner.node →
      Mentions site [] mention
  | member {body member : Tree} {mention : Mention} : site.owner.body? = some body →
      member ∈ body.children → mention ∈ Mention.ofMember member →
      Mentions site member.memberVariables mention
  | typeRef {written : Member} {code node : Tree} {fields : VisibleFields} {locals : List String}
      {mention : Mention} : written ∈ site.allMembers → written.code? = some code →
      .typeRef node ∈ (BodyEvent.ofNode fields locals code).1 → mention ∈ Mention.ofTypeRef node →
      Mentions site written.typeVariables mention
  | annotationUse {written : Member} {code node : Tree} {fields : VisibleFields}
      {locals : List String} {mention : Mention} : written ∈ site.allMembers →
      written.code? = some code →
      .annotationUse node ∈ (BodyEvent.ofNode fields locals code).1 →
      mention ∈ Mention.ofAnnotation node → Mentions site [] mention

/-- A name is written in a type as that of another type: of an annotation, of a type that is no type
parameter there, or of what stands in front of a dot. -/
inductive Refers (site : ReferenceSite) (name : QualifiedName) : Prop
  | annotated {typeVariables : List String} {segments : List Token} :
      site.Mentions typeVariables (.annotationName segments) →
      site.declared.qualify site.owner (segments.map (·.text)) = .ok name → Refers site name
  | type {typeVariables : List String} {segments : List Token} :
      site.Mentions typeVariables (.typeName segments) →
      site.isVariable typeVariables segments = false →
      site.declared.qualify site.owner (segments.map (·.text)) = .ok name → Refers site name
  | qualifier {written : Member} {code : Tree} {fields : VisibleFields} {locals : List String}
      {token : Token} : written ∈ site.allMembers → written.code? = some code →
      .typeName token ∈ (BodyEvent.ofNode fields locals code).1 →
      site.declared.qualify site.owner [token.text] = .ok name → Refers site name

variable {site : ReferenceSite} {reference : Reference} {typeVariables : List String}
  {mention : Mention}

/-- What is mentioned is referred to, unless it is a type parameter. -/
private theorem refers_of_mentioned (hm : site.Mentions typeVariables mention)
    (h : reference ∈ site.mentioned typeVariables mention) : site.Refers reference.name := by
  cases mention with
  | annotationName segments => exact .annotated hm (qualify_of_mem_references h)
  | typeName segments =>
    unfold mentioned at h
    simp only at h
    split at h
    · cases h
    · next hv => exact .type hm (Bool.eq_false_iff.2 hv) (qualify_of_mem_references h)

/-- The references of the members of a type are written in it. -/
private theorem refers_of_memberReferences (h : reference ∈ site.memberReferences) :
    site.Refers reference.name := by
  unfold memberReferences at h
  rcases List.mem_append.1 h with h | h
  · rcases List.mem_append.1 h with h | h
    · obtain ⟨mention, hm, hr⟩ := List.mem_flatMap.1 h
      exact refers_of_mentioned (.supertype hm) hr
    · obtain ⟨mention, hm, hr⟩ := List.mem_flatMap.1 h
      exact refers_of_mentioned (.onType hm) hr
  · cases hb : site.owner.body? with
    | none =>
      rw [hb] at h
      cases h
    | some body =>
      rw [hb] at h
      obtain ⟨member, hmem, h⟩ := List.mem_flatMap.1 h
      obtain ⟨mention, hm, hr⟩ := List.mem_flatMap.1 h
      exact refers_of_mentioned (.member hb hmem hm) hr

/-- The references of the code of a member are written in its type. -/
private theorem refers_of_bodyReferences {fields : VisibleFields} {member : RecordedMember}
    {body : Body} (hw : member.written ∈ site.allMembers) (hb : member.body? = some body)
    (h : reference ∈ site.bodyReferences fields body) : site.Refers reference.name := by
  obtain ⟨hcode, hvariables⟩ : member.written.code? = some body.node ∧
      body.typeParameters = member.written.typeVariables := by
    cases member with
    | field id node value? =>
      obtain ⟨value, rfl, rfl⟩ := Option.map_eq_some_iff.1 hb
      exact ⟨rfl, rfl⟩
    | function id node parameters =>
      obtain ⟨block, hblock, rfl⟩ := Option.map_eq_some_iff.1 hb
      exact ⟨hblock, rfl⟩
  obtain ⟨event, he, h⟩ := List.mem_flatMap.1 h
  cases event with
  | typeRef node =>
    obtain ⟨mention, hm, hr⟩ := List.mem_flatMap.1 h
    rw [hvariables] at hr
    exact refers_of_mentioned (.typeRef hw hcode he hm) hr
  | annotationUse node =>
    obtain ⟨mention, hm, hr⟩ := List.mem_flatMap.1 h
    exact refers_of_mentioned (.annotationUse hw hcode he hm) hr
  | typeName token =>
    have hr : reference ∈ site.references [token] := h
    exact .qualifier hw hcode he (qualify_of_mem_references hr)
  | access field line kind => cases h

end ReferenceSite

/-! ### Placeholders and references -/

namespace Graph

variable {refs refs' : List Reference} {before middle after : Graph}

/-- Types keep their names, and each placeholder that has come in has the name of a reference. -/
structure Supplies (refs : List Reference) (before after : Graph) : Prop where
  label : ∀ {id l}, before.label id = some l → after.label id = some l
  placeholder : ∀ {id x}, after.types.get? id = some x → x.isComplete = false →
    (∃ reference ∈ refs, reference.name = x.name) ∨
      ∃ y, before.types.get? id = some y ∧ y.isComplete = false

/-- Nothing happens. -/
theorem Supplies.refl (refs : List Reference) (graph : Graph) : Supplies refs graph graph :=
  ⟨id, fun hx hc => .inr ⟨_, hx, hc⟩⟩

/-- More and more placeholders come in. -/
theorem Supplies.trans (h : Supplies refs before middle) (h' : Supplies refs' middle after) :
    Supplies (refs ++ refs') before after := by
  refine ⟨h'.label ∘ h.label, fun {id x} hx hc => ?_⟩
  rcases h'.placeholder hx hc with ⟨reference, hm, hn⟩ | ⟨y, hy, hc'⟩
  · exact .inl ⟨reference, List.mem_append_right _ hm, hn⟩
  · rcases h.placeholder hy hc' with ⟨reference, hm, hn⟩ | hb
    · have hname : x.name = y.name :=
        congrArg Prod.fst (Option.some.inj ((label_of_get? hx).symm.trans
          (h'.label (label_of_get? hy))))
      exact .inl ⟨reference, List.mem_append_left _ hm, hn.trans hname.symm⟩
    · exact .inr hb

/-- Where no reference is made, no placeholder comes in. -/
theorem Warns.supplies {home : Universe} (h : Warns home [] [] [] before after) :
    Supplies [] before after :=
  ⟨h.label, fun hx hc => .inr ((h.placeholder hx hc).resolve_left List.not_mem_nil)⟩

/-- A placeholder comes in for a reference. -/
theorem supplies_missing (reference : Reference) (graph : Graph) (home : Universe) (unit : UnitId) :
    Supplies [reference] graph (graph.withMissing reference.name home unit) := by
  obtain ⟨holder, hk⟩ := get?_withMissing graph reference.name home unit
  refine ⟨fun {id l} hl => ?_, fun {id x} hx hc => ?_⟩
  · obtain ⟨x, hx, rfl⟩ := get?_of_label hl
    exact label_of_get? ((hk id).trans ((if_neg (Arena.ne_nextId hx)).trans hx))
  · rw [hk] at hx
    split at hx
    · cases hx
      exact .inl ⟨reference, List.mem_singleton_self _, rfl⟩
    · exact .inr ⟨x, hx, hc⟩

end Graph

namespace ScanState

variable {source : SourceUnit} {unit : UnitId} {refs : List Reference} {s m t : ScanState}

/-- From a sound state on, placeholders come in for references only. -/
def Supplies (unit : UnitId) (refs : List Reference) (s t : ScanState) : Prop :=
  s.Sound unit → t.Sound unit ∧ Graph.Supplies refs s.store.graph t.store.graph

instance : Accumulates (Supplies unit) where
  nothing _ hs := ⟨hs, .refl ..⟩
  append h h' hs := ⟨(h' (h hs).1).1, (h hs).2.trans (h' (h hs).1).2⟩

/-- What does not touch the ledger makes no placeholder. -/
private theorem supplies_onGraph {α : Type} (action : GraphAction α)
    (h : Keeps Graph.SameLedger action) : Keeps (Supplies unit []) (onGraph action) := by
  constructor
  intro s hs
  exact ⟨(keeps_onGraph action h).keeps s hs, ((h.keeps s.store.graph).warns none).supplies⟩

/-- A declaration makes no placeholder. -/
private theorem supplies_declare (name : QualifiedName) :
    Keeps (Supplies unit []) (inScope (·.declare name unit)) := by
  constructor
  intro s hs
  have hk : Keeps (PassesOn unit) (inScope (·.declare name unit)) := Guarantee.declare name
  have hsound := hk.keeps s hs
  rcases Twins.inScope_declare_cases hs rfl name with ⟨_, -, hrun⟩ | ⟨id, middle, ha, hrun⟩
  · rw [hrun]
    exact ⟨hs, .refl ..⟩
  · rw [hrun] at hsound ⊢
    exact ⟨hsound, (Graph.warns_withDeclaration ha _).supplies⟩

/-- A name that is resolved is a reference. -/
private theorem supplies_resolve {site : ReferenceSite} {id : TypeId} (name : QualifiedName)
    (place : Token) (hrun : site.resolve name place s = (.ok id, t)) :
    Supplies site.source.unit [⟨name, site.source.file, place⟩] s t := by
  intro hs
  have hk : Keeps (PassesOn site.source.unit) (site.resolve name place) := inferInstance
  have hsound := hk.of_run hrun hs
  refine ⟨hsound, ?_⟩
  cases hl : s.scope.lookup name s.store with
  | ok found =>
    cases found with
    | some found =>
      cases hrun.symm.trans (ReferenceSite.resolve_found place hl)
      exact .refl ..
    | none =>
      cases hrun.symm.trans (ReferenceSite.resolve_missing place hs hl).2
      exact Graph.supplies_missing ⟨name, site.source.file, place⟩ ..
  | error e =>
    rcases ReferenceSite.resolve_unanswered place hs hl with ⟨-, -, he⟩ | ⟨-, -, he⟩
    · cases hrun.symm.trans he
    · cases hrun.symm.trans he
      exact Graph.supplies_missing ⟨name, site.source.file, place⟩ ..

instance : Charting source (Supplies source.unit) where
  nameless := {
    report _ _ := ⟨fun _ hs => ⟨hs, .refl ..⟩⟩
    note source target := by
      constructor
      intro s hs
      unfold noteDependency
      split <;> exact ⟨hs, .refl ..⟩
    declare := supplies_declare
    record action hl _ := supplies_onGraph action hl
    mainType _ := supplies_onGraph _ inferInstance }
  resolve {s t id site} name place hu hrun := by
    subst hu
    exact supplies_resolve name place hrun

end ScanState

/-! ### Files -/

/-- Where types are declared there are no references, and no placeholder comes in. -/
private theorem Scanning.supplies {source : SourceUnit} {header : Header} {root : Tree}
    {s m m' : ScanState} {declared : Declarations} (h : Scanning source header root s declared m m')
    (hs : s.Sound source.unit) : Graph.Supplies [] s.store.graph m'.store.graph := by
  have hcharting : Charting source (ScanState.Supplies source.unit) := inferInstance
  have := hcharting.nameless
  have hdeclare : Keeps (ScanState.Supplies source.unit [])
      (Declarations.declare source header root) := inferInstance
  have hdeclare := hdeclare.of_run h.declare hs
  obtain ⟨-, hlabel, hplaceholder⟩ := hdeclare
  refine ⟨fun hl => ?_, fun hx => hplaceholder (h.types ▸ hx)⟩
  unfold Graph.label
  rw [h.types]
  exact hlabel hl

namespace Declarations.ReadSteps

variable {source : SourceUnit} {declared : Declarations} {recordAccesses : Bool}
  {found : List TypeMembers} {s m m' t : ScanState}

/-- While a file is read, placeholders come in for what is written in one of its types. -/
private theorem supplies (h : declared.ReadSteps source recordAccesses found s m m' t)
    (hs : s.Sound source.unit) : ∃ refs : List Reference,
      (∀ reference ∈ refs, ∃ type ∈ declared.types,
        ReferenceSite.Refers ⟨source, declared, type⟩ reference.name) ∧
      Graph.Supplies refs s.store.graph t.store.graph := by
  have hmembers : ∀ owner, Makes (ScanState.Supplies source.unit)
      (ReferenceSite.memberReferences ⟨source, declared, owner⟩) (do
        return ({ type := owner
                  members := ← ReferenceSite.recordMembers ⟨source, declared, owner⟩ } :
                    TypeRecord)) := by
    intro owner
    have hown : Makes (ScanState.Supplies source.unit)
        (ReferenceSite.memberReferences ⟨source, declared, owner⟩)
        (ReferenceSite.recordMembers ⟨source, declared, owner⟩) := ReferenceSite.makes_recordMembers
    exact hown.andThen fun _ => .pure _
  let code (record : TypeRecord) : Body → List Reference :=
    ReferenceSite.bodyReferences ⟨source, declared, record.type⟩
      (record.visibleFields (found.map (·.record)))
  have hbody : ∀ record body, Makes (ScanState.Supplies source.unit) (code record body)
      (ReferenceSite.recordBody ⟨source, declared, record.type⟩
        (record.visibleFields (found.map (·.record))) body) :=
    fun record body => ReferenceSite.makes_recordBody _ body
  have hbodies := (Makes.forEach fun record : TypeRecord =>
    .forEach fun body => hbody record body).run h.bodies
  have hcharting : Charting source (ScanState.Supplies source.unit) := inferInstance
  have := hcharting.nameless
  have hflush := keeps_flush (R := ScanState.Supplies source.unit []) source.unit
    (if recordAccesses then TypeRecord.accesses (found.map (·.record)) else [])
  have hflush := hflush.of_run h.flushed
  have hread := Accumulates.append ((Makes.mapEach hmembers).run h.members) hbodies
  refine ⟨_, ?_, (Accumulates.append hread hflush hs).2⟩
  rw [List.append_nil]
  refine List.forall_mem_append.2 ⟨fun reference hr => ?_, fun reference hr => ?_⟩
  · obtain ⟨type, ht, hr⟩ := List.mem_flatMap.1 hr
    exact ⟨type, ht, ReferenceSite.refers_of_memberReferences hr⟩
  · obtain ⟨record, hrecord, hr⟩ := List.mem_flatMap.1 hr
    obtain ⟨body, hb, hr⟩ := List.mem_flatMap.1 hr
    obtain ⟨one, ho, rfl⟩ := List.mem_map.1 hrecord
    obtain ⟨member, hm, hb⟩ := List.mem_filterMap.1 hb
    refine ⟨one.type, h.types ▸ List.mem_map_of_mem ho, ?_⟩
    refine ReferenceSite.refers_of_bodyReferences ?_ hb hr
    rw [← h.written one ho]
    exact List.mem_map_of_mem hm

end Declarations.ReadSteps

namespace OpenProject

variable {opened : OpenProject} {config : ScanConfig} {source : SourceText}
  {declared : Declarations} {s : ScanState}

/-- A placeholder that comes in with a new file has a name that is written in one of the types of
the file. -/
theorem refers_of_placeholder (hs : opened.Sound)
    (hr : passes config opened source = (.ok declared, s)) {id : TypeId} {x : TypeNode}
    (hx : s.store.graph.types.get? id = some x) (hc : x.isComplete = false) :
    (∃ y, opened.store.graph.types.get? id = some y ∧ y.isComplete = false) ∨
      ∃ type ∈ declared.types, ReferenceSite.Refers
        ⟨⟨opened.store.graph.units.nextId, opened.fileOf source⟩, declared, type⟩ x.name := by
  have hs' : (opened.seeing source.path).Sound := hs
  have hinitial := initial_sound (opened.fileOf source) source.path (parsed config source) hs'
  obtain ⟨_, _, _, _, _, hscan, -, -, hsteps⟩ := readSteps_passes hs hr
  obtain ⟨refs, hrefers, hsupplies⟩ := hsteps.supplies hscan.sound
  rcases hsupplies.placeholder hx hc with ⟨reference, hm, hn⟩ | ⟨y, hy, hc'⟩
  · exact .inr (hn ▸ hrefers reference hm)
  · exact .inl (((hscan.supplies hinitial).placeholder hy hc').resolve_left
      fun ⟨_, hm, _⟩ => List.not_mem_nil hm)

end OpenProject

end JavaGraph
