import JavaGraph.Proofs.Scan.Contents
import JavaGraph.Proofs.Scan.Written
import JavaGraph.Proofs.Session.Settled
/-!
# What types depend on, for good

A type depends on every type that is written in its declaration or in its body where the passes
look, and what is scanned later changes nothing about that. The bounds of the type parameters of a
class are among the places where they do not look, while those of a method are looked at.
-/

/-!
## What types depend on

Every reference of a type is resolved while the file is read, and the type it stands for is kept
back as a dependency of the type, unless it is the type itself. What was resolved once stays so
until the file is done, and then all dependencies enter the graph.
-/

namespace JavaGraph

open JavaGraph.Action

/-- A type is written with a well-formed name. It is neither a primitive one nor a type
parameter. -/
structure ReferenceSite.Names (site : ReferenceSite) (typeVariables : List String) (node : Tree)
    (name : QualifiedName) : Prop where
  kind : node.kind = .typeRef
  primitive : Mention.primitive? node = none
  parameter : site.isVariable typeVariables node.identifiers = false
  qualify : site.declared.qualify site.owner (node.identifiers.map (·.text)) = .ok name

/-! ### References that are resolved -/

namespace ScanState

variable {unit : UnitId} {owner other : TypeId} {refs refs' : List Reference} {s m t : ScanState}
  {name : QualifiedName} {target : TypeId}

/-- The open scope gives a type for a name. -/
def Gives (s : ScanState) (name : QualifiedName) (id : TypeId) : Prop :=
  s.scope.Gives s.store name id

/-- The references of a type have been made: each is resolved, and its target is a dependency or
the type itself. What was resolved before stays so, and no dependency is dropped. -/
structure Referred (unit : UnitId) (owner : TypeId) (refs : List Reference) (s t : ScanState) :
    Prop where
  sound : t.Sound unit
  gives : ∀ {name id}, s.Gives name id → t.Gives name id
  dependencies : s.dependencies ⊆ t.dependencies
  resolved : ∀ reference ∈ refs, ∃ id, t.Gives reference.name id ∧
    (id = owner ∨ (owner, id) ∈ t.dependencies)

/-- The references of a type are made in a sound state. -/
def Notes (unit : UnitId) (owner : TypeId) (refs : List Reference) (s t : ScanState) : Prop :=
  s.Sound unit → Referred unit owner refs s t

/-- The references of one type are none of another type. -/
private theorem Notes.forget (h : Notes unit owner refs s t) (other : TypeId) :
    Notes unit other [] s t := by
  intro hs
  have h := h hs
  exact ⟨h.sound, h.gives, h.dependencies, List.forall_mem_nil _⟩

instance : Accumulates (Notes unit owner) where
  nothing s hs := ⟨hs, id, List.Subset.refl _, List.forall_mem_nil _⟩
  append h h' := by
    intro hs
    have h := h hs
    have h' := h' h.sound
    refine ⟨h'.sound, h'.gives ∘ h.gives, List.Subset.trans h.dependencies h'.dependencies, ?_⟩
    refine List.forall_mem_append.2 ⟨fun reference hm => ?_, h'.resolved⟩
    obtain ⟨id, hg, hid⟩ := h.resolved reference hm
    exact ⟨id, h'.gives hg, hid.imp_right fun hd => h'.dependencies hd⟩

/-- What a scope gives stays as long as the scope is the same and types keep their names. -/
private theorem gives_of_persists (hsound : t.Sound unit) (hscope : t.scope = s.scope)
    (ha : t.store.answers = s.store.answers) (hp : Graph.Persists s.store.graph t.store.graph)
    (h : s.Gives name target) : t.Gives name target := by
  unfold Gives at h ⊢
  rw [hscope]
  refine h.mono ha hsound.1.consistent fun hx => ?_
  obtain ⟨y, hy, hn, hh, -⟩ := hp.type hx
  exact ⟨y, hy, hn, hh⟩

/-- What is recorded in the graph makes no references. -/
private theorem notes_onGraph {α : Type} (action : GraphAction α)
    (h : Keeps Graph.SameLedger action) : Keeps (Notes unit owner []) (onGraph action) := by
  constructor
  intro s hs
  have hsound : Keeps (PassesOn unit) (onGraph action) := keeps_onGraph action h
  have hk := hsound.keeps s hs
  exact ⟨hk, gives_of_persists hk rfl rfl (Graph.Persists.of_sameLedger (h.keeps s.store.graph)),
    List.Subset.refl _, List.forall_mem_nil _⟩

/-- What is said about the file makes no references. -/
private theorem notes_report (diagnostic : Diagnostic) :
    Keeps (Notes unit owner []) (report diagnostic) :=
  ⟨fun _ hs => ⟨hs, id, List.Subset.refl _, List.forall_mem_nil _⟩⟩

/-- A placeholder that has just been made is given, and so is everything that was. -/
private theorem gives_missing (hsound : (s.missing name unit).Sound unit)
    (hp : Graph.Persists s.store.graph (s.missing name unit).store.graph)
    (ha : s.scope = .global → s.store.answers = true)
    (hl : s.scope.lookup name s.store = .ok none ∨ ∃ e, s.scope.lookup name s.store = .error e) :
    (s.missing name unit).Gives name s.store.graph.types.nextId ∧
      ∀ {other id}, s.Gives other id → (s.missing name unit).Gives other id := by
  refine ⟨Scope.gives_withCreated ha hsound.1.consistent, fun {other id} h => ?_⟩
  have hkept : s.scope.Gives (s.missing name unit).store other id := by
    refine h.mono rfl hsound.1.consistent fun hx => ?_
    obtain ⟨y, hy, hn, hh, -⟩ := hp.type hx
    exact ⟨y, hy, hn, hh⟩
  exact hkept.withCreated (h.ne hl).symm _

/-- A name that is resolved is given from then on. -/
private theorem referred_resolve {site : ReferenceSite} {place : Token}
    (hs : s.Sound site.source.unit) (hrun : site.resolve name place s = (.ok target, t)) :
    Referred site.source.unit owner [] s t ∧ t.Gives name target := by
  have hsound : Keeps (PassesOn site.source.unit) (site.resolve name place) := inferInstance
  have hpersists : Keeps (OnGraph Graph.Persists) (site.resolve name place) := inferInstance
  have hsound := hsound.keeps s hs
  have hpersists := hpersists.keeps s
  cases hl : s.scope.lookup name s.store with
  | ok found =>
    cases found with
    | some found =>
      cases hrun.symm.trans (ReferenceSite.resolve_found place hl)
      rw [hrun] at hsound
      refine ⟨⟨hsound, fun h => h.withFound name _, List.Subset.refl _, List.forall_mem_nil _⟩, ?_⟩
      exact Scope.gives_withFound hl
    | none =>
      cases hrun.symm.trans (ReferenceSite.resolve_missing place hs hl).2
      rw [hrun] at hsound hpersists
      have hglobal : s.scope = .global → s.store.answers = true := by
        intro hg
        have hq : s.store.query (·.globalType? name) = .ok none := by
          rw [hg] at hl
          exact hl
        unfold Store.query at hq
        split at hq
        · assumption
        · cases hq
      obtain ⟨hnew, hold⟩ := gives_missing hsound hpersists hglobal (.inl hl)
      exact ⟨⟨hsound, hold, List.Subset.refl _, List.forall_mem_nil _⟩, hnew⟩
  | error e =>
    rcases ReferenceSite.resolve_unanswered place hs hl with ⟨-, -, he⟩ | ⟨hg, -, he⟩
    · cases hrun.symm.trans he
    · cases hrun.symm.trans he
      rw [hrun] at hsound hpersists
      obtain ⟨hnew, hold⟩ := gives_missing (s := s.saying (site.unanswered name place)) hsound
        hpersists (fun h => absurd h hg) (.inr ⟨e, hl⟩)
      exact ⟨⟨hsound, hold, List.Subset.refl _, List.forall_mem_nil _⟩, hnew⟩

/-- A reference between types is kept back. -/
private theorem notes_note (source target : TypeId) :
    Keeps (Notes unit owner []) (noteDependency source target) := by
  constructor
  intro s hs
  unfold noteDependency
  split
  · exact ⟨hs, id, List.Subset.refl _, List.forall_mem_nil _⟩
  · exact ⟨hs, id, List.subset_append_left .., List.forall_mem_nil _⟩

/-- The references that are written in a type are its own. -/
theorem referring_notes (site : ReferenceSite) :
    Referring site (Notes site.source.unit site.owner.id) where
  record action h _ := notes_onGraph action h
  refer {s t id?} segments hrun := by
    intro hs
    unfold ReferenceSite.refer at hrun
    unfold ReferenceSite.references
    cases segments with
    | nil =>
      cases hrun
      exact (Accumulates.nothing s : Notes site.source.unit site.owner.id [] s s) hs
    | cons first rest =>
      simp only at hrun ⊢
      cases hq : site.declared.qualify site.owner ((first :: rest).map (·.text)) with
      | error e =>
        rw [hq] at hrun
        exact (Makes.after (.of_keeps (notes_report _)) fun _ => .pure none).run hrun hs
      | ok name =>
        rw [hq] at hrun
        obtain ⟨target, m, hr, hrun⟩ := ok_of_bind hrun
        obtain ⟨_, m', hn, hp⟩ := ok_of_bind hrun
        cases hp
        obtain ⟨hreferred, hgiven⟩ :
            Referred site.source.unit site.owner.id [] s m ∧ m.Gives name target :=
          referred_resolve hs hr
        have hk : Keeps (Notes site.source.unit site.owner.id [])
            (noteDependency site.owner.id target) := notes_note ..
        have hk := hk.of_run hn hreferred.sound
        refine ⟨hk.sound, hk.gives ∘ hreferred.gives,
          List.Subset.trans hreferred.dependencies hk.dependencies, ?_⟩
        refine List.forall_mem_singleton.2 ⟨target, hk.gives hgiven, ?_⟩
        unfold noteDependency at hn
        split at hn
        · next he => exact .inl he.symm
        · cases hn
          exact .inr (List.mem_append_right _ (List.mem_singleton_self _))

end ScanState

/-! ### Dependencies in the graph -/

namespace Graph

/-- A type is listed among those that another one depends on. -/
def DependsOn (graph : Graph) (source target : TypeId) : Prop :=
  ∃ x, graph.types.get? source = some x ∧ target ∈ x.dependsOn

/-- Dependencies stay. -/
def KeepsDependencies (before after : Graph) : Prop :=
  ∀ source target, before.DependsOn source target → after.DependsOn source target

instance : Action.Guarantee KeepsDependencies where
  refl _ _ _ := id
  trans h h' source target := h' source target ∘ h source target

variable {graph after : Graph}

/-- A dependency is listed beside those that were. -/
private theorem dependsOn_depending (target : TypeId) (x : TypeNode) :
    x.dependsOn ⊆ (Twins.depending target x).dependsOn ∧
      target ∈ (Twins.depending target x).dependsOn := by
  unfold Twins.depending
  split
  · next h => exact ⟨List.Subset.refl _, List.contains_iff_mem.1 h⟩
  · exact ⟨List.subset_append_left .., List.mem_append_right _ (List.mem_singleton_self _)⟩

/-- A dependency enters the graph. -/
private theorem dependsOn_addDependency {pair : TypeId × TypeId}
    (h : ScanState.addDependency pair graph = (.ok (), after)) :
    KeepsDependencies graph after ∧ after.DependsOn pair.1 pair.2 := by
  have hrun : updateType pair.1 (Twins.depending pair.2) graph = (.ok (), after) := h
  obtain ⟨x, hx⟩ := known_of_updateType hrun
  rw [eq_of_updateType hrun]
  unfold KeepsDependencies DependsOn
  constructor
  · rintro source target ⟨y, hy, hd⟩
    rw [Arena.get?_modify, hy]
    split
    · exact ⟨_, rfl, (dependsOn_depending pair.2 y).1 hd⟩
    · exact ⟨y, rfl, hd⟩
  · rw [Arena.get?_modify, if_pos rfl, hx]
    exact ⟨_, rfl, (dependsOn_depending pair.2 x).2⟩

/-- Dependencies enter the graph, one after the other. -/
private theorem dependsOn_addDependencies {pairs : List (TypeId × TypeId)} :
    ∀ {graph after : Graph},
      Action.forEach pairs ScanState.addDependency graph = (.ok (), after) →
      KeepsDependencies graph after ∧ ∀ pair ∈ pairs, after.DependsOn pair.1 pair.2 := by
  induction pairs with
  | nil =>
    intro graph after h
    cases h
    exact ⟨Guarantee.refl graph, List.forall_mem_nil _⟩
  | cons pair rest ih =>
    intro graph after h
    obtain ⟨_, middle, hone, h⟩ := ok_of_bind h
    obtain ⟨hkeeps, hpair⟩ := dependsOn_addDependency hone
    obtain ⟨hkeeps', hrest⟩ := ih h
    exact ⟨Guarantee.trans hkeeps hkeeps', List.forall_mem_cons.2 ⟨hkeeps' _ _ hpair, hrest⟩⟩

/-- Uses of fields are no dependencies of types. -/
private theorem keeps_addAccess (access : Access) : Keeps KeepsDependencies (addAccess access) := by
  constructor
  intro graph
  cases hrun : addAccess access graph with
  | mk result after => rcases addAccess_cases hrun with rfl | rfl <;> exact fun _ _ => id

end Graph

namespace ScanState

variable {unit : UnitId} {owner : TypeId} {refs : List Reference} {s m t : ScanState}
  {accesses : List Access}

/-- What was kept back enters the graph, first dependencies and then uses of fields. -/
private theorem graph_of_flush (h : flush accesses s = (.ok (), t)) :
    ∃ middle after, Action.forEach s.dependencies addDependency s.store.graph = (.ok (), middle) ∧
      Action.forEach accesses Graph.addAccess middle = (.ok (), after) ∧ t = s.withGraph after := by
  obtain ⟨pairs, _, hr, h⟩ := ok_of_bind h
  cases hr
  obtain ⟨_, m, hd, h⟩ := ok_of_bind h
  cases hpairs : Action.forEach s.dependencies addDependency s.store.graph with
  | mk result middle =>
    rw [onGraph_run hpairs] at hd
    cases hd
    cases huses : Action.forEach accesses Graph.addAccess middle with
    | mk result after =>
      rw [onGraph_run huses] at h
      cases h
      exact ⟨middle, after, rfl, huses, rfl⟩

/-- What a name stands for is the type itself or one that it depends on. -/
def Covers (s : ScanState) (owner : TypeId) (name : QualifiedName) : Prop :=
  ∃ target, s.Gives name target ∧ (target = owner ∨ s.store.graph.DependsOn owner target)

/-- When dependencies enter the graph, they cover the references of a type. -/
private theorem Referred.covers (h : Referred unit owner refs s m)
    (hf : flush accesses m = (.ok (), t)) : ∀ reference ∈ refs, t.Covers owner reference.name := by
  intro reference hm
  obtain ⟨target, hg, hd⟩ := h.resolved reference hm
  have hsound : Keeps (PassesOn unit) (flush accesses) := keeps_flush unit accesses
  have hpersists : Keeps (OnGraph Graph.Persists) (flush accesses) := keeps_flush unit accesses
  have hsound := hsound.of_run hf h.sound
  have hpersists := hpersists.of_run hf
  obtain ⟨middle, after, hpairs, huses, rfl⟩ := graph_of_flush hf
  refine ⟨target, gives_of_persists (s := m) hsound rfl rfl hpersists hg, hd.imp_right fun hd => ?_⟩
  have := Graph.keeps_addAccess
  have hk : Keeps Graph.KeepsDependencies (Action.forEach accesses Graph.addAccess) := inferInstance
  have hk := hk.of_run huses
  exact hk _ _ ((Graph.dependsOn_addDependencies hpairs).2 _ hd)

end ScanState

/-! ### Files -/

/-- The references of a type of a file whose members are recorded: those of the type itself and of
its members, and those of its code, which sees the fields of the types around. -/
def TypeMembers.references (source : SourceUnit) (declared : Declarations)
    (found : List TypeMembers) (one : TypeMembers) : List Reference :=
  ReferenceSite.memberReferences ⟨source, declared, one.type⟩ ++
    one.record.members.bodies.flatMap (ReferenceSite.bodyReferences ⟨source, declared, one.type⟩
      (one.record.visibleFields (found.map (·.record))))

namespace Declarations.ReadSteps

variable {source : SourceUnit} {declared : Declarations} {recordAccesses : Bool}
  {found : List TypeMembers} {s m m' t : ScanState}

/-- What makes the references of one type makes none of another one. -/
private theorem makes_forget {α : Type} {unit : UnitId} {owner : TypeId} {refs : List Reference}
    {action : ScanAction α} (h : Makes (ScanState.Notes unit owner) refs action) (id : TypeId) :
    Makes (ScanState.Notes unit id) (if owner = id then refs else []) action := by
  split
  · next he => exact he ▸ h
  · exact ⟨fun hrun => (h.run hrun).forget id⟩

/-- When a file is read, all references of its types are covered. -/
theorem covers (h : declared.ReadSteps source recordAccesses found s m m' t)
    (hs : s.Sound source.unit) {one : TypeMembers} (ho : one ∈ found) :
    ∀ reference ∈ one.references source declared found, t.Covers one.type.id reference.name := by
  have hrefer : ∀ owner : DeclaredType, Referring ⟨source, declared, owner⟩
      (ScanState.Notes source.unit owner.id) := fun owner =>
    ScanState.referring_notes ⟨source, declared, owner⟩
  let member (owner : DeclaredType) : List Reference :=
    if owner.id = one.type.id then ReferenceSite.memberReferences ⟨source, declared, owner⟩ else []
  let code (record : TypeRecord) (body : Body) : List Reference :=
    if record.type.id = one.type.id then
      ReferenceSite.bodyReferences ⟨source, declared, record.type⟩
        (record.visibleFields (found.map (·.record))) body
    else []
  have hmembers : ∀ owner, Makes (ScanState.Notes source.unit one.type.id) (member owner) (do
      return ({ type := owner
                members := ← ReferenceSite.recordMembers ⟨source, declared, owner⟩ } :
                  TypeRecord)) := by
    intro owner
    have hown : Makes (ScanState.Notes source.unit owner.id)
        (ReferenceSite.memberReferences ⟨source, declared, owner⟩)
        (ReferenceSite.recordMembers ⟨source, declared, owner⟩) := ReferenceSite.makes_recordMembers
    exact (makes_forget hown one.type.id).andThen fun _ => .pure _
  have hbody : ∀ record body, Makes (ScanState.Notes source.unit one.type.id) (code record body)
      (ReferenceSite.recordBody ⟨source, declared, record.type⟩
        (record.visibleFields (found.map (·.record))) body) := by
    intro record body
    have hown : Makes (ScanState.Notes source.unit record.type.id)
        (ReferenceSite.bodyReferences ⟨source, declared, record.type⟩
          (record.visibleFields (found.map (·.record))) body)
        (ReferenceSite.recordBody ⟨source, declared, record.type⟩
          (record.visibleFields (found.map (·.record))) body) := ReferenceSite.makes_recordBody _ body
    exact makes_forget hown one.type.id
  have hbodies : ScanState.Notes source.unit one.type.id
      ((found.map (·.record)).flatMap fun record => record.members.bodies.flatMap (code record))
      m m' := (Makes.forEach fun record => .forEach fun body => hbody record body).run h.bodies
  have hreferred := Accumulates.append ((Makes.mapEach hmembers).run h.members) hbodies
  have hcovers := (hreferred hs).covers h.flushed
  rw [List.forall_mem_append] at hcovers
  refine List.forall_mem_append.2 ⟨fun reference hr => hcovers.1 reference ?_, fun reference hr =>
    hcovers.2 reference ?_⟩
  · have hm : member one.type = _ := if_pos rfl
    exact List.mem_flatMap.2 ⟨one.type, h.types ▸ List.mem_map_of_mem ho, hm ▸ hr⟩
  · obtain ⟨body, hb, hr⟩ := List.mem_flatMap.1 hr
    have hc : code one.record body = _ := if_pos rfl
    exact List.mem_flatMap.2
      ⟨one.record, List.mem_map_of_mem ho, List.mem_flatMap.2 ⟨body, hb, hc ▸ hr⟩⟩

/-- A type that is written in the declaration of a type, where the passes look, is covered. -/
theorem covers_of_writes (h : declared.ReadSteps source recordAccesses found s m m' t)
    (hs : s.Sound source.unit) {type : DeclaredType} (ht : type ∈ declared.types)
    (hshape : type.site.Shaped) {typeVariables : List String} {node : Tree} {name : QualifiedName} :
    let site : ReferenceSite := ⟨source, declared, type⟩
    site.Writes site.passesOver typeVariables node → site.Names typeVariables node name →
    t.Covers type.id name := by
  intro site hw hn
  rw [← h.types] at ht
  obtain ⟨one, ho, rfl⟩ := List.mem_map.1 ht
  have hcovers := h.covers hs ho
  rcases ReferenceSite.exists_of_writes hshape hw hn.kind hn.primitive hn.parameter hn.qualify with
    ⟨reference, hr, rfl⟩ | ⟨written, hall, code, hcode, rfl, hshaped, hnode⟩
  · exact hcovers reference (List.mem_append_left _ hr)
  · rw [← h.written one ho] at hall
    obtain ⟨member, hm, rfl⟩ := List.mem_map.1 hall
    obtain ⟨body, hb, rfl, hvariables⟩ := RecordedMember.exists_body hcode
    rw [← hvariables] at hn
    obtain ⟨reference, hr, rfl⟩ := ReferenceSite.exists_bodyReference
      (one.record.visibleFields (found.map (·.record))) hshaped hnode hn.kind hn.primitive
      hn.parameter hn.qualify
    exact hcovers reference (List.mem_append_right _
      (List.mem_flatMap.2 ⟨body, List.mem_filterMap.2 ⟨member, hm, hb⟩, hr⟩))

end Declarations.ReadSteps

namespace OpenProject

variable {opened : OpenProject} {config : ScanConfig} {source : SourceText}
  {declared : Declarations} {s : ScanState}

/-- When a new file is scanned, the types that are written in the declaration of a type are covered,
where the passes look. -/
theorem covers_passes (hs : opened.Sound) (ht : opened.Tidy)
    (hr : passes config opened source = (.ok declared, s)) {type : DeclaredType}
    (hm : type ∈ declared.types) {typeVariables : List String} {node : Tree}
    {name : QualifiedName} :
    let site : ReferenceSite :=
      ⟨⟨opened.store.graph.units.nextId, opened.fileOf source⟩, declared, type⟩
    site.Writes site.passesOver typeVariables node → site.Names typeVariables node name →
    s.Covers type.id name := by
  obtain ⟨found, before, hcontents⟩ := contents_passes hs ht hr
  obtain ⟨_, _, _, _, _, hscan, -, -, hsteps⟩ := readSteps_passes hs hr
  exact hsteps.covers_of_writes hscan.sound hm (hcontents.shaped type hm)

/-- The passes over a new file make a reference in one of its types. -/
def Refers (opened : OpenProject) (config : ScanConfig) (source : SourceText)
    (declared : Declarations) (s : ScanState) (type : DeclaredType) (reference : Reference) : Prop :=
  let unit : SourceUnit := ⟨opened.store.graph.units.nextId, opened.fileOf source⟩
  ∃ found m m' n n', Scanning unit (Header.ofTree unit.file (parsed config source).root).1
      (parsed config source).root (opened.initial unit.file source.path (parsed config source))
      declared m m' ∧
    declared.ReadSteps unit config.recordAccesses found m' n n' s ∧
    ∃ one ∈ found, one.type = type ∧ reference ∈ one.references unit declared found

/-- All references that the passes make are covered. -/
theorem Refers.covers {type : DeclaredType} {reference : Reference}
    (h : opened.Refers config source declared s type reference) :
    type ∈ declared.types ∧ s.Covers type.id reference.name := by
  obtain ⟨found, _, _, _, _, hscan, hsteps, one, ho, rfl, hr⟩ := h
  exact ⟨hsteps.types ▸ List.mem_map_of_mem ho, hsteps.covers hscan.sound ho reference hr⟩

end OpenProject

end JavaGraph

/-! ## Runs -/

namespace JavaGraph

open JavaGraph.Action

namespace Session

/-- What a type depends on when its file is scanned it depends on after every run. -/
theorem dependsOn_later (before later : List Step) {scope : Scope} {config : ScanConfig}
    {source : SourceText} {declared : Declarations} {type : DeclaredType} {target : TypeId}
    (hnew : (run before).ScansNew scope source)
    (hd : ((run before).passes scope config source).1 = .ok declared)
    (ht : type ∈ declared.types)
    (h : ((run before).passes scope config source).2.store.graph.DependsOn type.id target) :
    (run (before ++ .scan config source.path source.text :: later)).project.store.graph.DependsOn
      type.id target := by
  obtain ⟨hsound, htidy⟩ := hnew.opened (sound_run before) (tidy_run before)
  have hpreserves := preserves_run (before ++ [.scan config source.path source.text]) later
  rw [hnew.graph_run, List.append_assoc] at hpreserves
  have hr : OpenProject.passes config { (run before).project with scope } source =
      (.ok declared, ((run before).passes scope config source).2) := Prod.ext hd rfl
  obtain ⟨found, start, hcontents⟩ := OpenProject.contents_passes hsound htidy hr
  obtain ⟨x, hx, hm⟩ := h
  obtain ⟨y, hy, hc, -⟩ := hcontents.node type ht
  cases hx.symm.trans hy
  exact ⟨x, hpreserves.declared hx hc, hm⟩

/-- After every run, a type of a scanned file depends on whatever the names of the types stand for
that are written in its declaration and in its body, except where no pass looks: the type itself,
type parameters and malformed names are no dependencies. -/
theorem dependsOn_run (before later : List Step) {scope : Scope} {config : ScanConfig}
    {source : SourceText} {declared : Declarations} {type : DeclaredType}
    (hnew : (run before).ScansNew scope source)
    (hd : ((run before).passes scope config source).1 = .ok declared)
    (ht : type ∈ declared.types) {typeVariables : List String} {node : Tree}
    {name : QualifiedName} :
    let opened : OpenProject := { (run before).project with scope }
    let site : ReferenceSite :=
      ⟨⟨opened.store.graph.units.nextId, opened.fileOf source⟩, declared, type⟩
    let after := ((run before).passes scope config source).2
    let graph := (run (before ++ .scan config source.path source.text :: later)).project.store.graph
    site.Writes site.passesOver typeVariables node → site.Names typeVariables node name →
    ∃ target, after.scope.resolve name site.source.unit after.store =
        (.ok (target, after.scope), after.store) ∧
      (target = type.id ∨ graph.DependsOn type.id target) := by
  intro opened site after graph hw hn
  obtain ⟨hsound, htidy⟩ := hnew.opened (sound_run before) (tidy_run before)
  have hr : OpenProject.passes config opened source = (.ok declared, after) := Prod.ext hd rfl
  obtain ⟨target, hgives, hdepends⟩ := OpenProject.covers_passes hsound htidy hr ht hw hn
  exact ⟨target, Scope.Gives.resolve hgives _,
    hdepends.imp_right (dependsOn_later before later hnew hd ht)⟩

/-- The bound of a type parameter of a method is a dependency. -/
theorem dependsOn_methodBound :
    let before : List Step := [.addArtifact "app" [], .enter (some ⟨0⟩)]
    let source : SourceText := ⟨"A.java",
      "class Foo \x7b \x7d class A \x7b <T extends Foo> void m() \x7b \x7d \x7d"⟩
    let graph := (run (before ++ [.scan {} source.path source.text])).project.store.graph
    ∃ scope declared type typeVariables node name, (run before).ScansNew scope source ∧
      ((run before).passes scope {} source).1 = .ok declared ∧ type ∈ declared.types ∧
      let opened : OpenProject := { (run before).project with scope }
      let site : ReferenceSite :=
        ⟨⟨opened.store.graph.units.nextId, opened.fileOf source⟩, declared, type⟩
      site.Writes site.passesOver typeVariables node ∧ site.Names typeVariables node name ∧
      name.text = "Foo" ∧ graph.DependsOn type.id ⟨0⟩ := by
  intro before source graph
  have hscopes : (run before).scopes.map (·.artifact?) = [some ⟨0⟩] := by decide +kernel
  obtain ⟨scope, hs, hartifact⟩ := List.map_eq_singleton_iff.1 hscopes
  have hnew : (run before).project.store.graph.unitAt? source.path scope.artifact? = none := by
    rw [hartifact]
    decide +kernel
  have hpasses : (run before).scopes.all (fun scope =>
      let opened : OpenProject := { (run before).project with scope }
      let after := ((run before).passes scope {} source).2
      ((run before).passes scope {} source).1.toOption.any fun declared =>
        declared.types.any fun type => type.id = ⟨1⟩ && type.body?.any fun body =>
          body.children.any fun member => !member.kind.isTypeDeclaration &&
            (member.childOfKind? .typeParameters).any fun list =>
            (list.childOfKind? .typeParameter).any fun parameter =>
            (parameter.childOfKind? .typeRef).any fun node =>
              let site : ReferenceSite :=
                ⟨⟨opened.store.graph.units.nextId, opened.fileOf source⟩, declared, type⟩
              !(list.kind.isTypeDeclaration || list.kind.isBody) &&
              !(parameter.kind.isTypeDeclaration || parameter.kind.isBody) &&
              !(node.kind.isTypeDeclaration || node.kind.isBody) &&
              !site.passesOver member list && !site.passesOver list parameter &&
              !site.passesOver parameter node && node.kind = .typeRef &&
              Mention.primitive? node = none &&
              !site.isVariable member.memberVariables node.identifiers &&
              (declared.qualify type (node.identifiers.map (·.text))).toOption.any fun name =>
                name.text = "Foo" && (after.scope.resolve name site.source.unit
                  after.store).1.toOption.any fun answer => answer.1 = ⟨0⟩) = true := by
    decide +kernel
  rw [hs, List.all_cons, Bool.and_eq_true] at hpasses
  have hfacts := hpasses.1
  simp only [Bool.and_eq_true, Bool.not_eq_true', decide_eq_true_eq, Option.any_eq_true,
    List.any_eq_true] at hfacts
  obtain ⟨declared, hd, type, ht, hid, body, hb, member, hm, hmk, list, hl, parameter, hp, node,
    hnode, ⟨⟨⟨⟨⟨⟨⟨⟨⟨hlk, hpk⟩, hnk⟩, hover⟩, hover'⟩, hover''⟩, hk⟩, hprimitive⟩, hv⟩, name, hq, hfoo,
    ⟨answer, _⟩, ha, rfl⟩⟩ := hfacts
  have hd := ok_of_toOption hd
  let opened : OpenProject := { (run before).project with scope }
  let site : ReferenceSite :=
    ⟨⟨opened.store.graph.units.nextId, opened.fileOf source⟩, declared, type⟩
  have hwrites : site.Writes site.passesOver member.memberVariables node :=
    .member hb hm hmk (.first hl hlk hover (.first hp hpk hover' (.first hnode hnk hover'' (.here _))))
  have hnames : site.Names member.memberVariables node name :=
    ⟨hk, hprimitive, hv, ok_of_toOption hq⟩
  obtain ⟨target, hresolve, hdepends⟩ := dependsOn_run before [] ⟨hs, hnew⟩ hd ht hwrites hnames
  have htarget : target = ⟨0⟩ := by
    have := ha.symm.trans (congrArg (·.1.toOption) hresolve)
    exact (congrArg Prod.fst (Option.some.inj this)).symm
  rw [htarget, hid] at hdepends
  exact ⟨scope, declared, type, _, node, name, ⟨hs, hnew⟩, hd, ht, hwrites, hnames, hfoo,
    hid ▸ hdepends.resolve_left (by decide)⟩

/-- The bound of a type parameter of a class is written in its declaration, and it is no
dependency. -/
theorem not_dependsOn_classBound :
    let before : List Step := [.addArtifact "app" [], .enter (some ⟨0⟩)]
    let source : SourceText :=
      ⟨"A.java", "class Foo \x7b \x7d class A<T extends Foo> \x7b \x7d"⟩
    let graph := (run (before ++ [.scan {} source.path source.text])).project.store.graph
    (OpenProject.parsed {} source).errors = [] ∧
    ∃ scope declared type node name, (run before).ScansNew scope source ∧
      ((run before).passes scope {} source).1 = .ok declared ∧ type ∈ declared.types ∧
      let opened : OpenProject := { (run before).project with scope }
      let site : ReferenceSite :=
        ⟨⟨opened.store.graph.units.nextId, opened.fileOf source⟩, declared, type⟩
      let after := ((run before).passes scope {} source).2
      site.Writes (fun _ _ => false) [] node ∧ site.Names [] node name ∧ name.text = "Foo" ∧
      (∃ scope, (after.scope.resolve name site.source.unit after.store).1 = .ok (⟨0⟩, scope)) ∧
      type.id ≠ ⟨0⟩ ∧ ¬ graph.DependsOn type.id ⟨0⟩ := by
  intro before source graph
  have hscopes : (run before).scopes.map (·.artifact?) = [some ⟨0⟩] := by decide +kernel
  obtain ⟨scope, hs, hartifact⟩ := List.map_eq_singleton_iff.1 hscopes
  have hnew : (run before).project.store.graph.unitAt? source.path scope.artifact? = none := by
    rw [hartifact]
    decide +kernel
  have hpasses : (run before).scopes.all (fun scope =>
      let opened : OpenProject := { (run before).project with scope }
      let after := ((run before).passes scope {} source).2
      ((run before).passes scope {} source).1.toOption.any fun declared =>
        declared.types.any fun type => type.id = ⟨1⟩ && type.site.base?.isNone &&
          (type.node.childOfKind? .typeParameters).any fun list =>
          (list.childOfKind? .typeParameter).any fun parameter =>
          (parameter.childOfKind? .typeRef).any fun node =>
            let site : ReferenceSite :=
              ⟨⟨opened.store.graph.units.nextId, opened.fileOf source⟩, declared, type⟩
            !(list.kind.isTypeDeclaration || list.kind.isBody) &&
            !(parameter.kind.isTypeDeclaration || parameter.kind.isBody) &&
            !(node.kind.isTypeDeclaration || node.kind.isBody) && node.kind = .typeRef &&
            Mention.primitive? node = none && !site.isVariable [] node.identifiers &&
            (declared.qualify type (node.identifiers.map (·.text))).toOption.any fun name =>
              name.text = "Foo" && (after.scope.resolve name site.source.unit
                after.store).1.toOption.any fun answer => answer.1 = ⟨0⟩) = true := by
    decide +kernel
  have herrors : (OpenProject.parsed {} source).errors = [] := by decide +kernel
  have hdepends : (graph.types.get? ⟨1⟩).map (·.dependsOn) = some [] := by decide +kernel
  rw [hs, List.all_cons, Bool.and_eq_true] at hpasses
  have hfacts := hpasses.1
  simp only [Bool.and_eq_true, Bool.not_eq_true', decide_eq_true_eq, Option.any_eq_true,
    List.any_eq_true, Option.isNone_iff_eq_none] at hfacts
  obtain ⟨declared, hd, type, ht, ⟨hid, hbase⟩, list, hl, parameter, hp, node, hnode,
    ⟨⟨⟨⟨⟨hlk, hpk⟩, hnk⟩, hk⟩, hprimitive⟩, hv⟩, name, hq, hfoo, ⟨_, other⟩, ha, rfl⟩ := hfacts
  refine ⟨herrors, scope, declared, type, node, name, ⟨hs, hnew⟩, ok_of_toOption hd, ht, ?_,
    ⟨hk, hprimitive, hv, ok_of_toOption hq⟩, hfoo, ⟨other, ok_of_toOption ha⟩, ?_, ?_⟩
  · exact .header hbase (.first hl hlk rfl (.first hp hpk rfl (.first hnode hnk rfl (.here _))))
  · rw [hid]
    decide
  · rintro ⟨x, hx, hm⟩
    rw [← hid, hx, Option.map_some, Option.some.injEq] at hdepends
    rw [hdepends] at hm
    cases hm

end Session

end JavaGraph
