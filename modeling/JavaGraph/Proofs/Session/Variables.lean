import JavaGraph.Proofs.Scan.Placeholders
import JavaGraph.Proofs.Session.Settled
/-!
# Type parameters, for good

A member is recorded with the type parameters that it names, and what is scanned later changes
nothing about that. No placeholder comes in for them. In scope are the type parameters of the type,
of the types around it and of the member itself. Those of a method are not in scope in a class that
is declared in the block of the method.
-/

/-!
## Type parameters

A type reference that names a type parameter of the type it is written in, of a type around it, or
of the member around it is recorded as the use of a type parameter, whatever the member is: a field,
what a method returns, or a parameter.
-/

namespace JavaGraph

open JavaGraph.Action

namespace ReferenceSite

variable {site : ReferenceSite} {s t : ScanState} {node member : Tree}
  {typeVariables : List String} {name : String} {word : Token} {record : MemberRecord}

/-! ### Uses -/

/-- A type reference is the name of a type parameter: of the type, of a type around it, or one of
some others. -/
structure NamesParameter (site : ReferenceSite) (typeVariables : List String) (node : Tree)
    (name : String) : Prop where
  primitive : Mention.primitive? node = none
  identifiers : node.identifiers.map (·.text) = [name]
  scope : name ∈ typeVariables ∨
    ∃ type ∈ site.declared.around site.owner, name ∈ type.typeParameters

/-- The name of a type parameter refers to nothing. -/
theorem NamesParameter.isVariable (h : site.NamesParameter typeVariables node name) :
    ∃ token, node.identifiers = [token] ∧ token.text = name ∧
      site.isVariable typeVariables node.identifiers = true := by
  obtain ⟨token, hids, hname⟩ := List.map_eq_singleton_iff.1 h.identifiers
  refine ⟨token, hids, hname, ?_⟩
  rw [hids]
  unfold ReferenceSite.isVariable Declarations.isTypeVariable
  simp only [hname, Bool.or_eq_true, List.contains_iff_mem, List.any_eq_true]
  exact h.scope

/-- The name of a type parameter is recorded as such. -/
private theorem base_typeUse {dimensions : Nat} {use? : Option TypeUse}
    (h : site.NamesParameter typeVariables node name)
    (hrun : site.typeUse typeVariables node dimensions s = (.ok use?, t)) :
    ∃ use, use? = some use ∧ use.base = .typeVariable name := by
  obtain ⟨token, hids, rfl, hv⟩ := h.isVariable
  obtain ⟨_, m, -, hrun⟩ := ok_of_bind hrun
  obtain ⟨base, m', hb, hrun⟩ := ok_of_bind hrun
  cases hrun
  unfold typeBase at hb
  rw [h.primitive] at hb
  simp only [hv, if_true] at hb
  cases hb
  rw [hids]
  exact ⟨_, rfl, rfl⟩

/-! ### Members -/

/-- The fields of a declaration whose type is a type parameter are recorded with it. -/
def FieldsShow (site : ReferenceSite) (graph : Graph) (member : Tree) : Prop :=
  ∀ {typeRef declarator : Tree} {name : String} {word : Token},
    member.childOfKind? .typeRef = some typeRef → site.NamesParameter [] typeRef name →
    declarator ∈ member.childrenOfKind .variableDeclarator →
    declarator.declaredName? = some word →
    ∃ id y, graph.fields.get? id = some y ∧ y.declaringType = site.owner.id ∧
      y.name = word.text ∧ y.typeUse.base = .typeVariable name

/-- A function whose result or a parameter of which has a type parameter as its type is recorded
with it. -/
def FunctionShows (site : ReferenceSite) (graph : Graph) (member : Tree) : Prop :=
  ∀ {kind : FunctionKind} {word : String}, functionHead? member = some (kind, word) →
    ∃ id y, graph.functions.get? id = some y ∧ y.declaringType = site.owner.id ∧ y.kind = kind ∧
      y.name = word ∧
      (∀ {typeRef name}, kind = .method → member.childToken? .kwVoid = none →
        member.childOfKind? .typeRef = some typeRef →
        site.NamesParameter member.functionVariables typeRef name →
        ∃ use, y.returns = some use ∧ use.base = .typeVariable name) ∧
      ∀ {list parameter typeRef name word}, member.childOfKind? .formalParameters = some list →
        parameter ∈ list.childrenOfKind .parameter → parameter.declaredName? = some word →
        parameter.childOfKind? .typeRef = some typeRef →
        site.NamesParameter member.functionVariables typeRef name →
        ∃ place ∈ y.parameters, ∃ z, graph.parameters.get? place = some z ∧ z.name = word.text ∧
          z.typeUse.base = .typeVariable name

/-- A member is recorded with the type parameters that it names. -/
structure Shows (site : ReferenceSite) (graph : Graph) (member : Tree) : Prop where
  fields : member.kind = .fieldDecl → site.FieldsShow graph member
  function : member.isFunction = true → site.FunctionShows graph member

/-- Members stay as they are. -/
theorem Shows.mono {graph after : Graph} (h : site.Shows graph member)
    (hg : Graph.KeepsMembers graph after) : site.Shows after member := by
  refine ⟨fun hk => ?_, fun hk => ?_⟩
  · intro typeRef declarator name word hr hn hd hw
    obtain ⟨id, y, hy, hrest⟩ := h.fields hk hr hn hd hw
    exact ⟨id, y, hg.field hy, hrest⟩
  · intro kind word hhead
    obtain ⟨id, y, hy, hd, hkind, hn, hreturns, hparameters⟩ := h.function hk hhead
    refine ⟨id, y, hg.function hy, hd, hkind, hn, hreturns, ?_⟩
    intro list parameter typeRef name word hl hp hw hr hv
    obtain ⟨place, hm, z, hz, hrest⟩ := hparameters hl hp hw hr hv
    exact ⟨place, hm, z, hg.parameter hz, hrest⟩

/-! ### Runs -/

/-- What is done for each member of a list is done for each of them at some time, and what is
recorded then is kept. -/
private theorem exists_of_mapEach {α β : Type} {items : List β} {f : β → ScanAction α}
    {owner : TypeId} (hf : ∀ {item s x t}, Owns s owner → f item s = (.ok x, t) →
      Owns t owner ∧ Graph.KeepsMembers s.store.graph t.store.graph) :
    ∀ {s xs t}, Owns s owner → Action.mapEach items f s = (.ok xs, t) →
      Graph.KeepsMembers s.store.graph t.store.graph ∧ ∀ item ∈ items, ∃ m x m', Owns m owner ∧
        f item m = (.ok x, m') ∧ Graph.KeepsMembers m'.store.graph t.store.graph := by
  induction items with
  | nil =>
    intro s xs t _ h
    cases h
    exact ⟨.refl _, List.forall_mem_nil _⟩
  | cons item rest ih =>
    intro s xs t hs h
    obtain ⟨x, m, hx, h⟩ := ok_of_bind h
    obtain ⟨others, m', hothers, h⟩ := ok_of_bind h
    cases h
    obtain ⟨hm, hkeeps⟩ := hf hs hx
    obtain ⟨hrest, hall⟩ := ih hm hothers
    exact ⟨hkeeps.trans hrest, List.forall_mem_cons.2 ⟨⟨s, x, m, hs, hx, hrest⟩, hall⟩⟩

/-- The same if only some results are kept. -/
private theorem exists_of_collect {α β : Type} {items : List β} {f : β → ScanAction (Option α)}
    {owner : TypeId} (hf : ∀ {item s x t}, Owns s owner → f item s = (.ok x, t) →
      Owns t owner ∧ Graph.KeepsMembers s.store.graph t.store.graph) :
    ∀ {s xs t}, Owns s owner → Action.collect items f s = (.ok xs, t) →
      Graph.KeepsMembers s.store.graph t.store.graph ∧ ∀ item ∈ items, ∃ m x m', Owns m owner ∧
        f item m = (.ok x, m') ∧ x.toList ⊆ xs ∧
        Graph.KeepsMembers m'.store.graph t.store.graph := by
  induction items with
  | nil =>
    intro s xs t _ h
    cases h
    exact ⟨.refl _, List.forall_mem_nil _⟩
  | cons item rest ih =>
    intro s xs t hs h
    obtain ⟨x, m, hx, h⟩ := ok_of_bind h
    obtain ⟨others, m', hothers, h⟩ := ok_of_bind h
    cases h
    obtain ⟨hm, hkeeps⟩ := hf hs hx
    obtain ⟨hrest, hall⟩ := ih hm hothers
    refine ⟨hkeeps.trans hrest, List.forall_mem_cons.2
      ⟨⟨s, x, m, hs, hx, List.subset_append_left .., hrest⟩, fun other ho => ?_⟩⟩
    obtain ⟨n, y, n', hn, hy, hsub, hkept⟩ := hall other ho
    exact ⟨n, y, n', hn, hy, List.Subset.trans hsub (List.subset_append_right ..), hkept⟩

/-- The field of a declarator whose type is a type parameter. -/
private theorem shows_recordField {typeRef declarator : Tree} {modifiers : Modifiers}
    {record? : Option MemberRecord} (hs : Owns s site.owner.id)
    (hv : site.NamesParameter [] typeRef name) (hw : declarator.declaredName? = some word)
    (h : site.recordField typeRef modifiers declarator s = (.ok record?, t)) :
    ∃ id y, t.store.graph.fields.get? id = some y ∧ y.declaringType = site.owner.id ∧
      y.name = word.text ∧ y.typeUse.base = .typeVariable name := by
  unfold recordField at h
  rw [hw] at h
  obtain ⟨use?, m, hu, h⟩ := ok_of_bind h
  obtain ⟨use, rfl, hbase⟩ := base_typeUse hv hu
  obtain ⟨display, m', hd, h⟩ := ok_of_bind h
  cases hd
  obtain ⟨id, m', hf, h⟩ := ok_of_bind h
  cases h
  obtain ⟨x, hx⟩ := hs.mono (takesIn_of_run hu)
  rw [ScanState.onGraph_run (Graph.addField_known hx)] at hf
  cases hf
  exact ⟨_, _, Graph.get?_withField .., rfl, rfl, hbase⟩

/-- The fields of a declaration whose type is a type parameter. -/
private theorem shows_recordFields (hs : Owns s site.owner.id)
    (h : site.recordFields member s = (.ok record, t)) :
    site.FieldsShow t.store.graph member := by
  intro typeRef declarator name word hr hv hm hw
  unfold recordFields at h
  rw [hr] at h
  obtain ⟨_, m, ha, h⟩ := ok_of_bind h
  obtain ⟨records, m', hc, h⟩ := ok_of_bind h
  cases h
  obtain ⟨-, hall⟩ := exists_of_collect (fun hs h => by
    obtain ⟨members, -, -, ht⟩ := records_recordField hs h
    exact ⟨hs.mono ht, ht.toKeepsMembers⟩) (hs.mono (takesIn_of_run ha)) hc
  obtain ⟨n, x, n', hn, hx, -, hkept⟩ := hall declarator hm
  obtain ⟨id, y, hy, hrest⟩ := shows_recordField hn hv hw hx
  exact ⟨id, y, hkept.field hy, hrest⟩

/-- The parameters of a function whose type is a type parameter. -/
private theorem exists_parameterHead {heads : List ParameterHead} {list parameter typeRef : Tree}
    (hs : Owns s site.owner.id) (hl : member.childOfKind? .formalParameters = some list)
    (hp : parameter ∈ list.childrenOfKind .parameter) (hw : parameter.declaredName? = some word)
    (hr : parameter.childOfKind? .typeRef = some typeRef)
    (hv : site.NamesParameter typeVariables typeRef name)
    (h : site.parameterHeads typeVariables member s = (.ok heads, t)) :
    ∃ head ∈ heads, head.name = word.text ∧ head.typeUse.base = .typeVariable name := by
  unfold parameterHeads at h
  rw [hl] at h
  obtain ⟨-, hall⟩ := exists_of_collect (fun hs h =>
    ⟨hs.mono (takesIn_of_run h), (takesIn_of_run h).toKeepsMembers⟩) hs h
  obtain ⟨m, head?, m', -, hhead, hsub, -⟩ := hall parameter hp
  unfold parameterHead at hhead
  rw [hw, hr] at hhead
  obtain ⟨_, n, -, hhead⟩ := ok_of_bind hhead
  obtain ⟨use?, n', hu, hhead⟩ := ok_of_bind hhead
  obtain ⟨use, rfl, hbase⟩ := base_typeUse hv hu
  cases hhead
  exact ⟨_, hsub (List.mem_singleton_self _), rfl, hbase⟩

/-- What a method returns if that is a type parameter. -/
private theorem base_returnType {returns : Option TypeUse} {typeRef : Tree}
    (hvoid : member.childToken? .kwVoid = none) (hr : member.childOfKind? .typeRef = some typeRef)
    (hv : site.NamesParameter typeVariables typeRef name)
    (h : site.returnType typeVariables member s = (.ok returns, t)) :
    ∃ use, returns = some use ∧ use.base = .typeVariable name := by
  unfold returnType at h
  rw [hvoid, hr] at h
  exact base_typeUse hv h

/-- A function is added with its parameters. -/
private theorem exists_function {function : Function} {heads : List ParameterHead}
    {id : FunctionId} (hs : Owns s function.declaringType) (hp : function.parameters = [])
    (h : ScanState.onGraph (do
      let id ← Graph.addFunction function
      addParameters id heads
      return id) s = (.ok id, t)) :
    ∃ places, t.store.graph.functions.get? id = some { function with parameters := places } ∧
      ∀ head ∈ heads, ∃ place ∈ places, ∃ z, t.store.graph.parameters.get? place = some z ∧
        z.name = head.name ∧ z.typeUse = head.typeUse := by
  obtain ⟨x, hx⟩ := hs
  obtain ⟨after, places, hrun, -, -, -, hget, hall⟩ := Graph.addFunction_parameters heads hx hp
  rw [ScanState.onGraph_run hrun] at h
  cases h
  refine ⟨places, hget, fun head hm => ?_⟩
  rw [← List.zipIdx_map_fst 0 heads] at hm
  obtain ⟨pair, hpair, rfl⟩ := List.mem_map.1 hm
  obtain ⟨place, hplace, hz⟩ := mem_of_forall₂ hall hpair
  exact ⟨place, hplace, _, hz, rfl, rfl⟩

/-- A function with the type parameters that it names. -/
private theorem shows_recordFunction (hs : Owns s site.owner.id)
    (h : site.recordFunction member s = (.ok record, t)) :
    site.FunctionShows t.store.graph member := by
  intro kind word hhead
  obtain ⟨_, s₁, ha, h⟩ := ok_of_bind h
  obtain ⟨names, s₂, hnames, h⟩ := ok_of_bind h
  have htakes := (takesIn_of_run ha).append (takesIn_of_run hnames)
  obtain rfl := eq_functionVariables hnames
  rw [hhead] at h
  obtain ⟨returns, s₃, hreturns, h⟩ := ok_of_ite_bind h
  have htakes := htakes.append (show Graph.TakesIn [] [] s₂.store.graph s₃.store.graph by
    split at hreturns <;> exact takesIn_of_run hreturns)
  obtain ⟨heads, s₄, hheads, h⟩ := ok_of_bind h
  have howns := hs.mono htakes
  have htakes := htakes.append (takesIn_of_run hheads)
  -- Whether or not anything is thrown, the rest is the same.
  cases hc : member.childOfKind? .throwsClause <;> rw [hc] at h
  all_goals
    obtain ⟨throws, s₅, hthrows, h⟩ := ok_of_bind h
    have howns' := hs.mono (htakes.append (takesIn_of_run hthrows))
    obtain ⟨displays, s₆, hd, h⟩ := ok_of_bind h
    cases hd
    obtain ⟨id, s₆, hf, h⟩ := ok_of_bind h
    cases h
    obtain ⟨places, hget, hplaces⟩ := exists_function howns' rfl hf
    refine ⟨id, _, hget, rfl, rfl, rfl, ?_, ?_⟩
    · rintro typeRef name rfl hvoid hr hv
      rw [if_pos rfl] at hreturns
      exact base_returnType hvoid hr hv hreturns
    · intro list parameter typeRef name word hl hp hw hr hv
      obtain ⟨head, hm, hn, hbase⟩ := exists_parameterHead howns hl hp hw hr hv hheads
      obtain ⟨place, hplace, z, hz, hzn, hzu⟩ := hplaces head hm
      exact ⟨place, hplace, z, hz, hzn.trans hn, hzu ▸ hbase⟩

/-- A member with the type parameters that it names. -/
private theorem shows_recordMember (hs : Owns s site.owner.id)
    (h : site.recordMember member s = (.ok record, t)) : site.Shows t.store.graph member := by
  unfold recordMember at h
  refine ⟨fun hk => ?_, fun hk => ?_⟩
  · rw [hk] at h
    exact shows_recordFields hs h
  · unfold Tree.isFunction at hk
    split at hk
    · next hkind =>
      rw [hkind] at h
      exact shows_recordFunction hs h
    · next hkind =>
      rw [hkind] at h
      exact shows_recordFunction hs h
    · next hkind =>
      rw [hkind] at h
      exact shows_recordFunction hs h
    · cases hk

/-- All members of a type, with the type parameters that they name. -/
private theorem shows_recordMembers (hs : Owns s site.owner.id)
    (h : site.recordMembers s = (.ok record, t)) {body : Tree}
    (hb : site.owner.body? = some body) :
    ∀ member ∈ body.children, site.Shows t.store.graph member := by
  intro member hm
  obtain ⟨_, s₁, hsuper, h⟩ := ok_of_bind h
  obtain ⟨_, s₂, ha, h⟩ := ok_of_bind h
  rw [hb] at h
  obtain ⟨records, s₃, hmembers, h⟩ := ok_of_bind h
  cases h
  have htakes := (takesIn_recordSupertypes hsuper).append (takesIn_of_run ha)
  obtain ⟨-, hall⟩ := exists_of_mapEach (fun hs h => by
    obtain ⟨members, -, -, ht⟩ := records_recordMember hs h
    exact ⟨hs.mono ht, ht.toKeepsMembers⟩) (hs.mono htakes) hmembers
  obtain ⟨n, x, n', hn, hx, hkept⟩ := hall member hm
  exact (shows_recordMember hn hx).mono hkept

end ReferenceSite

/-! ### Files -/

namespace Declarations.ReadSteps

open ReferenceSite (Owns)

variable {source : SourceUnit} {declared : Declarations} {recordAccesses : Bool}
  {found : List TypeMembers} {s m m' t : ScanState}

/-- The second pass over some types. -/
private theorem shows_types {types : List DeclaredType} : ∀ {s t : ScanState} {records},
    (∀ type ∈ types, Owns s type.id) →
    (Action.mapEach types fun owner => do
      return ({ type := owner
                members := ← ReferenceSite.recordMembers ⟨source, declared, owner⟩ } : TypeRecord))
        s = (.ok records, t) →
    Graph.KeepsMembers s.store.graph t.store.graph ∧ ∀ type ∈ types, ∀ body,
      type.body? = some body → ∀ member ∈ body.children,
        ReferenceSite.Shows ⟨source, declared, type⟩ t.store.graph member := by
  induction types with
  | nil =>
    intro s t records _ h
    cases h
    exact ⟨.refl _, List.forall_mem_nil _⟩
  | cons type rest ih =>
    intro s t records hs h
    rw [List.forall_mem_cons] at hs
    obtain ⟨first, m, hfirst, h⟩ := ok_of_bind h
    obtain ⟨record, m, hr, hp⟩ := ok_of_bind hfirst
    cases hp
    obtain ⟨others, m', hothers, h⟩ := ok_of_bind h
    cases h
    obtain ⟨members, -, -, htakes⟩ := ReferenceSite.records_recordMembers hs.1 hr
    obtain ⟨hkept, hrest⟩ := ih (fun other ho => (hs.2 other ho).mono htakes) hothers
    refine ⟨htakes.toKeepsMembers.trans hkept, List.forall_mem_cons.2 ⟨?_, hrest⟩⟩
    intro body hb member hm
    exact (ReferenceSite.shows_recordMembers hs.1 hr hb member hm).mono hkept

/-- When a file is read, the members of its types are recorded with the type parameters that they
name. -/
private theorem shows (h : declared.ReadSteps source recordAccesses found s m m' t)
    (hs : ∀ type ∈ declared.types, Owns s type.id) : ∀ type ∈ declared.types, ∀ body,
      type.body? = some body → ∀ member ∈ body.children,
        ReferenceSite.Shows ⟨source, declared, type⟩ t.store.graph member :=
  fun type ht body hb member hm =>
    ((shows_types hs h.members).2 type ht body hb member hm).mono h.takesIn_uses.toKeepsMembers

end Declarations.ReadSteps

/-- When a new file is scanned, the members of its types are recorded with the type parameters that
they name. -/
theorem OpenProject.shows_passes {opened : OpenProject} {config : ScanConfig} {source : SourceText}
    {declared : Declarations} {s : ScanState} (hs : opened.Sound)
    (hr : passes config opened source = (.ok declared, s)) : ∀ type ∈ declared.types, ∀ body,
      type.body? = some body → ∀ member ∈ body.children, ReferenceSite.Shows
        ⟨⟨opened.store.graph.units.nextId, opened.fileOf source⟩, declared, type⟩ s.store.graph
        member := by
  obtain ⟨_, _, _, _, _, -, -, howns, hsteps⟩ := readSteps_passes hs hr
  exact hsteps.shows howns

end JavaGraph

/-! ## Runs -/

namespace JavaGraph

open JavaGraph.Action

namespace Session

/-- After every run, the fields, results and parameters of a scanned file whose type is a type
parameter of the type they belong to, of a type around it or of the member itself are recorded as
such. A placeholder that has come in with the file has a name that is written in one of its types,
and there not as that of such a type parameter. -/
theorem typeParameters_run (before later : List Step) {scope : Scope} {config : ScanConfig}
    {source : SourceText} {declared : Declarations}
    (hnew : (run before).ScansNew scope source)
    (hd : ((run before).passes scope config source).1 = .ok declared) :
    let opened : OpenProject := { (run before).project with scope }
    let unit : SourceUnit := ⟨opened.store.graph.units.nextId, opened.fileOf source⟩
    let scanned := ((run before).passes scope config source).2.store.graph
    let graph := (run (before ++ .scan config source.path source.text :: later)).project.store.graph
    (∀ type ∈ declared.types, ∀ body, type.body? = some body → ∀ member ∈ body.children,
      ReferenceSite.Shows ⟨unit, declared, type⟩ graph member) ∧
    ∀ {id x}, scanned.types.get? id = some x → x.isComplete = false →
      (∃ y, opened.store.graph.types.get? id = some y ∧ y.isComplete = false) ∨
        ∃ type ∈ declared.types, ReferenceSite.Refers ⟨unit, declared, type⟩ x.name := by
  intro opened unit scanned graph
  obtain ⟨hsound, -⟩ := hnew.opened (sound_run before) (tidy_run before)
  have hpreserves := preserves_run (before ++ [.scan config source.path source.text]) later
  rw [hnew.graph_run, List.append_assoc] at hpreserves
  have hr : OpenProject.passes config opened source =
      (.ok declared, ((run before).passes scope config source).2) := Prod.ext hd rfl
  refine ⟨fun type ht body hb member hm => ?_, fun hx hc => ?_⟩
  · exact (OpenProject.shows_passes hsound hr type ht body hb member hm).mono
      hpreserves.toKeepsMembers
  · exact OpenProject.refers_of_placeholder hsound hr hx hc

/-- A field of an inner class has a type parameter of the class around as its type. -/
theorem typeParameter_innerClass :
    let before : List Step := [.addArtifact "app" [], .enter (some ⟨0⟩)]
    let source : SourceText := ⟨"A.java", "class A<T> \x7b class B \x7b T f; \x7d \x7d"⟩
    let graph := (run (before ++ [.scan {} source.path source.text])).project.store.graph
    ∃ scope declared id y, (run before).ScansNew scope source ∧
      ((run before).passes scope {} source).1 = .ok declared ∧
      graph.fields.get? id = some y ∧ y.declaringType = ⟨1⟩ ∧ y.name = "f" ∧
      y.typeUse.base = .typeVariable "T" := by
  intro before source graph
  have hscopes : (run before).scopes.map (·.artifact?) = [some ⟨0⟩] := by decide +kernel
  obtain ⟨scope, hs, hartifact⟩ := List.map_eq_singleton_iff.1 hscopes
  have hnew : (run before).project.store.graph.unitAt? source.path scope.artifact? = none := by
    rw [hartifact]
    decide +kernel
  have hpasses : (run before).scopes.all (fun scope =>
      ((run before).passes scope {} source).1.toOption.any fun declared =>
        declared.types.any fun type => type.id = ⟨1⟩ && type.body?.any fun body =>
          body.children.any fun member => member.kind = .fieldDecl &&
            (member.childOfKind? .typeRef).any fun typeRef =>
              Mention.primitive? typeRef = none &&
              typeRef.identifiers.map (·.text) = ["T"] &&
              (declared.around type).any (·.typeParameters.contains "T") &&
              (member.childrenOfKind .variableDeclarator).any fun declarator =>
                declarator.declaredName?.any (·.text = "f")) = true := by
    decide +kernel
  rw [hs, List.all_cons, Bool.and_eq_true] at hpasses
  have hfacts := hpasses.1
  simp only [Bool.and_eq_true, decide_eq_true_eq, Option.any_eq_true, List.any_eq_true,
    List.contains_iff_mem] at hfacts
  obtain ⟨declared, hd, type, ht, hid, body, hb, member, hm, hk, typeRef, hr,
    ⟨⟨hprimitive, hids⟩, houter⟩, declarator, hdeclarator, word, hword, hname⟩ := hfacts
  have hd := ok_of_toOption hd
  obtain ⟨hshows, -⟩ := typeParameters_run before [] ⟨hs, hnew⟩ hd
  obtain ⟨id, y, hy, hdeclaring, hn, hbase⟩ := (hshows type ht body hb member hm).fields hk hr
    ⟨hprimitive, hids, .inr houter⟩ hdeclarator hword
  exact ⟨scope, declared, id, y, ⟨hs, hnew⟩, hd, hy, hdeclaring.trans hid, hn.trans hname, hbase⟩

/-- An anonymous class in the block of a method has a field whose type is a type parameter of the
method, and a placeholder comes in. -/
theorem capturedTypeParameter_placeholder :
    let source : SourceText := ⟨"A.java", "class A \x7b <T> void m() \x7b " ++
      "Object o = new Object() \x7b T f; \x7d; \x7d \x7d"⟩
    let root := (OpenProject.parsed {} source).root
    let graph := (run [.addArtifact "app" [], .enter (some ⟨0⟩),
      .scan {} source.path source.text]).project.store.graph
    (OpenProject.parsed {} source).errors = [] ∧
    (∃ outer ∈ root.children, ∃ body ∈ outer.children, ∃ method ∈ body.children,
      method.kind = .methodDecl ∧ "T" ∈ method.functionVariables ∧
      ∃ block, method.childOfKind? .block = some block ∧ ∃ creation ∈ block.codeNodes,
        creation.kind = .newObject ∧ ∃ inner, creation.childOfKind? .classBody = some inner ∧
          ∃ field ∈ inner.children, field.kind = .fieldDecl ∧
            ∃ typeRef, field.childOfKind? .typeRef = some typeRef ∧
              typeRef.identifiers.map (·.text) = ["T"] ∧ typeRef.children.length = 1) ∧
    (∀ site ∈ Site.ofTree root, ∀ name, site.name? = some name → name.text ≠ "T") ∧
    ∃ (type placeholder : TypeNode) (field : Field) (id : TypeId),
      graph.types.get? ⟨1⟩ = some type ∧ type.name.text = "A$1" ∧ type.fields = [⟨0⟩] ∧
      graph.fields.get? ⟨0⟩ = some field ∧ field.name = "f" ∧ field.typeUse.base = .declared id ∧
      graph.types.get? id = some placeholder ∧ placeholder.name.text = "T" ∧
      placeholder.isComplete = false := by
  intro source root graph
  have htree : root.children.any (fun outer => outer.children.any fun body =>
      body.children.any fun method => method.kind = .methodDecl &&
        method.functionVariables.contains "T" && (method.childOfKind? .block).any fun block =>
          block.codeNodes.any fun creation => creation.kind = .newObject &&
            (creation.childOfKind? .classBody).any fun inner =>
              inner.children.any fun field => field.kind = .fieldDecl &&
                (field.childOfKind? .typeRef).any fun typeRef =>
                  typeRef.identifiers.map (·.text) = ["T"] && typeRef.children.length = 1) =
      true := by decide +kernel
  have hnames : (Site.ofTree root).all (fun site => site.name?.all (·.text ≠ "T")) = true := by
    decide +kernel
  have h : (OpenProject.parsed {} source).errors = [] ∧
      (graph.types.get? ⟨1⟩).map (fun x => (x.name.text, x.fields)) = some ("A$1", [⟨0⟩]) ∧
      (graph.fields.get? ⟨0⟩).map (fun x => (x.name, x.typeUse.base)) =
        some ("f", .declared ⟨3⟩) ∧
      (graph.types.get? ⟨3⟩).map (fun x => (x.name.text, x.isComplete)) = some ("T", false) := by
    decide +kernel
  obtain ⟨herrors, htype, hfield, hplaceholder⟩ := h
  obtain ⟨type, ht, hte⟩ := Option.map_eq_some_iff.1 htype
  obtain ⟨field, hf, hfe⟩ := Option.map_eq_some_iff.1 hfield
  obtain ⟨placeholder, hp, hpe⟩ := Option.map_eq_some_iff.1 hplaceholder
  simp only [Prod.mk.injEq] at hte hfe hpe
  simp only [List.any_eq_true, Option.any_eq_true, Bool.and_eq_true, decide_eq_true_eq,
    List.contains_iff_mem, and_assoc] at htree
  refine ⟨herrors, htree, fun site hm name hn => ?_, type, placeholder, field, ⟨3⟩, ht, hte.1, hte.2,
    hf, hfe.1, hfe.2, hp, hpe.1, hpe.2⟩
  have hall := List.all_eq_true.1 hnames site hm
  rw [hn] at hall
  exact of_decide_eq_true hall

end Session

end JavaGraph
