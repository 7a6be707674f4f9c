import JavaGraph.Proofs.Graph.References
import JavaGraph.Proofs.Scan.Pairs
import JavaGraph.Proofs.Scan.References
import JavaGraph.Proofs.Scan.Tandem
import JavaGraph.Proofs.Scan.Upheld
/-!
# Members that are recorded

Which members a declaration has can be read off the tree, if it is known which of the types of its
fields are well formed. The second pass records just these members, each as a new one, and lists
them in their type in order. The types themselves keep their places.
-/

namespace JavaGraph

open List (Forall₂)
open JavaGraph.Action

/-- A member as it is written. -/
inductive Member where
  /-- A field, and what is executed to get its value. -/
  | field (node : Tree) (value? : Option Tree)
  | function (node : Tree)

namespace ReferenceSite

variable (site : ReferenceSite)

/-- Whether a type reference is well formed: a primitive type, a type parameter, or a name. -/
def isTyped (node : Tree) : Bool :=
  (Mention.primitive? node).isSome || site.isVariable [] node.identifiers ||
    (site.referent? node.identifiers).isSome

/-- The fields of a declaration. -/
def fieldMembers (node : Tree) : List Member :=
  match node.childOfKind? .typeRef with
  | none => []
  | some typeRef => (node.childrenOfKind .variableDeclarator).flatMap fun declarator =>
      if declarator.declaredName?.isSome && site.isTyped typeRef then
        [.field declarator declarator.nodes.head?]
      else []

/-- The members that a node of a body is. -/
def membersOf (node : Tree) : List Member :=
  match node.kind with
  | .fieldDecl => site.fieldMembers node
  | .enumConstant =>
    if node.declaredName?.isSome then [.field node (node.childOfKind? .arguments)] else []
  | .methodDecl | .constructorDecl | .initializer =>
    if (functionHead? node).isSome then [.function node] else []
  | _ => []

/-- All members of the type. -/
def allMembers : List Member :=
  match site.owner.body? with
  | none => []
  | some body => body.children.flatMap site.membersOf

end ReferenceSite

/-- A member as it is recorded. -/
inductive RecordedMember where
  | field (id : FieldId) (node : Tree) (value? : Option Tree)
  /-- A function, with the names of its parameters. -/
  | function (id : FunctionId) (node : Tree) (parameters : List String)

namespace RecordedMember

/-- How the member is written. -/
def written : RecordedMember → Member
  | .field _ node value? => .field node value?
  | .function _ node _ => .function node

/-- The identifier of a field. -/
def fieldId? : RecordedMember → Option FieldId
  | .field id _ _ => some id
  | .function _ _ _ => none

/-- The identifier of a function. -/
def functionId? : RecordedMember → Option FunctionId
  | .field _ _ _ => none
  | .function id _ _ => some id

/-- What identifies the member. -/
def key : RecordedMember → FieldId ⊕ FunctionId
  | .field id _ _ => .inl id
  | .function id _ _ => .inr id

/-- A field under its name. -/
def named? : RecordedMember → Option (String × FieldId)
  | .field id node _ => node.declaredName?.map fun name => (name.text, id)
  | .function _ _ _ => none

/-- What the member executes. -/
def body? : RecordedMember → Option Body
  | .field _ _ value? => value?.map fun node => { node }
  | .function id node parameters => (node.childOfKind? .block).map fun block => {
      function := some id
      node := block
      locals := parameters
      typeParameters := node.functionVariables }

/-- The record of some members. -/
def recordOf (members : List RecordedMember) : MemberRecord :=
  ⟨members.filterMap named?, members.filterMap body?⟩

/-- The member is in a graph, as it is written, under its type. -/
def Known (graph : Graph) (owner : TypeId) : RecordedMember → Prop
  | .field id node _ => ∃ x, graph.fields.get? id = some x ∧ x.declaringType = owner ∧
      node.declaredName?.map (·.text) = some x.name ∧ x.line = node.line
  | .function id node parameters => ∃ x, graph.functions.get? id = some x ∧
      x.declaringType = owner ∧ ReferenceSite.functionHead? node = some (x.kind, x.name) ∧
      Forall₂ (fun place name => ∃ y, graph.parameters.get? place = some y ∧ y.name = name)
        x.parameters parameters ∧
      x.span = .between node.line node.lastLine

/-- The member is not in a graph yet. -/
def Fresh (graph : Graph) : RecordedMember → Prop
  | .field id _ _ => graph.fields.get? id = none
  | .function id _ _ => graph.functions.get? id = none

variable {graph after : Graph} {owner : TypeId}

/-- A member stays where it is. -/
theorem Known.mono {member : RecordedMember} (h : member.Known graph owner)
    (hg : Graph.KeepsMembers graph after) : member.Known after owner := by
  cases member with
  | field id node value? =>
    obtain ⟨x, hx, hrest⟩ := h
    exact ⟨x, hg.field hx, hrest⟩
  | function id node parameters =>
    obtain ⟨x, hx, hd, hh, hp, hs⟩ := h
    refine ⟨x, hg.function hx, hd, hh, hp.imp ?_, hs⟩
    rintro place name ⟨y, hy, hn⟩
    exact ⟨y, hg.parameter hy, hn⟩

/-- What is new later was new before. -/
theorem Fresh.of_later {member : RecordedMember} (h : member.Fresh after)
    (hg : Graph.KeepsMembers graph after) : member.Fresh graph := by
  cases member with
  | field id node value? =>
    refine Option.eq_none_iff_forall_not_mem.2 fun x hx => ?_
    exact Option.not_mem_none x (h ▸ hg.field hx)
  | function id node parameters =>
    refine Option.eq_none_iff_forall_not_mem.2 fun x hx => ?_
    exact Option.not_mem_none x (h ▸ hg.function hx)

/-- What is known is not new. -/
theorem Known.not_fresh {member other : RecordedMember} (h : member.Known graph owner)
    (hk : member.key = other.key) : ¬ other.Fresh graph := by
  intro hf
  cases member <;> cases other <;> cases hk <;> obtain ⟨x, hx, -⟩ := h <;>
    exact Option.some_ne_none x (hx.symm.trans hf)

end RecordedMember

/-! ### Graphs that members come into -/

namespace Graph

/-- The fields of a type among some members. -/
def fieldsIn (id : TypeId) (members : List (TypeId × RecordedMember)) : List FieldId :=
  (members.filter (·.1 = id)).filterMap (·.2.fieldId?)

/-- The functions of a type among some members. -/
def functionsIn (id : TypeId) (members : List (TypeId × RecordedMember)) : List FunctionId :=
  (members.filter (·.1 = id)).filterMap (·.2.functionId?)

/-- Types have got some members, and some uses of fields have come in. Types keep their names, places
and lines, and nothing is said of what they refer to. -/
structure TakesIn (members : List (TypeId × RecordedMember)) (uses : List Access)
    (before after : Graph) : Prop extends KeepsMembers before after where
  type : ∀ {id x}, before.types.get? id = some x → ∃ y, after.types.get? id = some y ∧
    y.name = x.name ∧ y.declaringType = x.declaringType ∧ y.anonymousIndex = x.anonymousIndex ∧
    y.fields = x.fields ++ fieldsIn id members ∧
    y.functions = x.functions ++ functionsIn id members ∧ y.span = x.span
  known : ∀ member ∈ members, member.2.Known after member.1
  fresh : ∀ member ∈ members, member.2.Fresh before
  distinct : (members.map (·.2.key)).Nodup
  accesses : after.accesses.toList = before.accesses.toList ++ uses

variable {graph middle after : Graph} {members more : List (TypeId × RecordedMember)}
  {uses others : List Access}

/-- Nothing has come in, and types keep their names, places, members and lines. -/
theorem TakesIn.nothing (hm : KeepsMembers graph after) (ha : after.accesses = graph.accesses)
    (ht : ∀ {id x}, graph.types.get? id = some x → ∃ y, after.types.get? id = some y ∧
      y.name = x.name ∧ y.declaringType = x.declaringType ∧
      y.anonymousIndex = x.anonymousIndex ∧ y.fields = x.fields ∧ y.functions = x.functions ∧
      y.span = x.span) :
    TakesIn [] [] graph after where
  toKeepsMembers := hm
  type hx := by
    obtain ⟨y, hy, hn, hd, hi, hf, hg, hs⟩ := ht hx
    refine ⟨y, hy, hn, hd, hi, ?_, ?_, hs⟩
    · rw [hf]
      exact (List.append_nil _).symm
    · rw [hg]
      exact (List.append_nil _).symm
  known := List.forall_mem_nil _
  fresh := List.forall_mem_nil _
  distinct := List.nodup_nil
  accesses := by rw [ha, List.append_nil]

/-- Members come in after others. -/
theorem TakesIn.append (h : TakesIn members uses graph middle)
    (h' : TakesIn more others middle after) :
    TakesIn (members ++ more) (uses ++ others) graph after where
  toKeepsMembers := h.toKeepsMembers.trans h'.toKeepsMembers
  type hx := by
    obtain ⟨y, hy, hn, hd, hi, hf, hg, hs⟩ := h.type hx
    obtain ⟨z, hz, hn', hd', hi', hf', hg', hs'⟩ := h'.type hy
    refine ⟨z, hz, hn'.trans hn, hd'.trans hd, hi'.trans hi, ?_, ?_, hs'.trans hs⟩
    · rw [hf', hf, List.append_assoc]
      simp only [fieldsIn, List.filter_append, List.filterMap_append]
    · rw [hg', hg, List.append_assoc]
      simp only [functionsIn, List.filter_append, List.filterMap_append]
  known := List.forall_mem_append.2
    ⟨fun member hm => (h.known member hm).mono h'.toKeepsMembers, h'.known⟩
  fresh := List.forall_mem_append.2
    ⟨h.fresh, fun member hm => (h'.fresh member hm).of_later h.toKeepsMembers⟩
  distinct := by
    rw [List.map_append, List.nodup_append]
    refine ⟨h.distinct, h'.distinct, fun key hk other ho he => ?_⟩
    obtain ⟨member, hm, rfl⟩ := List.mem_map.1 hk
    obtain ⟨member', hm', rfl⟩ := List.mem_map.1 ho
    exact (h.known member hm).not_fresh he (h'.fresh member' hm')
  accesses := by rw [h'.accesses, h.accesses, List.append_assoc]

instance : Action.Guarantee (TakesIn [] []) where
  refl graph := .nothing (.refl graph) rfl fun hx => ⟨_, hx, rfl, rfl, rfl, rfl, rfl, rfl⟩
  trans h h' := h.append h'

/-- A type is changed that keeps its name, its place, its members and its lines. -/
theorem takesIn_updateType (id : TypeId) {f : TypeNode → TypeNode}
    (hn : ∀ x, (f x).name = x.name) (hd : ∀ x, (f x).declaringType = x.declaringType)
    (hi : ∀ x, (f x).anonymousIndex = x.anonymousIndex) (hf : ∀ x, (f x).fields = x.fields)
    (hg : ∀ x, (f x).functions = x.functions) (hs : ∀ x, (f x).span = x.span) :
    Keeps (TakesIn [] []) (updateType id f) := by
  constructor
  intro graph
  cases hx : graph.types.get? id with
  | none =>
    have he := Arena.update_eq_error_iff (f := f) |>.2 ⟨hx, rfl⟩
    simp only [updateType, tryChange, he, bind, Except.bind]
    exact Guarantee.refl graph
  | some x =>
    rw [updateType_known f hx]
    refine .nothing ⟨fun h => h, fun h => h, fun h => h⟩ rfl fun {k y} hy => ?_
    simp only
    rw [Arena.get?_modify]
    split
    · rw [hy]
      exact ⟨f y, rfl, hn y, hd y, hi y, hf y, hg y, hs y⟩
    · exact ⟨y, hy, rfl, rfl, rfl, rfl, rfl, rfl⟩

instance : Placing (TakesIn [] []) where
  addType name home := by
    constructor
    intro graph
    rw [addType_run]
    exact .nothing ⟨fun h => h, fun h => h, fun h => h⟩ rfl fun hx =>
      ⟨_, get?_push_of_get? _ hx, rfl, rfl, rfl, rfl, rfl, rfl⟩
  addRequirement unit type := by
    have hunit : ∀ f, Keeps (TakesIn [] []) (updateUnit unit f) := by
      intro f
      constructor
      intro graph
      cases h : graph.units.update unit f <;>
        simp only [updateUnit, tryChange, h, bind, Except.bind, pure, Except.pure] <;>
        exact .nothing ⟨fun h => h, fun h => h, fun h => h⟩ rfl fun hx =>
          ⟨_, hx, rfl, rfl, rfl, rfl, rfl, rfl⟩
    have hrequirers : Keeps (TakesIn [] []) (change fun graph : Graph =>
        let known := (graph.requirers.find? type).getD []
        { graph with requirers := graph.requirers.insert type (known ++ [unit]) } :
          GraphAction Unit) :=
      ⟨fun graph => .nothing ⟨fun h => h, fun h => h, fun h => h⟩ rfl fun hx =>
        ⟨_, hx, rfl, rfl, rfl, rfl, rfl, rfl⟩⟩
    unfold addRequirement
    infer_instance
  hold id holder := by
    refine takesIn_updateType id ?_ ?_ ?_ ?_ ?_ ?_ <;> intro x <;> unfold TypeNode.setRequiredBy <;>
      split <;> rfl

/-- One member comes in. -/
theorem takesIn_recorded {owner : TypeId} {member : RecordedMember} {f : TypeNode → TypeNode}
    (h : Recorded owner f graph after)
    (hf : ∀ x : TypeNode, f x = { x with
      fields := x.fields ++ member.fieldId?.toList
      functions := x.functions ++ member.functionId?.toList })
    (hk : member.Known after owner) (hn : member.Fresh graph) :
    TakesIn [(owner, member)] [] graph after where
  field := h.field
  function := h.function
  parameter := h.parameter
  type := by
    intro id x hx
    by_cases hid : id = owner
    · subst hid
      refine ⟨_, h.get?_self hx, ?_⟩
      rw [hf]
      refine ⟨rfl, rfl, rfl, ?_, ?_, rfl⟩
      · cases member <;> simp [fieldsIn, RecordedMember.fieldId?]
      · cases member <;> simp [functionsIn, RecordedMember.functionId?]
    · refine ⟨x, by rw [h.get?_ne hid, hx], rfl, rfl, rfl, ?_, ?_, rfl⟩
      · simp [fieldsIn, Ne.symm hid]
      · simp [functionsIn, Ne.symm hid]
  known := List.forall_mem_singleton.2 hk
  fresh := List.forall_mem_singleton.2 hn
  distinct := List.nodup_singleton _
  accesses := by rw [h.accesses, List.append_nil]

end Graph

/-! ### Records of members -/

namespace ReferenceSite

variable {site : ReferenceSite} {s t u : ScanState} {α : Type}

/-- Members of a type are recorded between two states, as they are written. -/
def Records (owner : TypeId) (written : List Member) (record : MemberRecord) (s t : ScanState) :
    Prop :=
  ∃ members : List RecordedMember, members.map (·.written) = written ∧
    record = RecordedMember.recordOf members ∧
    Graph.TakesIn (members.map (owner, ·)) [] s.store.graph t.store.graph

/-- The state has a type. -/
def Owns (s : ScanState) (owner : TypeId) : Prop := ∃ x, s.store.graph.types.get? owner = some x

/-- A type stays there. -/
theorem Owns.mono {owner : TypeId} {members : List (TypeId × RecordedMember)} {uses : List Access}
    (h : Owns s owner) (ht : Graph.TakesIn members uses s.store.graph t.store.graph) :
    Owns t owner := by
  obtain ⟨x, hx⟩ := h
  obtain ⟨y, hy, -⟩ := ht.type hx
  exact ⟨y, hy⟩

variable {owner : TypeId} {written more : List Member} {record other : MemberRecord}

/-- No member is recorded. -/
private theorem records_nothing (h : Graph.TakesIn [] [] s.store.graph t.store.graph) :
    Records owner [] {} s t := ⟨[], rfl, rfl, h⟩

/-- Members are recorded after others. -/
private theorem Records.append (h : Records owner written record s t)
    (h' : Records owner more other t u) :
    Records owner (written ++ more) (record.append other) s u := by
  obtain ⟨members, rfl, rfl, ht⟩ := h
  obtain ⟨members', rfl, rfl, ht'⟩ := h'
  refine ⟨members ++ members', by rw [List.map_append], ?_, ?_⟩
  · unfold RecordedMember.recordOf MemberRecord.append
    rw [List.filterMap_append, List.filterMap_append]
  · have := ht.append ht'
    rwa [← List.map_append] at this

/-- Something else goes before. -/
private theorem Records.after (h : Records owner written record t u)
    (ht : Graph.TakesIn [] [] s.store.graph t.store.graph) : Records owner written record s u := by
  obtain ⟨members, hw, hr, hm⟩ := h
  exact ⟨members, hw, hr, ht.append hm⟩

/-- The type is still there. -/
private theorem Records.owns {id : TypeId} (h : Records owner written record s t)
    (hs : Owns s id) : Owns t id := by
  obtain ⟨members, -, -, ht⟩ := h
  exact hs.mono ht

/-- An action on the graph. -/
theorem takesIn_onGraph {action : GraphAction α} (h : Keeps (Graph.TakesIn [] []) action) :
    Keeps (ScanState.OnGraph (Graph.TakesIn [] [])) (ScanState.onGraph action) :=
  ⟨fun s => h.keeps s.store.graph⟩

/-- What the steps of references keep. -/
theorem takesIn_of_run {action : ScanAction α} {x : α}
    [hk : Keeps (ScanState.OnGraph (Graph.TakesIn [] [])) action] (h : action s = (.ok x, t)) :
    Graph.TakesIn [] [] s.store.graph t.store.graph := by
  have := hk.keeps s
  rwa [h] at this

/-- Members are recorded item by item. -/
private theorem records_mapEach {items : List α} {f : α → ScanAction MemberRecord}
    {g : α → List Member} (hf : ∀ {item s t record}, Owns s owner → f item s = (.ok record, t) →
      Records owner (g item) record s t) :
    ∀ {s t records}, Owns s owner → Action.mapEach items f s = (.ok records, t) →
      Records owner (items.flatMap g) (.join records) s t := by
  induction items with
  | nil =>
    intro s t records _ h
    cases h
    exact records_nothing (Guarantee.refl _)
  | cons item rest ih =>
    intro s t records hs h
    obtain ⟨first, m, hfirst, h⟩ := ok_of_bind h
    obtain ⟨others, m', hothers, h⟩ := ok_of_bind h
    cases h
    have hr := hf hs hfirst
    exact hr.append (ih (hr.owns hs) hothers)

/-- Members are recorded item by item, if they are recorded at all. -/
private theorem records_collect {items : List α} {f : α → ScanAction (Option MemberRecord)}
    {g : α → List Member} (hf : ∀ {item s t record?}, Owns s owner → f item s = (.ok record?, t) →
      Records owner (g item) (record?.getD {}) s t) :
    ∀ {s t records}, Owns s owner → Action.collect items f s = (.ok records, t) →
      Records owner (items.flatMap g) (.join records) s t := by
  induction items with
  | nil =>
    intro s t records _ h
    cases h
    exact records_nothing (Guarantee.refl _)
  | cons item rest ih =>
    intro s t records hs h
    obtain ⟨first, m, hfirst, h⟩ := ok_of_bind h
    obtain ⟨others, m', hothers, h⟩ := ok_of_bind h
    cases h
    have hr := hf hs hfirst
    have hall := hr.append (ih (hr.owns hs) hothers)
    cases first with
    | none => exact hall
    | some record => exact hall

/-! ### Members -/

/-- Written segments refer to a type exactly if they are a well-formed name. -/
theorem isSome_refer {segments : List Token} {id : Option TypeId}
    (h : site.refer segments s = (.ok id, t)) : id.isSome = (site.referent? segments).isSome := by
  unfold refer at h
  unfold referent?
  cases segments with
  | nil =>
    cases h
    rfl
  | cons first rest =>
    simp only at h ⊢
    cases hq : site.declared.qualify site.owner ((first :: rest).map (·.text)) with
    | error e =>
      rw [hq] at h
      obtain ⟨_, m, -, h⟩ := ok_of_bind h
      cases h
      rfl
    | ok name =>
      rw [hq] at h
      obtain ⟨target, m, -, h⟩ := ok_of_bind h
      obtain ⟨_, m', -, h⟩ := ok_of_bind h
      cases h
      rfl

/-- A type reference has a use exactly if it is well formed. -/
private theorem isSome_typeUse {node : Tree} {dimensions : Nat} {use : Option TypeUse}
    (h : site.typeUse [] node dimensions s = (.ok use, t)) :
    use.isSome = site.isTyped node := by
  obtain ⟨_, m, -, h⟩ := ok_of_bind h
  obtain ⟨base, m', hb, h⟩ := ok_of_bind h
  cases h
  rw [Option.isSome_map]
  unfold typeBase at hb
  unfold isTyped
  cases hp : Mention.primitive? node with
  | some token =>
    rw [hp] at hb
    cases hb
    rfl
  | none =>
    rw [hp] at hb
    simp only [Option.isSome_none, Bool.false_or] at hb ⊢
    split at hb
    · next hv =>
      cases hb
      rw [hv, Option.isSome_map, Bool.true_or]
      unfold isVariable at hv
      split at hv
      · next hl =>
        rw [hl]
        rfl
      · cases hv
    · next hv =>
      obtain ⟨id, m'', hr, hb⟩ := ok_of_bind hb
      cases hb
      rw [Bool.eq_false_iff.2 hv, Bool.false_or, Option.isSome_map]
      exact isSome_refer hr

/-- One member is recorded. -/
private theorem records_member {member : RecordedMember}
    (h : Graph.TakesIn [(owner, member)] [] s.store.graph t.store.graph) :
    Records owner [member.written] (RecordedMember.recordOf [member]) s t := ⟨[member], rfl, rfl, h⟩

/-- A field is added to a known type. -/
private theorem records_addField {field : Field} {id : FieldId} {node : Tree} {name : Token}
    (value? : Option Tree) (hs : Owns s field.declaringType)
    (hn : node.declaredName? = some name) (hf : field.name = name.text)
    (hl : field.line = node.line) (h : ScanState.onGraph (Graph.addField field) s = (.ok id, t)) :
    Records field.declaringType [.field node value?]
      { fields := [(name.text, id)], bodies := (value?.map fun node => { node }).toList } s t := by
  obtain ⟨x, hx⟩ := hs
  rw [ScanState.onGraph_run (Graph.addField_known hx)] at h
  cases h
  have hknown : RecordedMember.Known (s.store.graph.withField field) field.declaringType
      (.field s.store.graph.fields.nextId node value?) :=
    ⟨field, Graph.get?_withField .., rfl, by rw [hn, hf]; rfl, hl⟩
  have htakes := Graph.takesIn_recorded (Graph.recorded_withField s.store.graph field)
    (fun x => by simp [RecordedMember.fieldId?, RecordedMember.functionId?]) hknown
    (Arena.get?_nextId _)
  have hrecords := records_member (s := s) (t := s.withGraph (s.store.graph.withField field)) htakes
  unfold RecordedMember.recordOf at hrecords
  simp only [List.filterMap_cons, List.filterMap_nil, RecordedMember.named?, hn, Option.map_some,
    RecordedMember.body?] at hrecords
  cases value? with
  | none => exact hrecords
  | some value => exact hrecords

/-- The field of a declarator, if it has a name and a type. -/
theorem records_recordField {typeRef declarator : Tree} {modifiers : Modifiers}
    {record? : Option MemberRecord} (hs : Owns s site.owner.id)
    (h : site.recordField typeRef modifiers declarator s = (.ok record?, t)) :
    Records site.owner.id
      (if declarator.declaredName?.isSome && site.isTyped typeRef then
        [.field declarator declarator.nodes.head?] else []) (record?.getD {}) s t := by
  unfold recordField at h
  cases hn : declarator.declaredName? with
  | none =>
    rw [hn] at h
    cases h
    exact records_nothing (Guarantee.refl _)
  | some name =>
    rw [hn] at h
    obtain ⟨use, m, hu, h⟩ := ok_of_bind h
    have htakes := takesIn_of_run hu
    rw [← isSome_typeUse hu]
    cases use with
    | none =>
      cases h
      exact records_nothing htakes
    | some use =>
      obtain ⟨display, m', hd, h⟩ := ok_of_bind h
      cases hd
      obtain ⟨id, m', ha, h⟩ := ok_of_bind h
      cases h
      exact (records_addField _ (hs.mono htakes) hn rfl rfl ha).after htakes

/-- The fields of a declaration. -/
private theorem records_recordFields {node : Tree} (hs : Owns s site.owner.id)
    (h : site.recordFields node s = (.ok record, t)) :
    Records site.owner.id (site.fieldMembers node) record s t := by
  obtain ⟨_, m, ha, h⟩ := ok_of_bind h
  have htakes := takesIn_of_run ha
  unfold fieldMembers
  cases hr : node.childOfKind? .typeRef with
  | none =>
    rw [hr] at h
    cases h
    exact records_nothing htakes
  | some typeRef =>
    rw [hr] at h
    obtain ⟨records, m', hc, h⟩ := ok_of_bind h
    cases h
    exact (records_collect (fun hs h => records_recordField hs h) (hs.mono htakes) hc).after htakes

/-- An enum constant is a field. -/
private theorem records_recordEnumConstant {node : Tree} (hs : Owns s site.owner.id)
    (h : site.recordEnumConstant node s = (.ok record, t)) :
    Records site.owner.id (if node.declaredName?.isSome then
      [.field node (node.childOfKind? .arguments)] else []) record s t := by
  obtain ⟨_, m, ha, h⟩ := ok_of_bind h
  have htakes := takesIn_of_run ha
  cases hn : node.declaredName? with
  | none =>
    rw [hn] at h
    cases h
    exact records_nothing htakes
  | some name =>
    rw [hn] at h
    obtain ⟨id, m', hf, h⟩ := ok_of_bind h
    cases h
    exact (records_addField _ (hs.mono htakes) hn rfl rfl hf).after htakes

/-- The names of the parameters of a function are those that are recorded. -/
private theorem known_parameters {graph : Graph} {id : FunctionId} {heads : List ParameterHead}
    {ids : List ParameterId}
    (h : Forall₂ (fun (head, index) k => graph.parameters.get? k = some (head.parameter id index))
      heads.zipIdx ids) :
    Forall₂ (fun place name => ∃ y, graph.parameters.get? place = some y ∧ y.name = name) ids
      (heads.map (·.name)) := by
  rw [← List.zipIdx_map_fst 0 heads, List.map_map, List.forall₂_map_right_iff]
  exact h.flip.imp fun _ _ hk => ⟨_, hk, rfl⟩

/-- A function is added to a known type, with its parameters. -/
private theorem records_addFunction {function : Function} {heads : List ParameterHead}
    {id : FunctionId} {node : Tree} (hs : Owns s function.declaringType)
    (hp : function.parameters = [])
    (hn : functionHead? node = some (function.kind, function.name))
    (hl : function.span = .between node.line node.lastLine)
    (h : ScanState.onGraph (do
      let id ← Graph.addFunction function
      addParameters id heads
      return id) s = (.ok id, t)) :
    Records function.declaringType [.function node]
      { bodies := ((node.childOfKind? .block).map fun block => ({
          function := some id
          node := block
          locals := heads.map (·.name)
          typeParameters := node.functionVariables } : Body)).toList } s t := by
  obtain ⟨x, hx⟩ := hs
  obtain ⟨after, ids, hrun, hrecorded, -, -, hget, hall⟩ :=
    Graph.addFunction_parameters heads hx hp
  rw [ScanState.onGraph_run hrun] at h
  cases h
  have hknown : RecordedMember.Known after function.declaringType
      (.function s.store.graph.functions.nextId node (heads.map (·.name))) :=
    ⟨_, hget, rfl, hn, known_parameters hall, hl⟩
  have htakes := Graph.takesIn_recorded hrecorded
    (fun x => by simp [RecordedMember.fieldId?, RecordedMember.functionId?]) hknown
    (Arena.get?_nextId _)
  have hrecords := records_member (s := s) (t := s.withGraph after) htakes
  unfold RecordedMember.recordOf at hrecords
  simp only [List.filterMap_cons, List.filterMap_nil, RecordedMember.named?,
    RecordedMember.body?] at hrecords
  cases hb : node.childOfKind? .block with
  | none =>
    rw [hb] at hrecords
    exact hrecords
  | some block =>
    rw [hb] at hrecords
    exact hrecords

/-- A condition on the code tells which of two steps comes before what is common to both. -/
theorem ok_of_ite_bind {β : Type} {condition : Prop} [Decidable condition]
    {first second : ScanAction α} {next : α → ScanAction β} {y : β}
    (h : (if condition then first >>= next else second >>= next) s = (.ok y, t)) :
    ∃ x m, (if condition then first else second) s = (.ok x, m) ∧ next x m = (.ok y, t) := by
  split at h
  · next hc =>
    rw [if_pos hc]
    exact ok_of_bind h
  · next hc =>
    rw [if_neg hc]
    exact ok_of_bind h

/-- A function, unless it is a method without a name. -/
private theorem records_recordFunction {node : Tree} (hs : Owns s site.owner.id)
    (h : site.recordFunction node s = (.ok record, t)) :
    Records site.owner.id (if (functionHead? node).isSome then [.function node] else []) record
      s t := by
  obtain ⟨_, s₁, ha, h⟩ := ok_of_bind h
  obtain ⟨names, s₂, hv, h⟩ := ok_of_bind h
  have htakes := (takesIn_of_run ha).append (takesIn_of_run hv)
  obtain rfl := eq_functionVariables hv
  cases hh : functionHead? node with
  | none =>
    rw [hh] at h
    cases h
    exact records_nothing htakes
  | some head =>
    obtain ⟨kind, name⟩ := head
    rw [hh] at h
    obtain ⟨returns, s₃, hr, h⟩ := ok_of_ite_bind h
    have hreturns : Graph.TakesIn [] [] s₂.store.graph s₃.store.graph := by
      split at hr <;> exact takesIn_of_run hr
    obtain ⟨heads, s₄, hp, h⟩ := ok_of_bind h
    have htakes := htakes.append (hreturns.append (takesIn_of_run hp))
    -- Whether or not anything is thrown, the rest is the same.
    cases hc : node.childOfKind? .throwsClause <;> rw [hc] at h
    all_goals
      obtain ⟨throws, s₅, hthrows, h⟩ := ok_of_bind h
      have htakes := htakes.append (takesIn_of_run hthrows)
      obtain ⟨displays, s₆, hd, h⟩ := ok_of_bind h
      cases hd
      obtain ⟨id, s₆, hf, h⟩ := ok_of_bind h
      cases h
      exact (records_addFunction (hs.mono htakes) rfl hh rfl hf).after htakes

/-- A member. -/
theorem records_recordMember {node : Tree} (hs : Owns s site.owner.id)
    (h : site.recordMember node s = (.ok record, t)) :
    Records site.owner.id (site.membersOf node) record s t := by
  revert h
  unfold recordMember membersOf
  cases node.kind
  case fieldDecl => exact records_recordFields hs
  case enumConstant => exact records_recordEnumConstant hs
  case methodDecl => exact records_recordFunction hs
  case constructorDecl => exact records_recordFunction hs
  case initializer => exact records_recordFunction hs
  all_goals
    intro h
    cases h
    exact records_nothing (Guarantee.refl _)

/-- No member comes in with the supertypes. -/
theorem takesIn_recordSupertypes (h : site.recordSupertypes s = (.ok (), t)) :
    Graph.TakesIn [] [] s.store.graph t.store.graph := by
  have hupdate : ∀ superclass interfaces,
      Keeps (ScanState.OnGraph (Graph.TakesIn [] [])) (ScanState.onGraph <|
        Graph.updateType site.owner.id fun type => { type with superclass, interfaces }) :=
    fun superclass interfaces => takesIn_onGraph (Graph.takesIn_updateType site.owner.id
      (fun _ => rfl) (fun _ => rfl) (fun _ => rfl) (fun _ => rfl) (fun _ => rfl) fun _ => rfl)
  unfold recordSupertypes at h
  exact takesIn_of_run h

/-- All members of a known type. -/
theorem records_recordMembers (hs : Owns s site.owner.id)
    (h : site.recordMembers s = (.ok record, t)) :
    Records site.owner.id site.allMembers record s t := by
  obtain ⟨_, s₁, hsuper, h⟩ := ok_of_bind h
  obtain ⟨_, s₂, ha, h⟩ := ok_of_bind h
  have htakes := (takesIn_recordSupertypes hsuper).append (takesIn_of_run ha)
  unfold allMembers
  cases hb : site.owner.body? with
  | none =>
    rw [hb] at h
    cases h
    exact records_nothing htakes
  | some body =>
    rw [hb] at h
    obtain ⟨records, s₃, hm, h⟩ := ok_of_bind h
    cases h
    exact (records_mapEach (fun hs h => records_recordMember hs h) (hs.mono htakes) hm).after htakes

end ReferenceSite

end JavaGraph
