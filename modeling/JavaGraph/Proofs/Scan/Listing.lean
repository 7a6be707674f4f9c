import JavaGraph.Proofs.Parser.FormingMembers
import JavaGraph.Proofs.Scan.Refused
/-!
# Members in their order

The functions of a type are the methods, constructors and initialisers of its body, and its fields
are the enum constants and the variables that are declared with a well-formed type. A function has
the parameters that have a name and a well-formed type. All are listed in the order they are written
in, however the types of the file are nested, and nothing else is.
-/

namespace JavaGraph

open List (Forall₂)
open JavaGraph.Action

/-! ### Functions -/

/-- A parameter of a function is in a graph as it is written. -/
def Graph.ListsParameter (graph : Graph) (function : FunctionId) (place : ParameterId)
    (node : Tree) : Prop :=
  ∃ z, graph.parameters.get? place = some z ∧ z.function = function ∧
    node.declaredName?.map (·.text) = some z.name ∧ z.isVarargs = node.hasChildToken .ellipsis

namespace ReferenceSite

variable (site : ReferenceSite) {s t u : ScanState} {member node : Tree}

/-- A function is in a graph as it is written, under its type. In order, its parameters are those
that have a name and a well-formed type. -/
def ListsFunction (graph : Graph) (function : FunctionId) (node : Tree) : Prop :=
  ∃ y, graph.functions.get? function = some y ∧ y.declaringType = site.owner.id ∧
    functionHead? node = some (y.kind, y.name) ∧ y.span = .between node.line node.lastLine ∧
    Forall₂ (graph.ListsParameter function) y.parameters (site.listedVariables node)

/-- A field is in a graph as it is written, under its type. -/
def ListsField (graph : Graph) (field : FieldId) (node : Tree) : Prop :=
  ∃ y, graph.fields.get? field = some y ∧ y.declaringType = site.owner.id ∧
    node.declaredName?.map (·.text) = some y.name ∧ y.line = node.line

/-- Between two states, some nodes of the body are recorded: the functions among them are listed
last in the type, in order, and the types of variables that are left out are refused. -/
structure Lists (nodes : List Tree) (s t : ScanState) : Prop where
  keeps : Graph.KeepsMembers s.store.graph t.store.graph
  functions : ∀ {x}, s.store.graph.types.get? site.owner.id = some x →
    ∃ y ids, t.store.graph.types.get? site.owner.id = some y ∧ y.functions = x.functions ++ ids ∧
      Forall₂ (site.ListsFunction t.store.graph) ids (nodes.filter (·.kind.isFunction))
  refuses : ScanState.Refuses site.source.file (nodes.flatMap site.malformedTypes) s t

variable {site} {graph after : Graph} {nodes more : List Tree} {record : MemberRecord}

/-- A function stays as it is. -/
theorem ListsFunction.mono {function : FunctionId} (h : site.ListsFunction graph function node)
    (hg : Graph.KeepsMembers graph after) : site.ListsFunction after function node := by
  obtain ⟨y, hy, hd, hhead, hspan, hparameters⟩ := h
  refine ⟨y, hg.function hy, hd, hhead, hspan, hparameters.imp ?_⟩
  rintro place parameter ⟨z, hz, hrest⟩
  exact ⟨z, hg.parameter hz, hrest⟩

/-- A field stays as it is. -/
theorem ListsField.mono {field : FieldId} (h : site.ListsField graph field node)
    (hg : Graph.KeepsMembers graph after) : site.ListsField after field node := by
  obtain ⟨y, hy, hrest⟩ := h
  exact ⟨y, hg.field hy, hrest⟩

/-- Nothing of the body is recorded, and no function of the type comes in. -/
private theorem lists_nothing {members : List (TypeId × RecordedMember)} {uses : List Access}
    (h : Graph.TakesIn members uses s.store.graph t.store.graph)
    (hf : Graph.functionsIn site.owner.id members = []) (ht : ScanState.Tells s t) :
    site.Lists [] s t where
  keeps := h.toKeepsMembers
  functions hx := by
    obtain ⟨y, hy, -, -, -, -, hfunctions, -⟩ := h.type hx
    rw [hf] at hfunctions
    exact ⟨y, [], hy, hfunctions, .nil⟩
  refuses := ScanState.refuses_nothing ht

/-- Nodes are recorded after others. -/
theorem Lists.append (h : site.Lists nodes s t) (h' : site.Lists more t u) :
    site.Lists (nodes ++ more) s u where
  keeps := h.keeps.trans h'.keeps
  functions hx := by
    obtain ⟨y, ids, hy, hids, hall⟩ := h.functions hx
    obtain ⟨z, others, hz, hothers, hrest⟩ := h'.functions hy
    refine ⟨z, ids ++ others, hz, by rw [hothers, hids, List.append_assoc], ?_⟩
    rw [List.filter_append]
    exact List.rel_append (hall.imp fun _ _ hl => hl.mono h'.keeps) hrest
  refuses := by
    rw [List.flatMap_append]
    exact h.refuses.append h'.refuses

/-- Nothing of the body is recorded behind. -/
private theorem Lists.before (h : site.Lists nodes s t) (h' : site.Lists [] t u) :
    site.Lists nodes s u := by
  have := h.append h'
  rwa [List.append_nil] at this

/-- A function is added with its parameters, once what is written of it has been looked at. -/
private theorem lists_addFunction {function : Function} {heads : List ParameterHead}
    {id : FunctionId} (hs : Owns s site.owner.id)
    (htakes : Graph.TakesIn [] [] s.store.graph t.store.graph)
    (hrefuses : ScanState.Refuses site.source.file (site.malformedTypes member) s t)
    (hheads : Forall₂ ParameterHead.ReadOff heads (site.listedVariables member))
    (hk : member.kind.isFunction = true) (hd : function.declaringType = site.owner.id)
    (hp : function.parameters = [])
    (hhead : functionHead? member = some (function.kind, function.name))
    (hspan : function.span = .between member.line member.lastLine)
    (h : ScanState.onGraph (do
      let id ← Graph.addFunction function
      addParameters id heads
      return id) t = (.ok id, u)) : site.Lists [member] s u := by
  have htells := ScanState.tells_of_run h
  obtain ⟨x, hx⟩ := hs.mono htakes
  rw [← hd] at hx
  obtain ⟨after, places, hrun, hrecorded, -, -, hget, hall⟩ :=
    Graph.addFunction_parameters heads hx hp
  rw [ScanState.onGraph_run hrun] at h
  cases h
  have hplaces : Forall₂ (fun (head : ParameterHead) place => ∃ index,
      after.parameters.get? place =
        some (head.parameter t.store.graph.functions.nextId index)) heads places := by
    rw [← List.zipIdx_map_fst 0 heads, List.forall₂_map_left_iff]
    exact hall.imp fun _ _ hz => ⟨_, hz⟩
  have hlists : site.ListsFunction after t.store.graph.functions.nextId member := by
    refine ⟨_, hget, hd, hhead, hspan, forall₂_both ?_ hplaces hheads⟩
    rintro head place parameter ⟨index, hz⟩ ⟨hname, hvarargs⟩
    exact ⟨_, hz, rfl, hname, hvarargs⟩
  refine ⟨htakes.toKeepsMembers.trans ⟨hrecorded.field, hrecorded.function, hrecorded.parameter⟩,
    fun {y} hy => ?_, ?_⟩
  · obtain ⟨z, hz, -, -, -, -, hfunctions, -⟩ := htakes.type hy
    rw [← hd] at hz
    refine ⟨_, [t.store.graph.functions.nextId], hd ▸ hrecorded.get?_self hz, ?_, ?_⟩
    · exact congrArg (· ++ _) (hfunctions.trans (List.append_nil _))
    · simp only [List.filter_singleton, hk]
      exact .cons hlists .nil
  · rw [List.flatMap_singleton]
    exact hrefuses.before htells

/-- A function is listed, and the types of parameters that are left out are refused. -/
private theorem lists_recordFunction (hs : Owns s site.owner.id)
    (hk : member.kind.isFunction = true) (hf : member.Formed)
    (hhead : (functionHead? member).isSome = true)
    (h : site.recordFunction member s = (.ok record, t)) : site.Lists [member] s t := by
  obtain ⟨⟨kind, name⟩, hhead⟩ := Option.isSome_iff_exists.1 hhead
  obtain ⟨_, s₁, ha, h⟩ := ok_of_bind h
  obtain ⟨names, s₂, hnames, h⟩ := ok_of_bind h
  have htakes := (takesIn_of_run ha).append (takesIn_of_run hnames)
  have htells := (ScanState.tells_of_run ha).trans (ScanState.tells_of_run hnames)
  obtain rfl := eq_functionVariables hnames
  rw [hhead] at h
  obtain ⟨returns, s₃, hreturns, h⟩ := ok_of_ite_bind h
  have htakes := htakes.append (show Graph.TakesIn [] [] s₂.store.graph s₃.store.graph by
    split at hreturns <;> exact takesIn_of_run hreturns)
  have htells := htells.trans (show ScanState.Tells s₂ s₃ by
    split at hreturns <;> exact ScanState.tells_of_run hreturns)
  obtain ⟨heads, s₄, hheads, h⟩ := ok_of_bind h
  have htakes := htakes.append (takesIn_of_run hheads)
  rw [← Tree.memberVariables_of_isFunction hk] at hheads
  obtain ⟨hlisted, hrefuses⟩ := refuses_parameterHeads hk hf hheads
  -- Whether or not anything is thrown, the rest is the same.
  cases hc : member.childOfKind? .throwsClause <;> rw [hc] at h
  all_goals
    obtain ⟨throws, s₅, hthrows, h⟩ := ok_of_bind h
    obtain ⟨displays, s₆, hd, h⟩ := ok_of_bind h
    cases hd
    obtain ⟨id, s₆, hadd, h⟩ := ok_of_bind h
    cases h
    exact lists_addFunction hs (htakes.append (takesIn_of_run hthrows))
      ((hrefuses.before (ScanState.tells_of_run hthrows)).after htells) hlisted hk rfl rfl hhead rfl
      hadd

/-- A member that is no function is listed as none. -/
private theorem lists_of_records {written : List Member} (hk : member.kind.isFunction = false)
    (hw : ∀ node, .function node ∉ written) (h : Records site.owner.id written record s t)
    (hrefuses : ScanState.Refuses site.source.file (site.malformedTypes member) s t) :
    site.Lists [member] s t where
  keeps := by
    obtain ⟨members, -, -, htakes⟩ := h
    exact htakes.toKeepsMembers
  functions hx := by
    obtain ⟨members, rfl, -, htakes⟩ := h
    obtain ⟨y, hy, -, -, -, -, hfunctions, -⟩ := htakes.type hx
    have hnone : Graph.functionsIn site.owner.id (members.map (site.owner.id, ·)) = [] := by
      refine List.filterMap_eq_nil_iff.2 fun pair hp => ?_
      obtain ⟨recorded, hm, rfl⟩ := List.mem_map.1 (List.mem_of_mem_filter hp)
      cases recorded with
      | field id node value? => rfl
      | function id node parameters => exact absurd (List.mem_map.2 ⟨_, hm, rfl⟩) (hw node)
    rw [hnone] at hfunctions
    refine ⟨y, [], hy, hfunctions, ?_⟩
    simp only [List.filter_singleton, hk]
    exact .nil
  refuses := by
    rw [List.flatMap_singleton]
    exact hrefuses

/-- A node of a body that is neither a function nor declares fields leaves out nothing. -/
private theorem refuses_recordMember (hk : member.kind.isFunction = false)
    (hf : member.Formed) (hs : member.Shaped)
    (h : site.recordMember member s = (.ok record, t)) :
    ScanState.Refuses site.source.file (site.malformedTypes member) s t := by
  by_cases hfield : member.kind = .fieldDecl
  · unfold recordMember at h
    rw [hfield] at h
    exact refuses_recordFields hfield hf hs h
  · have hnone : site.malformedTypes member = [] := by
      unfold NodeKind.isFunction at hk
      unfold malformedTypes Tree.typedVariables
      revert hk hfield
      cases member.kind <;> first | exact fun _ _ => rfl | simp
    rw [hnone]
    exact ScanState.refuses_nothing (ScanState.tells_of_run h)

/-- No field is a function. -/
private theorem not_mem_fieldMembers : .function node ∉ site.fieldMembers member := by
  unfold fieldMembers
  split
  · exact List.not_mem_nil
  · intro hm
    obtain ⟨declarator, -, hm⟩ := List.mem_flatMap.1 hm
    split at hm
    · cases List.mem_singleton.1 hm
    · cases hm

/-- A node that is not written as a function is none. -/
private theorem not_mem_membersOf (hk : member.kind.isFunction = false) :
    .function node ∉ site.membersOf member := by
  unfold NodeKind.isFunction at hk
  unfold membersOf
  revert hk
  cases member.kind
  case fieldDecl => exact fun _ => not_mem_fieldMembers
  case enumConstant =>
    intro _ hm
    dsimp only at hm
    split at hm
    · cases List.mem_singleton.1 hm
    · cases hm
  all_goals exact nofun

/-- Every node that is written as a function is one. -/
private theorem isSome_functionHead? (hk : member.kind.isFunction = true) (hs : member.Shaped) :
    (functionHead? member).isSome = true := by
  unfold functionHead?
  cases hkind : member.kind
  case methodDecl =>
    dsimp only
    rw [Option.isSome_map]
    exact hs.childToken?_ident (by rw [hkind]; simp [Rule.ofKind])
  case constructorDecl => rfl
  case initializer => rfl
  all_goals
    rw [hkind] at hk
    cases hk

/-- A node of a body is listed as the function that it is, and the types of variables that are left
out are refused. -/
private theorem lists_recordMember (hs : Owns s site.owner.id) (hf : member.Formed)
    (hshaped : member.Shaped) (h : site.recordMember member s = (.ok record, t)) :
    site.Lists [member] s t := by
  cases hk : member.kind.isFunction with
  | false =>
    exact lists_of_records hk (fun _ => not_mem_membersOf hk) (records_recordMember hs h)
      (refuses_recordMember hk hf hshaped h)
  | true =>
    have hrun : site.recordFunction member s = (.ok record, t) := by
      unfold NodeKind.isFunction at hk
      unfold recordMember at h
      revert h hk
      cases member.kind <;> first | exact fun h _ => h | exact fun _ => nofun
    exact lists_recordFunction hs hk hf (isSome_functionHead? hk hshaped) hrun

/-- The nodes of a body are listed. -/
private theorem lists_mapEach : ∀ {nodes : List Tree} {s t : ScanState} {records},
    Owns s site.owner.id → (∀ node ∈ nodes, node.Formed ∧ node.Shaped) →
    Action.mapEach nodes site.recordMember s = (.ok records, t) → site.Lists nodes s t
  | [], s, t, records, _, _, h => by
    cases h
    exact lists_nothing (Guarantee.refl _ : Graph.TakesIn [] [] s.store.graph s.store.graph) rfl
      (List.prefix_refl _)
  | node :: rest, s, t, records, hs, hall, h => by
    rw [List.forall_mem_cons] at hall
    obtain ⟨first, m, hfirst, h⟩ := ok_of_bind h
    obtain ⟨others, m', hothers, h⟩ := ok_of_bind h
    cases h
    obtain ⟨members, -, -, htakes⟩ := records_recordMember hs hfirst
    exact (lists_recordMember hs hall.1.1 hall.1.2 hfirst).append
      (lists_mapEach (hs.mono htakes) hall.2 hothers)

/-- The body of a type is listed. -/
private theorem lists_recordMembers (hs : Owns s site.owner.id) {body : Tree}
    (hb : site.owner.body? = some body)
    (hall : ∀ node ∈ body.children, node.Formed ∧ node.Shaped)
    (h : site.recordMembers s = (.ok record, t)) : site.Lists body.children s t := by
  obtain ⟨_, s₁, hsuper, h⟩ := ok_of_bind h
  obtain ⟨_, s₂, ha, h⟩ := ok_of_bind h
  have htakes := (takesIn_recordSupertypes hsuper).append (takesIn_of_run ha)
  have htells := (ScanState.tells_of_run hsuper).trans (ScanState.tells_of_run ha)
  rw [hb] at h
  obtain ⟨records, s₃, hm, h⟩ := ok_of_bind h
  cases h
  exact (lists_nothing htakes rfl htells).append (lists_mapEach (hs.mono htakes) hall hm)

/-! ### Fields -/

/-- The fields among some members. -/
private def fieldsAmong (members : List Member) : List Tree :=
  members.filterMap fun
    | .field node _ => some node
    | .function _ => none

/-- Of some declarators with names, all are fields if the type is well formed, and else none. -/
private theorem fieldsAmong_declarators (typeRef : Tree) {declarators : List Tree}
    (h : ∀ declarator ∈ declarators, declarator.declaredName?.isSome = true) :
    fieldsAmong (declarators.flatMap fun declarator =>
        if declarator.declaredName?.isSome && site.isTyped typeRef then
          [.field declarator declarator.nodes.head?]
        else []) =
      ((declarators.map (·, typeRef)).filter fun typed => site.isWellFormed [] typed.2).map
        (·.1) := by
  have htyped : site.isWellFormed [] typeRef = site.isTyped typeRef := rfl
  induction declarators with
  | nil => rfl
  | cons declarator rest ih =>
    rw [List.forall_mem_cons] at h
    unfold fieldsAmong at ih ⊢
    rw [List.flatMap_cons, List.filterMap_append, ih h.2, h.1, Bool.true_and, List.map_cons,
      List.filter_cons, htyped]
    cases site.isTyped typeRef <;> rfl

/-- A node of a body is written as the fields that it declares. -/
private theorem fieldsAmong_membersOf (hs : member.Shaped) :
    fieldsAmong (site.membersOf member) = site.fieldNodes member := by
  unfold membersOf fieldNodes
  cases hk : member.kind
  case enumConstant =>
    have hw : member.declaredName?.isSome = true :=
      hs.childToken?_ident (by rw [hk]; simp [Rule.ofKind])
    dsimp only
    rw [if_pos hw]
    rfl
  case fieldDecl =>
    unfold fieldMembers listedVariables Tree.typedVariables Tree.memberVariables
    rw [hk]
    dsimp only
    cases member.childOfKind? .typeRef with
    | none => rfl
    | some typeRef =>
      refine fieldsAmong_declarators typeRef fun declarator hd => ?_
      obtain ⟨hm, hdk⟩ := List.mem_filter.1 hd
      have hshaped : declarator.Shaped := hs.of_mem hm
      exact hshaped.childToken?_ident (by rw [eq_of_beq hdk]; simp [Rule.ofKind])
  case methodDecl => dsimp only; split <;> rfl
  case constructorDecl => dsimp only; split <;> rfl
  case initializer => dsimp only; split <;> rfl
  all_goals rfl

/-- The fields of a body are those that its nodes declare. -/
private theorem fieldsAmong_allMembers {body : Tree} (hb : site.owner.body? = some body)
    (hs : ∀ node ∈ body.children, node.Shaped) :
    fieldsAmong site.allMembers = body.children.flatMap site.fieldNodes := by
  unfold allMembers fieldsAmong
  rw [hb]
  dsimp only
  rw [List.filterMap_flatMap]
  exact List.flatMap_congr fun node hm => fieldsAmong_membersOf (hs node hm)

/-- The fields that are recorded are those that are written, in order. -/
private theorem forall₂_fields {members : List RecordedMember} :
    (∀ member ∈ members, member.Known graph site.owner.id) →
    Forall₂ (site.ListsField graph) (members.filterMap (·.fieldId?))
      (fieldsAmong (members.map (·.written))) := by
  induction members with
  | nil => exact fun _ => .nil
  | cons member rest ih =>
    intro h
    rw [List.forall_mem_cons] at h
    cases member with
    | field id node value? =>
      obtain ⟨y, hy, hd, hn, hl⟩ := h.1
      exact .cons ⟨y, hy, hd, hn, hl⟩ (ih h.2)
    | function id node parameters => exact ih h.2

end ReferenceSite

/-! ### Types -/

namespace Declarations.ReadSteps

open ReferenceSite (Owns)

variable {source : SourceUnit} {declared : Declarations} {recordAccesses : Bool}
  {found : List TypeMembers} {s m m' t : ScanState}

/-- Members of other types bring in no function. -/
private theorem functionsIn_eq_nil {id : TypeId} {members : List (TypeId × RecordedMember)}
    (h : ∀ member ∈ members, member.1 ≠ id) : Graph.functionsIn id members = [] := by
  unfold Graph.functionsIn
  rw [List.filter_eq_nil_iff.2 fun member hm => by simpa using h member hm]
  rfl

/-- The second pass over some types. -/
private theorem lists_types : ∀ {types : List DeclaredType} {s t : ScanState} {records},
    (∀ type ∈ types, Owns s type.id) → (types.map (·.id)).Nodup →
    (∀ type ∈ types, ∀ body, type.body? = some body →
      ∀ node ∈ body.children, node.Formed ∧ node.Shaped) →
    (Action.mapEach types fun owner => do
      return ({ type := owner
                members := ← ReferenceSite.recordMembers ⟨source, declared, owner⟩ } : TypeRecord))
        s = (.ok records, t) →
    (∃ members, Graph.TakesIn members [] s.store.graph t.store.graph ∧
      ∀ member ∈ members, member.1 ∈ types.map (·.id)) ∧
    ∀ type ∈ types, ∀ body, type.body? = some body →
      ReferenceSite.Lists ⟨source, declared, type⟩ body.children s t
  | [], s, t, records, _, _, _, h => by
    cases h
    exact ⟨⟨[], (Guarantee.refl _ : Graph.TakesIn [] [] s.store.graph s.store.graph),
      List.forall_mem_nil _⟩, List.forall_mem_nil _⟩
  | type :: rest, s, t, records, hs, hd, hall, h => by
    rw [List.forall_mem_cons] at hs hall
    rw [List.map_cons, List.nodup_cons] at hd
    obtain ⟨first, m, hfirst, h⟩ := ok_of_bind h
    obtain ⟨record, m, hr, hp⟩ := ok_of_bind hfirst
    cases hp
    obtain ⟨others, m', hothers, h⟩ := ok_of_bind h
    cases h
    obtain ⟨members, -, -, htakes⟩ := ReferenceSite.records_recordMembers hs.1 hr
    obtain ⟨⟨more, hmore, howners⟩, hrest⟩ :=
      lists_types (fun other ho => (hs.2 other ho).mono htakes) hd.2 hall.2 hothers
    -- What comes in with one type belongs to it, so no other type gets a function by it.
    have hown : ∀ member ∈ members.map (type.id, ·), member.1 = type.id := by
      intro member hm
      obtain ⟨_, -, rfl⟩ := List.mem_map.1 hm
      rfl
    refine ⟨⟨_, htakes.append hmore, List.forall_mem_append.2 ⟨fun member hm => ?_,
      fun member hm => List.mem_cons_of_mem _ (howners member hm)⟩⟩,
      List.forall_mem_cons.2 ⟨fun body hb => ?_, fun other ho body hb => ?_⟩⟩
    · rw [hown member hm]
      exact List.mem_cons_self ..
    · have hnone : Graph.functionsIn type.id more = [] :=
        functionsIn_eq_nil fun member hm he => hd.1 (he ▸ howners member hm)
      exact (ReferenceSite.lists_recordMembers hs.1 hb (hall.1 body hb) hr).before
        (ReferenceSite.lists_nothing hmore hnone (ScanState.tells_of_run hothers))
    · have hnone : Graph.functionsIn other.id (members.map (type.id, ·)) = [] :=
        functionsIn_eq_nil fun member hm he =>
          hd.1 (hown member hm ▸ he ▸ List.mem_map_of_mem ho)
      exact (ReferenceSite.lists_nothing htakes hnone (ScanState.tells_of_run hr)).append
        (hrest other ho body hb)

/-- When a file is read, the bodies of its types are listed. -/
private theorem lists (h : declared.ReadSteps source recordAccesses found s m m' t)
    (hs : ∀ type ∈ declared.types, Owns s type.id) (hd : (declared.types.map (·.id)).Nodup)
    (hall : ∀ type ∈ declared.types, ∀ body, type.body? = some body →
      ∀ node ∈ body.children, node.Formed ∧ node.Shaped)
    {type : DeclaredType} (ht : type ∈ declared.types) {body : Tree}
    (hb : type.body? = some body) :
    ReferenceSite.Lists ⟨source, declared, type⟩ body.children s t := by
  have hflush := keeps_flush (R := ScanState.Tells) source.unit
    (if recordAccesses then TypeRecord.accesses (found.map (·.record)) else [])
  have htells := (ScanState.tells_of_run h.bodies).trans (ScanState.tells_of_run h.flushed)
  exact ((lists_types hs hd hall h.members).2 type ht body hb).before
    (ReferenceSite.lists_nothing h.takesIn_uses rfl htells)

end Declarations.ReadSteps

/-- In a graph, the members of a declared type are those of its body, in order. -/
structure ReferenceSite.Listed (site : ReferenceSite) (graph : Graph) (x : TypeNode) (body : Tree) :
    Prop where
  known : graph.types.get? site.owner.id = some x
  complete : x.isComplete = true
  functions : Forall₂ (site.ListsFunction graph) x.functions
    (body.children.filter (·.kind.isFunction))
  fields : Forall₂ (site.ListsField graph) x.fields (body.children.flatMap site.fieldNodes)

namespace OpenProject

variable {opened : OpenProject} {config : ScanConfig} {source : SourceText}
  {declared : Declarations} {s : ScanState} {type : DeclaredType} {body : Tree}

/-- The nodes of the body of a declared type are formed and have the right shape. -/
private theorem Contents.formed {found : List TypeMembers} {before : Graph}
    (h : opened.Contents config source declared found before s) (ht : type ∈ declared.types)
    (hb : type.body? = some body) {node : Tree} (hn : node ∈ body.children) :
    node.Formed ∧ node.Shaped := by
  obtain ⟨place, site, hs, -, hnode⟩ := h.site ht
  have hmem : type.node ∈ (parsed config source).root.descendants := by
    rw [hnode]
    refine Tree.mem_descendants_trans _ ?_ site.mem_descendants_typeNode
    obtain rfl | ⟨child, hc, hd⟩ := Tree.mem_descendants_of_at? hs
    · exact Tree.mem_descendants_self _
    · exact Tree.mem_descendants_trans _ (Tree.mem_descendants_of_mem_children hc) hd
  have hformed := formed_root source.text (config.parseOptions source.path)
  exact ⟨(hformed.of_mem_descendants hmem).of_mem_descendants
    (DeclaredType.mem_descendants_of_body? hb hn),
    (DeclaredType.shaped_body (h.shaped type ht).node hb).of_mem hn⟩

/-- The members of a type of a new file are those of its body, and the types of variables that are
left out are refused. -/
theorem listed_passes (hs : opened.Sound) (ht : opened.Tidy)
    (hr : passes config opened source = (.ok declared, s)) (htype : type ∈ declared.types)
    (hb : type.body? = some body) :
    let site : ReferenceSite :=
      ⟨⟨opened.store.graph.units.nextId, opened.fileOf source⟩, declared, type⟩
    (∃ x, site.Listed s.store.graph x body) ∧
      Refused site.source.file (body.children.flatMap site.malformedTypes) s.diagnostics := by
  intro site
  obtain ⟨_, _, hcontents⟩ := contents_passes hs ht hr
  obtain ⟨found, m, m', n, n', hscan, -, howns, hsteps⟩ := readSteps_passes hs hr
  have hmemberless := memberless_scanning hs ht hscan
  have hlists := hsteps.lists howns hcontents.distinct
    (fun type ht body hb node hn => hcontents.formed ht hb hn) htype hb
  obtain ⟨x, hx, hc, -⟩ := hcontents.node type htype
  refine ⟨⟨x, hx, hc, ?_, ?_⟩, ?_⟩
  · obtain ⟨y, hy, -, hnone⟩ := hmemberless type htype
    obtain ⟨z, ids, hz, hids, hall⟩ := hlists.functions hy
    cases hx.symm.trans hz
    rw [hids, hnone]
    exact hall
  · have hinto := hsteps.readInto
    have hfound := htype
    rw [← hinto.types] at hfound
    obtain ⟨one, hone, rfl⟩ := List.mem_map.1 hfound
    obtain ⟨z, hz, hfields, -⟩ := hinto.node hcontents.distinct hmemberless hone
    cases hx.symm.trans hz
    have hnodes : ReferenceSite.fieldsAmong site.allMembers = body.children.flatMap site.fieldNodes :=
      ReferenceSite.fieldsAmong_allMembers hb fun node hn => (hcontents.formed htype hb hn).2
    rw [hfields, ← hnodes, ← hinto.written one hone]
    exact ReferenceSite.forall₂_fields (hinto.known hone)
  · obtain ⟨said, hsaid, refusals, hsub, hall⟩ := hlists.refuses
    rw [hsaid]
    exact ⟨refusals, hsub.trans (List.sublist_append_right _ _), hall⟩

end OpenProject

end JavaGraph
