import Mathlib.Data.List.Find
import JavaGraph.Proofs.Scan.Accesses
import JavaGraph.Proofs.Scan.Members
import JavaGraph.Proofs.Scan.Walk
/-!
# How often functions use fields

The uses of fields that a function makes are those of its own body, so they are counted by the names
that are written there. A name stands for a field of the type or of a type around it.
-/

/-!
## Files whose members are recorded

When the types of a file are declared, the second pass records the members of one type after the
other, the third one records none, and at last the uses of fields come in that all bodies make.
-/

namespace JavaGraph

open JavaGraph.Action

/-! ### What is kept back until the end -/

namespace Graph

/-- References are listed in the types, and no member comes in. -/
theorem takesIn_addDependencies (pairs : List (TypeId × TypeId)) :
    Keeps (TakesIn [] []) (Action.forEach pairs ScanState.addDependency) := by
  have hone : ∀ pair, Keeps (TakesIn [] []) (ScanState.addDependency pair) := by
    intro pair
    refine takesIn_updateType pair.1 ?_ ?_ ?_ ?_ ?_ ?_ <;> intro x <;> split <;> rfl
  infer_instance

/-- Uses of fields come in, one after the other. -/
private theorem takesIn_addAccesses {accesses : List Access} :
    ∀ {graph after : Graph}, Action.forEach accesses addAccess graph = (.ok (), after) →
      TakesIn [] accesses graph after := by
  induction accesses with
  | nil =>
    intro graph after h
    cases h
    exact Guarantee.refl graph
  | cons access rest ih =>
    intro graph after h
    obtain ⟨_, middle, ha, h⟩ := ok_of_bind h
    have hone : TakesIn [] [access] graph middle := by
      obtain ⟨function, _, hf, ha⟩ := ok_of_bind ha
      obtain ⟨field, _, hg, ha⟩ := ok_of_bind ha
      obtain ⟨_, _, hf, hp⟩ := ok_of_bind hf
      cases hp
      obtain ⟨_, _, hg, hp⟩ := ok_of_bind hg
      cases hp
      obtain rfl := (Prod.mk.inj hf).2
      obtain rfl := (Prod.mk.inj hg).2
      cases ha
      refine { (Guarantee.refl graph : TakesIn [] [] graph graph) with accesses := ?_ }
      exact Array.toList_push ..
    exact hone.append (ih h)

end Graph

/-- What was kept back brings in uses of fields and nothing else. -/
private theorem takesIn_flush {accesses : List Access} {s t : ScanState}
    (h : ScanState.flush accesses s = (.ok (), t)) :
    Graph.TakesIn [] accesses s.store.graph t.store.graph := by
  obtain ⟨pairs, _, hr, h⟩ := ok_of_bind h
  cases hr
  obtain ⟨_, m, hd, h⟩ := ok_of_bind h
  have := ReferenceSite.takesIn_onGraph (Graph.takesIn_addDependencies s.dependencies)
  have hpairs := ReferenceSite.takesIn_of_run hd
  cases ha : Action.forEach accesses Graph.addAccess m.store.graph with
  | mk result after =>
    rw [ScanState.onGraph_run ha] at h
    cases h
    exact hpairs.append (Graph.takesIn_addAccesses ha)

/-! ### Files -/

/-- A declared type with its members as they are recorded. -/
structure TypeMembers where
  type : DeclaredType
  members : List RecordedMember

namespace TypeMembers

/-- The record of the type. -/
def record (found : TypeMembers) : TypeRecord := ⟨found.type, RecordedMember.recordOf found.members⟩

/-- The members under their type. -/
def owned (found : TypeMembers) : List (TypeId × RecordedMember) :=
  found.members.map (found.type.id, ·)

end TypeMembers

/-- The members of the types of a file have come in, and the uses of fields that the file makes. -/
structure Declarations.ReadInto (source : SourceUnit) (declared : Declarations)
    (recordAccesses : Bool) (found : List TypeMembers) (before after : Graph) : Prop where
  types : found.map (·.type) = declared.types
  written : ∀ one ∈ found, one.members.map (·.written) =
    ReferenceSite.allMembers ⟨source, declared, one.type⟩
  takesIn : Graph.TakesIn (found.flatMap (·.owned))
    (if recordAccesses then TypeRecord.accesses (found.map (·.record)) else []) before after

open ReferenceSite (Owns)

/-- The second pass over some types. -/
theorem recorded_types {source : SourceUnit} {declared : Declarations}
    {types : List DeclaredType} : ∀ {s t : ScanState} {records : List TypeRecord},
    (∀ type ∈ types, Owns s type.id) →
    (Action.mapEach types fun owner => do
      return ({ type := owner
                members := ← ReferenceSite.recordMembers ⟨source, declared, owner⟩ } : TypeRecord))
        s = (.ok records, t) →
    ∃ found : List TypeMembers, found.map (·.type) = types ∧ records = found.map (·.record) ∧
      (∀ one ∈ found, one.members.map (·.written) =
        ReferenceSite.allMembers ⟨source, declared, one.type⟩) ∧
      Graph.TakesIn (found.flatMap (·.owned)) [] s.store.graph t.store.graph := by
  induction types with
  | nil =>
    intro s t records _ h
    cases h
    exact ⟨[], rfl, rfl, List.forall_mem_nil _,
      (Guarantee.refl _ : Graph.TakesIn [] [] s.store.graph s.store.graph)⟩
  | cons type rest ih =>
    intro s t records hs h
    rw [List.forall_mem_cons] at hs
    obtain ⟨first, m, hfirst, h⟩ := ok_of_bind h
    obtain ⟨record, m, hr, hp⟩ := ok_of_bind hfirst
    cases hp
    obtain ⟨others, m', hothers, h⟩ := ok_of_bind h
    cases h
    obtain ⟨members, hw, rfl, htakes⟩ := ReferenceSite.records_recordMembers hs.1 hr
    obtain ⟨found, rfl, rfl, hwritten, hrest⟩ :=
      ih (fun other ho => (hs.2 other ho).mono htakes) hothers
    exact ⟨⟨type, members⟩ :: found, rfl, rfl, List.forall_mem_cons.2 ⟨hw, hwritten⟩,
      htakes.append hrest⟩

/-- The steps of the second and the third pass: the members of the types are recorded, bodies are
read, and what was kept back enters the graph. -/
structure Declarations.ReadSteps (source : SourceUnit) (declared : Declarations)
    (recordAccesses : Bool) (found : List TypeMembers) (s m m' t : ScanState) : Prop where
  types : found.map (·.type) = declared.types
  written : ∀ one ∈ found, one.members.map (·.written) =
    ReferenceSite.allMembers ⟨source, declared, one.type⟩
  takesIn : Graph.TakesIn (found.flatMap (·.owned)) [] s.store.graph m.store.graph
  members : (Action.mapEach declared.types fun owner => do
    return ({ type := owner
              members := ← ReferenceSite.recordMembers ⟨source, declared, owner⟩ } : TypeRecord))
      s = (.ok (found.map (·.record)), m)
  bodies : (Action.forEach (found.map (·.record)) fun record =>
    Action.forEach record.members.bodies (ReferenceSite.recordBody
      ⟨source, declared, record.type⟩ (record.visibleFields (found.map (·.record))))) m = (.ok (), m')
  flushed : ScanState.flush
    (if recordAccesses then TypeRecord.accesses (found.map (·.record)) else []) m' = (.ok (), t)

/-- The second and the third pass over declared types. -/
theorem readSteps_readTypes {source : SourceUnit} {declared result : Declarations}
    {recordAccesses : Bool} {s t : ScanState} (hs : ∀ type ∈ declared.types, Owns s type.id)
    (h : readTypes recordAccesses source declared s = (.ok result, t)) :
    ∃ found m m', declared.ReadSteps source recordAccesses found s m m' t := by
  obtain ⟨records, m, hr, h⟩ := ok_of_bind h
  obtain ⟨_, m', hb, h⟩ := ok_of_bind h
  obtain ⟨_, m'', hf, h⟩ := ok_of_bind h
  cases h
  obtain ⟨found, htypes, rfl, hwritten, htakes⟩ := recorded_types hs hr
  exact ⟨found, m, m', htypes, hwritten, htakes, hr, hb, hf⟩

/-- Once the members are recorded, nothing but uses of fields comes in. -/
theorem Declarations.ReadSteps.takesIn_uses {source : SourceUnit} {declared : Declarations}
    {recordAccesses : Bool} {found : List TypeMembers} {s m m' t : ScanState}
    (h : declared.ReadSteps source recordAccesses found s m m' t) :
    Graph.TakesIn [] (if recordAccesses then TypeRecord.accesses (found.map (·.record)) else [])
      m.store.graph t.store.graph := by
  have hbodies : Keeps (ScanState.OnGraph (Graph.TakesIn [] []))
      (Action.forEach (found.map (·.record)) fun record =>
        Action.forEach record.members.bodies (ReferenceSite.recordBody
          ⟨source, declared, record.type⟩ (record.visibleFields (found.map (·.record))))) :=
    inferInstance
  have hbodies := hbodies.of_run h.bodies
  exact hbodies.append (takesIn_flush h.flushed)

/-- The second and the third pass record the members of all types. -/
theorem Declarations.ReadSteps.readInto {source : SourceUnit} {declared : Declarations}
    {recordAccesses : Bool} {found : List TypeMembers} {s m m' t : ScanState}
    (h : declared.ReadSteps source recordAccesses found s m m' t) :
    declared.ReadInto source recordAccesses found s.store.graph t.store.graph := by
  refine ⟨h.types, h.written, ?_⟩
  have hall := h.takesIn.append h.takesIn_uses
  rwa [List.append_nil, List.nil_append] at hall

end JavaGraph

/-! ## Uses of fields -/

namespace JavaGraph

open List (Forall₂)
open JavaGraph.Action

namespace Graph

/-- The last field of a type with a name. -/
def lastFieldNamed? (graph : Graph) (id : TypeId) (name : String) : Option FieldId :=
  (graph.types.get? id).bind fun x =>
    x.fields.reverse.find? fun field => (graph.fields.get? field).any (·.name = name)

/-- The last field with a name of the first type among some that has one. -/
def seenFieldNamed? (graph : Graph) (types : List TypeId) (name : String) : Option FieldId :=
  types.findSome? (graph.lastFieldNamed? · name)

end Graph

/-- Whether a node is a method, a constructor or an initialiser. A method without a name is none. -/
def Tree.isFunction (node : Tree) : Bool :=
  match node.kind with
  | .methodDecl | .constructorDecl | .initializer => (ReferenceSite.functionHead? node).isSome
  | _ => false

/-- The functions of a type as they are written. -/
def DeclaredType.functionNodes (type : DeclaredType) : List Tree :=
  match type.body? with
  | none => []
  | some body => body.children.filter Tree.isFunction

/-! ### The members of a type -/

namespace TypeMembers

/-- Of the members of a file, those of a type are those that were recorded of it. -/
private theorem filter_owned {found : List TypeMembers} {one : TypeMembers}
    (hd : (found.map (·.type.id)).Nodup) (ho : one ∈ found) :
    (found.flatMap (·.owned)).filter (·.1 = one.type.id) = one.owned := by
  have hown : ∀ other : TypeMembers, other.owned.filter (·.1 = one.type.id) =
      if other.type.id = one.type.id then other.owned else [] := by
    intro other
    unfold owned
    rw [List.filter_map]
    split
    · next h =>
      rw [List.filter_eq_self.2 fun _ _ => by simpa using h]
    · next h =>
      rw [List.filter_eq_nil_iff.2 fun _ _ => by simpa using h]
      rfl
  have hothers : ∀ rest : List TypeMembers, (∀ other ∈ rest, other.type.id ≠ one.type.id) →
      (rest.flatMap (·.owned)).filter (·.1 = one.type.id) = [] := by
    intro rest h
    rw [List.filter_flatMap, List.flatMap_eq_nil_iff]
    intro other hm
    rw [hown, if_neg (h other hm)]
  induction found with
  | nil => cases ho
  | cons first rest ih =>
    rw [List.map_cons, List.nodup_cons] at hd
    rw [List.flatMap_cons, List.filter_append, hown]
    rcases List.mem_cons.1 ho with rfl | ho
    · rw [if_pos rfl, hothers rest fun other hm he =>
        hd.1 (List.mem_map.2 ⟨other, hm, he⟩), List.append_nil]
    · rw [if_neg fun he => hd.1 (List.mem_map.2 ⟨one, ho, he.symm⟩), ih hd.2 ho, List.nil_append]

end TypeMembers

namespace RecordedMember

variable {graph : Graph} {owner : TypeId} {members : List RecordedMember}

/-- A field is recorded under the name that it has. -/
private theorem fields_recordOf (hk : ∀ member ∈ members, member.Known graph owner) :
    (recordOf members).fields.map (·.2) = members.filterMap (·.fieldId?) ∧
      ∀ pair ∈ (recordOf members).fields,
        ∃ x, graph.fields.get? pair.2 = some x ∧ x.name = pair.1 := by
  unfold recordOf
  constructor
  · rw [List.map_filterMap]
    refine List.filterMap_congr fun member hm => ?_
    have h := hk member hm
    cases member with
    | field id node value? =>
      obtain ⟨x, -, -, hn, -⟩ := h
      obtain ⟨name, hname, -⟩ := Option.map_eq_some_iff.1 hn
      simp only [named?, hname, fieldId?, Option.map_some]
    | function id node parameters => rfl
  · intro pair hp
    obtain ⟨member, hm, hpair⟩ := List.mem_filterMap.1 hp
    have h := hk member hm
    cases member with
    | field id node value? =>
      obtain ⟨x, hx, -, hn, -⟩ := h
      obtain ⟨name, hname, rfl⟩ := Option.map_eq_some_iff.1 hpair
      rw [hname] at hn
      exact ⟨x, hx, (Option.some.inj hn).symm⟩
    | function id node parameters => cases hpair

/-- The recorded field with a name is the last one that the graph has. -/
private theorem field?_recordOf (hk : ∀ member ∈ members, member.Known graph owner)
    (name : String) : (recordOf members).field? name =
      (members.filterMap (·.fieldId?)).reverse.find? fun field =>
        (graph.fields.get? field).any (·.name = name) := by
  obtain ⟨hids, hnames⟩ := fields_recordOf hk
  rw [← hids, ← List.map_reverse, List.find?_map]
  unfold MemberRecord.field?
  congr 1
  refine List.find?_congr fun pair hp => ?_
  obtain ⟨x, hx, hn⟩ := hnames pair (List.mem_reverse.1 hp)
  simp only [Function.comp, hx, Option.any_some, hn]

end RecordedMember

/-! ### What code sees -/

namespace Declarations.ReadInto

variable {source : SourceUnit} {declared : Declarations} {recordAccesses : Bool}
  {found : List TypeMembers} {before after : Graph} {one : TypeMembers}

/-- The types of the file have no members before it is read. -/
def Memberless (declared : Declarations) (before : Graph) : Prop :=
  ∀ type ∈ declared.types, ∃ x, before.types.get? type.id = some x ∧ x.fields = [] ∧ x.functions = []

variable (h : declared.ReadInto source recordAccesses found before after)
include h

/-- The types whose members are recorded are distinct if the declared ones are. -/
private theorem distinct (hd : (declared.types.map (·.id)).Nodup) :
    (found.map (·.type.id)).Nodup := by
  rw [← h.types, List.map_map] at hd
  exact hd

/-- What is recorded of a type is known. -/
theorem known (ho : one ∈ found) :
    ∀ member ∈ one.members, member.Known after one.type.id := by
  intro member hm
  exact h.takesIn.known (one.type.id, member)
    (List.mem_flatMap.2 ⟨one, ho, List.mem_map.2 ⟨member, hm, rfl⟩⟩)

/-- A type has the members that are recorded of it, and no others. -/
theorem node (hd : (declared.types.map (·.id)).Nodup) (hu : Memberless declared before)
    (ho : one ∈ found) : ∃ x, after.types.get? one.type.id = some x ∧
      x.fields = one.members.filterMap (·.fieldId?) ∧
      x.functions = one.members.filterMap (·.functionId?) := by
  have htype : one.type ∈ declared.types := by
    rw [← h.types]
    exact List.mem_map.2 ⟨one, ho, rfl⟩
  obtain ⟨x, hx, hxf, hxg⟩ := hu one.type htype
  obtain ⟨y, hy, -, -, -, hf, hg, -⟩ := h.takesIn.type hx
  have howned := TypeMembers.filter_owned (h.distinct hd) ho
  refine ⟨y, hy, ?_, ?_⟩
  · rw [hf, hxf, List.nil_append, Graph.fieldsIn, howned, TypeMembers.owned, List.filterMap_map]
    rfl
  · rw [hg, hxg, List.nil_append, Graph.functionsIn, howned, TypeMembers.owned, List.filterMap_map]
    rfl

/-- The field of a type that its code finds under a name. -/
private theorem field?_eq (hd : (declared.types.map (·.id)).Nodup)
    (hu : Memberless declared before) (ho : one ∈ found) (name : String) :
    one.record.members.field? name = after.lastFieldNamed? one.type.id name := by
  obtain ⟨x, hx, hf, -⟩ := h.node hd hu ho
  unfold Graph.lastFieldNamed?
  rw [hx, Option.bind_some, hf]
  exact RecordedMember.field?_recordOf (h.known ho) name

/-- The record of a declared type is found. -/
private theorem find?_record {id : TypeId} (hid : id ∈ declared.types.map (·.id)) :
    ∃ one ∈ found, one.type.id = id ∧
      (found.map (·.record)).find? (·.type.id = id) = some one.record := by
  rw [← h.types, List.map_map] at hid
  obtain ⟨one, ho, hid⟩ := List.mem_map.1 hid
  rw [List.find?_map]
  cases hf : found.find? ((fun record : TypeRecord => decide (record.type.id = id)) ∘
      TypeMembers.record) with
  | none =>
    have := List.find?_eq_none.1 hf one ho
    exact absurd (decide_eq_true hid) this
  | some other =>
    exact ⟨other, List.mem_of_find?_eq_some hf, of_decide_eq_true (List.find?_some hf :), rfl⟩

/-- The field that code finds under a name: of the type itself or of one around it. -/
private theorem find?_eq (hd : (declared.types.map (·.id)).Nodup)
    (hu : Memberless declared before) (ho : one ∈ found)
    (hout : ∀ id ∈ one.type.outer, id ∈ declared.types.map (·.id)) (name : String) :
    (one.record.visibleFields (found.map (·.record))).find? name =
      after.seenFieldNamed? (one.type.id :: one.type.outer) name := by
  have houter : ∀ ids : List TypeId, (∀ id ∈ ids, id ∈ declared.types.map (·.id)) →
      (ids.filterMap fun id =>
        ((found.map (·.record)).find? (·.type.id = id)).map (·.members)).findSome?
          (·.field? name) = ids.findSome? (after.lastFieldNamed? · name) := by
    intro ids hids
    induction ids with
    | nil => rfl
    | cons id rest ih =>
      rw [List.forall_mem_cons] at hids
      obtain ⟨other, hm, rfl, hfind⟩ := h.find?_record hids.1
      rw [List.filterMap_cons, hfind, Option.map_some, List.findSome?_cons, List.findSome?_cons,
        ih hids.2, h.field?_eq hd hu hm]
  unfold VisibleFields.find? Graph.seenFieldNamed?
  rw [List.findSome?_cons, List.findSome?_cons]
  unfold TypeRecord.visibleFields
  simp only
  have htype : one.record.type = one.type := rfl
  rw [h.field?_eq hd hu ho, htype, houter _ hout]

end Declarations.ReadInto

/-! ### Fields by their names -/

namespace Graph

variable {graph : Graph} {id : TypeId} {types : List TypeId} {name : String} {field : FieldId}

/-- A field that is found under a name has the name. -/
theorem name_of_lastFieldNamed? (h : graph.lastFieldNamed? id name = some field) :
    ∃ x, graph.fields.get? field = some x ∧ x.name = name := by
  obtain ⟨x, -, hf⟩ := Option.bind_eq_some_iff.1 h
  have hany := List.find?_some hf
  obtain ⟨y, hy, hn⟩ := (Option.any_eq_true ..).1 hany
  exact ⟨y, hy, of_decide_eq_true hn⟩

/-- A field that is seen under a name has the name. -/
theorem name_of_seenFieldNamed? (h : graph.seenFieldNamed? types name = some field) :
    ∃ x, graph.fields.get? field = some x ∧ x.name = name := by
  obtain ⟨id, -, hid⟩ := List.exists_of_findSome?_eq_some h
  exact name_of_lastFieldNamed? hid

end Graph

/-! ### The code of a file -/

/-- Code, and the fields that it sees. -/
structure SightedBody where
  fields : VisibleFields
  body : Body

namespace SightedBody

/-- The code of a file. -/
def ofFile (found : List TypeMembers) : List SightedBody :=
  found.flatMap fun one =>
    one.record.members.bodies.map fun body => ⟨one.record.visibleFields (found.map (·.record)), body⟩

/-- The uses of fields in some code. -/
def accesses (codes : List SightedBody) : List Access :=
  codes.flatMap fun code => code.body.accesses code.fields

/-- The uses of fields by all functions of a file are those in its code. -/
private theorem accesses_ofFile (found : List TypeMembers) :
    accesses (ofFile found) = TypeRecord.accesses (found.map (·.record)) := by
  unfold accesses ofFile TypeRecord.accesses
  rw [List.flatMap_assoc, List.flatMap_map]
  congr 1
  funext one
  rw [List.flatMap_map]

variable {codes : List SightedBody} {code : SightedBody} {function : FunctionId}

/-- Code that belongs to other functions has no uses by a function. -/
private theorem filter_accesses_others (h : ∀ code ∈ codes, code.body.function ≠ some function) :
    (accesses codes).filter (·.function = function) = [] := by
  unfold accesses
  rw [List.filter_flatMap, List.flatMap_eq_nil_iff]
  intro code hm
  rw [List.filter_eq_nil_iff]
  intro access ha
  simp only [decide_eq_true_eq]
  rintro rfl
  exact h code hm (Body.function_of_mem_accesses ha)

/-- The uses of fields by a function are those in the one piece of code that belongs to it. -/
private theorem filter_accesses (hd : (codes.filterMap (·.body.function)).Nodup)
    (hc : code ∈ codes) (hf : code.body.function = some function) :
    (accesses codes).filter (·.function = function) = code.body.accesses code.fields := by
  obtain ⟨first, rest, rfl⟩ := List.append_of_mem hc
  rw [List.filterMap_append, List.filterMap_cons, hf, List.nodup_append] at hd
  obtain ⟨-, hrest, hfirst⟩ := hd
  have hown : (code.body.accesses code.fields).filter (·.function = function) =
      code.body.accesses code.fields := by
    rw [List.filter_eq_self]
    intro access ha
    have := Body.function_of_mem_accesses ha
    rw [hf] at this
    exact decide_eq_true (Option.some.inj this).symm
  have hbefore : (accesses first).filter (·.function = function) = [] := by
    refine filter_accesses_others fun other hm he => ?_
    exact hfirst function (List.mem_filterMap.2 ⟨other, hm, he⟩) function
      (List.mem_cons_self ..) rfl
  have hafter : (accesses rest).filter (·.function = function) = [] := by
    refine filter_accesses_others fun other hm he => ?_
    exact (List.nodup_cons.1 hrest).1 (List.mem_filterMap.2 ⟨other, hm, he⟩)
  unfold accesses at hbefore hafter ⊢
  rw [List.flatMap_append, List.flatMap_cons, List.filter_append, List.filter_append, hbefore,
    hafter, hown, List.nil_append, List.append_nil]

/-- A function has one piece of code at most. -/
private theorem nodup_functions {found : List TypeMembers}
    (hd : ((found.flatMap (·.owned)).map (·.2.key)).Nodup) :
    ((ofFile found).filterMap (·.body.function)).Nodup := by
  have hmembers : (ofFile found).filterMap (·.body.function) =
      (found.flatMap (·.owned)).filterMap fun member => member.2.body?.bind (·.function) := by
    unfold ofFile
    rw [List.filterMap_flatMap, List.filterMap_flatMap]
    congr 1
    funext one
    unfold TypeMembers.owned TypeMembers.record RecordedMember.recordOf
    rw [List.filterMap_map, List.filterMap_map, List.filterMap_filterMap]
    rfl
  have hkey : ∀ {member : RecordedMember} {id : FunctionId},
      member.body?.bind (·.function) = some id → member.key = .inr id := by
    intro member id h
    obtain ⟨body, hb, hf⟩ := Option.bind_eq_some_iff.1 h
    cases member with
    | field _ node value? =>
      obtain ⟨value, -, rfl⟩ := Option.map_eq_some_iff.1 hb
      cases hf
    | function other node parameters =>
      obtain ⟨block, -, rfl⟩ := Option.map_eq_some_iff.1 hb
      cases hf
      rfl
  rw [hmembers]
  unfold List.Nodup
  rw [List.pairwise_filterMap]
  refine (List.pairwise_map.1 hd).imp fun {a b} hne id hid other ho he => ?_
  exact hne ((hkey hid).trans (he ▸ (hkey ho).symm))

end SightedBody

/-! ### Functions -/

/-- Whether a function has a parameter with a name. -/
def Graph.hasParameter (graph : Graph) (function : FunctionId) (name : String) : Bool :=
  (graph.functions.get? function).any fun x =>
    x.parameters.any fun parameter => (graph.parameters.get? parameter).any (·.name = name)

/-- The number of uses of a field of one kind by a function. -/
def Graph.usesBy (graph : Graph) (function : FunctionId) (field : FieldId) (kind : AccessKind) : Nat :=
  (graph.accessesFrom function).countP fun access => access.field = field && access.kind = kind

/-- The accesses of a field by a function in the order in which they are recorded, each with its
line. -/
def Graph.accessesTo (graph : Graph) (function : FunctionId) (field : FieldId) :
    List (Nat × AccessKind) :=
  ((graph.accessesFrom function).filter (·.field = field)).map fun access =>
    (access.line, access.kind)

private theorem Graph.usesBy_eq_countP (graph : Graph) (function : FunctionId) (field : FieldId)
    (kind : AccessKind) :
    graph.usesBy function field kind = (graph.accessesTo function field).countP (·.2 = kind) := by
  unfold usesBy accessesTo
  rw [List.countP_map, List.countP_filter]
  apply List.countP_congr
  simp [and_comm]

namespace Declarations.ReadInto

variable {source : SourceUnit} {declared : Declarations} {recordAccesses : Bool}
  {found : List TypeMembers} {before after : Graph} {one : TypeMembers}

/-- A function accesses a field where the uses of the field's name in its block denote the field. -/
private theorem accessesTo_eq (h : declared.ReadInto source recordAccesses found before after)
    (hd : (declared.types.map (·.id)).Nodup) (hu : Memberless declared before)
    (hk : before.UsesKnown) (ho : one ∈ found)
    (hout : ∀ id ∈ one.type.outer, id ∈ declared.types.map (·.id)) {function : FunctionId}
    {node block : Tree} {parameters : List String}
    (hm : .function function node parameters ∈ one.members)
    (hb : node.childOfKind? .block = some block) (hs : block.Shaped) {field : FieldId} {x : Field}
    (hx : after.fields.get? field = some x) :
    after.accessesTo function field = if recordAccesses then
      NameUse.accessed (after.lastFieldNamed? one.type.id x.name)
        (after.seenFieldNamed? (one.type.id :: one.type.outer) x.name) field
        ((block.codeNodes.filter (BodyEvent.isUse x.name)).zip
          (BodyEvent.usesOf x.name .read (parameters.contains x.name) block).1) else [] := by
  have howned : (one.type.id, RecordedMember.function function node parameters) ∈
      found.flatMap (·.owned) :=
    List.mem_flatMap.2 ⟨one, ho, List.mem_map.2 ⟨_, hm, rfl⟩⟩
  have hnew := hk.accessesFrom h.takesIn.accesses (h.takesIn.fresh _ howned)
  unfold Graph.accessesTo
  rw [hnew]
  cases recordAccesses with
  | false => rfl
  | true =>
    let body : Body := {
      function := some function
      node := block
      locals := parameters
      typeParameters := node.functionVariables }
    let code : SightedBody := ⟨one.record.visibleFields (found.map (·.record)), body⟩
    have hbody : body ∈ one.record.members.bodies := by
      refine List.mem_filterMap.2 ⟨_, hm, ?_⟩
      simp only [RecordedMember.body?, hb, Option.map_some, body]
    have hcode : code ∈ SightedBody.ofFile found :=
      List.mem_flatMap.2 ⟨one, ho, List.mem_map.2 ⟨body, hbody, rfl⟩⟩
    have hown : ∀ other, code.fields.own? other = after.lastFieldNamed? one.type.id other :=
      h.field?_eq hd hu ho
    have hfind : ∀ other, code.fields.find? other =
        after.seenFieldNamed? (one.type.id :: one.type.outer) other := h.find?_eq hd hu ho hout
    have hseen : BodyEvent.SeenAs code.fields x.name field := by
      rintro other hother
      rw [hown, hfind] at hother
      obtain ⟨y, hy, hn⟩ : ∃ y, after.fields.get? field = some y ∧ y.name = other := by
        rcases hother with hother | hother
        · exact Graph.name_of_lastFieldNamed? hother
        · exact Graph.name_of_seenFieldNamed? hother
      cases hx.symm.trans hy
      exact hn.symm
    rw [if_pos rfl, if_pos rfl, ← SightedBody.accesses_ofFile,
      SightedBody.filter_accesses (SightedBody.nodup_functions h.takesIn.distinct) hcode rfl,
      Body.accesses_eq hseen hs rfl, hown, hfind]
    rfl

end Declarations.ReadInto

namespace ReferenceSite

variable {site : ReferenceSite}

/-- The functions among some members. -/
private def functionsAmong (members : List Member) : List Tree :=
  members.filterMap fun
    | .field _ _ => none
    | .function node => some node

/-- A node of a body is a function or none. -/
private theorem functionsAmong_membersOf (node : Tree) :
    functionsAmong (site.membersOf node) = if node.isFunction then [node] else [] := by
  have hfields : functionsAmong (site.fieldMembers node) = [] := by
    unfold functionsAmong fieldMembers
    cases node.childOfKind? .typeRef with
    | none => rfl
    | some typeRef =>
      refine List.filterMap_eq_nil_iff.2 fun member hm => ?_
      obtain ⟨declarator, -, hm⟩ := List.mem_flatMap.1 hm
      split at hm
      · rw [List.mem_singleton.1 hm]
      · cases hm
  unfold membersOf Tree.isFunction
  cases node.kind
  case fieldDecl => exact hfields
  case enumConstant =>
    simp only [Bool.false_eq_true, if_false]
    split <;> rfl
  case methodDecl => dsimp only; split <;> rfl
  case constructorDecl => dsimp only; split <;> rfl
  case initializer => dsimp only; split <;> rfl
  all_goals rfl

/-- The functions that are recorded are those that are written, in order. -/
private theorem forall₂_functions (members : List RecordedMember) :
    Forall₂ (fun function node => ∃ parameters,
        RecordedMember.function function node parameters ∈ members)
      (members.filterMap (·.functionId?)) (functionsAmong (members.map (·.written))) := by
  induction members with
  | nil => exact .nil
  | cons member rest ih =>
    have hrest := ih.imp fun function node ⟨parameters, hm⟩ =>
      (⟨parameters, List.mem_cons_of_mem member hm⟩ : ∃ parameters,
        RecordedMember.function function node parameters ∈ member :: rest)
    cases member with
    | field id node value? => exact hrest
    | function id node parameters => exact .cons ⟨parameters, List.mem_cons_self ..⟩ hrest

/-- The functions of a type are those among its members. -/
theorem functionNodes_eq (site : ReferenceSite) :
    site.owner.functionNodes = functionsAmong site.allMembers := by
  unfold DeclaredType.functionNodes allMembers
  cases site.owner.body? with
  | none => rfl
  | some body =>
    have hall : functionsAmong (body.children.flatMap site.membersOf) =
        body.children.flatMap fun node => functionsAmong (site.membersOf node) :=
      List.filterMap_flatMap ..
    dsimp only
    rw [hall]
    simp only [functionsAmong_membersOf]
    induction body.children with
    | nil => rfl
    | cons node rest ih =>
      rw [List.filter_cons, List.flatMap_cons, ← ih]
      cases node.isFunction <;> rfl

end ReferenceSite

/-- How the functions of a type use the fields of the type and of those around it: a function that is
written is in the graph, and accesses a field where the name is written in its block. -/
structure DeclaredType.UsesCounted (type : DeclaredType) (recordAccesses : Bool) (graph : Graph)
    (function : FunctionId) (node : Tree) : Prop where
  declared : ∃ x, graph.functions.get? function = some x ∧ x.declaringType = type.id ∧
    ReferenceSite.functionHead? node = some (x.kind, x.name) ∧
    ∀ parameter ∈ x.parameters, ∃ y, graph.parameters.get? parameter = some y
  shaped : ∀ {block}, node.childOfKind? .block = some block → block.Shaped
  accesses : ∀ {block owner x field y}, node.childOfKind? .block = some block →
    owner ∈ type.id :: type.outer → graph.types.get? owner = some x → field ∈ x.fields →
    graph.fields.get? field = some y →
    graph.accessesTo function field = if recordAccesses then
      NameUse.accessed (graph.lastFieldNamed? type.id y.name)
        (graph.seenFieldNamed? (type.id :: type.outer) y.name) field
        ((block.codeNodes.filter (BodyEvent.isUse y.name)).zip
          (BodyEvent.usesOf y.name .read (graph.hasParameter function y.name) block).1) else []

/-- The uses of fields are counted by the names in the block. -/
theorem DeclaredType.UsesCounted.count {type : DeclaredType} {recordAccesses : Bool} {graph : Graph}
    {function : FunctionId} {node block : Tree} {owner : TypeId} {x : TypeNode} {field : FieldId}
    {y : Field} (h : type.UsesCounted recordAccesses graph function node)
    (hb : node.childOfKind? .block = some block) (howner : owner ∈ type.id :: type.outer)
    (hx : graph.types.get? owner = some x) (hf : field ∈ x.fields)
    (hy : graph.fields.get? field = some y) (kind : AccessKind) :
    graph.usesBy function field kind = if recordAccesses then
      NameUse.count (graph.lastFieldNamed? type.id y.name)
        (graph.seenFieldNamed? (type.id :: type.outer) y.name) field kind
        (BodyEvent.usesOf y.name .read (graph.hasParameter function y.name) block).1 else 0 := by
  rw [Graph.usesBy_eq_countP, h.accesses hb howner hx hf hy]
  cases recordAccesses with
  | false => rfl
  | true =>
    rw [if_pos rfl, if_pos rfl]
    apply NameUse.countP_accessed
    rw [BodyEvent.length_usesOf block (h.shaped hb), List.countP_eq_length_filter]

/-- The body of a type has the shape of the tree that it is in. -/
theorem DeclaredType.shaped_body {type : DeclaredType} {body : Tree} (hs : type.node.Shaped)
    (hb : type.body? = some body) : body.Shaped := by
  unfold body? at hb
  split at hb
  · cases hb
    exact hs
  · rcases Option.or_eq_some_iff.1 hb with h | ⟨-, h⟩ <;>
      exact hs.of_mem (List.mem_of_find?_eq_some h)

/-- The blocks of functions have the shape of the tree that they are in. -/
private theorem DeclaredType.shaped_block {type : DeclaredType} {node block : Tree}
    (hs : type.node.Shaped) (hn : node ∈ type.functionNodes)
    (hb : node.childOfKind? .block = some block) : block.Shaped := by
  unfold functionNodes at hn
  cases hbody : type.body? with
  | none =>
    rw [hbody] at hn
    cases hn
  | some body =>
    rw [hbody] at hn
    exact ((shaped_body hs hbody).of_mem (List.mem_of_mem_filter hn)).of_mem
      (List.mem_of_find?_eq_some hb)

/-- The parameters of a function have the names that they are recorded with. -/
private theorem Graph.hasParameter_eq {graph : Graph} {function : FunctionId} {x : Function}
    {names : List String} (hx : graph.functions.get? function = some x)
    (h : Forall₂ (fun place name => ∃ y, graph.parameters.get? place = some y ∧ y.name = name)
      x.parameters names) (name : String) :
    graph.hasParameter function name = names.contains name := by
  unfold hasParameter
  rw [hx, Option.any_some]
  generalize x.parameters = places at h
  induction h with
  | nil => rfl
  | @cons place first places names hp _ ih =>
    obtain ⟨y, hy, rfl⟩ := hp
    rw [List.any_cons, List.contains_cons, ih, hy, Option.any_some, Bool.beq_comm]
    rfl

namespace Declarations.ReadInto

variable {source : SourceUnit} {declared : Declarations} {recordAccesses : Bool}
  {found : List TypeMembers} {before after : Graph} {type : DeclaredType}

/-- The fields of a declared type are known. -/
theorem fields_known (h : declared.ReadInto source recordAccesses found before after)
    (hd : (declared.types.map (·.id)).Nodup) (hu : Memberless declared before)
    (ht : type ∈ declared.types) : ∃ x, after.types.get? type.id = some x ∧
      ∀ field ∈ x.fields, ∃ y, after.fields.get? field = some y := by
  rw [← h.types] at ht
  obtain ⟨one, ho, rfl⟩ := List.mem_map.1 ht
  obtain ⟨x, hx, hf, -⟩ := h.node hd hu ho
  refine ⟨x, hx, fun field hm => ?_⟩
  rw [hf] at hm
  obtain ⟨member, hmember, hid⟩ := List.mem_filterMap.1 hm
  have hknown := h.known ho member hmember
  cases member with
  | field id node value? =>
    cases hid
    obtain ⟨y, hy, -⟩ := hknown
    exact ⟨y, hy⟩
  | function id node parameters => cases hid

/-- The functions of a declared type are those that are recorded of it, in the order in which they are
written. -/
theorem functions (h : declared.ReadInto source recordAccesses found before after)
    (hd : (declared.types.map (·.id)).Nodup) (hu : Memberless declared before) {one : TypeMembers}
    (ho : one ∈ found) : ∃ x, after.types.get? one.type.id = some x ∧
      Forall₂ (fun function node => node ∈ one.type.functionNodes ∧ ∃ parameters,
        RecordedMember.function function node parameters ∈ one.members)
      x.functions one.type.functionNodes := by
  obtain ⟨x, hx, -, hfunctions⟩ := h.node hd hu ho
  have hnodes : one.type.functionNodes =
      ReferenceSite.functionsAmong (one.members.map (·.written)) := by
    rw [h.written one ho]
    exact ReferenceSite.functionNodes_eq ⟨source, declared, one.type⟩
  refine ⟨x, hx, ?_⟩
  rw [hfunctions, hnodes]
  refine (ReferenceSite.forall₂_functions one.members).imp ?_
  rintro function node ⟨parameters, hm⟩
  refine ⟨?_, parameters, hm⟩
  exact List.mem_filterMap.2 ⟨.function node, List.mem_map.2 ⟨_, hm, rfl⟩, rfl⟩

/-- The uses of fields by all functions of a declared type are counted. -/
theorem usesCounted (h : declared.ReadInto source recordAccesses found before after)
    (hd : (declared.types.map (·.id)).Nodup) (hu : Memberless declared before)
    (hk : before.UsesKnown) (ht : type ∈ declared.types)
    (hout : ∀ id ∈ type.outer, id ∈ declared.types.map (·.id))
    (hs : type.node.Shaped) : ∃ x, after.types.get? type.id = some x ∧
      Forall₂ (type.UsesCounted recordAccesses after) x.functions type.functionNodes := by
  rw [← h.types] at ht
  obtain ⟨one, ho, rfl⟩ := List.mem_map.1 ht
  obtain ⟨x, hx, hfunctions⟩ := h.functions hd hu ho
  refine ⟨x, hx, hfunctions.imp ?_⟩
  rintro function node ⟨hn, parameters, hm⟩
  obtain ⟨y, hy, hdeclaring, hhead, hparameters, -⟩ := h.known ho _ hm
  refine ⟨⟨y, hy, hdeclaring, hhead, fun parameter hp => ?_⟩, DeclaredType.shaped_block hs hn, ?_⟩
  · obtain ⟨-, -, z, hz, -⟩ := mem_of_forall₂ hparameters hp
    exact ⟨z, hz⟩
  intro block _ _ field z hb _ _ _ hz
  rw [h.accessesTo_eq hd hu hk ho hout hm hb (DeclaredType.shaped_block hs hn hb) hz,
    Graph.hasParameter_eq hy hparameters]

end Declarations.ReadInto

end JavaGraph
