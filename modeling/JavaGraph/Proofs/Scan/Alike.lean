import JavaGraph.Proofs.Graph.References
import JavaGraph.Scan.Source
/-!
# What two scans of a file have in common

Two scans of one file meet the same names and the same code, but the nodes of the graph may have
other identifiers. A relation between the identifiers of both is carried over to what a scan puts
together from them; where no identifiers are left, the results are equal.
-/

namespace JavaGraph

open List (Forall₂)
open ReferenceSite (ParameterHead)

/-! ### Types of a file -/

/-- Two declared types differ in identifiers only. -/
structure DeclaredType.Alike (R : TypeId → TypeId → Prop) (a b : DeclaredType) : Prop where
  id : R a.id b.id
  name : a.name = b.name
  sourceName? : a.sourceName? = b.sourceName?
  kind : a.kind = b.kind
  site : a.site = b.site
  outer : Forall₂ R a.outer b.outer

/-- Two files declare types that differ in identifiers only. -/
structure Declarations.Alike (S : DeclaredType → DeclaredType → Prop) (a b : Declarations) :
    Prop where
  header : a.header = b.header
  topLevel : a.topLevel = b.topLevel
  types : Forall₂ S a.types b.types

/-- A weaker relation between declared types. -/
theorem DeclaredType.Alike.imp {R R' : TypeId → TypeId → Prop} (hi : ∀ {a b}, R a b → R' a b)
    {a b : DeclaredType} (h : DeclaredType.Alike R a b) : DeclaredType.Alike R' a b :=
  ⟨hi h.id, h.name, h.sourceName?, h.kind, h.site, h.outer.imp fun _ _ => hi⟩

/-- A weaker relation between the types of files. -/
theorem Declarations.Alike.imp {S S' : DeclaredType → DeclaredType → Prop}
    (hi : ∀ {a b}, S a b → S' a b) {a b : Declarations} (h : Declarations.Alike S a b) :
    Declarations.Alike S' a b :=
  ⟨h.header, h.topLevel, h.types.imp fun _ _ => hi⟩

/-- Two heads of parameters differ in identifiers only. -/
structure ReferenceSite.ParameterHead.Alike (R : TypeId → TypeId → Prop) (a b : ParameterHead) :
    Prop where
  name : a.name = b.name
  typeUse : TypeUse.Alike R a.typeUse b.typeUse
  isVarargs : a.isVarargs = b.isVarargs

/-! ### Names in a file -/

namespace Declarations.Alike

variable {R : TypeId → TypeId → Prop} {S : DeclaredType → DeclaredType → Prop}
variable {declared declared' : Declarations} {owner owner' : DeclaredType}

variable (hR : Injective R) (hS : ∀ {a b}, S a b → DeclaredType.Alike R a b)
  (h : Declarations.Alike S declared declared')
include hR hS h

/-- Related identifiers lead to related types. -/
theorem find? {id id' : TypeId} (hid : R id id') :
    Option.Rel S (declared.find? id) (declared'.find? id') :=
  rel_find? h.types fun hab => by
    have hiff := hR (hS hab).id hid
    simp only [hiff]

/-- The types around related types are related. -/
theorem around (ho : S owner owner') : Forall₂ S (declared.around owner) (declared'.around owner') :=
  .cons ho (forall₂_filterMap (hS ho).outer fun hid => find? hR hS h hid)

/-- The types within related types are related. -/
theorem within (ho : S owner owner') : Forall₂ S (declared.within owner) (declared'.within owner') :=
  forall₂_filter h.types fun hab => by
    have hrel := rel_head? (hS hab).outer
    have hid := (hS ho).id
    rename_i a b
    cases ha : a.outer.head? with
    | none =>
      rw [ha] at hrel
      cases hb : b.outer.head? with
      | none => simp
      | some y => rw [hb] at hrel; cases hrel
    | some x =>
      rw [ha] at hrel
      cases hb : b.outer.head? with
      | none => rw [hb] at hrel; cases hrel
      | some y =>
        rw [hb] at hrel
        cases hrel with
        | some hxy => simp [hR hxy hid]

/-- A simple name stands for the same at related types. -/
theorem nameAt? (ho : S owner owner') (simple : String) :
    declared.nameAt? simple owner = declared'.nameAt? simple owner' := by
  unfold Declarations.nameAt?
  rw [(hS ho).sourceName?, (hS ho).name]
  have hf := forall₂_filter (within hR hS h ho)
    (p := (·.sourceName? = some simple)) (q := (·.sourceName? = some simple))
    fun hab => by rw [(hS hab).sourceName?]
  rw [map_eq_of_rel (rel_getLast? hf) fun hab => (hS hab).name]

/-- Written segments stand for the same name inside related types. -/
theorem qualify (ho : S owner owner') (segments : List String) :
    declared.qualify owner segments = declared'.qualify owner' segments := by
  unfold Declarations.qualify Declarations.qualifiedText Declarations.simpleName?
    Declarations.topLevelName?
  cases segments with
  | nil => rfl
  | cons first rest =>
    simp only
    rw [findSome?_eq_of_forall₂ (around hR hS h ho) fun hab => nameAt? hR hS h hab first,
      h.header, h.topLevel]

/-- The same simple names are type parameters inside related types. -/
theorem isTypeVariable (ho : S owner owner') (others : List String) (simple : String) :
    declared.isTypeVariable owner others simple = declared'.isTypeVariable owner' others simple := by
  unfold Declarations.isTypeVariable
  rw [any_eq_of_forall₂ (around hR hS h ho) (q := (·.typeParameters.contains simple)) fun hab => by
    unfold DeclaredType.typeParameters DeclaredType.node
    rw [(hS hab).site]]

omit hR in
/-- The main types are related. -/
theorem mainType? (path : String) :
    Option.Rel S (declared.mainType? path) (declared'.mainType? path) := by
  have hempty : ∀ {a b}, S a b → a.outer.isEmpty = b.outer.isEmpty := by
    intro a b hab
    have := (hS hab).outer
    cases ha : a.outer <;> cases hb : b.outer <;> simp_all
  have htop := forall₂_filter h.types (p := (·.outer.isEmpty)) (q := (·.outer.isEmpty)) hempty
  unfold Declarations.mainType? DeclaredType.node
  refine rel_or (rel_find? htop fun hab => ?_) (rel_or (rel_find? htop fun hab => ?_)
    (rel_head? htop))
  · rw [(hS hab).sourceName?]
  · rw [(hS hab).site]

end Declarations.Alike

end JavaGraph

/-!
## What two walks over the same code have in common

The events of code depend on the fields that it sees. Where these are related under all names, the
walks over the same code give events that differ in identifiers only, and so do the uses of fields.
-/

namespace JavaGraph

open List (Forall₂)

/-! ### Members -/

/-- Two pieces of code belong to related functions. -/
structure Body.Alike (G : FunctionId → FunctionId → Prop) (a b : Body) : Prop where
  function : Option.Rel G a.function b.function
  node : a.node = b.node
  locals : a.locals = b.locals
  typeParameters : a.typeParameters = b.typeParameters

/-- Two records of members differ in identifiers only. -/
structure MemberRecord.Alike (F : FieldId → FieldId → Prop) (G : FunctionId → FunctionId → Prop)
    (a b : MemberRecord) : Prop where
  fields : Forall₂ (fun x y => x.1 = y.1 ∧ F x.2 y.2) a.fields b.fields
  bodies : Forall₂ (Body.Alike G) a.bodies b.bodies

/-- What is recorded of the members of two types differs in identifiers only. Members are matched
type by type. -/
structure TypeRecord.Alike (S : DeclaredType → DeclaredType → Prop)
    (F : TypeId → FieldId → FieldId → Prop) (G : TypeId → FunctionId → FunctionId → Prop)
    (a b : TypeRecord) : Prop where
  type : S a.type b.type
  members : MemberRecord.Alike (F a.type.id) (G a.type.id) a.members b.members

/-- Two fields are matched as fields of a type or of a type around it. -/
def DeclaredType.Sees (F : TypeId → FieldId → FieldId → Prop) (type : DeclaredType)
    (a b : FieldId) : Prop :=
  ∃ owner ∈ type.id :: type.outer, F owner a b

/-- Two uses of fields differ in identifiers only. The functions belong to related types, and the
fields are those that such a type sees. -/
def Access.Seen (S : DeclaredType → DeclaredType → Prop) (F : TypeId → FieldId → FieldId → Prop)
    (G : TypeId → FunctionId → FunctionId → Prop) (a b : Access) : Prop :=
  ∃ owner owner', S owner owner' ∧ Access.Alike (owner.Sees F) (G owner.id) a b

/-- Code sees related fields under the same names. -/
def VisibleFields.Alike (F : FieldId → FieldId → Prop) (a b : VisibleFields) : Prop :=
  ∀ name, Option.Rel F (a.own? name) (b.own? name) ∧ Option.Rel F (a.find? name) (b.find? name)

/-- Two events differ in identifiers only. -/
inductive BodyEvent.Alike (F : FieldId → FieldId → Prop) : BodyEvent → BodyEvent → Prop where
  | typeRef (node : Tree) : Alike F (.typeRef node) (.typeRef node)
  | annotationUse (node : Tree) : Alike F (.annotationUse node) (.annotationUse node)
  | typeName (token : Token) : Alike F (.typeName token) (.typeName token)
  | access {a b : FieldId} (line : Nat) (kind : AccessKind) :
      F a b → Alike F (.access a line kind) (.access b line kind)

namespace MemberRecord.Alike

variable {F : FieldId → FieldId → Prop} {G : FunctionId → FunctionId → Prop}

/-- No members are alike. -/
protected theorem empty : MemberRecord.Alike F G {} {} := ⟨.nil, .nil⟩

/-- Groups of members are alike together. -/
theorem append {a b c d : MemberRecord} (h : MemberRecord.Alike F G a b)
    (h' : MemberRecord.Alike F G c d) : MemberRecord.Alike F G (a.append c) (b.append d) :=
  ⟨List.rel_append h.fields h'.fields, List.rel_append h.bodies h'.bodies⟩

/-- Groups of members are alike together. -/
theorem join {as bs : List MemberRecord} (h : Forall₂ (MemberRecord.Alike F G) as bs) :
    MemberRecord.Alike F G (.join as) (.join bs) := by
  induction h with
  | nil => exact .empty
  | cons hab hrest ih => exact hab.append ih

/-- The fields of a name are related. -/
theorem field? {a b : MemberRecord} (h : MemberRecord.Alike F G a b) (name : String) :
    Option.Rel F (a.field? name) (b.field? name) := by
  unfold MemberRecord.field?
  have hr := rel_find? (List.forall₂_reverse_iff.2 h.fields) (p := (·.1 = name))
    (q := (·.1 = name)) fun hab => by rw [hab.1]
  exact rel_map hr fun hab => hab.2

/-- A weaker relation between members. -/
theorem imp {F' : FieldId → FieldId → Prop} {G' : FunctionId → FunctionId → Prop}
    (hF : ∀ {a b}, F a b → F' a b) (hG : ∀ {a b}, G a b → G' a b) {a b : MemberRecord}
    (h : MemberRecord.Alike F G a b) : MemberRecord.Alike F' G' a b :=
  ⟨h.fields.imp fun _ _ hab => ⟨hab.1, hF hab.2⟩,
    h.bodies.imp fun _ _ hab =>
      ⟨rel_imp hG hab.function, hab.node, hab.locals, hab.typeParameters⟩⟩

end MemberRecord.Alike

/-- The records of related types are related. -/
private theorem TypeRecord.Alike.find? {R : TypeId → TypeId → Prop}
    {S : DeclaredType → DeclaredType → Prop} {F : TypeId → FieldId → FieldId → Prop}
    {G : TypeId → FunctionId → FunctionId → Prop} (hR : Injective R)
    (hS : ∀ {a b}, S a b → DeclaredType.Alike R a b) {records records' : List TypeRecord}
    (h : Forall₂ (TypeRecord.Alike S F G) records records') {id id' : TypeId} (hid : R id id') :
    Option.Rel (MemberRecord.Alike (F id) (G id))
      ((records.find? (·.type.id = id)).map (·.members))
      ((records'.find? (·.type.id = id')).map (·.members)) := by
  have hfind := rel_find? h (p := (·.type.id = id)) (q := (·.type.id = id')) fun hxy => by
    simp only [hR (hS hxy.type).id hid]
  cases ha : records.find? (·.type.id = id) with
  | none =>
    rw [ha] at hfind
    cases hb : records'.find? (·.type.id = id') with
    | none => exact .none
    | some y =>
      rw [hb] at hfind
      cases hfind
  | some x =>
    rw [ha] at hfind
    have hx : x.type.id = id := by simpa using List.find?_some ha
    cases hb : records'.find? (·.type.id = id') with
    | none =>
      rw [hb] at hfind
      cases hfind
    | some y =>
      rw [hb] at hfind
      cases hfind with
      | some hxy => exact .some (hx ▸ hxy.members)

/-- The code of related types sees related fields. -/
theorem TypeRecord.Alike.visibleFields {R : TypeId → TypeId → Prop}
    {S : DeclaredType → DeclaredType → Prop} {F : TypeId → FieldId → FieldId → Prop}
    {G : TypeId → FunctionId → FunctionId → Prop} (hR : Injective R)
    (hS : ∀ {a b}, S a b → DeclaredType.Alike R a b) {records records' : List TypeRecord}
    (h : Forall₂ (TypeRecord.Alike S F G) records records') {a b : TypeRecord}
    (hab : TypeRecord.Alike S F G a b) :
    VisibleFields.Alike (a.type.Sees F) (a.visibleFields records) (b.visibleFields records') := by
  have hsees : ∀ {owner m m'}, owner ∈ a.type.id :: a.type.outer →
      MemberRecord.Alike (F owner) (G owner) m m' →
      MemberRecord.Alike (a.type.Sees F) (fun _ _ => True) m m' := fun ho hm =>
    hm.imp (fun hxy => ⟨_, ho, hxy⟩) fun _ => trivial
  have houter : Forall₂ (MemberRecord.Alike (a.type.Sees F) fun _ _ => True)
      (a.visibleFields records).outer (b.visibleFields records').outer := by
    refine forall₂_filterMap (List.forall₂_and_left _ _ |>.2
      ⟨fun _ hm => hm, (hS hab.type).outer⟩) fun hid => ?_
    exact rel_imp (fun hm => hsees (List.mem_cons_of_mem _ hid.1) hm)
      (TypeRecord.Alike.find? hR hS h hid.2)
  have hown := hsees (List.mem_cons_self ..) hab.members
  intro name
  refine ⟨hown.field? name, ?_⟩
  exact rel_findSome? (.cons hown houter) fun hxy => hxy.field? name

/-! ### Events -/

namespace BodyEvent

variable {F : FieldId → FieldId → Prop} {fields fields' : VisibleFields}

/-- Two uses of related fields stand in the same line. -/
structure Target.Alike (F : FieldId → FieldId → Prop) (a b : Target) : Prop where
  field : F a.field b.field
  line : a.line = b.line

/-- What two walks over the same code give is alike. -/
structure Walk.Alike (F : FieldId → FieldId → Prop) (a b : Walk) : Prop where
  events : Forall₂ (BodyEvent.Alike F) a.1 b.1
  locals : a.2 = b.2

private theorem rel_target? {a b : Option FieldId} (h : Option.Rel F a b) (line : Nat) :
    Option.Rel (Target.Alike F) (a.map fun field => ⟨field, line⟩)
      (b.map fun field => ⟨field, line⟩) := by
  cases h with
  | none => exact .none
  | some hab => exact .some ⟨hab, rfl⟩

/-- A name denotes related fields. -/
theorem rel_namedTarget? (h : VisibleFields.Alike F fields fields') (locals : List String)
    (node : Tree) :
    Option.Rel (Target.Alike F) (namedTarget? fields locals node)
      (namedTarget? fields' locals node) := by
  unfold namedTarget?
  split
  · split
    · exact .none
    · exact rel_target? (h _).2 _
  · split
    · exact rel_target? (h _).1 _
    · exact .none
  · exact .none

mutual

/-- An expression denotes related fields. -/
theorem rel_target?_of (h : VisibleFields.Alike F fields fields') (locals : List String) :
    ∀ node, Option.Rel (Target.Alike F) (target? fields locals node) (target? fields' locals node)
  | .error _ _ => by
    rw [target?, target?]
    exact .none
  | .node kind anchor extent comments children => by
    rw [target?, target?]
    split
    · exact rel_firstTarget? h locals children
    · exact rel_namedTarget? h locals _

/-- The first composite node denotes related fields. -/
theorem rel_firstTarget? (h : VisibleFields.Alike F fields fields') (locals : List String) :
    ∀ nodes, Option.Rel (Target.Alike F) (firstTarget? fields locals nodes)
      (firstTarget? fields' locals nodes)
  | [] => by
    rw [firstTarget?, firstTarget?]
    exact .none
  | node :: rest => by
    rw [firstTarget?, firstTarget?]
    split
    · exact rel_target?_of h locals node
    · exact rel_firstTarget? h locals rest

end

/-- An expression in front of a dot names the same type. -/
theorem typeTarget?_eq (h : VisibleFields.Alike F fields fields') (locals : List String)
    (node : Tree) : typeTarget? fields locals node = typeTarget? fields' locals node := by
  have hn : ∀ name, (fields.find? name).isNone = (fields'.find? name).isNone := by
    intro name
    have := (h name).2
    cases hf : fields.find? name <;> cases hf' : fields'.find? name <;> simp_all
  unfold typeTarget?
  simp only [hn]

private theorem reads_alike {a b : Target} (h : Target.Alike F a b) :
    Forall₂ (BodyEvent.Alike F) (reads a) (reads b) := by
  unfold reads
  rw [h.line]
  exact .cons (.access _ _ h.field) .nil

private theorem writes_alike {a b : Target} (h : Target.Alike F a b) :
    Forall₂ (BodyEvent.Alike F) (writes a) (writes b) := by
  unfold writes
  rw [h.line]
  exact .cons (.access _ _ h.field) .nil

/-- Walks in sequence are alike together. -/
private theorem Walk.Alike.then {a b : Walk} (h : Walk.Alike F a b) {f g : List String → Walk}
    (hn : ∀ locals, Walk.Alike F (f locals) (g locals)) :
    Walk.Alike F (a.1 ++ (f a.2).1, (f a.2).2) (b.1 ++ (g b.2).1, (g b.2).2) := by
  rw [← h.locals]
  exact ⟨List.rel_append h.events (hn a.2).events, (hn a.2).locals⟩

/-- The same condition tells which of two walks is taken. -/
private theorem Walk.Alike.ite {condition : Prop} [Decidable condition] {a b c d : Walk}
    (hyes : condition → Walk.Alike F a b) (hno : ¬ condition → Walk.Alike F c d) :
    Walk.Alike F (if condition then a else c) (if condition then b else d) := by
  by_cases h : condition
  · rw [if_pos h, if_pos h]
    exact hyes h
  · rw [if_neg h, if_neg h]
    exact hno h

/-- Local variables end with the construct that declares them. -/
private theorem Walk.Alike.closed {condition : Prop} [Decidable condition] {a b : Walk}
    {locals : List String} (h : Walk.Alike F a b) :
    Walk.Alike F (if condition then (a.1, locals) else a) (if condition then (b.1, locals) else b) :=
  .ite (fun _ => ⟨h.events, rfl⟩) fun _ => h

/-- An event of a denoted field, or else the events of something else. -/
private theorem alike_target {events events' : Target → List BodyEvent} {locals : List String}
    {walk walk' : Walk}
    (he : ∀ {x y}, Target.Alike F x y → Forall₂ (BodyEvent.Alike F) (events x) (events' y))
    (hw : Walk.Alike F walk walk') {a b : Option Target} :
    Option.Rel (Target.Alike F) a b →
      Walk.Alike F (match a with | some target => (events target, locals) | none => walk)
        (match b with | some target => (events' target, locals) | none => walk') := by
  intro h
  cases h with
  | none => exact hw
  | some hab => exact ⟨he hab, rfl⟩

mutual

/-- The events of a node are alike. -/
theorem alike_ofNode (h : VisibleFields.Alike F fields fields') (locals : List String) :
    ∀ node, Walk.Alike F (ofNode fields locals node) (ofNode fields' locals node)
  | .error _ _ => by
    rw [ofNode, ofNode]
    exact ⟨.nil, rfl⟩
  | .node kind anchor extent comments children => by
    have hassign := alike_ofAssignment h locals children
    have hqualified := alike_ofQualified h locals children
    have hnodes := fun locals => alike_ofNodes h locals children
    have htarget := rel_target?_of h locals (.node kind anchor extent comments children)
    have hfirst := rel_firstTarget? h locals children
    rw [ofNode, ofNode]
    by_cases hdecl : (kind.isTypeDeclaration || kind = .classBody) = true
    · rw [if_pos hdecl, if_pos hdecl]
      exact ⟨.nil, rfl⟩
    rw [if_neg hdecl, if_neg hdecl]
    by_cases href : kind = .typeRef
    · rw [if_pos href, if_pos href]
      exact ⟨.cons (.typeRef _) .nil, rfl⟩
    rw [if_neg href, if_neg href]
    by_cases hannotation : kind = .annotationUse
    · rw [if_pos hannotation, if_pos hannotation]
      exact ⟨.cons (.annotationUse _) .nil, rfl⟩
    rw [if_neg hannotation, if_neg hannotation]
    refine Walk.Alike.closed ?_
    refine .ite (fun _ => hassign) fun _ => ?_
    refine .ite (fun _ => ?_) fun _ => ?_
    · refine alike_target ?_ (hnodes locals) hfirst
      intro x y hxy
      exact List.rel_append (reads_alike hxy) (writes_alike hxy)
    refine .ite (fun _ => alike_target reads_alike ⟨.nil, rfl⟩ htarget) fun _ => ?_
    refine .ite (fun _ => alike_target reads_alike hqualified htarget) fun _ => ?_
    exact .ite (fun _ => hqualified) fun _ => hnodes _

/-- The events of nodes are alike. -/
theorem alike_ofNodes (h : VisibleFields.Alike F fields fields') (locals : List String) :
    ∀ nodes, Walk.Alike F (ofNodes fields locals nodes) (ofNodes fields' locals nodes)
  | [] => by
    rw [ofNodes, ofNodes]
    exact ⟨.nil, rfl⟩
  | node :: rest => by
    rw [ofNodes, ofNodes]
    exact (alike_ofNode h locals node).then fun locals => alike_ofNodes h locals rest

/-- The events of an expression whose first part may name a type are alike. -/
theorem alike_ofQualified (h : VisibleFields.Alike F fields fields') (locals : List String) :
    ∀ nodes, Walk.Alike F (ofQualified fields locals nodes) (ofQualified fields' locals nodes)
  | [] => by
    rw [ofQualified, ofQualified]
    exact ⟨.nil, rfl⟩
  | node :: rest => by
    have hnode := alike_ofNode h locals node
    have hrest := fun locals => alike_ofNodes h locals rest
    rw [ofQualified, ofQualified, typeTarget?_eq h]
    split
    · refine Walk.Alike.then (f := (ofNodes fields · rest)) (g := (ofNodes fields' · rest)) ?_ hrest
      split
      · exact ⟨.cons (.typeName _) .nil, rfl⟩
      · exact hnode
    · exact alike_ofQualified h locals rest

/-- The events of an assignment are alike. -/
theorem alike_ofAssignment (h : VisibleFields.Alike F fields fields') (locals : List String) :
    ∀ nodes, Walk.Alike F (ofAssignment fields locals nodes) (ofAssignment fields' locals nodes)
  | [] => by
    rw [ofAssignment, ofAssignment]
    exact ⟨.nil, rfl⟩
  | node :: rest => by
    have hnode := alike_ofNode h locals node
    have hrest := fun locals => alike_ofNodes h locals rest
    rw [ofAssignment, ofAssignment]
    refine Walk.Alike.then (f := (ofNodes fields · rest)) (g := (ofNodes fields' · rest)) ?_ hrest
    refine alike_target ?_ hnode (rel_target?_of h locals node)
    intro x y hxy
    refine List.rel_append ?_ (writes_alike hxy)
    split
    · exact .nil
    · exact reads_alike hxy

end

end BodyEvent

/-- The uses of fields in pieces of code that are alike. -/
theorem Body.Alike.accesses {F : FieldId → FieldId → Prop} {G : FunctionId → FunctionId → Prop}
    {fields fields' : VisibleFields} (hf : VisibleFields.Alike F fields fields') {a b : Body}
    (h : Body.Alike G a b) :
    Forall₂ (Access.Alike F G) (a.accesses fields) (b.accesses fields') := by
  obtain ⟨function, node, locals, typeParameters⟩ := a
  obtain ⟨function', node', locals', typeParameters'⟩ := b
  obtain ⟨hfunction, rfl, rfl, rfl⟩ := h
  unfold Body.accesses
  cases hfunction with
  | none => exact .nil
  | some hG =>
    refine forall₂_filterMap (BodyEvent.alike_ofNode hf locals node).events fun he => ?_
    cases he with
    | typeRef node => exact .none
    | annotationUse node => exact .none
    | typeName token => exact .none
    | access line kind hF => exact .some ⟨hG, hF, rfl, rfl⟩

/-- The uses of fields by the functions of related types. -/
theorem TypeRecord.Alike.accesses {R : TypeId → TypeId → Prop}
    {S : DeclaredType → DeclaredType → Prop} {F : TypeId → FieldId → FieldId → Prop}
    {G : TypeId → FunctionId → FunctionId → Prop} (hR : Injective R)
    (hS : ∀ {a b}, S a b → DeclaredType.Alike R a b) {records records' : List TypeRecord}
    (h : Forall₂ (TypeRecord.Alike S F G) records records') :
    Forall₂ (Access.Seen S F G) (TypeRecord.accesses records) (TypeRecord.accesses records') :=
  forall₂_flatMap h fun hab => forall₂_flatMap hab.members.bodies fun hbody =>
    (hbody.accesses (hab.visibleFields hR hS h)).imp fun _ _ hu => ⟨_, _, hab.type, hu⟩

end JavaGraph

/-!
## Data that differ in nothing

Two scans may give the same identifiers. What is alike then is the same, and what is known of the
identifiers is known of all that it refers to.
-/

namespace JavaGraph

open List (Forall₂)
open ReferenceSite (ParameterHead)

/-- The same type, of which something is known. -/
abbrev Same (K : TypeId → Prop) (a b : TypeId) : Prop := a = b ∧ K a

variable {K : TypeId → Prop}

/-- The same use of a type. -/
theorem eq_of_use {a b : TypeUse} (h : TypeUse.Alike (Same K) a b) :
    a = b ∧ a.Within K := by
  obtain ⟨base, dimensions⟩ := a
  obtain ⟨base', dimensions'⟩ := b
  obtain ⟨hbase, rfl⟩ := h
  cases hbase with
  | primitive name => exact ⟨rfl, fun target ht => by cases ht⟩
  | typeVariable name => exact ⟨rfl, fun target ht => by cases ht⟩
  | @declared a b hab =>
    obtain ⟨rfl, hs⟩ := hab
    refine ⟨rfl, fun target ht => ?_⟩
    cases ht
    exact hs

/-- The same list of types. -/
theorem eq_of_types {a b : List TypeId} (h : Forall₂ (Same K) a b) :
    a = b ∧ ∀ target ∈ a, K target := by
  induction h with
  | nil => exact ⟨rfl, fun _ hm => by cases hm⟩
  | cons hab _ ih =>
    obtain ⟨rfl, hs⟩ := hab
    obtain ⟨rfl, hrest⟩ := ih
    refine ⟨rfl, fun target hm => ?_⟩
    rcases List.mem_cons.1 hm with rfl | hm
    · exact hs
    · exact hrest target hm

/-- The same type, if there is one. -/
theorem eq_of_type? {a b : Option TypeId} (h : Option.Rel (Same K) a b) :
    a = b ∧ ∀ target, a = some target → K target := by
  cases h with
  | none => exact ⟨rfl, fun _ ht => by cases ht⟩
  | some hab =>
    obtain ⟨rfl, hs⟩ := hab
    refine ⟨rfl, fun target ht => ?_⟩
    cases ht
    exact hs

/-- The same field. -/
theorem eq_of_field {a b : Field} (h : Field.Alike (Same K) a b) :
    a = b ∧ a.typeUse.Within K := by
  obtain ⟨name, declaringType, typeUse, modifiers, line, signature⟩ := a
  obtain ⟨name', declaringType', typeUse', modifiers', line', signature'⟩ := b
  obtain ⟨rfl, ⟨rfl, -⟩, hu, rfl, rfl, rfl⟩ := h
  obtain ⟨rfl, hw⟩ := eq_of_use hu
  exact ⟨rfl, hw⟩

/-- The same function. -/
theorem eq_of_function {a b : Function} (h : Function.Alike (Same K) a b)
    (ha : a.parameters = []) (hb : b.parameters = []) :
    a = b ∧ (∀ use, a.returns = some use → use.Within K) ∧
      ∀ target ∈ a.throws, K target := by
  obtain ⟨name, kind, declaringType, parameters, returns, throws, modifiers, span, signature⟩ := a
  obtain ⟨name', kind', declaringType', parameters', returns', throws', modifiers', span',
    signature'⟩ := b
  obtain ⟨rfl, rfl, ⟨rfl, -⟩, hreturns, hthrows, rfl, rfl, rfl⟩ := h
  obtain ⟨rfl, hsettled⟩ := eq_of_types hthrows
  cases ha
  cases hb
  cases hreturns with
  | none => exact ⟨rfl, (fun _ hu => by cases hu), hsettled⟩
  | some hu =>
    obtain ⟨rfl, hw⟩ := eq_of_use hu
    refine ⟨rfl, fun use hr => ?_, hsettled⟩
    cases hr
    exact hw

/-- The same heads of parameters. -/
theorem eq_of_heads {a b : List ParameterHead}
    (h : Forall₂ (ParameterHead.Alike (Same K)) a b) :
    a = b ∧ ∀ head ∈ a, head.typeUse.Within K := by
  induction h with
  | nil => exact ⟨rfl, fun _ hm => by cases hm⟩
  | @cons a b _ _ hab _ ih =>
    obtain ⟨name, use, isVarargs⟩ := a
    obtain ⟨name', use', isVarargs'⟩ := b
    obtain ⟨rfl, hu, rfl⟩ := hab
    obtain ⟨rfl, hw⟩ := eq_of_use hu
    obtain ⟨rfl, hrest⟩ := ih
    refine ⟨rfl, fun head hm => ?_⟩
    rcases List.mem_cons.1 hm with rfl | hm
    · exact hw
    · exact hrest head hm

/-- Uses of the same members. -/
theorem eq_of_accesses {S : DeclaredType → DeclaredType → Prop}
    {F : TypeId → FieldId → FieldId → Prop} {G : TypeId → FunctionId → FunctionId → Prop}
    (hF : ∀ {owner a b}, F owner a b → a = b) (hG : ∀ {owner a b}, G owner a b → a = b)
    {a b : List Access} (h : Forall₂ (Access.Seen S F G) a b) : a = b := by
  induction h with
  | nil => rfl
  | @cons a b _ _ hab _ ih =>
    obtain ⟨function, field, line, kind⟩ := a
    obtain ⟨function', field', line', kind'⟩ := b
    obtain ⟨_, _, -, hfunction, ⟨_, -, hfield⟩, rfl, rfl⟩ := hab
    obtain rfl := hF hfield
    obtain rfl := hG hfunction
    rw [ih]

end JavaGraph
