import JavaGraph.Proofs.Scan.Step
/-!
# The references of a file

What a file refers to, in the order in which a scan gets to it: for each declared type its
supertypes, its annotations and its members, and after all of them the bodies. Of these references
nothing but the names and places is listed. Within a type reference, annotations and type arguments
come before the type's own name.

`Charting` is a relation between states that takes account of the references that are made in
between. If the primitive steps keep it, the scan of a file does, with all references of the file.
`Referring` is the same for the references of one type.
-/

namespace JavaGraph

open JavaGraph.Action

/-- A name that is written somewhere and stands for a type. -/
structure Reference where
  name : QualifiedName
  file : FileId
  place : Token

/-! ### What declarations mention -/

namespace Mention

/-- The annotations of a declaration. -/
def ofAnnotations (declaration : Tree) : List Mention := declaration.annotationUses.flatMap ofAnnotation

/-- The types in the clause of a kind that a declaration may have. -/
def ofClause (kind : NodeKind) (declaration : Tree) : List Mention :=
  match declaration.childOfKind? kind with
  | none => []
  | some clause => (clause.childrenOfKind .typeRef).flatMap ofTypeRef

/-- The supertypes of a type. -/
def ofSupertypes (type : DeclaredType) : List Mention :=
  match type.node.kind with
  | .classDecl => ofClause .extendsClause type.node ++ ofClause .implementsClause type.node
  | .interfaceDecl => ofClause .extendsClause type.node
  | .enumDecl => ofClause .implementsClause type.node
  | _ =>
    match type.site.base? with
    | some (.typeRef node) => ofTypeRef node
    | _ => []

/-- The fields of a declaration; the type is looked at again for each of them. -/
def ofFields (node : Tree) : List Mention :=
  ofAnnotations node ++
    match node.childOfKind? .typeRef with
    | none => []
    | some typeRef => (node.childrenOfKind .variableDeclarator).flatMap fun declarator =>
        if declarator.declaredName?.isSome then ofTypeRef typeRef else []

/-- The bounds of the type parameters of a function. -/
def ofTypeParameters (node : Tree) : List Mention :=
  match node.childOfKind? .typeParameters with
  | none => []
  | some list => (list.childrenOfKind .typeParameter).flatMap fun parameter =>
      (parameter.childrenOfKind .typeRef).flatMap ofTypeRef

/-- What a method returns. -/
def ofReturn (node : Tree) : List Mention :=
  match node.childToken? .kwVoid, node.childOfKind? .typeRef with
  | none, some typeRef => ofTypeRef typeRef
  | _, _ => []

/-- A parameter of a function. -/
def ofParameter (node : Tree) : List Mention :=
  ofAnnotations node ++
    match node.declaredName?, node.childOfKind? .typeRef with
    | some _, some typeRef => ofTypeRef typeRef
    | _, _ => []

/-- The parameters of a function. -/
def ofParameters (node : Tree) : List Mention :=
  match node.childOfKind? .formalParameters with
  | none => []
  | some list => (list.childrenOfKind .parameter).flatMap ofParameter

/-- A function without what it executes. -/
def ofFunction (node : Tree) : List Mention :=
  ofAnnotations node ++ ofTypeParameters node ++
    match ReferenceSite.functionHead? node with
    | none => []
    | some (kind, _) =>
      (if kind = .method then ofReturn node else []) ++ ofParameters node ++
        ofClause .throwsClause node

/-- A member of a type, unless it is a type itself. -/
def ofMember (node : Tree) : List Mention :=
  match node.kind with
  | .fieldDecl => ofFields node
  | .enumConstant => ofAnnotations node
  | .methodDecl | .constructorDecl | .initializer => ofFunction node
  | _ => []

/-- Only an anonymous class and the class of an enum constant have their supertype elsewhere. -/
theorem ofSupertypes_other {type : DeclaredType} (hc : type.node.kind ≠ .classDecl)
    (hi : type.node.kind ≠ .interfaceDecl) (he : type.node.kind ≠ .enumDecl) :
    ofSupertypes type = match type.site.base? with
      | some (.typeRef node) => ofTypeRef node
      | _ => [] := by
  unfold ofSupertypes
  split <;> first | contradiction | rfl

/-- What a type reference mentions: its parts, and then its own name. -/
theorem ofTypeRef_eq (node : Tree) : ofTypeRef node = ofParts node.children ++ own node := by
  cases node with
  | error _ _ => rfl
  | node kind anchor extent comments children => rw [ofTypeRef]; rfl

end Mention

/-- The type parameters that a function declares. -/
def Tree.functionVariables (node : Tree) : List String :=
  match node.childOfKind? .typeParameters with
  | none => []
  | some list => list.typeParameterNames

/-- The type parameters that a member declares. -/
def Tree.memberVariables (node : Tree) : List String :=
  match node.kind with
  | .methodDecl | .constructorDecl | .initializer => node.functionVariables
  | _ => []

/-! ### References -/

namespace ReferenceSite

variable (site : ReferenceSite)

/-- The reference that written segments are. A malformed name is none. -/
def references (segments : List Token) : List Reference :=
  match segments with
  | [] => []
  | first :: rest =>
    match site.declared.qualify site.owner ((first :: rest).map (·.text)) with
    | .error _ => []
    | .ok name => [⟨name, site.source.file, first⟩]

/-- A reference has the name that its segments stand for. -/
theorem qualify_of_mem_references {site : ReferenceSite} {segments : List Token}
    {reference : Reference} (h : reference ∈ site.references segments) :
    site.declared.qualify site.owner (segments.map (·.text)) = .ok reference.name := by
  unfold references at h
  cases segments with
  | nil => cases h
  | cons first rest =>
    simp only at h
    cases hq : site.declared.qualify site.owner ((first :: rest).map (·.text)) with
    | error e =>
      rw [hq] at h
      cases h
    | ok name =>
      rw [hq] at h
      rw [List.mem_singleton.1 h]

/-- What a mention refers to; the name of a type parameter refers to nothing. -/
def mentioned (typeVariables : List String) : Mention → List Reference
  | .annotationName segments => site.references segments
  | .typeName segments =>
    if site.isVariable typeVariables segments then [] else site.references segments

/-- What the type itself and its members refer to. -/
def memberReferences : List Reference :=
  (Mention.ofSupertypes site.owner).flatMap (site.mentioned []) ++
    (Mention.ofAnnotations site.owner.node).flatMap (site.mentioned []) ++
      match site.owner.body? with
      | none => []
      | some body => body.children.flatMap fun node =>
          (Mention.ofMember node).flatMap (site.mentioned node.memberVariables)

/-- What an event refers to. -/
def eventReferences (typeVariables : List String) : BodyEvent → List Reference
  | .typeRef node => (Mention.ofTypeRef node).flatMap (site.mentioned typeVariables)
  | .annotationUse node => (Mention.ofAnnotation node).flatMap (site.mentioned [])
  | .typeName token => site.references [token]
  | .access _ _ _ => []

/-- What a body refers to. -/
def bodyReferences (fields : VisibleFields) (body : Body) : List Reference :=
  (body.events fields).flatMap (site.eventReferences body.typeParameters)

end ReferenceSite

/-- The second pass over a file: what is recorded of its types, once its main type is chosen. -/
def recordTypes (source : SourceUnit) (path : String) (declared : Declarations) :
    ScanAction (List TypeRecord) := do
  match declared.mainType? path with
  | none => pure ()
  | some type => ScanState.onGraph (Graph.setMainType source.unit type.id)
  Action.mapEach declared.types fun owner => do
    return { type := owner, members := ← ReferenceSite.recordMembers ⟨source, declared, owner⟩ }

/-- The third pass over a file. -/
def readBodies (recordAccesses : Bool) (source : SourceUnit) (declared : Declarations)
    (records : List TypeRecord) : ScanAction Declarations := do
  .forEach records fun record =>
    .forEach record.members.bodies
      (ReferenceSite.recordBody ⟨source, declared, record.type⟩ (record.visibleFields records))
  ScanState.flush (if recordAccesses then TypeRecord.accesses records else [])
  return declared

/-- The references of a file that is scanned from a state on. -/
def ScanState.references (source : SourceUnit) (header : Header) (path : String) (root : Tree)
    (s : ScanState) : List Reference :=
  match Declarations.declare source header root s with
  | (.error _, _) => []
  | (.ok declared, s) =>
    match recordTypes source path declared s with
    | (.error _, _) => []
    | (.ok records, _) =>
      (declared.types.flatMap fun owner =>
        ReferenceSite.memberReferences ⟨source, declared, owner⟩) ++
      records.flatMap fun record => record.members.bodies.flatMap
        (ReferenceSite.bodyReferences ⟨source, declared, record.type⟩
          (record.visibleFields records))

/-! ### Taking account of references -/

/-- A relation between states and the references that are made between them. -/
class Accumulates (R : List Reference → ScanState → ScanState → Prop) : Prop where
  nothing : ∀ s, R [] s s
  append : ∀ {refs refs' s m t}, R refs s m → R refs' m t → R (refs ++ refs') s t

instance (R : List Reference → ScanState → ScanState → Prop) [h : Accumulates R] :
    Action.Guarantee (R []) where
  refl := h.nothing
  trans := h.append

/-- Such a relation that the primitive steps of the scan of a unit keep. -/
class Charting (source : SourceUnit) (R : List Reference → ScanState → ScanState → Prop) : Prop
    extends Accumulates R where
  nameless : ScanState.Nameless source.unit (R [])
  resolve : ∀ {s t id} {site : ReferenceSite} name place, site.source = source →
    site.resolve name place s = (.ok id, t) → R [⟨name, source.file, place⟩] s t

/-- Such a relation that the references of a type keep, and what is recorded of it. -/
class Referring (site : ReferenceSite) (R : List Reference → ScanState → ScanState → Prop) : Prop
    extends Accumulates R where
  record : ∀ {α : Type} (action : GraphAction α), Keeps Graph.SameLedger action →
    Keeps Graph.SameUnits action → Keeps (R []) (ScanState.onGraph action)
  refer : ∀ {s t id?} segments, site.refer segments s = (.ok id?, t) →
    R (site.references segments) s t

variable {α β : Type} {R : List Reference → ScanState → ScanState → Prop}

/-- An action makes some references if it succeeds. -/
structure Makes (R : List Reference → ScanState → ScanState → Prop) (refs : List Reference)
    (action : ScanAction α) : Prop where
  run : ∀ {s x t}, action s = (.ok x, t) → R refs s t

namespace Makes

variable {refs refs' : List Reference} {action : ScanAction α}

/-- An action that keeps the relation makes no references. -/
theorem of_keeps (h : Keeps (R []) action) : Makes R [] action := by
  constructor
  intro s x t hrun
  have hk := h.keeps s
  rwa [hrun] at hk

variable [h : Accumulates R]
include h

/-- A value makes no references. -/
theorem pure (x : α) : Makes R [] (Pure.pure x : ScanAction α) := of_keeps inferInstance

/-- Actions in sequence make their references in sequence; those of the second one may depend on
the result of the first one. -/
theorem bind_of {next : α → ScanAction β} (ha : Makes R refs action)
    (hn : ∀ {s x t}, action s = (.ok x, t) → Makes R refs' (next x)) :
    Makes R (refs ++ refs') (action >>= next) := by
  constructor
  intro s y t hrun
  obtain ⟨x, m, hrun, hnext⟩ := ok_of_bind hrun
  exact h.append (ha.run hrun) ((hn hrun).run hnext)

/-- Actions in sequence make their references in sequence. -/
theorem bind {next : α → ScanAction β} (ha : Makes R refs action)
    (hn : ∀ x, Makes R refs' (next x)) : Makes R (refs ++ refs') (action >>= next) :=
  ha.bind_of fun {_ x _} _ => hn x

/-- What follows makes no references. -/
theorem andThen {next : α → ScanAction β} (ha : Makes R refs action)
    (hn : ∀ x, Makes R [] (next x)) : Makes R refs (action >>= next) := by
  have := ha.bind hn
  rwa [List.append_nil] at this

/-- What goes before makes no references. -/
theorem after {next : α → ScanAction β} (ha : Makes R [] action)
    (hn : ∀ x, Makes R refs (next x)) : Makes R refs (action >>= next) := ha.bind hn

/-- A condition on the code tells which action comes first. -/
theorem bind_ite {refs refs' refs'' : List Reference} {condition : Prop} [Decidable condition]
    {first second : ScanAction α} {next : α → ScanAction β}
    (hrefs : refs = if condition then refs' else []) (hyes : Makes R refs' first)
    (hno : Makes R [] second) (hn : ∀ x, Makes R refs'' (next x)) :
    Makes R (refs ++ refs'') (if condition then first >>= next else second >>= next) := by
  subst hrefs
  split
  · exact hyes.bind hn
  · exact hno.bind hn

/-- Actions for every member of a list. -/
theorem forEach {items : List β} {f : β → ScanAction Unit} {g : β → List Reference}
    (hf : ∀ x, Makes R (g x) (f x)) : Makes R (items.flatMap g) (.forEach items f) := by
  induction items with
  | nil => exact pure ()
  | cons item rest ih => exact (hf item).bind fun _ => ih

/-- Actions for every member of a list, with their results. -/
theorem mapEach {items : List β} {f : β → ScanAction α} {g : β → List Reference}
    (hf : ∀ x, Makes R (g x) (f x)) : Makes R (items.flatMap g) (.mapEach items f) := by
  induction items with
  | nil => exact pure []
  | cons item rest ih => exact (hf item).bind fun _ => ih.andThen fun _ => pure _

/-- Actions for every member of a list, with the results there are. -/
theorem collect {items : List β} {f : β → ScanAction (Option α)} {g : β → List Reference}
    (hf : ∀ x, Makes R (g x) (f x)) : Makes R (items.flatMap g) (.collect items f) := by
  induction items with
  | nil => exact pure []
  | cons item rest ih => exact (hf item).bind fun _ => ih.andThen fun _ => pure _

end Makes

/-! ### Mentions -/

namespace ReferenceSite

variable {site : ReferenceSite}

/-- What is charted of a file is charted of its types: written segments are one reference at
most. -/
instance [h : Charting site.source R] : Referring site R where
  record := h.nameless.record
  refer segments := by
    suffices hrefer : Makes R (site.references segments) (site.refer segments) from hrefer.run
    unfold refer references
    cases segments with
    | nil => exact .pure none
    | cons first rest =>
      simp only
      cases site.declared.qualify site.owner ((first :: rest).map (·.text)) with
      | error e => exact .after (.of_keeps (h.nameless.report _ rfl)) fun _ => .pure none
      | ok name =>
        have hresolve : Makes R [⟨name, site.source.file, first⟩] (site.resolve name first) :=
          ⟨h.resolve name first rfl⟩
        exact hresolve.andThen fun id => .after (.of_keeps (h.nameless.note ..)) fun _ => .pure _

variable [h : Referring site R]
include h

/-- Written segments are one reference at most. -/
theorem makes_refer (segments : List Token) :
    Makes R (site.references segments) (site.refer segments) := ⟨h.refer segments⟩

/-- A mention is one reference at most. -/
theorem makes_mention (typeVariables : List String) (mention : Mention) :
    Makes R (site.mentioned typeVariables mention) (site.mention typeVariables mention) := by
  have hdiscard : ∀ segments, Makes R (site.references segments) (discard (site.refer segments)) :=
    fun segments => (makes_refer segments).andThen fun _ => .pure _
  unfold mentioned ReferenceSite.mention
  cases mention with
  | annotationName segments => exact hdiscard segments
  | typeName segments =>
    simp only
    split
    · exact .pure ()
    · exact hdiscard segments

/-- Mentions are made in order. -/
theorem makes_mentionAll (typeVariables : List String) (mentions : List Mention) :
    Makes R (mentions.flatMap (site.mentioned typeVariables))
      (site.mentionAll typeVariables mentions) :=
  .forEach fun mention => makes_mention typeVariables mention

/-- The annotations of a declaration; no type parameter has to do with them. -/
theorem makes_annotationUses (typeVariables : List String) (declaration : Tree) :
    Makes R ((Mention.ofAnnotations declaration).flatMap (site.mentioned typeVariables))
      (site.annotationUses declaration) := by
  have hsame : ∀ node : Tree, (Mention.ofAnnotation node).flatMap (site.mentioned typeVariables) =
      (Mention.ofAnnotation node).flatMap (site.mentioned []) := by
    intro node
    unfold Mention.ofAnnotation
    split <;> rfl
  unfold Mention.ofAnnotations annotationUses
  rw [List.flatMap_assoc]
  simp only [hsame]
  exact .forEach fun node => makes_mentionAll [] _

/-- A type reference is made of what it mentions. -/
theorem makes_typeUse (typeVariables : List String) (node : Tree) (dimensions : Nat) :
    Makes R ((Mention.ofTypeRef node).flatMap (site.mentioned typeVariables))
      (site.typeUse typeVariables node dimensions) := by
  have hown : Makes R ((Mention.own node).flatMap (site.mentioned typeVariables))
      (site.typeBase typeVariables node) := by
    unfold Mention.own typeBase
    cases Mention.primitive? node with
    | some token => exact .pure _
    | none =>
      cases node.identifiers with
      | nil => exact .pure _
      | cons first rest =>
        simp only [Option.isSome_none, Bool.false_or, List.isEmpty_cons, Bool.false_eq_true,
          if_false, List.flatMap_cons, List.flatMap_nil, List.append_nil, mentioned]
        split
        · exact .pure _
        · exact (makes_refer _).andThen fun _ => .pure _
  rw [Mention.ofTypeRef_eq, List.flatMap_append]
  exact (makes_mentionAll typeVariables _).bind fun _ => hown.andThen fun _ => .pure _

/-- The declared type that a type reference refers to. -/
theorem makes_declaredType (typeVariables : List String) (node : Tree) :
    Makes R ((Mention.ofTypeRef node).flatMap (site.mentioned typeVariables))
      (site.declaredType typeVariables node) :=
  (makes_typeUse typeVariables node 0).andThen fun _ => .pure _

/-- The types that the references directly below a node refer to. -/
theorem makes_declaredTypes (typeVariables : List String) (clause : Tree) :
    Makes R (((clause.childrenOfKind .typeRef).flatMap Mention.ofTypeRef).flatMap
      (site.mentioned typeVariables)) (site.declaredTypes typeVariables clause) := by
  rw [List.flatMap_assoc]
  exact .collect fun node => makes_declaredType typeVariables node

/-! ### Members -/

/-- The supertypes of the type. -/
theorem makes_recordSupertypes :
    Makes R ((Mention.ofSupertypes site.owner).flatMap (site.mentioned []))
      site.recordSupertypes := by
  have hrecord : ∀ superclass interfaces, Makes R [] (ScanState.onGraph <|
      Graph.updateType site.owner.id fun type => { type with superclass, interfaces }) :=
    fun superclass interfaces => .of_keeps (h.record _
      (Graph.keeps_updateType _ _ fun _ => ⟨rfl, rfl⟩) inferInstance)
  have hclause : ∀ kind, Makes R
      ((Mention.ofClause kind site.owner.node).flatMap (site.mentioned [])) (site.clause kind) := by
    intro kind
    unfold Mention.ofClause clause
    cases site.owner.node.childOfKind? kind with
    | none => exact .pure _
    | some clause => exact makes_declaredTypes [] clause
  have hsuper : Makes R ((Mention.ofSupertypes site.owner).flatMap (site.mentioned []))
      site.supertypes := by
    unfold supertypes
    split
    · next hkind =>
      unfold Mention.ofSupertypes
      rw [hkind]
      simp only [List.flatMap_append]
      exact (hclause .extendsClause).bind fun _ => (hclause .implementsClause).andThen fun _ => .pure _
    · next hkind =>
      unfold Mention.ofSupertypes
      rw [hkind]
      exact (hclause .extendsClause).andThen fun _ => .pure _
    · next hkind =>
      unfold Mention.ofSupertypes
      rw [hkind]
      exact (hclause .implementsClause).andThen fun _ => .pure _
    · next hbase hc hi he =>
      rw [Mention.ofSupertypes_other hc hi he, hbase]
      exact .pure _
    · next node hbase hc hi he =>
      rw [Mention.ofSupertypes_other hc hi he, hbase]
      refine (makes_declaredType [] node).andThen fun base => ?_
      cases base with
      | none => exact .pure _
      | some base => exact .of_keeps inferInstance
    · next hbase hc hi he =>
      rw [Mention.ofSupertypes_other hc hi he, hbase]
      exact .pure _
  exact hsuper.andThen fun supertypes => hrecord supertypes.1 supertypes.2

/-- The field of a declarator; its type is looked at whether or not it becomes a field. -/
theorem makes_recordField (typeRef : Tree) (modifiers : Modifiers) (declarator : Tree) :
    Makes R ((if declarator.declaredName?.isSome then Mention.ofTypeRef typeRef else []).flatMap
      (site.mentioned [])) (site.recordField typeRef modifiers declarator) := by
  have := fun field => h.record (Graph.addField field) inferInstance inferInstance
  unfold recordField
  cases declarator.declaredName? with
  | none => exact .pure none
  | some name =>
    refine (makes_typeUse [] typeRef _).andThen fun use => ?_
    cases use with
    | none => exact .pure none
    | some use => exact .of_keeps inferInstance

/-- The fields of a declaration. -/
theorem makes_recordFields (node : Tree) :
    Makes R ((Mention.ofFields node).flatMap (site.mentioned [])) (site.recordFields node) := by
  unfold Mention.ofFields recordFields
  rw [List.flatMap_append]
  refine (makes_annotationUses [] node).bind fun _ => ?_
  cases node.childOfKind? .typeRef with
  | none => exact .pure _
  | some typeRef =>
    simp only [List.flatMap_assoc]
    exact (Makes.collect fun declarator => makes_recordField typeRef _ declarator).andThen
      fun _ => .pure _

/-- An enum constant. -/
theorem makes_recordEnumConstant (node : Tree) :
    Makes R ((Mention.ofAnnotations node).flatMap (site.mentioned []))
      (site.recordEnumConstant node) := by
  have := fun field => h.record (Graph.addField field) inferInstance inferInstance
  unfold recordEnumConstant
  refine (makes_annotationUses [] node).andThen fun _ => ?_
  cases node.declaredName? with
  | none => exact .pure _
  | some name => exact .of_keeps inferInstance

/-- The bounds of the type parameters of a function. -/
theorem makes_functionTypeParameters (node : Tree) :
    Makes R ((Mention.ofTypeParameters node).flatMap (site.mentioned node.functionVariables))
      (site.functionTypeParameters node) := by
  unfold Mention.ofTypeParameters functionTypeParameters Tree.functionVariables
  cases node.childOfKind? .typeParameters with
  | none => exact .pure _
  | some list =>
    simp only [List.flatMap_assoc]
    refine Makes.andThen (.forEach fun parameter => .forEach fun bound => ?_) fun _ => .pure _
    exact (makes_typeUse _ bound 0).andThen fun _ => .pure _

/-- What a method returns. -/
theorem makes_returnType (typeVariables : List String) (node : Tree) :
    Makes R ((Mention.ofReturn node).flatMap (site.mentioned typeVariables))
      (site.returnType typeVariables node) := by
  unfold Mention.ofReturn returnType
  cases node.childToken? .kwVoid with
  | some token => exact .pure _
  | none =>
    cases node.childOfKind? .typeRef with
    | none => exact .pure _
    | some typeRef => exact makes_typeUse typeVariables typeRef _

/-- The parameters of a function. -/
theorem makes_parameterHeads (typeVariables : List String) (node : Tree) :
    Makes R ((Mention.ofParameters node).flatMap (site.mentioned typeVariables))
      (site.parameterHeads typeVariables node) := by
  unfold Mention.ofParameters parameterHeads
  cases node.childOfKind? .formalParameters with
  | none => exact .pure _
  | some list =>
    simp only [List.flatMap_assoc]
    refine .collect fun parameter => ?_
    unfold Mention.ofParameter parameterHead
    rw [List.flatMap_append]
    refine (makes_annotationUses typeVariables parameter).bind fun _ => ?_
    cases parameter.declaredName? with
    | none => exact .pure _
    | some name =>
      cases parameter.childOfKind? .typeRef with
      | none => exact .pure _
      | some typeRef => exact (makes_typeUse typeVariables typeRef _).andThen fun _ => .pure _

omit h in
/-- The type parameters of a function do not depend on the graph. -/
theorem eq_functionVariables {node : Tree} {s t : ScanState} {names : List String}
    (hrun : site.functionTypeParameters node s = (.ok names, t)) :
    names = node.functionVariables := by
  unfold functionTypeParameters at hrun
  unfold Tree.functionVariables
  cases hl : node.childOfKind? .typeParameters with
  | none =>
    rw [hl] at hrun
    cases hrun
    rfl
  | some list =>
    rw [hl] at hrun
    obtain ⟨_, m, -, hrun⟩ := ok_of_bind hrun
    cases hrun
    rfl

/-- A method, a constructor or an initialiser. -/
theorem makes_recordFunction (node : Tree) :
    Makes R ((Mention.ofFunction node).flatMap (site.mentioned node.functionVariables))
      (site.recordFunction node) := by
  have := fun (function : Function) (heads : List ParameterHead) => h.record (do
    let id ← Graph.addFunction function
    addParameters id heads
    return id) inferInstance inferInstance
  unfold Mention.ofFunction recordFunction
  rw [List.flatMap_append, List.flatMap_append, List.append_assoc]
  refine (makes_annotationUses _ node).bind fun _ => ?_
  refine (makes_functionTypeParameters node).bind_of fun {_ names _} hrun => ?_
  rw [← eq_functionVariables hrun]
  cases functionHead? node with
  | none => exact .pure _
  | some head =>
    obtain ⟨kind, name⟩ := head
    simp only [List.flatMap_append, List.append_assoc]
    refine Makes.bind_ite ?_ (makes_returnType names node) (.pure none) fun returns =>
      (makes_parameterHeads names node).bind fun parameters => ?_
    · split <;> rfl
    · unfold Mention.ofClause
      cases node.childOfKind? .throwsClause with
      | none => exact .of_keeps inferInstance
      | some clause =>
        exact (makes_declaredTypes names clause).andThen fun throws => .of_keeps inferInstance

/-- A member of the type. -/
theorem makes_recordMember (node : Tree) :
    Makes R ((Mention.ofMember node).flatMap (site.mentioned node.memberVariables))
      (site.recordMember node) := by
  unfold recordMember Mention.ofMember Tree.memberVariables
  cases node.kind
  case fieldDecl => exact makes_recordFields node
  case enumConstant => exact makes_recordEnumConstant node
  case methodDecl => exact makes_recordFunction node
  case constructorDecl => exact makes_recordFunction node
  case initializer => exact makes_recordFunction node
  all_goals exact .pure _

/-- The type itself and its members. -/
theorem makes_recordMembers : Makes R site.memberReferences site.recordMembers := by
  unfold memberReferences recordMembers
  rw [List.append_assoc]
  refine makes_recordSupertypes.bind fun _ => (makes_annotationUses [] _).bind fun _ => ?_
  cases site.owner.body? with
  | none => exact .pure _
  | some body => exact (Makes.mapEach makes_recordMember).andThen fun _ => .pure _

/-! ### Bodies -/

/-- A body. -/
theorem makes_recordBody (fields : VisibleFields) (body : Body) :
    Makes R (site.bodyReferences fields body) (site.recordBody fields body) := by
  refine .forEach fun event => ?_
  cases event with
  | typeRef node => exact (makes_typeUse _ node 0).andThen fun _ => .pure _
  | annotationUse node => exact makes_mentionAll [] _
  | typeName token => exact (makes_refer [token]).andThen fun _ => .pure _
  | access field line kind => exact .pure ()

end ReferenceSite

/-! ### Files -/

section

variable (source : SourceUnit) [h : Charting source R]

/-- The second pass over a file. -/
private theorem makes_recordTypes (path : String) (declared : Declarations) :
    Makes R (declared.types.flatMap fun owner =>
        ReferenceSite.memberReferences ⟨source, declared, owner⟩)
      (recordTypes source path declared) := by
  have := h.nameless.mainType
  have hrecord : ∀ owner, Makes R (ReferenceSite.memberReferences ⟨source, declared, owner⟩) (do
      return ({
        type := owner
        members := ← ReferenceSite.recordMembers ⟨source, declared, owner⟩ } : TypeRecord)) := by
    intro owner
    have hmembers : Makes R (ReferenceSite.memberReferences ⟨source, declared, owner⟩)
        (ReferenceSite.recordMembers ⟨source, declared, owner⟩) := ReferenceSite.makes_recordMembers
    exact hmembers.andThen fun _ => .pure _
  unfold recordTypes
  split
  · exact .mapEach hrecord
  · exact Makes.after (.of_keeps inferInstance) fun _ => .mapEach hrecord

/-- The third pass over a file. -/
private theorem makes_readBodies (recordAccesses : Bool) (declared : Declarations)
    (records : List TypeRecord) :
    Makes R (records.flatMap fun record => record.members.bodies.flatMap
        (ReferenceSite.bodyReferences ⟨source, declared, record.type⟩
          (record.visibleFields records)))
      (readBodies recordAccesses source declared records) := by
  have := h.nameless
  have hflush := keeps_flush (R := R []) source.unit
    (if recordAccesses then TypeRecord.accesses records else [])
  have hbody : ∀ (record : TypeRecord) fields body, Makes R
      (ReferenceSite.bodyReferences ⟨source, declared, record.type⟩ fields body)
      (ReferenceSite.recordBody ⟨source, declared, record.type⟩ fields body) :=
    fun record => ReferenceSite.makes_recordBody
  exact Makes.andThen (.forEach fun record => .forEach fun body => hbody record _ body) fun _ =>
    .andThen (.of_keeps hflush) fun _ => .pure _

/-- A scan of a file takes account of all references of the file. -/
theorem references_of_scanTypes {recordAccesses : Bool} {header : Header} {path : String}
    {root : Tree} {s t : ScanState} {declared : Declarations}
    (hrun : scanTypes recordAccesses source header path root s = (.ok declared, t)) :
    R (s.references source header path root) s t := by
  have := h.nameless
  have hdeclare : Makes R [] (Declarations.declare source header root) := .of_keeps inferInstance
  unfold scanTypes at hrun
  obtain ⟨x, m, hx, hrun⟩ := ok_of_bind hrun
  have hrecords : ∃ records m', recordTypes source path x m = (.ok records, m') ∧
      readBodies recordAccesses source x records m' = (.ok declared, t) := by
    unfold recordTypes
    cases hm : x.mainType? path with
    | none =>
      rw [hm] at hrun
      obtain ⟨records, m', hr, hrun⟩ := ok_of_bind hrun
      exact ⟨records, m', hr, hrun⟩
    | some type =>
      rw [hm] at hrun
      obtain ⟨_, m₁, hset, hrun⟩ := ok_of_bind hrun
      obtain ⟨records, m', hr, hrun⟩ := ok_of_bind hrun
      refine ⟨records, m', ?_, hrun⟩
      exact (bind_of_ok hset).trans hr
  obtain ⟨records, m', hr, hbodies⟩ := hrecords
  unfold ScanState.references
  rw [hx]
  simp only [hr]
  have hmembers := (makes_recordTypes (R := R) source path x).run hr
  have hcode := (makes_readBodies (R := R) source recordAccesses x records).run hbodies
  have hrefs := h.append hmembers hcode
  rw [← List.nil_append (_ ++ _)]
  exact h.append (hdeclare.run hx) hrefs

end

end JavaGraph
