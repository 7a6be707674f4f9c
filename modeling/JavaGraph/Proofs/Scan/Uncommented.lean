import JavaGraph.Proofs.Parser.Comments
import JavaGraph.Scan.Source
/-!
# What is found in trees without comments

What the scan of a file reads off its tree does not depend on comments: without them the tree has the
same header and the same sites, written names stand for the same, type references mention the same,
and code uses the same fields. The nodes that are found are the same ones without their comments.
-/

namespace JavaGraph

/-! ### Headers -/

@[simp] theorem Diagnostic.atNode_uncommented (file : FileId) (node : Tree) (finding : Finding) :
    Diagnostic.atNode file node.uncommented finding = .atNode file node finding := by
  simp only [atNode, Tree.line_uncommented, Tree.column_uncommented]

namespace Header

/-- The piece of a header without comments. -/
def Item.uncommented : Item → Item
  | .package segments => .package segments
  | .importType declaration segments => .importType declaration.uncommented segments

theorem item?_uncommented (node : Tree) :
    item? node.uncommented = (item? node).map Item.uncommented := by
  simp only [item?, Tree.kind_uncommented, Tree.qualifiedName?_uncommented,
    Tree.hasChildToken_uncommented]
  split
  · cases node.qualifiedName? <;> rfl
  · split
    · rfl
    · cases node.qualifiedName? <;> rfl
  · rfl

theorem add_uncommented (file : FileId) (header : Header) (item : Item) :
    header.add file item.uncommented = header.add file item := by
  cases item with
  | package segments => rfl
  | importType declaration segments =>
    simp only [Item.uncommented, add, Diagnostic.atNode_uncommented]

theorem addAll_uncommented (file : FileId) (header : Header) (items : List Item) :
    addAll file header (items.map Item.uncommented) = addAll file header items := by
  induction items generalizing header with
  | nil => rfl
  | cons item rest ih => simp only [List.map_cons, addAll, add_uncommented, ih]

theorem ofTree_uncommented (file : FileId) (root : Tree) :
    ofTree file root.uncommented = ofTree file root := by
  have hitems : (root.children.map Tree.uncommented).filterMap item? =
      (root.children.filterMap item?).map Item.uncommented := by
    simp only [List.filterMap_map, Function.comp_def, item?_uncommented, List.map_filterMap]
  rw [ofTree, ofTree, Tree.children_uncommented, hitems, addAll_uncommented]

end Header

/-! ### Sites -/

/-- The base of an anonymous class without comments. -/
def AnonymousBase.uncommented : AnonymousBase → AnonymousBase
  | .typeRef node => .typeRef node.uncommented
  | .enclosingEnum => .enclosingEnum

namespace Site

mutual

/-- The site in the tree without comments. -/
def uncommented : Site → Site
  | ⟨name?, number?, base?, node, within⟩ =>
    ⟨name?, number?, base?.map AnonymousBase.uncommented, node.uncommented, uncommentedOf within⟩

/-- Sites in the tree without comments. -/
def uncommentedOf : List Site → List Site
  | [] => []
  | site :: rest => site.uncommented :: uncommentedOf rest

end

theorem uncommentedOf_eq_map (sites : List Site) : uncommentedOf sites = sites.map uncommented := by
  induction sites with
  | nil => rfl
  | cons site rest ih => rw [uncommentedOf, ih, List.map_cons]

theorem uncommented_mk (name? : Option Token) (number? : Option Nat) (base? : Option AnonymousBase)
    (node : Tree) (within : List Site) :
    uncommented ⟨name?, number?, base?, node, within⟩ =
      ⟨name?, number?, base?.map AnonymousBase.uncommented, node.uncommented,
        within.map uncommented⟩ := by
  rw [uncommented, uncommentedOf_eq_map]

variable (children : List Tree)

theorem any_kind_uncommented (kind : NodeKind) :
    (children.map Tree.uncommented).any (·.kind == kind) = children.any (·.kind == kind) := by
  simp only [List.any_map, Function.comp_def, Tree.kind_uncommented]

theorem find?_kind_uncommented (kind : NodeKind) :
    (children.map Tree.uncommented).find? (·.kind == kind) =
      (children.find? (·.kind == kind)).map Tree.uncommented := by
  simp only [List.find?_map, Function.comp_def, Tree.kind_uncommented]

theorem bodyKind_uncommented :
    Tree.bodyKind (children.map Tree.uncommented) = Tree.bodyKind children := by
  simp only [Tree.bodyKind, any_kind_uncommented]

theorem newBase?_uncommented :
    newBase? (children.map Tree.uncommented) =
      (newBase? children).map AnonymousBase.uncommented := by
  simp only [newBase?, any_kind_uncommented, find?_kind_uncommented]
  split
  · cases children.find? (·.kind == .typeRef) <;> rfl
  · rfl

theorem classBody?_uncommented :
    classBody? (children.map Tree.uncommented) = (classBody? children).map Tree.uncommented :=
  find?_kind_uncommented children .classBody

omit children in
/-- Sites with the numbers used so far, in the tree without comments. -/
private def found (result : List Site × Numbering) : List Site × Numbering :=
  (result.1.map uncommented, result.2)

mutual

private theorem ofMembers_uncommented (numbering : Numbering) : (nodes : List Tree) →
    ofMembers numbering (nodes.map Tree.uncommented) = found (ofMembers numbering nodes)
  | [] => rfl
  | member :: rest => by
    simp only [List.map_cons, ofMembers, ofMember_uncommented numbering member, found,
      ofMembers_uncommented _ rest, List.map_append]

private theorem ofMember_uncommented (numbering : Numbering) : (node : Tree) →
    ofMember numbering node.uncommented = found (ofMember numbering node)
  | .error _ _ => rfl
  | .node kind anchor extent comments children => by
    have hname := (Tree.node kind anchor extent comments children).declaredName?_uncommented
    rw [Tree.uncommented_node] at hname ⊢
    simp only [ofMember, hname, bodyKind_uncommented, classBody?_uncommented,
      ofFirstBody_uncommented _ children, ofFirstArguments_uncommented numbering children,
      ofCode_uncommented numbering children]
    split
    · cases (Tree.node kind anchor extent comments children).declaredName? with
      | none => rfl
      | some name => simp [found, uncommented_mk, Tree.uncommented_node]
    · split
      · cases classBody? children with
        | none => rfl
        | some body => simp [found, uncommented_mk, AnonymousBase.uncommented]
      · split <;> rfl

private theorem ofCode_uncommented (numbering : Numbering) : (nodes : List Tree) →
    ofCode numbering (nodes.map Tree.uncommented) = found (ofCode numbering nodes)
  | [] => rfl
  | node :: rest => by
    simp only [List.map_cons, ofCode, ofCodeNode_uncommented numbering node, found,
      ofCode_uncommented _ rest, List.map_append]

private theorem ofCodeNode_uncommented (numbering : Numbering) : (node : Tree) →
    ofCodeNode numbering node.uncommented = found (ofCodeNode numbering node)
  | .error _ _ => rfl
  | .node kind anchor extent comments children => by
    have hname := (Tree.node kind anchor extent comments children).declaredName?_uncommented
    rw [Tree.uncommented_node] at hname ⊢
    simp only [ofCodeNode, hname, bodyKind_uncommented, newBase?_uncommented,
      classBody?_uncommented, ofFirstBody_uncommented _ children,
      ofCode_uncommented _ children]
    split
    · cases (Tree.node kind anchor extent comments children).declaredName? with
      | none => rfl
      | some name => simp [found, uncommented_mk, Tree.uncommented_node]
    · split
      · cases newBase? children <;> cases classBody? children <;>
          simp [found, uncommented_mk]
      · split <;> rfl

private theorem ofFirstBody_uncommented (bodyKind : NodeKind) : (nodes : List Tree) →
    ofFirstBody bodyKind (nodes.map Tree.uncommented) =
      (ofFirstBody bodyKind nodes).map uncommented
  | [] => rfl
  | .node kind anchor extent comments members :: rest => by
    rw [List.map_cons, Tree.uncommented_node, ofFirstBody, ofFirstBody,
      ofMembers_uncommented {} members, ofFirstBody_uncommented bodyKind rest]
    split <;> rfl
  | .error _ _ :: rest => ofFirstBody_uncommented bodyKind rest

private theorem ofFirstArguments_uncommented (numbering : Numbering) : (nodes : List Tree) →
    ofFirstArguments numbering (nodes.map Tree.uncommented) =
      found (ofFirstArguments numbering nodes)
  | [] => rfl
  | .node kind anchor extent comments arguments :: rest => by
    rw [List.map_cons, Tree.uncommented_node, ofFirstArguments, ofFirstArguments,
      ofCode_uncommented numbering arguments, ofFirstArguments_uncommented numbering rest]
    split <;> rfl
  | .error _ _ :: rest => ofFirstArguments_uncommented numbering rest

end

omit children in
/-- A file has the same sites without its comments. -/
theorem ofTree_uncommented (root : Tree) :
    ofTree root.uncommented = (ofTree root).map uncommented := by
  have htop : ∀ node : Tree, ofTopLevel? node.uncommented = (ofTopLevel? node).map uncommented := by
    intro node
    simp only [ofTopLevel?, Tree.kind_uncommented, Tree.declaredName?_uncommented,
      Tree.children_uncommented, bodyKind_uncommented, ofFirstBody_uncommented]
    split
    · cases node.declaredName? <;> simp [uncommented_mk]
    · rfl
  simp only [ofTree, Tree.children_uncommented, List.filterMap_map, Function.comp_def, htop,
    List.map_filterMap]

variable (site : Site)

@[simp] theorem name?_uncommented : site.uncommented.name? = site.name? := by
  cases site; rfl

@[simp] theorem number?_uncommented : site.uncommented.number? = site.number? := by
  cases site; rfl

@[simp] theorem base?_uncommented :
    site.uncommented.base? = site.base?.map AnonymousBase.uncommented := by
  cases site; rfl

@[simp] theorem node_uncommented : site.uncommented.node = site.node.uncommented := by
  cases site; rfl

@[simp] theorem label_uncommented : site.uncommented.label = site.label := by
  simp only [label, name?_uncommented, number?_uncommented]

@[simp] theorem isAnonymous_uncommented : site.uncommented.isAnonymous = site.isAnonymous := by
  simp only [isAnonymous, name?_uncommented]

end Site

/-! ### Declared types -/

namespace DeclaredType

/-- The type as it is declared in the tree without comments. -/
def uncommented (type : DeclaredType) : DeclaredType := { type with site := type.site.uncommented }

variable (type : DeclaredType)

@[simp] theorem id_uncommented : type.uncommented.id = type.id := rfl

@[simp] theorem name_uncommented : type.uncommented.name = type.name := rfl

@[simp] theorem sourceName?_uncommented : type.uncommented.sourceName? = type.sourceName? := rfl

@[simp] theorem outer_uncommented : type.uncommented.outer = type.outer := rfl

@[simp] theorem site_uncommented : type.uncommented.site = type.site.uncommented := rfl

@[simp] theorem isInterfaceLike_uncommented :
    type.uncommented.isInterfaceLike = type.isInterfaceLike := rfl

@[simp] theorem node_uncommented : type.uncommented.node = type.node.uncommented :=
  type.site.node_uncommented

@[simp] theorem body?_uncommented :
    type.uncommented.body? = type.body?.map Tree.uncommented := by
  simp only [body?, site_uncommented, Site.base?_uncommented, Option.isSome_map, node_uncommented,
    Tree.childOfKind?_uncommented]
  split
  · rfl
  · cases type.node.childOfKind? .classBody <;> rfl

@[simp] theorem typeParameters_uncommented :
    type.uncommented.typeParameters = type.typeParameters := by
  simp only [typeParameters, node_uncommented, Tree.childOfKind?_uncommented, Option.map_map,
    Function.comp_def, Tree.typeParameterNames_uncommented]

end DeclaredType

namespace Declarations

/-- What the file declares in the tree without comments. -/
def uncommented (declared : Declarations) : Declarations :=
  { declared with types := declared.types.map DeclaredType.uncommented }

variable (declared : Declarations) (type : DeclaredType)

theorem find?_uncommented (id : TypeId) :
    declared.uncommented.find? id = (declared.find? id).map DeclaredType.uncommented := by
  simp only [find?, uncommented, List.find?_map, Function.comp_def, DeclaredType.id_uncommented]
  rfl

theorem around_uncommented :
    declared.uncommented.around type.uncommented =
      (declared.around type).map DeclaredType.uncommented := by
  have hfind : declared.uncommented.find? = fun id =>
      (declared.find? id).map DeclaredType.uncommented := funext declared.find?_uncommented
  simp only [around, DeclaredType.outer_uncommented, List.map_cons, List.map_filterMap, hfind]

theorem nameAt?_uncommented (simple : String) :
    declared.uncommented.nameAt? simple type.uncommented = declared.nameAt? simple type := by
  simp only [nameAt?, within, uncommented, DeclaredType.sourceName?_uncommented,
    DeclaredType.name_uncommented, DeclaredType.id_uncommented, List.filter_map,
    Function.comp_def, DeclaredType.outer_uncommented, List.getLast?_map, Option.map_map]
  rfl

theorem simpleName?_uncommented (simple : String) :
    declared.uncommented.simpleName? type.uncommented simple =
      declared.simpleName? type simple := by
  simp only [simpleName?, around_uncommented, List.findSome?_map, Function.comp_def,
    nameAt?_uncommented]
  rfl

/-- A written name stands for the same. -/
@[simp] theorem qualify_uncommented (segments : List String) :
    declared.uncommented.qualify type.uncommented segments = declared.qualify type segments := by
  unfold qualify qualifiedText
  cases segments with
  | nil => rfl
  | cons first rest =>
    simp only [simpleName?_uncommented]
    rfl

@[simp] theorem isTypeVariable_uncommented (others : List String) (simple : String) :
    declared.uncommented.isTypeVariable type.uncommented others simple =
      declared.isTypeVariable type others simple := by
  simp only [isTypeVariable, around_uncommented, List.any_map, Function.comp_def,
    DeclaredType.typeParameters_uncommented]

/-- The file has the same main type. -/
theorem mainType?_uncommented (path : String) :
    declared.uncommented.mainType? path =
      (declared.mainType? path).map DeclaredType.uncommented := by
  unfold mainType? uncommented
  simp only [List.filter_map, Function.comp_def, DeclaredType.outer_uncommented]
  generalize declared.types.filter (·.outer.isEmpty) = topLevel
  simp only [List.find?_map, Function.comp_def, DeclaredType.sourceName?_uncommented,
    DeclaredType.node_uncommented, Tree.declaredModifiers_uncommented, List.head?_map,
    Option.map_or]
  rfl

end Declarations

namespace Site

variable (site : Site) (package : Option String) (outer : Option DeclaredType)

theorem qualifiedName_uncommented :
    site.uncommented.qualifiedName package (outer.map DeclaredType.uncommented) =
      site.qualifiedName package outer := by
  cases outer <;> simp only [qualifiedName, Option.map_none, Option.map_some, label_uncommented,
    DeclaredType.name_uncommented]

theorem malformed_uncommented (file : FileId) :
    site.uncommented.malformed file = site.malformed file := by
  simp only [malformed, name?_uncommented, node_uncommented, Diagnostic.atNode_uncommented,
    label_uncommented]

theorem declaredNode_uncommented :
    site.uncommented.declaredNode (outer.map DeclaredType.uncommented) =
      site.declaredNode outer := by
  funext type
  cases outer <;> simp only [declaredNode, node_uncommented, Tree.kind_uncommented,
    Tree.declaredModifiers_uncommented, Tree.line_uncommented, Tree.lastLine_uncommented,
    isAnonymous_uncommented, number?_uncommented, Option.map_none, Option.map_some,
    DeclaredType.id_uncommented, Modifiers.ofNestedType, DeclaredType.isInterfaceLike_uncommented]

end Site

/-! ### Mentions -/

namespace Mention

@[simp] theorem ofAnnotation_uncommented (node : Tree) :
    ofAnnotation node.uncommented = ofAnnotation node := by
  unfold ofAnnotation
  rw [Tree.qualifiedName?_uncommented]

@[simp] theorem primitive?_uncommented (node : Tree) :
    primitive? node.uncommented = primitive? node := by
  simp only [primitive?, Tree.childTokens_uncommented]

@[simp] theorem own_uncommented (node : Tree) : own node.uncommented = own node := by
  simp only [own, primitive?_uncommented, Tree.identifiers_uncommented]

mutual

private theorem ofTypeRef_uncommented : (node : Tree) → ofTypeRef node.uncommented = ofTypeRef node
  | .error _ _ => rfl
  | .node kind anchor extent comments children => by
    have hown := own_uncommented (.node kind anchor extent comments children)
    rw [Tree.uncommented_node] at hown ⊢
    rw [ofTypeRef, ofTypeRef, hown, ofParts_uncommented children]

/-- The parts of a type reference mention the same. -/
theorem ofParts_uncommented : (parts : List Tree) →
    ofParts (parts.map Tree.uncommented) = ofParts parts
  | [] => rfl
  | part :: rest => by
    rw [List.map_cons, ofParts, ofParts, ofPart_uncommented part, ofParts_uncommented rest]

private theorem ofPart_uncommented : (part : Tree) → ofPart part.uncommented = ofPart part
  | .error _ _ => rfl
  | .node kind anchor extent comments children => by
    have hannotation := ofAnnotation_uncommented (.node kind anchor extent comments children)
    rw [Tree.uncommented_node] at hannotation ⊢
    rw [ofPart, ofPart, hannotation, ofArguments_uncommented children]

private theorem ofArguments_uncommented : (arguments : List Tree) →
    ofArguments (arguments.map Tree.uncommented) = ofArguments arguments
  | [] => rfl
  | argument :: rest => by
    rw [List.map_cons, ofArguments, ofArguments, ofArgument_uncommented argument,
      ofArguments_uncommented rest]

private theorem ofArgument_uncommented : (argument : Tree) →
    ofArgument argument.uncommented = ofArgument argument
  | .error _ _ => rfl
  | .node kind anchor extent comments children => by
    have hown := own_uncommented (.node kind anchor extent comments children)
    rw [Tree.uncommented_node] at hown ⊢
    rw [ofArgument, ofArgument, hown, ofParts_uncommented children, ofBound_uncommented children]

private theorem ofBound_uncommented : (nodes : List Tree) →
    ofBound (nodes.map Tree.uncommented) = ofBound nodes
  | [] => rfl
  | node :: rest => by
    rw [List.map_cons, ofBound, ofBound, Tree.kind_uncommented, ofTypeRef_uncommented node,
      ofBound_uncommented rest]

end

end Mention

/-! ### Code -/

/-- The code without comments. -/
def Body.uncommented (body : Body) : Body := { body with node := body.node.uncommented }

namespace MemberRecord

/-- What is recorded of members in the tree without comments. -/
def uncommented (record : MemberRecord) : MemberRecord :=
  { record with bodies := record.bodies.map Body.uncommented }

theorem join_uncommented (records : List MemberRecord) :
    join (records.map uncommented) = (join records).uncommented := by
  induction records with
  | nil => rfl
  | cons record rest ih =>
    simp only [List.map_cons, join, ih, append, uncommented, List.map_append]

end MemberRecord

namespace VisibleFields

/-- The fields that code in the tree without comments sees. -/
def uncommented (fields : VisibleFields) : VisibleFields :=
  ⟨fields.own.uncommented, fields.outer.map MemberRecord.uncommented⟩

variable (fields : VisibleFields) (name : String)

@[simp] theorem own?_uncommented : fields.uncommented.own? name = fields.own? name := rfl

@[simp] theorem find?_uncommented : fields.uncommented.find? name = fields.find? name := by
  simp only [find?, uncommented, ← List.map_cons, List.findSome?_map]
  rfl

end VisibleFields

namespace BodyEvent

/-- The event in the tree without comments. -/
def uncommented : BodyEvent → BodyEvent
  | .typeRef node => .typeRef node.uncommented
  | .annotationUse node => .annotationUse node.uncommented
  | .typeName token => .typeName token
  | .access field line kind => .access field line kind

variable (fields : VisibleFields) (locals : List String)

theorem declaredLocals_uncommented (node : Tree) :
    declaredLocals node.uncommented = declaredLocals node := by
  simp only [declaredLocals, Tree.kind_uncommented, Tree.declaredName?_uncommented,
    Tree.identifiers_uncommented]

theorem namedTarget?_uncommented (node : Tree) :
    namedTarget? fields.uncommented locals node.uncommented = namedTarget? fields locals node := by
  simp only [namedTarget?, Tree.kind_uncommented, Tree.childToken?_uncommented,
    VisibleFields.find?_uncommented, VisibleFields.own?_uncommented, Tree.children_uncommented,
    List.head?_map, Option.any_map]

mutual

theorem target?_uncommented : (node : Tree) →
    target? fields.uncommented locals node.uncommented = target? fields locals node
  | .error _ _ => rfl
  | .node kind anchor extent comments children => by
    have hnamed := namedTarget?_uncommented fields locals
      (.node kind anchor extent comments children)
    rw [Tree.uncommented_node] at hnamed ⊢
    rw [target?, target?, hnamed, firstTarget?_uncommented children]

theorem firstTarget?_uncommented : (nodes : List Tree) →
    firstTarget? fields.uncommented locals (nodes.map Tree.uncommented) =
      firstTarget? fields locals nodes
  | [] => rfl
  | node :: rest => by
    rw [List.map_cons, firstTarget?, firstTarget?, Tree.isComposite_uncommented,
      target?_uncommented node, firstTarget?_uncommented rest]

end

theorem typeTarget?_uncommented (node : Tree) :
    typeTarget? fields.uncommented locals node.uncommented = typeTarget? fields locals node := by
  simp only [typeTarget?, Tree.kind_uncommented, Tree.childToken?_uncommented,
    VisibleFields.find?_uncommented]

omit fields locals in
theorem isPlainAssignment_uncommented (children : List Tree) :
    isPlainAssignment (children.map Tree.uncommented) = isPlainAssignment children := by
  simp only [isPlainAssignment, ← List.map_tail, List.filterMap_map, Function.comp_def,
    Tree.tokenKind?_uncommented]

omit fields locals in
theorem isStep_uncommented (children : List Tree) :
    isStep (children.map Tree.uncommented) = isStep children := by
  simp only [isStep, List.any_map, Function.comp_def, Tree.tokenKind?_uncommented]

/-- What a walk gives in the tree without comments. -/
private def walked (walk : Walk) : Walk := (walk.1.map uncommented, walk.2)

omit fields locals in
/-- What one of two walks gives. -/
private theorem ite_walked {condition : Prop} [Decidable condition] {yes no yes' no' : Walk}
    (hy : yes' = walked yes) (hn : no' = walked no) :
    (if condition then yes' else no') = walked (if condition then yes else no) := by
  rw [hy, hn, apply_ite walked]

omit fields in
/-- What a walk gives, perhaps without the local variables that end with it. -/
private theorem scoped_walked (ends : Bool) (locals : List String) {walk walk' : Walk}
    (h : walk' = walked walk) :
    (if ends then (walk'.1, locals) else walk') =
      walked (if ends then (walk.1, locals) else walk) := by
  rw [h]
  cases ends <;> rfl

mutual

private theorem ofNode_uncommented (locals : List String) : (node : Tree) →
    ofNode fields.uncommented locals node.uncommented = walked (ofNode fields locals node)
  | .error _ _ => rfl
  | .node kind anchor extent comments children => by
    have hlocals := declaredLocals_uncommented (.node kind anchor extent comments children)
    have htarget := target?_uncommented fields locals (.node kind anchor extent comments children)
    have hnode := Tree.uncommented_node kind anchor extent comments children
    rw [hnode] at hlocals htarget ⊢
    rw [ofNode, ofNode]
    simp only [hlocals, htarget, isStep_uncommented, firstTarget?_uncommented,
      ofAssignment_uncommented locals children, ofNodes_uncommented _ children,
      ofQualified_uncommented locals children]
    rw [← hnode]
    refine ite_walked rfl (ite_walked rfl (ite_walked rfl (scoped_walked _ locals ?_)))
    refine ite_walked rfl (ite_walked ?_ (ite_walked ?_ (ite_walked ?_ (ite_walked rfl rfl))))
    · cases firstTarget? fields locals children <;> rfl
    · cases target? fields locals (.node kind anchor extent comments children) <;> rfl
    · cases target? fields locals (.node kind anchor extent comments children) <;> rfl

private theorem ofNodes_uncommented (locals : List String) : (nodes : List Tree) →
    ofNodes fields.uncommented locals (nodes.map Tree.uncommented) =
      walked (ofNodes fields locals nodes)
  | [] => rfl
  | node :: rest => by
    simp only [List.map_cons, ofNodes, ofNode_uncommented locals node, walked,
      ofNodes_uncommented _ rest, List.map_append]

private theorem ofQualified_uncommented (locals : List String) : (nodes : List Tree) →
    ofQualified fields.uncommented locals (nodes.map Tree.uncommented) =
      walked (ofQualified fields locals nodes)
  | [] => rfl
  | node :: rest => by
    simp only [List.map_cons, ofQualified, Tree.isComposite_uncommented, typeTarget?_uncommented,
      ofNode_uncommented locals node, ofNodes_uncommented _ rest,
      ofQualified_uncommented locals rest]
    split
    · cases typeTarget? fields locals node with
      | none => simp only [walked, List.map_append]
      | some name =>
        simp only [walked, List.map_append]
        rfl
    · rfl

private theorem ofAssignment_uncommented (locals : List String) : (nodes : List Tree) →
    ofAssignment fields.uncommented locals (nodes.map Tree.uncommented) =
      walked (ofAssignment fields locals nodes)
  | [] => rfl
  | node :: rest => by
    have hplain := isPlainAssignment_uncommented (node :: rest)
    rw [List.map_cons] at hplain ⊢
    rw [ofAssignment, ofAssignment]
    simp only [target?_uncommented, hplain, ofNode_uncommented locals node]
    cases target? fields locals node with
    | none => simp only [walked, ofNodes_uncommented _ rest, List.map_append]
    | some target =>
      simp only [walked, ofNodes_uncommented _ rest, List.map_append]
      split <;> rfl

end

end BodyEvent

namespace Body

variable (body : Body) (fields : VisibleFields)

theorem events_uncommented :
    body.uncommented.events fields.uncommented =
      (body.events fields).map BodyEvent.uncommented :=
  congrArg Prod.fst (BodyEvent.ofNode_uncommented fields body.locals body.node)

/-- Code uses the same fields. -/
theorem accesses_uncommented :
    body.uncommented.accesses fields.uncommented = body.accesses fields := by
  have hfunction : body.uncommented.function = body.function := rfl
  unfold accesses
  rw [hfunction, events_uncommented]
  cases body.function with
  | none => rfl
  | some function =>
    dsimp only
    rw [List.filterMap_map]
    refine congrArg (List.filterMap · (body.events fields)) (funext fun event => ?_)
    cases event <;> rfl

end Body

namespace TypeRecord

/-- What is recorded of a type in the tree without comments. -/
def uncommented (record : TypeRecord) : TypeRecord :=
  ⟨record.type.uncommented, record.members.uncommented⟩

theorem visibleFields_uncommented (records : List TypeRecord) (record : TypeRecord) :
    record.uncommented.visibleFields (records.map uncommented) =
      (record.visibleFields records).uncommented := by
  simp only [visibleFields, uncommented, VisibleFields.uncommented, List.find?_map,
    Function.comp_def, DeclaredType.id_uncommented, DeclaredType.outer_uncommented,
    Option.map_map, List.map_filterMap]
  rfl

theorem accesses_uncommented (records : List TypeRecord) :
    accesses (records.map uncommented) = accesses records := by
  have hrecord : ∀ record : TypeRecord, record.uncommented.members.bodies =
    record.members.bodies.map Body.uncommented := fun _ => rfl
  simp only [accesses, List.flatMap_map, hrecord, visibleFields_uncommented,
    Body.accesses_uncommented]

end TypeRecord

end JavaGraph
