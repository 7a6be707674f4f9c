import JavaGraph.Proofs.Scan.Uncommented
import JavaGraph.Proofs.Scan.Walk
/-!
# Scans do not look at comments

The scan of a file does the same if the comments are taken off its tree: step by step it makes the same
of a node and of the node without comments. So it does not matter which tokens are collected when a
text is parsed, and whether comments are attached.
-/

namespace JavaGraph

/-! ### Actions whose results are changed -/

namespace Action

variable {ε σ α β γ : Type}

instance : LawfulMonad (Action ε σ) := .mk' (Action ε σ)
  (by
    intro α action
    funext state
    simp only [Functor.map]
    generalize action state = result
    obtain ⟨_ | _, _⟩ := result <;> rfl)
  (fun _ _ => rfl)
  (by
    intro α β γ action next last
    funext state
    simp only [Bind.bind]
    generalize action state = result
    obtain ⟨_ | _, _⟩ := result <;> rfl)

theorem forEach_map (items : List γ) (g : γ → β) (f : β → Action ε σ Unit) :
    forEach (items.map g) f = forEach items fun item => f (g item) := by
  induction items with
  | nil => rfl
  | cons item rest ih => simp only [List.map_cons, forEach, ih]

theorem collect_map (items : List γ) (g : γ → β) (f : β → Action ε σ (Option α)) :
    collect (items.map g) f = collect items fun item => f (g item) := by
  induction items with
  | nil => rfl
  | cons item rest ih => simp only [List.map_cons, collect, ih]

theorem mapEach_map (items : List γ) (g : γ → β) (f : β → Action ε σ α) :
    mapEach (items.map g) f = mapEach items fun item => f (g item) := by
  induction items with
  | nil => rfl
  | cons item rest ih => simp only [List.map_cons, mapEach, ih]

theorem within_map {τ : Type} (get : σ → τ) (set : τ → σ → σ) (g : α → β)
    (action : Action ε τ α) : (g <$> action).within get set = g <$> action.within get set := by
  funext state
  simp only [within, Functor.map]
  generalize action (get state) = result
  obtain ⟨_ | _, _⟩ := result <;> rfl

/-- Results that are changed one by one. -/
theorem mapEach_results (items : List γ) (g : α → β) (f : γ → Action ε σ α) :
    (mapEach items fun item => g <$> f item) = List.map g <$> mapEach items f := by
  induction items with
  | nil => rfl
  | cons item rest ih =>
    simp only [mapEach, ih, map_bind, bind_map_left, map_pure, List.map_cons]

/-- The same for the results there are. -/
theorem collect_results (items : List γ) (g : α → β) (f : γ → Action ε σ (Option α)) :
    (collect items fun item => Option.map g <$> f item) = List.map g <$> collect items f := by
  induction items with
  | nil => rfl
  | cons item rest ih =>
    simp only [collect, ih, map_bind, bind_map_left, map_pure, List.map_append, Option.toList_map]

end Action

/-! ### References -/

namespace ReferenceSite

/-- The place in the tree without comments. -/
def uncommented (site : ReferenceSite) : ReferenceSite :=
  ⟨site.source, site.declared.uncommented, site.owner.uncommented⟩

variable (site : ReferenceSite) (typeVariables : List String) (node : Tree)

@[simp] theorem owner_uncommented : site.uncommented.owner = site.owner.uncommented := rfl

@[simp] theorem refer_uncommented (segments : List Token) :
    site.uncommented.refer segments = site.refer segments := by
  unfold refer
  cases segments with
  | nil => rfl
  | cons first rest =>
    simp only [uncommented, Declarations.qualify_uncommented]
    rfl

@[simp] theorem isVariable_uncommented (segments : List Token) :
    site.uncommented.isVariable typeVariables segments =
      site.isVariable typeVariables segments := by
  unfold isVariable uncommented
  split
  · rw [Declarations.isTypeVariable_uncommented]
  · rfl

@[simp] theorem mentionAll_uncommented (mentions : List Mention) :
    site.uncommented.mentionAll typeVariables mentions = site.mentionAll typeVariables mentions := by
  have hmention : site.uncommented.mention typeVariables = site.mention typeVariables := by
    funext mention
    cases mention <;>
      simp only [ReferenceSite.mention, refer_uncommented, isVariable_uncommented]
  rw [mentionAll, mentionAll, hmention]

@[simp] theorem annotationUse_uncommented :
    site.uncommented.annotationUse node.uncommented = site.annotationUse node := by
  simp only [annotationUse, Mention.ofAnnotation_uncommented, mentionAll_uncommented]

@[simp] theorem annotationUses_uncommented :
    site.uncommented.annotationUses node.uncommented = site.annotationUses node := by
  simp only [annotationUses, Tree.annotationUses_uncommented, Action.forEach_map,
    annotationUse_uncommented]

@[simp] theorem typeBase_uncommented :
    site.uncommented.typeBase typeVariables node.uncommented =
      site.typeBase typeVariables node := by
  simp only [typeBase, Mention.primitive?_uncommented, isVariable_uncommented,
    Tree.identifiers_uncommented, refer_uncommented]

@[simp] theorem typeUse_uncommented (dimensions : Nat) :
    site.uncommented.typeUse typeVariables node.uncommented dimensions =
      site.typeUse typeVariables node dimensions := by
  simp only [typeUse, Tree.children_uncommented, Mention.ofParts_uncommented,
    mentionAll_uncommented, typeBase_uncommented, Tree.bracketCount_uncommented]

@[simp] theorem declaredType_uncommented :
    site.uncommented.declaredType typeVariables node.uncommented =
      site.declaredType typeVariables node := by
  simp only [declaredType, typeUse_uncommented]

@[simp] theorem declaredTypes_uncommented :
    site.uncommented.declaredTypes typeVariables node.uncommented =
      site.declaredTypes typeVariables node := by
  simp only [declaredTypes, Tree.childrenOfKind_uncommented, Action.collect_map,
    declaredType_uncommented]

/-! ### Supertypes -/

@[simp] theorem clause_uncommented (kind : NodeKind) :
    site.uncommented.clause kind = site.clause kind := by
  simp only [clause, owner_uncommented, DeclaredType.node_uncommented,
    Tree.childOfKind?_uncommented]
  cases site.owner.node.childOfKind? kind with
  | none => rfl
  | some clause => exact site.declaredTypes_uncommented [] clause

@[simp] theorem supertypes_uncommented : site.uncommented.supertypes = site.supertypes := by
  unfold supertypes
  simp only [owner_uncommented, DeclaredType.node_uncommented, Tree.kind_uncommented,
    DeclaredType.site_uncommented, Site.base?_uncommented, clause_uncommented,
    DeclaredType.outer_uncommented]
  cases site.owner.node.kind <;> first
    | rfl
    | cases site.owner.site.base? with
      | none => rfl
      | some base =>
        cases base with
        | typeRef node =>
          simp only [Option.map_some, AnonymousBase.uncommented, declaredType_uncommented]
        | enclosingEnum => rfl

@[simp] theorem recordSupertypes_uncommented :
    site.uncommented.recordSupertypes = site.recordSupertypes := by
  simp only [recordSupertypes, supertypes_uncommented, owner_uncommented,
    DeclaredType.id_uncommented]

/-! ### Members -/

theorem recordField_uncommented (typeRef : Tree) (modifiers : Modifiers) (declarator : Tree) :
    site.uncommented.recordField typeRef.uncommented modifiers declarator.uncommented =
      Option.map MemberRecord.uncommented <$> site.recordField typeRef modifiers declarator := by
  unfold recordField
  rw [Tree.declaredName?_uncommented]
  cases declarator.declaredName? with
  | none => rfl
  | some name =>
    simp only [typeUse_uncommented, Tree.bracketCount_uncommented, map_bind]
    congr 1
    funext use
    cases use with
    | none => rfl
    | some use =>
      simp only [map_bind, map_pure, Tree.line_uncommented, Tree.nodes_uncommented,
        List.head?_map, Option.map_some, MemberRecord.uncommented]
      cases declarator.nodes.head? <;> rfl

theorem recordFields_uncommented :
    site.uncommented.recordFields node.uncommented =
      MemberRecord.uncommented <$> site.recordFields node := by
  unfold recordFields
  simp only [annotationUses_uncommented, map_bind, Tree.childOfKind?_uncommented]
  congr 1
  funext _
  cases node.childOfKind? .typeRef with
  | none => rfl
  | some typeRef =>
    simp only [Option.map_some, Tree.declaredModifiers_uncommented, Tree.childrenOfKind_uncommented,
      Action.collect_map, map_bind, map_pure, ← MemberRecord.join_uncommented]
    have hfield := fun modifiers declarator =>
      site.recordField_uncommented typeRef modifiers declarator
    simp only [hfield, Action.collect_results, bind_map_left]
    rfl

theorem recordEnumConstant_uncommented :
    site.uncommented.recordEnumConstant node.uncommented =
      MemberRecord.uncommented <$> site.recordEnumConstant node := by
  unfold recordEnumConstant
  simp only [annotationUses_uncommented, map_bind, Tree.declaredName?_uncommented]
  congr 1
  funext _
  cases node.declaredName? with
  | none => rfl
  | some name =>
    simp only [map_bind, map_pure, Tree.line_uncommented, Tree.childOfKind?_uncommented,
      MemberRecord.uncommented]
    cases node.childOfKind? .arguments <;> rfl

@[simp] theorem functionTypeParameters_uncommented :
    site.uncommented.functionTypeParameters node.uncommented =
      site.functionTypeParameters node := by
  unfold functionTypeParameters
  rw [Tree.childOfKind?_uncommented]
  cases node.childOfKind? .typeParameters with
  | none => rfl
  | some list =>
    simp only [Option.map_some, Tree.typeParameterNames_uncommented,
      Tree.childrenOfKind_uncommented, Action.forEach_map, typeUse_uncommented]

@[simp] theorem functionHead?_uncommented : functionHead? node.uncommented = functionHead? node := by
  simp only [functionHead?, Tree.kind_uncommented, Tree.hasChildToken_uncommented,
    Tree.declaredName?_uncommented]

@[simp] theorem returnType_uncommented :
    site.uncommented.returnType typeVariables node.uncommented =
      site.returnType typeVariables node := by
  unfold returnType
  rw [Tree.childToken?_uncommented, Tree.childOfKind?_uncommented, Tree.bracketCount_uncommented]
  cases node.childToken? .kwVoid with
  | some token => rfl
  | none =>
    cases node.childOfKind? .typeRef with
    | none => rfl
    | some typeRef => exact site.typeUse_uncommented typeVariables typeRef node.bracketCount

@[simp] theorem parameterHead_uncommented :
    site.uncommented.parameterHead typeVariables node.uncommented =
      site.parameterHead typeVariables node := by
  unfold parameterHead
  simp only [annotationUses_uncommented, Tree.declaredName?_uncommented,
    Tree.childOfKind?_uncommented, Tree.hasChildToken_uncommented, Tree.bracketCount_uncommented]
  congr 1
  funext _
  cases node.declaredName? <;> cases node.childOfKind? .typeRef <;> first
    | rfl
    | simp only [Option.map_some, typeUse_uncommented]

@[simp] theorem parameterHeads_uncommented :
    site.uncommented.parameterHeads typeVariables node.uncommented =
      site.parameterHeads typeVariables node := by
  unfold parameterHeads
  rw [Tree.childOfKind?_uncommented]
  cases node.childOfKind? .formalParameters with
  | none => rfl
  | some list =>
    simp only [Option.map_some, Tree.childrenOfKind_uncommented, Action.collect_map,
      parameterHead_uncommented]

@[simp] theorem functionModifiers_uncommented (kind : FunctionKind) :
    site.uncommented.functionModifiers kind node.uncommented =
      site.functionModifiers kind node := by
  cases kind <;> simp only [functionModifiers, Tree.declaredModifiers_uncommented,
    Tree.childOfKind?_uncommented, Option.isNone_map, Tree.hasChildToken_uncommented]
  rfl

theorem recordFunction_uncommented :
    site.uncommented.recordFunction node.uncommented =
      MemberRecord.uncommented <$> site.recordFunction node := by
  unfold recordFunction
  simp only [annotationUses_uncommented, functionTypeParameters_uncommented, map_bind,
    functionHead?_uncommented, returnType_uncommented, parameterHeads_uncommented,
    functionModifiers_uncommented, Tree.childOfKind?_uncommented, Tree.line_uncommented,
    Tree.lastLine_uncommented]
  congr 1
  funext _
  congr 1
  funext typeParameters
  cases functionHead? node with
  | none => rfl
  | some head =>
    obtain ⟨kind, name⟩ := head
    dsimp only
    split <;> cases node.childOfKind? .throwsClause <;>
      simp only [Option.map_none, Option.map_some, declaredTypes_uncommented, map_bind, map_pure] <;>
      cases node.childOfKind? .block <;> rfl

theorem recordMember_uncommented :
    site.uncommented.recordMember node.uncommented =
      MemberRecord.uncommented <$> site.recordMember node := by
  unfold recordMember
  rw [Tree.kind_uncommented]
  cases node.kind <;> first
    | rfl
    | exact site.recordFields_uncommented node
    | exact site.recordEnumConstant_uncommented node
    | exact site.recordFunction_uncommented node

/-- The members of the type are recorded in the same way. -/
theorem recordMembers_uncommented :
    site.uncommented.recordMembers = MemberRecord.uncommented <$> site.recordMembers := by
  unfold recordMembers
  simp only [recordSupertypes_uncommented, owner_uncommented, DeclaredType.node_uncommented,
    annotationUses_uncommented, map_bind, DeclaredType.body?_uncommented]
  congr 1
  funext _
  congr 1
  funext _
  cases site.owner.body? with
  | none => rfl
  | some body =>
    simp only [Option.map_some, Tree.children_uncommented, Action.mapEach_map,
      recordMember_uncommented, Action.mapEach_results, bind_map_left, map_bind, map_pure,
      MemberRecord.join_uncommented]

/-! ### Code -/

theorem recordEvent_uncommented (event : BodyEvent) :
    site.uncommented.recordEvent typeVariables event.uncommented =
      site.recordEvent typeVariables event := by
  cases event <;>
    simp only [BodyEvent.uncommented, recordEvent, typeUse_uncommented, annotationUse_uncommented,
      refer_uncommented]

/-- What code refers to is recorded in the same way. -/
theorem recordBody_uncommented (fields : VisibleFields) (body : Body) :
    site.uncommented.recordBody fields.uncommented body.uncommented =
      site.recordBody fields body := by
  simp only [recordBody, Body.events_uncommented, Action.forEach_map]
  exact congrArg (Action.forEach _) (funext fun event =>
    site.recordEvent_uncommented body.typeParameters event)

end ReferenceSite

/-! ### Declarations -/

namespace Site

variable (site : Site) (source : SourceUnit) (package : Option String)
  (outer : Option DeclaredType)

theorem declareAs_uncommented (name : QualifiedName) :
    site.uncommented.declareAs source (outer.map DeclaredType.uncommented) name =
      Option.map DeclaredType.uncommented <$> site.declareAs source outer name := by
  unfold declareAs
  rw [map_bind]
  congr 1
  funext result
  cases result with
  | error e => cases e <;> simp only [node_uncommented, Diagnostic.atNode_uncommented] <;> rfl
  | ok id =>
    simp only [declaredNode_uncommented, map_bind, node_uncommented, Tree.kind_uncommented]
    cases outer <;> simp only [Option.map_none, Option.map_some, map_bind, map_pure, sourceName?,
      name?_uncommented, number?_uncommented, DeclaredType.uncommented]

theorem declare_uncommented :
    site.uncommented.declare source package (outer.map DeclaredType.uncommented) =
      Option.map DeclaredType.uncommented <$> site.declare source package outer := by
  unfold declare
  rw [qualifiedName_uncommented, malformed_uncommented]
  cases site.qualifiedName package outer with
  | error e => rfl
  | ok name => exact site.declareAs_uncommented source outer name

mutual

private theorem declareTree_uncommented (outer : Option DeclaredType) : (site : Site) →
    declareTree source package (outer.map DeclaredType.uncommented) site.uncommented =
      List.map DeclaredType.uncommented <$> declareTree source package outer site
  | ⟨name?, number?, base?, node, within⟩ => by
    have hdeclare := declare_uncommented ⟨name?, number?, base?, node, within⟩ source package outer
    rw [uncommented_mk] at hdeclare ⊢
    rw [declareTree, declareTree, hdeclare, bind_map_left, map_bind]
    congr 1
    funext type
    cases type with
    | none => rfl
    | some type =>
      have hwithin := declareAll_uncommented (some type) within
      simp only [Option.map_some] at hwithin ⊢
      simp only [hwithin, bind_map_left, map_bind, map_pure, List.map_cons]

private theorem declareAll_uncommented (outer : Option DeclaredType) : (sites : List Site) →
    declareAll source package (outer.map DeclaredType.uncommented) (sites.map uncommented) =
      List.map DeclaredType.uncommented <$> declareAll source package outer sites
  | [] => rfl
  | site :: rest => by
    rw [List.map_cons, declareAll, declareAll]
    simp only [declareTree_uncommented outer site, declareAll_uncommented outer rest, bind_map_left,
      map_bind, map_pure, List.map_append]

end

end Site

theorem Declarations.declare_uncommented (source : SourceUnit) (header : Header) (root : Tree) :
    declare source header root.uncommented =
      Declarations.uncommented <$> declare source header root := by
  have hall : Site.declareAll source header.package none ((Site.ofTree root).map Site.uncommented) =
      List.map DeclaredType.uncommented <$>
        Site.declareAll source header.package none (Site.ofTree root) :=
    Site.declareAll_uncommented source header.package none (Site.ofTree root)
  simp only [declare, Site.ofTree_uncommented, hall, bind_map_left, map_bind, map_pure,
    List.filterMap_map, Function.comp_def, Site.name?_uncommented, uncommented]

/-! ### Files -/

/-- Members and code are read in the same way. -/
private theorem readTypes_uncommented (recordAccesses : Bool) (source : SourceUnit)
    (declared : Declarations) :
    readTypes recordAccesses source declared.uncommented =
      Declarations.uncommented <$> readTypes recordAccesses source declared := by
  have hmembers : ∀ owner : DeclaredType,
      ReferenceSite.recordMembers ⟨source, declared.uncommented, owner.uncommented⟩ =
        MemberRecord.uncommented <$> ReferenceSite.recordMembers ⟨source, declared, owner⟩ :=
    fun owner => ReferenceSite.recordMembers_uncommented ⟨source, declared, owner⟩
  have hrecords : (Action.mapEach declared.uncommented.types fun owner => do
      return ({ type := owner
                members := ← ReferenceSite.recordMembers ⟨source, declared.uncommented, owner⟩ } :
        TypeRecord)) =
      List.map TypeRecord.uncommented <$> Action.mapEach declared.types fun owner => do
        return ({ type := owner
                  members := ← ReferenceSite.recordMembers ⟨source, declared, owner⟩ } :
          TypeRecord) := by
    have htypes : declared.uncommented.types = declared.types.map DeclaredType.uncommented := rfl
    rw [htypes, Action.mapEach_map, ← Action.mapEach_results]
    simp only [hmembers, bind_map_left, map_bind, map_pure, TypeRecord.uncommented]
  have hbodies : ∀ records : List TypeRecord,
      (Action.forEach (records.map TypeRecord.uncommented) fun record =>
        Action.forEach record.members.bodies (ReferenceSite.recordBody
          ⟨source, declared.uncommented, record.type⟩
          (record.visibleFields (records.map TypeRecord.uncommented)))) =
      Action.forEach records fun record => Action.forEach record.members.bodies
        (ReferenceSite.recordBody ⟨source, declared, record.type⟩
          (record.visibleFields records)) := by
    intro records
    rw [Action.forEach_map]
    refine congrArg (Action.forEach records) (funext fun record => ?_)
    rw [TypeRecord.visibleFields_uncommented]
    refine (Action.forEach_map record.members.bodies Body.uncommented _).trans ?_
    exact congrArg (Action.forEach _) (funext fun body =>
      ReferenceSite.recordBody_uncommented ⟨source, declared, record.type⟩
        (record.visibleFields records) body)
  unfold readTypes
  simp only [hrecords, hbodies, bind_map_left, map_bind, map_pure,
    TypeRecord.accesses_uncommented]

/-- A file is scanned in the same way. -/
theorem scanTypes_uncommented (recordAccesses : Bool) (source : SourceUnit) (header : Header)
    (path : String) (root : Tree) :
    scanTypes recordAccesses source header path root.uncommented =
      Declarations.uncommented <$> scanTypes recordAccesses source header path root := by
  unfold scanTypes
  rw [Declarations.declare_uncommented, bind_map_left, map_bind]
  congr 1
  funext declared
  have hread := readTypes_uncommented recordAccesses source declared
  dsimp only
  rw [Declarations.mainType?_uncommented]
  cases declared.mainType? path with
  | none => exact hread
  | some type =>
    rw [map_bind]
    exact congrArg (_ >>= ·) (funext fun _ => hread)

namespace OpenProject

/-- What is made of a result does not matter to the scan. -/
private theorem scan_map {α β : Type} (diagnostics : List Diagnostic) (f : α → β)
    (action : ScanAction α) :
    scan diagnostics (f <$> action) =
      (fun found => (f found.1, found.2)) <$> scan diagnostics action := by
  unfold scan
  rw [← Action.within_map]
  simp only [bind_map_left, map_bind, map_pure]

/-- A parsed file is scanned in the same way. -/
private theorem scanParsed_uncommented (recordAccesses : Bool) (path : String)
    (parsed : ParsedSource) :
    scanParsed recordAccesses path { parsed with root := parsed.root.uncommented } =
      scanParsed recordAccesses path parsed := by
  have hids : ∀ declared : Declarations, declared.uncommented.types.map (·.id) =
      declared.types.map (·.id) := fun declared => List.map_map
  have hnew : ∀ file, scanNew recordAccesses file path
      { parsed with root := parsed.root.uncommented } =
        scanNew recordAccesses file path parsed := by
    intro file
    simp only [scanNew, Header.ofTree_uncommented, scanTypes_uncommented, scan_map, bind_map_left,
      hids]
    rfl
  simp only [scanParsed, hnew]

/-- Parsed files with the same faults are scanned in the same way if their trees are the same but for
comments. -/
theorem scanParsed_congr (recordAccesses : Bool) (path : String) {parsed parsed' : ParsedSource}
    (hr : parsed.root.uncommented = parsed'.root.uncommented)
    (he : parsed.errors = parsed'.errors) :
    scanParsed recordAccesses path parsed = scanParsed recordAccesses path parsed' := by
  rw [← scanParsed_uncommented recordAccesses path parsed,
    ← scanParsed_uncommented recordAccesses path parsed', hr]
  obtain ⟨root, tokens, hidden, errors⟩ := parsed
  obtain ⟨root', tokens', hidden', errors'⟩ := parsed'
  cases he
  rfl

/-- A text is scanned in the same way, whichever of its tokens are collected, and whether or not
comments are attached. -/
theorem scanSource_hidden (config : ScanConfig) (hiddenTokens : List TokenKind)
    (attachComments : Bool) (path text : String) :
    scanSource { config with hiddenTokens, attachComments } path text =
      scanSource config path text :=
  scanParsed_congr config.recordAccesses path
    (by rw [uncommented_parseSource, uncommented_parseSource]) (errors_parseSource ..)

end OpenProject

end JavaGraph
