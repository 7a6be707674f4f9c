import JavaGraph.Proofs.Graph.Operations
import JavaGraph.Proofs.Scan.Tandem
/-!
# Scans that stay in tandem

What the primitive steps keep is kept by references, members, bodies and declarations, and by the
three passes over a file. Every lemma follows one definition of the scan.
-/

namespace JavaGraph.Tandem

open List (Forall₂)
open ReferenceSite (ParameterHead)

variable {α β γ δ : Type} {T : Tandem} (hT : T.Lawful) {w : T.World} {site site' : ReferenceSite}
include hT

/-! ### References -/

/-- A reference refers to related types of its name, or is malformed in both scans. -/
theorem runs_referred (h : T.Sites w site site') (segments : List Token) :
    T.Runs w (fun w => Referred T w (site.referent? segments)) (site.refer segments)
      (site'.refer segments) := by
  refine runs_of_injective hT fun hi => ?_
  unfold ReferenceSite.refer ReferenceSite.referent?
  cases segments with
  | nil => exact runs_pure hT .none
  | cons first rest =>
    dsimp only
    rw [Declarations.Alike.qualify hi hT.alike h.declared h.owner]
    cases site'.declared.qualify site'.owner ((first :: rest).map (·.text)) with
    | error e =>
      dsimp only
      rw [h.source, h.source']
      exact Runs.bind hT (hT.report _ _ _) fun _ _ => runs_pure hT .none
    | ok name =>
      dsimp only
      refine Runs.bind hT (hT.resolve name first h) fun hle hid => ?_
      have howner := hT.owner_mono hle h.owner
      refine Runs.bind hT (hT.note howner hid.1) fun hle' _ => ?_
      exact runs_pure hT (.some (hT.type_mono hle' hid.1) (hT.named_mono hle' hid.2))

/-- What a reference refers to is related. -/
theorem runs_refer (h : T.Sites w site site') (segments : List Token) :
    T.Runs w (fun w => Option.Rel (T.type w)) (site.refer segments) (site'.refer segments) :=
  (runs_referred hT h segments).imp fun hv => hv.rel

/-- The same names are type parameters. -/
theorem isVariable_eq (hi : Injective (T.type w)) (h : T.Sites w site site')
    (others : List String) (segments : List Token) :
    site.isVariable others segments = site'.isVariable others segments := by
  unfold ReferenceSite.isVariable
  split
  · exact Declarations.Alike.isTypeVariable hi hT.alike h.declared h.owner others _
  · rfl

/-- A mention. -/
theorem runs_mention (h : T.Sites w site site') (typeVariables : List String) (mention : Mention) :
    T.Runs w T.Done (site.mention typeVariables mention) (site'.mention typeVariables mention) := by
  refine runs_of_injective hT fun hi => ?_
  cases mention with
  | annotationName segments => exact Runs.discard hT (runs_refer hT h segments)
  | typeName segments =>
    unfold ReferenceSite.mention
    dsimp only
    rw [isVariable_eq hT hi h]
    split
    · exact runs_pure hT trivial
    · exact Runs.discard hT (runs_refer hT h segments)

/-- Mentions in order. -/
theorem runs_mentionAll (h : T.Sites w site site') (typeVariables : List String)
    (mentions : List Mention) :
    T.Runs w T.Done (site.mentionAll typeVariables mentions)
      (site'.mentionAll typeVariables mentions) :=
  runs_forEach_same hT fun hle => runs_mention hT (h.mono hT hle) typeVariables _

/-- An annotation. -/
theorem runs_annotationUse (h : T.Sites w site site') (node : Tree) :
    T.Runs w T.Done (site.annotationUse node) (site'.annotationUse node) :=
  runs_mentionAll hT h [] _

/-- The annotations of a declaration. -/
theorem runs_annotationUses (h : T.Sites w site site') (node : Tree) :
    T.Runs w T.Done (site.annotationUses node) (site'.annotationUses node) :=
  runs_forEach_same hT fun hle => runs_annotationUse hT (h.mono hT hle) _

/-- The declared type that a type reference names. -/
private def declaredBase? (base : TypeBase) : Option TypeId := TypeUse.declared? { base }

/-- What a type reference names. -/
private theorem runs_typeBase (h : T.Sites w site site') (typeVariables : List String) (node : Tree) :
    T.Runs w (fun w a b => Option.Rel (TypeBase.Alike (T.type w)) a b ∧
        Referred T w (site.baseName? typeVariables node) (a.bind declaredBase?)
          (b.bind declaredBase?))
      (site.typeBase typeVariables node) (site'.typeBase typeVariables node) := by
  refine runs_of_injective hT fun hi => ?_
  unfold ReferenceSite.typeBase ReferenceSite.baseName?
  rw [isVariable_eq hT hi h]
  cases Mention.primitive? node with
  | some token => exact runs_pure hT ⟨.some (.primitive _), .none⟩
  | none =>
    dsimp only
    by_cases hv : site'.isVariable typeVariables node.identifiers = true
    · rw [if_pos hv, if_pos hv, if_pos (by rw [hv, Bool.or_true])]
      refine runs_pure hT ?_
      cases node.identifiers.head? with
      | none => exact ⟨.none, .none⟩
      | some token => exact ⟨.some (.typeVariable _), .none⟩
    · rw [if_neg hv, if_neg hv, if_neg (by simpa using hv)]
      refine Runs.map hT (runs_referred hT h _) fun _ hr => ?_
      generalize site.referent? node.identifiers = name at hr ⊢
      cases hr with
      | none => exact ⟨.none, .none⟩
      | some hab hn => exact ⟨.some (.declared hab), .some hab hn⟩

/-- The use of a type that a type reference is. -/
theorem runs_namedUse (h : T.Sites w site site') (typeVariables : List String) (node : Tree)
    (dimensions : Nat) :
    T.Runs w (fun w a b => Option.Rel (TypeUse.Alike (T.type w)) a b ∧
        Referred T w (site.baseName? typeVariables node) (a.bind (·.declared?))
          (b.bind (·.declared?)))
      (site.typeUse typeVariables node dimensions)
      (site'.typeUse typeVariables node dimensions) := by
  unfold ReferenceSite.typeUse
  refine Runs.bind hT (runs_mentionAll hT h typeVariables _) fun hle _ => ?_
  refine Runs.map hT (runs_typeBase hT (h.mono hT hle) typeVariables node) fun _ hv => ?_
  refine ⟨rel_map hv.1 fun hb => ⟨hb, rfl⟩, ?_⟩
  rw [Option.bind_map, Option.bind_map]
  exact hv.2

/-- Uses of types are related. -/
theorem runs_typeUse (h : T.Sites w site site') (typeVariables : List String) (node : Tree)
    (dimensions : Nat) :
    T.Runs w (fun w => Option.Rel (TypeUse.Alike (T.type w)))
      (site.typeUse typeVariables node dimensions)
      (site'.typeUse typeVariables node dimensions) :=
  (runs_namedUse hT h typeVariables node dimensions).imp And.left

/-- The declared type that a type reference refers to. -/
theorem runs_namedType (h : T.Sites w site site') (typeVariables : List String) (node : Tree) :
    T.Runs w (fun w => Referred T w (site.baseName? typeVariables node))
      (site.declaredType typeVariables node) (site'.declaredType typeVariables node) := by
  unfold ReferenceSite.declaredType
  exact Runs.map hT (runs_namedUse hT h typeVariables node 0) fun _ hv => hv.2

/-- The declared types that type references refer to are related. -/
theorem runs_declaredType (h : T.Sites w site site') (typeVariables : List String) (node : Tree) :
    T.Runs w (fun w => Option.Rel (T.type w)) (site.declaredType typeVariables node)
      (site'.declaredType typeVariables node) :=
  (runs_namedType hT h typeVariables node).imp fun hv => hv.rel

/-- The declared types that type references refer to. -/
theorem runs_declaredTypes (h : T.Sites w site site') (typeVariables : List String) (node : Tree) :
    T.Runs w (fun w => Forall₂ (T.type w)) (site.declaredTypes typeVariables node)
      (site'.declaredTypes typeVariables node) :=
  runs_collect hT hT.type_mono fun hle =>
    runs_declaredType hT (h.mono hT hle) typeVariables _

/-! ### Supertypes -/

/-- The types of a clause. -/
theorem runs_clause (h : T.Sites w site site') (kind : NodeKind) :
    T.Runs w (fun w => Forall₂ (T.type w)) (site.clause kind) (site'.clause kind) := by
  unfold ReferenceSite.clause DeclaredType.node
  rw [(hT.alike h.owner).site]
  split
  · exact runs_pure hT .nil
  · exact runs_declaredTypes hT h [] _

/-- Supertypes that are written are recorded. -/
private theorem runs_written {left right : ScanAction (Option TypeId × List TypeId)}
    (h : T.Sites w site site')
    (hr : T.Runs w (fun w a b => Baseless site a.1 a.2 ∧ Option.Rel (T.type w) a.1 b.1 ∧
      Forall₂ (T.type w) a.2 b.2) left right) :
    T.Runs w (fun w _ _ => T.recorded w site.owner)
      (do
        let (superclass, interfaces) ← left
        ScanState.onGraph <| Graph.updateType site.owner.id fun type =>
          { type with superclass, interfaces })
      (do
        let (superclass, interfaces) ← right
        ScanState.onGraph <| Graph.updateType site'.owner.id fun type =>
          { type with superclass, interfaces }) :=
  Runs.bind hT hr fun hle hv => hT.supertypes (h.mono hT hle) hv.1 hv.2.1 hv.2.2

omit hT in
/-- What is no class body is no anonymous class. -/
private theorem baseless_of_kind {kind : NodeKind} (hk : site.owner.node.kind = kind)
    (hne : kind ≠ .classBody) (superclass : Option TypeId) (interfaces : List TypeId) :
    Baseless site superclass interfaces :=
  fun _ hbody _ => absurd (hk.symm.trans hbody) hne

/-- Supertypes are recorded. -/
theorem runs_recordSupertypes (h : T.Sites w site site') :
    T.Runs w (fun w _ _ => T.recorded w site.owner) site.recordSupertypes
      site'.recordSupertypes := by
  have hsite := (hT.alike h.owner).site
  unfold ReferenceSite.recordSupertypes ReferenceSite.supertypes
  rw [show site'.owner.node = site.owner.node by rw [DeclaredType.node, ← hsite]; rfl, ← hsite]
  split
  · next hk =>
    refine runs_written hT h ?_
    refine Runs.bind hT (runs_clause hT h _) fun hle hextended => ?_
    refine Runs.map hT (runs_clause hT (h.mono hT hle) _) fun hle' himplemented => ?_
    exact ⟨baseless_of_kind hk (by decide) _ _, rel_head? (hextended.imp fun _ _ hab =>
      hT.type_mono hle' hab), himplemented⟩
  · next hk =>
    exact runs_written hT h (Runs.map hT (runs_clause hT h _) fun _ hv =>
      ⟨baseless_of_kind hk (by decide) _ _, .none, hv⟩)
  · next hk =>
    exact runs_written hT h (Runs.map hT (runs_clause hT h _) fun _ hv =>
      ⟨baseless_of_kind hk (by decide) _ _, .none, hv⟩)
  · next hbase _ _ _ =>
    have hless : Baseless site site.owner.outer.head? [] := by
      intro node _ hb
      rw [hbase] at hb
      cases hb
    exact runs_written hT h (runs_pure hT ⟨hless, rel_head? (hT.alike h.owner).outer, .nil⟩)
  · next node hbase _ _ _ =>
    rw [Action.bind_assoc, Action.bind_assoc]
    refine Runs.bind hT (runs_namedType hT h [] node) fun {w' _ _} hle hv => ?_
    have h := h.mono hT hle
    generalize hname : site.baseName? [] node = name at hv
    cases hv with
    | none =>
      have hless : Baseless site none [] := by
        intro other _ hb
        obtain rfl : node = other := by
          rw [hbase] at hb
          cases hb
          rfl
        exact ⟨hname, rfl, rfl⟩
      exact runs_written hT h (runs_pure hT ⟨hless, .none, .nil⟩)
    | some hab hn =>
      -- The kind of the base is read, and the supertypes that follow from it are recorded.
      rw [Action.bind_assoc, Action.bind_assoc]
      exact hT.base h hbase hname hab hn
  · next hbase _ _ _ =>
    have hless : Baseless site none [] := by
      intro node _ hb
      rw [hbase] at hb
      cases hb
    exact runs_written hT h (runs_pure hT ⟨hless, .none, .nil⟩)

/-! ### Members -/

/-- Members of related types. -/
abbrev Members (T : Tandem) (w : T.World) (id : TypeId) : MemberRecord → MemberRecord → Prop :=
  MemberRecord.Alike (T.field w id) (T.function w id)

/-- The text of a use is the same. -/
theorem runs_display {use use' : TypeUse} (h : TypeUse.Alike (T.type w) use use') :
    T.Runs w (fun _ => Eq) (ScanState.readGraph fun graph => .ok (use.display graph))
      (ScanState.readGraph fun graph => .ok (use'.display graph)) :=
  fun _ _ hs => ⟨w, hT.refl w, hs, hT.display hs h⟩

/-- The field of a declarator. -/
theorem runs_recordField (h : T.Sites w site site') (typeRef : Tree) (modifiers : Modifiers)
    (declarator : Tree) :
    T.Runs w (fun w => Option.Rel (Members T w site.owner.id)) (site.recordField typeRef modifiers declarator)
      (site'.recordField typeRef modifiers declarator) := by
  unfold ReferenceSite.recordField
  split
  · exact runs_pure hT .none
  · next name _ =>
    refine Runs.bind hT (runs_typeUse hT h [] typeRef _) fun {w'} _ _ hle hv => ?_
    cases hv with
    | none => exact runs_pure hT .none
    | some hu =>
      have howner := hT.owner_mono hle h.owner
      refine Runs.bind hT (runs_display hT hu) fun hle' hdisplay => ?_
      have howner := hT.owner_mono hle' howner
      refine Runs.map hT (V := (T.field · site.owner.id)) ?_ fun _ hv => ?_
      · refine hT.addField howner rfl rfl ⟨rfl, (hT.alike howner).id, use_mono hT hle' hu, rfl, rfl,
          ?_⟩
        rw [hdisplay]
      · refine .some ⟨.cons ⟨rfl, hv⟩ .nil, ?_⟩
        dsimp only
        cases declarator.nodes.head? with
        | none => exact .nil
        | some node => exact .cons ⟨.none, rfl, rfl, rfl⟩ .nil

/-- The fields of a declaration. -/
theorem runs_recordFields (h : T.Sites w site site') (node : Tree) :
    T.Runs w (Members T · site.owner.id) (site.recordFields node) (site'.recordFields node) := by
  unfold ReferenceSite.recordFields
  refine Runs.bind hT (runs_annotationUses hT h node) fun hle _ => ?_
  split
  · exact runs_pure hT .empty
  · next typeRef _ =>
    have hmodifiers : node.declaredModifiers.ofField site.owner =
        node.declaredModifiers.ofField site'.owner := by
      unfold Modifiers.ofField Modifiers.ofMember DeclaredType.isInterfaceLike
      rw [(hT.alike h.owner).kind]
    rw [hmodifiers]
    refine Runs.map hT (V := fun w => Forall₂ (Members T w site.owner.id)) ?_ fun _ hv => .join hv
    refine runs_collect hT (fun hle hab => members_mono hT hle hab) fun hle' => ?_
    exact runs_recordField hT (h.mono hT (hT.trans hle hle')) typeRef _ _

/-- An enum constant. -/
theorem runs_recordEnumConstant (h : T.Sites w site site') (node : Tree) :
    T.Runs w (Members T · site.owner.id) (site.recordEnumConstant node) (site'.recordEnumConstant node) := by
  unfold ReferenceSite.recordEnumConstant
  refine Runs.bind hT (runs_annotationUses hT h node) fun hle _ => ?_
  split
  · exact runs_pure hT .empty
  · next name _ =>
    have howner := hT.owner_mono hle h.owner
    have halike := hT.alike howner
    refine Runs.map hT (V := (T.field · site.owner.id)) ?_ fun _ hv => ?_
    · refine hT.addField howner rfl rfl ⟨rfl, halike.id, ⟨.declared halike.id, rfl⟩, rfl, rfl, ?_⟩
      rw [halike.name]
    · refine ⟨.cons ⟨rfl, hv⟩ .nil, ?_⟩
      dsimp only
      cases node.childOfKind? .arguments with
      | none => exact .nil
      | some node => exact .cons ⟨.none, rfl, rfl, rfl⟩ .nil

/-- The type parameters of a function. -/
theorem runs_functionTypeParameters (h : T.Sites w site site') (node : Tree) :
    T.Runs w (fun _ => Eq) (site.functionTypeParameters node)
      (site'.functionTypeParameters node) := by
  unfold ReferenceSite.functionTypeParameters
  split
  · exact runs_pure hT rfl
  · refine Runs.bind hT (V := T.Done) ?_ fun _ _ => runs_pure hT rfl
    refine runs_forEach_same hT fun hle => runs_forEach_same hT fun hle' => ?_
    exact Runs.discard hT (runs_typeUse hT (h.mono hT (hT.trans hle hle')) _ _ 0)

/-- What a method returns. -/
theorem runs_returnType (h : T.Sites w site site') (typeVariables : List String) (node : Tree) :
    T.Runs w (fun w => Option.Rel (TypeUse.Alike (T.type w))) (site.returnType typeVariables node)
      (site'.returnType typeVariables node) := by
  unfold ReferenceSite.returnType
  split
  · exact runs_pure hT (.some ⟨.primitive _, rfl⟩)
  · split
    · exact runs_typeUse hT h typeVariables _ _
    · exact runs_pure hT .none

/-- A parameter. -/
theorem runs_parameterHead (h : T.Sites w site site') (typeVariables : List String)
    (node : Tree) :
    T.Runs w (fun w => Option.Rel (ParameterHead.Alike (T.type w)))
      (site.parameterHead typeVariables node) (site'.parameterHead typeVariables node) := by
  unfold ReferenceSite.parameterHead
  refine Runs.bind hT (runs_annotationUses hT h node) fun hle _ => ?_
  split
  · refine Runs.map hT (runs_typeUse hT (h.mono hT hle) typeVariables _ _) fun _ hv => ?_
    exact rel_map hv fun hu => ⟨rfl, hu, rfl⟩
  · exact runs_pure hT .none

/-- Related heads of parameters remain related. -/
theorem head_mono {w' : T.World} (hle : T.le w w') {a b : ParameterHead}
    (h : ParameterHead.Alike (T.type w) a b) : ParameterHead.Alike (T.type w') a b :=
  ⟨h.name, use_mono hT hle h.typeUse, h.isVarargs⟩

/-- The parameters of a function. -/
theorem runs_parameterHeads (h : T.Sites w site site') (typeVariables : List String)
    (node : Tree) :
    T.Runs w (fun w => Forall₂ (ParameterHead.Alike (T.type w)))
      (site.parameterHeads typeVariables node) (site'.parameterHeads typeVariables node) := by
  unfold ReferenceSite.parameterHeads
  split
  · exact runs_pure hT .nil
  · exact runs_collect hT (fun hle hab => head_mono hT hle hab) fun hle =>
      runs_parameterHead hT (h.mono hT hle) typeVariables _

/-- The texts of the uses of parameters are the same. -/
theorem runs_displays {heads heads' : List ParameterHead}
    (h : Forall₂ (ParameterHead.Alike (T.type w)) heads heads') :
    T.Runs w (fun _ => Eq)
      (ScanState.readGraph fun graph => .ok (heads.map (·.typeUse.display graph)))
      (ScanState.readGraph fun graph => .ok (heads'.map (·.typeUse.display graph))) := by
  intro s t hs
  refine ⟨w, hT.refl w, hs, ?_⟩
  exact map_eq_of_forall₂ h fun hab => hT.display hs hab.typeUse

/-- What is recorded of a function when its parts are known. -/
private def signature (site : ReferenceSite) (node : Tree) (kind : FunctionKind) (name : String)
    (typeParameters : List String) (returns : Option TypeUse) (parameters : List ParameterHead)
    (throws : List TypeId) : ScanAction MemberRecord := do
  let displays ← ScanState.readGraph fun graph => .ok (parameters.map (·.typeUse.display graph))
  let id ← ScanState.onGraph do
    let id ← Graph.addFunction {
      name, kind, returns, throws
      declaringType := site.owner.id
      modifiers := site.functionModifiers kind node
      span := .between node.line node.lastLine
      signature := name ++ "(" ++ ",".intercalate displays ++ ")" }
    ReferenceSite.addParameters id parameters
    return id
  let body? := (node.childOfKind? .block).map fun block => ({
    function := some id
    node := block
    locals := parameters.map (·.name)
    typeParameters } : Body)
  return { bodies := body?.toList }

private theorem runs_signature (h : T.Sites w site site') (node : Tree) (kind : FunctionKind)
    (name : String) (typeParameters : List String) {returns returns' : Option TypeUse}
    {parameters parameters' : List ParameterHead} {throws throws' : List TypeId}
    (hreturns : Option.Rel (TypeUse.Alike (T.type w)) returns returns')
    (hparameters : Forall₂ (ParameterHead.Alike (T.type w)) parameters parameters')
    (hthrows : Forall₂ (T.type w) throws throws') :
    T.Runs w (Members T · site.owner.id)
      (signature site node kind name typeParameters returns parameters throws)
      (signature site' node kind name typeParameters returns' parameters' throws') := by
  unfold signature
  refine Runs.bind hT (runs_displays hT hparameters) fun hle hdisplays => ?_
  have howner := hT.owner_mono hle h.owner
  have hmodifiers : site.functionModifiers kind node = site'.functionModifiers kind node := by
    unfold ReferenceSite.functionModifiers Modifiers.ofMember DeclaredType.isInterfaceLike
    rw [(hT.alike h.owner).kind]
  refine Runs.map hT (V := (T.function · site.owner.id)) ?_ fun _ hv => ?_
  · refine hT.addFunction howner rfl rfl rfl rfl ⟨rfl, rfl, (hT.alike howner).id, ?_, ?_,
      hmodifiers, rfl, ?_⟩ (hparameters.imp fun _ _ hab => head_mono hT hle hab)
    · exact rel_imp (fun hab => use_mono hT hle hab) hreturns
    · exact hthrows.imp fun _ _ hab => hT.type_mono hle hab
    · rw [hdisplays]
  · have hlocals := map_eq_of_forall₂ hparameters fun hab => hab.name
    refine ⟨.nil, ?_⟩
    dsimp only
    cases node.childOfKind? .block with
    | none => exact .nil
    | some block => exact .cons ⟨.some hv, rfl, hlocals, rfl⟩ .nil

/-- A condition on the code tells which action comes first. -/
private theorem runs_ite {V : T.World → α → β → Prop} {U : T.World → γ → δ → Prop}
    {condition : Prop} [Decidable condition] {a b : ScanAction α} {a' b' : ScanAction β}
    {next : α → ScanAction γ} {next' : β → ScanAction δ} (hyes : T.Runs w V a a')
    (hno : T.Runs w V b b')
    (hn : ∀ {w' x y}, T.le w w' → V w' x y → T.Runs w' U (next x) (next' y)) :
    T.Runs w U (if condition then a >>= next else b >>= next)
      (if condition then a' >>= next' else b' >>= next') := by
  split
  · exact Runs.bind hT hyes hn
  · exact Runs.bind hT hno hn

/-- A method, a constructor or an initialiser. -/
theorem runs_recordFunction (h : T.Sites w site site') (node : Tree) :
    T.Runs w (Members T · site.owner.id) (site.recordFunction node) (site'.recordFunction node) := by
  unfold ReferenceSite.recordFunction
  refine Runs.bind hT (runs_annotationUses hT h node) fun hle _ => ?_
  have h := h.mono hT hle
  refine Runs.bind hT (runs_functionTypeParameters hT h node) fun hle hv => ?_
  have h := h.mono hT hle
  rw [hv]
  split
  · exact runs_pure hT .empty
  · dsimp only
    refine runs_ite hT (runs_returnType hT h _ node) (runs_pure hT .none)
      fun hle hreturns => ?_
    have h := h.mono hT hle
    refine Runs.bind hT (runs_parameterHeads hT h _ node) fun hle hparameters => ?_
    have h := h.mono hT hle
    have hreturns := rel_imp (fun hab => use_mono hT hle hab) hreturns
    cases node.childOfKind? .throwsClause with
    | none => exact runs_signature hT h node _ _ _ hreturns hparameters .nil
    | some clause =>
      refine Runs.bind hT (runs_declaredTypes hT h _ clause) fun hle hthrows => ?_
      have h := h.mono hT hle
      have hreturns := rel_imp (fun hab => use_mono hT hle hab) hreturns
      have hparameters := hparameters.imp fun _ _ hab => head_mono hT hle hab
      exact runs_signature hT h node _ _ _ hreturns hparameters hthrows

/-! ### Types and bodies -/

/-- A member of a type. -/
theorem runs_recordMember (h : T.Sites w site site') (node : Tree) :
    T.Runs w (Members T · site.owner.id) (site.recordMember node) (site'.recordMember node) := by
  unfold ReferenceSite.recordMember
  split
  · exact runs_recordFields hT h node
  · exact runs_recordEnumConstant hT h node
  · exact runs_recordFunction hT h node
  · exact runs_recordFunction hT h node
  · exact runs_recordFunction hT h node
  · exact runs_pure hT .empty

/-- Supertypes, annotations and members of a type. -/
theorem runs_recordMembers (h : T.Sites w site site') :
    T.Runs w (fun w a b => Members T w site.owner.id a b ∧ T.recorded w site.owner) site.recordMembers
      site'.recordMembers := by
  have hsite := (hT.alike h.owner).site
  unfold ReferenceSite.recordMembers DeclaredType.node DeclaredType.body? DeclaredType.node
  rw [← hsite]
  refine Runs.bind hT (runs_recordSupertypes hT h) fun hle hrecorded => ?_
  have h := h.mono hT hle
  refine Runs.bind hT (runs_annotationUses hT h _) fun hle _ => ?_
  have h := h.mono hT hle
  have hrecorded := hT.recorded_mono hle hrecorded
  split
  · exact runs_pure hT ⟨.empty, hrecorded⟩
  · next body _ =>
    refine Runs.map hT (V := fun w as bs => Forall₂ (Members T w site.owner.id) as bs ∧
      ∀ node ∈ body.children, True) ?_ fun hle hv => ⟨.join hv.1, hT.recorded_mono hle hrecorded⟩
    refine runs_mapEach hT (List.forall₂_refl _ : Forall₂ Eq body.children body.children)
      (fun hle hab => members_mono hT hle hab) (fun _ h => h) fun {w' x y} hle hxy => ?_
    rw [← hxy]
    exact (runs_recordMember hT (h.mono hT hle) x).imp fun hv => ⟨hv, trivial⟩

/-- What a body refers to. -/
theorem runs_recordBody (h : T.Sites w site site') {fields fields' : VisibleFields}
    (hfields : VisibleFields.Alike (site.owner.Sees (T.field w)) fields fields')
    {body body' : Body} (hbody : Body.Alike (T.function w site.owner.id) body body') :
    T.Runs w T.Done (site.recordBody fields body) (site'.recordBody fields' body') := by
  unfold ReferenceSite.recordBody Body.events
  rw [hbody.node, hbody.locals, hbody.typeParameters]
  refine runs_forEach hT (BodyEvent.alike_ofNode hfields body'.locals body'.node).events
    fun hle he => ?_
  have h := h.mono hT hle
  cases he with
  | typeRef node => exact Runs.discard hT (runs_typeUse hT h _ node 0)
  | annotationUse node => exact runs_annotationUse hT h node
  | typeName token => exact Runs.discard hT (runs_refer hT h [token])
  | access line kind hab => exact runs_pure hT trivial

/-! ### Declarations -/

/-- Two actions that keep the scans related if what they declare has admitted names. -/
def RunsIf (T : Tandem) (w : T.World) (V : T.World → α → β → Prop)
    (declared : α → List DeclaredType) (left : ScanAction α) (right : ScanAction β) : Prop :=
  ∀ s t, T.Holds w s t → T.Admits declared (left s).1 → T.Outcome w V (left s) (right t)

/-- Actions in sequence, of which the last one gives all that is declared. -/
theorem RunsIf.bind {V : T.World → α → β → Prop} {U : T.World → γ → δ → Prop}
    {declared : α → List DeclaredType} {declared' : γ → List DeclaredType} {left : ScanAction α}
    {right : ScanAction β} {next : α → ScanAction γ} {next' : β → ScanAction δ}
    (h : RunsIf T w V declared left right)
    (hd : ∀ {x s z s'}, next x s = (.ok z, s') → ∀ type ∈ declared x, type ∈ declared' z)
    (hn : ∀ {w' x y}, T.le w w' → V w' x y → RunsIf T w' U declared' (next x) (next' y)) :
    RunsIf T w U declared' (left >>= next) (right >>= next') := by
  intro s t hs hadmits
  cases hl : left s with
  | mk x s' =>
    cases x with
    | error e =>
      rw [Action.bind_of_error hl] at hadmits ⊢
      have hleft : T.Admits declared (left s).1 := by
        rw [hl]
        exact hadmits
      obtain ⟨w', hle, hs', hv⟩ := h s t hs hleft
      rw [hl] at hs' hv
      cases hr : right t with
      | mk y t' =>
        rw [hr] at hs' hv
        cases y with
        | ok y => exact hv.elim
        | error e' =>
          rw [Action.bind_of_error hr]
          exact ⟨w', hle, hs', hv⟩
    | ok x =>
      rw [Action.bind_of_ok hl] at hadmits ⊢
      have hleft : T.Admits declared (left s).1 := by
        rw [hl]
        intro type htype
        cases hz : next x s' with
        | mk z s'' =>
          rw [hz] at hadmits
          cases z with
          | ok z => exact hadmits type (hd hz type htype)
          | error e => exact hadmits type.name
      obtain ⟨w', hle, hs', hv⟩ := h s t hs hleft
      rw [hl] at hs' hv
      cases hr : right t with
      | mk y t' =>
        rw [hr] at hs' hv
        cases y with
        | error e' => exact hv.elim
        | ok y =>
          rw [Action.bind_of_ok hr]
          obtain ⟨w'', hle', hs'', hu⟩ := hn hle hv s' t' hs' hadmits
          exact ⟨w'', hT.trans hle hle', hs'', hu⟩

omit hT in
/-- Actions that keep the scans related in any case. -/
theorem Runs.runsIf {V : T.World → α → β → Prop} {declared : α → List DeclaredType}
    {left : ScanAction α} {right : ScanAction β} (h : T.Runs w V left right) :
    RunsIf T w V declared left right :=
  fun s t hs _ => h s t hs

section

omit hT

variable (hD : T.Declaring)
include hD

/-- The type of a site. -/
theorem runs_declare {outer outer' : Option DeclaredType} {declaration : Site}
    (hnumbered : declaration.Numbered) (package : Option String)
    (h : Option.Rel (T.owner w) outer outer') :
    RunsIf T w (fun w => Option.Rel (T.owner w)) Option.toList
      (declaration.declare T.source package outer)
      (declaration.declare T.source' package outer') := by
  have hname : declaration.qualifiedName package outer =
      declaration.qualifiedName package outer' := by
    unfold Site.qualifiedName
    cases h with
    | none => rfl
    | some hab =>
      dsimp only
      rw [(hD.alike hab).name]
  unfold Site.declare
  rw [hname]
  split
  · refine Runs.runsIf (Runs.bind hD.toLawful (V := T.Done) ?_ fun _ _ =>
      runs_pure hD.toLawful .none)
    unfold Site.malformed
    split
    · exact hD.report _ _ _
    · exact hD.report _ _ _
  · next name hn => exact fun s t hs => hD.declareAs hnumbered (hname.trans hn) h hs

mutual

/-- The type of a site and those within it. -/
theorem runs_declareTree (package : Option String) :
    ∀ (declaration : Site) {w : T.World} {outer outer' : Option DeclaredType},
      declaration.Numbered → Option.Rel (T.owner w) outer outer' →
      RunsIf T w (fun w => Forall₂ (T.owner w)) id
        (Site.declareTree T.source package outer declaration)
        (Site.declareTree T.source' package outer' declaration)
  | ⟨name?, number?, base?, node, within⟩, w, outer, outer' => by
    intro hnumbered h
    have ih : ∀ {w : T.World} {outer outer' : Option DeclaredType},
        (∀ inner ∈ within, inner.Numbered) → Option.Rel (T.owner w) outer outer' →
        RunsIf T w (fun w => Forall₂ (T.owner w)) id
          (Site.declareAll T.source package outer within)
          (Site.declareAll T.source' package outer' within) :=
      runs_declareAll package within
    have hwithin : ∀ inner ∈ within, inner.Numbered := by
      cases hnumbered with
      | mk anonymous hwithin => exact hwithin
    unfold Site.declareTree
    refine RunsIf.bind hD.toLawful (runs_declare hD hnumbered package h) ?_ fun {w' x y} hle hv => ?_
    · intro x s z s' hz type htype
      cases x with
      | none => cases htype
      | some found =>
        rw [Option.mem_toList] at htype
        cases htype
        obtain ⟨ds, middle, -, hp⟩ := Action.ok_of_bind hz
        cases hp
        exact List.mem_cons_self ..
    · cases hv with
      | none => exact Runs.runsIf (runs_pure hD.toLawful .nil)
      | some hab =>
        dsimp only
        refine RunsIf.bind hD.toLawful (ih hwithin (.some hab)) ?_ fun hle' hvs => ?_
        · intro x s z s' hz type htype
          cases hz
          exact List.mem_cons_of_mem _ htype
        · exact Runs.runsIf (runs_pure hD.toLawful (.cons (hD.owner_mono hle' hab) hvs))

/-- The types of sites and those within them. -/
theorem runs_declareAll (package : Option String) :
    ∀ (declarations : List Site) {w : T.World} {outer outer' : Option DeclaredType},
      (∀ declaration ∈ declarations, declaration.Numbered) →
      Option.Rel (T.owner w) outer outer' →
      RunsIf T w (fun w => Forall₂ (T.owner w)) id
        (Site.declareAll T.source package outer declarations)
        (Site.declareAll T.source' package outer' declarations)
  | [], w, outer, outer' => by
    intro _ h
    unfold Site.declareAll
    exact Runs.runsIf (runs_pure hD.toLawful .nil)
  | declaration :: rest, w, outer, outer' => by
    intro hnumbered h
    have hhere := runs_declareTree package declaration (hnumbered _ (List.mem_cons_self ..)) h
    unfold Site.declareAll
    refine RunsIf.bind hD.toLawful hhere ?_ fun hle hv => ?_
    · intro x s z s' hz type htype
      obtain ⟨others, middle, -, hp⟩ := Action.ok_of_bind hz
      cases hp
      exact List.mem_append_left _ htype
    · have h := rel_imp (fun hab => hD.owner_mono hle hab) h
      have hrest := runs_declareAll package rest (fun inner hi => hnumbered inner
        (List.mem_cons_of_mem _ hi)) h
      refine RunsIf.bind hD.toLawful hrest ?_ fun hle' hvs => ?_
      · intro x s z s' hz type htype
        cases hz
        exact List.mem_append_right _ htype
      · have hv := hv.imp fun _ _ hab => hD.owner_mono hle' hab
        exact Runs.runsIf (runs_pure hD.toLawful (List.rel_append hv hvs))

end

/-- The types of a file. -/
theorem runs_declarations (header : Header) (root : Tree) :
    RunsIf T w (fun w => Declarations.Alike (T.owner w)) (·.types)
      (Declarations.declare T.source header root) (Declarations.declare T.source' header root) := by
  have hsites : ∀ declaration ∈ Site.ofTree root, declaration.Numbered :=
    fun _ => Site.numbered_ofTree
  unfold Declarations.declare
  refine RunsIf.bind hD.toLawful (runs_declareAll hD header.package (Site.ofTree root) hsites .none)
    ?_ fun _ hv => Runs.runsIf (runs_pure hD.toLawful ⟨rfl, rfl, hv⟩)
  intro x s z s' hz type htype
  cases hz
  exact htype

end

/-! ### The three passes -/

/-- What is recorded of the members of one type. -/
private theorem runs_record {declared declared' : Declarations} {owner owner' : DeclaredType}
    (ha : T.among declared) (h : Declarations.Alike (T.owner w) declared declared')
    (ho : T.owner w owner owner') :
    T.Runs w (fun w a b => TypeRecord.Alike (T.owner w) (T.field w) (T.function w) a b ∧
        T.recorded w owner)
      (do return { type := owner
                   members := ← ReferenceSite.recordMembers ⟨T.source, declared, owner⟩ })
      (do return { type := owner'
                   members := ← ReferenceSite.recordMembers ⟨T.source', declared', owner'⟩ }) :=
  Runs.map hT (runs_recordMembers hT ⟨rfl, rfl, ha, h, ho⟩) fun hle hv =>
    ⟨⟨hT.owner_mono hle ho, hv.1⟩, hv.2⟩

/-- Related records remain related. -/
private theorem record_mono {w' : T.World} (hle : T.le w w') {a b : TypeRecord}
    (h : TypeRecord.Alike (T.owner w) (T.field w) (T.function w) a b) :
    TypeRecord.Alike (T.owner w') (T.field w') (T.function w') a b :=
  ⟨hT.owner_mono hle h.type, members_mono hT hle h.members⟩

/-- The bodies of types. -/
private theorem runs_bodies {declared declared' : Declarations}
    {records records' : List TypeRecord} (ha : T.among declared)
    (h : Declarations.Alike (T.owner w) declared declared')
    (hr : Forall₂ (TypeRecord.Alike (T.owner w) (T.field w) (T.function w)) records records') :
    T.Runs w T.Done
      (.forEach records fun record => .forEach record.members.bodies
        (ReferenceSite.recordBody ⟨T.source, declared, record.type⟩
          (record.visibleFields records)))
      (.forEach records' fun record => .forEach record.members.bodies
        (ReferenceSite.recordBody ⟨T.source', declared', record.type⟩
          (record.visibleFields records'))) := by
  refine runs_of_injective hT fun hi => ?_
  refine runs_forEach hT hr fun {w' a b} hle hab => ?_
  have hfields := hab.visibleFields hi hT.alike hr
  refine runs_forEach hT hab.members.bodies fun {w''} _ _ hle' hbody => ?_
  have hle'' := hT.trans hle hle'
  refine runs_recordBody hT ⟨rfl, rfl, ha, h.imp fun h => hT.owner_mono hle'' h,
    hT.owner_mono hle'' hab.type⟩ ?_ ?_
  · have hsees : ∀ {x y}, a.type.Sees (T.field w) x y → a.type.Sees (T.field w'') x y :=
      fun ⟨owner, ho, h⟩ => ⟨owner, ho, hT.field_mono hle'' h⟩
    exact fun name => ⟨rel_imp hsees (hfields name).1, rel_imp hsees (hfields name).2⟩
  · exact ⟨rel_imp (fun h => hT.function_mono hle'' h) hbody.function, hbody.node, hbody.locals,
      hbody.typeParameters⟩

end JavaGraph.Tandem

namespace JavaGraph

/-- The second and the third pass over a file. -/
def readTypes (recordAccesses : Bool) (source : SourceUnit) (declared : Declarations) :
    ScanAction Declarations := do
  let records ← Action.mapEach declared.types fun owner => do
    return ({ type := owner
              members := ← ReferenceSite.recordMembers ⟨source, declared, owner⟩ } : TypeRecord)
  .forEach records fun record =>
    .forEach record.members.bodies
      (ReferenceSite.recordBody ⟨source, declared, record.type⟩ (record.visibleFields records))
  ScanState.flush (if recordAccesses then TypeRecord.accesses records else [])
  return declared

/-- The declared types are passed on. -/
theorem eq_of_readTypes {recordAccesses : Bool} {source : SourceUnit}
    {declared result : Declarations} {s s' : ScanState}
    (h : readTypes recordAccesses source declared s = (.ok result, s')) : result = declared := by
  unfold readTypes at h
  obtain ⟨records, s₁, -, h⟩ := Action.ok_of_bind h
  obtain ⟨_, s₂, -, h⟩ := Action.ok_of_bind h
  obtain ⟨_, s₃, -, h⟩ := Action.ok_of_bind h
  cases h
  rfl

namespace Tandem

open List (Forall₂)

variable {T : Tandem} {w : T.World}

/-- The second and the third pass keep the scans related, and record all supertypes. -/
theorem runs_readTypes (hT : T.Lawful) (recordAccesses : Bool) {declared declared' : Declarations}
    (ha : T.among declared) (h : Declarations.Alike (T.owner w) declared declared') :
    T.Runs w (fun w a b => Declarations.Alike (T.owner w) a b ∧
        ∀ owner ∈ declared.types, T.recorded w owner)
      (readTypes recordAccesses T.source declared)
      (readTypes recordAccesses T.source' declared') := by
  refine runs_of_injective hT fun hi => ?_
  unfold readTypes
  refine Runs.bind hT (V := fun w a b => Forall₂
    (TypeRecord.Alike (T.owner w) (T.field w) (T.function w)) a b ∧
      ∀ owner ∈ declared.types, T.recorded w owner) ?_ fun hle hr => ?_
  · refine runs_mapEach hT h.types (fun hle hab => record_mono hT hle hab)
      (fun hle h => hT.recorded_mono hle h) fun hle hab => ?_
    have h := h.imp fun hab => hT.owner_mono hle hab
    exact runs_record hT ha h (hT.owner_mono hle hab)
  obtain ⟨hr, hrecorded⟩ := hr
  have h := h.imp fun hab => hT.owner_mono hle hab
  refine Runs.bind hT (runs_bodies hT ha h hr) fun hle _ => ?_
  have h := h.imp fun hab => hT.owner_mono hle hab
  have hr := hr.imp fun _ _ hab => record_mono hT hle hab
  have hrecorded := fun owner ho => hT.recorded_mono hle (hrecorded owner ho)
  refine Runs.bind hT (V := T.Done) ?_ fun hle _ =>
    runs_pure hT ⟨h.imp fun hab => hT.owner_mono hle hab,
      fun owner ho => hT.recorded_mono hle (hrecorded owner ho)⟩
  refine runs_of_injective hT fun hi => hT.flush ?_
  split
  · exact TypeRecord.Alike.accesses hi hT.alike hr
  · exact .nil

/-- The three passes keep the scans of a file related, if what the first one declares has admitted
names. -/
theorem runs_scanTypes (hD : T.Declaring) (recordAccesses : Bool) (header : Header)
    (path : String) (root : Tree) (ha : ∀ declared, T.among declared) :
    RunsIf T w (fun w => Declarations.Alike (T.owner w)) (·.types)
      (scanTypes recordAccesses T.source header path root)
      (scanTypes recordAccesses T.source' header path root) := by
  have hT := hD.toLawful
  unfold scanTypes
  refine RunsIf.bind hT (runs_declarations hD header root) ?_ fun {w' x y} hle hv => ?_
  · intro x s z s' hz type htype
    have hzx : z = x := by
      cases hm : x.mainType? path with
      | none =>
        rw [hm] at hz
        exact eq_of_readTypes hz
      | some type =>
        rw [hm] at hz
        obtain ⟨_, _, -, hz⟩ := Action.ok_of_bind hz
        exact eq_of_readTypes hz
    rw [hzx]
    exact htype
  · refine Runs.runsIf ?_
    have hmain := Declarations.Alike.mainType? hT.alike hv path
    dsimp only
    revert hmain
    generalize hx : x.mainType? path = a
    generalize y.mainType? path = b
    intro hmain
    have hread : ∀ {w}, T.le w' w → T.Runs w (fun w => Declarations.Alike (T.owner w))
        (readTypes recordAccesses T.source x) (readTypes recordAccesses T.source' y) :=
      fun hle => (runs_readTypes hT recordAccesses (ha x)
        (hv.imp fun hab => hT.owner_mono hle hab)).imp And.left
    cases hmain with
    | none => exact hread (hT.refl w')
    | some hab => exact Runs.bind hT (hD.setMainType hab) fun hle _ => hread hle

end Tandem

end JavaGraph
