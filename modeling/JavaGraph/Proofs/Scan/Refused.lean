import JavaGraph.Proofs.Scan.Spans
import JavaGraph.Proofs.Tree.Formed
/-!
# Variables that are left out

A field or a parameter is recorded if the type that is written for it is well formed: a primitive
type, a type parameter, or a name that stands for a qualified name. All others are left out, and
each of them is reported with the code of malformed names, at the first identifier of its type.
-/

namespace JavaGraph

open List (Forall₂)
open JavaGraph.Action

/-! ### What is written -/

/-- What functions are written as. -/
def NodeKind.isFunction : NodeKind → Bool
  | .methodDecl | .constructorDecl | .initializer => true
  | _ => false

/-- A parameter with a name and a type, and the type. -/
def Tree.typedParameter? (parameter : Tree) : Option (Tree × Tree) :=
  match parameter.declaredName?, parameter.childOfKind? .typeRef with
  | some _, some typeRef => some (parameter, typeRef)
  | _, _ => none

/-- The variables that a member declares, each with the type that is written for it: the variables
of fields, and the parameters of a function. -/
def Tree.typedVariables (member : Tree) : List (Tree × Tree) :=
  match member.kind with
  | .fieldDecl =>
    match member.childOfKind? .typeRef with
    | none => []
    | some typeRef => (member.childrenOfKind .variableDeclarator).map (·, typeRef)
  | .methodDecl | .constructorDecl | .initializer =>
    match member.childOfKind? .formalParameters with
    | none => []
    | some list => (list.childrenOfKind .parameter).filterMap Tree.typedParameter?
  | _ => []

/-- The variables of a function are its parameters. -/
theorem Tree.typedVariables_of_isFunction {member : Tree} (h : member.kind.isFunction = true) :
    member.typedVariables = match member.childOfKind? .formalParameters with
      | none => []
      | some list => (list.childrenOfKind .parameter).filterMap Tree.typedParameter? := by
  unfold NodeKind.isFunction at h
  unfold typedVariables
  revert h
  cases member.kind <;> first | exact fun _ => rfl | exact nofun

/-- The type parameters of a function are those that it declares. -/
theorem Tree.memberVariables_of_isFunction {member : Tree} (h : member.kind.isFunction = true) :
    member.memberVariables = member.functionVariables := by
  unfold NodeKind.isFunction at h
  unfold memberVariables
  revert h
  cases member.kind <;> first | exact fun _ => rfl | exact nofun

namespace ReferenceSite

variable (site : ReferenceSite)

/-- Whether a type reference is well formed: a primitive type, a type parameter of the types around
or one of some others, or a name that stands for a qualified name. -/
def isWellFormed (typeVariables : List String) (node : Tree) : Bool :=
  (Mention.primitive? node).isSome || site.isVariable typeVariables node.identifiers ||
    (site.referent? node.identifiers).isSome

/-- The variables of a member whose types are well formed. -/
def listedVariables (member : Tree) : List Tree :=
  (member.typedVariables.filter fun typed =>
    site.isWellFormed member.memberVariables typed.2).map (·.1)

/-- The types of the variables that are left out, once for each of them. -/
def malformedTypes (member : Tree) : List Tree :=
  (member.typedVariables.filter fun typed =>
    !site.isWellFormed member.memberVariables typed.2).map (·.2)

/-- The fields that a member is written as. -/
def fieldNodes (member : Tree) : List Tree :=
  match member.kind with
  | .enumConstant => [member]
  | .fieldDecl => site.listedVariables member
  | _ => []

end ReferenceSite

/-! ### What is said -/

/-- A type reference is reported to be malformed, at its first identifier. -/
structure Diagnostic.Refuses (diagnostic : Diagnostic) (file : FileId) (node : Tree) : Prop where
  code : diagnostic.finding.code = some "E0003"
  place : ∃ first ∈ node.identifiers.head?, diagnostic =
    .atToken file first (.malformedName (".".intercalate (node.identifiers.map (·.text))))

/-- Each of some types is reported to be malformed, in order, among what is said. -/
def Refused (file : FileId) (malformed : List Tree) (said : List Diagnostic) : Prop :=
  ∃ refusals : List Diagnostic, refusals.Sublist said ∧
    Forall₂ (fun diagnostic node => diagnostic.Refuses file node) refusals malformed

/-- Between two states, types are reported to be malformed. -/
def ScanState.Refuses (file : FileId) (malformed : List Tree) (s t : ScanState) : Prop :=
  ∃ said, t.diagnostics = s.diagnostics ++ said ∧ Refused file malformed said

namespace ScanState

variable {file : FileId} {malformed more : List Tree} {s t u : ScanState} {α : Type}

theorem refuses_nothing (h : Tells s t) : Refuses file [] s t := by
  obtain ⟨said, hs⟩ := h
  exact ⟨said, hs.symm, [], List.nil_sublist _, .nil⟩

theorem Refuses.append (h : Refuses file malformed s t) (h' : Refuses file more t u) :
    Refuses file (malformed ++ more) s u := by
  obtain ⟨said, hs, refusals, hr, hall⟩ := h
  obtain ⟨said', hs', refusals', hr', hall'⟩ := h'
  refine ⟨said ++ said', ?_, refusals ++ refusals', hr.append hr', List.rel_append hall hall'⟩
  rw [hs', hs, List.append_assoc]

/-- Something is said before. -/
theorem Refuses.after (h : Refuses file malformed t u) (ht : Tells s t) :
    Refuses file malformed s u := (refuses_nothing ht).append h

/-- Something is said behind. -/
theorem Refuses.before (h : Refuses file malformed s t) (ht : Tells t u) :
    Refuses file malformed s u := by
  have := h.append (refuses_nothing ht)
  rwa [List.append_nil] at this

/-- A step that succeeds has taken back nothing that was said. -/
theorem tells_of_run {action : ScanAction α} {x : α} [hk : Keeps Tells action]
    (h : action s = (.ok x, t)) : Tells s t := by
  have := hk.keeps s
  rwa [h] at this

/-- Nothing is taken back when the graph changes. -/
instance (action : GraphAction α) : Keeps Tells (onGraph action) := ⟨fun _ => List.prefix_refl _⟩

/-- What is refused item by item is refused in order. -/
theorem refuses_collect {β : Type} {items : List β} {f : β → ScanAction (Option α)}
    {g : β → List Tree} (hf : ∀ item ∈ items, ∀ {s t x}, f item s = (.ok x, t) →
      Refuses file (g item) s t) :
    ∀ {s t xs}, Action.collect items f s = (.ok xs, t) → Refuses file (items.flatMap g) s t := by
  induction items with
  | nil =>
    intro s t xs h
    cases h
    exact refuses_nothing (List.prefix_refl _)
  | cons item rest ih =>
    intro s t xs h
    rw [List.forall_mem_cons] at hf
    obtain ⟨x, m, hx, h⟩ := ok_of_bind h
    obtain ⟨others, m', hothers, h⟩ := ok_of_bind h
    cases h
    exact (hf.1 hx).append (ih hf.2 hothers)

end ScanState

/-- What is below a formed tree is formed. -/
theorem Tree.Formed.of_mem_descendants {tree other : Tree} (h : tree.Formed)
    (hm : other ∈ tree.descendants) : other.Formed :=
  fun node hn => h node (mem_descendants_trans tree hm hn)

namespace ReferenceSite

variable {site : ReferenceSite} {s t u : ScanState} {member node : Tree}
  {typeVariables : List String}

/-- A type of a formed tree is primitive or has a name. -/
theorem named_of_formed {tree : Tree} (h : tree.Formed) (hn : node ∈ tree.descendants)
    (hk : node.kind = .typeRef) :
    (Mention.primitive? node).isSome = true ∨ node.identifiers ≠ [] := by
  have hc : node.isComposite = true := by
    cases node with
    | error region comments => cases hk
    | node kind anchor extent comments children =>
      obtain rfl : kind = .typeRef := hk
      rfl
  obtain ⟨token, ht, hkind⟩ := (h node hn hc).named hk
  obtain hkind | hkind := hkind
  · exact .inr (List.ne_nil_of_mem (List.mem_filter.2 ⟨ht, beq_iff_eq.2 hkind⟩))
  · refine .inl ?_
    unfold Mention.primitive?
    rw [List.getLast?_isSome]
    exact List.ne_nil_of_mem (List.mem_filter.2 ⟨ht, hkind⟩)

/-- If written segments refer to nothing, this is said at the first of them. -/
private theorem said_refer {segments : List Token} (h : site.refer segments s = (.ok none, t)) :
    ∀ first ∈ segments.head?, t.diagnostics = s.diagnostics ++
      [.atToken site.source.file first
        (.malformedName (".".intercalate (segments.map (·.text))))] := by
  unfold refer at h
  intro first hf
  cases segments with
  | nil => cases hf
  | cons other rest =>
    cases hf
    simp only at h
    cases hq : site.declared.qualify site.owner ((first :: rest).map (·.text)) with
    | error e =>
      rw [hq] at h
      obtain ⟨_, m, hr, h⟩ := ok_of_bind h
      cases h
      cases hr
      rfl
    | ok name =>
      rw [hq] at h
      obtain ⟨target, m, -, h⟩ := ok_of_bind h
      obtain ⟨_, m', -, h⟩ := ok_of_bind h
      cases h

/-- A type that is refused is reported. -/
theorem refuses_refer (hids : node.identifiers ≠ [])
    (h : site.refer node.identifiers s = (.ok none, t)) :
    ScanState.Refuses site.source.file [node] s t := by
  have hhead := List.head?_eq_some_head hids
  exact ⟨_, said_refer h _ hhead, _, List.Sublist.refl _, .cons ⟨rfl, _, hhead, rfl⟩ .nil⟩

/-- A type reference has a use exactly if it is well formed, and else this is said. -/
theorem refuses_typeUse {dimensions : Nat} {use? : Option TypeUse}
    (hn : (Mention.primitive? node).isSome = true ∨ node.identifiers ≠ [])
    (h : site.typeUse typeVariables node dimensions s = (.ok use?, t)) :
    use?.isSome = site.isWellFormed typeVariables node ∧
      ScanState.Refuses site.source.file
        (if site.isWellFormed typeVariables node then [] else [node]) s t := by
  obtain ⟨_, m, hmentions, h⟩ := ok_of_bind h
  obtain ⟨base, m', hb, h⟩ := ok_of_bind h
  cases h
  have htells := ScanState.tells_of_run hmentions
  unfold typeBase at hb
  unfold isWellFormed
  cases hp : Mention.primitive? node with
  | some token =>
    rw [hp] at hb
    cases hb
    exact ⟨rfl, ScanState.refuses_nothing htells⟩
  | none =>
    rw [hp] at hb hn
    have hids := hn.resolve_left (by decide)
    simp only [Option.isSome_none, Bool.false_or] at hb ⊢
    split at hb
    · next hv =>
      cases hb
      rw [hv, Bool.true_or, if_pos rfl, Option.isSome_map, Option.isSome_map, List.isSome_head?]
      exact ⟨by simpa using hids, ScanState.refuses_nothing htells⟩
    · next hv =>
      obtain ⟨id?, m'', hr, hb⟩ := ok_of_bind hb
      cases hb
      rw [Bool.eq_false_iff.2 hv, Bool.false_or, Option.isSome_map, Option.isSome_map,
        ← isSome_refer hr]
      refine ⟨rfl, ?_⟩
      cases id? with
      | some id => exact ScanState.refuses_nothing (htells.trans (ScanState.tells_of_run hr))
      | none => exact (refuses_refer hids hr).after htells

/-! ### Variables -/

/-- Some of the variables of a list have well-formed types, and those of the others are refused. -/
private theorem flatMap_malformed (typed : List (Tree × Tree)) :
    typed.flatMap (fun pair => if site.isWellFormed typeVariables pair.2 then [] else [pair.2]) =
      (typed.filter fun pair => !site.isWellFormed typeVariables pair.2).map (·.2) := by
  induction typed with
  | nil => rfl
  | cons pair rest ih =>
    rw [List.flatMap_cons, List.filter_cons, ih]
    cases site.isWellFormed typeVariables pair.2 <;> rfl

/-- A variable of fields is refused if its type is malformed. -/
private theorem refuses_recordField {typeRef declarator : Tree} {modifiers : Modifiers}
    {record? : Option MemberRecord}
    (hn : (Mention.primitive? typeRef).isSome = true ∨ typeRef.identifiers ≠ [])
    (hw : declarator.declaredName?.isSome = true)
    (h : site.recordField typeRef modifiers declarator s = (.ok record?, t)) :
    ScanState.Refuses site.source.file
      (if site.isWellFormed [] typeRef then [] else [typeRef]) s t := by
  obtain ⟨name, hname⟩ := Option.isSome_iff_exists.1 hw
  unfold recordField at h
  rw [hname] at h
  obtain ⟨use?, m, hu, h⟩ := ok_of_bind h
  have hrefuses := (refuses_typeUse hn hu).2
  cases use? with
  | none =>
    cases h
    exact hrefuses
  | some use =>
    obtain ⟨display, m', hd, h⟩ := ok_of_bind h
    obtain ⟨id, m'', ha, h⟩ := ok_of_bind h
    cases h
    exact (hrefuses.before (ScanState.tells_of_run hd)).before (ScanState.tells_of_run ha)

/-- The types of fields that are left out are refused. -/
theorem refuses_recordFields {record : MemberRecord} (hk : member.kind = .fieldDecl)
    (hf : member.Formed) (hs : member.Shaped)
    (h : site.recordFields member s = (.ok record, t)) :
    ScanState.Refuses site.source.file (site.malformedTypes member) s t := by
  have hvariables : member.memberVariables = [] := by
    unfold Tree.memberVariables
    rw [hk]
  unfold recordFields at h
  unfold malformedTypes Tree.typedVariables
  rw [hk, hvariables]
  obtain ⟨_, m, ha, h⟩ := ok_of_bind h
  have htells := ScanState.tells_of_run ha
  cases hr : member.childOfKind? .typeRef with
  | none =>
    rw [hr] at h
    cases h
    exact ScanState.refuses_nothing htells
  | some typeRef =>
    rw [hr] at h
    obtain ⟨records, m', hc, h⟩ := ok_of_bind h
    cases h
    have htype := Tree.mem_descendants_of_mem_children (List.mem_of_find?_eq_some hr)
    have hkind : typeRef.kind = .typeRef := by simpa using List.find?_some hr
    have hnamed := named_of_formed hf htype hkind
    rw [← flatMap_malformed, List.flatMap_map]
    refine ScanState.Refuses.after
      (ScanState.refuses_collect (fun declarator hd _ _ _ hrun => ?_) hc) htells
    obtain ⟨hm, hdk⟩ := List.mem_filter.1 hd
    have hshaped : declarator.Shaped := hs.of_mem hm
    refine refuses_recordField hnamed (hshaped.childToken?_ident ?_) hrun
    rw [eq_of_beq hdk]
    simp [Rule.ofKind]

/-- A parameter is recorded as it is written. -/
def ParameterHead.ReadOff (head : ParameterHead) (node : Tree) : Prop :=
  node.declaredName?.map (·.text) = some head.name ∧
    head.isVarargs = node.hasChildToken .ellipsis

/-- What is recorded of a parameter, and what is said. -/
private theorem refuses_parameterHead {parameter : Tree} {head? : Option ParameterHead}
    (hf : parameter.Formed) (h : site.parameterHead typeVariables parameter s = (.ok head?, t)) :
    Forall₂ ParameterHead.ReadOff head?.toList
        ((parameter.typedParameter?.toList.filter fun typed =>
          site.isWellFormed typeVariables typed.2).map (·.1)) ∧
      ScanState.Refuses site.source.file
        ((parameter.typedParameter?.toList.filter fun typed =>
          !site.isWellFormed typeVariables typed.2).map (·.2)) s t := by
  unfold parameterHead at h
  unfold Tree.typedParameter?
  obtain ⟨_, m, ha, h⟩ := ok_of_bind h
  have htells := ScanState.tells_of_run ha
  cases hw : parameter.declaredName? with
  | none =>
    rw [hw] at h
    cases h
    exact ⟨.nil, ScanState.refuses_nothing htells⟩
  | some name =>
    cases hr : parameter.childOfKind? .typeRef with
    | none =>
      rw [hw, hr] at h
      cases h
      exact ⟨.nil, ScanState.refuses_nothing htells⟩
    | some typeRef =>
      rw [hw, hr] at h
      obtain ⟨use?, m', hu, h⟩ := ok_of_bind h
      cases h
      have htype := Tree.mem_descendants_of_mem_children (List.mem_of_find?_eq_some hr)
      have hkind : typeRef.kind = .typeRef := by simpa using List.find?_some hr
      obtain ⟨hsome, hrefuses⟩ := refuses_typeUse (named_of_formed hf htype hkind) hu
      cases hwell : site.isWellFormed typeVariables typeRef with
      | false =>
        rw [hwell] at hsome hrefuses
        obtain rfl := Option.isSome_eq_false_iff.1 hsome |> Option.isNone_iff_eq_none.1
        simp only [Option.toList_some, List.filter_singleton, hwell]
        exact ⟨.nil, hrefuses.after htells⟩
      | true =>
        rw [hwell] at hsome hrefuses
        obtain ⟨use, rfl⟩ := Option.isSome_iff_exists.1 hsome
        simp only [Option.toList_some, List.filter_singleton, hwell]
        exact ⟨.cons ⟨by rw [hw]; rfl, rfl⟩ .nil, hrefuses.after htells⟩

/-- The results of some steps correspond to what the steps are about. -/
private theorem forall₂_collect {α β γ : Type} {items : List β} {f : β → ScanAction (Option α)}
    {P : α → γ → Prop} {g : β → List γ} (hf : ∀ item ∈ items, ∀ {s t : ScanState} {x?},
      f item s = (.ok x?, t) → Forall₂ P x?.toList (g item)) :
    ∀ {s t xs}, Action.collect items f s = (.ok xs, t) → Forall₂ P xs (items.flatMap g) := by
  induction items with
  | nil =>
    intro s t xs h
    cases h
    exact .nil
  | cons item rest ih =>
    intro s t xs h
    rw [List.forall_mem_cons] at hf
    obtain ⟨x?, m, hx, h⟩ := ok_of_bind h
    obtain ⟨others, m', hothers, h⟩ := ok_of_bind h
    cases h
    exact List.rel_append (hf.1 hx) (ih hf.2 hothers)

/-- The parameters of a function that are recorded are those that have a name and a well-formed
type, and the types of those that are left out are refused. -/
theorem refuses_parameterHeads {heads : List ParameterHead}
    (hk : member.kind.isFunction = true) (hf : member.Formed)
    (h : site.parameterHeads member.memberVariables member s = (.ok heads, t)) :
    Forall₂ ParameterHead.ReadOff heads (site.listedVariables member) ∧
      ScanState.Refuses site.source.file (site.malformedTypes member) s t := by
  unfold parameterHeads at h
  unfold listedVariables malformedTypes
  rw [Tree.typedVariables_of_isFunction hk]
  cases hl : member.childOfKind? .formalParameters with
  | none =>
    rw [hl] at h
    cases h
    exact ⟨.nil, ScanState.refuses_nothing (List.prefix_refl _)⟩
  | some list =>
    rw [hl] at h
    have hformed : ∀ parameter ∈ list.childrenOfKind .parameter, parameter.Formed :=
      fun parameter hp => hf.of_mem_descendants (Tree.mem_descendants_of_mem
        (Tree.mem_descendants_of_mem_children (List.mem_of_find?_eq_some hl))
        (List.mem_of_mem_filter hp))
    simp only [List.filterMap_eq_flatMap_toList, List.filter_flatMap, List.map_flatMap]
    exact ⟨forall₂_collect (fun parameter hp _ _ _ hrun =>
        (refuses_parameterHead (hformed parameter hp) hrun).1) h,
      ScanState.refuses_collect (fun parameter hp _ _ _ hrun =>
        (refuses_parameterHead (hformed parameter hp) hrun).2) h⟩

end ReferenceSite

end JavaGraph
