import JavaGraph.Proofs.Scan.Laid
import JavaGraph.Proofs.Scan.Members
import JavaGraph.Proofs.Scan.Mentions
/-!
# Where types are written

A type that is written in a declaration is mentioned by the declaration itself or by one of its
members, or it is an event of the code of one. That holds wherever a type can be written, except
where no pass looks: `ReferenceSite.passesOver` tells these places.
-/

namespace JavaGraph

open Tree

variable {node tree child : Tree}

/-! ### Where types are written -/

/-- A node stands at another one or below it, and is part neither of a type that is declared below
it nor of what is passed over on the way. -/
inductive Tree.Reaches (passes : Tree → Tree → Bool) : Tree → Tree → Prop
  | here (tree : Tree) : Reaches passes tree tree
  | child {tree child node : Tree} : child ∈ tree.children →
      (child.kind.isTypeDeclaration || child.kind.isBody) = false → passes tree child = false →
      Reaches passes child node → Reaches passes tree node

namespace Tree.Reaches

variable {passes : Tree → Tree → Bool}

/-- A type that is written in a piece of code is one of its nodes. -/
theorem mem_codeNodes (h : Reaches passes tree node) (hn : node.kind = .typeRef)
    (hk : (tree.kind.isTypeDeclaration || tree.kind.isBody) = false) : node ∈ tree.codeNodes := by
  have hlevel : ∀ {tree : Tree}, (tree.kind.isTypeDeclaration || tree.kind.isBody) = false →
      (tree.kind.isTypeDeclaration || tree.kind = .classBody) = false := by
    intro tree
    cases tree.kind <;> decide
  induction h with
  | here tree =>
    refine mem_codeNodes_self ?_ (hlevel hk)
    cases tree with
    | error region comments => cases hn
    | node kind anchor extent comments children => rfl
  | @child tree child node hm hc _ _ ih =>
    refine Tree.mem_codeNodes.2 ⟨?_, hlevel hk, .inr ⟨child, hm, ih hn hc⟩⟩
    cases tree with
    | error region comments => cases hm
    | node kind anchor extent comments children => rfl

/-- Where a type is written there is a composite node. -/
theorem isComposite (hs : tree.Shaped) (h : Reaches passes tree node) (hn : node.kind = .typeRef) :
    tree.isComposite = true := by
  cases hc : tree.isComposite with
  | true => rfl
  | false =>
    have hk : (tree.kind.isTypeDeclaration || tree.kind.isBody) = false := by
      rcases hs.error_or_leaf hc with he | ⟨hk, -⟩
      · cases tree with
        | error region comments => rfl
        | node kind anchor extent comments children => cases he
      · rw [hk]
        rfl
    exact absurd hn (quiet_of_not_composite hs hc node (h.mem_codeNodes hn hk))

/-- A type that is written below something else is written in one of its children. -/
theorem exists_child (h : Reaches passes tree node) (hn : node.kind = .typeRef)
    (hk : tree.kind ≠ .typeRef) : ∃ child ∈ tree.children,
      (child.kind.isTypeDeclaration || child.kind.isBody) = false ∧ passes tree child = false ∧
        Reaches passes child node ∧ node ∈ child.codeNodes := by
  cases h with
  | here tree => exact absurd hn hk
  | @child tree child node hm hc hp h => exact ⟨child, hm, hc, hp, h, h.mem_codeNodes hn hc⟩

/-- The first child of a kind is reached from its parent if it is not passed over. -/
theorem first {kind : NodeKind} (h : tree.childOfKind? kind = some child)
    (hc : (child.kind.isTypeDeclaration || child.kind.isBody) = false)
    (hp : passes tree child = false) (hr : child.Reaches passes node) : tree.Reaches passes node :=
  .child (List.mem_of_find?_eq_some h) hc hp hr

end Tree.Reaches

namespace ReferenceSite

/-- What no pass looks at: the type parameters of a class, of an interface and of a field, a
parameter without a name, the default value of a method, and the initial values of fields whose
type is missing or malformed. -/
def passesOver (site : ReferenceSite) (parent child : Tree) : Bool :=
  match parent.kind with
  | .classDecl | .interfaceDecl => child.kind == .typeParameters
  | .fieldDecl => child.kind == .typeParameters ||
      child.kind == .variableDeclarator && !(parent.childOfKind? .typeRef).any site.isTyped
  | .formalParameters => child.declaredName?.isNone
  | .methodDecl | .constructorDecl => child.kind.isExpression
  | _ => false

/-- A node is written in the declaration of the type or in its body, and the type is the innermost
one there. Some type parameters of a member may be in scope. -/
inductive Writes (site : ReferenceSite) (passes : Tree → Tree → Bool) : List String → Tree → Prop
  | header {node : Tree} : site.owner.site.base? = none →
      site.owner.node.Reaches passes node → Writes site passes [] node
  /-- An anonymous class is written with the type behind `new`. -/
  | base {base node : Tree} : site.owner.site.base? = some (.typeRef base) →
      base.Reaches passes node → Writes site passes [] node
  | member {body member node : Tree} : site.owner.body? = some body → member ∈ body.children →
      member.kind.isTypeDeclaration = false → member.Reaches passes node →
      Writes site passes member.memberVariables node

end ReferenceSite

namespace Mention

variable {mention : Mention}

/-- The types among the children of a node are mentioned one by one. -/
private theorem mem_flatMap_ofTypeRef {ref : Tree} (hs : tree.Shaped) (hm : ref ∈ tree.children)
    (hr : ref.kind = .typeRef) (hn : node ∈ ref.codeNodes) (hk : node.kind = .typeRef)
    (ho : mention ∈ own node) : mention ∈ (tree.childrenOfKind .typeRef).flatMap ofTypeRef :=
  List.mem_flatMap.2 ⟨ref, List.mem_filter.2 ⟨hm, beq_iff_eq.2 hr⟩,
    own_mem_ofTypeRef ref (hs.of_mem hm) hr hn hk ho⟩

/-- The types in a clause are mentioned. -/
private theorem mem_ofClause {kind : NodeKind} (hs : tree.Shaped)
    (hone : Rule.single kind ∈ Rule.ofKind tree.kind)
    (hclause : kind ∈ [.extendsClause, .implementsClause, .throwsClause])
    (hm : child ∈ tree.children) (hc : child.kind = kind) (hn : node ∈ child.codeNodes)
    (hk : node.kind = .typeRef) (ho : mention ∈ own node) : mention ∈ ofClause kind tree := by
  have hcs := hs.of_mem hm
  have hne : kind ≠ .typeRef ∧ kind ≠ .token ∧ kind ≠ .error := by
    refine ⟨?_, ?_, ?_⟩ <;> rintro rfl <;> simp at hclause
  have hr : Rule.ofKind kind = [.among [.typeRef]] := by
    simp only [List.mem_cons, List.not_mem_nil, or_false] at hclause
    rcases hclause with rfl | rfl | rfl <;> rfl
  unfold ofClause
  rw [childOfKind?_of_single hm hc (hs.holds hone) hne.2.1 hne.2.2]
  rcases (mem_codeNodes.1 hn).2.2 with rfl | ⟨ref, href, hn⟩
  · exact absurd (hc.symm.trans hk) hne.1
  · refine mem_flatMap_ofTypeRef hcs href ?_ hn hk ho
    exact List.mem_singleton.1 (hcs.kind_mem (by rw [hc, hr]; exact List.mem_singleton_self _) href
      (isComposite_of_mem (hcs.of_mem href) hn hk))

variable {site : ReferenceSite}

/-- The types that a declaration writes in front of its body are supertypes. -/
private theorem mem_ofSupertypes {type : DeclaredType} (hs : type.node.Shaped)
    (hd : type.node.kind.isTypeDeclaration = true)
    (h : type.node.Reaches site.passesOver node) (hk : node.kind = .typeRef)
    (ho : mention ∈ own node) : mention ∈ ofSupertypes type := by
  have hne : type.node.kind ≠ .typeRef := by
    intro he
    rw [he] at hd
    cases hd
  obtain ⟨child, hm, hlevel, hpass, -, hn⟩ := h.exists_child hk hne
  have hcs := hs.of_mem hm
  have hc := isComposite_of_mem hcs hn hk
  have hquiet : child.kind ≠ .modifiers := fun he => quiet_modifiers hcs he node hn hk
  have hclause : ∀ {kind}, Rule.single kind ∈ Rule.ofKind type.node.kind →
      kind ∈ [.extendsClause, .implementsClause, .throwsClause] → child.kind = kind →
      mention ∈ ofClause kind type.node :=
    fun hone hkind he => mem_ofClause hs hone hkind hm he hn hk ho
  unfold ReferenceSite.passesOver at hpass
  unfold ofSupertypes
  cases hkind : type.node.kind <;> rw [hkind] at hd hpass hclause <;> try cases hd
  case classDecl =>
    have hkinds := hs.kind_mem (by rw [hkind]; exact List.mem_cons_self ..) hm hc
    simp only [List.mem_cons, List.not_mem_nil, or_false] at hkinds
    rcases hkinds with he | he | he | he | he
    · exact absurd he hquiet
    · rw [he] at hpass
      cases hpass
    · exact List.mem_append_left _ (hclause (by simp [Rule.ofKind]) (by decide) he)
    · exact List.mem_append_right _ (hclause (by simp [Rule.ofKind]) (by decide) he)
    · rw [he] at hlevel
      cases hlevel
  case interfaceDecl =>
    have hkinds := hs.kind_mem (by rw [hkind]; exact List.mem_cons_self ..) hm hc
    simp only [List.mem_cons, List.not_mem_nil, or_false] at hkinds
    rcases hkinds with he | he | he | he
    · exact absurd he hquiet
    · rw [he] at hpass
      cases hpass
    · exact hclause (by simp [Rule.ofKind]) (by decide) he
    · rw [he] at hlevel
      cases hlevel
  case enumDecl =>
    have hkinds := hs.kind_mem (by rw [hkind]; exact List.mem_cons_self ..) hm hc
    simp only [List.mem_cons, List.not_mem_nil, or_false] at hkinds
    rcases hkinds with he | he | he
    · exact absurd he hquiet
    · exact hclause (by simp [Rule.ofKind]) (by decide) he
    · rw [he] at hlevel
      cases hlevel
  case annotationDecl =>
    have hkinds := hs.kind_mem (by rw [hkind]; exact List.mem_cons_self ..) hm hc
    simp only [List.mem_cons, List.not_mem_nil, or_false] at hkinds
    rcases hkinds with he | he
    · exact absurd he hquiet
    · rw [he] at hlevel
      cases hlevel

/-- The bounds of the type parameters of a function are mentioned. -/
private theorem mem_ofTypeParameters (hs : tree.Shaped)
    (hone : Rule.single .typeParameters ∈ Rule.ofKind tree.kind) (hm : child ∈ tree.children)
    (hc : child.kind = .typeParameters) (hn : node ∈ child.codeNodes) (hk : node.kind = .typeRef)
    (ho : mention ∈ own node) : mention ∈ ofTypeParameters tree := by
  have hcs := hs.of_mem hm
  unfold ofTypeParameters
  rw [childOfKind?_of_single hm hc (hs.holds hone) nofun nofun]
  rcases (mem_codeNodes.1 hn).2.2 with rfl | ⟨parameter, hp, hn⟩
  · cases hc.symm.trans hk
  · have hps := hcs.of_mem hp
    have hpk : parameter.kind = .typeParameter := List.mem_singleton.1
      (hcs.kind_mem (by rw [hc]; exact List.mem_singleton_self _) hp (isComposite_of_mem hps hn hk))
    refine List.mem_flatMap.2 ⟨parameter, List.mem_filter.2 ⟨hp, beq_iff_eq.2 hpk⟩, ?_⟩
    rcases (mem_codeNodes.1 hn).2.2 with rfl | ⟨bound, hb, hn⟩
    · cases hpk.symm.trans hk
    · have hbs := hps.of_mem hb
      have hkinds := hps.kind_mem (by rw [hpk]; exact List.mem_singleton_self _) hb
        (isComposite_of_mem hbs hn hk)
      simp only [List.mem_cons, List.not_mem_nil, or_false] at hkinds
      rcases hkinds with he | he
      · exact absurd hk (quiet_annotationUse hbs he node hn)
      · exact mem_flatMap_ofTypeRef hps hb he hn hk ho

/-- The types of parameters are mentioned if the parameters have names. -/
private theorem mem_ofParameters (hs : tree.Shaped)
    (hone : Rule.single .formalParameters ∈ Rule.ofKind tree.kind) (hm : child ∈ tree.children)
    (hc : child.kind = .formalParameters) (h : child.Reaches site.passesOver node)
    (hk : node.kind = .typeRef) (ho : mention ∈ own node) : mention ∈ ofParameters tree := by
  have hcs := hs.of_mem hm
  obtain ⟨parameter, hp, -, hpass, -, hn⟩ := h.exists_child hk (by rw [hc]; nofun)
  have hps := hcs.of_mem hp
  have hpk : parameter.kind = .parameter := List.mem_singleton.1
    (hcs.kind_mem (by rw [hc]; exact List.mem_singleton_self _) hp (isComposite_of_mem hps hn hk))
  unfold ReferenceSite.passesOver at hpass
  rw [hc] at hpass
  obtain ⟨name, hname⟩ := Option.isSome_iff_exists.1 (Option.isNone_eq_false_iff.1 hpass)
  unfold ofParameters
  rw [childOfKind?_of_single hm hc (hs.holds hone) nofun nofun]
  refine List.mem_flatMap.2 ⟨parameter, List.mem_filter.2 ⟨hp, beq_iff_eq.2 hpk⟩, ?_⟩
  rcases (mem_codeNodes.1 hn).2.2 with rfl | ⟨part, href, hn⟩
  · cases hpk.symm.trans hk
  · have href' := hps.of_mem href
    have hkinds := hps.kind_mem (by rw [hpk]; exact List.mem_cons_self ..) href
      (isComposite_of_mem href' hn hk)
    simp only [List.mem_cons, List.not_mem_nil, or_false] at hkinds
    rcases hkinds with he | he
    · exact absurd hk (quiet_modifiers href' he node hn)
    · have hfirst : parameter.childOfKind? .typeRef = some part :=
        childOfKind?_of_single href he (hps.holds (by rw [hpk]; simp [Rule.ofKind])) nofun nofun
      unfold ofParameter
      rw [hname, hfirst]
      exact List.mem_append_right _ (own_mem_ofTypeRef part href' he hn hk ho)

/-- The one type that a method writes in front of its name is what it returns. -/
private theorem mem_ofReturn (hs : tree.Shaped) (ht : tree.kind = .methodDecl)
    (hm : child ∈ tree.children) (hc : child.kind = .typeRef) (hn : node ∈ child.codeNodes)
    (hk : node.kind = .typeRef) (ho : mention ∈ own node) : mention ∈ ofReturn tree := by
  have hcs := hs.of_mem hm
  have hsign : Sign.node .typeRef ∈ signs tree.children := List.mem_filterMap.2
    ⟨child, hm, by rw [sign?_of_isComposite (isComposite_of_mem hcs hn hk), hc]⟩
  have hle : (signs tree.children).countP (fun sign => sign == .node .typeRef || sign == .void) ≤ 1 :=
    have hrule : (Rule.atMost 1 fun sign => sign == .node .typeRef || sign == .void).Holds
        (signs tree.children) := hs.holds (by rw [ht]; exact List.mem_cons_self ..)
    hrule
  have hpos : 0 < (signs tree.children).countP (· == .node .typeRef) :=
    List.countP_pos_iff.2 ⟨_, hsign, beq_self_eq_true _⟩
  rw [Sign.countP_or fun sign h => by rw [beq_iff_eq.1 h]; rfl] at hle
  have hvoid : tree.childToken? .kwVoid = none := by
    have hzero : (signs tree.children).countP (· == .void) = 0 := by omega
    refine List.find?_eq_none.2 fun token htoken hkind => ?_
    obtain ⟨leaf, hl, hleaf⟩ := List.mem_filterMap.1 htoken
    refine List.countP_eq_zero.1 hzero .void (List.mem_filterMap.2 ⟨leaf, hl, ?_⟩)
      (beq_self_eq_true _)
    unfold token? at hleaf
    split at hleaf
    · cases hleaf
      rw [sign?, if_pos rfl, beq_iff_eq.1 hkind]
      rfl
    · cases hleaf
  have hone : (Rule.single .typeRef).Holds (signs tree.children) := by
    change (signs tree.children).countP (· == .node .typeRef) ≤ 1
    omega
  unfold ofReturn
  rw [hvoid, childOfKind?_of_single hm hc hone (fun h => by cases h) (fun h => by cases h)]
  exact own_mem_ofTypeRef child hcs hc hn hk ho

end Mention

/-! ### Members -/

/-- What a member executes. -/
def Member.code? : Member → Option Tree
  | .field _ value? => value?
  | .function node => node.childOfKind? .block

/-- The type parameters that are in scope where it is executed. -/
def Member.typeVariables : Member → List String
  | .field _ _ => []
  | .function node => node.functionVariables

/-- What a member executes is recorded with the member. -/
theorem RecordedMember.exists_body {member : RecordedMember} {code : Tree}
    (h : member.written.code? = some code) : ∃ body, member.body? = some body ∧
      body.node = code ∧ body.typeParameters = member.written.typeVariables := by
  cases member with
  | field id node value? =>
    obtain rfl : value? = some code := h
    exact ⟨_, rfl, rfl, rfl⟩
  | function id node parameters =>
    exact ⟨_, congrArg (Option.map _) h, rfl, rfl⟩

namespace ReferenceSite

variable {site : ReferenceSite} {member : Tree}

/-- How a type that is written in a member is read: the member mentions it, or executes code in
which it is written. -/
inductive Reads (site : ReferenceSite) (member node : Tree) : Prop
  | mentioned : (∀ mention ∈ Mention.own node, mention ∈ Mention.ofMember member) →
      Reads site member node
  | executed (written : Member) {code : Tree} : written ∈ site.membersOf member →
      written.code? = some code → written.typeVariables = member.memberVariables → code.Shaped →
      node ∈ code.codeNodes → Reads site member node

/-- The types in the declaration of fields are read. -/
private theorem reads_field (hs : member.Shaped) (ht : member.kind = .fieldDecl)
    (h : member.Reaches site.passesOver node) (hk : node.kind = .typeRef) :
    site.Reads member node := by
  obtain ⟨child, hm, -, hpass, -, hn⟩ := h.exists_child hk (by rw [ht]; nofun)
  have hcs := hs.of_mem hm
  have hc := isComposite_of_mem hcs hn hk
  have hname : ∀ declarator ∈ member.children, declarator.kind = .variableDeclarator →
      declarator.declaredName?.isSome = true := fun declarator hd hdk =>
    (hs.of_mem hd).childToken?_ident (by rw [hdk]; simp [Rule.ofKind])
  unfold passesOver at hpass
  rw [ht] at hpass
  have hkinds := hs.kind_mem (by rw [ht]; exact List.mem_cons_self ..) hm hc
  simp only [List.mem_cons, List.not_mem_nil, or_false] at hkinds
  rcases hkinds with he | he | he | he
  · exact absurd hk (quiet_modifiers hcs he node hn)
  · rw [he] at hpass
    cases hpass
  · obtain ⟨declarator, hd, hdk, -⟩ := hs.exists_child .variableDeclarator
      (by rw [ht]; simp [Rule.ofKind])
    refine .mentioned fun mention ho => ?_
    unfold Mention.ofMember Mention.ofFields
    rw [ht, childOfKind?_of_single hm he (hs.holds (by rw [ht]; simp [Rule.ofKind])) nofun nofun]
    refine List.mem_append_right _ (List.mem_flatMap.2
      ⟨declarator, List.mem_filter.2 ⟨hd, beq_iff_eq.2 hdk⟩, ?_⟩)
    rw [if_pos (hname declarator hd hdk)]
    exact Mention.own_mem_ofTypeRef child hcs he hn hk ho
  · rw [he] at hpass
    obtain ⟨typeRef, href, htyped⟩ : ∃ typeRef, member.childOfKind? .typeRef = some typeRef ∧
        site.isTyped typeRef = true := (Option.any_eq_true ..).1 (by simpa using hpass)
    rcases (mem_codeNodes.1 hn).2.2 with rfl | ⟨value, hv, hn⟩
    · cases he.symm.trans hk
    · have hvs := hcs.of_mem hv
      have hhead : child.nodes.head? = some value := head?_nodes
        (hcs.holds (by rw [he]; simp [Rule.ofKind])) hv (isComposite_of_mem hvs hn hk)
      refine .executed (.field child (some value)) ?_ rfl ?_ hvs hn
      · unfold membersOf fieldMembers
        rw [ht, href]
        refine List.mem_flatMap.2 ⟨child, List.mem_filter.2 ⟨hm, beq_iff_eq.2 he⟩, ?_⟩
        rw [hname child hm he, htyped, Bool.and_self, if_pos rfl, hhead]
        exact List.mem_singleton_self _
      · unfold Tree.memberVariables
        rw [ht]
        rfl

/-- The types in an enum constant are read. -/
private theorem reads_enumConstant (hs : member.Shaped) (ht : member.kind = .enumConstant)
    (h : member.Reaches site.passesOver node) (hk : node.kind = .typeRef) :
    site.Reads member node := by
  obtain ⟨child, hm, hlevel, -, -, hn⟩ := h.exists_child hk (by rw [ht]; nofun)
  have hcs := hs.of_mem hm
  have hkinds := hs.kind_mem (by rw [ht]; exact List.mem_cons_self ..) hm
    (isComposite_of_mem hcs hn hk)
  simp only [List.mem_cons, List.not_mem_nil, or_false] at hkinds
  rcases hkinds with he | he | he
  · exact absurd hk (quiet_modifiers hcs he node hn)
  · refine .executed (.field member (some child)) ?_ rfl ?_ hcs hn
    · have hname : member.declaredName?.isSome = true :=
        hs.childToken?_ident (by rw [ht]; simp [Rule.ofKind])
      unfold membersOf
      rw [ht]
      simp only
      rw [if_pos hname,
        childOfKind?_of_single hm he (hs.holds (by rw [ht]; simp [Rule.ofKind])) nofun nofun]
      exact List.mem_singleton_self _
    · unfold Tree.memberVariables
      rw [ht]
      rfl
  · rw [he] at hlevel
    cases hlevel

/-- The code of a function is read. -/
private theorem reads_block (hs : member.Shaped)
    (ht : member.kind = .methodDecl ∨ member.kind = .constructorDecl ∨ member.kind = .initializer)
    (hm : child ∈ member.children) (hc : child.kind = .block) (hn : node ∈ child.codeNodes) :
    site.Reads member node := by
  have hhead : (functionHead? member).isSome = true := by
    unfold functionHead?
    rcases ht with ht | ht | ht <;> rw [ht]
    · rw [Option.isSome_map]
      exact hs.childToken?_ident (by rw [ht]; simp [Rule.ofKind])
    · rfl
    · rfl
  have hone : Rule.single .block ∈ Rule.ofKind member.kind := by
    rcases ht with ht | ht | ht <;> rw [ht] <;> simp [Rule.ofKind, Rule.ofFunction]
  refine .executed (.function member) ?_ (childOfKind?_of_single hm hc (hs.holds hone) nofun nofun)
    ?_ (hs.of_mem hm) hn
  · unfold membersOf
    rcases ht with ht | ht | ht <;> rw [ht] <;> simp only <;> rw [if_pos hhead] <;>
      exact List.mem_singleton_self _
  · unfold Member.typeVariables Tree.memberVariables
    rcases ht with ht | ht | ht <;> rw [ht]

/-- The types in the declaration of a method or a constructor are read. -/
private theorem reads_function (hs : member.Shaped)
    (ht : member.kind = .methodDecl ∨ member.kind = .constructorDecl)
    (h : member.Reaches site.passesOver node) (hk : node.kind = .typeRef) :
    site.Reads member node := by
  have hne : member.kind ≠ .typeRef := by rcases ht with ht | ht <;> rw [ht] <;> nofun
  obtain ⟨child, hm, -, hpass, hreach, hn⟩ := h.exists_child hk hne
  have hcs := hs.of_mem hm
  have hrule : ∀ rule ∈ Rule.ofFunction, rule ∈ Rule.ofKind member.kind := by
    intro rule hr
    rcases ht with ht | ht <;> rw [ht] <;> simp [Rule.ofKind, hr]
  obtain ⟨kind, name, hhead, hmethod⟩ : ∃ kind name, functionHead? member = some (kind, name) ∧
      (member.kind = .methodDecl → kind = .method) := by
    unfold functionHead?
    rcases ht with ht | ht
    · obtain ⟨token, hname⟩ := Option.isSome_iff_exists.1
        (hs.childToken?_ident (by rw [ht]; simp [Rule.ofKind]))
      rw [ht]
      exact ⟨.method, token.text, congrArg (Option.map _) hname, fun _ => rfl⟩
    · rw [ht]
      exact ⟨_, _, rfl, nofun⟩
  have hmember : Mention.ofMember member = Mention.ofAnnotations member ++
      Mention.ofTypeParameters member ++ ((if kind = .method then Mention.ofReturn member else []) ++
        Mention.ofParameters member ++ Mention.ofClause .throwsClause member) := by
    unfold Mention.ofMember
    rcases ht with ht | ht <;> rw [ht] <;> simp only <;> unfold Mention.ofFunction <;> rw [hhead]
  have hkind := hs.kind_of_only (hrule _ (List.mem_cons_self ..)) hm (isComposite_of_mem hcs hn hk)
  cases hc : child.kind <;> rw [hc] at hkind <;> try cases hkind
  case modifiers => exact absurd hk (quiet_modifiers hcs hc node hn)
  case annotationUse => exact absurd hk (quiet_annotationUse hcs hc node hn)
  case block => exact reads_block hs (ht.imp_right .inl) hm hc hn
  case typeParameters =>
    refine .mentioned fun mention ho => ?_
    rw [hmember]
    exact List.mem_append_left _ (List.mem_append_right _ (Mention.mem_ofTypeParameters hs
      (hrule _ (by simp [Rule.ofFunction])) hm hc hn hk ho))
  case formalParameters =>
    refine .mentioned fun mention ho => ?_
    rw [hmember]
    exact List.mem_append_right _ (List.mem_append_left _ (List.mem_append_right _
      (Mention.mem_ofParameters hs (hrule _ (by simp [Rule.ofFunction])) hm hc hreach hk ho)))
  case throwsClause =>
    refine .mentioned fun mention ho => ?_
    rw [hmember]
    exact List.mem_append_right _ (List.mem_append_right _ (Mention.mem_ofClause hs
      (hrule _ (by simp [Rule.ofFunction])) (by decide) hm hc hn hk ho))
  case typeRef =>
    rcases ht with ht | ht
    · refine .mentioned fun mention ho => ?_
      rw [hmember, if_pos (hmethod ht)]
      exact List.mem_append_right _ (List.mem_append_left _ (List.mem_append_left _
        (Mention.mem_ofReturn hs ht hm hc hn hk ho)))
    · -- A constructor returns nothing.
      have hzero : (Rule.atMost 0 (· == .node .typeRef)).Holds (signs member.children) :=
        hs.holds (by rw [ht]; exact List.mem_cons_self ..)
      refine absurd (beq_self_eq_true _) (List.countP_eq_zero.1 (Nat.le_zero.1 hzero) (.node .typeRef)
        (List.mem_filterMap.2 ⟨child, hm, ?_⟩))
      rw [sign?_of_isComposite (isComposite_of_mem hcs hn hk), hc]
  all_goals
    -- What is left are expressions, which are the default values that are passed over.
    unfold passesOver at hpass
    rcases ht with ht | ht <;> rw [ht, hc] at hpass <;> cases hpass

/-- Every type that is written in a member is read. -/
private theorem reads_member (hs : member.Shaped)
    (ht : (member.kind.isMember || member.kind == .enumConstant) = true)
    (hd : member.kind.isTypeDeclaration = false)
    (h : member.Reaches site.passesOver node) (hk : node.kind = .typeRef) :
    site.Reads member node := by
  cases hm : member.kind <;> rw [hm] at ht hd <;> try cases ht
  case fieldDecl => exact reads_field hs hm h hk
  case enumConstant => exact reads_enumConstant hs hm h hk
  case methodDecl => exact reads_function hs (.inl hm) h hk
  case constructorDecl => exact reads_function hs (.inr hm) h hk
  case initializer =>
    obtain ⟨child, hc, -, -, -, hn⟩ := h.exists_child hk (by rw [hm]; nofun)
    have hblock : child.kind = .block := List.mem_singleton.1 (hs.kind_mem
      (by rw [hm]; exact List.mem_cons_self ..) hc (isComposite_of_mem (hs.of_mem hc) hn hk))
    exact reads_block hs (.inr (.inr hm)) hc hblock hn
  all_goals cases hd

/-- The body of a declared type. -/
private theorem shaped_body {type : DeclaredType} {body : Tree} (hs : type.site.Shaped)
    (hb : type.body? = some body) : body.Shaped ∧ body.kind.isBody = true := by
  unfold DeclaredType.body? DeclaredType.node childOfKind? at hb
  split at hb
  · next hbase =>
    cases hb
    refine ⟨hs.node, ?_⟩
    rw [hs.classBody hbase]
    rfl
  · rcases Option.or_eq_some_iff.1 hb with hb | ⟨-, hb⟩
    · refine ⟨hs.node.of_mem (List.mem_of_find?_eq_some hb), ?_⟩
      have hk := List.find?_some hb
      simp only [beq_iff_eq] at hk
      rw [hk]
      rfl
    · refine ⟨hs.node.of_mem (List.mem_of_find?_eq_some hb), ?_⟩
      have hk := List.find?_some hb
      simp only [beq_iff_eq] at hk
      rw [hk]
      rfl

/-- What stands in the body of a type. -/
private theorem isMember_of_mem {body : Tree} (hs : body.Shaped) (hb : body.kind.isBody = true)
    (hm : member ∈ body.children) (hc : member.isComposite = true) :
    (member.kind.isMember || member.kind == .enumConstant) = true := by
  cases hk : body.kind <;> rw [hk] at hb <;> try cases hb
  case classBody =>
    rw [Bool.or_eq_true]
    exact .inl (hs.kind_of_only (by rw [hk]; exact List.mem_singleton_self _) hm hc)
  case enumBody => exact hs.kind_of_only (by rw [hk]; exact List.mem_singleton_self _) hm hc

variable {typeVariables : List String} {name : QualifiedName}

/-- A type that is written with a well-formed name is mentioned as a reference to that name. -/
private theorem exists_reference (hp : Mention.primitive? node = none)
    (hv : site.isVariable typeVariables node.identifiers = false)
    (hq : site.declared.qualify site.owner (node.identifiers.map (·.text)) = .ok name) :
    ∃ mention ∈ Mention.own node, ∃ reference ∈ site.mentioned typeVariables mention,
      reference.name = name := by
  cases hids : node.identifiers with
  | nil =>
    rw [hids] at hq
    cases hq
  | cons first rest =>
    rw [hids] at hv hq
    refine ⟨.typeName (first :: rest), ?_, ⟨name, site.source.file, first⟩, ?_, rfl⟩
    · unfold Mention.own
      rw [hp, hids]
      exact List.mem_singleton_self _
    · unfold mentioned references
      simp only [hv, Bool.false_eq_true, if_false, hq]
      exact List.mem_singleton_self _

/-- A type that is written where the passes look is one of the references of its members, or it is
written in the code of one. -/
theorem exists_of_writes (hs : site.owner.site.Shaped)
    (h : site.Writes site.passesOver typeVariables node) (hk : node.kind = .typeRef)
    (hp : Mention.primitive? node = none)
    (hv : site.isVariable typeVariables node.identifiers = false)
    (hq : site.declared.qualify site.owner (node.identifiers.map (·.text)) = .ok name) :
    (∃ reference ∈ site.memberReferences, reference.name = name) ∨
      ∃ written ∈ site.allMembers, ∃ code, written.code? = some code ∧
        written.typeVariables = typeVariables ∧ code.Shaped ∧ node ∈ code.codeNodes := by
  obtain ⟨mention, ho, reference, hr, hname⟩ := exists_reference hp hv hq
  unfold memberReferences
  cases h with
  | header hbase h =>
    refine .inl ⟨reference, List.mem_append_left _ (List.mem_append_left _ ?_), hname⟩
    exact List.mem_flatMap.2
      ⟨mention, Mention.mem_ofSupertypes hs.node (hs.declaration hbase) h hk ho, hr⟩
  | @base base node hbase h =>
    refine .inl ⟨reference, List.mem_append_left _ (List.mem_append_left _ ?_), hname⟩
    have hbody : site.owner.node.kind = .classBody := hs.classBody (by rw [hbase]; rfl)
    obtain ⟨hbs, hbk⟩ := hs.base hbase
    have hn : node ∈ base.codeNodes := h.mem_codeNodes hk (by rw [hbk]; rfl)
    refine List.mem_flatMap.2 ⟨mention, ?_, hr⟩
    rw [Mention.ofSupertypes_other (by rw [hbody]; nofun) (by rw [hbody]; nofun)
      (by rw [hbody]; nofun), hbase]
    exact Mention.own_mem_ofTypeRef base hbs hbk hn hk ho
  | @member body member node hb hm hd h =>
    obtain ⟨hbs, hbk⟩ := shaped_body hs hb
    have hms := hbs.of_mem hm
    cases reads_member hms (isMember_of_mem hbs hbk hm (h.isComposite hms hk)) hd h hk with
    | mentioned hmentioned =>
      refine .inl ⟨reference, List.mem_append_right _ ?_, hname⟩
      rw [hb]
      exact List.mem_flatMap.2 ⟨member, hm, List.mem_flatMap.2 ⟨mention, hmentioned mention ho, hr⟩⟩
    | executed written hw hcode hvariables hcs hn =>
      refine .inr ⟨written, ?_, _, hcode, hvariables, hcs, hn⟩
      unfold allMembers
      rw [hb]
      exact List.mem_flatMap.2 ⟨member, hm, hw⟩

/-- A type that is written in code is one of the references of the code. -/
theorem exists_bodyReference (fields : VisibleFields) {body : Body} (hs : body.node.Shaped)
    (hn : node ∈ body.node.codeNodes) (hk : node.kind = .typeRef)
    (hp : Mention.primitive? node = none)
    (hv : site.isVariable body.typeParameters node.identifiers = false)
    (hq : site.declared.qualify site.owner (node.identifiers.map (·.text)) = .ok name) :
    ∃ reference ∈ site.bodyReferences fields body, reference.name = name := by
  obtain ⟨mention, ho, reference, hr, hname⟩ := exists_reference hp hv hq
  obtain ⟨ref, href, hrs, hrk, hn⟩ := BodyEvent.finds_ofNode hk body.node hs hn body.locals
  exact ⟨reference, List.mem_flatMap.2 ⟨.typeRef ref, href, List.mem_flatMap.2
    ⟨mention, Mention.own_mem_ofTypeRef ref hrs hrk hn hk ho, hr⟩⟩, hname⟩

end ReferenceSite

end JavaGraph
