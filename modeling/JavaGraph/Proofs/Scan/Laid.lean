import JavaGraph.Proofs.Scan.Located
/-!
# Sites and their places

The sites of a file are laid out over its tree: each of them stands for a node that declares a type,
no such node is left out or met twice, and the sites within a site are those for which its body is
the innermost one around them.
-/

namespace JavaGraph

open JavaGraph.Tree

namespace Tree

/-- The name that a node declares a type by, as it is written; class bodies behind `new` and of enum
constants have none. -/
def typeToken? (tree : Tree) : Option Token :=
  if tree.kind.isTypeDeclaration then tree.declaredName? else none

/-- The node that the type of a site is read off: the declaration, or the class body. -/
def typeNode (tree : Tree) : Tree :=
  if tree.kind.isTypeDeclaration then tree else (Site.classBody? tree.children).getD tree

/-- What the anonymous class that a node declares extends or implements. -/
def typeBase? (tree : Tree) : Option AnonymousBase :=
  match tree.kind with
  | .newObject => Site.newBase? tree.children
  | .enumConstant => some .enclosingEnum
  | _ => none

/-- What is in a tree of the right shape has the right shape. -/
theorem Shaped.at? {root node : Tree} (hs : root.Shaped) :
    ∀ {place : Place}, root.at? place = some node → node.Shaped
  | [] => by
    intro h
    cases h
    exact hs
  | i :: place => by
    intro h
    rw [Tree.at?] at h
    obtain ⟨parent, hp, hc⟩ := Option.bind_eq_some_iff.1 h
    exact (hs.at? hp).of_mem (List.mem_of_getElem? hc)

end Tree

namespace Site

/-- A site says of the node at a place what type it declares. -/
structure Describes (root : Tree) (site : Site) (place : Place) : Prop where
  node : ∃ node, root.at? place = some node ∧ node.isSite = true ∧
    site.name? = node.typeToken? ∧ site.node = node.typeNode ∧ site.base? = node.typeBase?
  number : site.number?.isSome = (site.name?.isNone || root.isLocal place)

/-- Sites with the same site around them, and all those within them, stand for the nodes at some
places. -/
inductive Laid (root : Tree) : Option Place → List Site → List (Site × Place) → Prop
  | nil (owner : Option Place) : Laid root owner [] []
  | cons {owner : Option Place} {site : Site} {place : Place} {rest : List Site}
      {inner others : List (Site × Place)} :
      site.Describes root place → root.owner? place = owner →
      Laid root (some place) site.within inner → Laid root owner rest others →
      Laid root owner (site :: rest) ((site, place) :: (inner ++ others))

variable {root node : Tree} {owner : Option Place} {site : Site} {sites more : List Site}
  {place : Place} {laid : List (Site × Place)} {nodes children : List Tree} {i : Nat}

/-- Sites in sequence. -/
private theorem Laid.append {laid' : List (Site × Place)} (h : Laid root owner sites laid)
    (h' : Laid root owner more laid') : Laid root owner (sites ++ more) (laid ++ laid') := by
  induction h with
  | nil owner => exact h'
  | cons hd ho hinner _ _ ih =>
    rw [List.cons_append, List.cons_append, List.append_assoc]
    exact .cons hd ho hinner (ih h')

/-! ### The sites of a tree -/

/-- Sites with the same site around them, and all those within them, stand for the nodes at just
these places. -/
private def Found (root : Tree) (owner : Option Place) (sites : List Site) (places : List Place) :
    Prop :=
  ∃ laid, Laid root owner sites laid ∧ (laid.map (·.2)).Perm places

private theorem Found.nil : Found root owner [] [] := ⟨[], .nil owner, .nil⟩

private theorem Found.append {places places' : List Place} (h : Found root owner sites places)
    (h' : Found root owner more places') : Found root owner (sites ++ more) (places ++ places') := by
  obtain ⟨laid, hl, hp⟩ := h
  obtain ⟨laid', hl', hp'⟩ := h'
  refine ⟨laid ++ laid', hl.append hl', ?_⟩
  rw [List.map_append]
  exact hp.append hp'

private theorem Found.single {places : List Place} (hd : site.Describes root place)
    (ho : root.owner? place = owner) (h : Found root (some place) site.within places) :
    Found root owner [site] (place :: places) := by
  obtain ⟨laid, hl, hp⟩ := h
  refine ⟨_, .cons hd ho hl (.nil owner), ?_⟩
  rw [List.append_nil]
  exact hp.cons place

private theorem Found.perm {places places' : List Place} (h : Found root owner sites places)
    (hp : places.Perm places') : Found root owner sites places' := by
  obtain ⟨laid, hl, hp'⟩ := h
  exact ⟨laid, hl, hp'.trans hp⟩

/-- What a site describes is a site. -/
private theorem Describes.isSite (h : site.Describes root place) (hn : root.at? place = some node) :
    node.isSite = true := by
  obtain ⟨other, hother, hsite, -⟩ := h.node
  cases hn.symm.trans hother
  exact hsite

/-- A type declaration is a site. -/
private theorem isSite_of_declaration (h : node.kind.isTypeDeclaration = true) :
    node.isSite = true := by
  unfold isSite
  rw [h]
  rfl

/-- The site of a type declaration. -/
private theorem describes_declaration {name : Token} {number? : Option Nat} {within : List Site}
    (h : root.at? place = some node) (hk : node.kind.isTypeDeclaration = true)
    (hn : node.declaredName? = some name) (hl : number?.isSome = root.isLocal place) :
    Describes root ⟨some name, number?, none, node, within⟩ place where
  node := by
    refine ⟨node, h, isSite_of_declaration hk, ?_, ?_, ?_⟩
    · unfold typeToken?
      rw [if_pos hk, hn]
    · unfold typeNode
      rw [if_pos hk]
    · revert hk
      unfold typeBase?
      cases node.kind <;> first | exact fun _ => rfl | exact nofun
  number := hl

/-- The site of a class body behind `new` or of an enum constant. -/
private theorem describes_classBody {body : Tree} {base : AnonymousBase} (number : Nat)
    (within : List Site) (h : root.at? place = some node)
    (hk : node.kind = .newObject ∨ node.kind = .enumConstant)
    (hb : classBody? node.children = some body) (hbase : node.typeBase? = some base) :
    Describes root ⟨none, some number, some base, body, within⟩ place where
  node := by
    have hdeclaration : node.kind.isTypeDeclaration = false := by
      rcases hk with hk | hk <;> rw [hk] <;> rfl
    refine ⟨node, h, ?_, ?_, ?_, hbase.symm⟩
    · have hany : node.children.any (·.kind == .classBody) = true :=
        List.any_eq_true.2 ⟨body, List.mem_of_find?_eq_some hb,
          List.find?_some (p := fun child : Tree => child.kind == .classBody) hb⟩
      unfold isSite
      rw [hany]
      rcases hk with hk | hk <;> rw [hk] <;> rfl
    · unfold typeToken?
      rw [hdeclaration]
      rfl
    · unfold typeNode
      rw [hdeclaration, hb]
      rfl
  number := rfl

/-- Other nodes are no sites. -/
private theorem isSite_of_other (hd : node.kind.isTypeDeclaration = false)
    (hn : node.kind ≠ .newObject) (he : node.kind ≠ .enumConstant) : node.isSite = false := by
  unfold isSite
  rw [hd, beq_false_of_ne hn, beq_false_of_ne he]
  rfl

/-- A child of a node that is neither the file nor a body is local. -/
private theorem isLocal_child (h : root.at? place = some node)
    (hk : (node.kind != .compilationUnit && !node.kind.isBody) = true) (i : Nat) :
    root.isLocal (i :: place) = true := by
  rw [isLocal, h, Option.any_some, hk]

/-- No child of some nodes is a class body. -/
private theorem sitesWhere_inner (h : ∀ child ∈ nodes, child.isComposite = true →
    isInner child.kind = true) (place : Place) (i : Nat) :
    sitesWhere (· != .classBody) place i nodes = placesFrom isSite place i nodes := by
  refine sitesWhere_eq (fun child hm hk => ?_) place i
  have hkind : child.kind = .classBody := by simpa using hk
  have hinner := h child hm (isComposite_of_isBody (by rw [hkind]; rfl))
  rw [hkind] at hinner
  cases hinner

/-- The sites at and below what is no site are below its children. -/
private theorem sitesOf_inner (hs : node.Shaped)
    (hk : node.isComposite = true → isInner node.kind = true)
    (hd : node.kind.isTypeDeclaration = false) (hn : node.kind ≠ .newObject)
    (he : node.kind ≠ .enumConstant) (place : Place) :
    sitesOf place node = sitesWhere (· != .classBody) place 0 node.children := by
  rw [sitesOf, placesOf_eq, isSite_of_other hd hn he,
    sitesWhere_inner fun child hm => hs.inner_child hm hk hd hn]
  rfl

/-- The sites at and below a type declaration are its own and those in its body. -/
private theorem sitesOf_declaration (hs : node.Shaped) (hd : node.kind.isTypeDeclaration = true)
    (place : Place) : sitesOf place node =
      place :: sitesWhere (· == bodyKind node.children) place 0 node.children := by
  rw [sitesOf, placesOf_eq, isSite_of_declaration hd, if_pos rfl, List.singleton_append,
    sitesWhere_eq]
  intro child hm hk place
  refine sitesOf_plain child place (hs.of_mem hm) fun hc => ?_
  exact (hs.declaration_child hd hm hc).resolve_right fun h => by simp [h] at hk

/-- What can stand within a member is neither the file nor a body. -/
private theorem inside_of_inner (hk : node.isComposite = true → isInner node.kind = true) :
    (node.kind != .compilationUnit && !node.kind.isBody) = true := by
  cases hc : node.isComposite with
  | true =>
    have hinner := hk hc
    revert hinner
    cases node.kind <;> first | exact fun _ => rfl | exact nofun
  | false =>
    have hkind : node.kind = .error ∨ node.kind = .token := by
      cases node with
      | error region comments => exact .inl rfl
      | node kind anchor extent comments children =>
        right
        simpa [isComposite, isError, Tree.kind] using hc
    rcases hkind with h | h <;> rw [h] <;> rfl

/-- The sites at and below a node that could have a class body and has none are below the children
of some kinds if there are none below the others. -/
private theorem sitesOf_bodiless (node : Tree) (keep : NodeKind → Bool)
    (hd : node.kind.isTypeDeclaration = false) (hb : classBody? node.children = none)
    (hall : ∀ child ∈ node.children, keep child.kind = false → child.kind ≠ .classBody →
      ∀ place, sitesOf place child = []) (place : Place) :
    sitesWhere keep place 0 node.children = sitesOf place node := by
  have hnone : ∀ child ∈ node.children, ¬ (child.kind == .classBody) = true :=
    List.find?_eq_none.1 hb
  have hsite : node.isSite = false := by
    unfold isSite
    rw [hd, List.any_eq_false.2 hnone, Bool.and_false]
    rfl
  rw [sitesOf, placesOf_eq, hsite, sitesWhere_eq fun child hm hk => hall child hm hk fun h =>
    hnone child hm (beq_iff_eq.2 h)]
  rfl

/-- The sites at and below a node with a class body are its own, those below the children of some
kinds, and those in the class body, if there are none below the others. -/
private theorem sitesOf_bodied (keep : NodeKind → Bool) (hsite : node.isSite = true)
    (hall : ∀ child ∈ node.children, keep child.kind = false → child.kind ≠ .classBody →
      ∀ place, sitesOf place child = []) (hkeep : keep .classBody = false) (place : Place) :
    (place :: (sitesWhere keep place 0 node.children ++
      sitesWhere (· == .classBody) place 0 node.children)).Perm (sitesOf place node) := by
  rw [sitesOf, placesOf_eq, hsite, if_pos rfl, List.singleton_append]
  refine .cons _ (sitesWhere_perm (fun child hm => ?_) (fun kind hk => ?_) place 0)
  · by_cases hk : keep child.kind = true
    · exact .inl (.inl hk)
    · by_cases hc : child.kind = .classBody
      · exact .inl (.inr (beq_iff_eq.2 hc))
      · exact .inr (hall child hm (Bool.eq_false_iff.2 hk) hc)
  · refine beq_false_of_ne fun h => ?_
    rw [h, hkeep] at hk
    cases hk

/-- Annotations at an enum constant declare nothing. -/
private theorem sitesOf_enumConstant_child {child : Tree} (hs : node.Shaped)
    (hk : node.kind = .enumConstant) (hm : child ∈ node.children)
    (ha : (child.kind == .arguments) = false) (hc : child.kind ≠ .classBody) (place : Place) :
    sitesOf place child = [] := by
  refine sitesOf_plain child place (hs.of_mem hm) fun hcomposite => ?_
  refine (hs.enumConstant_child hk hm hcomposite).resolve_right fun h => ?_
  rcases h with h | h
  · exact absurd (beq_iff_eq.2 h) (Bool.eq_false_iff.1 ha)
  · exact hc h

/-- After the first node of a kind of which there is at most one there are no more. -/
private theorem no_more {kind : NodeKind} {first : Tree} {rest : List Tree}
    (h : (first :: rest).countP (·.kind == kind) ≤ 1) (hk : first.kind = kind) :
    ∀ child ∈ rest, (child.kind == kind) = false := by
  rw [List.countP_cons, if_pos (beq_iff_eq.2 hk)] at h
  have hnone : rest.countP (·.kind == kind) = 0 := by omega
  exact fun child hm => Bool.eq_false_iff.2 (List.countP_eq_zero.1 hnone child hm)

/-- Of a kind of which there is at most one there is at most one among the rest. -/
private theorem countP_rest {kind : NodeKind} {first : Tree} {rest : List Tree}
    (h : (first :: rest).countP (·.kind == kind) ≤ 1) : rest.countP (·.kind == kind) ≤ 1 :=
  (List.sublist_cons_self ..).countP_le.trans h

variable (root) in
mutual

/-- The sites in the members of a body. -/
private theorem found_ofMembers : ∀ (nodes : List Tree) {body : Tree} {place : Place} {i : Nat}
    (numbering : Numbering), root.at? place = some body → body.kind.isBody = true →
    root.ChildrenAt place i nodes → (∀ child ∈ nodes, child.Shaped) →
    (∀ child ∈ nodes, child.isComposite = true →
      child.kind.isMember = true ∨ child.kind = .enumConstant) →
    Found root (root.owner? place) (ofMembers numbering nodes).1 (placesFrom isSite place i nodes)
  | [], _, _, _, _ => by
    intro _ _ _ _ _
    rw [ofMembers, placesFrom]
    exact .nil
  | member :: rest, body, place, i, numbering => by
    intro hb hbody hat hs hk
    rw [List.forall_mem_cons] at hs hk
    rw [ofMembers, placesFrom]
    exact (found_ofMember member numbering hb hbody hat.head hs.1 hk.1).append
      (found_ofMembers rest _ hb hbody hat.tail hs.2 hk.2)

/-- The sites in a member of a body. -/
private theorem found_ofMember : ∀ (member : Tree) {body : Tree} {place : Place} {i : Nat}
    (numbering : Numbering), root.at? place = some body → body.kind.isBody = true →
    root.at? (i :: place) = some member → member.Shaped →
    (member.isComposite = true → member.kind.isMember = true ∨ member.kind = .enumConstant) →
    Found root (root.owner? place) (ofMember numbering member).1 (sitesOf (i :: place) member)
  | .error region comments, _, _, _, _ => by
    intro _ _ _ _ _
    rw [ofMember, sitesOf, placesOf]
    exact .nil
  | .node kind anchor extent comments children, body, place, i, numbering => by
    intro hb hbody hat hs hk
    have hnosite : body.isSite = false := by
      unfold isSite
      revert hbody
      cases body.kind <;> first | exact fun _ => rfl | exact nofun
    have howner : root.owner? (i :: place) = root.owner? place := owner?_of_not_site hb hnosite
    have hchildren := childrenAt hat
    rw [ofMember]
    split
    · next hd =>
      obtain ⟨name, hname⟩ := Option.isSome_iff_exists.1 (hs.declaredName?_isSome hd)
      have hnotlocal : root.isLocal (i :: place) = false := by
        rw [isLocal, hb, Option.any_some, hbody, Bool.not_true, Bool.and_false]
      rw [sitesOf_declaration hs hd]
      simp only [hname]
      exact .single (describes_declaration hat hd hname hnotlocal.symm) howner
        (found_ofFirstBody children hat (isSite_of_declaration hd) (isBody_bodyKind _) hchildren
          (fun child => hs.of_mem) (hs.countP_bodyKind_le hd))
    · next hd =>
      rw [Bool.not_eq_true] at hd
      split
      · next he =>
        subst he
        have harguments := found_ofFirstArguments children numbering hat hchildren
          (fun child => hs.of_mem) (hs.countP_kind_le (by simp [Rule.ofKind, Tree.kind])
            (by decide) (by decide))
        rw [howner] at harguments
        cases hb : classBody? children with
        | none =>
          simp only
          have hsites := sitesOf_bodiless (.node .enumConstant anchor extent comments children)
            (· == .arguments) hd hb fun child hm => sitesOf_enumConstant_child hs rfl hm
          rw [← hsites]
          exact harguments
        | some body =>
          have hdescribes := describes_classBody
            (ofFirstArguments numbering children).2.nextAnonymous.1 (ofFirstBody .classBody children)
            hat (.inr rfl) hb rfl
          have hsite := hdescribes.isSite hat
          have hwithin : Found root (some (i :: place)) (ofFirstBody .classBody children)
              (sitesWhere (· == .classBody) (i :: place) 0 children) :=
            found_ofFirstBody children hat hsite rfl hchildren (fun child => hs.of_mem)
              (hs.countP_kind_le (by simp [Rule.ofKind, Tree.kind]) (by decide) (by decide))
          simp only
          refine (harguments.append (.single hdescribes howner hwithin)).perm ?_
          exact List.perm_middle.trans (sitesOf_bodied (· == .arguments) hsite
            (fun child hm => sitesOf_enumConstant_child hs rfl hm) rfl _)
      · next he =>
        split
        · next ht =>
          subst ht
          have hnone : sitesOf (i :: place) (Tree.node .token anchor extent comments children) =
              [] := sitesOf_plain _ _ hs fun h => nomatch h
          rw [hnone]
          exact .nil
        · next ht =>
          have hmember : (Tree.node kind anchor extent comments children).isComposite = true →
              kind.isMember = true := fun hc => (hk hc).resolve_right he
          have hinner := fun hc => isInner_of_isMember (hmember hc)
          have hn : kind ≠ .newObject := by
            rintro rfl
            cases hmember rfl
          rw [sitesOf_inner hs hinner hd hn he, ← howner]
          exact found_ofCode children numbering hat (inside_of_inner hinner) hchildren
            (fun child => hs.of_mem) fun child hm hc => .inl (hs.inner_child hm hinner hd hn hc)

/-- The sites below some nodes of a member or of code. -/
private theorem found_ofCode : ∀ (nodes : List Tree) {parent : Tree} {place : Place} {i : Nat}
    (numbering : Numbering), root.at? place = some parent →
    (parent.kind != .compilationUnit && !parent.kind.isBody) = true →
    root.ChildrenAt place i nodes → (∀ child ∈ nodes, child.Shaped) →
    (∀ child ∈ nodes, child.isComposite = true →
      isInner child.kind = true ∨ child.kind = .classBody) →
    Found root (root.owner? place) (ofCode numbering nodes).1
      (sitesWhere (· != .classBody) place i nodes)
  | [], _, _, _, _ => by
    intro _ _ _ _ _
    rw [ofCode, sitesWhere]
    exact .nil
  | node :: rest, parent, place, i, numbering => by
    intro hp hinside hat hs hk
    rw [List.forall_mem_cons] at hs hk
    rw [ofCode, sitesWhere]
    exact (found_ofCodeNode node numbering hp hinside hat.head hs.1 hk.1).append
      (found_ofCode rest _ hp hinside hat.tail hs.2 hk.2)

/-- The sites at and below a node of a member or of code. -/
private theorem found_ofCodeNode : ∀ (node : Tree) {parent : Tree} {place : Place} {i : Nat}
    (numbering : Numbering), root.at? place = some parent →
    (parent.kind != .compilationUnit && !parent.kind.isBody) = true →
    root.at? (i :: place) = some node → node.Shaped →
    (node.isComposite = true → isInner node.kind = true ∨ node.kind = .classBody) →
    Found root (root.owner? place) (ofCodeNode numbering node).1
      (if node.kind != .classBody then sitesOf (i :: place) node else [])
  | .error region comments, _, _, _, _ => by
    intro _ _ _ _ _
    rw [ofCodeNode, sitesOf, placesOf]
    exact .nil
  | .node kind anchor extent comments children, parent, place, i, numbering => by
    intro hp hinside hat hs hk
    have hchildren := childrenAt hat
    rw [ofCodeNode, Tree.kind]
    by_cases hb : kind = .classBody
    · subst hb
      exact .nil
    rw [if_pos (bne_iff_ne.2 hb)]
    have hinner : (Tree.node kind anchor extent comments children).isComposite = true →
        isInner kind = true := fun hc => (hk hc).resolve_right hb
    have howner : root.owner? (i :: place) = root.owner? place := by
      refine owner?_of_not_body hat ?_
      have := inside_of_inner hinner
      simp only [Bool.and_eq_true, Bool.not_eq_true'] at this
      exact this.2
    split
    · next hd =>
      obtain ⟨name, hname⟩ := Option.isSome_iff_exists.1 (hs.declaredName?_isSome hd)
      rw [sitesOf_declaration hs hd]
      simp only [hname]
      exact .single (describes_declaration hat hd hname (isLocal_child hp hinside i).symm) howner
        (found_ofFirstBody children hat (isSite_of_declaration hd) (isBody_bodyKind _) hchildren
          (fun child => hs.of_mem) (hs.countP_bodyKind_le hd))
    · next hd =>
      rw [Bool.not_eq_true] at hd
      have hcode := fun numbering => found_ofCode children numbering hat (inside_of_inner hinner)
        hchildren (fun child => hs.of_mem)
      rw [howner] at hcode
      split
      · next hn =>
        subst hn
        have hcode := fun numbering => hcode numbering fun child => hs.newObject_child rfl
        have hall : ∀ child ∈ children, (child.kind != .classBody) = false →
            child.kind ≠ .classBody → ∀ place, sitesOf place child = [] := by
          intro child _ hk hne
          exact absurd (by simpa using hk) hne
        cases hb : classBody? children with
        | none =>
          have hsites := sitesOf_bodiless (.node .newObject anchor extent comments children)
            (· != .classBody) hd hb hall
          rw [← hsites]
          cases newBase? children <;> exact hcode numbering
        | some body =>
          have hany : children.any (·.kind == .classBody) = true :=
            List.any_eq_true.2 ⟨body, List.mem_of_find?_eq_some hb,
              List.find?_some (p := fun child : Tree => child.kind == .classBody) hb⟩
          obtain ⟨base, hbase⟩ := Option.isSome_iff_exists.1 (hs.newBase?_isSome rfl hany)
          have hbase : newBase? children = some base := hbase
          have hdescribes := describes_classBody numbering.nextAnonymous.1
            (ofFirstBody .classBody children) hat (.inl rfl) hb hbase
          have hsite := hdescribes.isSite hat
          have hwithin : Found root (some (i :: place)) (ofFirstBody .classBody children)
              (sitesWhere (· == .classBody) (i :: place) 0 children) :=
            found_ofFirstBody children hat hsite rfl hchildren (fun child => hs.of_mem)
              (hs.countP_kind_le (by simp [Rule.ofKind, Tree.kind]) (by decide) (by decide))
          simp only [hbase]
          refine ((Found.single hdescribes howner hwithin).append (hcode _)).perm ?_
          refine .trans ?_ (sitesOf_bodied (· != .classBody) hsite hall rfl _)
          exact .cons _ List.perm_append_comm
      · next hn =>
        have he : kind ≠ .enumConstant := by
          rintro rfl
          cases hinner rfl
        rw [sitesOf_inner hs hinner hd hn he]
        exact hcode numbering fun child hm hc => .inl (hs.inner_child hm hinner hd hn hc)

/-- The sites in the first body of a kind among the children of a site. -/
private theorem found_ofFirstBody : ∀ (nodes : List Tree) {site : Tree} {place : Place} {i : Nat}
    {kind : NodeKind}, root.at? place = some site → site.isSite = true → kind.isBody = true →
    root.ChildrenAt place i nodes → (∀ child ∈ nodes, child.Shaped) →
    nodes.countP (·.kind == kind) ≤ 1 →
    Found root (some place) (ofFirstBody kind nodes) (sitesWhere (· == kind) place i nodes)
  | [], _, _, _, _ => by
    intro _ _ _ _ _ _
    rw [ofFirstBody, sitesWhere]
    exact .nil
  | .error region comments :: rest, _, place, i, kind => by
    intro hat hsite hbody hchildren hs hone
    rw [List.forall_mem_cons] at hs
    have hkind : (NodeKind.error == kind) = false := by
      cases kind <;> first | rfl | cases hbody
    rw [ofFirstBody, sitesWhere, Tree.kind, hkind]
    exact found_ofFirstBody rest hat hsite hbody hchildren.tail hs.2 (countP_rest hone)
  | .node other anchor extent comments members :: rest, _, place, i, kind => by
    intro hat hsite hbody hchildren hs hone
    rw [List.forall_mem_cons] at hs
    rw [ofFirstBody, sitesWhere, Tree.kind]
    split
    · next hk =>
      subst hk
      have hnosite : (Tree.node other anchor extent comments members).isSite = false := by
        unfold isSite
        revert hbody
        cases other <;> first | exact fun _ => rfl | exact nofun
      have howner := owner?_of_body hat hsite hchildren.head hbody
      have hmembers := found_ofMembers members {} hchildren.head hbody
        (childrenAt hchildren.head) (fun child => hs.1.of_mem) fun child => hs.1.body_child hbody
      rw [howner] at hmembers
      rw [sitesWhere_nil (no_more hone rfl), List.append_nil, if_pos (beq_self_eq_true _), sitesOf,
        placesOf_eq, hnosite]
      exact hmembers
    · next hk =>
      rw [beq_false_of_ne hk]
      exact found_ofFirstBody rest hat hsite hbody hchildren.tail hs.2 (countP_rest hone)

/-- The sites below the first arguments among the children of a node. -/
private theorem found_ofFirstArguments : ∀ (nodes : List Tree) {parent : Tree} {place : Place}
    {i : Nat} (numbering : Numbering), root.at? place = some parent →
    root.ChildrenAt place i nodes → (∀ child ∈ nodes, child.Shaped) →
    nodes.countP (·.kind == .arguments) ≤ 1 →
    Found root (root.owner? place) (ofFirstArguments numbering nodes).1
      (sitesWhere (· == .arguments) place i nodes)
  | [], _, _, _, _ => by
    intro _ _ _ _
    rw [ofFirstArguments, sitesWhere]
    exact .nil
  | .error region comments :: rest, _, place, i, numbering => by
    intro hat hchildren hs hone
    rw [List.forall_mem_cons] at hs
    rw [ofFirstArguments, sitesWhere]
    exact found_ofFirstArguments rest numbering hat hchildren.tail hs.2 (countP_rest hone)
  | .node other anchor extent comments arguments :: rest, _, place, i, numbering => by
    intro hat hchildren hs hone
    rw [List.forall_mem_cons] at hs
    rw [ofFirstArguments, sitesWhere, Tree.kind]
    split
    · next hk =>
      subst hk
      have howner := owner?_of_not_body hchildren.head rfl
      have hcode := found_ofCode arguments numbering hchildren.head rfl
        (childrenAt hchildren.head) (fun child => hs.1.of_mem)
        fun child hm hc => .inl (hs.1.inner_child hm (fun _ => rfl) rfl nofun hc)
      rw [howner] at hcode
      rw [sitesWhere_nil (no_more hone rfl), List.append_nil,
        if_pos (beq_self_eq_true _), sitesOf_inner hs.1 (fun _ => rfl) rfl nofun nofun]
      exact hcode
    · next hk =>
      rw [beq_false_of_ne hk]
      exact found_ofFirstArguments rest numbering hat hchildren.tail hs.2 (countP_rest hone)

end

/-- The sites of type declarations at the top level. -/
private theorem found_ofTopLevel (hk : root.kind = .compilationUnit)
    (hat : root.ChildrenAt [] i nodes) (hs : ∀ child ∈ nodes, child.Shaped)
    (hc : ∀ child ∈ nodes, child.isComposite = true →
      child.kind.isTypeDeclaration = true ∨ isPlain child.kind = true) :
    Found root none (nodes.filterMap ofTopLevel?) (placesFrom isSite [] i nodes) := by
  have hnosite : root.isSite = false := by
    unfold isSite
    rw [hk]
    rfl
  induction nodes generalizing i with
  | nil =>
    rw [List.filterMap_nil, placesFrom]
    exact .nil
  | cons node rest ih =>
    rw [List.forall_mem_cons] at hs hc
    have hrest := ih hat.tail hs.2 hc.2
    rw [placesFrom]
    by_cases hd : node.kind.isTypeDeclaration = true
    · obtain ⟨name, hname⟩ := Option.isSome_iff_exists.1 (hs.1.declaredName?_isSome hd)
      have hsite : ofTopLevel? node = some ⟨some name, none, none, node,
          ofFirstBody (Tree.bodyKind node.children) node.children⟩ := by
        unfold ofTopLevel?
        rw [if_pos hd, hname]
        rfl
      have hnotlocal : root.isLocal [i] = false := by
        rw [isLocal, at?, Option.any_some, hk]
        rfl
      have hsites := sitesOf_declaration hs.1 hd [i]
      rw [sitesOf] at hsites
      have hdescribes : Describes root ⟨some name, none, none, node,
          ofFirstBody (Tree.bodyKind node.children) node.children⟩ [i] :=
        describes_declaration hat.head hd hname hnotlocal.symm
      have hwithin := found_ofFirstBody root _ hat.head (isSite_of_declaration hd)
        (isBody_bodyKind _) (childrenAt hat.head) (fun child => hs.1.of_mem)
        (hs.1.countP_bodyKind_le hd)
      rw [List.filterMap_cons_some hsite, hsites]
      exact (Found.single hdescribes (owner?_of_not_site rfl hnosite) hwithin).append hrest
    · have hnone : ofTopLevel? node = none := by
        unfold ofTopLevel?
        rw [if_neg hd]
      have hsites := sitesOf_plain node [i] hs.1 fun h => (hc.1 h).resolve_left hd
      rw [sitesOf] at hsites
      rw [List.filterMap_cons_none hnone, hsites]
      exact hrest

/-- The sites of a file stand for just the nodes of its tree that declare types, each for one. -/
theorem laid_ofTree (hs : root.Shaped) (hk : root.kind = .compilationUnit) :
    ∃ laid, Laid root none (ofTree root) laid ∧ (laid.map (·.2)).Perm (sitesOf [] root) := by
  have hnosite : root.isSite = false := by
    unfold isSite
    rw [hk]
    rfl
  rw [sitesOf, placesOf_eq, hnosite]
  exact found_ofTopLevel hk (childrenAt rfl) (fun child => hs.of_mem) fun child => hs.unit_child hk

/-! ### What types are read off -/

/-- What the type of a site is read off has the right shape: a declaration, or a class body and the
type behind `new`. -/
structure Shaped (site : Site) : Prop where
  node : site.node.Shaped
  declaration : site.base? = none → site.node.kind.isTypeDeclaration = true
  classBody : site.base?.isSome = true → site.node.kind = .classBody
  base : ∀ {base}, site.base? = some (.typeRef base) → base.Shaped ∧ base.kind = .typeRef

/-- What a site describes has the right shape in a tree of the right shape. -/
theorem Describes.shaped (h : site.Describes root place) (hs : root.Shaped) : site.Shaped := by
  obtain ⟨node, hn, hsite, -, hnode, hbase⟩ := h.node
  have hs := hs.at? hn
  cases hd : node.kind.isTypeDeclaration with
  | true =>
    have hnone : site.base? = none := by
      rw [hbase]
      revert hd
      unfold typeBase?
      cases node.kind <;> first | exact fun _ => rfl | exact nofun
    have hself : site.node = node := by rw [hnode, typeNode, if_pos hd]
    rw [← hself] at hs hd
    refine ⟨hs, fun _ => hd, fun h => ?_, fun h => ?_⟩
    · rw [hnone] at h
      cases h
    · rw [hnone] at h
      cases h
  | false =>
    unfold Tree.isSite at hsite
    rw [hd, Bool.false_or, Bool.and_eq_true, Bool.or_eq_true, beq_iff_eq, beq_iff_eq] at hsite
    obtain ⟨hk, hany⟩ := hsite
    obtain ⟨body, hb⟩ := Option.isSome_iff_exists.1 (List.find?_isSome.2 (List.any_eq_true.1 hany))
    have hself : site.node = body := by
      rw [hnode, typeNode, hd, classBody?, hb]
      rfl
    have hkind : body.kind = .classBody :=
      beq_iff_eq.1 (List.find?_some (p := fun child : Tree => child.kind == .classBody) hb)
    refine ⟨?_, fun h => ?_, fun _ => hself ▸ hkind, fun {base} h => ?_⟩
    · rw [hself]
      exact hs.of_mem (List.mem_of_find?_eq_some hb)
    · rw [hbase, typeBase?] at h
      rcases hk with hk | hk <;> rw [hk] at h
      · have hsome := hs.newBase?_isSome hk hany
        have hnone : newBase? node.children = none := h
        rw [hnone] at hsome
        cases hsome
      · cases h
    · rw [hbase, typeBase?] at h
      rcases hk with hk | hk <;> rw [hk] at h
      · unfold newBase? at h
        simp only [hany, if_true] at h
        obtain ⟨found, hf, he⟩ := Option.map_eq_some_iff.1 h
        cases he
        exact ⟨hs.of_mem (List.mem_of_find?_eq_some hf),
          beq_iff_eq.1 (List.find?_some (p := fun child : Tree => child.kind == .typeRef) hf)⟩
      · cases h

/-! ### What is around what -/

namespace Laid

/-- Every one of the sites describes the node at its place. -/
theorem describes (h : Laid root owner sites laid) :
    ∀ pair ∈ laid, pair.1.Describes root pair.2 := by
  induction h with
  | nil owner => exact List.forall_mem_nil _
  | cons hd _ _ _ ih ih' =>
    exact List.forall_mem_cons.2 ⟨hd, List.forall_mem_append.2 ⟨ih, ih'⟩⟩

/-- All of them are farther in than the site around them. -/
private theorem length_lt {outer : Place} (h : Laid root owner sites laid)
    (ho : owner = some outer) : ∀ pair ∈ laid, outer.length < pair.2.length := by
  induction h generalizing outer with
  | nil owner => exact List.forall_mem_nil _
  | cons hd howner _ _ ih ih' =>
    have hlt := length_of_owner? (howner.trans ho)
    refine List.forall_mem_cons.2 ⟨hlt, List.forall_mem_append.2 ⟨fun pair hm => ?_, ih' ho⟩⟩
    exact hlt.trans (ih rfl pair hm)

/-- The site around one of them is the one around all, or one of them. -/
theorem owner_mem (h : Laid root owner sites laid) : ∀ pair ∈ laid,
    root.owner? pair.2 = owner ∨ ∃ other ∈ laid, root.owner? pair.2 = some other.2 := by
  induction h with
  | nil owner => exact List.forall_mem_nil _
  | cons hd howner _ _ ih ih' =>
    refine List.forall_mem_cons.2 ⟨.inl howner, List.forall_mem_append.2 ⟨fun pair hm => ?_,
      fun pair hm => ?_⟩⟩
    · rcases ih pair hm with h | ⟨other, ho, h⟩
      · exact .inr ⟨_, List.mem_cons_self .., h⟩
      · exact .inr ⟨other, List.mem_cons_of_mem _ (List.mem_append_left _ ho), h⟩
    · rcases ih' pair hm with h | ⟨other, ho, h⟩
      · exact .inl h
      · exact .inr ⟨other, List.mem_cons_of_mem _ (List.mem_append_right _ ho), h⟩

/-- If what is around some of them is neither around all nor one of them, there are none. -/
theorem filter_eq_nil (h : Laid root owner sites laid) {other : Option Place}
    (ho : owner ≠ other) (hp : ∀ pair ∈ laid, other ≠ some pair.2) :
    (laid.filter fun pair => root.owner? pair.2 = other) = [] := by
  refine List.filter_eq_nil_iff.2 fun pair hm => ?_
  rw [decide_eq_true_eq]
  intro he
  rcases h.owner_mem pair hm with h | ⟨middle, hmiddle, h⟩
  · exact ho (h.symm.trans he)
  · exact hp middle hmiddle (he.symm.trans h)

/-- The sites with nothing else around them are the outermost ones. -/
private theorem outermost (h : Laid root owner sites laid) :
    (laid.filter fun pair => root.owner? pair.2 = owner).map (·.1) = sites := by
  induction h with
  | nil owner => rfl
  | @cons owner site place rest inner others hd howner hinner _ ih ih' =>
    have hnone : (inner.filter fun pair => root.owner? pair.2 = owner) = [] := by
      refine hinner.filter_eq_nil (fun he => ?_) fun pair hm he => ?_
      · exact absurd (length_of_owner? (howner.trans he.symm)) (Nat.lt_irrefl _)
      · exact absurd (length_of_owner? (howner.trans he))
          (Nat.lt_asymm (hinner.length_lt rfl pair hm))
    rw [List.filter_cons_of_pos (by simpa using howner), List.filter_append, hnone,
      List.nil_append, List.map_cons, ih']

/-- Where a site stands for a node, those for which it is the one around them are the ones within
it. -/
theorem within (h : Laid root owner sites laid) (hn : (laid.map (·.2)).Nodup)
    (hm : (site, place) ∈ laid) :
    (laid.filter fun pair => root.owner? pair.2 = some place).map (·.1) = site.within := by
  induction h with
  | nil owner => cases hm
  | @cons owner first here rest inner others hd howner hinner hothers ih ih' =>
    rw [List.map_cons, List.map_append, List.nodup_cons, List.mem_append, not_or,
      List.nodup_append] at hn
    obtain ⟨⟨hhere, hhere'⟩, hni, hno, hdisjoint⟩ := hn
    -- The site around all of them is none of them.
    have houter : ∀ pair ∈ (first, here) :: (inner ++ others), owner ≠ some pair.2 := by
      intro pair hpair he
      exact absurd ((Laid.cons hd howner hinner hothers).length_lt he pair hpair)
        (Nat.lt_irrefl _)
    have hfirst : root.owner? here ≠ some place := howner ▸ houter _ hm
    rw [List.filter_cons_of_neg (by simpa using hfirst), List.filter_append]
    rcases List.mem_cons.1 hm with hm | hm
    · cases hm
      rw [hothers.filter_eq_nil (houter _ (List.mem_cons_self ..)) fun pair hpair he =>
          hhere' (List.mem_map.2 ⟨pair, hpair, (Option.some.inj he).symm⟩),
        List.append_nil, hinner.outermost]
    · rcases List.mem_append.1 hm with hm | hm
      · have hplace := List.mem_map_of_mem (f := (·.2)) hm
        rw [hothers.filter_eq_nil (houter _ (List.mem_cons_of_mem _ (List.mem_append_left _ hm)))
            fun pair hpair he => hdisjoint _ hplace _ (List.mem_map_of_mem (f := (·.2)) hpair)
              (Option.some.inj he),
          List.append_nil, ih hni hm]
      · have hplace := List.mem_map_of_mem (f := (·.2)) hm
        rw [hinner.filter_eq_nil (fun he => hhere' (Option.some.inj he ▸ hplace))
            fun pair hpair he => hdisjoint _ (List.mem_map_of_mem (f := (·.2)) hpair) _ hplace
              (Option.some.inj he).symm,
          List.nil_append, ih' hno hm]

end Laid

end Site

end JavaGraph
