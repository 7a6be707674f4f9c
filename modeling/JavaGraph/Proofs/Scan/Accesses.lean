import JavaGraph.Proofs.Scan.Uses
/-!
# Accesses by uses

The walk over code records an access of a field exactly where the code uses the field: a read or a
write, or both, for each use of its name that denotes the field.
-/

namespace JavaGraph

/-- The line of the name that a node has. -/
def Tree.nameLine (node : Tree) : Nat := ((node.childToken? .ident).map (·.line)).getD 0

/-- The accesses of a field at nodes where its name is used, each with its line. -/
def NameUse.accessed (own seen : Option FieldId) (field : FieldId) (uses : List (Tree × NameUse)) :
    List (Nat × AccessKind) :=
  uses.flatMap fun (node, use) =>
    if use.field? own seen = some field then use.role.accesses.map fun kind => (node.nameLine, kind)
    else []

/-- The accesses of one kind are as many as the uses that denote the field and are of that kind. -/
theorem NameUse.countP_accessed {own seen : Option FieldId} {field : FieldId} {nodes : List Tree}
    {uses : List NameUse} (h : nodes.length = uses.length) (kind : AccessKind) :
    (accessed own seen field (nodes.zip uses)).countP (·.2 = kind) =
      count own seen field kind uses := by
  induction uses generalizing nodes with
  | nil =>
    rw [List.zip_nil_right]
    rfl
  | cons use rest ih =>
    cases nodes with
    | nil => cases h
    | cons node nodes =>
      have hrest := ih (Nat.succ.inj h)
      have hrole : (use.role.accesses.map fun kind => (node.nameLine, kind)).countP (·.2 = kind) =
          if use.role.accesses.contains kind then 1 else 0 := by
        cases use.role <;> cases kind <;> rfl
      unfold accessed count at hrest ⊢
      rw [List.zip_cons_cons, List.flatMap_cons, List.countP_append, hrest, List.countP_cons,
        Nat.add_comm]
      congr 1
      by_cases hdenotes : use.field? own seen = some field
      · simp only [hdenotes, if_true, hrole, decide_true, Bool.true_and]
      · simp [hdenotes]

namespace BodyEvent

variable {name : String} {role : Role} {kind : NodeKind} {anchor : Token}
  {extent : Option Extent} {comments : Comments} {children : List Tree}

/-! ### Targets -/

variable {fields : VisibleFields} {locals : List String} {field : FieldId} {target : Target}

/-- The events of a use of a field. -/
def accessesOf (target : Target) (role : Role) : List BodyEvent :=
  role.accesses.map fun kind => .access target.field target.line kind

/-- Error nodes have no events. -/
private theorem ofNodes_of_isError {trees : List Tree} (h : ∀ tree ∈ trees, tree.isError = true) :
    ofNodes fields locals trees = ([], locals) := by
  induction trees with
  | nil => rw [ofNodes]
  | cons first rest ih =>
    rw [List.forall_mem_cons] at h
    cases first with
    | error region comments =>
      rw [ofNodes, ofNode]
      simp only
      rw [ih h.2, List.nil_append]
    | node kind anchor extent comments children => cases h.1

/-- Nodes that are not composite have no events. -/
private theorem ofNode_of_not_composite {tree : Tree} (hs : tree.Shaped)
    (h : tree.isComposite = false) : ofNode fields locals tree = ([], locals) := by
  rcases hs.error_or_leaf h with he | ⟨hk, hc⟩
  · cases tree with
    | error region comments => rw [ofNode]
    | node kind anchor extent comments children => cases he
  · cases tree with
    | error region comments => cases hk
    | node kind anchor extent comments children =>
      obtain rfl : kind = .token := hk
      have hchildren : ofNodes fields locals children = ([], locals) := ofNodes_of_isError hc
      have hlocals : declaredLocals (.node .token anchor extent comments children) = [] := rfl
      rw [ofNode, hlocals, List.append_nil]
      simp only [hchildren, reduceCtorEq, false_or, false_and, if_false]
      rfl

/-- There is at most one composite node among some nodes. -/
def Lone (trees : List Tree) : Prop := (Tree.signs trees).countP Sign.isNode ≤ 1

/-- The lone composite node comes first. -/
theorem Lone.of_cons {first : Tree} {rest : List Tree} (h : Lone (first :: rest))
    (hf : first.isComposite = true) : ∀ tree ∈ rest, tree.isComposite = false := by
  unfold Lone at h
  rw [Tree.signs_cons rest hf, List.countP_cons] at h
  have hzero : (Tree.signs rest).countP Sign.isNode = 0 := by
    simp only [Sign.isNode, if_true] at h
    exact Nat.le_zero.1 (Nat.le_of_succ_le_succ h)
  intro tree ht
  cases hc : tree.isComposite with
  | false => rfl
  | true =>
    have hm : Sign.node tree.kind ∈ Tree.signs rest :=
      List.mem_filterMap.2 ⟨tree, ht, Tree.sign?_of_isComposite hc⟩
    exact absurd rfl (List.countP_eq_zero.1 hzero _ hm)

/-- The lone composite node comes later. -/
theorem Lone.tail {first : Tree} {rest : List Tree} (h : Lone (first :: rest)) :
    Lone rest := by
  refine Nat.le_trans ?_ h
  unfold Tree.signs
  rw [List.filterMap_cons]
  cases first.sign? with
  | none => exact Nat.le_refl _
  | some sign =>
    rw [List.countP_cons]
    exact Nat.le_add_right ..

/-- Leaves and error nodes have no events. -/
private theorem ofNodes_of_not_composite {trees : List Tree} (hs : ∀ tree ∈ trees, tree.Shaped)
    (h : ∀ tree ∈ trees, tree.isComposite = false) :
    ofNodes fields locals trees = ([], locals) := by
  induction trees with
  | nil => rw [ofNodes]
  | cons first rest ih =>
    rw [List.forall_mem_cons] at hs h
    rw [ofNodes, ofNode_of_not_composite hs.1 h.1]
    simp only
    rw [ih hs.2 h.2, List.nil_append]

/-- The operand of parentheses or of a unary operator is a lone node. -/
theorem lone_operand (h : (Tree.node kind anchor extent comments children).Shaped)
    (hk : kind = .parenExpr ∨ kind = .unaryExpr ∨ kind = .postfixExpr) : Lone children := by
  have hrule : (Rule.atMost 1 (·.isNode)).Holds (Tree.signs children) := by
    refine h.holds ?_
    rcases hk with rfl | rfl | rfl <;> exact List.mem_cons_of_mem _ (List.mem_singleton_self _)
  exact hrule

mutual

/-- What an expression denotes is read. -/
private theorem ofNode_of_target : ∀ (tree : Tree), tree.Shaped →
    target? fields locals tree = some target →
    ofNode fields locals tree = (accessesOf target .read, locals)
  | .error region comments => fun _ h => by
    rw [target?] at h
    cases h
  | .node kind anchor extent comments children => by
    intro hs h
    rw [target?] at h
    split at h
    · next hk =>
      subst hk
      have hchildren := ofNodes_of_firstTarget children (Tree.shaped_node.1 hs).2
        (lone_operand hs (.inl rfl)) h
      have hlocals : declaredLocals (.node .parenExpr anchor extent comments children) = [] := rfl
      rw [ofNode, hlocals, List.append_nil]
      simp only [hchildren, reduceCtorEq, false_or, false_and, if_false]
      rfl
    · next hk =>
      have ht : target? fields locals (.node kind anchor extent comments children) = some target := by
        rw [target?, if_neg hk, h]
      unfold namedTarget? at h
      split at h
      · next hkind _ =>
        obtain rfl : kind = .nameRef := hkind
        rw [ofNode]
        simp only [ht, reduceCtorEq, false_or, false_and, if_false]
        rfl
      · next hkind _ =>
        obtain rfl : kind = .fieldAccess := hkind
        rw [ofNode]
        simp only [ht, reduceCtorEq, false_or, false_and, if_false]
        rfl
      · cases h

/-- What the first composite node among some denotes is read. -/
private theorem ofNodes_of_firstTarget : ∀ (trees : List Tree), (∀ tree ∈ trees, tree.Shaped) →
    Lone trees → firstTarget? fields locals trees = some target →
    ofNodes fields locals trees = (accessesOf target .read, locals)
  | [] => fun _ _ h => by
    rw [firstTarget?] at h
    cases h
  | first :: rest => by
    rw [List.forall_mem_cons]
    intro hs hl h
    rw [firstTarget?] at h
    split at h
    · next hc =>
      rw [ofNodes, ofNode_of_target first hs.1 h]
      simp only
      rw [ofNodes_of_not_composite hs.2 (hl.of_cons hc), List.append_nil]
    · next hc =>
      rw [ofNodes, ofNode_of_not_composite hs.1 (Bool.eq_false_iff.2 hc)]
      simp only
      rw [ofNodes_of_firstTarget rest hs.2 hl.tail h, List.nil_append]

end

/-! ### Uses and accesses -/

/-- The access of a field that an event is, with its line. -/
def accessTo? (field : FieldId) : BodyEvent → Option (Nat × AccessKind)
  | .access other line kind => if other = field then some (line, kind) else none
  | _ => none

/-- The code sees the field under one name only. -/
def SeenAs (fields : VisibleFields) (name : String) (field : FieldId) : Prop :=
  ∀ other, fields.own? other = some field ∨ fields.find? other = some field → other = name

/-- A walk over code accesses a field where the uses of its name denote it, in the order of the nodes
that are the name, and leaves the name in scope if they do. -/
structure Agrees (fields : VisibleFields) (name : String) (field : FieldId) (nodes : List Tree)
    (walk : Walk) (uses : List NameUse × Bool) : Prop where
  length_eq : (nodes.filter (isUse name)).length = uses.1.length
  accesses : walk.1.filterMap (accessTo? field) =
    NameUse.accessed (fields.own? name) (fields.find? name) field
      ((nodes.filter (isUse name)).zip uses.1)
  bound : walk.2.contains name = uses.2

/-- Pieces of code in sequence. -/
private theorem Agrees.append {nodes more : List Tree} {events others : List BodyEvent}
    {locals locals' : List String} {uses uses' : List NameUse} {bound bound' : Bool}
    (h : Agrees fields name field nodes (events, locals) (uses, bound))
    (h' : Agrees fields name field more (others, locals') (uses', bound')) :
    Agrees fields name field (nodes ++ more) (events ++ others, locals')
      (uses ++ uses', bound') := by
  constructor
  · rw [List.filter_append, List.length_append, List.length_append, h.length_eq, h'.length_eq]
  · rw [List.filter_append, List.zip_append h.length_eq, List.filterMap_append, h.accesses,
      h'.accesses, NameUse.accessed, NameUse.accessed, NameUse.accessed, List.flatMap_append]
  · exact h'.bound

/-- Code without accesses and uses. -/
private theorem agrees_nothing {nodes : List Tree} {events : List BodyEvent}
    (hn : nodes.filter (isUse name) = []) (he : events.filterMap (accessTo? field) = []) :
    Agrees fields name field nodes (events, locals) ([], locals.contains name) := by
  constructor
  · rw [hn, List.length_nil, List.length_nil]
  · rw [hn, he]
    rfl
  · rfl

/-- The accesses that a use of a field is. -/
private theorem filterMap_accessesOf (target : Target) (role : Role) (field : FieldId) :
    (accessesOf target role).filterMap (accessTo? field) =
      if target.field = field then role.accesses.map fun kind => (target.line, kind) else [] := by
  unfold accessesOf
  by_cases hf : target.field = field <;> cases role <;> simp [Role.accesses, accessTo?, hf]

/-- A node is one use at most. -/
private theorem length_filter_isUse (node : Tree) :
    ([node].filter (isUse name)).length = (useAt name role bound node).length := by
  cases h : node.isName name <;> cases h' : node.isNameOfThis name <;> simp [useAt, isUse, h, h']

private theorem zip_useAt (node : Tree) :
    ([node].filter (isUse name)).zip (useAt name role bound node) =
      (useAt name role bound node).map fun use => (node, use) := by
  cases h : node.isName name <;> cases h' : node.isNameOfThis name <;> simp [useAt, isUse, h, h']

private theorem accessed_singleton (own seen : Option FieldId) (node : Tree) (use : NameUse) :
    NameUse.accessed own seen field [(node, use)] =
      if use.field? own seen = some field then use.role.accesses.map fun kind => (node.nameLine, kind)
      else [] := by
  rw [NameUse.accessed, List.flatMap_singleton]

/-- A node is a name alone or behind `this`, or it is neither. -/
private theorem name_cases (node : Tree) :
    ((∀ name role bound, useAt name role bound node = []) ∧
      ∀ fields locals, namedTarget? fields locals node = none) ∨
    ∃ (ofThis : Bool) (token : Token), node.childToken? .ident = some token ∧
      (∀ name role bound, useAt name role bound node =
        if token.text = name then [⟨ofThis, bound, role⟩] else []) ∧
      ∀ fields locals role, namedTarget? fields locals node =
        (NameUse.field? (fields.own? token.text) (fields.find? token.text)
          ⟨ofThis, locals.contains token.text, role⟩).map (⟨·, token.line⟩) := by
  cases ht : node.childToken? .ident with
  | none =>
    refine .inl ⟨fun name role bound => ?_, fun fields locals => ?_⟩
    · simp [useAt, Tree.isName, Tree.isNameOfThis, ht]
    · unfold namedTarget?
      rw [ht]
      split <;> first | rfl | contradiction
  | some token =>
    by_cases hname : node.kind = .nameRef
    · refine .inr ⟨false, token, rfl, fun name role bound => ?_, fun fields locals role => ?_⟩
      · simp [useAt, Tree.isName, Tree.isNameOfThis, ht, hname]
      · unfold namedTarget? NameUse.field?
        simp only [hname, ht, Bool.false_eq_true, if_false]
        split <;> rfl
    · by_cases hthis : node.kind = .fieldAccess ∧
          node.children.head?.any (·.kind == .thisExpr) = true
      · refine .inr ⟨true, token, rfl, fun name role bound => ?_, fun fields locals role => ?_⟩
        · simp [useAt, Tree.isName, Tree.isNameOfThis, ht, hthis]
        · unfold namedTarget? NameUse.field?
          simp only [hthis.1, ht, hthis.2, if_true]
      · refine .inl ⟨fun name role bound => ?_, fun fields locals => ?_⟩
        · have hname' : node.isName name = false := by simp [Tree.isName, hname]
          have hthis' : node.isNameOfThis name = false := by
            rw [← Bool.not_eq_true]
            simp only [Tree.isNameOfThis, Bool.and_eq_true, beq_iff_eq]
            exact fun h => hthis h.1
          simp [useAt, hname', hthis']
        · unfold namedTarget?
          split
          · contradiction
          · next hk _ => rw [if_neg fun h => hthis ⟨hk, h⟩]
          · rfl

/-- A node that denotes a field is a use of the field's name, and no other name is used there. -/
private theorem agrees_target (hn : SeenAs fields name field) {node : Tree} (role : Role)
    (h : namedTarget? fields locals node = some target) :
    Agrees fields name field [node] (accessesOf target role, locals)
      (useAt name role (locals.contains name) node, locals.contains name) := by
  refine ⟨length_filter_isUse node, ?_, rfl⟩
  rw [filterMap_accessesOf, zip_useAt]
  rcases name_cases node with ⟨-, hnone⟩ | ⟨ofThis, token, hident, huse, htarget⟩
  · rw [hnone] at h
    cases h
  · rw [htarget fields locals role] at h
    obtain ⟨found, hf, rfl⟩ := Option.map_eq_some_iff.1 h
    have hline : node.nameLine = token.line := by simp [Tree.nameLine, hident]
    rw [huse]
    by_cases he : token.text = name
    · subst he
      rw [if_pos rfl, List.map_singleton, accessed_singleton, hf, hline]
      simp only [Option.some.injEq]
    · have hne : found ≠ field := by
        rintro rfl
        unfold NameUse.field? at hf
        split at hf
        · exact he (hn _ (.inl hf))
        · split at hf
          · cases hf
          · exact he (hn _ (.inr hf))
      rw [if_neg he, if_neg hne]
      rfl

/-- A node that denotes no field is no use that counts. -/
private theorem agrees_no_target {node : Tree} (role : Role)
    (h : namedTarget? fields locals node = none) :
    Agrees fields name field [node] ([], locals)
      (useAt name role (locals.contains name) node, locals.contains name) := by
  refine ⟨length_filter_isUse node, ?_, rfl⟩
  rw [zip_useAt]
  rcases name_cases node with ⟨hnone, -⟩ | ⟨ofThis, token, -, huse, htarget⟩
  · rw [hnone]
    rfl
  · rw [htarget fields locals role, Option.map_eq_none_iff] at h
    rw [huse]
    split
    · next he =>
      subst he
      rw [List.map_singleton, accessed_singleton, h]
      rfl
    · rfl

/-! ### Shapes -/

/-- A node without composite children has no uses below it. -/
private theorem unused_of_among_nil {tree : Tree} (hs : tree.Shaped)
    (hr : Rule.among [] ∈ Rule.ofKind tree.kind) : ∀ child ∈ tree.children, Unused name child := by
  intro child hc
  refine unused_of_not_composite (hs.of_mem hc) ?_
  cases hm : child.isComposite with
  | false => rfl
  | true => exact absurd (hs.kind_mem hr hc hm) List.not_mem_nil

/-- Behind `this` and a dot there is a name and nothing else. -/
theorem not_composite_of_this {first : Tree} {rest : List Tree}
    (hs : (Tree.node .fieldAccess anchor extent comments (first :: rest)).Shaped)
    (hk : first.kind = .thisExpr) (hident :
      ((Tree.node .fieldAccess anchor extent comments (first :: rest)).childToken? .ident).isSome) :
    ∀ child ∈ rest, child.isComposite = false := by
  have hfirst : first.isComposite = true := by
    cases first with
    | error region comments => cases hk
    | node kind anchor extent comments children =>
      obtain rfl : kind = .thisExpr := hk
      rfl
  -- The name is one of the two signs that the rule allows, and `this` is the other one.
  have hname : Sign.identifier ∈ Tree.signs rest := by
    obtain ⟨token, ht⟩ := Option.isSome_iff_exists.1 hident
    obtain ⟨child, hc, hct⟩ := List.mem_filterMap.1 (List.mem_of_find?_eq_some ht)
    have hkind : token.kind = .ident := by simpa using List.find?_some ht
    rcases List.mem_cons.1 hc with rfl | hc
    · cases child with
      | error region comments => cases hct
      | node kind anchor extent comments children =>
        obtain rfl : kind = .thisExpr := hk
        cases hct
    · refine List.mem_filterMap.2 ⟨child, hc, ?_⟩
      unfold Tree.token? at hct
      split at hct
      · cases hct
        simp [Tree.sign?, Sign.ofToken, hkind]
      · cases hct
  have hcount : (Tree.signs (first :: rest)).countP
      (fun sign => sign.isNode || sign == .identifier) ≤ 2 :=
    have hrule : (Rule.atMost 2 fun sign => sign.isNode || sign == .identifier).Holds
        (Tree.signs (first :: rest)) :=
      hs.holds (List.mem_cons_of_mem _ (List.mem_singleton_self _))
    hrule
  have hlone : Lone (first :: rest) := by
    have hone : 0 < (Tree.signs rest).countP (· == .identifier) :=
      List.countP_pos_iff.2 ⟨_, hname, rfl⟩
    unfold Lone
    rw [Tree.signs_cons rest hfirst, List.countP_cons, Sign.countP_or] at hcount
    · rw [Tree.signs_cons rest hfirst, List.countP_cons]
      simp only [Sign.isNode, Bool.true_or, if_true] at hcount ⊢
      omega
    · intro sign hn
      cases sign <;> first | rfl | cases hn
  exact hlone.of_cons hfirst

/-- Below what is written behind `this` nothing is used. -/
private theorem unused_of_this
    (hs : (Tree.node .fieldAccess anchor extent comments children).Shaped)
    (hthis : children.head?.any (·.kind == .thisExpr) = true)
    (hident : ((Tree.node .fieldAccess anchor extent comments children).childToken? .ident).isSome) :
    ∀ child ∈ children, Unused name child := by
  cases children with
  | nil => cases hthis
  | cons first rest =>
    have hk : first.kind = .thisExpr := by simpa using hthis
    have hrest := not_composite_of_this hs hk hident
    have hs' : ∀ tree ∈ first :: rest, tree.Shaped := (Tree.shaped_node.1 hs).2
    rw [List.forall_mem_cons] at hs' ⊢
    refine ⟨?_, fun child hc => unused_of_not_composite (hs'.2 child hc) (hrest child hc)⟩
    cases first with
    | error region comments => cases hk
    | node kind anchor extent comments children =>
      obtain rfl : kind = .thisExpr := hk
      exact unused_node nofun nofun rfl (unused_of_among_nil hs'.1 (List.mem_singleton_self _))

/-! ### Nodes that are the name -/

/-- A piece of code in which the name is not used. -/
private theorem filter_codeNodes_of_unused {tree : Tree} (hs : tree.Shaped)
    (h : Unused name tree) : tree.codeNodes.filter (isUse name) = [] := by
  have hcount : tree.codeNodes.countP (isUse name) = 0 := by
    rw [← length_usesOf tree hs .read false, h]
    rfl
  rw [← List.length_eq_zero_iff, ← List.countP_eq_length_filter, hcount]

/-- Pieces of code in which the name is not used. -/
private theorem filter_codeNodesOf_of_unused {trees : List Tree} (hs : ∀ tree ∈ trees, tree.Shaped)
    (h : ∀ tree ∈ trees, Unused name tree) : (Tree.codeNodesOf trees).filter (isUse name) = [] := by
  induction trees with
  | nil => rw [Tree.codeNodesOf, List.filter_nil]
  | cons first rest ih =>
    rw [List.forall_mem_cons] at hs h
    rw [Tree.codeNodesOf, List.filter_append, filter_codeNodes_of_unused hs.1 h.1, ih hs.2 h.2,
      List.append_nil]

/-- A construct that is no declaration of a type comes in front of its parts. -/
private theorem codeNodes_node (h : (kind.isTypeDeclaration || kind = .classBody) = false) :
    (Tree.node kind anchor extent comments children).codeNodes =
      .node kind anchor extent comments children :: Tree.codeNodesOf children := by
  rw [Tree.codeNodes, if_neg (Bool.eq_false_iff.1 h)]

/-- Only the nodes that are the name matter. -/
private theorem Agrees.of_filter_eq {nodes more : List Tree} {walk : Walk}
    {uses : List NameUse × Bool} (h : Agrees fields name field nodes walk uses)
    (hm : more.filter (isUse name) = nodes.filter (isUse name)) :
    Agrees fields name field more walk uses := by
  constructor
  · rw [hm, h.length_eq]
  · rw [hm, h.accesses]
  · exact h.bound

/-! ### Walks -/

/-- The walk over code that is used in a role as a whole. -/
private def walkAs (fields : VisibleFields) (locals : List String) (role : Role) (tree : Tree) : Walk :=
  match target? fields locals tree with
  | some target => (accessesOf target role, locals)
  | none => ofNode fields locals tree

/-- The walk over code of which the first composite node is used in a role. -/
private def walkThrough (fields : VisibleFields) (locals : List String) (role : Role)
    (trees : List Tree) : Walk :=
  match firstTarget? fields locals trees with
  | some target => (accessesOf target role, locals)
  | none => ofNodes fields locals trees

/-- The walk over code is the one over code that is read. -/
private theorem walkAs_read {tree : Tree} (hs : tree.Shaped) :
    walkAs fields locals .read tree = ofNode fields locals tree := by
  unfold walkAs
  split
  · next h => exact (ofNode_of_target tree hs h).symm
  · rfl

/-- What is no name and no name behind `this` denotes no field. -/
private theorem target?_eq_none (kind : NodeKind) (hp : kind ≠ .parenExpr) (hk : kind ≠ .nameRef)
    (hf : kind ≠ .fieldAccess) :
    target? fields locals (.node kind anchor extent comments children) = none := by
  rw [target?, if_neg hp]
  unfold namedTarget?
  split
  · next h _ => exact absurd h hk
  · next h _ => exact absurd h hf
  · rfl

/-- A name that stands for a type stands for no field. -/
private theorem ofNode_of_typeTarget {node : Tree} {token : Token}
    (h : typeTarget? fields locals node = some token) :
    ofNode fields locals node = ([], locals) := by
  unfold typeTarget? at h
  split at h
  · next hk =>
    obtain ⟨ht, hp⟩ := Option.filter_eq_some_iff.1 h
    cases node with
    | error region comments => cases hk
    | node kind anchor extent comments children =>
      obtain rfl : kind = .nameRef := hk
      have hnone : fields.find? token.text = none := by
        simp only [Bool.and_eq_true, Option.isNone_iff_eq_none] at hp
        exact hp.2
      have htarget : target? fields locals (.node .nameRef anchor extent comments children) =
          none := by
        rw [target?, if_neg nofun]
        unfold namedTarget?
        rw [ht]
        simp only [Tree.kind, hnone]
        split <;> rfl
      rw [ofNode]
      simp only [htarget, reduceCtorEq, false_or, false_and, if_false]
      rfl
  · cases h

/-- The target of an assignment is walked over in its role. -/
private theorem ofAssignment_cons (first : Tree) (rest : List Tree) :
    ofAssignment fields locals (first :: rest) =
      let here := walkAs fields locals
        (if isPlainAssignment (first :: rest) then .assigned else .updated) first
      (here.1 ++ (ofNodes fields here.2 rest).1, (ofNodes fields here.2 rest).2) := by
  rw [ofAssignment, walkAs]
  cases target? fields locals first with
  | none => rfl
  | some target => cases isPlainAssignment (first :: rest) <;> rfl

/-- Local variables of a construct may end with it; the construct itself is no use that counts. -/
private theorem Agrees.within {node : Tree} {nodes : List Tree} {walk : Walk}
    {uses : List NameUse × Bool} {here : List NameUse}
    (h : Agrees fields name field nodes walk uses) (closes : Bool)
    (hhere : Agrees fields name field [node] ([], locals) (here, locals.contains name)) :
    Agrees fields name field (node :: nodes) (if closes then (walk.1, locals) else walk)
      (here ++ uses.1, if closes then locals.contains name else uses.2) := by
  have hall : Agrees fields name field ([node] ++ nodes) ([] ++ walk.1, walk.2)
      (here ++ uses.1, uses.2) := hhere.append h
  cases closes with
  | true => exact ⟨hall.length_eq, hall.accesses, rfl⟩
  | false => exact hall

/-- Parentheses around an operand. -/
private theorem agrees_parenExpr
    (h : Agrees fields name field (Tree.codeNodesOf children)
      (walkThrough fields locals role children)
      (usesThrough name role (locals.contains name) children)) :
    Agrees fields name field (Tree.codeNodes (.node .parenExpr anchor extent comments children))
      (walkAs fields locals role (.node .parenExpr anchor extent comments children))
      (usesOf name role (locals.contains name) (.node .parenExpr anchor extent comments children)) := by
  have huses : usesOf name role (locals.contains name)
      (.node .parenExpr anchor extent comments children) =
        usesThrough name role (locals.contains name) children := by
    have hlocals : declaredLocals (.node .parenExpr anchor extent comments children) = [] := rfl
    rw [usesOf, hlocals]
    simp only [List.contains_nil, Bool.or_false, reduceCtorEq, if_false, if_true]
    rfl
  have hwalk : walkAs fields locals role (.node .parenExpr anchor extent comments children) =
      walkThrough fields locals role children := by
    have hlocals : declaredLocals (.node .parenExpr anchor extent comments children) = [] := rfl
    rw [walkAs, target?, if_pos rfl, walkThrough]
    split
    · rfl
    · rw [ofNode, hlocals, List.append_nil]
      simp only [reduceCtorEq, false_or, false_and, if_false]
      rfl
  rw [huses, hwalk]
  apply h.of_filter_eq
  rw [codeNodes_node rfl, List.filter_cons_of_neg]
  exact Bool.false_ne_true

/-- A name alone. -/
private theorem agrees_nameRef (hn : SeenAs fields name field)
    (hs : (Tree.node .nameRef anchor extent comments children).Shaped) :
    Agrees fields name field (Tree.codeNodes (.node .nameRef anchor extent comments children))
      (walkAs fields locals role (.node .nameRef anchor extent comments children))
      (usesOf name role (locals.contains name) (.node .nameRef anchor extent comments children)) := by
  have hunused : ∀ child ∈ children, Unused name child :=
    unused_of_among_nil hs (List.mem_singleton_self _)
  have huses : usesOf name role (locals.contains name)
      (.node .nameRef anchor extent comments children) =
        (useAt name role (locals.contains name) (.node .nameRef anchor extent comments children),
          locals.contains name) := by
    have hlocals : declaredLocals (.node .nameRef anchor extent comments children) = [] := rfl
    rw [usesOf, hlocals]
    simp only [List.contains_nil, Bool.or_false, reduceCtorEq, false_or, false_and, if_false,
      usesFrom_unused hunused, List.append_nil]
    rfl
  have hnodes : (Tree.codeNodesOf children).filter (isUse name) = [] :=
    filter_codeNodesOf_of_unused (Tree.shaped_node.1 hs).2 hunused
  have hself : (Tree.codeNodes (.node .nameRef anchor extent comments children)).filter
      (isUse name) = [Tree.node .nameRef anchor extent comments children].filter (isUse name) := by
    rw [codeNodes_node rfl, List.filter_cons, hnodes, List.filter_cons, List.filter_nil]
  rw [huses, walkAs, target?, if_neg nofun]
  cases h : namedTarget? fields locals (.node .nameRef anchor extent comments children) with
  | some target => exact (agrees_target hn role h).of_filter_eq hself
  | none =>
    have hwalk : ofNode fields locals (.node .nameRef anchor extent comments children) =
        ([], locals) := by
      have htarget : target? fields locals (.node .nameRef anchor extent comments children) =
          none := by rw [target?, if_neg nofun, h]
      rw [ofNode]
      simp only [htarget, reduceCtorEq, false_or, false_and, if_false]
      rfl
    rw [hwalk]
    exact (agrees_no_target role h).of_filter_eq hself

/-- An access of a member, of `this` or of anything else. -/
private theorem agrees_fieldAccess (hn : SeenAs fields name field)
    (hs : (Tree.node .fieldAccess anchor extent comments children).Shaped)
    (hqualified : Agrees fields name field (Tree.codeNodesOf children)
      (ofQualified fields locals children)
      (usesFrom name .read (locals.contains name) children)) :
    Agrees fields name field (Tree.codeNodes (.node .fieldAccess anchor extent comments children))
      (walkAs fields locals role (.node .fieldAccess anchor extent comments children))
      (usesOf name role (locals.contains name)
        (.node .fieldAccess anchor extent comments children)) := by
  have huses : usesOf name role (locals.contains name)
      (.node .fieldAccess anchor extent comments children) =
        (useAt name role (locals.contains name) (.node .fieldAccess anchor extent comments children) ++
          (usesFrom name .read (locals.contains name) children).1,
          (usesFrom name .read (locals.contains name) children).2) := by
    have hlocals : declaredLocals (.node .fieldAccess anchor extent comments children) = [] := rfl
    rw [usesOf, hlocals]
    simp only [List.contains_nil, Bool.or_false, reduceCtorEq, false_or, false_and, if_false]
    rfl
  rw [huses, walkAs, target?, if_neg nofun]
  cases h : namedTarget? fields locals (.node .fieldAccess anchor extent comments children) with
  | some target =>
    have hunused : ∀ child ∈ children, Unused name child := by
      unfold namedTarget? at h
      split at h
      · next hk _ => cases hk
      · next hident =>
        split at h
        · next hthis => exact unused_of_this hs hthis (by rw [hident]; rfl)
        · cases h
      · cases h
    have hnodes : (Tree.codeNodesOf children).filter (isUse name) = [] :=
      filter_codeNodesOf_of_unused (Tree.shaped_node.1 hs).2 hunused
    rw [usesFrom_unused hunused, List.append_nil]
    apply (agrees_target hn role h).of_filter_eq
    rw [codeNodes_node rfl, List.filter_cons, hnodes, List.filter_cons, List.filter_nil]
  | none =>
    have hwalk : ofNode fields locals (.node .fieldAccess anchor extent comments children) =
        ofQualified fields locals children := by
      have htarget : target? fields locals (.node .fieldAccess anchor extent comments children) =
          none := by rw [target?, if_neg nofun, h]
      rw [ofNode]
      simp only [htarget, reduceCtorEq, false_or, false_and, if_false]
      rfl
    rw [hwalk, codeNodes_node rfl]
    exact hqualified.within false (agrees_no_target role h)

/-- The bodies of types that are declared in code are left out. -/
private theorem agrees_typeDeclaration (hl : (kind.isTypeDeclaration || kind = .classBody) = true) :
    Agrees fields name field (Tree.codeNodes (.node kind anchor extent comments children))
      (walkAs fields locals role (.node kind anchor extent comments children))
      (usesOf name role (locals.contains name) (.node kind anchor extent comments children)) := by
  have hne : ∀ other : NodeKind, (other.isTypeDeclaration || other = .classBody) = false →
      kind ≠ other := by
    rintro other ho rfl
    rw [hl] at ho
    cases ho
  rw [usesOf, walkAs, target?_eq_none kind (hne _ rfl) (hne _ rfl) (hne _ rfl), ofNode,
    Tree.codeNodes]
  simp only [hl, if_true]
  exact agrees_nothing rfl rfl

/-- What types are written with accesses no field. -/
private theorem agrees_typeSyntax {tree : Tree} (hs : tree.Shaped)
    (hk : tree.kind = .typeRef ∨ tree.kind = .annotationUse) :
    Agrees fields name field tree.codeNodes (walkAs fields locals role tree)
      (usesOf name role (locals.contains name) tree) := by
  cases tree with
  | error region comments => rcases hk with hk | hk <;> cases hk
  | node kind anchor extent comments children =>
    have htype : isTypeSyntax kind = true := by rcases hk with rfl | rfl <;> rfl
    have hunused : Unused name (.node kind anchor extent comments children) :=
      unused_of_typeSyntax _ hs htype
    have hnodes := filter_codeNodes_of_unused hs hunused
    rw [hunused]
    rcases hk with rfl | rfl
    · rw [walkAs, target?_eq_none .typeRef nofun nofun nofun, ofNode]
      exact agrees_nothing hnodes rfl
    · rw [walkAs, target?_eq_none .annotationUse nofun nofun nofun, ofNode]
      exact agrees_nothing hnodes rfl

/-- A construct that is no name: its parts are walked over in order. -/
private theorem agrees_construct (hl : (kind.isTypeDeclaration || kind = .classBody) = false)
    (ht : kind ≠ .typeRef) (hu : kind ≠ .annotationUse) (hp : kind ≠ .parenExpr)
    (hk : kind ≠ .nameRef) (hf : kind ≠ .fieldAccess)
    (hs : (Tree.node kind anchor extent comments children).Shaped)
    (hassignment : Agrees fields name field (Tree.codeNodesOf children)
      (ofAssignment fields locals children)
      (usesFrom name (if isPlainAssignment children then .assigned else .updated)
        (locals.contains name) children))
    (hqualified : Agrees fields name field (Tree.codeNodesOf children)
      (ofQualified fields locals children)
      (usesFrom name .read (locals.contains name) children))
    (hthrough : Lone children → Agrees fields name field
      (Tree.codeNodesOf children) (walkThrough fields locals .updated children)
      (usesThrough name .updated (locals.contains name) children))
    (hnodes : ∀ locals, Agrees fields name field (Tree.codeNodesOf children)
      (ofNodes fields locals children)
      (usesFrom name .read (locals.contains name) children)) :
    Agrees fields name field (Tree.codeNodes (.node kind anchor extent comments children))
      (walkAs fields locals role (.node kind anchor extent comments children))
      (usesOf name role (locals.contains name) (.node kind anchor extent comments children)) := by
  have hhere : Agrees fields name field [.node kind anchor extent comments children] ([], locals)
      (useAt name role (locals.contains name) (.node kind anchor extent comments children),
        locals.contains name) := by
    apply agrees_no_target
    have htarget : target? fields locals (.node kind anchor extent comments children) = none :=
      target?_eq_none kind hp hk hf
    rwa [target?, if_neg hp] at htarget
  rw [walkAs, target?_eq_none kind hp hk hf, ofNode, usesOf, codeNodes_node hl]
  simp only [hl, Bool.false_eq_true, if_false, ht, hu, hp, hk, hf]
  refine Agrees.within ?_ (opensScope kind) hhere
  by_cases ha : kind = .assignExpr
  · subst ha
    have hlocals : declaredLocals (.node .assignExpr anchor extent comments children) = [] := rfl
    rw [if_pos rfl, if_pos rfl, hlocals, List.contains_nil, Bool.or_false]
    exact hassignment
  · rw [if_neg ha, if_neg ha]
    by_cases hstep : (kind = .unaryExpr ∨ kind = .postfixExpr) ∧ isStep children = true
    · have hlocals : declaredLocals (.node kind anchor extent comments children) = [] := by
        rcases hstep.1 with rfl | rfl <;> rfl
      have hlone : Lone children := lone_operand hs (.inr hstep.1)
      rw [if_pos hstep, if_pos hstep, hlocals, List.contains_nil, Bool.or_false]
      exact hthrough hlone
    · rw [if_neg hstep, if_neg hstep]
      split
      · next hcall =>
        have hlocals : declaredLocals (.node kind anchor extent comments children) = [] := by
          rcases hcall with rfl | rfl | rfl <;> rfl
        rw [hlocals, List.contains_nil, Bool.or_false]
        exact hqualified
      · rw [← List.contains_append]
        exact hnodes _

mutual

/-- A walk over code accesses a field as often as the uses of its name in the code denote it. -/
private theorem agrees_walkAs (hn : SeenAs fields name field) : ∀ (tree : Tree), tree.Shaped →
    ∀ role locals, Agrees fields name field tree.codeNodes
      (walkAs fields locals role tree)
      (usesOf name role (locals.contains name) tree)
  | .error region comments => by
    intro _ role locals
    rw [usesOf, walkAs, target?, ofNode, Tree.codeNodes]
    exact agrees_nothing rfl rfl
  | .node kind anchor extent comments children => by
    intro hs role locals
    have hchildren := (Tree.shaped_node.1 hs).2
    by_cases hlevel : (kind.isTypeDeclaration || kind = .classBody) = true
    · exact agrees_typeDeclaration hlevel
    · by_cases ht : kind = .typeRef ∨ kind = .annotationUse
      · exact agrees_typeSyntax hs ht
      · by_cases hp : kind = .parenExpr
        · subst hp
          exact agrees_parenExpr
            (agrees_walkThrough hn children hchildren (lone_operand hs (.inl rfl)) role locals)
        · by_cases hk : kind = .nameRef
          · subst hk
            exact agrees_nameRef hn hs
          · by_cases hf : kind = .fieldAccess
            · subst hf
              exact agrees_fieldAccess hn hs (agrees_ofQualified hn children hchildren locals)
            · exact agrees_construct (Bool.eq_false_iff.2 hlevel) (fun h => ht (.inl h))
                (fun h => ht (.inr h)) hp hk hf hs
                (agrees_ofAssignment hn children hchildren locals)
                (agrees_ofQualified hn children hchildren locals)
                (fun hl => agrees_walkThrough hn children hchildren hl .updated locals)
                (agrees_ofNodes hn children hchildren)

/-- The walk over pieces of code that are read. -/
private theorem agrees_ofNodes (hn : SeenAs fields name field) : ∀ (trees : List Tree),
    (∀ tree ∈ trees, tree.Shaped) → ∀ locals,
    Agrees fields name field (Tree.codeNodesOf trees)
      (ofNodes fields locals trees)
      (usesFrom name .read (locals.contains name) trees)
  | [] => by
    intro _ locals
    rw [ofNodes, usesFrom, Tree.codeNodesOf]
    exact agrees_nothing rfl rfl
  | first :: rest => by
    rw [List.forall_mem_cons]
    intro hs locals
    have hfirst := agrees_walkAs hn first hs.1 .read locals
    rw [walkAs_read hs.1] at hfirst
    rw [ofNodes, usesFrom, ← hfirst.bound, Tree.codeNodesOf]
    exact hfirst.append (agrees_ofNodes hn rest hs.2 _)

/-- The walk over an assignment. -/
private theorem agrees_ofAssignment (hn : SeenAs fields name field) : ∀ (trees : List Tree),
    (∀ tree ∈ trees, tree.Shaped) → ∀ locals,
    Agrees fields name field (Tree.codeNodesOf trees)
      (ofAssignment fields locals trees)
      (usesFrom name (if isPlainAssignment trees then .assigned else .updated)
        (locals.contains name) trees)
  | [] => by
    intro _ locals
    rw [ofAssignment, usesFrom, Tree.codeNodesOf]
    exact agrees_nothing rfl rfl
  | first :: rest => by
    rw [List.forall_mem_cons]
    intro hs locals
    have hfirst := agrees_walkAs hn first hs.1
      (if isPlainAssignment (first :: rest) then .assigned else .updated) locals
    rw [ofAssignment_cons, usesFrom, ← hfirst.bound, Tree.codeNodesOf]
    exact hfirst.append (agrees_ofNodes hn rest hs.2 _)

/-- The walk over an expression whose first part may name a type. -/
private theorem agrees_ofQualified (hn : SeenAs fields name field) : ∀ (trees : List Tree),
    (∀ tree ∈ trees, tree.Shaped) → ∀ locals,
    Agrees fields name field (Tree.codeNodesOf trees)
      (ofQualified fields locals trees)
      (usesFrom name .read (locals.contains name) trees)
  | [] => by
    intro _ locals
    rw [ofQualified, usesFrom, Tree.codeNodesOf]
    exact agrees_nothing rfl rfl
  | first :: rest => by
    rw [List.forall_mem_cons]
    intro hs locals
    rw [ofQualified, usesFrom, Tree.codeNodesOf]
    split
    · have hfirst := agrees_walkAs hn first hs.1 .read locals
      rw [walkAs_read hs.1] at hfirst
      have hwalk : Agrees fields name field first.codeNodes
          (match typeTarget? fields locals first with
            | some token => ([.typeName token], locals)
            | none => ofNode fields locals first)
          (usesOf name .read (locals.contains name) first) := by
        split
        · next token ht =>
          rw [ofNode_of_typeTarget ht] at hfirst
          exact ⟨hfirst.length_eq, hfirst.accesses, hfirst.bound⟩
        · exact hfirst
      rw [← hwalk.bound]
      exact hwalk.append (agrees_ofNodes hn rest hs.2 _)
    · next hc =>
      have hunused : Unused name first := unused_of_not_composite hs.1 (Bool.eq_false_iff.2 hc)
      rw [hunused]
      simp only [List.nil_append]
      apply (agrees_ofQualified hn rest hs.2 locals).of_filter_eq
      rw [List.filter_append, filter_codeNodes_of_unused hs.1 hunused, List.nil_append]

/-- The walk over an operand. -/
private theorem agrees_walkThrough (hn : SeenAs fields name field) : ∀ (trees : List Tree),
    (∀ tree ∈ trees, tree.Shaped) → Lone trees → ∀ role locals,
    Agrees fields name field (Tree.codeNodesOf trees)
      (walkThrough fields locals role trees)
      (usesThrough name role (locals.contains name) trees)
  | [] => by
    intro _ _ role locals
    rw [walkThrough, firstTarget?, ofNodes, usesThrough, Tree.codeNodesOf]
    exact agrees_nothing rfl rfl
  | first :: rest => by
    rw [List.forall_mem_cons]
    intro hs hl role locals
    rw [usesThrough, walkThrough, firstTarget?]
    cases hc : first.isComposite with
    | true =>
      have hfirst := agrees_walkAs hn first hs.1 role locals
      have hnone := hl.of_cons hc
      have hunused : ∀ child ∈ rest, Unused name child :=
        fun child hm => unused_of_not_composite (hs.2 child hm) (hnone child hm)
      have hnodes : (Tree.codeNodesOf (first :: rest)).filter (isUse name) =
          first.codeNodes.filter (isUse name) := by
        rw [Tree.codeNodesOf, List.filter_append, filter_codeNodesOf_of_unused hs.2 hunused,
          List.append_nil]
      rw [if_pos rfl, if_pos rfl]
      simp only [usesFrom_unused hunused, List.append_nil]
      rw [walkAs] at hfirst
      apply Agrees.of_filter_eq _ hnodes
      cases ht : target? fields locals first with
      | some target =>
        rw [ht] at hfirst
        exact hfirst
      | none =>
        rw [ht] at hfirst
        simp only at hfirst ⊢
        rw [ofNodes]
        simp only
        rw [ofNodes_of_not_composite hs.2 hnone, List.append_nil]
        exact hfirst
    | false =>
      have hrest := agrees_walkThrough hn rest hs.2 hl.tail role locals
      have hnodes : (Tree.codeNodesOf (first :: rest)).filter (isUse name) =
          (Tree.codeNodesOf rest).filter (isUse name) := by
        rw [Tree.codeNodesOf, List.filter_append,
          filter_codeNodes_of_unused hs.1 (unused_of_not_composite hs.1 hc), List.nil_append]
      rw [walkThrough] at hrest
      rw [if_neg Bool.false_ne_true, if_neg Bool.false_ne_true, ofNodes,
        ofNode_of_not_composite hs.1 hc]
      exact hrest.of_filter_eq hnodes

end

/-- The walk over code that is read. -/
theorem agrees_ofNode (hn : SeenAs fields name field) {tree : Tree} (hs : tree.Shaped)
    (locals : List String) : Agrees fields name field tree.codeNodes (ofNode fields locals tree)
      (usesOf name .read (locals.contains name) tree) := by
  rw [← walkAs_read hs]
  exact agrees_walkAs hn tree hs .read locals

end BodyEvent

namespace Body

variable {fields : VisibleFields} {name : String} {field : FieldId} {body : Body}

/-- The accesses of a body are by its function. -/
theorem function_of_mem_accesses {access : Access} (h : access ∈ body.accesses fields) :
    body.function = some access.function := by
  unfold accesses at h
  split at h
  · cases h
  · next function hf =>
    obtain ⟨event, -, he⟩ := List.mem_filterMap.1 h
    split at he
    · cases he
      exact hf
    · cases he

/-- The accesses of a field in a body, in order: those of the uses of the field's name that denote the
field, each in its line. -/
theorem accesses_eq (hn : BodyEvent.SeenAs fields name field) (hs : body.node.Shaped)
    (hf : body.function.isSome) :
    ((body.accesses fields).filter (·.field = field)).map (fun access => (access.line, access.kind)) =
      NameUse.accessed (fields.own? name) (fields.find? name) field
        ((body.node.codeNodes.filter (BodyEvent.isUse name)).zip (body.uses name)) := by
  have hevents := (BodyEvent.agrees_ofNode hn hs body.locals).accesses
  obtain ⟨function, hf⟩ := Option.isSome_iff_exists.1 hf
  unfold accesses uses
  rw [hf, ← hevents, List.filter_filterMap, List.map_filterMap]
  unfold events
  congr 1
  funext event
  cases event with
  | access other line kind => by_cases h : other = field <;> simp [BodyEvent.accessTo?, h]
  | _ => rfl

end Body

end JavaGraph
