import JavaGraph.Proofs.Scan.Accesses
/-!
# The block structure of code

Where a local variable is in scope, as the constructs of the language have it. A variable of a block
is in scope from its declarator to the end of the block, one of a group of a switch to the end of the
switch, one of a loop header in the loop, and a parameter of a handler or a lambda in that. The
variable of a loop over elements is in scope in the statement of the loop only, and the resources of
a `try` in what stands in front of its handlers.

The walk over code has one list of names and closes it behind some constructs. It finds the same
names in scope, but for three constructs that have parts of their own: `KeepsScopes` says what must
not stand there, and that no type test binds the name.
-/

namespace JavaGraph

open BodyEvent (isUse)

namespace Tree

/-- The local variables that a construct introduces itself. What a type test binds is none of
them. -/
def ownNames (node : Tree) : List String :=
  match node.kind with
  | .variableDeclarator | .forEachStmt | .catchClause | .parameter =>
    (node.childToken? .ident).toList.map (·.text)
  | .lambdaParams => (node.childTokens.filter (·.kind == .ident)).map (·.text)
  | _ => []

/-- Whether the variables within a construct are out of scope behind it. -/
def endsScope : NodeKind → Bool
  | .block | .forStmt | .forEachStmt | .catchClause | .lambdaExpr | .tryStmt | .switchStmt
  | .switchCase => true
  | _ => false

/-- Whether a part of a switch is a group of statements behind a colon. -/
def isColonGroup (tree : Tree) : Bool := tree.kind == .switchCase && tree.hasChildToken .colon

/-- Whether a part of a `try` is a handler or the final block. -/
def isHandler (tree : Tree) : Bool := tree.kind == .catchClause || tree.kind == .finallyClause

mutual

/-- Whether a piece of code leaves a variable of the name in scope behind it. -/
def leaves (name : String) : Tree → Bool
  | .error _ _ => false
  | .node kind anchor extent comments children =>
    if kind.isTypeDeclaration || kind = .classBody || endsScope kind then false
    else (Tree.node kind anchor extent comments children).ownNames.contains name ||
      leavesAny name children

/-- Whether one of some pieces of code leaves a variable of the name in scope. -/
def leavesAny (name : String) : List Tree → Bool
  | [] => false
  | part :: rest => part.leaves name || leavesAny name rest

end

/-- Whether a part of a construct leaves a variable of the name in scope for the parts behind it. A
group of a switch does that for the groups behind it. -/
def passesOn (name : String) (construct : NodeKind) (part : Tree) : Bool :=
  part.leaves name ||
    (construct == .switchStmt && part.isColonGroup && leavesAny name part.children)

/-- Whether a variable is in scope at a part of a construct: one that the construct introduces itself
(`own`), or one that the parts in front of this one passed on (`left`). -/
def reaches (construct : NodeKind) (own left last : Bool) (part : Tree) : Bool :=
  match construct with
  | .forEachStmt => own && last || left
  | .tryStmt => left && !part.isHandler
  | _ => own || left

mutual

/-- The nodes of code, each with whether a local variable of the name is in scope there. -/
def scopedNodes (name : String) (bound : Bool) : Tree → List (Tree × Bool)
  | .error _ _ => []
  | .node kind anchor extent comments children =>
    let node := Tree.node kind anchor extent comments children
    if kind.isTypeDeclaration || kind = .classBody then []
    else (node, bound) :: scopedParts name kind bound (node.ownNames.contains name) false children

/-- The nodes of the parts of a construct. -/
def scopedParts (name : String) (construct : NodeKind) (bound own left : Bool) :
    List Tree → List (Tree × Bool)
  | [] => []
  | part :: rest =>
    part.scopedNodes name (bound || reaches construct own left rest.isEmpty part) ++
      scopedParts name construct bound own (left || part.passesOn name construct) rest

end

/-- Whether a name stands alone somewhere in code. -/
def mentions (name : String) (tree : Tree) : Bool := tree.codeNodes.any (·.isName name)

/-- What must not stand in a construct, if the walk is to find the scopes of a local variable. -/
structure KeepsScopes (name : String) (node : Tree) : Prop where
  /-- The variable of a loop in what the loop runs over. -/
  forEach : node.kind = .forEachStmt → name ∈ node.ownNames →
    ∀ part ∈ node.children.dropLast, part.mentions name = false
  /-- A resource in a handler. -/
  handlers : node.kind = .tryStmt → node.children.Pairwise fun earlier later =>
    earlier.leaves name → later.isHandler → later.mentions name = false
  /-- A variable of a group of a switch in a group behind it. -/
  groups : node.kind = .switchStmt → node.children.Pairwise fun earlier later =>
    earlier.isColonGroup → leavesAny name earlier.children → later.mentions name = false
  /-- A type test that binds the name. -/
  typeTest : node.kind = .instanceOfExpr → ∀ token ∈ node.childToken? .ident, token.text ≠ name

instance (name : String) (node : Tree) : Decidable (node.KeepsScopes name) :=
  decidable_of_iff
    ((node.kind = .forEachStmt → name ∈ node.ownNames →
        ∀ part ∈ node.children.dropLast, part.mentions name = false) ∧
      (node.kind = .tryStmt → node.children.Pairwise fun earlier later =>
        earlier.leaves name → later.isHandler → later.mentions name = false) ∧
      (node.kind = .switchStmt → node.children.Pairwise fun earlier later =>
        earlier.isColonGroup → leavesAny name earlier.children → later.mentions name = false) ∧
      (node.kind = .instanceOfExpr → ∀ token ∈ node.childToken? .ident, token.text ≠ name))
    ⟨fun ⟨hf, hh, hg, ht⟩ => ⟨hf, hh, hg, ht⟩,
      fun h => ⟨h.forEach, h.handlers, h.groups, h.typeTest⟩⟩

/-! ### All nodes of code -/

mutual

theorem map_fst_scopedNodes (name : String) (bound : Bool) : (tree : Tree) →
    (tree.scopedNodes name bound).map Prod.fst = tree.codeNodes
  | .error _ _ => by rw [scopedNodes, codeNodes, List.map_nil]
  | .node kind anchor extent comments children => by
    rw [scopedNodes, codeNodes]
    split
    · rfl
    · rw [List.map_cons, map_fst_scopedParts name kind bound _ false children]

private theorem map_fst_scopedParts (name : String) (construct : NodeKind) (bound own left : Bool) :
    (parts : List Tree) →
    (scopedParts name construct bound own left parts).map Prod.fst = codeNodesOf parts
  | [] => by rw [scopedParts, codeNodesOf, List.map_nil]
  | part :: rest => by
    rw [scopedParts, codeNodesOf, List.map_append, map_fst_scopedNodes name _ part,
      map_fst_scopedParts name construct bound own _ rest]

end

/-- Whether a local variable hides what the name stands for, at each place where it is used. Behind
`this` none does. -/
def hiddenAt (name : String) (nodes : List (Tree × Bool)) : List Bool :=
  (nodes.filter fun place => isUse name place.1).map fun place => place.1.isName name && place.2

private theorem hiddenAt_append (name : String) (nodes others : List (Tree × Bool)) :
    hiddenAt name (nodes ++ others) = hiddenAt name nodes ++ hiddenAt name others := by
  simp [hiddenAt]

/-- In code where the name does not stand alone, no local variable hides it. -/
private theorem hiddenAt_of_not_mentions {name : String} {tree : Tree}
    (h : tree.mentions name = false) (bound : Bool) :
    hiddenAt name (tree.scopedNodes name bound) =
      (tree.codeNodes.filter (isUse name)).map fun _ => false := by
  have hnodes : ∀ node ∈ tree.codeNodes, node.isName name = false := by
    simpa [mentions] using h
  rw [← map_fst_scopedNodes name bound tree] at hnodes ⊢
  rw [List.filter_map, List.map_map]
  apply List.map_congr_left
  intro place hm
  have hplace := hnodes place.1 (List.mem_map_of_mem (List.mem_filter.1 hm).1)
  simp [hplace]

/-! ### The list of the walk -/

/-- At every part of a construct that mentions the name, a variable of it is in scope exactly if the
walk has it in its list. To begin with, the list has it if `listed`. -/
def Tracks (name : String) (construct : NodeKind) (own : Bool) :
    (left listed : Bool) → List Tree → Prop
  | _, _, [] => True
  | left, listed, part :: rest =>
    (part.mentions name = true → reaches construct own left rest.isEmpty part = listed) ∧
      Tracks name construct own (left || part.passesOn name construct)
        (listed || part.leaves name) rest

variable {name : String} {construct : NodeKind} {own left : Bool}

/-- Most constructs have no parts of their own. -/
private theorem tracks_plain (hf : construct ≠ .forEachStmt) (ht : construct ≠ .tryStmt)
    (hs : construct ≠ .switchStmt) (parts : List Tree) :
    Tracks name construct own left (own || left) parts := by
  induction parts generalizing left with
  | nil => exact trivial
  | cons part rest ih =>
    have hpass : part.passesOn name construct = part.leaves name := by simp [passesOn, hs]
    refine ⟨fun _ => ?_, ?_⟩
    · unfold reaches
      split <;> first | contradiction | rfl
    · rw [hpass, Bool.or_assoc]
      exact ih

/-- The variable of a loop over elements is mentioned in the last part only. -/
private theorem tracks_forEach {parts : List Tree}
    (h : own = true → ∀ part ∈ parts.dropLast, part.mentions name = false) :
    Tracks name .forEachStmt own left (own || left) parts := by
  induction parts generalizing left with
  | nil => exact trivial
  | cons part rest ih =>
    have hpass : part.passesOn name .forEachStmt = part.leaves name := by simp [passesOn]
    cases rest with
    | nil => simp [Tracks, reaches]
    | cons next rest =>
      rw [List.dropLast_cons_of_ne_nil (List.cons_ne_nil next rest)] at h
      simp only [List.forall_mem_cons] at h
      refine ⟨fun hm => ?_, ?_⟩
      · cases own with
        | false => rfl
        | true => simp [(h rfl).1] at hm
      · rw [hpass, Bool.or_assoc]
        exact ih fun ho => (h ho).2

/-- What a part in front of a handler leaves is not mentioned there. -/
private theorem tracks_try {parts : List Tree}
    (hl : left = true → ∀ part ∈ parts, part.isHandler → part.mentions name = false)
    (h : parts.Pairwise fun earlier later =>
      earlier.leaves name → later.isHandler → later.mentions name = false) :
    Tracks name .tryStmt false left left parts := by
  induction parts generalizing left with
  | nil => exact trivial
  | cons part rest ih =>
    have hpass : part.passesOn name .tryStmt = part.leaves name := by simp [passesOn]
    rw [List.pairwise_cons] at h
    simp only [List.forall_mem_cons] at hl
    refine ⟨fun hm => ?_, ?_⟩
    · show (left && !part.isHandler) = left
      cases hleft : left with
      | false => rfl
      | true =>
        cases hh : part.isHandler with
        | false => rfl
        | true => simp [(hl hleft).1 hh] at hm
    · rw [hpass]
      apply ih _ h.2
      intro hor later hlater
      rcases Bool.or_eq_true_iff.1 hor with hleft | hleaves
      · exact (hl hleft).2 later hlater
      · exact h.1 later hlater hleaves

/-- What a group of a switch passes on is not mentioned behind it. -/
private theorem tracks_switch {listed : Bool} {parts : List Tree} (hle : listed = true → left = true)
    (hl : left = true → listed = true ∨ ∀ part ∈ parts, part.mentions name = false)
    (h : parts.Pairwise fun earlier later =>
      earlier.isColonGroup → leavesAny name earlier.children → later.mentions name = false) :
    Tracks name .switchStmt false left listed parts := by
  induction parts generalizing left listed with
  | nil => exact trivial
  | cons part rest ih =>
    rw [List.pairwise_cons] at h
    refine ⟨fun hm => ?_, ?_⟩
    · show (false || left) = listed
      rw [Bool.false_or, Bool.eq_iff_iff]
      refine ⟨fun hleft => (hl hleft).resolve_right fun hnone => ?_, hle⟩
      simp [hnone part (List.mem_cons_self ..)] at hm
    · apply ih _ _ h.2
      · intro hor
        rcases Bool.or_eq_true_iff.1 hor with hlisted | hleaves
        · simp [hle hlisted]
        · simp [passesOn, hleaves]
      · intro hor
        rcases Bool.or_eq_true_iff.1 hor with hleft | hpass
        · rcases hl hleft with hlisted | hnone
          · simp [hlisted]
          · exact .inr fun later hlater => hnone later (List.mem_cons_of_mem _ hlater)
        · by_cases hleaves : part.leaves name = true
          · simp [hleaves]
          · right
            have hgroup : part.isColonGroup = true ∧ leavesAny name part.children = true := by
              simpa [passesOn, hleaves] using hpass
            exact fun later hlater => h.1 later hlater hgroup.1 hgroup.2

/-- In a construct that keeps its scopes, the list of the walk is right at every part. -/
private theorem KeepsScopes.tracks {node : Tree} (h : node.KeepsScopes name) :
    Tracks name node.kind (node.ownNames.contains name) false (node.ownNames.contains name)
      node.children := by
  by_cases hf : node.kind = .forEachStmt
  · have hparts : node.ownNames.contains name = true →
        ∀ part ∈ node.children.dropLast, part.mentions name = false := by
      simpa using h.forEach hf
    have htracks : Tracks name .forEachStmt _ false (_ || false) node.children :=
      tracks_forEach hparts
    rw [hf]
    simpa using htracks
  by_cases ht : node.kind = .tryStmt
  · have hnone : node.ownNames.contains name = false := by simp [ownNames, ht]
    rw [hnone, ht]
    exact tracks_try nofun (h.handlers ht)
  by_cases hs : node.kind = .switchStmt
  · have hnone : node.ownNames.contains name = false := by simp [ownNames, hs]
    rw [hnone, hs]
    exact tracks_switch nofun nofun (h.groups hs)
  · have htracks : Tracks name node.kind (node.ownNames.contains name) false (_ || false)
        node.children := tracks_plain hf ht hs node.children
    simpa using htracks

/-- Where the walk has the right list, the name is hidden in a part as the list says. -/
private theorem hiddenAt_part {part : Tree} {reached listed : Bool}
    (h : part.mentions name = true → reached = listed) (bound : Bool) :
    hiddenAt name (part.scopedNodes name (bound || reached)) =
      hiddenAt name (part.scopedNodes name (bound || listed)) := by
  by_cases hm : part.mentions name = true
  · rw [h hm]
  · rw [hiddenAt_of_not_mentions (by simpa using hm), hiddenAt_of_not_mentions (by simpa using hm)]

end Tree

namespace BodyEvent

open JavaGraph.Tree (hiddenAt scopedParts leavesAny codeNodesOf)

variable {name : String}

private theorem opensScope_eq (kind : NodeKind) : opensScope kind = Tree.endsScope kind := by
  cases kind <;> rfl

/-- The walk takes the names that a construct introduces into its list, and those of type tests. -/
private theorem contains_declaredLocals {node : Tree} (h : node.KeepsScopes name) :
    (declaredLocals node).contains name = node.ownNames.contains name := by
  by_cases hk : node.kind = .instanceOfExpr
  · cases ht : node.childToken? .ident with
    | none => simp [declaredLocals, Tree.ownNames, Tree.declaredName?, hk, ht]
    | some token =>
      have hne : name ≠ token.text := (h.typeTest hk token ht).symm
      simp [declaredLocals, Tree.ownNames, Tree.declaredName?, hk, ht, hne]
  · have hsame : declaredLocals node = node.ownNames := by
      unfold declaredLocals Tree.ownNames
      generalize node.kind = kind at hk
      cases kind <;> first | rfl | contradiction
    rw [hsame]

/-- The uses of a name are hidden where a local variable of the name is in scope, and so is what
stands behind. -/
structure Scoped (name : String) (uses : List NameUse × Bool) (nodes : List (Tree × Bool))
    (behind : Bool) : Prop where
  hiddenAt_eq : (uses.1.map fun use => !use.ofThis && use.bound) = hiddenAt name nodes
  behind_eq : uses.2 = behind

variable {role : Role} {bound : Bool}

/-- A node is one use or none. -/
private theorem hiddenAt_useAt (node : Tree) (nodes : List (Tree × Bool)) :
    ((useAt name role bound node).map fun use => !use.ofThis && use.bound) ++ hiddenAt name nodes =
      hiddenAt name ((node, bound) :: nodes) := by
  unfold useAt
  by_cases hname : node.isName name = true
  · simp [hiddenAt, isUse, hname]
  · by_cases hthis : node.isNameOfThis name = true <;> simp [hiddenAt, isUse, hname, hthis]

private theorem Scoped.append {uses others : List NameUse} {nodes more : List (Tree × Bool)}
    {middle behind : Bool} (h : (uses.map fun use => !use.ofThis && use.bound) = hiddenAt name nodes)
    (h' : Scoped name (others, middle) more behind) :
    Scoped name (uses ++ others, middle) (nodes ++ more) behind := by
  constructor
  · rw [Tree.hiddenAt_append, ← h, ← h'.hiddenAt_eq, List.map_append]
  · exact h'.behind_eq

/-- A part of a construct and the parts behind it. -/
private theorem Scoped.cons {construct : NodeKind} {own left listed : Bool} {part : Tree}
    {rest : List Tree}
    (hpart : Scoped name (usesOf name role (bound || listed) part)
      (part.scopedNodes name (bound || listed)) (bound || listed || part.leaves name))
    (hrest : Scoped name (usesFrom name .read (bound || (listed || part.leaves name)) rest)
      (scopedParts name construct bound own (left || part.passesOn name construct) rest)
      (bound || (listed || part.leaves name) || leavesAny name rest))
    (htracks : part.mentions name = true →
      Tree.reaches construct own left rest.isEmpty part = listed) :
    Scoped name (usesFrom name role (bound || listed) (part :: rest))
      (scopedParts name construct bound own left (part :: rest))
      (bound || listed || leavesAny name (part :: rest)) := by
  rw [usesFrom, scopedParts, leavesAny, hpart.behind_eq]
  apply Scoped.append
  · rw [hpart.hiddenAt_eq, Tree.hiddenAt_part htracks]
  · simpa [Bool.or_assoc] using hrest

mutual

/-- The walk over code whose constructs keep their scopes has the right names in its list. -/
theorem scoped_usesOf : ∀ (tree : Tree), tree.Shaped →
    (∀ node ∈ tree.codeNodes, node.KeepsScopes name) → ∀ role bound,
    Scoped name (usesOf name role bound tree) (tree.scopedNodes name bound)
      (bound || tree.leaves name)
  | .error region comments => by
    intro _ _ role bound
    rw [usesOf, Tree.scopedNodes, Tree.leaves]
    exact ⟨rfl, (Bool.or_false bound).symm⟩
  | .node kind anchor extent comments children => by
    intro hs h role bound
    rw [Tree.codeNodes] at h
    rw [usesOf, Tree.scopedNodes, Tree.leaves]
    by_cases htype : (kind.isTypeDeclaration || decide (kind = .classBody)) = true
    · simp only [htype, if_true, Bool.true_or]
      exact ⟨rfl, (Bool.or_false bound).symm⟩
    · rw [if_neg htype, List.forall_mem_cons] at h
      have hown := contains_declaredLocals h.1
      have htracks := h.1.tracks
      have hfrom := scoped_usesFrom children (Tree.shaped_node.1 hs).2 h.2 htracks
      have hthrough := scoped_usesThrough children (Tree.shaped_node.1 hs).2 h.2 htracks
      rw [if_neg htype, if_neg htype, hown]
      dsimp only
      generalize hbelow : (if kind = .assignExpr then _ else _ : List NameUse × Bool) = below
      have hscoped : Scoped name below
          (scopedParts name kind bound
            ((Tree.node kind anchor extent comments children).ownNames.contains name) false children)
          (bound || (Tree.node kind anchor extent comments children).ownNames.contains name ||
            leavesAny name children) := by
        rw [← hbelow]
        split
        · exact hfrom _ bound
        split
        · exact hthrough role bound
        split
        · exact hthrough .updated bound
        · exact hfrom .read bound
      constructor
      · rw [List.map_append, hscoped.hiddenAt_eq]
        exact hiddenAt_useAt _ _
      · rw [hscoped.behind_eq, opensScope_eq]
        cases Tree.endsScope kind <;> simp [htype, Bool.or_assoc]

/-- The same for the parts of a construct. -/
private theorem scoped_usesFrom : ∀ (parts : List Tree), (∀ part ∈ parts, part.Shaped) →
    (∀ node ∈ codeNodesOf parts, node.KeepsScopes name) →
    ∀ {construct own left listed}, Tree.Tracks name construct own left listed parts → ∀ role bound,
    Scoped name (usesFrom name role (bound || listed) parts)
      (scopedParts name construct bound own left parts) (bound || listed || leavesAny name parts)
  | [] => by
    intro _ _ construct own left listed _ role bound
    rw [usesFrom, scopedParts, leavesAny]
    exact ⟨rfl, (Bool.or_false _).symm⟩
  | part :: rest => by
    intro hs h construct own left listed htracks role bound
    rw [List.forall_mem_cons] at hs
    rw [codeNodesOf, List.forall_mem_append] at h
    exact .cons (scoped_usesOf part hs.1 h.1 role (bound || listed))
      (scoped_usesFrom rest hs.2 h.2 htracks.2 .read bound) htracks.1

/-- The same for the parts of a construct with an operand. -/
private theorem scoped_usesThrough : ∀ (parts : List Tree), (∀ part ∈ parts, part.Shaped) →
    (∀ node ∈ codeNodesOf parts, node.KeepsScopes name) →
    ∀ {construct own left listed}, Tree.Tracks name construct own left listed parts → ∀ role bound,
    Scoped name (usesThrough name role (bound || listed) parts)
      (scopedParts name construct bound own left parts) (bound || listed || leavesAny name parts)
  | [] => by
    intro _ _ construct own left listed _ role bound
    rw [usesThrough, scopedParts, leavesAny]
    exact ⟨rfl, (Bool.or_false _).symm⟩
  | part :: rest => by
    intro hs h construct own left listed htracks role bound
    rw [List.forall_mem_cons] at hs
    rw [codeNodesOf, List.forall_mem_append] at h
    have hpart := scoped_usesOf part hs.1 h.1 role
    cases hc : part.isComposite with
    | true =>
      have hfirst : usesThrough name role (bound || listed) (part :: rest) =
          usesFrom name role (bound || listed) (part :: rest) := by
        rw [usesThrough, if_pos hc, usesFrom]
      rw [hfirst]
      exact .cons (hpart (bound || listed)) (scoped_usesFrom rest hs.2 h.2 htracks.2 .read bound)
        htracks.1
    | false =>
      -- A token or an error node in front of the operand is no use and leaves nothing.
      have hunused : Unused name part := unused_of_not_composite hs.1 hc
      have hleaves : part.leaves name = false := by
        have hbehind := (hpart false).behind_eq
        rw [hunused role false] at hbehind
        simpa using hbehind.symm
      have hnone : hiddenAt name (part.scopedNodes name (bound || listed)) = [] := by
        rw [← (hpart (bound || listed)).hiddenAt_eq, hunused role]
        rfl
      have hrest := scoped_usesThrough rest hs.2 h.2 htracks.2 role bound
      rw [hleaves, Bool.or_false] at hrest
      rw [usesThrough, if_neg (by simp [hc]), scopedParts, leavesAny, hleaves, Bool.false_or]
      constructor
      · rw [Tree.hiddenAt_append, Tree.hiddenAt_part htracks.1, hnone, List.nil_append,
          hrest.hiddenAt_eq]
      · exact hrest.behind_eq

end

/-- The accesses of a field that code makes by the scopes of its local variables: where the name of
the field is used, those of the use, unless the name stands alone and a local variable of the name is
in scope. -/
def lexicalAccesses (name : String) (bound : Bool) (code : Tree) : List (Nat × AccessKind) :=
  (((code.scopedNodes name bound).filter fun place => isUse name place.1).zip
    (usesOf name .read bound code).1).flatMap fun ((node, inScope), use) =>
      if node.isName name && inScope then []
      else use.role.accesses.map fun kind => (node.nameLine, kind)

/-- If the field is what the name denotes unless it is hidden, the uses access it where the name is
not. -/
private theorem accessed_zip {field : FieldId} {places : List (Tree × Bool)} {uses : List NameUse}
    (h : (uses.map fun use => !use.ofThis && use.bound) =
      places.map fun place => place.1.isName name && place.2) :
    NameUse.accessed (some field) (some field) field ((places.map Prod.fst).zip uses) =
      (places.zip uses).flatMap fun ((node, inScope), use) =>
        if node.isName name && inScope then []
        else use.role.accesses.map fun kind => (node.nameLine, kind) := by
  induction uses generalizing places with
  | nil => simp [NameUse.accessed]
  | cons use rest ih =>
    cases places with
    | nil => cases h
    | cons place places =>
      rw [List.map_cons, List.map_cons, List.cons.injEq] at h
      have hrest := ih h.2
      unfold NameUse.accessed at hrest ⊢
      rw [List.map_cons, List.zip_cons_cons, List.zip_cons_cons, List.flatMap_cons,
        List.flatMap_cons, hrest]
      congr 1
      simp only [← h.1]
      cases hthis : use.ofThis <;> cases hbound : use.bound <;> simp [NameUse.field?, hthis, hbound]

/-- In code whose constructs keep their scopes, the uses of the name of a field access it as the
scopes of the local variables have it. -/
theorem accessed_scoped {field : FieldId} {code : Tree} (hs : code.Shaped)
    (h : ∀ node ∈ code.codeNodes, node.KeepsScopes name) (bound : Bool) :
    NameUse.accessed (some field) (some field) field
        ((code.codeNodes.filter (isUse name)).zip (usesOf name .read bound code).1) =
      lexicalAccesses name bound code := by
  rw [← Tree.map_fst_scopedNodes name bound code, List.filter_map]
  exact accessed_zip (scoped_usesOf code hs h .read bound).hiddenAt_eq

end BodyEvent

end JavaGraph
