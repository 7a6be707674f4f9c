import Mathlib.Data.List.Perm.Basic
import JavaGraph.Proofs.Tree.Shape
import JavaGraph.Scan.Site
/-!
# Where sites are

Which nodes of a tree declare types, and which of these is the one around a place, can be read off
the tree without a walk. `Site.ofTree` finds just these sites, each once, with those within it, if
the tree has the right shape.
-/

/-!
## Places in a tree

A place tells a node by its position among its siblings and the positions of the nodes around it. So
two nodes that look the same are told apart. The places of all nodes that pass a test can be listed.
-/

namespace JavaGraph

/-- A place in a tree: the position of a node among its siblings, and those of the nodes around it,
innermost first. -/
abbrev Place := List Nat

namespace Tree

/-- The node at a place. -/
def at? (root : Tree) : Place → Option Tree
  | [] => some root
  | i :: place => (root.at? place).bind (·.children[i]?)

variable {root tree child : Tree} {place other : Place} {i : Nat}

/-- A child of a node is found below it. -/
theorem at?_cons (h : root.at? place = some tree) : root.at? (i :: place) = tree.children[i]? := by
  rw [at?, h, Option.bind_some]

/-- Around a node there are nodes. -/
theorem at?_of_append (h : root.at? (other ++ place) = some tree) :
    ∃ node, root.at? place = some node := by
  induction other generalizing tree with
  | nil => exact ⟨tree, h⟩
  | cons i rest ih =>
    rw [List.cons_append, at?] at h
    obtain ⟨node, hn, -⟩ := Option.bind_eq_some_iff.1 h
    exact ih hn

/-! ### The places of some nodes -/

mutual

/-- The places of the nodes at and below a node that pass a test. -/
def placesOf (test : Tree → Bool) (place : Place) : Tree → List Place
  | .error region comments => if test (.error region comments) then [place] else []
  | .node kind anchor extent comments children =>
    (if test (.node kind anchor extent comments children) then [place] else []) ++
      placesFrom test place 0 children

/-- The places of such nodes at and below the children of a node from a position on. -/
def placesFrom (test : Tree → Bool) (place : Place) (i : Nat) : List Tree → List Place
  | [] => []
  | child :: rest => placesOf test (i :: place) child ++ placesFrom test place (i + 1) rest

end

/-- The places at and below a node are its own and those below its children. -/
theorem placesOf_eq (test : Tree → Bool) (place : Place) (tree : Tree) :
    placesOf test place tree =
      (if test tree then [place] else []) ++ placesFrom test place 0 tree.children := by
  cases tree with
  | node kind anchor extent comments children => rw [placesOf, Tree.children]
  | error region comments =>
    rw [placesOf, Tree.children, placesFrom, List.append_nil]

/-- Some nodes are the children of the node at a place from a position on. -/
def ChildrenAt (root : Tree) (place : Place) (i : Nat) (nodes : List Tree) : Prop :=
  ∀ k, root.at? ((i + k) :: place) = nodes[k]?

/-- All children of a node are at its place. -/
theorem childrenAt (h : root.at? place = some tree) : root.ChildrenAt place 0 tree.children := by
  intro k
  rw [Nat.zero_add, at?_cons h]

variable {nodes rest : List Tree} {test : Tree → Bool}

/-- The first child. -/
theorem ChildrenAt.head (h : root.ChildrenAt place i (child :: rest)) :
    root.at? (i :: place) = some child := h 0

/-- The other children. -/
theorem ChildrenAt.tail (h : root.ChildrenAt place i (child :: rest)) :
    root.ChildrenAt place (i + 1) rest := by
  intro k
  have := h (k + 1)
  rwa [← Nat.add_assoc, Nat.add_right_comm] at this

/-- What is not below a place is the place, or it is below a place that is. -/
private theorem suffix_cases (h : place <:+ other) : other = place ∨ ∃ i, i :: place <:+ other := by
  obtain ⟨upper, rfl⟩ := h
  rcases List.eq_nil_or_concat upper with rfl | ⟨upper, i, rfl⟩
  · exact .inl rfl
  · right
    refine ⟨i, upper, ?_⟩
    rw [List.concat_eq_append, List.append_assoc]
    rfl

mutual

/-- Exactly the nodes at and below a node that pass the test are listed. -/
theorem mem_placesOf : ∀ (tree : Tree) {place other : Place}, root.at? place = some tree →
    (other ∈ placesOf test place tree ↔
      place <:+ other ∧ ∃ node, root.at? other = some node ∧ test node = true)
  | .error region comments, place, other => by
    intro h
    rw [placesOf]
    constructor
    · intro hm
      split at hm
      · next ht =>
        obtain rfl := List.mem_singleton.1 hm
        exact ⟨List.suffix_rfl, _, h, ht⟩
      · cases hm
    · rintro ⟨hsuffix, node, hn, ht⟩
      rcases suffix_cases hsuffix with rfl | ⟨i, upper, rfl⟩
      · cases h.symm.trans hn
        rw [if_pos ht]
        exact List.mem_singleton_self _
      · obtain ⟨child, hc⟩ := at?_of_append hn
        rw [at?_cons h] at hc
        cases hc
  | .node kind anchor extent comments children, place, other => by
    intro h
    rw [placesOf, List.mem_append, mem_placesFrom children (childrenAt h)]
    constructor
    · rintro (hm | ⟨k, hsuffix, hrest⟩)
      · split at hm
        · next ht =>
          obtain rfl := List.mem_singleton.1 hm
          exact ⟨List.suffix_rfl, _, h, ht⟩
        · cases hm
      · exact ⟨(List.suffix_cons ..).trans hsuffix, hrest⟩
    · rintro ⟨hsuffix, node, hn, ht⟩
      rcases suffix_cases hsuffix with rfl | ⟨i, hi⟩
      · cases h.symm.trans hn
        left
        rw [if_pos ht]
        exact List.mem_singleton_self _
      · right
        exact ⟨i, by rwa [Nat.zero_add], node, hn, ht⟩

/-- Exactly such nodes at and below the children of a node are listed. -/
private theorem mem_placesFrom : ∀ (nodes : List Tree) {place other : Place} {i : Nat},
    root.ChildrenAt place i nodes →
    (other ∈ placesFrom test place i nodes ↔ ∃ k,
      (i + k) :: place <:+ other ∧ ∃ node, root.at? other = some node ∧ test node = true)
  | [], place, other, i => by
    intro h
    rw [placesFrom]
    refine ⟨nofun, ?_⟩
    rintro ⟨k, ⟨upper, rfl⟩, node, hn, -⟩
    obtain ⟨child, hc⟩ := at?_of_append hn
    rw [h k] at hc
    cases hc
  | first :: rest, place, other, i => by
    intro h
    rw [placesFrom, List.mem_append, mem_placesOf first h.head, mem_placesFrom rest h.tail]
    constructor
    · rintro (⟨hsuffix, hn⟩ | ⟨k, hsuffix, hn⟩)
      · exact ⟨0, hsuffix, hn⟩
      · exact ⟨k + 1, by rwa [← Nat.add_assoc, Nat.add_right_comm], hn⟩
    · rintro ⟨k, hsuffix, hn⟩
      cases k with
      | zero => exact .inl ⟨hsuffix, hn⟩
      | succ k =>
        rw [← Nat.add_assoc, Nat.add_right_comm] at hsuffix
        exact .inr ⟨k, hsuffix, hn⟩

end

mutual

/-- No place is listed twice. -/
theorem nodup_placesOf : ∀ (tree : Tree) {place : Place}, root.at? place = some tree →
    (placesOf test place tree).Nodup
  | .error region comments, place => by
    intro _
    rw [placesOf]
    split
    · exact List.pairwise_singleton ..
    · exact List.nodup_nil
  | .node kind anchor extent comments children, place => by
    intro h
    rw [placesOf, List.nodup_append]
    refine ⟨?_, nodup_placesFrom children (childrenAt h), fun a ha b hb he => ?_⟩
    · split
      · exact List.pairwise_singleton ..
      · exact List.nodup_nil
    · subst he
      obtain ⟨k, hsuffix, -⟩ := (mem_placesFrom children (childrenAt h)).1 hb
      split at ha
      · obtain rfl := List.mem_singleton.1 ha
        have := hsuffix.length_le
        rw [List.length_cons] at this
        omega
      · cases ha

/-- No place below some children is listed twice. -/
private theorem nodup_placesFrom : ∀ (nodes : List Tree) {place : Place} {i : Nat},
    root.ChildrenAt place i nodes → (placesFrom test place i nodes).Nodup
  | [], place, i => by
    intro _
    rw [placesFrom]
    exact List.nodup_nil
  | first :: rest, place, i => by
    intro h
    rw [placesFrom, List.nodup_append]
    refine ⟨nodup_placesOf first h.head, nodup_placesFrom rest h.tail, fun a ha b hb he => ?_⟩
    subst he
    obtain ⟨hsuffix, -⟩ := (mem_placesOf first h.head).1 ha
    obtain ⟨k, hsuffix', -⟩ := (mem_placesFrom rest h.tail).1 hb
    have hboth := List.suffix_of_suffix_length_le hsuffix hsuffix' (Nat.le_refl _)
    have := (List.cons.inj (hboth.eq_of_length rfl)).1
    omega

end

/-- Some nodes are at some places: those at and below a root that pass a test. -/
theorem mem_placesOf_root {root : Tree} {place : Place} :
    place ∈ placesOf test [] root ↔ ∃ node, root.at? place = some node ∧ test node = true := by
  have hroot : root.at? [] = some root := rfl
  rw [mem_placesOf root hroot]
  exact and_iff_right (List.nil_suffix ..)

end Tree

/-! ### What is at some places -/

namespace Place

variable {α : Type} {entries : List (α × Place)} {place : Place} {a : α}

/-- What is listed for a place. -/
def lookup (entries : List (α × Place)) (place : Place) : Option α :=
  (entries.find? (·.2 == place)).map (·.1)

/-- If no place is listed twice, what is found for a place is what is listed for it. -/
theorem lookup_eq_some_iff (hn : (entries.map (·.2)).Nodup) :
    lookup entries place = some a ↔ (a, place) ∈ entries := by
  unfold lookup
  constructor
  · intro h
    obtain ⟨⟨b, other⟩, hf, rfl⟩ := Option.map_eq_some_iff.1 h
    have hplace := List.find?_some (p := fun entry : α × Place => entry.2 == place) hf
    obtain rfl := beq_iff_eq.1 hplace
    exact List.mem_of_find?_eq_some hf
  · intro hm
    induction entries with
    | nil => cases hm
    | cons entry rest ih =>
      rw [List.map_cons, List.nodup_cons] at hn
      rcases List.mem_cons.1 hm with rfl | hm
      · rw [List.find?_cons_of_pos (by simp), Option.map_some]
      · have hne : entry.2 ≠ place := fun h => hn.1 (List.mem_map.2 ⟨_, hm, h.symm⟩)
        rw [List.find?_cons_of_neg (by simpa using hne), ih hn.2 hm]

/-- Nothing is found for a place that is not listed. -/
theorem lookup_eq_none_iff : lookup entries place = none ↔ place ∉ entries.map (·.2) := by
  unfold lookup
  rw [Option.map_eq_none_iff, List.find?_eq_none, List.mem_map]
  simp only [beq_iff_eq, not_exists, not_and]

end Place

end JavaGraph

/-! ## Sites -/

namespace JavaGraph

namespace Tree

/-- Whether a node declares a type: a type declaration, or a `new` expression or an enum constant
with a class body. -/
def isSite (tree : Tree) : Bool :=
  tree.kind.isTypeDeclaration ||
    ((tree.kind == .newObject || tree.kind == .enumConstant) &&
      tree.children.any (·.kind == .classBody))

/-- The site whose body is the innermost one around a place. -/
def owner? (root : Tree) : Place → Option Place
  | [] => none
  | i :: place =>
    if (root.at? place).any isSite && (root.at? (i :: place)).any (·.kind.isBody) then some place
    else root.owner? place

/-- Whether what is declared at a place is local: neither at the top level of the file nor in the
body of a type. -/
def isLocal (root : Tree) : Place → Bool
  | [] => false
  | _ :: place => (root.at? place).any fun node =>
      node.kind != .compilationUnit && !node.kind.isBody

variable {root tree child : Tree} {place : Place} {i : Nat}

/-- Only a body begins a new inside. -/
theorem owner?_of_not_body (h : root.at? (i :: place) = some child)
    (hk : child.kind.isBody = false) : root.owner? (i :: place) = root.owner? place := by
  rw [owner?, h, Option.any_some, hk, Bool.and_false, if_neg Bool.false_ne_true]

/-- Below what is no site there is the same site around. -/
theorem owner?_of_not_site (h : root.at? place = some tree) (hs : tree.isSite = false) :
    root.owner? (i :: place) = root.owner? place := by
  rw [owner?, h, Option.any_some, hs, Bool.false_and, if_neg Bool.false_ne_true]

/-- Inside the body of a site. -/
theorem owner?_of_body (h : root.at? place = some tree) (hs : tree.isSite = true)
    (hc : root.at? (i :: place) = some child) (hk : child.kind.isBody = true) :
    root.owner? (i :: place) = some place := by
  rw [owner?, h, hc, Option.any_some, Option.any_some, hs, hk, Bool.and_self, if_pos rfl]

/-- The site around a place is farther out. -/
theorem length_of_owner? {outer : Place} : ∀ {place : Place}, root.owner? place = some outer →
    outer.length < place.length
  | [] => by
    intro h
    cases h
  | i :: place => by
    intro h
    rw [owner?] at h
    rw [List.length_cons]
    split at h
    · cases h
      exact Nat.lt_succ_self _
    · exact Nat.lt_succ_of_lt (length_of_owner? h)

/-! ### What stands below what -/

/-- Whether a rule allows nodes of certain kinds only. -/
private def confines (kinds : NodeKind → Bool) : Rule → Bool
  | .only allowed => NodeKind.all.all fun kind => !allowed kind || kinds kind
  | _ => false

/-- Every kind is listed. -/
private theorem mem_kinds (kind : NodeKind) : kind ∈ NodeKind.all := by
  cases kind <;> decide

/-- If the rules allow certain kinds only, all composite children are of these kinds. -/
private theorem Shaped.confined {tree child : Tree} {kinds : NodeKind → Bool} (hs : tree.Shaped)
    (h : (Rule.ofKind tree.kind).any (confines kinds) = true) (hm : child ∈ tree.children)
    (hc : child.isComposite = true) : kinds child.kind = true := by
  obtain ⟨rule, hr, hrule⟩ := List.any_eq_true.1 h
  cases rule with
  | only allowed =>
    have := List.all_eq_true.1 hrule child.kind (mem_kinds _)
    rwa [hs.kind_of_only hr hm hc] at this
  | atMost count sort => cases hrule
  | one sort => cases hrule

/-- Of a leaf no child is composite. -/
private theorem Shaped.leaf_children {tree child : Tree} (hs : tree.Shaped)
    (ht : tree.isComposite = false) (hm : child ∈ tree.children) : child.isComposite = false := by
  rcases hs.error_or_leaf ht with he | ⟨-, hleaf⟩
  · cases tree with
    | error region comments => cases hm
    | node kind anchor extent comments children => cases he
  · unfold isComposite
    rw [hleaf child hm]
    rfl

/-- What is declared nowhere within. -/
def isPlain : NodeKind → Bool
  | .modifiers | .annotationUse | .annotationArgs | .qualifiedName | .typeParameters
  | .typeParameter | .typeRef | .typeArguments | .wildcard | .extendsClause | .implementsClause
  | .throwsClause | .packageDecl | .importDecl => true
  | _ => false

/-- What can stand at a place of a member or within one: anything but a file, a body, and an enum
constant. -/
def isInner : NodeKind → Bool
  | .error | .token | .compilationUnit | .classBody | .enumBody | .enumConstant => false
  | _ => true

/-- The body that a type declaration has. -/
private def bodyOf : NodeKind → NodeKind
  | .enumDecl => .enumBody
  | _ => .classBody

/-- Below plain nodes there are only plain ones, and within what is no site there are no bodies. -/
private theorem kinds_confined : NodeKind.all.all (fun kind =>
    (!isPlain kind || (Rule.ofKind kind).any (confines isPlain)) &&
    (!isInner kind || kind.isTypeDeclaration || kind == .newObject ||
      (Rule.ofKind kind).any (confines isInner)) &&
    (!kind.isTypeDeclaration || (Rule.ofKind kind).any (confines fun child =>
      isPlain child || child == bodyOf kind))) = true := by
  decide +kernel

/-! ### Nodes below which there are no sites -/

/-- The places of all sites at and below a node. -/
abbrev sitesOf (place : Place) (tree : Tree) : List Place := tree.placesOf isSite place

/-- A plain node is no site. -/
theorem isSite_of_plain {tree : Tree} (h : isPlain tree.kind = true) :
    tree.isSite = false := by
  unfold isSite
  revert h
  cases tree.kind <;> first | exact fun _ => rfl | exact nofun

/-- Of a plain node, and of one that is not composite, all composite children are plain. -/
private theorem plain_children {tree child : Tree} (hs : tree.Shaped)
    (hk : tree.isComposite = true → isPlain tree.kind = true) (hm : child ∈ tree.children)
    (hc : child.isComposite = true) : isPlain child.kind = true := by
  cases ht : tree.isComposite with
  | true =>
    have hall := List.all_eq_true.1 kinds_confined tree.kind (mem_kinds _)
    rw [hk ht] at hall
    simp only [Bool.and_eq_true, Bool.not_true, Bool.false_or] at hall
    exact hs.confined hall.1.1 hm hc
  | false =>
    rw [hs.leaf_children ht hm] at hc
    cases hc

mutual

/-- There are no sites at and below a plain node, or one that is not composite. -/
theorem sitesOf_plain : ∀ (tree : Tree) (place : Place), tree.Shaped →
    (tree.isComposite = true → isPlain tree.kind = true) → sitesOf place tree = []
  | .error region comments, place => fun _ _ => by
    rw [sitesOf, placesOf]
    rfl
  | .node kind anchor extent comments children, place => fun hs hk => by
    have hsite : (node kind anchor extent comments children).isSite = false := by
      cases hc : (node kind anchor extent comments children).isComposite with
      | true => exact isSite_of_plain (hk hc)
      | false =>
        obtain rfl : kind = .token := by simpa [isComposite, isError, Tree.kind] using hc
        rfl
    rw [sitesOf, placesOf, hsite, sitesFrom_plain children place 0
      (fun child hm => hs.of_mem hm) fun child hm hc => plain_children hs hk hm hc]
    rfl

/-- There are no sites below such children. -/
theorem sitesFrom_plain : ∀ (nodes : List Tree) (place : Place) (i : Nat),
    (∀ child ∈ nodes, child.Shaped) →
    (∀ child ∈ nodes, child.isComposite = true → isPlain child.kind = true) →
    placesFrom isSite place i nodes = []
  | [], place, i => fun _ _ => by rw [placesFrom]
  | first :: rest, place, i => fun hs hk => by
    rw [List.forall_mem_cons] at hs hk
    rw [placesFrom, sitesFrom_plain rest place (i + 1) hs.2 hk.2, List.append_nil]
    exact sitesOf_plain first _ hs.1 hk.1

end

/-! ### Sites below some of the children -/

/-- The places of the sites at and below the children of some kinds. -/
def sitesWhere (keep : NodeKind → Bool) (place : Place) (i : Nat) : List Tree → List Place
  | [] => []
  | child :: rest => (if keep child.kind then sitesOf (i :: place) child else []) ++
      sitesWhere keep place (i + 1) rest

variable {nodes : List Tree} {keep other : NodeKind → Bool}

/-- Children of the other kinds do not matter if there are no sites below them. -/
theorem sitesWhere_eq (h : ∀ child ∈ nodes, keep child.kind = false →
    ∀ place, sitesOf place child = []) (place : Place) (i : Nat) :
    sitesWhere keep place i nodes = placesFrom isSite place i nodes := by
  induction nodes generalizing i with
  | nil => rw [sitesWhere, placesFrom]
  | cons child rest ih =>
    rw [List.forall_mem_cons] at h
    rw [sitesWhere, placesFrom, ih h.2]
    cases hk : keep child.kind with
    | true => rfl
    | false =>
      have hnone : placesOf isSite (i :: place) child = [] := h.1 hk _
      rw [hnone]
      rfl

/-- Children of some kinds, and those of other kinds. -/
theorem sitesWhere_perm (h : ∀ child ∈ nodes,
      (keep child.kind = true ∨ other child.kind = true) ∨ ∀ place, sitesOf place child = [])
    (hd : ∀ kind, keep kind = true → other kind = false) (place : Place) (i : Nat) :
    (sitesWhere keep place i nodes ++ sitesWhere other place i nodes).Perm
      (placesFrom isSite place i nodes) := by
  induction nodes generalizing i with
  | nil => exact .nil
  | cons child rest ih =>
    rw [List.forall_mem_cons] at h
    have hrest := ih h.2 (i + 1)
    rw [sitesWhere, sitesWhere, placesFrom]
    cases hk : keep child.kind with
    | true =>
      rw [hd _ hk]
      simp only [if_true, Bool.false_eq_true, if_false, List.nil_append, List.append_assoc]
      exact hrest.append_left _
    | false =>
      cases ho : other child.kind with
      | true =>
        simp only [if_true, Bool.false_eq_true, if_false, List.nil_append]
        refine (List.perm_append_comm_assoc ..).trans ?_
        exact hrest.append_left _
      | false =>
        rcases h.1 with hone | hnone
        · rw [hk, ho] at hone
          simp at hone
        · have hnone : placesOf isSite (i :: place) child = [] := hnone _
          rw [hnone]
          exact hrest

/-- If there are no children of some kinds, there are no sites below them. -/
theorem sitesWhere_nil (h : ∀ child ∈ nodes, keep child.kind = false) (place : Place)
    (i : Nat) : sitesWhere keep place i nodes = [] := by
  induction nodes generalizing i with
  | nil => rw [sitesWhere]
  | cons child rest ih =>
    rw [List.forall_mem_cons] at h
    rw [sitesWhere, h.1, ih h.2]
    rfl

/-! ### Children of some nodes -/

/-- Below what can stand within a member there is only such, if it is no site. -/
theorem Shaped.inner_child {tree child : Tree} (hs : tree.Shaped) (hm : child ∈ tree.children)
    (hk : tree.isComposite = true → isInner tree.kind = true)
    (hd : tree.kind.isTypeDeclaration = false) (hn : tree.kind ≠ .newObject)
    (hc : child.isComposite = true) : isInner child.kind = true := by
  cases ht : tree.isComposite with
  | true =>
    have hall := List.all_eq_true.1 kinds_confined tree.kind (mem_kinds _)
    rw [hk ht, hd, beq_false_of_ne hn] at hall
    simp only [Bool.and_eq_true, Bool.not_true, Bool.false_or] at hall
    exact hs.confined hall.1.2 hm hc
  | false =>
    rw [hs.leaf_children ht hm] at hc
    cases hc

/-- Below a body there are members and enum constants. -/
theorem Shaped.body_child {tree child : Tree} (hs : tree.Shaped)
    (ht : tree.kind.isBody = true) (hm : child ∈ tree.children) (hc : child.isComposite = true) :
    child.kind.isMember = true ∨ child.kind = .enumConstant := by
  have hr : (Rule.ofKind tree.kind).any
      (confines fun kind => kind.isMember || kind == .enumConstant) = true := by
    revert ht
    cases tree.kind <;> intro ht <;> first | decide +kernel | cases ht
  have hkind := hs.confined hr hm hc
  rwa [Bool.or_eq_true, beq_iff_eq] at hkind

/-- Members can stand at the place of a member. -/
theorem isInner_of_isMember {kind : NodeKind} (h : kind.isMember = true) : isInner kind = true := by
  revert h
  cases kind <;> first | exact fun _ => rfl | exact nofun

/-- Below a `new` expression there can be a class body, too. -/
theorem Shaped.newObject_child {tree child : Tree} (hs : tree.Shaped)
    (ht : tree.kind = .newObject) (hm : child ∈ tree.children) (hc : child.isComposite = true) :
    isInner child.kind = true ∨ child.kind = .classBody := by
  have hr : Rule.among [.typeArguments, .typeRef, .arguments, .classBody] ∈
      Rule.ofKind tree.kind := by
    rw [ht]
    exact List.mem_cons_self ..
  have hkind := hs.kind_mem hr hm hc
  simp only [List.mem_cons, List.not_mem_nil, or_false] at hkind
  rcases hkind with h | h | h | h
  · exact .inl (by rw [h]; rfl)
  · exact .inl (by rw [h]; rfl)
  · exact .inl (by rw [h]; rfl)
  · exact .inr h

/-- A `new` expression with a class body names a base. -/
theorem Shaped.newBase?_isSome {tree : Tree} (hs : tree.Shaped) (ht : tree.kind = .newObject)
    (hb : tree.children.any (·.kind == .classBody) = true) :
    (Site.newBase? tree.children).isSome = true := by
  obtain ⟨child, hm, hk, -⟩ := hs.exists_child .typeRef (by rw [ht]; simp [Rule.ofKind])
  unfold Site.newBase?
  rw [if_pos hb, Option.isSome_map, List.find?_isSome]
  exact ⟨child, hm, beq_iff_eq.2 hk⟩

/-- Below an enum constant there are annotations, arguments and a class body. -/
theorem Shaped.enumConstant_child {tree child : Tree} (hs : tree.Shaped)
    (ht : tree.kind = .enumConstant) (hm : child ∈ tree.children)
    (hc : child.isComposite = true) :
    isPlain child.kind = true ∨ child.kind = .arguments ∨ child.kind = .classBody := by
  have hr : Rule.among [.modifiers, .arguments, .classBody] ∈ Rule.ofKind tree.kind := by
    rw [ht]
    exact List.mem_cons_self ..
  have hkind := hs.kind_mem hr hm hc
  simp only [List.mem_cons, List.not_mem_nil, or_false] at hkind
  exact hkind.imp_left fun h => by rw [h]; rfl

/-- A type declaration declares a name. -/
theorem Shaped.declaredName?_isSome {tree : Tree} (hs : tree.Shaped)
    (ht : tree.kind.isTypeDeclaration = true) : tree.declaredName?.isSome = true := by
  refine hs.childToken?_ident ?_
  revert ht
  cases tree.kind <;> simp [NodeKind.isTypeDeclaration, Rule.ofKind]

/-- Below a type declaration there are its body and plain nodes. -/
private theorem Shaped.bodyOf_child {tree child : Tree} (hs : tree.Shaped)
    (ht : tree.kind.isTypeDeclaration = true) (hm : child ∈ tree.children)
    (hc : child.isComposite = true) :
    isPlain child.kind = true ∨ child.kind = bodyOf tree.kind := by
  have hall := List.all_eq_true.1 kinds_confined tree.kind (mem_kinds _)
  rw [ht] at hall
  simp only [Bool.and_eq_true, Bool.not_true, Bool.false_or] at hall
  have hkind := hs.confined hall.2 hm hc
  rwa [Bool.or_eq_true, beq_iff_eq] at hkind

/-- A body is composite. -/
theorem isComposite_of_isBody {tree : Tree} (h : tree.kind.isBody = true) :
    tree.isComposite = true := by
  cases tree with
  | error region comments => cases h
  | node kind anchor extent comments children =>
    unfold isComposite
    cases kind <;> first | rfl | cases h

/-- No plain node is a body. -/
private theorem isPlain_eq_false {kind : NodeKind} (h : kind.isBody = true) :
    isPlain kind = false := by
  revert h
  cases kind <;> first | exact fun _ => rfl | exact nofun

/-- A body below a type declaration is of the right kind. -/
private theorem Shaped.kind_eq_bodyOf {tree child : Tree} (hs : tree.Shaped)
    (ht : tree.kind.isTypeDeclaration = true) (hm : child ∈ tree.children)
    (hk : child.kind.isBody = true) : child.kind = bodyOf tree.kind := by
  refine (hs.bodyOf_child ht hm (isComposite_of_isBody hk)).resolve_left ?_
  rw [isPlain_eq_false hk]
  exact Bool.false_ne_true

/-- The kind of the body that a type declaration has, if it has one, is the right one. -/
private theorem Shaped.bodyKind_eq {tree child : Tree} (hs : tree.Shaped)
    (ht : tree.kind.isTypeDeclaration = true) (hm : child ∈ tree.children)
    (hk : child.kind.isBody = true) : Tree.bodyKind tree.children = child.kind := by
  unfold Tree.bodyKind
  split
  · next hany =>
    obtain ⟨other, hother, ho⟩ := List.any_eq_true.1 hany
    rw [hs.kind_eq_bodyOf ht hm hk, ← hs.kind_eq_bodyOf ht hother (by rw [beq_iff_eq.1 ho]; rfl)]
    exact (beq_iff_eq.1 ho).symm
  · next hany =>
    have hclass : child.kind ≠ .classBody := fun h =>
      hany (List.any_eq_true.2 ⟨child, hm, beq_iff_eq.2 h⟩)
    revert hk hclass
    cases child.kind <;> simp [NodeKind.isBody]

/-- What is there as the body of a type declaration is of a body's kind. -/
theorem isBody_bodyKind (children : List Tree) : (Tree.bodyKind children).isBody = true := by
  unfold Tree.bodyKind
  split <;> rfl

/-- All composite children of a type declaration but its body are plain. -/
theorem Shaped.declaration_child {tree child : Tree} (hs : tree.Shaped)
    (ht : tree.kind.isTypeDeclaration = true) (hm : child ∈ tree.children)
    (hc : child.isComposite = true) :
    isPlain child.kind = true ∨ child.kind = Tree.bodyKind tree.children := by
  refine (hs.bodyOf_child ht hm hc).imp_right fun h => (hs.bodyKind_eq ht hm ?_).symm
  rw [h]
  cases tree.kind <;> rfl

/-- Below a file there are type declarations and plain nodes. -/
theorem Shaped.unit_child {tree child : Tree} (hs : tree.Shaped)
    (ht : tree.kind = .compilationUnit) (hm : child ∈ tree.children)
    (hc : child.isComposite = true) :
    child.kind.isTypeDeclaration = true ∨ isPlain child.kind = true := by
  have hr : (Rule.ofKind tree.kind).any
      (confines fun kind => kind.isTypeDeclaration || isPlain kind) = true := by
    rw [ht]
    decide +kernel
  rw [← Bool.or_eq_true]
  exact hs.confined hr hm hc

/-- A type declaration has no more than one body. -/
theorem Shaped.countP_bodyKind_le {tree : Tree} (hs : tree.Shaped)
    (ht : tree.kind.isTypeDeclaration = true) :
    tree.children.countP (·.kind == Tree.bodyKind tree.children) ≤ 1 := by
  have hr : Rule.single (bodyOf tree.kind) ∈ Rule.ofKind tree.kind := by
    revert ht
    cases tree.kind <;> simp [NodeKind.isTypeDeclaration, Rule.ofKind, bodyOf]
  have hone := hs.countP_kind_le hr (by cases tree.kind <;> decide) (by cases tree.kind <;> decide)
  refine Nat.le_trans (List.countP_mono_left fun child hm hk => ?_) hone
  refine beq_iff_eq.2 (hs.kind_eq_bodyOf ht hm ?_)
  rw [beq_iff_eq.1 hk]
  exact isBody_bodyKind _

end Tree

end JavaGraph
