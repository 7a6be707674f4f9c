import JavaGraph.Proofs.Scan.Accesses
import JavaGraph.Proofs.Scan.References
/-!
# Types within types and in code

A type reference mentions the names of all types that are written in it, and a walk over code comes
across every type that is written in the code. Nothing is written in annotations, in names, and in
what denotes a field.
-/

namespace JavaGraph

variable {node tree child : Tree}

namespace Tree

/-! ### Nodes of code -/

/-- The nodes of some pieces of code are those of each of them. -/
theorem mem_codeNodesOf {trees : List Tree} :
    node ∈ codeNodesOf trees ↔ ∃ tree ∈ trees, node ∈ tree.codeNodes := by
  induction trees with
  | nil => simp [codeNodesOf]
  | cons first rest ih => simp [codeNodesOf, ih]

/-- The nodes of a piece of code are itself and those of its parts. -/
theorem mem_codeNodes : node ∈ tree.codeNodes ↔ tree.isError = false ∧
    (tree.kind.isTypeDeclaration || tree.kind = .classBody) = false ∧
      (node = tree ∨ ∃ child ∈ tree.children, node ∈ child.codeNodes) := by
  cases tree with
  | error region comments =>
    rw [codeNodes]
    exact ⟨nofun, fun h => by cases h.1⟩
  | node kind anchor extent comments children =>
    rw [codeNodes]
    split
    · next h => exact ⟨nofun, fun hn => by cases h.symm.trans hn.2.1⟩
    · next h =>
      rw [List.mem_cons, mem_codeNodesOf]
      exact ⟨fun hn => ⟨rfl, Bool.eq_false_iff.2 h, hn⟩, fun hn => hn.2.2⟩

/-- A node that is code and no error is one of its own nodes. -/
theorem mem_codeNodes_self (he : tree.isError = false)
    (hk : (tree.kind.isTypeDeclaration || tree.kind = .classBody) = false) :
    tree ∈ tree.codeNodes := mem_codeNodes.2 ⟨he, hk, .inl rfl⟩

/-- No type is written in some code. -/
def Quiet (tree : Tree) : Prop := ∀ node ∈ tree.codeNodes, node.kind ≠ .typeRef

/-- Nodes that are not composite are quiet. -/
theorem quiet_of_not_composite (hs : tree.Shaped) (h : tree.isComposite = false) : tree.Quiet := by
  have herror : ∀ {tree : Tree}, tree.isError = true → tree.Quiet := by
    intro tree h node hn
    rw [(mem_codeNodes.1 hn).1] at h
    cases h
  rcases hs.error_or_leaf h with he | ⟨hk, hc⟩
  · exact herror he
  · intro node hn
    rcases (mem_codeNodes.1 hn).2.2 with rfl | ⟨child, hm, hn⟩
    · rw [hk]
      exact NodeKind.noConfusion
    · exact herror (hc child hm) node hn

/-- Where a type is written there is a composite node. -/
theorem isComposite_of_mem (hs : tree.Shaped) (hn : node ∈ tree.codeNodes)
    (hk : node.kind = .typeRef) : tree.isComposite = true := by
  cases h : tree.isComposite with
  | true => rfl
  | false => exact absurd hk (quiet_of_not_composite hs h node hn)

/-- A node is quiet if its composite children are. -/
theorem quiet_node (hs : tree.Shaped) (hk : tree.kind ≠ .typeRef)
    (h : ∀ child ∈ tree.children, child.isComposite = true → child.Quiet) : tree.Quiet := by
  intro node hn
  rcases (mem_codeNodes.1 hn).2.2 with rfl | ⟨child, hm, hn⟩
  · exact hk
  · cases hc : child.isComposite with
    | true => exact h child hm hc node hn
    | false => exact quiet_of_not_composite (hs.of_mem hm) hc node hn

/-- A node without composite children is quiet. -/
theorem quiet_of_among_nil (hs : tree.Shaped) (hk : tree.kind ≠ .typeRef)
    (hr : Rule.among [] ∈ Rule.ofKind tree.kind) : tree.Quiet :=
  quiet_node hs hk fun _ hm hc => absurd (hs.kind_mem hr hm hc) List.not_mem_nil

/-- No type is written in an annotation. -/
theorem quiet_annotationUse (hs : tree.Shaped) (hk : tree.kind = .annotationUse) : tree.Quiet := by
  have hr : Rule.among [.qualifiedName, .annotationArgs] ∈ Rule.ofKind tree.kind := by
    rw [hk]
    exact List.mem_cons_self ..
  refine quiet_node hs (by rw [hk]; exact NodeKind.noConfusion) fun child hm hc => ?_
  have hkind := hs.kind_mem hr hm hc
  simp only [List.mem_cons, List.not_mem_nil, or_false] at hkind
  rcases hkind with hkind | hkind <;>
    exact quiet_of_among_nil (hs.of_mem hm) (by rw [hkind]; exact NodeKind.noConfusion)
      (by rw [hkind]; exact List.mem_cons_self ..)

/-- No type is written in modifiers. -/
theorem quiet_modifiers (hs : tree.Shaped) (hk : tree.kind = .modifiers) : tree.Quiet := by
  have hr : Rule.among [.annotationUse] ∈ Rule.ofKind tree.kind := by
    rw [hk]
    exact List.mem_cons_self ..
  refine quiet_node hs (by rw [hk]; exact NodeKind.noConfusion) fun child hm hc => ?_
  exact quiet_annotationUse (hs.of_mem hm) (List.mem_singleton.1 (hs.kind_mem hr hm hc))

/-- A node is larger than those directly below it. -/
theorem sizeOf_lt_of_mem (h : child ∈ tree.children) : sizeOf child < sizeOf tree := by
  cases tree with
  | error region comments => cases h
  | node kind anchor extent comments children =>
    have := List.sizeOf_lt_of_mem (show child ∈ children from h)
    simp only [node.sizeOf_spec]
    omega

end Tree

open Tree

/-! ### Type references -/

namespace Mention

/-- The parts of a type reference are looked at one by one. -/
private theorem ofParts_eq_flatMap (parts : List Tree) : ofParts parts = parts.flatMap ofPart := by
  induction parts with
  | nil => rw [ofParts, List.flatMap_nil]
  | cons part rest ih => rw [ofParts, List.flatMap_cons, ih]

/-- Type arguments are looked at one by one. -/
private theorem ofArguments_eq_flatMap (arguments : List Tree) :
    ofArguments arguments = arguments.flatMap ofArgument := by
  induction arguments with
  | nil => rw [ofArguments, List.flatMap_nil]
  | cons argument rest ih => rw [ofArguments, List.flatMap_cons, ih]

/-- The bound of a wildcard is the first type reference. -/
private theorem ofBound_of_find? {nodes : List Tree} {bound : Tree}
    (h : nodes.find? (·.kind == .typeRef) = some bound) : ofBound nodes = ofTypeRef bound := by
  induction nodes with
  | nil => cases h
  | cons first rest ih =>
    rw [ofBound]
    rw [List.find?_cons] at h
    split
    · next hk =>
      rw [beq_iff_eq.2 hk] at h
      cases h
      rfl
    · next hk =>
      rw [beq_false_of_ne hk] at h
      exact ih h

/-- A type that is an argument is mentioned as such. -/
private theorem ofArgument_typeRef (hk : tree.kind = .typeRef) : ofArgument tree = ofTypeRef tree := by
  cases tree with
  | error region comments => cases hk
  | node kind anchor extent comments children =>
    obtain rfl : kind = .typeRef := hk
    rw [ofArgument, if_pos rfl, ofTypeRef]

/-- Of a wildcard its bound is mentioned. -/
private theorem ofArgument_wildcard (hk : tree.kind = .wildcard) :
    ofArgument tree = ofBound tree.children := by
  cases tree with
  | error region comments => cases hk
  | node kind anchor extent comments children =>
    obtain rfl : kind = .wildcard := hk
    rw [ofArgument, if_neg nofun, if_pos rfl]
    rfl

variable {mention : Mention}

/-- What a type argument mentions is mentioned by the type that has it. -/
private theorem mem_ofTypeRef {part argument : Tree} (hp : part ∈ tree.children)
    (hk : part.kind = .typeArguments) (ha : argument ∈ part.children)
    (hm : mention ∈ ofArgument argument) : mention ∈ ofTypeRef tree := by
  rw [ofTypeRef_eq, ofParts_eq_flatMap]
  refine List.mem_append_left _ (List.mem_flatMap.2 ⟨part, hp, ?_⟩)
  cases part with
  | error region comments => cases hk
  | node kind anchor extent comments arguments =>
    obtain rfl : kind = .typeArguments := hk
    rw [ofPart, if_neg nofun, if_pos rfl, ofArguments_eq_flatMap]
    exact List.mem_flatMap.2 ⟨argument, ha, hm⟩

/-- A type reference mentions the names of all types that are written in it. -/
theorem own_mem_ofTypeRef (tree : Tree) (hs : tree.Shaped) (hk : tree.kind = .typeRef)
    (hn : node ∈ tree.codeNodes) (ht : node.kind = .typeRef) (hm : mention ∈ own node) :
    mention ∈ ofTypeRef tree := by
  rcases (mem_codeNodes.1 hn).2.2 with rfl | ⟨part, hp, hpn⟩
  · rw [ofTypeRef_eq]
    exact List.mem_append_right _ hm
  · have hps := hs.of_mem hp
    have hkind := hs.kind_mem (by rw [hk]; exact List.mem_cons_self ..) hp
      (isComposite_of_mem hps hpn ht)
    simp only [List.mem_cons, List.not_mem_nil, or_false] at hkind
    rcases hkind with hkind | hkind
    · exact absurd ht (quiet_annotationUse hps hkind node hpn)
    · rcases (mem_codeNodes.1 hpn).2.2 with rfl | ⟨argument, ha, han⟩
      · cases hkind.symm.trans ht
      · have has := hps.of_mem ha
        have hak := hps.kind_mem (by rw [hkind]; exact List.mem_cons_self ..) ha
          (isComposite_of_mem has han ht)
        simp only [List.mem_cons, List.not_mem_nil, or_false] at hak
        have hsize := (sizeOf_lt_of_mem ha).trans (sizeOf_lt_of_mem hp)
        refine mem_ofTypeRef hp hkind ha ?_
        rcases hak with hak | hak
        · rw [ofArgument_typeRef hak]
          exact own_mem_ofTypeRef argument has hak han ht hm
        · rcases (mem_codeNodes.1 han).2.2 with rfl | ⟨bound, hb, hbn⟩
          · cases hak.symm.trans ht
          · have hbs := has.of_mem hb
            have hbk := List.mem_singleton.1 (has.kind_mem
              (by rw [hak]; exact List.mem_cons_self ..) hb (isComposite_of_mem hbs hbn ht))
            have hfirst : argument.childOfKind? .typeRef = some bound :=
              childOfKind?_of_single hb hbk (has.holds (by rw [hak]; simp [Rule.ofKind])) nofun nofun
            have hsize' := (sizeOf_lt_of_mem hb).trans hsize
            rw [ofArgument_wildcard hak, ofBound_of_find? hfirst]
            exact own_mem_ofTypeRef bound hbs hbk hbn ht hm
termination_by sizeOf tree

end Mention

/-! ### Code -/

namespace BodyEvent

variable {fields : VisibleFields} {locals : List String} {target : Target}
  {events others : List BodyEvent}

mutual

/-- No type is written in what denotes a field. -/
private theorem quiet_of_target : ∀ (tree : Tree), tree.Shaped →
    target? fields locals tree = some target → tree.Quiet
  | .error region comments => fun _ h => by
    rw [target?] at h
    cases h
  | .node kind anchor extent comments children => by
    intro hs h
    rw [target?] at h
    split at h
    · next hk =>
      subst hk
      exact quiet_node hs NodeKind.noConfusion fun child hm _ => quiet_of_firstTarget children
        (shaped_node.1 hs).2 (lone_operand hs (.inl rfl)) h child hm
    · unfold namedTarget? at h
      split at h
      · next hkind _ =>
        obtain rfl : kind = .nameRef := hkind
        exact quiet_of_among_nil hs NodeKind.noConfusion (List.mem_singleton_self _)
      · next hkind hident =>
        obtain rfl : kind = .fieldAccess := hkind
        split at h
        · next hthis =>
          cases children with
          | nil => cases hthis
          | cons first rest =>
            have hk : first.kind = .thisExpr := beq_iff_eq.1 hthis
            have hrest := not_composite_of_this hs hk (by rw [hident]; rfl)
            refine quiet_node hs NodeKind.noConfusion fun child hm hc => ?_
            rcases List.mem_cons.1 hm with rfl | hm
            · exact quiet_of_among_nil (hs.of_mem (List.mem_cons_self ..))
                (by rw [hk]; exact NodeKind.noConfusion) (by rw [hk]; exact List.mem_singleton_self _)
            · cases hc.symm.trans (hrest child hm)
        · cases h
      · cases h

/-- No type is written in an operand that denotes a field. -/
private theorem quiet_of_firstTarget : ∀ (trees : List Tree), (∀ tree ∈ trees, tree.Shaped) →
    Lone trees → firstTarget? fields locals trees = some target → ∀ tree ∈ trees, tree.Quiet
  | [] => fun _ _ _ _ ht => by cases ht
  | first :: rest => by
    rw [List.forall_mem_cons, List.forall_mem_cons]
    intro hs hl h
    rw [firstTarget?] at h
    split at h
    · next hc =>
      exact ⟨quiet_of_target first hs.1 h, fun tree hm =>
        quiet_of_not_composite (hs.2 tree hm) (hl.of_cons hc tree hm)⟩
    · next hc =>
      exact ⟨quiet_of_not_composite hs.1 (Bool.eq_false_iff.2 hc),
        quiet_of_firstTarget rest hs.2 hl.tail h⟩

end

/-- No type is written in the name of one. -/
private theorem quiet_of_typeTarget {token : Token} (hs : tree.Shaped)
    (h : typeTarget? fields locals tree = some token) : tree.Quiet := by
  unfold typeTarget? at h
  split at h
  · next hk =>
    exact quiet_of_among_nil hs (by rw [hk]; exact NodeKind.noConfusion)
      (by rw [hk]; exact List.mem_singleton_self _)
  · cases h

/-- Among some events there is a reference to a type in which a node is written. -/
def Finds (node : Tree) (events : List BodyEvent) : Prop :=
  ∃ ref, BodyEvent.typeRef ref ∈ events ∧ ref.Shaped ∧ ref.kind = .typeRef ∧ node ∈ ref.codeNodes

private theorem Finds.append_left (h : Finds node events) : Finds node (events ++ others) := by
  obtain ⟨ref, hm, hrest⟩ := h
  exact ⟨ref, List.mem_append_left _ hm, hrest⟩

private theorem Finds.append_right (h : Finds node others) : Finds node (events ++ others) := by
  obtain ⟨ref, hm, hrest⟩ := h
  exact ⟨ref, List.mem_append_right _ hm, hrest⟩

mutual

/-- A walk over code finds every type that is written in the code. -/
theorem finds_ofNode (hk : node.kind = .typeRef) : ∀ (tree : Tree), tree.Shaped →
    node ∈ tree.codeNodes → ∀ locals, Finds node (ofNode fields locals tree).1
  | .error region comments => by
    intro _ hn
    rw [codeNodes] at hn
    cases hn
  | .node kind anchor extent comments children => by
    intro hs hn locals
    obtain ⟨-, hlevel, hn'⟩ := mem_codeNodes.1 hn
    have hlevel : (kind.isTypeDeclaration || kind = .classBody) = false := hlevel
    rw [ofNode]
    simp only [hlevel, Bool.false_eq_true, if_false]
    split
    · next ht => exact ⟨_, List.mem_singleton_self _, hs, ht, hn⟩
    · next ht =>
      have hchildren : node ∈ codeNodesOf children := by
        rcases hn' with rfl | hn'
        · exact absurd hk ht
        · exact mem_codeNodesOf.2 hn'
      have hs' := (shaped_node.1 hs).2
      have hquiet : ¬ (Tree.node kind anchor extent comments children).Quiet :=
        fun h => h node hn hk
      split
      · next hu => exact absurd (quiet_annotationUse hs hu) hquiet
      · have hopens : ∀ walk : Walk, Finds node walk.1 →
            Finds node (if opensScope kind then (walk.1, locals) else walk).1 := by
          intro walk h
          split <;> exact h
        refine hopens _ ?_
        split
        · exact finds_ofAssignment hk children hs' hchildren locals
        · split
          · next hstep =>
            split
            · next target htarget =>
              refine absurd (quiet_node hs ht fun child hm _ => ?_) hquiet
              exact quiet_of_firstTarget children hs' (lone_operand hs (.inr hstep.1)) htarget child hm
            · exact finds_ofNodes hk children hs' hchildren locals
          · split
            · next hname =>
              subst hname
              exact absurd (quiet_of_among_nil hs ht (List.mem_singleton_self _)) hquiet
            · split
              · split
                · next target htarget => exact absurd (quiet_of_target _ hs htarget) hquiet
                · exact finds_ofQualified hk children hs' hchildren locals
              · split
                · exact finds_ofQualified hk children hs' hchildren locals
                · exact finds_ofNodes hk children hs' hchildren _

/-- The walk over pieces of code. -/
private theorem finds_ofNodes (hk : node.kind = .typeRef) : ∀ (trees : List Tree),
    (∀ tree ∈ trees, tree.Shaped) → node ∈ codeNodesOf trees → ∀ locals,
    Finds node (ofNodes fields locals trees).1
  | [] => by
    intro _ hn
    rw [codeNodesOf] at hn
    cases hn
  | first :: rest => by
    rw [List.forall_mem_cons]
    intro hs hn locals
    rw [codeNodesOf, List.mem_append] at hn
    rw [ofNodes]
    rcases hn with hn | hn
    · exact (finds_ofNode hk first hs.1 hn locals).append_left
    · exact (finds_ofNodes hk rest hs.2 hn _).append_right

/-- The walk over an expression whose first part may name a type. -/
private theorem finds_ofQualified (hk : node.kind = .typeRef) : ∀ (trees : List Tree),
    (∀ tree ∈ trees, tree.Shaped) → node ∈ codeNodesOf trees → ∀ locals,
    Finds node (ofQualified fields locals trees).1
  | [] => by
    intro _ hn
    rw [codeNodesOf] at hn
    cases hn
  | first :: rest => by
    rw [List.forall_mem_cons]
    intro hs hn locals
    rw [codeNodesOf, List.mem_append] at hn
    rw [ofQualified]
    split
    · rcases hn with hn | hn
      · refine Finds.append_left ?_
        split
        · next token ht => exact absurd hk (quiet_of_typeTarget hs.1 ht node hn)
        · exact finds_ofNode hk first hs.1 hn locals
      · exact (finds_ofNodes hk rest hs.2 hn _).append_right
    · next hc =>
      rcases hn with hn | hn
      · exact absurd (isComposite_of_mem hs.1 hn hk) hc
      · exact finds_ofQualified hk rest hs.2 hn locals

/-- The walk over an assignment. -/
private theorem finds_ofAssignment (hk : node.kind = .typeRef) : ∀ (trees : List Tree),
    (∀ tree ∈ trees, tree.Shaped) → node ∈ codeNodesOf trees → ∀ locals,
    Finds node (ofAssignment fields locals trees).1
  | [] => by
    intro _ hn
    rw [codeNodesOf] at hn
    cases hn
  | first :: rest => by
    rw [List.forall_mem_cons]
    intro hs hn locals
    rw [codeNodesOf, List.mem_append] at hn
    rw [ofAssignment]
    rcases hn with hn | hn
    · refine Finds.append_left ?_
      split
      · next target ht => exact absurd hk (quiet_of_target first hs.1 ht node hn)
      · exact finds_ofNode hk first hs.1 hn locals
    · exact (finds_ofNodes hk rest hs.2 hn _).append_right

end

end BodyEvent

end JavaGraph
