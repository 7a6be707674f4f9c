import JavaGraph.Proofs.Parser.SeatedGrammar
import JavaGraph.Proofs.Scan.Contents
/-!
# Lines of declarations and of accesses

A declared type, a function and a field have the lines of the nodes that they are read off, and the
access of a field has the line of the name that is written. All of these nodes are below that of the
type, and types are nested as their nodes are, so the lines of what belongs to a type are among its
own.
-/

namespace JavaGraph

open List (Forall₂)
open Text (LineSpan)

namespace Tree

variable {root tree child other site : Tree} {place outer : Place}

/-! ### Nodes below others -/

/-- A node at a place is the root or below one of its children. -/
theorem mem_descendants_of_at? : ∀ {place : Place} {other : Tree}, root.at? place = some other →
    other = root ∨ ∃ child ∈ root.children, other ∈ child.descendants
  | [], other => fun h => .inl (Option.some.inj h).symm
  | i :: place, other => fun h => by
    rw [at?] at h
    obtain ⟨parent, hp, hi⟩ := Option.bind_eq_some_iff.1 h
    have hm := List.mem_of_getElem? hi
    rcases mem_descendants_of_at? hp with rfl | ⟨child, hc, hd⟩
    · exact .inr ⟨other, hm, other.mem_descendants_self⟩
    · exact .inr ⟨child, hc, mem_descendants_of_mem hd hm⟩

/-! ### Sites -/

/-- The type of a site is read off the site or off a child of it. -/
theorem mem_descendants_typeNode (tree : Tree) : tree.typeNode ∈ tree.descendants := by
  unfold typeNode
  split
  · exact tree.mem_descendants_self
  · cases hb : Site.classBody? tree.children with
    | none => exact tree.mem_descendants_self
    | some body => exact mem_descendants_of_mem_children (List.mem_of_find?_eq_some hb)

/-- The node that a type is read off has tokens. -/
theorem mayBeEmpty_typeNode (h : tree.isSite = true) : tree.typeNode.kind.mayBeEmpty = false := by
  unfold isSite at h
  unfold typeNode
  split
  · next hd =>
    revert hd
    cases tree.kind <;> first | exact fun _ => rfl | exact nofun
  · next hd =>
    rw [Bool.eq_false_iff.2 hd, Bool.false_or, Bool.and_eq_true] at h
    obtain ⟨body, hb⟩ := Option.isSome_iff_exists.1 (List.find?_isSome.2 (List.any_eq_true.1 h.2))
    have hbody : Site.classBody? tree.children = some body := hb
    have hkind : body.kind = .classBody := by simpa using List.find?_some hb
    rw [hbody, Option.getD_some, hkind]

/-- The body through which a site owns what is in it belongs to the node that its type is read
off. -/
private theorem body_mem_descendants (hs : site.Shaped) (hsite : site.isSite = true)
    (hm : other ∈ site.children) (hk : other.kind.isBody = true) :
    other ∈ site.typeNode.descendants := by
  unfold typeNode
  split
  · exact mem_descendants_of_mem_children hm
  · next hd =>
    have hcomposite := isComposite_of_isBody hk
    unfold isSite at hsite
    rw [Bool.eq_false_iff.2 hd, Bool.false_or, Bool.and_eq_true, Bool.or_eq_true, beq_iff_eq,
      beq_iff_eq] at hsite
    have hclass : other.kind = .classBody ∧ Rule.single .classBody ∈ Rule.ofKind site.kind := by
      rcases hsite.1 with hsite | hsite
      · refine ⟨(hs.newObject_child hsite hm hcomposite).resolve_left fun h => ?_, ?_⟩
        · revert h hk
          cases other.kind <;> simp [NodeKind.isBody, isInner]
        · rw [hsite]
          simp [Rule.ofKind]
      · have hchild := hs.enumConstant_child hsite hm hcomposite
        refine ⟨?_, ?_⟩
        · revert hchild hk
          cases other.kind <;> simp [NodeKind.isBody, isPlain]
        · rw [hsite]
          simp [Rule.ofKind]
    have hbody : Site.classBody? site.children = some other :=
      childOfKind?_of_single hm hclass.1 (hs.holds hclass.2) (by decide) (by decide)
    rw [hbody]
    exact other.mem_descendants_self

/-- What a site owns is below the node that its type is read off. -/
theorem mem_descendants_of_owner? (hs : root.Shaped) : ∀ {place : Place} {other : Tree},
    root.owner? place = some outer → root.at? place = some other → root.at? outer = some site →
    other ∈ site.typeNode.descendants
  | [], other => fun h _ _ => by cases h
  | i :: place, other => fun h hi ho => by
    rw [at?] at hi
    obtain ⟨parent, hp, hc⟩ := Option.bind_eq_some_iff.1 hi
    have hm := List.mem_of_getElem? hc
    rw [owner?, at?, hp, Option.bind_some, hc, Option.any_some, Option.any_some] at h
    split at h
    · next hbody =>
      cases h
      cases hp.symm.trans ho
      rw [Bool.and_eq_true] at hbody
      exact body_mem_descendants (hs.at? hp) hbody.1 hm hbody.2
    · exact mem_descendants_of_mem (mem_descendants_of_owner? hs h hp ho) hm

end Tree

/-! ### Lines of accesses -/

/-- A token below a tree is on a line. -/
def Tree.HasLine (tree : Tree) (line : Nat) : Prop :=
  ∃ leaf ∈ tree.descendants, ∃ token, leaf.token? = some token ∧ token.line = line

theorem Tree.HasLine.of_mem {tree other : Tree} {line : Nat} (h : other.HasLine line)
    (hm : other ∈ tree.descendants) : tree.HasLine line := by
  obtain ⟨leaf, hl, htoken⟩ := h
  exact ⟨leaf, mem_descendants_trans tree hm hl, htoken⟩

theorem Tree.HasLine.of_children {tree : Tree} {line : Nat}
    (h : ∃ child ∈ tree.children, child.HasLine line) : tree.HasLine line := by
  obtain ⟨child, hc, hline⟩ := h
  exact hline.of_mem (mem_descendants_of_mem_children hc)

/-- The lines of the tokens below a tree are among its own. -/
theorem Tree.OnLines.contains_of_hasLine {tree : Tree} {span : LineSpan} {line : Nat}
    (h : tree.OnLines span) (hl : tree.Lined) (hline : tree.HasLine line) :
    span.contains line = true := by
  obtain ⟨leaf, hm, token, ht, rfl⟩ := hline
  obtain ⟨behind, hs⟩ := hl.seated
  have htokens : leaf.tokens = [token] := by
    unfold token? at ht
    split at ht
    · cases ht
      rw [tokens, if_pos rfl]
    · cases ht
  refine h.contains hl ((hs.sublist_tokens hm).subset ?_)
  rw [htokens]
  exact List.mem_singleton_self token

namespace BodyEvent

variable {fields : VisibleFields} {locals : List String} {target : Target} {field : FieldId}
  {line : Nat} {access : AccessKind}

/-- A field that is named is used where its name is written. -/
private theorem hasLine_namedTarget? {tree : Tree}
    (h : namedTarget? fields locals tree = some target) : tree.HasLine target.line := by
  have hname {name : Token} (hn : tree.childToken? .ident = some name) : tree.HasLine name.line := by
    obtain ⟨child, hc, ht⟩ := List.mem_filterMap.1 (List.mem_of_find?_eq_some hn)
    exact ⟨child, Tree.mem_descendants_of_mem_children hc, name, ht, rfl⟩
  unfold namedTarget? at h
  split at h
  · next name _ hn =>
    split at h
    · cases h
    · obtain ⟨id, -, rfl⟩ := Option.map_eq_some_iff.1 h
      exact hname hn
  · next name _ hn =>
    split at h
    · obtain ⟨id, -, rfl⟩ := Option.map_eq_some_iff.1 h
      exact hname hn
    · cases h
  · cases h

mutual

private theorem hasLine_target? : (tree : Tree) → target? fields locals tree = some target →
    tree.HasLine target.line
  | .error region comments, h => by
    rw [target?] at h
    cases h
  | .node kind anchor extent comments children, h => by
    rw [target?] at h
    split at h
    · exact .of_children (hasLine_firstTarget? children h)
    · exact hasLine_namedTarget? h

private theorem hasLine_firstTarget? : (trees : List Tree) →
    firstTarget? fields locals trees = some target → ∃ tree ∈ trees, tree.HasLine target.line
  | [], h => by
    rw [firstTarget?] at h
    cases h
  | first :: rest, h => by
    rw [firstTarget?] at h
    split at h
    · exact ⟨first, List.mem_cons_self .., hasLine_target? first h⟩
    · obtain ⟨tree, ht, hline⟩ := hasLine_firstTarget? rest h
      exact ⟨tree, List.mem_cons_of_mem _ ht, hline⟩

end

private theorem eq_of_mem_reads (h : .access field line access ∈ reads target) :
    line = target.line := by
  cases List.mem_singleton.1 h
  rfl

private theorem eq_of_mem_writes (h : .access field line access ∈ writes target) :
    line = target.line := by
  cases List.mem_singleton.1 h
  rfl

mutual

/-- A field is accessed where its name is written in the code. -/
theorem hasLine_ofNode : (tree : Tree) → ∀ {locals : List String},
    .access field line access ∈ (ofNode fields locals tree).1 → tree.HasLine line
  | .error region comments, locals => by
    rw [ofNode]
    exact fun h => absurd h List.not_mem_nil
  | .node kind anchor extent comments children, locals => by
    have hchildren {line : Nat} (h : ∃ child ∈ children, child.HasLine line) :
        (Tree.node kind anchor extent comments children).HasLine line := .of_children h
    rw [ofNode]
    split
    · exact fun h => absurd h List.not_mem_nil
    split
    · exact fun h => by cases List.mem_singleton.1 h
    split
    · exact fun h => by cases List.mem_singleton.1 h
    dsimp only
    rw [apply_ite Prod.fst, ite_self]
    split
    · exact fun h => hchildren (hasLine_ofAssignment children h)
    split
    · split
      · next target ht =>
        intro h
        rw [List.mem_append] at h
        rw [h.elim eq_of_mem_reads eq_of_mem_writes]
        exact hchildren (hasLine_firstTarget? children ht)
      · exact fun h => hchildren (hasLine_ofNodes children h)
    split
    · split
      · next target ht =>
        intro h
        rw [eq_of_mem_reads h]
        exact hasLine_target? _ ht
      · exact fun h => absurd h List.not_mem_nil
    split
    · split
      · next target ht =>
        intro h
        rw [eq_of_mem_reads h]
        exact hasLine_target? _ ht
      · exact fun h => hchildren (hasLine_ofQualified children h)
    split
    · exact fun h => hchildren (hasLine_ofQualified children h)
    · exact fun h => hchildren (hasLine_ofNodes children h)

private theorem hasLine_ofNodes : (trees : List Tree) → ∀ {locals : List String},
    .access field line access ∈ (ofNodes fields locals trees).1 →
    ∃ tree ∈ trees, tree.HasLine line
  | [], locals => by
    rw [ofNodes]
    exact fun h => absurd h List.not_mem_nil
  | first :: rest, locals => by
    intro h
    rw [ofNodes, List.mem_append] at h
    rcases h with h | h
    · exact ⟨first, List.mem_cons_self .., hasLine_ofNode first h⟩
    · obtain ⟨tree, ht, hline⟩ := hasLine_ofNodes rest h
      exact ⟨tree, List.mem_cons_of_mem _ ht, hline⟩

private theorem hasLine_ofQualified : (trees : List Tree) → ∀ {locals : List String},
    .access field line access ∈ (ofQualified fields locals trees).1 →
    ∃ tree ∈ trees, tree.HasLine line
  | [], locals => by
    rw [ofQualified]
    exact fun h => absurd h List.not_mem_nil
  | first :: rest, locals => by
    intro h
    rw [ofQualified] at h
    split at h
    · rw [List.mem_append] at h
      rcases h with h | h
      · refine ⟨first, List.mem_cons_self .., ?_⟩
        split at h
        · cases List.mem_singleton.1 h
        · exact hasLine_ofNode first h
      · obtain ⟨tree, ht, hline⟩ := hasLine_ofNodes rest h
        exact ⟨tree, List.mem_cons_of_mem _ ht, hline⟩
    · obtain ⟨tree, ht, hline⟩ := hasLine_ofQualified rest h
      exact ⟨tree, List.mem_cons_of_mem _ ht, hline⟩

private theorem hasLine_ofAssignment : (trees : List Tree) → ∀ {locals : List String},
    .access field line access ∈ (ofAssignment fields locals trees).1 →
    ∃ tree ∈ trees, tree.HasLine line
  | [], locals => by
    rw [ofAssignment]
    exact fun h => absurd h List.not_mem_nil
  | first :: rest, locals => by
    intro h
    rw [ofAssignment, List.mem_append] at h
    rcases h with h | h
    · refine ⟨first, List.mem_cons_self .., ?_⟩
      split at h
      · next target ht =>
        have hline : line = target.line := by
          rw [List.mem_append] at h
          refine h.elim (fun h => ?_) eq_of_mem_writes
          split at h
          · cases h
          · exact eq_of_mem_reads h
        exact hline ▸ hasLine_target? first ht
      · exact hasLine_ofNode first h
    · obtain ⟨tree, ht, hline⟩ := hasLine_ofNodes rest h
      exact ⟨tree, List.mem_cons_of_mem _ ht, hline⟩

end

end BodyEvent

/-- A use of a field in a body is on the line of a token of the body. -/
theorem Body.hasLine_of_mem_accesses {body : Body} {fields : VisibleFields} {access : Access}
    (h : access ∈ body.accesses fields) : body.node.HasLine access.line := by
  unfold accesses at h
  split at h
  · cases h
  · obtain ⟨event, hm, he⟩ := List.mem_filterMap.1 h
    split at he
    · cases he
      exact BodyEvent.hasLine_ofNode body.node hm
    · cases he

/-! ### Members -/

namespace DeclaredType

variable {type : DeclaredType} {node child : Tree}

/-- The members of a type are below its node. -/
theorem mem_descendants_of_body? {body : Tree} (hb : type.body? = some body)
    (hc : child ∈ body.children) : child ∈ type.node.descendants := by
  refine Tree.mem_descendants_of_mem ?_ hc
  unfold body? at hb
  split at hb
  · cases hb
    exact Tree.mem_descendants_self _
  · rcases Option.or_eq_some_iff.1 hb with hb | ⟨-, hb⟩
    · exact Tree.mem_descendants_of_mem_children (List.mem_of_find?_eq_some hb)
    · exact Tree.mem_descendants_of_mem_children (List.mem_of_find?_eq_some hb)

/-- The functions of a type are below its node, and they have tokens. -/
theorem mem_descendants_of_functionNodes (h : node ∈ type.functionNodes) :
    node ∈ type.node.descendants ∧ node.kind.mayBeEmpty = false := by
  unfold functionNodes at h
  split at h
  · cases h
  · next body hb =>
    obtain ⟨hm, hf⟩ := List.mem_filter.1 h
    refine ⟨mem_descendants_of_body? hb hm, ?_⟩
    revert hf
    unfold Tree.isFunction
    cases node.kind <;> intro hf <;> first | rfl | cases hf

end DeclaredType

/-- The fields of a type are below its node, and they have tokens. -/
theorem ReferenceSite.mem_descendants_of_allMembers {site : ReferenceSite} {node : Tree}
    {value? : Option Tree} (h : .field node value? ∈ site.allMembers) :
    node ∈ site.owner.node.descendants ∧ node.kind.mayBeEmpty = false := by
  unfold allMembers at h
  split at h
  · cases h
  · next body hb =>
    obtain ⟨child, hc, hm⟩ := List.mem_flatMap.1 h
    have hchild := DeclaredType.mem_descendants_of_body? hb hc
    unfold membersOf at hm
    split at hm
    · unfold fieldMembers at hm
      split at hm
      · cases hm
      · obtain ⟨declarator, hd, hm⟩ := List.mem_flatMap.1 hm
        split at hm
        · cases List.mem_singleton.1 hm
          obtain ⟨hmem, hk⟩ := List.mem_filter.1 hd
          rw [eq_of_beq hk]
          exact ⟨Tree.mem_descendants_of_mem hchild hmem, rfl⟩
        · cases hm
    · next hk =>
      split at hm
      · cases List.mem_singleton.1 hm
        rw [hk]
        exact ⟨hchild, rfl⟩
      · cases hm
    case h_6 => cases hm
    all_goals
      split at hm
      · cases List.mem_singleton.1 hm
      · cases hm

namespace Declarations.ReadInto

variable {source : SourceUnit} {declared : Declarations} {recordAccesses : Bool}
  {found : List TypeMembers} {before after : Graph} {one : TypeMembers} {function : FunctionId}
  {node : Tree} {parameters : List String} {access : Access}

/-- A function uses fields on the lines of its own tokens. -/
theorem hasLine_of_accessesFrom
    (h : declared.ReadInto source recordAccesses found before after) (hk : before.UsesKnown)
    (ho : one ∈ found) (hm : .function function node parameters ∈ one.members)
    (ha : access ∈ after.accessesFrom function) : node.HasLine access.line := by
  have hmem : (one.type.id, RecordedMember.function function node parameters) ∈
      found.flatMap (·.owned) :=
    List.mem_flatMap.2 ⟨one, ho, List.mem_map.2 ⟨_, hm, rfl⟩⟩
  rw [hk.accessesFrom h.takesIn.accesses (h.takesIn.fresh _ hmem), List.mem_filter,
    decide_eq_true_iff] at ha
  obtain ⟨ha, rfl⟩ := ha
  cases recordAccesses with
  | false => cases ha
  | true =>
    obtain ⟨record, hr, ha⟩ := List.mem_flatMap.1 ha
    obtain ⟨other, hother, rfl⟩ := List.mem_map.1 hr
    obtain ⟨body, hb, ha⟩ := List.mem_flatMap.1 ha
    obtain ⟨member, hmember, hbody⟩ := List.mem_filterMap.1 hb
    have hfunction := Body.function_of_mem_accesses ha
    cases member with
    | field id declarator value? =>
      obtain ⟨value, -, rfl⟩ := Option.map_eq_some_iff.1 hbody
      cases hfunction
    | function id written names =>
      obtain ⟨block, hblock, rfl⟩ := Option.map_eq_some_iff.1 hbody
      cases hfunction
      -- Each function is recorded once, so this is the one whose node is given.
      have hmem' : (other.type.id, RecordedMember.function access.function written names) ∈
          found.flatMap (·.owned) :=
        List.mem_flatMap.2 ⟨other, hother, List.mem_map.2 ⟨_, hmember, rfl⟩⟩
      have hsame := List.inj_on_of_nodup_map h.takesIn.distinct hmem hmem' rfl
      simp only [Prod.mk.injEq, RecordedMember.function.injEq, true_and] at hsame
      obtain ⟨-, rfl, -⟩ := hsame
      exact (Body.hasLine_of_mem_accesses ha).of_mem
        (Tree.mem_descendants_of_mem_children (List.mem_of_find?_eq_some hblock))

end Declarations.ReadInto

/-! ### Types -/

/-- What a graph says of the lines of a declared type and of what belongs to it. The functions are
those of the type in the order in which they are written. -/
structure DeclaredType.Spanned (type : DeclaredType) (graph : Graph) (x : TypeNode)
    (span : LineSpan) : Prop where
  known : graph.types.get? type.id = some x
  complete : x.isComplete = true
  recorded : x.span = some span
  node : type.node.OnLines span
  outer : ∀ {id}, x.declaringType = some id → ∃ y around, graph.types.get? id = some y ∧
    y.isComplete = true ∧ y.span = some around ∧ span.Within around
  functions : Forall₂ (fun function node => ∃ y, graph.functions.get? function = some y ∧
    node.OnLines y.span ∧ y.span.Within span ∧
    ∀ access ∈ graph.accessesFrom function, y.span.contains access.line = true)
    x.functions type.functionNodes
  fields : ∀ field ∈ x.fields, ∃ y, graph.fields.get? field = some y ∧
    span.contains y.line = true

namespace Declarations.ReadInto

variable {source : SourceUnit} {declared : Declarations} {recordAccesses : Bool}
  {found : List TypeMembers} {before after : Graph} {one : TypeMembers} {span : LineSpan}

/-- The lines of the functions of a type, and of what they use, are among those of the type. -/
private theorem functions_onLines
    (h : declared.ReadInto source recordAccesses found before after)
    (hd : (declared.types.map (·.id)).Nodup) (hu : Memberless declared before)
    (hk : before.UsesKnown) (ho : one ∈ found) (hl : one.type.node.Lined)
    (hs : one.type.node.OnLines span) : ∃ x, after.types.get? one.type.id = some x ∧
      Forall₂ (fun function node => ∃ y, after.functions.get? function = some y ∧
        node.OnLines y.span ∧ y.span.Within span ∧
        ∀ access ∈ after.accessesFrom function, y.span.contains access.line = true)
      x.functions one.type.functionNodes := by
  obtain ⟨x, hx, hall⟩ := h.functions hd hu ho
  refine ⟨x, hx, hall.imp ?_⟩
  rintro function node ⟨hn, parameters, hm⟩
  obtain ⟨y, hy, -, -, -, hspan⟩ := h.known ho _ hm
  obtain ⟨hmem, hempty⟩ := DeclaredType.mem_descendants_of_functionNodes hn
  have hnode := hl.of_mem_descendants hmem
  have hlines : node.OnLines y.span := hspan ▸ hnode.onLines hempty
  exact ⟨y, hy, hlines, hs.within hl hmem hlines, fun access ha =>
    hlines.contains_of_hasLine hnode (h.hasLine_of_accessesFrom hk ho hm ha)⟩

/-- The lines of the fields of a type are among those of the type. -/
private theorem fields_onLines
    (h : declared.ReadInto source recordAccesses found before after)
    (hd : (declared.types.map (·.id)).Nodup) (hu : Memberless declared before) (ho : one ∈ found)
    (hl : one.type.node.Lined) (hs : one.type.node.OnLines span) :
    ∃ x, after.types.get? one.type.id = some x ∧ ∀ field ∈ x.fields,
      ∃ y, after.fields.get? field = some y ∧ span.contains y.line = true := by
  obtain ⟨x, hx, hfields, -⟩ := h.node hd hu ho
  refine ⟨x, hx, fun field hf => ?_⟩
  rw [hfields] at hf
  obtain ⟨member, hm, hid⟩ := List.mem_filterMap.1 hf
  have hknown := h.known ho member hm
  cases member with
  | function id node parameters => cases hid
  | field id node value? =>
    cases hid
    obtain ⟨y, hy, -, -, hline⟩ := hknown
    have hwritten : .field node value? ∈ ReferenceSite.allMembers ⟨source, declared, one.type⟩ := by
      rw [← h.written one ho]
      exact List.mem_map.2 ⟨_, hm, rfl⟩
    obtain ⟨hmem, hempty⟩ := ReferenceSite.mem_descendants_of_allMembers hwritten
    exact ⟨y, hy, hline ▸ hs.contains_line hl hmem hempty⟩

end Declarations.ReadInto

namespace OpenProject.Contents

variable {opened : OpenProject} {config : ScanConfig} {source : SourceText}
  {declared : Declarations} {found : List TypeMembers} {before : Graph} {s : ScanState}
  {type : DeclaredType}

/-- A declared type is read off a node of the tree that declares a type. -/
theorem site (h : opened.Contents config source declared found before s)
    (ht : type ∈ declared.types) : ∃ place site, (parsed config source).root.at? place = some site ∧
      site.isSite = true ∧ type.node = site.typeNode := by
  obtain ⟨laid, placed, refused, hl⟩ := h.layout
  rw [← hl.types] at ht
  obtain ⟨pair, hp, rfl⟩ := List.mem_map.1 ht
  obtain ⟨site, hs, hsite, -, hnode, -⟩ :=
    (hl.sites.describes _ (hl.assigned.site pair hp)).node
  exact ⟨pair.2, site, hs, hsite, hnode⟩

/-- The node of a declared type is seated on tokens whose lines ascend. -/
private theorem lined (h : opened.Contents config source declared found before s)
    (ht : type ∈ declared.types) : type.node.Lined ∧ type.node.kind.mayBeEmpty = false := by
  obtain ⟨place, site, hs, hsite, hnode⟩ := h.site ht
  rw [hnode]
  refine ⟨?_, Tree.mayBeEmpty_typeNode hsite⟩
  rcases Tree.mem_descendants_of_at? hs with rfl | ⟨child, hc, hd⟩
  · have hkind := kind_root source.text (config.parseOptions source.path)
    unfold Tree.isSite at hsite
    change (parsed config source).root.kind = _ at hkind
    rw [hkind] at hsite
    cases hsite
  · exact (lined_of_mem_children source.text (config.parseOptions source.path) hc).of_mem_descendants
      (Tree.mem_descendants_trans child hd site.mem_descendants_typeNode)

/-- The node of a declared type is below that of the type around it. -/
private theorem mem_descendants_outer (h : opened.Contents config source declared found before s)
    (ht : type ∈ declared.types) {id : TypeId} (hid : type.outer.head? = some id) :
    ∃ other ∈ declared.types, other.id = id ∧ type.node ∈ other.node.descendants := by
  obtain ⟨laid, placed, refused, hl⟩ := h.layout
  rw [← hl.types] at ht ⊢
  obtain ⟨pair, hp, rfl⟩ := List.mem_map.1 ht
  rcases hl.assigned.around pair hp with ⟨-, hbelow⟩ | ⟨other, ho, howner, hbelow⟩
  · rw [hbelow.chain] at hid
    cases hid
  · rw [hbelow.chain] at hid
    cases hid
    refine ⟨other.1, List.mem_map.2 ⟨other, ho, rfl⟩, rfl, ?_⟩
    obtain ⟨site, hs, -, -, hnode, -⟩ := (hl.sites.describes _ (hl.assigned.site pair hp)).node
    obtain ⟨around, ha, -, -, hother, -⟩ := (hl.sites.describes _ (hl.assigned.site other ho)).node
    have hmem := Tree.mem_descendants_of_owner? (shaped_root source.text
      (config.parseOptions source.path)) howner hs ha
    change pair.1.site.node ∈ other.1.site.node.descendants
    rw [hnode, hother]
    exact Tree.mem_descendants_trans _ hmem site.mem_descendants_typeNode

/-- The lines of a declared type are those of its node, and the lines of what belongs to it are among
them. -/
theorem spanned (h : opened.Contents config source declared found before s)
    (ht : type ∈ declared.types) : ∃ x span, type.Spanned s.store.graph x span := by
  obtain ⟨x, hx, hc, -, hdeclaring, -, hspan⟩ := h.node type ht
  obtain ⟨hlined, hk⟩ := h.lined ht
  have hlines := hlined.onLines hk
  have hfound := ht
  rw [← h.into.types] at hfound
  obtain ⟨one, hone, rfl⟩ := List.mem_map.1 hfound
  obtain ⟨y, hy, hfunctions⟩ :=
    h.into.functions_onLines h.distinct h.memberless h.usesKnown hone hlined hlines
  obtain ⟨z, hz, hfields⟩ := h.into.fields_onLines h.distinct h.memberless hone hlined hlines
  cases hx.symm.trans hy
  cases hx.symm.trans hz
  refine ⟨x, _, hx, hc, hspan, hlines, fun {id} hid => ?_, hfunctions, hfields⟩
  obtain ⟨other, ho, rfl, hm⟩ := h.mem_descendants_outer ht (hdeclaring.symm.trans hid)
  obtain ⟨around, ha, hca, -, -, -, haround⟩ := h.node other ho
  obtain ⟨hother, hk'⟩ := h.lined ho
  exact ⟨around, _, ha, hca, haround, (hother.onLines hk').within hother hm hlines⟩

end OpenProject.Contents

end JavaGraph
