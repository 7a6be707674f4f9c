import JavaGraph.Proofs.Tree.Measured
import JavaGraph.Tree.Comments
/-!
# Where a layout puts comments

The comments before and behind a declaration are found from the numbers of its first and its last
token. Put the other way round, a comment is found from the significant tokens next to it: it
follows what ends with the one before it on the same line, and precedes what begins with the one
behind it unless some declaration ends on its line.
-/

namespace JavaGraph

/-! ### The tokens around a place -/

variable {tokens : List Token}

/-- The last significant token before a place in the stream. -/
def lastBefore? (tokens : List Token) (index : Nat) : Option Token :=
  (tokens.filter fun token => !token.kind.isTrivia && token.index < index).getLast?

/-- The first significant token behind a place in the stream, which may be the end. -/
def firstAfter? (tokens : List Token) (index : Nat) : Option Token :=
  tokens.find? fun token => !token.kind.isTrivia && index < token.index

/-- The last of some tokens in order has the greatest number. -/
theorem InOrder.getLast?_eq_some (h : InOrder tokens) {last : Token} :
    tokens.getLast? = some last ↔ last ∈ tokens ∧ ∀ token ∈ tokens, token.index ≤ last.index := by
  induction tokens with
  | nil => simp
  | cons first rest ih =>
    obtain ⟨hfirst, hrest⟩ := List.pairwise_cons.1 h
    cases rest with
    | nil =>
      simp only [List.getLast?_singleton, Option.some.injEq, List.mem_singleton, forall_eq]
      exact ⟨fun he => ⟨he.symm, he ▸ Nat.le_refl _⟩, fun he => he.1.symm⟩
    | cons second rest =>
      rw [List.getLast?_cons_cons, ih hrest]
      constructor
      · rintro ⟨hm, hle⟩
        exact ⟨List.mem_cons_of_mem _ hm,
          List.forall_mem_cons.2 ⟨Nat.le_of_lt (hfirst last hm), hle⟩⟩
      · rintro ⟨hm, hle⟩
        have hrest := (List.forall_mem_cons.1 hle).2
        rcases List.mem_cons.1 hm with rfl | hm
        · have hlt := hfirst second (List.mem_cons_self ..)
          have := hrest second (List.mem_cons_self ..)
          omega
        · exact ⟨hm, hrest⟩

/-- The first of some tokens in order with a property has the least number. -/
theorem InOrder.find?_eq_some (h : InOrder tokens) {p : Token → Bool} {found : Token} :
    tokens.find? p = some found ↔
      found ∈ tokens ∧ p found = true ∧
        ∀ token ∈ tokens, p token = true → found.index ≤ token.index := by
  induction tokens with
  | nil => simp
  | cons first rest ih =>
    obtain ⟨hfirst, hrest⟩ := List.pairwise_cons.1 h
    rw [List.find?_cons, List.mem_cons, List.forall_mem_cons]
    cases hp : p first with
    | true =>
      constructor
      · rintro ⟨⟩
        exact ⟨.inl rfl, hp, fun _ => Nat.le_refl _, fun token hm _ =>
          Nat.le_of_lt (hfirst token hm)⟩
      · rintro ⟨rfl | hm, -, hle, -⟩
        · rfl
        · have := hle rfl
          have := hfirst found hm
          omega
    | false =>
      simp only [ih hrest, Bool.false_eq_true, false_implies, true_and]
      constructor
      · exact fun ⟨hm, hf, hle⟩ => ⟨.inr hm, hf, hle⟩
      · rintro ⟨rfl | hm, hf, hle⟩
        · rw [hp] at hf
          cases hf
        · exact ⟨hm, hf, hle⟩

theorem lastBefore?_eq_some (h : InOrder tokens) {index : Nat} {last : Token} :
    lastBefore? tokens index = some last ↔
      last ∈ tokens ∧ last.kind.isTrivia = false ∧ last.index < index ∧
        ∀ token ∈ tokens, token.kind.isTrivia = false → token.index < index →
          token.index ≤ last.index := by
  rw [lastBefore?, (h.sublist List.filter_sublist).getLast?_eq_some]
  simp only [List.mem_filter, Bool.and_eq_true, Bool.not_eq_true', decide_eq_true_eq, and_imp,
    and_assoc]

theorem firstAfter?_eq_some (h : InOrder tokens) {index : Nat} {first : Token} :
    firstAfter? tokens index = some first ↔
      first ∈ tokens ∧ first.kind.isTrivia = false ∧ index < first.index ∧
        ∀ token ∈ tokens, token.kind.isTrivia = false → index < token.index →
          first.index ≤ token.index := by
  rw [firstAfter?, h.find?_eq_some]
  simp only [Bool.and_eq_true, Bool.not_eq_true', decide_eq_true_eq, and_imp, and_assoc]

/-! ### The layout of a stream -/

namespace CommentLayout

variable {layout : CommentLayout}

/-- The comments of a layout are those of its tokens, which are found by their numbers. -/
structure Faithful (layout : CommentLayout) : Prop where
  inOrder : InOrder layout.tokens
  found : ∀ token ∈ layout.tokens, layout.tokens[token.index]? = some token
  comments : layout.comments = layout.tokens.filter (·.kind.isComment)

theorem getLast?_significant (layout : CommentLayout) (first : Nat) :
    (layout.significant.filter (· < first)).getLast? =
      (lastBefore? layout.tokens first).map (·.index) := by
  unfold significant lastBefore?
  rw [List.filter_map, List.getLast?_map, List.filter_filter]
  simp only [Function.comp_def, Bool.and_comm]

theorem find?_significant (layout : CommentLayout) (last : Nat) :
    layout.significant.find? (last < ·) = (firstAfter? layout.tokens last).map (·.index) := by
  unfold significant firstAfter?
  rw [List.find?_map, List.find?_filter]
  simp only [Function.comp_def, Bool.decide_and, Bool.decide_eq_true]

theorem following_sublist (layout : CommentLayout) (last : Nat) :
    (layout.following last).Sublist layout.comments :=
  List.filter_sublist.trans List.filter_sublist

theorem preceding_sublist (layout : CommentLayout) (first : Nat) :
    (layout.preceding first).Sublist layout.comments :=
  List.filter_sublist.trans List.filter_sublist

/-- Tokens with one number are one token. -/
theorem Faithful.eq_of_index (h : layout.Faithful) {a b : Token} (ha : a ∈ layout.tokens)
    (hb : b ∈ layout.tokens) (he : a.index = b.index) : a = b := by
  have hfound := h.found a ha
  rw [he, h.found b hb] at hfound
  exact (Option.some.inj hfound).symm

theorem isTrivia_of_isComment {kind : TokenKind} (h : kind.isComment = true) :
    kind.isTrivia = true := by
  cases kind <;> first | rfl | cases h

section

variable (h : layout.Faithful) {comment : Token} (hm : comment ∈ layout.tokens)
  (hc : comment.kind.isComment = true)
include h hm hc

/-- A significant token is before a comment or behind it. -/
private theorem lt_or_lt {token : Token} (ht : token ∈ layout.tokens)
    (hk : token.kind.isTrivia = false) :
    token.index < comment.index ∨ comment.index < token.index := by
  rcases Nat.lt_trichotomy token.index comment.index with hlt | he | hlt
  · exact .inl hlt
  · rw [h.eq_of_index ht hm he, isTrivia_of_isComment hc] at hk
    cases hk
  · exact .inr hlt

/-- A comment follows what ends right before it on its line. -/
theorem mem_following {last : Token} (hl : last ∈ layout.tokens)
    (hk : last.kind.isTrivia = false) :
    comment ∈ layout.following last.index ↔
      lastBefore? layout.tokens comment.index = some last ∧ last.line = comment.line := by
  have hmem : comment ∈ layout.comments := by
    rw [h.comments]
    exact List.mem_filter.2 ⟨hm, hc⟩
  have hline : layout.lineOf? last.index = some last.line := by
    rw [lineOf?, h.found last hl, Option.map_some]
  have hbound : comment.index < layout.tokens.length := by
    have := h.found comment hm
    exact (List.getElem?_eq_some_iff.1 this).1
  have hnext : (last.index < comment.index ∧ comment.index <
      ((firstAfter? layout.tokens last.index).map (·.index)).getD layout.tokens.length) ↔
      lastBefore? layout.tokens comment.index = some last := by
    rw [lastBefore?_eq_some h.inOrder]
    cases hn : firstAfter? layout.tokens last.index with
    | none =>
      have hnone : ∀ token ∈ layout.tokens, token.kind.isTrivia = false →
          token.index ≤ last.index := by
        intro token ht hkt
        have := List.find?_eq_none.1 hn token ht
        simp only [hkt, Bool.not_false, Bool.true_and, decide_eq_true_eq] at this
        exact Nat.le_of_not_lt this
      exact ⟨fun hlt => ⟨hl, hk, hlt.1, fun token ht hkt _ => hnone token ht hkt⟩,
        fun hlt => ⟨hlt.2.2.1, hbound⟩⟩
    | some next =>
      obtain ⟨hnm, hnk, hlt, hle⟩ := (firstAfter?_eq_some h.inOrder).1 hn
      simp only [Option.map_some, Option.getD_some]
      constructor
      · rintro ⟨hlast, hnext⟩
        refine ⟨hl, hk, hlast, fun token ht hkt hbefore => Nat.le_of_not_lt fun hafter => ?_⟩
        have := hle token ht hkt hafter
        omega
      · rintro ⟨-, -, hlast, hgreatest⟩
        refine ⟨hlast, ?_⟩
        rcases lt_or_lt h hm hc hnm hnk with hbefore | hafter
        · have := hgreatest next hnm hnk hbefore
          omega
        · exact hafter
  rw [following, find?_significant, List.mem_filter, between, List.mem_filter, hline]
  simp only [Option.all_some, Bool.and_eq_true, decide_eq_true_eq, beq_iff_eq, Option.some.injEq,
    hmem, true_and, hnext]

/-- What is right behind a comment has nothing significant between the comment and itself. -/
private theorem firstAfter?_iff {first : Token} (hf : first ∈ layout.tokens)
    (hk : first.kind.isTrivia = false) :
    firstAfter? layout.tokens comment.index = some first ↔
      comment.index < first.index ∧
        ∀ last, lastBefore? layout.tokens first.index = some last → last.index < comment.index := by
  rw [firstAfter?_eq_some h.inOrder]
  constructor
  · rintro ⟨-, -, hlt, hle⟩
    refine ⟨hlt, fun last hlast => ?_⟩
    obtain ⟨hlm, hlk, hbefore, -⟩ := (lastBefore?_eq_some h.inOrder).1 hlast
    rcases lt_or_lt h hm hc hlm hlk with hlast | hlast
    · exact hlast
    · have := hle last hlm hlk hlast
      omega
  · rintro ⟨hlt, hlast⟩
    refine ⟨hf, hk, hlt, fun token ht hkt hafter => Nat.le_of_not_lt fun hbefore => ?_⟩
    cases hl : lastBefore? layout.tokens first.index with
    | none =>
      have hnil := List.getLast?_eq_none_iff.1 hl
      have hmem : token ∈ layout.tokens.filter fun token =>
          !token.kind.isTrivia && token.index < first.index :=
        List.mem_filter.2 ⟨ht, by simp [hkt, hbefore]⟩
      rw [hnil] at hmem
      cases hmem
    | some last =>
      have := hlast last hl
      have := ((lastBefore?_eq_some h.inOrder).1 hl).2.2.2 token ht hkt hbefore
      omega

/-- What is right before a comment is right before what is right behind it. -/
private theorem lastBefore?_eq {first : Token}
    (hf : firstAfter? layout.tokens comment.index = some first) :
    lastBefore? layout.tokens first.index = lastBefore? layout.tokens comment.index := by
  obtain ⟨hfm, hfk, hlt, hle⟩ := (firstAfter?_eq_some h.inOrder).1 hf
  have hiff : ∀ token ∈ layout.tokens, token.kind.isTrivia = false →
      (token.index < first.index ↔ token.index < comment.index) := by
    intro token ht hkt
    rcases lt_or_lt h hm hc ht hkt with hbefore | hafter
    · omega
    · have := hle token ht hkt hafter
      omega
  unfold lastBefore?
  congr 1
  refine List.filter_congr fun token ht => ?_
  cases hkt : token.kind.isTrivia with
  | true => rfl
  | false => simp only [hiff token ht hkt]

/-- A comment precedes what begins right behind it, unless it trails what ends before it. -/
theorem mem_preceding {first : Token} (hf : first ∈ layout.tokens)
    (hk : first.kind.isTrivia = false) :
    comment ∈ layout.preceding first.index ↔
      firstAfter? layout.tokens comment.index = some first ∧
        ¬ ∃ last, lastBefore? layout.tokens comment.index = some last ∧
          last.index ∈ layout.declarationEnds ∧ last.line = comment.line := by
  have hmem : comment ∈ layout.comments := by
    rw [h.comments]
    exact List.mem_filter.2 ⟨hm, hc⟩
  have hbetween : comment ∈ layout.between
      ((lastBefore? layout.tokens first.index).map (·.index)) first.index ↔
        firstAfter? layout.tokens comment.index = some first := by
    rw [firstAfter?_iff h hm hc hf hk, between, List.mem_filter]
    cases lastBefore? layout.tokens first.index <;> simp [hmem, and_comm]
  rw [preceding, getLast?_significant, List.mem_filter, hbetween]
  refine and_congr_right fun hafter => ?_
  rw [lastBefore?_eq h hm hc hafter]
  cases hl : lastBefore? layout.tokens comment.index with
  | none => simp
  | some last =>
    have hline : layout.lineOf? last.index = some last.line := by
      rw [lineOf?, h.found last ((lastBefore?_eq_some h.inOrder).1 hl).1, Option.map_some]
    by_cases hends : last.index ∈ layout.declarationEnds <;> simp [hends, hline, Option.filter]

end

end CommentLayout

/-! ### Attaching -/

namespace Tree

variable (layout : CommentLayout)

/-- Only the comments of a node change. -/
theorem exists_attachHere (tree : Tree) :
    ∃ comments, attachHere layout tree = tree.withComments comments := by
  have hsame : tree = tree.withComments tree.comments := by cases tree <;> rfl
  unfold attachHere
  split
  · split
    · exact ⟨_, hsame⟩
    · split
      · exact ⟨_, rfl⟩
      · exact ⟨_, hsame⟩
  · exact ⟨_, hsame⟩

mutual

/-- Comments are attached to every node below. -/
theorem descendants_attachWith : (tree : Tree) →
    (tree.attachWith layout).descendants = tree.descendants.map (attachWith layout)
  | .node kind anchor extent comments children => by
    have hself := attachWith.eq_1 layout kind anchor extent comments children
    obtain ⟨attached, ha⟩ :=
      exists_attachHere layout (.node kind anchor extent comments (attachAll layout children))
    rw [descendants, List.map_cons, ← descendantsOf_attachAll children, hself, ha]
    rfl
  | .error region comments => by
    obtain ⟨attached, ha⟩ := exists_attachHere layout (.error region comments)
    rw [descendants, List.map_singleton, attachWith, ha]
    rfl

/-- Comments are attached to every node below some trees. -/
theorem descendantsOf_attachAll : (children : List Tree) →
    descendantsOf (attachAll layout children) = (descendantsOf children).map (attachWith layout)
  | [] => rfl
  | child :: rest => by
    rw [attachAll, descendantsOf, descendantsOf, List.map_append, descendants_attachWith child,
      descendantsOf_attachAll rest]

end

theorem kind_attachWith (tree : Tree) : (tree.attachWith layout).kind = tree.kind := by
  cases tree with
  | node kind anchor extent comments children =>
    obtain ⟨attached, ha⟩ :=
      exists_attachHere layout (.node kind anchor extent comments (attachAll layout children))
    rw [attachWith, ha]
    rfl
  | error region comments =>
    obtain ⟨attached, ha⟩ := exists_attachHere layout (.error region comments)
    rw [attachWith, ha]
    rfl

variable {layout} {node : Tree}

/-- A node that is no declaration, or covers nothing, gets no comments. -/
theorem comments_attachWith_eq_nil (hp : node.Plain)
    (h : node.kind.isDeclaration = true → node.tokens = []) :
    (node.attachWith layout).comments = {} := by
  have hextent : node.kind.isDeclaration = true → node.extent = none := fun hd => by
    rw [hp.extent, h hd]
    rfl
  cases node with
  | node kind anchor extent comments children =>
    unfold attachWith attachHere
    split
    · next hd =>
      have he : extent = none := hextent hd
      subst he
      exact hp.comments
    · exact hp.comments
  | error region comments =>
    unfold attachWith attachHere
    split
    · next hd => cases hextent hd
    · exact hp.comments

/-- A declaration gets the comments on both sides of what it covers. -/
theorem comments_attachWith (h : layout.Faithful) (hp : node.Plain)
    (hd : node.kind.isDeclaration = true) {first last : Token}
    (hf : node.tokens.head? = some first) (hl : node.tokens.getLast? = some last)
    (hm : last ∈ layout.tokens) :
    (node.attachWith layout).comments =
      ⟨layout.preceding first.index, layout.following last.index⟩ := by
  have hextent : node.extent = some ⟨first.index, last.index⟩ := by
    rw [hp.extent]
    exact Extent.ofTokens?_eq_some.2 ⟨first, last, hf, hl, rfl⟩
  have hbound : last.index < layout.tokens.length :=
    (List.getElem?_eq_some_iff.1 (h.found last hm)).1
  cases node with
  | node kind anchor extent comments children =>
    have he : extent = some ⟨first.index, last.index⟩ := hextent
    have hc : comments = {} := hp.comments
    subst he hc
    have hk : (Tree.node kind anchor (some ⟨first.index, last.index⟩) {}
        (attachAll layout children)).kind.isDeclaration = true := hd
    unfold attachWith attachHere
    rw [if_pos hk]
    simp only [Tree.extent, if_pos hbound]
    rfl
  | error region comments => cases hd

end Tree

end JavaGraph
