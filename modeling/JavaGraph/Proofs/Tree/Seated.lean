import Mathlib.Data.List.Pairwise
import JavaGraph.Tree.Basic
/-!
# Trees that are seated on their tokens

The line and the column of a node are looked up at its first child and the last line at its last
one, however far down. A node without children answers with the token it was begun at, which stands
behind it. So a node begins where its first token does and ends on the line of its last one if empty
nodes were begun at the token that follows them, and if no empty node is the last child of another.
-/

namespace JavaGraph

/-- Whether a node of a kind may have no tokens. -/
@[reducible] def NodeKind.mayBeEmpty : NodeKind → Bool
  | .modifiers | .forInit | .forUpdate => true
  | _ => false

/-- The first and the last line of a span are among those of another. -/
def Text.LineSpan.Within (span around : Text.LineSpan) : Prop :=
  around.contains span.first = true ∧ around.contains span.last = true

namespace Tree

open Text (LineSpan)

variable {behind : List Token} {tree : Tree} {children more : List Tree}

/-! ### Nodes in front of tokens -/

mutual

/-- A tree is seated on its tokens where those of `behind` follow. -/
def Seated (behind : List Token) : Tree → Prop
  | .node kind anchor _ _ children =>
    if kind = .token then children = []
    else
      (children = [] → kind.mayBeEmpty = true ∧ ∀ next ∈ behind.head?, anchor = next) ∧
        (∀ last ∈ children.getLast?, last.tokens ≠ []) ∧ SeatedAll behind children
  | .error region _ => region.skipped.head? = some region.first ∧
      region.skipped.getLast? = some region.last

/-- Trees in sequence are seated on their tokens where those of `behind` follow. -/
def SeatedAll (behind : List Token) : List Tree → Prop
  | [] => True
  | child :: rest => child.Seated (tokensOf rest ++ behind) ∧ SeatedAll behind rest

end

theorem seated_leaf (token : Token) : (leaf token).Seated behind := by
  unfold leaf
  rw [Seated, if_pos rfl]

theorem seated_errorNode? {source : String} {region : List Token} {error : ParseError}
    (h : errorNode? source region error = some tree) : tree.Seated behind := by
  cases region with
  | nil => cases h
  | cons first rest =>
    obtain ⟨last, hl⟩ : ∃ last, (first :: rest).getLast? = some last :=
      ⟨_, List.getLast?_eq_some_getLast (List.cons_ne_nil first rest)⟩
    simp only [errorNode?, hl, Option.some.injEq] at h
    subst h
    rw [Seated]
    exact ⟨rfl, hl⟩

/-- What makes a composite node seated. -/
theorem seated_node {kind : NodeKind} {anchor : Token} {extent : Option Extent}
    {comments : Comments} (hk : kind ≠ .token) :
    (node kind anchor extent comments children).Seated behind ↔
      (children = [] → kind.mayBeEmpty = true ∧ ∀ next ∈ behind.head?, anchor = next) ∧
        (∀ last ∈ children.getLast?, last.tokens ≠ []) ∧ SeatedAll behind children := by
  rw [Seated, if_neg hk]

/-- Trees behind others are what follows these. -/
theorem seatedAll_append : SeatedAll behind (children ++ more) ↔
    SeatedAll (tokensOf more ++ behind) children ∧ SeatedAll behind more := by
  induction children with
  | nil => simp [SeatedAll]
  | cons child rest ih =>
    rw [List.cons_append, SeatedAll, SeatedAll, ih, tokensOf_append, List.append_assoc, and_assoc]

theorem SeatedAll.of_mem (h : SeatedAll behind children) (hm : tree ∈ children) :
    ∃ behind, tree.Seated behind := by
  obtain ⟨before, after, rfl⟩ := List.append_of_mem hm
  exact ⟨_, (seatedAll_append.1 h).2.1⟩

mutual

/-- Every node below a seated one is seated. -/
theorem Seated.of_mem_descendants : (tree : Tree) → {behind : List Token} → tree.Seated behind →
    ∀ other ∈ tree.descendants, ∃ behind, other.Seated behind
  | .node kind anchor extent comments children, behind, h, other, hm => by
    rw [descendants, List.mem_cons] at hm
    rcases hm with rfl | hm
    · exact ⟨behind, h⟩
    · by_cases hk : kind = .token
      · rw [Seated, if_pos hk] at h
        rw [h] at hm
        cases hm
      · exact SeatedAll.of_mem_descendantsOf children ((seated_node hk).1 h).2.2 other hm
  | .error region comments, behind, h, other, hm => by
    rw [descendants, List.mem_singleton] at hm
    exact hm ▸ ⟨behind, h⟩

theorem SeatedAll.of_mem_descendantsOf : (trees : List Tree) → {behind : List Token} →
    SeatedAll behind trees → ∀ other ∈ descendantsOf trees, ∃ behind, other.Seated behind
  | [], _, _, _, hm => by cases hm
  | child :: rest, behind, h, other, hm => by
    rw [SeatedAll] at h
    rw [descendantsOf, List.mem_append] at hm
    rcases hm with hm | hm
    · exact Seated.of_mem_descendants child h.1 other hm
    · exact SeatedAll.of_mem_descendantsOf rest h.2 other hm

end

/-! ### Where a tree begins and ends -/

/-- There are tokens if the last of some trees has one. -/
theorem tokensOf_ne_nil (hc : children ≠ []) (h : ∀ last ∈ children.getLast?, last.tokens ≠ []) :
    tokensOf children ≠ [] := by
  have hlast := List.getLast?_eq_some_getLast hc
  obtain ⟨before, he⟩ := List.getLast?_eq_some_iff.1 hlast
  rw [he, tokensOf_append, tokensOf, tokensOf, List.append_nil]
  exact List.append_ne_nil_of_right_ne_nil _ (h _ hlast)

/-- A seated tree begins at its first token, or where it has none, at the one that follows. -/
theorem Seated.begins : (tree : Tree) → {behind : List Token} → tree.Seated behind →
    ∀ next ∈ (tree.tokens ++ behind).head?, tree.line = next.line ∧ tree.column = next.column
  | .node kind anchor extent comments [], behind, h, next, hn => by
    rw [Tree.line, Tree.column]
    by_cases hk : kind = .token
    · rw [tokens, if_pos hk] at hn
      cases hn
      exact ⟨rfl, rfl⟩
    · rw [tokens, if_neg hk] at hn
      rw [(((seated_node hk).1 h).1 rfl).2 next hn]
      exact ⟨rfl, rfl⟩
  | .node kind anchor extent comments (child :: rest), behind, h, next, hn => by
    have hk : kind ≠ .token := by
      intro hk
      rw [Seated, if_pos hk] at h
      cases h
    have hchild := ((seated_node hk).1 h).2.2
    rw [SeatedAll] at hchild
    rw [tokens, if_neg hk, tokensOf, List.append_assoc] at hn
    rw [Tree.line, Tree.column]
    exact Seated.begins child hchild.1 next hn
  | .error region comments, behind, h, next, hn => by
    rw [Seated] at h
    rw [tokens, List.head?_append, h.1] at hn
    cases hn
    exact ⟨rfl, rfl⟩

mutual

/-- A seated tree ends with its last token. -/
theorem Seated.lastLine : (tree : Tree) → {behind : List Token} → tree.Seated behind →
    ∀ last ∈ tree.tokens.getLast?, tree.lastLine = last.line
  | .node kind anchor extent comments children, behind, h, last, hl => by
    rw [Tree.lastLine]
    by_cases hk : kind = .token
    · rw [tokens, if_pos hk] at hl
      rw [Seated, if_pos hk] at h
      cases hl
      rw [h, lastLineOf]
      rfl
    · obtain ⟨-, hlast, hchildren⟩ := (seated_node hk).1 h
      rw [tokens, if_neg hk] at hl
      exact SeatedAll.lastLineOf children hchildren hlast anchor.line last hl
  | .error region comments, behind, h, last, hl => by
    rw [Seated] at h
    rw [tokens, h.2] at hl
    cases hl
    rfl

theorem SeatedAll.lastLineOf : (trees : List Tree) → {behind : List Token} →
    SeatedAll behind trees → (∀ last ∈ trees.getLast?, last.tokens ≠ []) → ∀ line,
    ∀ last ∈ (tokensOf trees).getLast?, lastLineOf line trees = last.line
  | [], _, _, _, _, _, hl => by cases hl
  | [child], behind, h, hne, line, last, hl => by
    rw [SeatedAll] at h
    rw [tokensOf, tokensOf, List.append_nil] at hl
    rw [Tree.lastLineOf, Tree.lastLineOf]
    exact Seated.lastLine child h.1 last hl
  | child :: next :: rest, behind, h, hne, line, last, hl => by
    rw [SeatedAll] at h
    rw [List.getLast?_cons_cons] at hne
    have hrest := tokensOf_ne_nil (List.cons_ne_nil next rest) hne
    rw [tokensOf, List.getLast?_append, List.getLast?_eq_some_getLast hrest, Option.some_or,
      ← List.getLast?_eq_some_getLast hrest] at hl
    rw [Tree.lastLineOf]
    exact SeatedAll.lastLineOf (next :: rest) h.2 hne child.lastLine last hl

end

/-- Only nodes of few kinds are empty. -/
theorem Seated.tokens_ne_nil (h : tree.Seated behind) (hk : tree.kind.mayBeEmpty = false) :
    tree.tokens ≠ [] := by
  cases tree with
  | error region comments =>
    rw [Seated] at h
    rw [tokens]
    rintro hnil
    rw [hnil] at h
    cases h.1
  | node kind anchor extent comments children =>
    by_cases ht : kind = .token
    · rw [tokens, if_pos ht]
      exact List.cons_ne_nil anchor []
    · obtain ⟨hempty, hlast, -⟩ := (seated_node ht).1 h
      rw [tokens, if_neg ht]
      refine tokensOf_ne_nil (fun hnil => ?_) hlast
      have hmay : kind.mayBeEmpty = true := (hempty hnil).1
      exact Bool.false_ne_true (hk.symm.trans hmay)

/-! ### Lines from the first token to the last -/

mutual

/-- The tokens of a node stand next to each other among those of the trees that it is in. -/
theorem Seated.infix_tokens : (tree : Tree) → {behind : List Token} → tree.Seated behind →
    ∀ other ∈ tree.descendants, other.tokens <:+: tree.tokens
  | .node kind anchor extent comments children, behind, h, other, hm => by
    rw [descendants, List.mem_cons] at hm
    rcases hm with rfl | hm
    · exact List.infix_rfl
    · by_cases hk : kind = .token
      · rw [Seated, if_pos hk] at h
        rw [h] at hm
        cases hm
      · rw [tokens, if_neg hk]
        exact SeatedAll.infix_tokensOf children ((seated_node hk).1 h).2.2 other hm
  | .error region comments, behind, h, other, hm => by
    rw [descendants, List.mem_singleton] at hm
    exact hm ▸ List.infix_rfl

theorem SeatedAll.infix_tokensOf : (trees : List Tree) → {behind : List Token} →
    SeatedAll behind trees → ∀ other ∈ descendantsOf trees, other.tokens <:+: tokensOf trees
  | [], _, _, _, hm => by cases hm
  | child :: rest, behind, h, other, hm => by
    rw [SeatedAll] at h
    rw [descendantsOf, List.mem_append] at hm
    rw [tokensOf]
    rcases hm with hm | hm
    · exact (Seated.infix_tokens child h.1 other hm).trans (List.prefix_append ..).isInfix
    · exact (SeatedAll.infix_tokensOf rest h.2 other hm).trans (List.suffix_append ..).isInfix

end

/-- The tokens of a node are among those of the trees that it is in, in the same order. -/
theorem Seated.sublist_tokens (h : tree.Seated behind) {other : Tree}
    (hm : other ∈ tree.descendants) : other.tokens.Sublist tree.tokens :=
  (Seated.infix_tokens tree h other hm).sublist

/-- A tree is on the lines from that of its first token to that of its last one. -/
structure OnLines (tree : Tree) (span : LineSpan) : Prop where
  first : tree.tokens.head?.map (·.line) = some span.first
  last : tree.tokens.getLast?.map (·.line) = some span.last
  ordered : span.first ≤ span.last

/-- A tree is seated on tokens whose lines ascend. -/
structure Lined (tree : Tree) : Prop where
  seated : ∃ behind, tree.Seated behind
  ascending : (tree.tokens.map (·.line)).Pairwise (· ≤ ·)

variable {other : Tree} {span around : LineSpan}

theorem Lined.of_mem_descendants (h : tree.Lined) (hm : other ∈ tree.descendants) :
    other.Lined := by
  obtain ⟨behind, hs⟩ := h.seated
  exact ⟨Seated.of_mem_descendants tree hs other hm,
    h.ascending.sublist ((hs.sublist_tokens hm).map _)⟩

/-- A node that is not empty is on the lines that are looked up for it. -/
theorem Lined.onLines (h : tree.Lined) (hk : tree.kind.mayBeEmpty = false) :
    tree.OnLines (.between tree.line tree.lastLine) := by
  obtain ⟨behind, hs⟩ := h.seated
  have hne := hs.tokens_ne_nil hk
  have hhead := List.head?_eq_some_head hne
  have hlast := List.getLast?_eq_some_getLast hne
  have hline : tree.line = (tree.tokens.head hne).line :=
    (Seated.begins tree hs _ (by rw [List.head?_append, hhead]; rfl)).1
  have hlastLine : tree.lastLine = (tree.tokens.getLast hne).line := Seated.lastLine tree hs _ hlast
  have hle : tree.line ≤ tree.lastLine := by
    rw [hline, hlastLine]
    exact List.pairwise_map.1 h.ascending |>.rel_head (List.getLast_mem hne)
  refine ⟨?_, ?_, LineSpan.first_le_last ..⟩
  · rw [hhead, Option.map_some, ← hline, LineSpan.between, Nat.min_eq_left hle]
  · rw [hlast, Option.map_some, ← hlastLine, LineSpan.between, Nat.max_eq_right hle]

/-- Every token of a tree is on its lines. -/
theorem OnLines.contains (h : tree.OnLines span) (hl : tree.Lined) {token : Token}
    (ht : token ∈ tree.tokens) : span.contains token.line = true := by
  have hmem : token.line ∈ tree.tokens.map (·.line) := List.mem_map_of_mem ht
  have hne := List.ne_nil_of_mem hmem
  have hfirst : (tree.tokens.map (·.line)).head hne = span.first := by
    rw [List.head_eq_iff_head?_eq_some, List.head?_map]
    exact h.first
  have hlast : (tree.tokens.map (·.line)).getLast hne = span.last := by
    rw [List.getLast_eq_iff_getLast?_eq_some, List.getLast?_map]
    exact h.last
  have hle := hl.ascending.rel_head hmem
  have hge := hl.ascending.rel_getLast hmem
  rw [hfirst] at hle
  rw [hlast] at hge
  simp [LineSpan.contains, hle, hge]

/-- The lines of a node are among those of a tree that it is in. -/
theorem OnLines.within (h : tree.OnLines around) (hl : tree.Lined) (hm : other ∈ tree.descendants)
    (h' : other.OnLines span) : span.Within around := by
  obtain ⟨behind, hs⟩ := hl.seated
  have htokens := (hs.sublist_tokens hm).subset
  obtain ⟨first, hf, hfirst⟩ := Option.map_eq_some_iff.1 h'.first
  obtain ⟨last, hla, hlast⟩ := Option.map_eq_some_iff.1 h'.last
  exact ⟨hfirst ▸ h.contains hl (htokens (List.mem_of_head? hf)),
    hlast ▸ h.contains hl (htokens (List.mem_of_getLast? hla))⟩

/-- A node that is not empty begins on a line of a tree that it is in. -/
theorem OnLines.contains_line (h : tree.OnLines around) (hl : tree.Lined)
    (hm : other ∈ tree.descendants) (hk : other.kind.mayBeEmpty = false) :
    around.contains other.line = true := by
  obtain ⟨behind, hs⟩ := hl.seated
  have htokens := (hs.sublist_tokens hm).subset
  obtain ⟨behind, hs⟩ := Seated.of_mem_descendants tree hs other hm
  have hhead := List.head?_eq_some_head (hs.tokens_ne_nil hk)
  rw [(Seated.begins other hs _ (by rw [List.head?_append, hhead]; rfl)).1]
  exact h.contains hl (htokens (List.head_mem _))

end Tree

end JavaGraph
