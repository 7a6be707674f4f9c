import JavaGraph.Proofs.Parser.Measured
import JavaGraph.Proofs.Tree.Comments
import JavaGraph.Scan.Declaration
import Mathlib.Data.List.Nodup
/-!
# Where the comments of a text go

A comment lies between two significant tokens. If it begins on the line of the first one and some
declaration ends there, it follows each of the declarations that do. Otherwise it precedes each of
the declarations that begin with the second one. It goes nowhere else.
-/

namespace JavaGraph

/-! ### Sides -/

/-- Whether a declaration ends with a token. -/
def Tree.EndsAt (node : Tree) (token? : Option Token) : Prop :=
  node.kind.isDeclaration = true ∧ ∃ token, token? = some token ∧ node.tokens.getLast? = some token

/-- Whether a declaration begins with a token. -/
def Tree.BeginsAt (node : Tree) (token? : Option Token) : Prop :=
  node.kind.isDeclaration = true ∧ ∃ token, token? = some token ∧ node.tokens.head? = some token

/-- A token stands once on a side of each of some nodes of a tree, and nowhere else. -/
def Tree.StandsOnly (root : Tree) (comment : Token) (side other : Comments → List Token)
    (at? : Tree → Prop) : Prop :=
  ∀ node ∈ root.descendants,
    (at? node → (side node.comments).count comment = 1) ∧
      (¬ at? node → (side node.comments).count comment = 0) ∧
        (other node.comments).count comment = 0

/-- A comment trails a declaration that ends on its line, right before it. -/
def Tree.Trails (root : Tree) (tokens : List Token) (comment : Token) : Prop :=
  (∃ node ∈ root.descendants, node.EndsAt (lastBefore? tokens comment.index)) ∧
    (lastBefore? tokens comment.index).map (·.line) = some comment.line

/-- A comment goes to one side: it follows each of the declarations that it trails, and precedes
each of those that begin behind it if it trails none. -/
structure Tree.Places (root : Tree) (tokens : List Token) (comment : Token) : Prop where
  following : root.Trails tokens comment →
    root.StandsOnly comment (·.following) (·.preceding)
      (·.EndsAt (lastBefore? tokens comment.index))
  preceding : ¬ root.Trails tokens comment →
    root.StandsOnly comment (·.preceding) (·.following)
      (·.BeginsAt (firstAfter? tokens comment.index))

/-! ### The tree of a text -/

/-- The layout in which the comments of a text are attached. -/
def layoutOf (text : String) : CommentLayout where
  tokens := tokenize text
  comments := (tokenize text).filter (·.kind.isComment)
  declarationEnds := ((bareTree text).descendants.filter (·.kind.isDeclaration)).filterMap
    fun node => node.extent.map (·.last)

theorem faithful_layoutOf (text : String) : (layoutOf text).Faithful :=
  ⟨inOrder_tokenize text, fun _ => getElem?_index, rfl⟩

/-- By default, all comments of a text are attached to its tree. -/
theorem root_parseSource (text : String) :
    (parseSource text {}).root = (bareTree text).attachWith (layoutOf text) := by
  have hcomments : (hiddenTokens TokenKind.comments (tokenize text)).filter (·.kind.isComment) =
      (tokenize text).filter (·.kind.isComment) := by
    unfold hiddenTokens
    rw [List.filter_filter]
    refine List.filter_congr fun token _ => ?_
    cases token.kind <;> rfl
  simp only [parseSource, if_true, Tree.attachComments, hcomments]
  rfl

/-- What a node of the tree of a text covers is significant. -/
theorem mem_tokenize_of_mem {text : String} {node : Tree} (hn : node ∈ (bareTree text).descendants)
    {token : Token} (hm : token ∈ node.tokens) :
    token ∈ tokenize text ∧ token.kind.isTrivia = false := by
  have hroot : (bareTree text).tokens = (tokenize text).filter Token.isSignificant := by
    rw [← tokens_root_parseSource text {}, root_parseSource, Tree.tokens_attachWith]
  have htoken := (measured_bareTree text).tokens_subset node hn hm
  rw [hroot] at htoken
  obtain ⟨ht, hs⟩ := List.mem_filter.1 htoken
  simp only [Token.isSignificant, Bool.and_eq_true, Bool.not_eq_true'] at hs
  exact ⟨ht, hs.1⟩

section

variable {text : String} {node : Tree} (hn : node ∈ (bareTree text).descendants)
include hn

/-- A node gets comments around what it covers if it is a declaration, and otherwise none. -/
private theorem comments_cases :
    (node.attachWith (layoutOf text)).comments = {} ∧
        (∀ token?, ¬ node.EndsAt token? ∧ ¬ node.BeginsAt token?) ∨
      ∃ first last, (first ∈ tokenize text ∧ first.kind.isTrivia = false) ∧
        (last ∈ tokenize text ∧ last.kind.isTrivia = false) ∧
        (node.attachWith (layoutOf text)).comments =
          ⟨(layoutOf text).preceding first.index, (layoutOf text).following last.index⟩ ∧
        ∀ token?, (node.EndsAt token? ↔ token? = some last) ∧
          (node.BeginsAt token? ↔ token? = some first) := by
  have hp := measured_bareTree text node hn
  by_cases hd : node.kind.isDeclaration = true
  · cases ht : node.tokens with
    | nil =>
      refine .inl ⟨Tree.comments_attachWith_eq_nil hp fun _ => ht, fun token? => ⟨?_, ?_⟩⟩
      · rintro ⟨-, token, -, he⟩
        rw [ht] at he
        cases he
      · rintro ⟨-, token, -, he⟩
        rw [ht] at he
        cases he
    | cons first rest =>
      have hf : node.tokens.head? = some first := by rw [ht]; rfl
      obtain ⟨last, hl⟩ : ∃ last, node.tokens.getLast? = some last :=
        ⟨_, List.getLast?_eq_some_getLast (by rw [ht]; simp)⟩
      have hfirst := mem_tokenize_of_mem hn (List.mem_of_mem_head? hf)
      have hlast := mem_tokenize_of_mem hn (List.mem_of_mem_getLast? hl)
      refine .inr ⟨first, last, hfirst, hlast,
        Tree.comments_attachWith (faithful_layoutOf text) hp hd hf hl hlast.1, fun token? => ?_⟩
      simp only [Tree.EndsAt, Tree.BeginsAt, hd, hf, hl, true_and, Option.some.injEq,
        exists_eq_right']
  · refine .inl ⟨Tree.comments_attachWith_eq_nil hp fun h => absurd h hd, fun token? => ?_⟩
    exact ⟨fun h => hd h.1, fun h => hd h.1⟩

/-- The comments at a node stand in the order of the text. -/
private theorem comments_sublist :
    (node.attachWith (layoutOf text)).comments.preceding.Sublist (layoutOf text).comments ∧
      (node.attachWith (layoutOf text)).comments.following.Sublist (layoutOf text).comments := by
  rcases comments_cases hn with ⟨he, -⟩ | ⟨first, last, -, -, he, -⟩
  · rw [he]
    exact ⟨List.nil_sublist _, List.nil_sublist _⟩
  · rw [he]
    exact ⟨CommentLayout.preceding_sublist .., CommentLayout.following_sublist ..⟩

end

section

variable {text : String} {comment : Token}

/-- Where a declaration ends. -/
private theorem mem_declarationEnds {last : Token} (hl : last ∈ tokenize text) :
    last.index ∈ (layoutOf text).declarationEnds ↔
      ∃ node ∈ (bareTree text).descendants, node.kind.isDeclaration = true ∧
        node.tokens.getLast? = some last := by
  simp only [layoutOf, List.mem_filterMap, List.mem_filter, and_assoc]
  refine exists_congr fun node => and_congr_right fun hn => and_congr_right fun _ => ?_
  rw [(measured_bareTree text node hn).extent]
  constructor
  · intro he
    obtain ⟨extent, hextent, hindex⟩ := Option.map_eq_some_iff.1 he
    obtain ⟨first, other, -, hother, rfl⟩ := Extent.ofTokens?_eq_some.1 hextent
    have hm := (mem_tokenize_of_mem hn (List.mem_of_mem_getLast? hother)).1
    rwa [(faithful_layoutOf text).eq_of_index hl hm hindex.symm]
  · intro he
    cases ht : node.tokens with
    | nil =>
      rw [ht] at he
      cases he
    | cons first rest =>
      rw [ht] at he
      rw [Extent.ofTokens?_eq_some.2 ⟨first, last, rfl, he, rfl⟩]
      rfl

private theorem beginsAt_attachWith {layout : CommentLayout} {node : Tree}
    {token? : Option Token} : (node.attachWith layout).BeginsAt token? ↔ node.BeginsAt token? := by
  simp only [Tree.BeginsAt, Tree.kind_attachWith, Tree.tokens_attachWith]

private theorem endsAt_attachWith {layout : CommentLayout} {node : Tree} {token? : Option Token} :
    (node.attachWith layout).EndsAt token? ↔ node.EndsAt token? := by
  simp only [Tree.EndsAt, Tree.kind_attachWith, Tree.tokens_attachWith]

/-- Whether a comment trails a declaration, in terms of the layout. -/
private theorem trails_root :
    (parseSource text {}).root.Trails (tokenize text) comment ↔
      ∃ last, lastBefore? (tokenize text) comment.index = some last ∧
        last.index ∈ (layoutOf text).declarationEnds ∧ last.line = comment.line := by
  have hends : ∀ {last}, lastBefore? (tokenize text) comment.index = some last →
      (last.index ∈ (layoutOf text).declarationEnds ↔
        ∃ node ∈ (parseSource text {}).root.descendants, node.EndsAt (some last)) := by
    intro last hl
    rw [mem_declarationEnds ((lastBefore?_eq_some (inOrder_tokenize text)).1 hl).1,
      root_parseSource, Tree.descendants_attachWith]
    constructor
    · rintro ⟨node, hn, hd, he⟩
      exact ⟨_, List.mem_map_of_mem hn, endsAt_attachWith.2 ⟨hd, last, rfl, he⟩⟩
    · rintro ⟨node, hn, hends⟩
      obtain ⟨bare, hb, rfl⟩ := List.mem_map.1 hn
      obtain ⟨hd, token, ht, he⟩ := endsAt_attachWith.1 hends
      cases ht
      exact ⟨bare, hb, hd, he⟩
  unfold Tree.Trails
  cases hl : lastBefore? (tokenize text) comment.index with
  | none => simp
  | some last => simp [hends hl]

variable (hm : comment ∈ tokenize text) (hc : comment.kind.isComment = true) {node : Tree}
  (hn : node ∈ (bareTree text).descendants)
include hm hc hn

/-- A comment follows the declarations that it trails. -/
private theorem mem_following_iff :
    comment ∈ (node.attachWith (layoutOf text)).comments.following ↔
      node.EndsAt (lastBefore? (tokenize text) comment.index) ∧
        (parseSource text {}).root.Trails (tokenize text) comment := by
  rcases comments_cases hn with ⟨he, hat⟩ | ⟨first, last, -, ⟨hl, hk⟩, he, hat⟩
  · rw [he]
    exact ⟨fun h => (List.not_mem_nil h).elim, fun h => absurd h.1 (hat _).1⟩
  · rw [he, CommentLayout.mem_following (faithful_layoutOf text) hm hc hl hk, (hat _).1,
      trails_root]
    obtain ⟨hd, token, ht, hends⟩ := (hat (some last)).1.2 rfl
    cases ht
    have hmem := (mem_declarationEnds hl).2 ⟨node, hn, hd, hends⟩
    refine and_congr_right fun hlast => ?_
    have hlast : lastBefore? (tokenize text) comment.index = some last := hlast
    rw [hlast]
    simp only [Option.some.injEq, exists_eq_left', hmem, true_and]

/-- A comment that trails no declaration precedes those that begin behind it. -/
private theorem mem_preceding_iff :
    comment ∈ (node.attachWith (layoutOf text)).comments.preceding ↔
      node.BeginsAt (firstAfter? (tokenize text) comment.index) ∧
        ¬ (parseSource text {}).root.Trails (tokenize text) comment := by
  rcases comments_cases hn with ⟨he, hat⟩ | ⟨first, last, ⟨hf, hk⟩, -, he, hat⟩
  · rw [he]
    exact ⟨fun h => (List.not_mem_nil h).elim, fun h => absurd h.1 (hat _).2⟩
  · rw [he, CommentLayout.mem_preceding (faithful_layoutOf text) hm hc hf hk, (hat _).2,
      trails_root]
    rfl

end

/-- Every comment of a text goes to one side of the declarations next to it and nowhere else, and
comments stay in the order of the text. -/
theorem comments_parseSource (text : String) :
    let parsed := parseSource text {}
    (∀ comment ∈ parsed.tokens, comment.kind.isComment = true →
      parsed.root.Places parsed.tokens comment) ∧
    ∀ node ∈ parsed.root.descendants,
      node.comments.preceding.Sublist (parsed.tokens.filter (·.kind.isComment)) ∧
        node.comments.following.Sublist (parsed.tokens.filter (·.kind.isComment)) := by
  have htokens : (parseSource text {}).tokens = tokenize text := rfl
  have hdescendants : (parseSource text {}).root.descendants =
      (bareTree text).descendants.map (Tree.attachWith (layoutOf text)) := by
    rw [root_parseSource, Tree.descendants_attachWith]
  have hnodup : (tokenize text).Nodup :=
    List.Pairwise.imp (fun {a b} hlt he => absurd (congrArg Token.index he) (Nat.ne_of_lt hlt))
      (inOrder_tokenize text)
  intro parsed
  simp only [parsed, htokens]
  constructor
  · intro comment hm hc
    -- A side has the comment once if it has it, since it repeats no token of the text.
    have hone : ∀ {list : List Token}, list.Sublist (layoutOf text).comments → comment ∈ list →
        list.count comment = 1 := fun hs hmem =>
      List.count_eq_one_of_mem ((hs.trans List.filter_sublist).nodup hnodup) hmem
    constructor
    · intro htrails node hn
      rw [hdescendants] at hn
      obtain ⟨bare, hb, rfl⟩ := List.mem_map.1 hn
      have hfollowing := mem_following_iff hm hc hb
      have hpreceding := mem_preceding_iff hm hc hb
      refine ⟨fun hends => hone (comments_sublist hb).2
          (hfollowing.2 ⟨endsAt_attachWith.1 hends, htrails⟩),
        fun hends => List.count_eq_zero.2 fun hmem =>
          hends (endsAt_attachWith.2 (hfollowing.1 hmem).1),
        List.count_eq_zero.2 fun hmem => (hpreceding.1 hmem).2 htrails⟩
    · intro htrails node hn
      rw [hdescendants] at hn
      obtain ⟨bare, hb, rfl⟩ := List.mem_map.1 hn
      have hfollowing := mem_following_iff hm hc hb
      have hpreceding := mem_preceding_iff hm hc hb
      refine ⟨fun hbegins => hone (comments_sublist hb).1
          (hpreceding.2 ⟨beginsAt_attachWith.1 hbegins, htrails⟩),
        fun hbegins => List.count_eq_zero.2 fun hmem =>
          hbegins (beginsAt_attachWith.2 (hpreceding.1 hmem).1),
        List.count_eq_zero.2 fun hmem => htrails (hfollowing.1 hmem).2⟩
  · intro node hn
    rw [hdescendants] at hn
    obtain ⟨bare, hb, rfl⟩ := List.mem_map.1 hn
    exact comments_sublist hb

/-- The comment behind an import follows it. -/
theorem places_importComment :
    let text := "import a; // b"
    let comment : Token := ⟨.lineComment, "// b", 10, 14, 1, 10, 5⟩
    comment ∈ tokenize text ∧ comment.kind.isComment = true ∧
      (parseSource text {}).root.Places (tokenize text) comment := by
  intro text comment
  have hm : comment ∈ tokenize text := by decide +kernel
  exact ⟨hm, rfl, (comments_parseSource text).1 comment hm rfl⟩

example : ((parseSource "import a; // b" {}).root.descendants.map fun node =>
    node.comments.following.map (·.text)) = [[], ["// b"], [], [], [], []] := by
  decide +kernel

end JavaGraph

/-!
## Trees without their comments

The comments of a tree can be taken away. Nothing that is read off a tree looks at them: what is read
off the tree without comments is the same, and a node found in it is the same node without comments.

Which tokens are collected, and whether comments are attached, does not matter to the tree without
comments that a text has, nor to its faults.
-/

namespace JavaGraph

namespace Tree

mutual

/-- The tree without the comments on any of its nodes. -/
def uncommented : Tree → Tree
  | .node kind anchor extent _ children => .node kind anchor extent {} (uncommentedOf children)
  | .error region _ => .error region {}

/-- Trees without the comments on any of their nodes. -/
def uncommentedOf : List Tree → List Tree
  | [] => []
  | child :: rest => child.uncommented :: uncommentedOf rest

end

theorem uncommentedOf_eq_map (trees : List Tree) : uncommentedOf trees = trees.map uncommented := by
  induction trees with
  | nil => rfl
  | cons tree rest ih => rw [uncommentedOf, ih, List.map_cons]

/-- Comments are taken away node by node. -/
theorem uncommented_node (kind : NodeKind) (anchor : Token) (extent : Option Extent)
    (comments : Comments) (children : List Tree) :
    (node kind anchor extent comments children).uncommented =
      node kind anchor extent {} (children.map uncommented) := by
  rw [uncommented, uncommentedOf_eq_map]

/-! ### Attaching comments -/

/-- Other comments are taken away as well. -/
@[simp] theorem uncommented_withComments (tree : Tree) (comments : Comments) :
    (tree.withComments comments).uncommented = tree.uncommented := by
  cases tree <;> rfl

@[simp] theorem uncommented_attachHere (layout : CommentLayout) (tree : Tree) :
    (attachHere layout tree).uncommented = tree.uncommented := by
  obtain ⟨comments, h⟩ := exists_attachHere layout tree
  rw [h, uncommented_withComments]

mutual

/-- Comments that are attached are taken away again. -/
theorem uncommented_attachWith (layout : CommentLayout) :
    (tree : Tree) → (tree.attachWith layout).uncommented = tree.uncommented
  | .node kind anchor extent comments children => by
    rw [attachWith, uncommented_attachHere, uncommented, uncommented,
      uncommentedOf_attachAll layout children]
  | .error region comments => by
    rw [attachWith, uncommented_attachHere]

theorem uncommentedOf_attachAll (layout : CommentLayout) :
    (trees : List Tree) → uncommentedOf (attachAll layout trees) = uncommentedOf trees
  | [] => rfl
  | tree :: rest => by
    rw [attachAll, uncommentedOf, uncommentedOf, uncommented_attachWith layout tree,
      uncommentedOf_attachAll layout rest]

end

/-! ### What is read off a node -/

variable (tree : Tree)

@[simp] theorem kind_uncommented : tree.uncommented.kind = tree.kind := by
  cases tree <;> rfl

@[simp] theorem isError_uncommented : tree.uncommented.isError = tree.isError := by
  cases tree <;> rfl

@[simp] theorem children_uncommented : tree.uncommented.children = tree.children.map uncommented := by
  cases tree with
  | node kind anchor extent comments children => exact congrArg Tree.children (uncommented_node ..)
  | error region comments => rfl

@[simp] theorem token?_uncommented : tree.uncommented.token? = tree.token? := by
  cases tree with
  | node kind anchor extent comments children => cases kind <;> rfl
  | error region comments => rfl

@[simp] theorem tokenKind?_uncommented : tree.uncommented.tokenKind? = tree.tokenKind? := by
  simp only [tokenKind?, token?_uncommented]

@[simp] theorem isComposite_uncommented : tree.uncommented.isComposite = tree.isComposite := by
  simp only [isComposite, isError_uncommented, kind_uncommented]

@[simp] theorem line_uncommented : tree.uncommented.line = tree.line := by
  induction tree using Tree.line.induct with
  | case1 => rfl
  | case2 kind anchor extent comments child rest ih =>
    rw [uncommented_node, List.map_cons, line, line, ih]
  | case3 => rfl

@[simp] theorem column_uncommented : tree.uncommented.column = tree.column := by
  induction tree using Tree.column.induct with
  | case1 => rfl
  | case2 kind anchor extent comments child rest ih =>
    rw [uncommented_node, List.map_cons, column, column, ih]
  | case3 => rfl

omit tree in
mutual

@[simp] theorem lastLine_uncommented : (tree : Tree) → tree.uncommented.lastLine = tree.lastLine
  | .node kind anchor extent comments children => by
    rw [uncommented_node, lastLine, lastLine, lastLineOf_uncommented anchor.line children]
  | .error region comments => rfl

theorem lastLineOf_uncommented (line : Nat) :
    (trees : List Tree) → lastLineOf line (trees.map uncommented) = lastLineOf line trees
  | [] => rfl
  | tree :: rest => by
    rw [List.map_cons, lastLineOf, lastLineOf, lastLine_uncommented tree,
      lastLineOf_uncommented tree.lastLine rest]

end

/-! ### What is read off the nodes directly below -/

@[simp] theorem nodes_uncommented : tree.uncommented.nodes = tree.nodes.map uncommented := by
  simp only [nodes, children_uncommented, List.filter_map, Function.comp_def,
    isComposite_uncommented]

@[simp] theorem childTokens_uncommented : tree.uncommented.childTokens = tree.childTokens := by
  simp only [childTokens, children_uncommented, List.filterMap_map, Function.comp_def,
    token?_uncommented]

@[simp] theorem childOfKind?_uncommented (kind : NodeKind) :
    tree.uncommented.childOfKind? kind = (tree.childOfKind? kind).map uncommented := by
  simp only [childOfKind?, children_uncommented, List.find?_map, Function.comp_def,
    kind_uncommented]

@[simp] theorem childrenOfKind_uncommented (kind : NodeKind) :
    tree.uncommented.childrenOfKind kind = (tree.childrenOfKind kind).map uncommented := by
  simp only [childrenOfKind, children_uncommented, List.filter_map, Function.comp_def,
    kind_uncommented]

@[simp] theorem childToken?_uncommented (kind : TokenKind) :
    tree.uncommented.childToken? kind = tree.childToken? kind := by
  simp only [childToken?, childTokens_uncommented]

@[simp] theorem hasChildToken_uncommented (kind : TokenKind) :
    tree.uncommented.hasChildToken kind = tree.hasChildToken kind := by
  simp only [hasChildToken, childToken?_uncommented]

@[simp] theorem identifiers_uncommented : tree.uncommented.identifiers = tree.identifiers := by
  simp only [identifiers, childTokens_uncommented]

@[simp] theorem qualifiedName?_uncommented :
    tree.uncommented.qualifiedName? = tree.qualifiedName? := by
  simp only [qualifiedName?, childOfKind?_uncommented, Option.map_map, Function.comp_def,
    identifiers_uncommented]

@[simp] theorem declaredName?_uncommented :
    tree.uncommented.declaredName? = tree.declaredName? := by
  simp only [declaredName?, childToken?_uncommented]

@[simp] theorem typeParameterNames_uncommented :
    tree.uncommented.typeParameterNames = tree.typeParameterNames := by
  simp only [typeParameterNames, childrenOfKind_uncommented, List.filterMap_map, Function.comp_def,
    declaredName?_uncommented]

@[simp] theorem declaredModifiers_uncommented :
    tree.uncommented.declaredModifiers = tree.declaredModifiers := by
  unfold declaredModifiers
  rw [childOfKind?_uncommented]
  cases tree.childOfKind? .modifiers with
  | none => rfl
  | some list => simp only [Option.map_some, childTokens_uncommented]

@[simp] theorem annotationUses_uncommented :
    tree.uncommented.annotationUses = tree.annotationUses.map uncommented := by
  unfold annotationUses
  rw [childOfKind?_uncommented]
  cases tree.childOfKind? .modifiers with
  | none => rfl
  | some list => simp only [Option.map_some, childrenOfKind_uncommented]

@[simp] theorem bracketCount_uncommented :
    tree.uncommented.bracketCount = tree.bracketCount := by
  simp only [bracketCount, childTokens_uncommented]

end Tree

/-! ### Parsing -/

/-- The tree without comments does not depend on which tokens are collected and on whether comments
are attached. -/
theorem uncommented_parseSource (text : String) (options : ParseOptions) :
    (parseSource text options).root.uncommented = (bareTree text).uncommented := by
  unfold parseSource
  dsimp only
  split
  · exact Tree.uncommented_attachWith ..
  · rfl

/-- Neither do the faults. -/
theorem errors_parseSource (text : String) (options options' : ParseOptions) :
    (parseSource text options).errors = (parseSource text options').errors := rfl

end JavaGraph
