import JavaGraph.Proofs.Tree.Measured
import JavaGraph.Proofs.Tree.Shape
/-!
# Delimiters

Parentheses, brackets and braces are properly nested if each closing one closes the last one that is
still open. Whether they are is found by going through the tokens with a stack of the kinds that are
to come.

The arguments of an annotation are kept as the tokens they are, so they are left out. In a tree in
which the delimiters directly below every node are properly nested, those of the whole tree are, and
a delimiter and its partner are children of one node.
-/

namespace JavaGraph

namespace TokenKind

/-- The kind of the tokens that close a delimiter. -/
def closing? : TokenKind → Option TokenKind
  | .lParen => some .rParen
  | .lBracket => some .rBracket
  | .lBrace => some .rBrace
  | _ => none

/-- Whether a token closes a delimiter. -/
def isClosing : TokenKind → Bool
  | .rParen | .rBracket | .rBrace => true
  | _ => false

/-- Whether a token is neither a delimiter nor unknown. -/
def isOrdinary (kind : TokenKind) : Bool :=
  kind.closing?.isNone && !kind.isClosing && kind != .unknown

/-- What closes a delimiter opens none. -/
theorem isClosing_of_closing? {kind closing : TokenKind} (h : kind.closing? = some closing) :
    closing.isClosing = true ∧ closing.closing? = none := by
  cases kind <;> cases h <;> exact ⟨rfl, rfl⟩

theorem closing?_of_isClosing {kind : TokenKind} (h : kind.isClosing = true) :
    kind.closing? = none := by
  cases kind <;> first | rfl | cases h

theorem isOrdinary_iff {kind : TokenKind} :
    kind.isOrdinary = true ↔ kind.closing? = none ∧ kind.isClosing = false ∧ kind ≠ .unknown := by
  simp [isOrdinary, and_assoc]

end TokenKind

/-! ### Properly nested tokens -/

/-- The delimiters among some tokens are properly nested. -/
inductive Nested : List Token → Prop
  | nil : Nested []
  | other {token : Token} {rest : List Token} (ho : token.kind.closing? = none)
    (hc : token.kind.isClosing = false) (h : Nested rest) : Nested (token :: rest)
  | pair {opening closing : Token} {inner rest : List Token}
    (hp : opening.kind.closing? = some closing.kind) (hi : Nested inner) (hr : Nested rest) :
    Nested (opening :: inner ++ closing :: rest)

/-- The kinds to come behind a token, innermost first, where `stack` are to come before it. -/
def TokenKind.settle? (kind : TokenKind) (stack : List TokenKind) : Option (List TokenKind) :=
  match kind.closing? with
  | some closing => some (closing :: stack)
  | none =>
    if kind.isClosing then
      match stack with
      | [] => none
      | top :: stack => if kind = top then some stack else none
    else some stack

/-- The kinds to come behind some tokens, where `stack` are to come before them. -/
def settle? (stack : List TokenKind) (tokens : List Token) : Option (List TokenKind) :=
  tokens.foldlM (fun stack token => token.kind.settle? stack) stack

variable {stack : List TokenKind} {tokens rest : List Token} {token : Token}

@[simp] theorem settle?_nil (stack : List TokenKind) : settle? stack [] = some stack := rfl

theorem settle?_append (stack : List TokenKind) (tokens rest : List Token) :
    settle? stack (tokens ++ rest) = (settle? stack tokens).bind (settle? · rest) :=
  List.foldlM_append

theorem settle?_cons (stack : List TokenKind) (token : Token) (rest : List Token) :
    settle? stack (token :: rest) = (token.kind.settle? stack).bind (settle? · rest) :=
  List.foldlM_cons

theorem settle?_opening {closing : TokenKind} (h : token.kind.closing? = some closing) :
    settle? stack (token :: rest) = settle? (closing :: stack) rest := by
  simp [settle?_cons, TokenKind.settle?, h]

theorem settle?_closing (h : token.kind.isClosing = true) :
    settle? (token.kind :: stack) (token :: rest) = settle? stack rest := by
  simp [settle?_cons, TokenKind.settle?, TokenKind.closing?_of_isClosing h, h]

theorem settle?_closing_nil (h : token.kind.isClosing = true) :
    settle? [] (token :: rest) = none := by
  simp [settle?_cons, TokenKind.settle?, TokenKind.closing?_of_isClosing h, h]

theorem settle?_other (ho : token.kind.closing? = none) (hc : token.kind.isClosing = false) :
    settle? stack (token :: rest) = settle? stack rest := by
  simp [settle?_cons, TokenKind.settle?, ho, hc]

/-- What is to come far behind stays to come behind a token. -/
theorem TokenKind.settle?_frame {kind : TokenKind} {after : List TokenKind}
    (h : kind.settle? stack = some after) (below : List TokenKind) :
    kind.settle? (stack ++ below) = some (after ++ below) := by
  cases ho : kind.closing? with
  | some closing =>
    simp only [TokenKind.settle?, ho, Option.some.injEq] at h ⊢
    rw [← h, List.cons_append]
  | none =>
    by_cases hc : kind.isClosing = true
    · cases stack with
      | nil => simp [TokenKind.settle?, ho, hc] at h
      | cons top stack =>
        by_cases ht : kind = top
        · simp_all [TokenKind.settle?]
        · simp [TokenKind.settle?, ho, hc, ht] at h
    · simp only [TokenKind.settle?, ho, hc, Bool.false_eq_true, if_false, Option.some.injEq] at h ⊢
      rw [h]

/-- What is to come far behind stays to come. -/
theorem settle?_frame {after : List TokenKind} (h : settle? stack tokens = some after)
    (below : List TokenKind) : settle? (stack ++ below) tokens = some (after ++ below) := by
  induction tokens generalizing stack with
  | nil =>
    cases h
    rfl
  | cons token rest ih =>
    rw [settle?_cons] at h ⊢
    obtain ⟨middle, hm, hrest⟩ := Option.bind_eq_some_iff.1 h
    rw [TokenKind.settle?_frame hm, Option.bind_some, ih hrest]

/-- Properly nested tokens leave to come what was to come. -/
theorem Nested.settle? (h : Nested tokens) (stack : List TokenKind) :
    settle? stack tokens = some stack := by
  induction h generalizing stack with
  | nil => rfl
  | other ho hc h ih => rw [settle?_other ho hc, ih]
  | @pair opening closing inner rest hp hi hr ihi ihr =>
    have hclosing := (TokenKind.isClosing_of_closing? hp).1
    rw [List.cons_append, settle?_opening hp, settle?_append, ihi, Option.bind_some,
      settle?_closing hclosing, ihr]

theorem Nested.append {inner : List Token} (hi : Nested inner) (hr : Nested rest) :
    Nested (inner ++ rest) := by
  induction hi with
  | nil => exact hr
  | other ho hc h ih => exact .other ho hc ih
  | pair hp hi hr' ihi ihr =>
    rw [List.append_assoc, List.cons_append]
    exact .pair hp hi ihr

/-- Properly nested tokens with the kinds to come one by one behind them. -/
def Unwinds : List TokenKind → List Token → Prop
  | [], tokens => Nested tokens
  | kind :: stack, tokens => ∃ inner closing rest, tokens = inner ++ closing :: rest ∧
      closing.kind = kind ∧ Nested inner ∧ Unwinds stack rest

theorem Unwinds.prepend {inner : List Token} (hi : Nested inner) (h : Unwinds stack rest) :
    Unwinds stack (inner ++ rest) := by
  cases stack with
  | nil => exact hi.append h
  | cons kind stack =>
    obtain ⟨middle, closing, behind, rfl, hk, hm, hb⟩ := h
    exact ⟨inner ++ middle, closing, behind, (List.append_assoc ..).symm, hk, hi.append hm, hb⟩

/-- What was to come has come, if nothing is to come in the end. -/
theorem unwinds_of_settle? (h : settle? stack tokens = some []) : Unwinds stack tokens := by
  induction tokens generalizing stack with
  | nil =>
    cases h
    exact .nil
  | cons token rest ih =>
    cases ho : token.kind.closing? with
    | some closing =>
      rw [settle?_opening ho] at h
      obtain ⟨inner, other, behind, rfl, rfl, hi, hb⟩ := ih h
      have hpair := hb.prepend (Nested.pair ho hi .nil)
      rwa [List.append_assoc] at hpair
    | none =>
      by_cases hc : token.kind.isClosing = true
      · cases stack with
        | nil =>
          rw [settle?_closing_nil hc] at h
          cases h
        | cons top stack =>
          have htop : token.kind = top := by
            by_contra hne
            rw [settle?_cons, TokenKind.settle?, ho] at h
            simp [hc, hne] at h
          subst htop
          rw [settle?_closing hc] at h
          exact ⟨[], token, rest, rfl, rfl, .nil, ih h⟩
      · have hc := Bool.eq_false_iff.2 hc
        rw [settle?_other ho hc] at h
        exact (ih h).prepend (Nested.other ho hc .nil)

/-- Delimiters are properly nested if nothing is to come behind them. -/
theorem nested_iff : Nested tokens ↔ settle? [] tokens = some [] :=
  ⟨fun h => h.settle? [], unwinds_of_settle?⟩

instance (tokens : List Token) : Decidable (Nested tokens) :=
  decidable_of_iff _ nested_iff.symm

theorem nested_of_ordinary (h : ∀ token ∈ tokens, token.kind.isOrdinary = true) :
    Nested tokens := by
  induction tokens with
  | nil => exact .nil
  | cons token rest ih =>
    rw [List.forall_mem_cons] at h
    obtain ⟨ho, hc, -⟩ := TokenKind.isOrdinary_iff.1 h.1
    exact .other ho hc (ih h.2)

/-! ### Partners -/

/-- An opening delimiter has a partner behind it. -/
theorem Nested.exists_closing {before : List Token} {opening : Token} {kind : TokenKind}
    (h : Nested (before ++ opening :: rest)) (ho : opening.kind.closing? = some kind) :
    ∃ inner closing after, rest = inner ++ closing :: after ∧ closing.kind = kind ∧
      Nested inner := by
  have hsettle := h.settle? []
  rw [settle?_append] at hsettle
  obtain ⟨stack, -, hrest⟩ := Option.bind_eq_some_iff.1 hsettle
  rw [settle?_opening ho] at hrest
  obtain ⟨inner, closing, after, he, hk, hi, -⟩ := unwinds_of_settle? hrest
  exact ⟨inner, closing, after, he, hk, hi⟩

/-- A delimiter has one partner only. -/
theorem Nested.closing_unique {inner inner' after after' : List Token} {closing closing' : Token}
    (hi : Nested inner) (hi' : Nested inner') (hc : closing.kind.isClosing = true)
    (hc' : closing'.kind.isClosing = true)
    (h : inner ++ closing :: after = inner' ++ closing' :: after') :
    inner = inner' ∧ closing = closing' := by
  -- The longer one of the two would have a closing delimiter too many.
  have hlonger {inner rest : List Token} {closing : Token} (hi : Nested inner)
      (hc : closing.kind.isClosing = true) : ¬ Nested (inner ++ closing :: rest) := by
    intro hn
    have hsettle := hn.settle? []
    rw [settle?_append, hi.settle?, Option.bind_some, settle?_closing_nil hc] at hsettle
    cases hsettle
  rcases List.append_eq_append_iff.1 h with ⟨more, rfl, he⟩ | ⟨more, rfl, he⟩
  · cases more with
    | nil =>
      cases he
      exact ⟨(List.append_nil _).symm, rfl⟩
    | cons first more =>
      cases he
      exact absurd hi' (hlonger hi hc)
  · cases more with
    | nil =>
      cases he
      exact ⟨List.append_nil _, rfl⟩
    | cons first more =>
      cases he
      exact absurd hi (hlonger hi' hc')

/-! ### Missing braces -/

/-- The delimiters of `stack` are to come behind some tokens. In front of them braces may be missing
if the tokens are all that there is of a `short` text. -/
def LeftOpen (short : Prop) (stack : List TokenKind) (tokens : List Token) : Prop :=
  ∃ missing, settle? [] tokens = some (missing ++ stack) ∧ ∀ kind ∈ missing, short ∧ kind = .rBrace

theorem LeftOpen.mono {short short' : Prop} (h : LeftOpen short stack tokens)
    (hs : short → short') : LeftOpen short' stack tokens := by
  obtain ⟨missing, hm, hbraces⟩ := h
  exact ⟨missing, hm, fun kind hk => (hbraces kind hk).imp_left hs⟩

theorem leftOpen_of_settle? {short : Prop} (h : settle? [] tokens = some stack) :
    LeftOpen short stack tokens :=
  ⟨[], h, nofun⟩

/-- Nothing is missing in a text that is not short. -/
theorem LeftOpen.settle? {short : Prop} (h : LeftOpen short stack tokens) (hs : ¬ short) :
    settle? [] tokens = some stack := by
  obtain ⟨missing, hm, hbraces⟩ := h
  cases missing with
  | nil => exact hm
  | cons kind missing => exact absurd (hbraces kind (List.mem_cons_self ..)).1 hs

/-- What leaves nothing open but missing braces adds only these to what was open before. -/
theorem LeftOpen.append {short : Prop} (h : LeftOpen short stack tokens)
    (hr : LeftOpen short [] rest) : LeftOpen short stack (tokens ++ rest) := by
  obtain ⟨missing, hm, hbraces⟩ := h
  obtain ⟨more, hmore, hbraces'⟩ := hr
  rw [List.append_nil] at hmore
  refine ⟨more ++ missing, ?_, List.forall_mem_append.2 ⟨hbraces', hbraces⟩⟩
  rw [settle?_append, hm, Option.bind_some, List.append_assoc]
  exact settle?_frame hmore _

/-- A brace that is to come may be missing. -/
theorem LeftOpen.missing {short : Prop} (h : LeftOpen short (.rBrace :: stack) tokens)
    (hs : short) : LeftOpen short stack tokens := by
  obtain ⟨missing, hm, hbraces⟩ := h
  refine ⟨missing ++ [.rBrace], by rw [hm, List.append_assoc, List.singleton_append], ?_⟩
  exact List.forall_mem_append.2 ⟨hbraces, List.forall_mem_singleton.2 ⟨hs, rfl⟩⟩

namespace Tree

/-! ### The delimiters of a tree -/

mutual

/-- The tokens below a node from left to right, without the arguments of annotations. -/
def outside : Tree → List Token
  | .node kind anchor _ _ children =>
    if kind = .token then [anchor] else if kind = .annotationArgs then [] else outsideOf children
  | .error region _ => region.skipped

/-- The tokens below some nodes from left to right, without the arguments of annotations. -/
def outsideOf : List Tree → List Token
  | [] => []
  | child :: rest => child.outside ++ outsideOf rest

end

/-- The delimiters of a tree are properly nested, and each of them and its partner are children of
one node. Every token is known, and nothing has been skipped. -/
structure WellBracketed (tree : Tree) : Prop where
  nested : Nested tree.outside
  partners : ∀ before opening inner closing after,
    tree.outside = before ++ (opening :: inner ++ closing :: after) →
      opening.kind.closing? = some closing.kind → Nested inner →
      ∃ node ∈ tree.descendants, node.kind ≠ .annotationArgs ∧ opening ∈ node.childTokens ∧
        closing ∈ node.childTokens
  known : ∀ token ∈ tree.outside, token.kind ≠ .unknown
  whole : ∀ node ∈ tree.descendants, node.isError = false

/-- The names of a tree consist of tokens that are neither delimiters nor unknown. -/
def Named (tree : Tree) : Prop :=
  ∀ node ∈ tree.descendants, node.kind = .qualifiedName →
    ∀ token ∈ node.childTokens, token.kind.isOrdinary = true

instance (tree : Tree) : Decidable tree.Named := by
  unfold Named
  infer_instance

/-- Nothing has been skipped, and the delimiters directly below every node are properly nested. -/
def Settled (tree : Tree) : Prop :=
  ∀ node ∈ tree.descendants, node.isError = false ∧ (node.kind ≠ .annotationArgs →
    Nested node.childTokens ∧ ∀ token ∈ node.childTokens, token.kind ≠ .unknown)

variable {tree : Tree}

theorem outsideOf_append (before after : List Tree) :
    outsideOf (before ++ after) = outsideOf before ++ outsideOf after := by
  induction before with
  | nil => rfl
  | cons child rest ih => rw [List.cons_append, outsideOf, outsideOf, ih, List.append_assoc]

theorem outside_of_token? {token : Token} (h : tree.token? = some token) :
    tree.outside = [token] := by
  unfold token? at h
  split at h
  · cases h
    rw [outside, if_pos rfl]
  · cases h

/-- A composite node that is no list of arguments has the tokens of its children. -/
theorem outside_of_composite {kind : NodeKind} {anchor : Token} {extent : Option Extent}
    {comments : Comments} {children : List Tree} (hk : kind ≠ .token)
    (ha : kind ≠ .annotationArgs) :
    (node kind anchor extent comments children).outside = outsideOf children := by
  rw [outside, if_neg hk, if_neg ha]

theorem Settled.of_mem (h : tree.Settled) {child : Tree} (hc : child ∈ tree.children) :
    child.Settled := by
  intro node hn
  refine h node ?_
  cases tree with
  | node kind anchor extent comments children =>
    rw [descendants]
    exact List.mem_cons_of_mem _ (mem_descendantsOf.2 ⟨child, hc, hn⟩)
  | error region comments => cases hc

/-- Nodes whose delimiters are properly nested do not matter for those around them. -/
theorem settle?_outsideOf {children : List Tree}
    (h : ∀ child ∈ children, child.token? = none → Nested child.outside)
    (stack : List TokenKind) :
    settle? stack (outsideOf children) = settle? stack (children.filterMap token?) := by
  induction children generalizing stack with
  | nil => rfl
  | cons child rest ih =>
    rw [List.forall_mem_cons] at h
    cases hchild : child.token? with
    | none =>
      rw [outsideOf, settle?_append, (h.1 hchild).settle?, Option.bind_some,
        List.filterMap_cons_none hchild, ih h.2]
    | some token =>
      rw [outsideOf, outside_of_token? hchild, List.filterMap_cons_some hchild, List.singleton_append,
        settle?_cons, settle?_cons]
      congr 1
      funext stack
      exact ih h.2 stack

theorem nested_outsideOf {children : List Tree}
    (h : ∀ child ∈ children, child.token? = none → Nested child.outside)
    (hn : Nested (children.filterMap token?)) : Nested (outsideOf children) := by
  rw [nested_iff, settle?_outsideOf h, ← nested_iff]
  exact hn

/-- What is between two leaves is properly nested if the leaves between them are. -/
theorem exists_sibling {children : List Tree}
    (h : ∀ child ∈ children, child.token? = none → Nested child.outside)
    {inner after : List Token} {token : Token}
    (he : children.filterMap token? = inner ++ token :: after) (hi : Nested inner) :
    ∃ between behind, outsideOf children = between ++ token :: behind ∧ Nested between := by
  obtain ⟨near, far, rfl, hnear, hfar⟩ := List.filterMap_eq_append_iff.1 he
  obtain ⟨between, leaf, others, rfl, hnone, hleaf, -⟩ := List.filterMap_eq_cons_iff.1 hfar
  refine ⟨outsideOf (near ++ between), outsideOf others, ?_, nested_outsideOf ?_ ?_⟩
  · rw [← List.append_assoc, outsideOf_append, outsideOf, outside_of_token? hleaf,
      List.singleton_append]
  · intro child hc
    refine h child ?_
    rw [← List.append_assoc]
    exact List.mem_append_left _ hc
  · rw [List.filterMap_append, hnear, List.filterMap_eq_nil_iff.2 hnone, List.append_nil]
    exact hi

/-- The delimiters of the whole tree are properly nested. -/
theorem Settled.nested_outside {tree : Tree} (h : tree.Settled) (hk : tree.token? = none) :
    Nested tree.outside := by
  cases tree with
  | error region comments => cases (h _ (mem_descendants_self _)).1
  | node kind anchor extent comments children =>
    by_cases ha : kind = .annotationArgs
    · subst ha
      rw [outside, if_neg (by decide), if_pos rfl]
      exact .nil
    have htoken : kind ≠ .token := by
      rintro rfl
      cases hk
    have hchildren : ∀ child ∈ children, child.token? = none → Nested child.outside :=
      fun child hc hnone => (h.of_mem hc).nested_outside hnone
    rw [outside_of_composite htoken ha]
    exact nested_outsideOf hchildren ((h _ (mem_descendants_self _)).2 ha).1
termination_by sizeOf tree
decreasing_by
  have hsize := List.sizeOf_lt_of_mem hc
  subst_vars
  rw [Tree.node.sizeOf_spec]
  omega

/-- A token of some nodes is a token of one of them. -/
theorem exists_of_outsideOf {children : List Tree} {before rest : List Token} {token : Token}
    (h : outsideOf children = before ++ token :: rest) :
    ∃ left child right inner behind, children = left ++ child :: right ∧
      child.outside = inner ++ token :: behind ∧ before = outsideOf left ++ inner ∧
      rest = behind ++ outsideOf right := by
  induction children generalizing before with
  | nil => simp [outsideOf] at h
  | cons child others ih =>
    rw [outsideOf] at h
    rcases List.append_eq_append_iff.1 h with ⟨more, rfl, he⟩ | ⟨more, ho, he⟩
    · obtain ⟨left, other, right, inner, behind, rfl, hother, rfl, rfl⟩ := ih he
      exact ⟨child :: left, other, right, inner, behind, rfl, hother, by simp [outsideOf], rfl⟩
    · cases more with
      | nil =>
        have hothers : outsideOf others = [] ++ token :: rest := he.symm
        obtain ⟨left, other, right, inner, behind, rfl, hother, hnil, rfl⟩ := ih hothers
        refine ⟨child :: left, other, right, inner, behind, rfl, hother, ?_, rfl⟩
        rw [outsideOf, List.append_assoc, ← hnil, ho, List.append_nil, List.append_nil]
      | cons first more =>
        cases he
        exact ⟨[], child, others, before, more, rfl, ho, rfl, rfl⟩

/-- A token that no list of arguments has is directly below some node. -/
theorem Settled.exists_of_mem {tree : Tree} (h : tree.Settled) (hk : tree.token? = none)
    {token : Token} (hm : token ∈ tree.outside) :
    ∃ node ∈ tree.descendants, node.kind ≠ .annotationArgs ∧ token ∈ node.childTokens := by
  cases tree with
  | error region comments => cases (h _ (mem_descendants_self _)).1
  | node kind anchor extent comments children =>
    have htoken : kind ≠ .token := by
      rintro rfl
      cases hk
    by_cases ha : kind = .annotationArgs
    · rw [outside, if_neg htoken, if_pos ha] at hm
      cases hm
    obtain ⟨before, rest, he⟩ := List.append_of_mem hm
    rw [outside_of_composite htoken ha] at he
    obtain ⟨left, child, right, inner, behind, rfl, hchild, -, -⟩ := exists_of_outsideOf he
    have hc : child ∈ left ++ child :: right := List.mem_append_right _ (List.mem_cons_self ..)
    cases hleaf : child.token? with
    | some other =>
      rw [outside_of_token? hleaf] at hchild
      obtain rfl : token = other :=
        List.mem_singleton.1 (hchild ▸ List.mem_append_right _ (List.mem_cons_self ..))
      exact ⟨_, mem_descendants_self _, ha, List.mem_filterMap.2 ⟨child, hc, hleaf⟩⟩
    | none =>
      have hbelow : token ∈ child.outside :=
        hchild ▸ List.mem_append_right _ (List.mem_cons_self ..)
      obtain ⟨node, hn, hnode⟩ := (h.of_mem hc).exists_of_mem hleaf hbelow
      refine ⟨node, ?_, hnode⟩
      rw [descendants]
      exact List.mem_cons_of_mem _ (mem_descendantsOf.2 ⟨child, hc, hn⟩)
termination_by sizeOf tree
decreasing_by
  have hsize := List.sizeOf_lt_of_mem hc
  subst_vars
  rw [Tree.node.sizeOf_spec]
  omega

/-- A delimiter and its partner are directly below one node. -/
theorem Settled.exists_partners {tree : Tree} (h : tree.Settled) (hk : tree.token? = none)
    {before inner after : List Token} {opening closing : Token}
    (he : tree.outside = before ++ (opening :: inner ++ closing :: after))
    (ho : opening.kind.closing? = some closing.kind) (hi : Nested inner) :
    ∃ node ∈ tree.descendants, node.kind ≠ .annotationArgs ∧ opening ∈ node.childTokens ∧
      closing ∈ node.childTokens := by
  have hclosing := (TokenKind.isClosing_of_closing? ho).1
  cases tree with
  | error region comments => cases (h _ (mem_descendants_self _)).1
  | node kind anchor extent comments children =>
    have htoken : kind ≠ .token := by
      rintro rfl
      cases hk
    by_cases ha : kind = .annotationArgs
    · rw [outside, if_neg htoken, if_pos ha] at he
      simp at he
    rw [outside_of_composite htoken ha, List.cons_append] at he
    obtain ⟨left, child, right, first, behind, rfl, hchild, rfl, hbehind⟩ :=
      exists_of_outsideOf he
    have hc : child ∈ left ++ child :: right := List.mem_append_right _ (List.mem_cons_self ..)
    cases hleaf : child.token? with
    | some token =>
      -- The partner of a leaf is a leaf among its siblings.
      rw [outside_of_token? hleaf] at hchild
      obtain ⟨rfl, rfl, rfl⟩ : first = [] ∧ token = opening ∧ behind = [] := by
        cases first <;> simp_all
      have hnested := ((h _ (mem_descendants_self _)).2 ha).1
      change Nested ((left ++ child :: right).filterMap token?) at hnested
      rw [List.filterMap_append, List.filterMap_cons_some hleaf] at hnested
      obtain ⟨middle, other, rest, hright, hother, hmiddle⟩ := hnested.exists_closing ho
      have hright' : ∀ child ∈ right, child.token? = none → Nested child.outside :=
        fun child hm hnone => (h.of_mem (List.mem_append_right _
          (List.mem_cons_of_mem _ hm))).nested_outside hnone
      obtain ⟨between, behind, houtside, hbetween⟩ := exists_sibling hright' hright hmiddle
      rw [houtside, List.nil_append] at hbehind
      obtain ⟨rfl, rfl⟩ := Nested.closing_unique hi hbetween hclosing (hother ▸ hclosing) hbehind
      refine ⟨_, mem_descendants_self _, ha, List.mem_filterMap.2 ⟨child, hc, hleaf⟩, ?_⟩
      have hm : closing ∈ right.filterMap token? :=
        hright ▸ List.mem_append_right _ (List.mem_cons_self ..)
      obtain ⟨partner, hp, hpartner⟩ := List.mem_filterMap.1 hm
      exact List.mem_filterMap.2
        ⟨partner, List.mem_append_right _ (List.mem_cons_of_mem _ hp), hpartner⟩
    | none =>
      have hnested := (h.of_mem hc).nested_outside hleaf
      rw [hchild] at hnested
      obtain ⟨middle, other, rest, rfl, hother, hmiddle⟩ := hnested.exists_closing ho
      rw [List.append_assoc, List.cons_append] at hbehind
      obtain ⟨rfl, rfl⟩ := Nested.closing_unique hi hmiddle hclosing
        (hother ▸ hclosing) hbehind
      obtain ⟨node, hn, hnode⟩ := (h.of_mem hc).exists_partners hleaf hchild ho hi
      refine ⟨node, ?_, hnode⟩
      rw [descendants]
      exact List.mem_cons_of_mem _ (mem_descendantsOf.2 ⟨child, hc, hn⟩)
termination_by sizeOf tree
decreasing_by
  have hsize := List.sizeOf_lt_of_mem hc
  subst_vars
  rw [Tree.node.sizeOf_spec]
  omega

/-- A tree is well bracketed if the delimiters directly below every node are properly nested. -/
theorem Settled.wellBracketed (h : tree.Settled) (hk : tree.token? = none) :
    tree.WellBracketed where
  nested := h.nested_outside hk
  partners _ _ _ _ _ he ho hi := h.exists_partners hk he ho hi
  known token hm := by
    obtain ⟨node, hn, ha, ht⟩ := h.exists_of_mem hk hm
    exact ((h node hn).2 ha).2 token ht
  whole node hn := (h node hn).1

/-! ### Names -/

/-- What a node has directly below it is known and properly nested, if it is no list of arguments
and no name. Braces may be missing in a `short` text. -/
def Regular (short : Prop) (node : Tree) : Prop :=
  node.kind ≠ .annotationArgs → node.kind ≠ .qualifiedName →
    LeftOpen short [] node.childTokens ∧ ∀ token ∈ node.childTokens, token.kind ≠ .unknown

/-- Every node is regular. -/
def Bracketed (short : Prop) (tree : Tree) : Prop :=
  ∀ node ∈ tree.descendants, node.Regular short

variable {short short' : Prop}

theorem Bracketed.mono (h : tree.Bracketed short) (hs : short → short') : tree.Bracketed short' :=
  fun node hn ha hk => (h node hn ha hk).imp_left (·.mono hs)

theorem bracketed_node {kind : NodeKind} {anchor : Token} {extent : Option Extent}
    {comments : Comments} {children : List Tree} :
    (node kind anchor extent comments children).Bracketed short ↔
      (node kind anchor extent comments children).Regular short ∧
        ∀ child ∈ children, child.Bracketed short := by
  unfold Bracketed
  rw [descendants]
  simp only [List.forall_mem_cons, mem_descendantsOf, forall_exists_index, and_imp]
  exact and_congr_right' ⟨fun h child hc node hn => h node child hc hn,
    fun h node child hc hn => h child hc node hn⟩

theorem bracketed_leaf (token : Token) : (leaf token).Bracketed short :=
  bracketed_node.2 ⟨fun _ _ => ⟨leftOpen_of_settle? rfl, nofun⟩, nofun⟩

/-- What has been skipped has no children. -/
theorem bracketed_errorNode? {source : String} {region : List Token} {error : ParseError}
    {node : Tree} (h : errorNode? source region error = some node) : node.Bracketed short := by
  unfold errorNode? at h
  split at h
  · cases h
    intro node hn
    rw [descendants, List.mem_singleton] at hn
    subst hn
    exact fun _ _ => ⟨leftOpen_of_settle? rfl, nofun⟩
  · cases h

/-- Where nothing is missing or skipped and names are ordinary, all delimiters are properly nested. -/
theorem Bracketed.settled (h : tree.Bracketed False)
    (he : ∀ node ∈ tree.descendants, node.isError = false) (hn : tree.Named) : tree.Settled := by
  intro node hm
  refine ⟨he node hm, fun ha => ?_⟩
  by_cases hk : node.kind = .qualifiedName
  · have hordinary := hn node hm hk
    exact ⟨nested_of_ordinary hordinary, fun token ht =>
      (TokenKind.isOrdinary_iff.1 (hordinary token ht)).2.2⟩
  · exact (h node hm ha hk).imp_left fun hopen => nested_iff.2 (hopen.settle? id)

end Tree

end JavaGraph
