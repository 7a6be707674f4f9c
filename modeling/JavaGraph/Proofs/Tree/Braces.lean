import JavaGraph.Proofs.Tree.Brackets
/-!
# Braces

How many braces are open behind some tokens is found by counting them, whatever stands between.

In a tree whose nodes are regular, the braces directly below every node are properly nested. What an
error node stands for, the arguments of an annotation and a name are tokens taken as they come. If
their braces are properly nested as well, so are those of the whole tree, but for the ones that are
missing where the text ends.
-/

namespace JavaGraph

namespace TokenKind

/-- Whether a token is a brace. -/
def isBrace : TokenKind → Bool
  | .lBrace | .rBrace => true
  | _ => false

/-- How many braces are open behind a token that has `depth` open before it. -/
def braceDepth? : TokenKind → (depth : Nat) → Option Nat
  | .lBrace, depth => some (depth + 1)
  | .rBrace, 0 => none
  | .rBrace, depth + 1 => some depth
  | _, depth => some depth

theorem braceDepth?_other {kind : TokenKind} (h : kind.isBrace = false) (depth : Nat) :
    kind.braceDepth? depth = some depth := by
  unfold isBrace at h
  unfold braceDepth?
  split at h <;> simp_all

/-- Open braces further out make no difference. -/
theorem braceDepth?_add {kind : TokenKind} {depth after : Nat}
    (h : kind.braceDepth? depth = some after) (outer : Nat) :
    kind.braceDepth? (depth + outer) = some (after + outer) := by
  cases hk : kind.isBrace with
  | false =>
    rw [braceDepth?_other hk, Option.some.injEq] at h ⊢
    rw [h]
  | true =>
    obtain rfl | rfl : kind = .lBrace ∨ kind = .rBrace := by
      unfold isBrace at hk
      split at hk <;> simp_all
    · simp only [braceDepth?, Option.some.injEq] at h ⊢
      omega
    · cases depth with
      | zero => cases h
      | succ depth =>
        cases h
        rw [Nat.add_right_comm]
        rfl

/-- The braces that are open are those whose closing ones are to come. -/
theorem braceDepth?_of_settle? {kind : TokenKind} {stack after : List TokenKind}
    (h : kind.settle? stack = some after) :
    kind.braceDepth? (stack.count .rBrace) = some (after.count .rBrace) := by
  cases hk : kind.isBrace with
  | true =>
    obtain rfl | rfl : kind = .lBrace ∨ kind = .rBrace := by
      unfold isBrace at hk
      split at hk <;> simp_all
    · cases h
      rw [List.count_cons_self]
      rfl
    · cases stack with
      | nil => cases h
      | cons top stack =>
        obtain ⟨rfl, rfl⟩ : top = .rBrace ∧ stack = after := by
          simpa [settle?, closing?, isClosing, eq_comm] using h
        rw [List.count_cons_self]
        rfl
  | false =>
    rw [braceDepth?_other hk, Option.some.injEq]
    have hne : kind ≠ .rBrace := by
      rintro rfl
      cases hk
    cases ho : kind.closing? with
    | some closing =>
      have hclosing : closing ≠ .rBrace := by
        rintro rfl
        unfold closing? at ho
        split at ho <;> simp_all [isBrace]
      simp only [settle?, ho, Option.some.injEq] at h
      rw [← h, List.count_cons_of_ne hclosing]
    | none =>
      simp only [settle?, ho] at h
      split at h
      · split at h
        · cases h
        · next top stack =>
          split at h
          · next htop =>
            cases h
            rw [List.count_cons_of_ne (htop ▸ hne)]
          · cases h
      · rw [Option.some.inj h]

end TokenKind

/-- How many braces are open behind some tokens that have `depth` open before them. None of the
tokens may close a brace that is not open. -/
def braceDepth? (depth : Nat) (tokens : List Token) : Option Nat :=
  tokens.foldlM (fun depth token => token.kind.braceDepth? depth) depth

variable {depth after : Nat} {tokens rest : List Token} {token : Token}

@[simp] theorem braceDepth?_nil (depth : Nat) : braceDepth? depth [] = some depth := rfl

theorem braceDepth?_append (depth : Nat) (tokens rest : List Token) :
    braceDepth? depth (tokens ++ rest) = (braceDepth? depth tokens).bind (braceDepth? · rest) :=
  List.foldlM_append

theorem braceDepth?_cons (depth : Nat) (token : Token) (rest : List Token) :
    braceDepth? depth (token :: rest) = (token.kind.braceDepth? depth).bind (braceDepth? · rest) :=
  List.foldlM_cons

/-- Nothing closes a brace where none is open. -/
theorem braceDepth?_closing (h : token.kind = .rBrace) (rest : List Token) :
    braceDepth? 0 (token :: rest) = none := by
  rw [braceDepth?_cons, h]
  rfl

theorem braceDepth?_add (h : braceDepth? depth tokens = some after) (outer : Nat) :
    braceDepth? (depth + outer) tokens = some (after + outer) := by
  induction tokens generalizing depth with
  | nil =>
    cases h
    rfl
  | cons token rest ih =>
    rw [braceDepth?_cons] at h ⊢
    obtain ⟨middle, hm, hrest⟩ := Option.bind_eq_some_iff.1 h
    rw [TokenKind.braceDepth?_add hm, Option.bind_some, ih hrest]

/-- Only the braces count. -/
theorem braceDepth?_filter (depth : Nat) (tokens : List Token) :
    braceDepth? depth (tokens.filter (·.kind.isBrace)) = braceDepth? depth tokens := by
  induction tokens generalizing depth with
  | nil => rfl
  | cons token rest ih =>
    rw [braceDepth?_cons]
    cases hk : token.kind.isBrace with
    | false =>
      rw [List.filter_cons_of_neg (by simp [hk]), TokenKind.braceDepth?_other hk, ih]
      rfl
    | true =>
      rw [List.filter_cons_of_pos (by simp [hk]), braceDepth?_cons]
      congr 1
      funext depth
      exact ih depth

theorem braceDepth?_of_settle? {stack left : List TokenKind} (h : settle? stack tokens = some left) :
    braceDepth? (stack.count .rBrace) tokens = some (left.count .rBrace) := by
  induction tokens generalizing stack with
  | nil =>
    cases h
    rfl
  | cons token rest ih =>
    rw [settle?_cons] at h
    obtain ⟨middle, hm, hrest⟩ := Option.bind_eq_some_iff.1 h
    rw [braceDepth?_cons, TokenKind.braceDepth?_of_settle? hm, Option.bind_some, ih hrest]

/-- Properly nested braces leave as many open as there were. -/
theorem braceDepth?_of_nested (h : Nested (tokens.filter (·.kind.isBrace))) :
    braceDepth? 0 tokens = some 0 := by
  rw [← braceDepth?_filter]
  exact braceDepth?_of_settle? (nested_iff.1 h)

/-- A brace is closed at one place only. -/
theorem append_closing_inj {inner inner' after after' : List Token} {closing closing' : Token}
    (hi : braceDepth? 0 inner = some 0) (hi' : braceDepth? 0 inner' = some 0)
    (hc : closing.kind = .rBrace) (hc' : closing'.kind = .rBrace)
    (h : inner ++ closing :: after = inner' ++ closing' :: after') :
    inner = inner' ∧ closing = closing' ∧ after = after' := by
  -- The longer one of the two would close a brace that is not open.
  have hlonger {inner rest : List Token} {closing : Token} (hi : braceDepth? 0 inner = some 0)
      (hc : closing.kind = .rBrace) : braceDepth? 0 (inner ++ closing :: rest) = none := by
    rw [braceDepth?_append, hi, Option.bind_some, braceDepth?_closing hc]
  rcases List.append_eq_append_iff.1 h with ⟨more, rfl, he⟩ | ⟨more, rfl, he⟩
  · cases more with
    | nil =>
      cases he
      exact ⟨(List.append_nil _).symm, rfl, rfl⟩
    | cons first more =>
      cases he
      rw [hlonger hi hc] at hi'
      cases hi'
  · cases more with
    | nil =>
      cases he
      exact ⟨List.append_nil _, rfl, rfl⟩
    | cons first more =>
      cases he
      rw [hlonger hi' hc'] at hi
      cases hi

namespace Tree

/-- Whether what is below a node are tokens that have been taken as they come. -/
def isLoose (tree : Tree) : Bool :=
  tree.isError || tree.kind == .annotationArgs || tree.kind == .qualifiedName

/-- The braces among tokens that have been taken as they come are properly nested. -/
def KeepsBraces (tree : Tree) : Prop :=
  ∀ node ∈ tree.descendants, node.isLoose = true → Nested (node.tokens.filter (·.kind.isBrace))

instance (tree : Tree) : Decidable tree.KeepsBraces := by
  unfold KeepsBraces
  infer_instance

variable {tree : Tree} {short : Prop}

theorem KeepsBraces.of_mem (h : tree.KeepsBraces) {node : Tree} (hn : node ∈ tree.descendants) :
    node.KeepsBraces :=
  fun inner hi => h inner (mem_descendants_trans tree hn hi)

theorem tokens_of_token? (h : tree.token? = some token) : tree.tokens = [token] := by
  unfold token? at h
  split at h
  · cases h
    rw [tokens, if_pos rfl]
  · cases h

/-- The braces of some nodes are counted from those of the leaves among them. What the others leave
open comes on top of that. -/
theorem exists_braceDepth?_tokensOf {children : List Tree}
    (h : ∀ child ∈ children, child.token? = none →
      ∃ more, braceDepth? 0 child.tokens = some more ∧ (more ≠ 0 → short))
    (hd : braceDepth? depth (children.filterMap token?) = some after) :
    ∃ more, braceDepth? depth (tokensOf children) = some (after + more) ∧ (more ≠ 0 → short) := by
  induction children generalizing depth with
  | nil =>
    cases hd
    exact ⟨0, rfl, nofun⟩
  | cons child rest ih =>
    rw [List.forall_mem_cons] at h
    cases hchild : child.token? with
    | some token =>
      rw [List.filterMap_cons_some hchild, braceDepth?_cons] at hd
      obtain ⟨middle, hm, hrest⟩ := Option.bind_eq_some_iff.1 hd
      obtain ⟨more, hmore, hs⟩ := ih h.2 hrest
      refine ⟨more, ?_, hs⟩
      rw [tokensOf, tokens_of_token? hchild, List.singleton_append, braceDepth?_cons, hm,
        Option.bind_some, hmore]
    | none =>
      rw [List.filterMap_cons_none hchild] at hd
      obtain ⟨own, hown, hs⟩ := h.1 hchild
      obtain ⟨more, hmore, hs'⟩ := ih h.2 hd
      refine ⟨more + own, ?_, fun hne => ?_⟩
      · have hfirst := braceDepth?_add hown depth
        rw [Nat.zero_add, Nat.add_comm] at hfirst
        rw [tokensOf, braceDepth?_append, hfirst, Option.bind_some, braceDepth?_add hmore,
          Nat.add_assoc]
      · by_cases hmore : more = 0
        · exact hs fun hzero => hne (by rw [hmore, hzero])
        · exact hs' hmore

/-- The braces of some nodes are properly nested if those of the leaves among them are, but for those
missing at the end of a text. -/
theorem exists_braceDepth?_of_leftOpen {children : List Tree}
    (h : ∀ child ∈ children, child.token? = none →
      ∃ more, braceDepth? 0 child.tokens = some more ∧ (more ≠ 0 → short))
    (hl : LeftOpen short [] (children.filterMap token?)) :
    ∃ left, braceDepth? 0 (tokensOf children) = some left ∧ (left ≠ 0 → short) := by
  obtain ⟨missing, hm, hbraces⟩ := hl
  have hdepth := braceDepth?_of_settle? hm
  rw [List.append_nil] at hdepth
  obtain ⟨more, hmore, hs⟩ := exists_braceDepth?_tokensOf h hdepth
  refine ⟨_, hmore, fun hne => ?_⟩
  by_cases hzero : more = 0
  · have hcount : missing.count .rBrace ≠ 0 := fun hnone => hne (by rw [hnone, hzero])
    exact (hbraces _ (List.count_pos_iff.1 (Nat.pos_of_ne_zero hcount))).1
  · exact hs hzero

/-- The braces of a regular tree are properly nested, but for those missing at the end of a text. -/
theorem Bracketed.exists_braceDepth? {tree : Tree} (h : tree.Bracketed short)
    (hb : tree.KeepsBraces) (hk : tree.token? = none) :
    ∃ left, braceDepth? 0 tree.tokens = some left ∧ (left ≠ 0 → short) := by
  cases hl : tree.isLoose with
  | true => exact ⟨0, braceDepth?_of_nested (hb tree (mem_descendants_self tree) hl), nofun⟩
  | false =>
    cases tree with
    | error region comments => cases hl
    | node kind anchor extent comments children =>
      have hregular := (bracketed_node.1 h).1
      obtain ⟨hargs, hname⟩ : kind ≠ .annotationArgs ∧ kind ≠ .qualifiedName := by
        simpa [isLoose, isError, Tree.kind] using hl
      have htoken : kind ≠ .token := by
        rintro rfl
        cases hk
      have hchildren : ∀ child ∈ children, child.token? = none →
          ∃ left, braceDepth? 0 child.tokens = some left ∧ (left ≠ 0 → short) := fun child hc hnone =>
        ((bracketed_node.1 h).2 child hc).exists_braceDepth?
          (hb.of_mem (mem_descendants_of_mem_children hc)) hnone
      rw [tokens, if_neg htoken]
      exact exists_braceDepth?_of_leftOpen hchildren (hregular hargs hname).1
termination_by sizeOf tree
decreasing_by
  have hsize := List.sizeOf_lt_of_mem hc
  subst_vars
  rw [Tree.node.sizeOf_spec]
  omega

end Tree

end JavaGraph
