import JavaGraph.Proofs.Parser.BuildingGrammar
import JavaGraph.Proofs.Parser.Forming
import JavaGraph.Proofs.Parser.Kept
import JavaGraph.Proofs.Parser.Rounds
import JavaGraph.Proofs.Token.Tiling
/-!
# The grammar forms trees

Most constructs form what they build whatever it is. What a construct adds is told exactly where a node
is put around it later: an expression is one node, of a kind that depends on how it was asked for, and
a member is begun behind modifiers and a type, which have no name among them.
-/

namespace JavaGraph

namespace NodeKind

theorem isExpression_of_isOperand {kind : NodeKind} (h : kind.isOperand = true) :
    kind.isExpression = true := by
  cases kind <;> first | rfl | cases h

end NodeKind

namespace Parser

open Parse

set_option synthInstance.maxSize 8192

variable {base : Builder} {moved : List Tree} {ahead : List Token}

/-! ### Operators -/

/-- An operator that begins with another token than `>` is this token. -/
theorem binaryOperator?_cons_of_ne {token : Token} (hk : token.kind ≠ .greater) (rest : List Token) :
    binaryOperator? (token :: rest) = binaryOperator? [token] ∧
      ∀ operator ∈ binaryOperator? [token], operator.width = 1 := by
  have hsame : kindAt (token :: rest) 0 = kindAt [token] 0 := rfl
  have hne : kindAt [token] 0 ≠ .greater := hk
  simp only [binaryOperator?, hsame]
  split
  case h_12 h => exact absurd h hne
  all_goals simp

/-- An operator that begins with `>` depends on what touches it. -/
theorem binaryOperator?_cons_greater {token : Token} (hk : token.kind = .greater)
    (rest : List Token) :
    binaryOperator? (token :: rest) = greaterOperator? (token :: rest) := by
  have hkind : kindAt (token :: rest) 0 = .greater := hk
  simp only [binaryOperator?, hkind]

/-- The tokens of an operator that begins with `>` are those that touch it. -/
theorem spells_greater {token : Token} (hk : token.kind = .greater) {rest : List Token}
    {operator : BinaryOperator} (h : greaterOperator? (token :: rest) = some operator) :
    Tree.Spells ((token :: rest).take operator.width) operator := by
  unfold greaterOperator? at h
  split at h
  · cases h
  split at h
  · next hsecond =>
    obtain ⟨second, rest, rfl⟩ : ∃ second others, rest = second :: others := by
      cases rest with
      | nil => cases hsecond.1
      | cons second others => exact ⟨second, others, rfl⟩
    have hk' : second.kind = .greater := hsecond.1
    have ht : token.stop = second.start := by simpa [touchesNext] using hsecond.2
    split at h
    · next hthird =>
      obtain ⟨third, rest, rfl⟩ : ∃ third others, rest = third :: others := by
        cases rest with
        | nil => cases hthird.1
        | cons third others => exact ⟨third, others, rfl⟩
      have hk'' : third.kind = .greater := hthird.1
      have ht' : second.stop = third.start := by simpa [touchesNext] using hthird.2
      cases h
      refine ⟨?_, rfl, by simp, by simp, by simp [hk, hk', hk'', ht, ht']⟩
      rw [List.take_succ_cons, binaryOperator?_cons_greater hk]
      simp [greaterOperator?, assignmentWidth?, kindAt, touchesNext, hk, hk', hk'', ht, ht',
        TokenKind.isAssignment]
    · cases h
      refine ⟨?_, rfl, by simp, by simp, by simp [hk, hk', ht]⟩
      rw [List.take_succ_cons, binaryOperator?_cons_greater hk]
      simp [greaterOperator?, assignmentWidth?, kindAt, touchesNext, hk, hk', ht,
        TokenKind.isAssignment]
  · cases h
    refine ⟨?_, rfl, by simp, by simp, by simp⟩
    rw [List.take_succ_cons, binaryOperator?_cons_greater hk]
    simp [greaterOperator?, assignmentWidth?, kindAt, touchesNext, hk, TokenKind.isAssignment]

/-- Where there is an operator, its tokens spell it. -/
theorem spells_take {ahead : List Token} {operator : BinaryOperator}
    (h : binaryOperator? ahead = some operator) :
    Tree.Spells (ahead.take operator.width) operator := by
  cases ahead with
  | nil => cases h
  | cons token rest =>
    by_cases hk : token.kind = .greater
    · rw [binaryOperator?_cons_greater hk] at h
      exact spells_greater hk h
    · obtain ⟨hsame, hwidth⟩ := binaryOperator?_cons_of_ne hk rest
      rw [hsame] at h
      rw [hwidth operator h]
      exact ⟨h, hwidth operator h, Nat.le_refl 1, by simp, by simp⟩

/-- The precedence of a type test. -/
theorem precedence_of_isTypeTest {ahead : List Token} {operator : BinaryOperator}
    (h : binaryOperator? ahead = some operator) (ht : operator.isTypeTest = true) :
    operator.precedence = 7 := by
  unfold binaryOperator? greaterOperator? at h
  repeat' split at h
  all_goals cases h
  all_goals first | rfl | cases ht
/-! ### What is added -/

/-- One node of a kind of some sort. -/
def One (sort : NodeKind → Bool) : Goal := fun added _ =>
  ∃ node, added = [node] ∧ sort node.kind = true

/-- Nothing is added, or the first of it is of a kind that is never empty. -/
def Solid : Goal := fun added _ => ∀ first ∈ added.head?, first.kind.mayBeEmpty = false

/-- An identifier or the name of a primitive type is added. -/
def Names : Goal := fun added _ =>
  ∃ token, Tree.leaf token ∈ added ∧ (token.kind = .ident ∨ token.kind.isPrimitiveType = true)

theorem One.mono {sort sort' : NodeKind → Bool} {added : List Tree} {rest : List Token}
    (h : One sort added rest) (hle : ∀ kind, sort kind = true → sort' kind = true) :
    One sort' added rest := by
  obtain ⟨node, rfl, hs⟩ := h
  exact ⟨node, rfl, hle node.kind hs⟩

theorem One.firm {sort : NodeKind → Bool} {added : List Tree} {rest : List Token}
    (h : One sort added rest) : Tree.Firm added := by
  obtain ⟨node, rfl, -⟩ := h
  exact Tree.firm_singleton node

theorem Solid.firm {added : List Tree} {rest : List Token} (h : Solid added rest) :
    Tree.Firm added := by
  intro first hf _ hmay
  rw [h first hf] at hmay
  cases hmay

/-- What is solid stays so behind something solid. -/
theorem Solid.append {added more : List Tree} {middle rest : List Token} (h : Solid added middle)
    (hm : Solid more rest) : Solid (added ++ more) rest := by
  cases added with
  | nil => exact hm
  | cons first others => exact fun other hf => h other hf

theorem FormsFrom.bind_solid {α β : Type} {step : Parse α} {next : α → Parse β}
    (h : FormsFrom ahead step fun _ => Solid)
    (hn : ∀ value rest, FormsFrom rest (next value) fun _ => Solid) :
    FormsFrom ahead (step >>= next) fun _ => Solid :=
  h.bind fun value _ middle _ hs => (hn value middle).mono fun _ _ _ _ hm => hs.append hm

/-- A node of a plain kind is one of every sort of this kind. -/
theorem formsFrom_one {kind : NodeKind} {sort : NodeKind → Bool} {step : Parse Unit}
    [Forming step] (hk : isPlain kind = true) (hs : sort kind = true) :
    FormsFrom ahead (inNode kind step) fun _ => One sort := by
  refine (formsFrom_inNode hk forming).mono ?_
  rintro - added rest - ⟨node, rfl, rfl, -⟩
  exact ⟨node, rfl, hs⟩

/-- A node of a plain kind around firm trees is one of every sort of this kind. -/
theorem growsFrom_one {kind : NodeKind} {sort : NodeKind → Bool} {step : Parse Unit}
    [Forming step] (hk : isPlain kind = true) (hs : sort kind = true) (hm : Tree.Firm moved) :
    GrowsFrom base moved ahead (aroundSince base.checkpoint kind step) fun _ => One sort := by
  refine (growsFrom_around hk hm).mono ?_
  rintro - added rest - ⟨node, rfl, rfl⟩
  exact ⟨node, rfl, hs⟩

theorem solid_bump : FormsFrom ahead bump fun _ => Solid := by
  refine formsFrom_bump.mono ?_
  rintro - added rest - rfl
  cases ahead with
  | nil => nofun
  | cons token tokens =>
    intro first hf
    cases hf
    rfl

theorem solid_of_one {α : Type} {step : Parse α} {sort : NodeKind → Bool}
    (h : FormsFrom ahead step fun _ => One sort)
    (hs : ∀ kind, sort kind = true → kind.mayBeEmpty = false) :
    FormsFrom ahead step fun _ => Solid := by
  refine h.mono ?_
  rintro - added rest - ⟨node, rfl, hn⟩ first hf
  cases hf
  exact hs node.kind hn

/-! ### Types, annotations and parameters -/

instance : Forming dottedRest := by unfold dottedRest; infer_instance

instance : Forming qualifiedName := by unfold qualifiedName; infer_instance

instance : Forming typeAnnotations := by unfold typeAnnotations; infer_instance

section

variable (nested : Parse Unit) [Forming nested]

instance : Forming (typeArgumentWith nested) := by unfold typeArgumentWith; infer_instance

theorem formsFrom_typeArgumentsWith :
    FormsFrom ahead (typeArgumentsWith nested) fun _ => One (· == .typeArguments) := by
  unfold typeArgumentsWith
  dsimp only
  exact formsFrom_one rfl rfl

instance : Forming (typeArgumentsWith nested) :=
  .of_forms fun _ => formsFrom_typeArgumentsWith nested

/-- The name of a class type has an identifier, and that of a primitive type is one token. -/
theorem formsFrom_elementTypeWith :
    FormsFrom ahead (elementTypeWith nested) fun _ => Names := by
  have hclass (ahead : List Token) : FormsFrom ahead (classTypeWith nested) fun _ => Names := by
    have hrest : Forming (do
        if ← isAt .less then typeArgumentsWith nested
        if (← isAt .dot) && (← isAtNth 1 .ident) then
          bump
          return true
        else return false) := inferInstance
    have hround (ahead : List Token) : FormsFrom ahead (do
        expect .ident "type"
        if ← isAt .less then typeArgumentsWith nested
        if (← isAt .dot) && (← isAtNth 1 .ident) then
          bump
          return true
        else return false) fun _ => Names := by
      refine (formsFrom_expect (by decide) _).bind ?_
      rintro - added rest - ⟨token, rfl, hk⟩
      exact (hrest.forms rest).mono fun _ _ _ _ _ => ⟨token, List.mem_cons_self, .inl hk⟩
    have hforming : Forming (do
        expect .ident "type"
        if ← isAt .less then typeArgumentsWith nested
        if (← isAt .dot) && (← isAtNth 1 .ident) then
          bump
          return true
        else return false) := .of_forms hround
    unfold classTypeWith
    refine FormsFrom.loop (hround ahead) ?_
    rintro - added - more rest ⟨token, ht, hk⟩
    exact ⟨token, List.mem_append_left _ ht, hk⟩
  unfold elementTypeWith
  refine formsFrom_look (.ite (fun h => formsFrom_bump.mono ?_) fun _ => hclass ahead)
  rintro - added rest - rfl
  cases ahead with
  | nil => cases h
  | cons token tokens => exact ⟨token, List.mem_cons_self, .inr h⟩

/-- A node that has a name is a type as the grammar forms it. -/
theorem proper_typeRef {anchor : Token} {extent : Option Extent} {children : List Tree}
    {rest : List Token} (ha : Tree.Anchored anchor [] (Tree.tokensOf children ++ rest))
    (hn : Names children rest) : (Tree.node .typeRef anchor extent {} children).Proper where
  begun := Tree.begun_of_firm (by decide) rfl Tree.firm_nil ha
  climbing := trivial
  named _ := by
    obtain ⟨token, ht, hk⟩ := hn
    exact ⟨token, List.mem_filterMap.2 ⟨_, ht, rfl⟩, hk⟩

/-- A step that adds a name makes the node of a type. -/
theorem formsFrom_typeNode {step : Parse Unit} (h : FormsFrom ahead step fun _ => Names) :
    FormsFrom ahead (inNode .typeRef step) fun _ => One (· == .typeRef) := by
  refine (h.inNode rfl fun _ _ _ _ ha _ hn => proper_typeRef ha hn).mono ?_
  rintro - added rest - ⟨node, rfl, hk, -⟩
  exact ⟨node, rfl, beq_iff_eq.2 hk⟩

theorem formsFrom_typeRefWith :
    FormsFrom ahead (typeRefWith nested) fun _ => One (· == .typeRef) := by
  unfold typeRefWith
  refine formsFrom_typeNode (forming.bind fun _ annotations middle _ _ =>
    (formsFrom_elementTypeWith nested).bind ?_)
  rintro - added rest - ⟨token, ht, hk⟩
  exact forming.mono fun _ more _ _ _ =>
    ⟨token, List.mem_append_right _ (List.mem_append_left _ ht), hk⟩

end

theorem formsFrom_typeRefAtMost (depth : Nat) :
    FormsFrom ahead (typeRefAtMost depth) fun _ => One (· == .typeRef) := by
  induction depth generalizing ahead with
  | zero => exact formsFrom_fail
  | succ depth ih =>
    have hnested : Forming (typeRefAtMost depth) := .of_forms fun _ => ih
    exact formsFrom_typeRefWith (typeRefAtMost depth)

theorem formsFrom_typeRef : FormsFrom ahead typeRef fun _ => One (· == .typeRef) :=
  formsFrom_onAhead (formsFrom_typeRefAtMost _)

instance : Forming typeRef := .of_forms fun _ => formsFrom_typeRef

theorem formsFrom_typeArguments :
    FormsFrom ahead typeArguments fun _ => One (· == .typeArguments) :=
  formsFrom_typeArgumentsWith typeRef

instance : Forming typeArguments := .of_forms fun _ => formsFrom_typeArguments

theorem formsFrom_typeRefNoDimensions :
    FormsFrom ahead typeRefNoDimensions fun _ => One (· == .typeRef) :=
  formsFrom_typeNode (formsFrom_elementTypeWith typeRef)

instance : Forming typeList := by unfold typeList; infer_instance

instance : Forming typeParameter := by unfold typeParameter; infer_instance

instance : Forming typeParametersOpt := by unfold typeParametersOpt; infer_instance

instance : Forming annotationArguments := by
  unfold annotationArguments
  refine ⟨fun ahead => formsFrom_onAhead ?_⟩
  split
  · exact forming
  · exact forming

instance : Forming annotationUse := by unfold annotationUse; infer_instance

theorem formsFrom_modifiers : FormsFrom ahead modifiers fun _ => One (· == .modifiers) := by
  unfold modifiers
  dsimp only
  exact formsFrom_one rfl rfl

instance : Forming modifiers := .of_forms fun _ => formsFrom_modifiers

instance : Forming parameter := by unfold parameter; dsimp only; infer_instance

instance : Forming formalParameters := by unfold formalParameters; dsimp only; infer_instance

/-! ### Expressions -/

/-- An operand of operators of at least some precedence, behind which there is no more of them. -/
def Operand (precedence : Nat) : Goal := fun added ahead =>
  (∃ tree, added = [tree] ∧ tree.Binds precedence) ∧
    ∀ operator ∈ binaryOperator? ahead, operator.precedence < precedence

/-- What a construct through which the grammar is recursive adds. -/
def promise : Nonterminal → Goal
  | .expression | .conditional => One (·.isExpression)
  | .binary precedence => Operand precedence
  | .unary => One (·.isTight)
  | .arrayInit => One (· == .arrayInit)
  | _ => fun _ _ => True

/-- The constructs of the grammar add what is asked of them. -/
class Promises (sub : Nonterminal → Parse Unit) : Prop where
  forms : ∀ construct ahead, FormsFrom ahead (sub construct) fun _ => promise construct

section

variable (sub : Nonterminal → Parse Unit) [hsub : Promises sub]

instance (construct : Nonterminal) : Forming (sub construct) :=
  .of_forms fun ahead => hsub.forms construct ahead

instance : Forming (arguments sub) := by unfold arguments; dsimp only; infer_instance

instance : Forming (variableInitializer sub) := by unfold variableInitializer; infer_instance

theorem formsFrom_arrayInit : FormsFrom ahead (arrayInit sub) fun _ => One (· == .arrayInit) := by
  unfold arrayInit
  exact formsFrom_one rfl rfl

instance : Forming lambdaParameters := by unfold lambdaParameters; dsimp only; infer_instance

theorem formsFrom_lambda : FormsFrom ahead (lambda sub) fun _ => One (·.isExpression) := by
  unfold lambda
  exact formsFrom_one rfl rfl

instance : Forming (lambda sub) := .of_forms fun _ => formsFrom_lambda sub

instance : Forming (arrayLengths sub) := by unfold arrayLengths; dsimp only; infer_instance

/-- What `new` makes is a node around its keyword. -/
theorem formsFrom_newExpr : FormsFrom ahead (newExpr sub) fun _ => One (·.isTight) := by
  have hhead (ahead : List Token) : FormsFrom ahead (do
      bump
      if ← isAt .less then typeArguments
      typeRefNoDimensions) fun _ => Solid := by
    have htype (rest : List Token) : FormsFrom rest typeRefNoDimensions fun _ => Solid :=
      solid_of_one formsFrom_typeRefNoDimensions fun kind hk => by rw [eq_of_beq hk]
    refine solid_bump.bind_solid fun _ rest => formsFrom_look (.ite (fun _ => ?_) fun _ => htype rest)
    exact (solid_of_one formsFrom_typeArguments fun kind hk => by rw [eq_of_beq hk]).bind_solid
      fun _ rest => htype rest
  rw [newExpr_parts]
  refine formsFrom_checkpoint fun base => (hhead ahead).grows.bind ?_
  rintro - added rest ⟨more, rfl, -, hs⟩
  have hfirm := Solid.firm hs
  exact growsFrom_look (.ite (fun _ => growsFrom_one rfl rfl hfirm) fun _ => growsFrom_one rfl rfl hfirm)

instance : Forming (newExpr sub) := .of_forms fun _ => formsFrom_newExpr sub

/-- A member of an operand is a node around it. -/
theorem growsFrom_memberOf (hm : Tree.Firm moved) :
    GrowsFrom base moved ahead (memberOf sub base.checkpoint) fun _ => One (·.isTight) := by
  unfold memberOf
  refine growsFrom_look ?_
  dsimp only [id]
  split
  · exact .ite (fun _ => growsFrom_one rfl rfl hm) fun _ => growsFrom_one rfl rfl hm
  · exact growsFrom_one rfl rfl hm
  · exact growsFrom_one rfl rfl hm
  · exact growsFrom_one rfl rfl hm
  · exact growsFrom_one rfl rfl hm
  · exact growsFrom_one rfl rfl hm
  · have hfail (ahead : List Token) : FormsFrom ahead (do
        bump
        errorExpected "member name"
        fail) fun _ : Unit => fun _ _ => False :=
      forming.bind fun _ _ _ _ _ => forming.bind fun _ _ _ _ _ => formsFrom_fail
    refine (hfail ahead).grows.mono ?_
    rintro - _ _ - ⟨_, -, -, hfalse⟩
    exact hfalse.elim

/-- What goes on with an operand is a node around it, or nothing. -/
theorem growsFrom_postfixPart (hm : One (·.isTight) moved ahead) :
    GrowsFrom base moved ahead (postfixPart sub base.checkpoint) fun _ => One (·.isTight) := by
  have hagain {step : Parse Unit}
      (h : GrowsFrom base moved ahead step fun _ => One (·.isTight)) :
      GrowsFrom base moved ahead (step >>= fun _ => pure true) fun _ => One (·.isTight) :=
    h.bind fun _ _ _ hone => growsFrom_pure true hone
  unfold postfixPart
  refine growsFrom_look ?_
  split
  · exact hagain (growsFrom_memberOf sub hm.firm)
  · exact hagain (growsFrom_one rfl rfl hm.firm)
  · exact hagain (growsFrom_one rfl rfl hm.firm)
  · exact hagain (growsFrom_one rfl rfl hm.firm)
  · exact hagain (growsFrom_one rfl rfl hm.firm)
  · exact growsFrom_pure false hm

theorem formsFrom_selfOperand {kind : NodeKind} (hk : isPlain kind = true)
    (ht : kind.isTight = true) :
    FormsFrom ahead (selfOperand sub kind) fun _ => One (·.isTight) := by
  unfold selfOperand
  exact formsFrom_look (.ite (fun _ => formsFrom_one rfl rfl) fun _ => formsFrom_one hk ht)

theorem formsFrom_namedOperand :
    FormsFrom ahead (namedOperand sub) fun _ => One (·.isTight) := by
  unfold namedOperand
  exact formsFrom_look (.ite (fun _ => formsFrom_one rfl rfl) fun _ =>
    .ite (fun _ => formsFrom_one rfl rfl) fun _ => formsFrom_one rfl rfl)

/-- An operand is one node. -/
theorem formsFrom_primary : FormsFrom ahead (primary sub) fun _ => One (·.isTight) := by
  unfold primary
  refine formsFrom_look ?_
  split
  · exact formsFrom_selfOperand sub rfl rfl
  · exact formsFrom_selfOperand sub rfl rfl
  · exact formsFrom_namedOperand sub
  · exact formsFrom_one rfl rfl
  · exact formsFrom_newExpr sub
  · have h : FormsFrom ahead (sub .arrayInit) fun _ => One (· == .arrayInit) :=
      hsub.forms .arrayInit ahead
    refine h.mono fun _ _ _ _ hone => hone.mono fun kind hk => ?_
    rw [eq_of_beq hk]
    rfl
  · exact formsFrom_one rfl rfl
  · refine .ite (fun _ => formsFrom_one rfl rfl) fun _ => .ite (fun _ => ?_) fun _ => ?_
    · exact formsFrom_one rfl rfl
    · exact forming.bind fun _ _ _ _ _ => formsFrom_fail

theorem formsFrom_postfixExpr : FormsFrom ahead (postfixExpr sub) fun _ => One (·.isTight) := by
  unfold postfixExpr
  refine formsFrom_checkpoint fun base => (formsFrom_primary sub).grows.bind ?_
  rintro - added rest ⟨more, rfl, -, hone⟩
  exact GrowsFrom.loop (fun _ _ => growsFrom_postfixPart sub) hone

theorem formsFrom_unaryExpr : FormsFrom ahead (unaryExpr sub) fun _ => One (·.isTight) := by
  have hcast : FormsFrom ahead (castExpr sub) fun _ => One (·.isTight) := by
    unfold castExpr
    exact formsFrom_one rfl rfl
  unfold unaryExpr
  refine formsFrom_look ?_
  dsimp only [id]
  split
  case h_7 => exact .ite (fun _ => hcast) fun _ => formsFrom_postfixExpr sub
  case h_8 => exact formsFrom_postfixExpr sub
  all_goals exact formsFrom_one rfl rfl

/-- Where a token has become a leaf, fewer are left. -/
theorem length_lt_of_leaf {added : List Tree} {rest : List Token} {token : Token}
    (h : ahead = Tree.tokensOf added ++ rest) (hl : Tree.leaf token ∈ added) :
    rest.length < ahead.length := by
  have hm : token ∈ Tree.tokensOf added := by
    rw [Tree.tokensOf_eq_flatMap]
    exact List.mem_flatMap.2 ⟨_, hl, by simp⟩
  have hlength := List.length_pos_of_mem hm
  rw [h, List.length_append]
  omega

/-- A type test is a node around its operand. -/
theorem growsFrom_typeTest {operand : Tree} (ho : operand.kind = .instanceOfExpr ∨ operand.Binds 7)
    (hahead : ahead ≠ []) :
    GrowsFrom base [operand] ahead (typeTest base.checkpoint) fun _ added rest =>
      (∃ node, added = [node] ∧ node.kind = .instanceOfExpr) ∧ rest.length < ahead.length := by
  have hrest : Forming (do
      discard (eat .kwFinal)
      typeRef
      discard (eat .ident)) := inferInstance
  obtain ⟨token, tokens, rfl⟩ := List.exists_cons_of_ne_nil hahead
  have hleaf : FormsFrom (token :: tokens) (do
      bump
      discard (eat .kwFinal)
      typeRef
      discard (eat .ident)) fun _ added _ => Tree.leaf token ∈ added := by
    refine formsFrom_bump.bind ?_
    rintro - added middle - rfl
    exact (hrest.forms middle).mono fun _ more _ _ _ => List.mem_cons_self
  have hinner : FormsFrom (token :: tokens) _ fun _ _ rest =>
      rest.length < (token :: tokens).length := hleaf.mono fun _ _ _ => length_lt_of_leaf
  unfold typeTest
  refine (GrowsFrom.around hinner rfl fun anchor extent more rest ha _ _ => ?_).mono ?_
  · have hbegun : (Tree.node .instanceOfExpr anchor extent {} ([operand] ++ more)).Begun :=
      Tree.begun_of_firm (by decide) rfl (Tree.firm_singleton operand) ha
    exact ⟨hbegun, ⟨operand, more, rfl, ho⟩, nofun⟩
  · rintro - added rest - ⟨node, rfl, hk, more, -, hl⟩
    exact ⟨⟨node, rfl, hk⟩, hl⟩

/-- An operation is a node around its left operand. -/
theorem growsFrom_operation {operand : Tree} {operator : BinaryOperator}
    (h : binaryOperator? ahead = some operator)
    (ho : operand.kind = .instanceOfExpr ∨ operand.Binds operator.precedence) :
    GrowsFrom base [operand] ahead (aroundSince base.checkpoint .binaryExpr do
      bumpMany operator.width
      sub (.binary (operator.precedence + 1))) fun _ added rest =>
        (∃ node, added = [node] ∧ node.kind = .binaryExpr ∧
          node.precedence? = some operator.precedence) ∧ rest.length < ahead.length ∧
            ∀ next ∈ binaryOperator? rest, next.precedence ≤ operator.precedence := by
  have hspells := spells_take h
  obtain ⟨token, tokens, htake⟩ : ∃ token tokens, ahead.take operator.width = token :: tokens :=
    List.exists_cons_of_ne_nil (List.ne_nil_of_length_pos hspells.length_pos)
  have hinner : FormsFrom ahead (do
      bumpMany operator.width
      sub (.binary (operator.precedence + 1))) fun _ added rest =>
        (∃ right, added = (ahead.take operator.width).map Tree.leaf ++ [right] ∧
          right.Binds (operator.precedence + 1)) ∧ rest.length < ahead.length ∧
            ∀ next ∈ binaryOperator? rest, next.precedence ≤ operator.precedence := by
    have hparts : FormsFrom ahead (do
        bumpMany operator.width
        sub (.binary (operator.precedence + 1))) fun _ added rest =>
          (∃ right, added = (ahead.take operator.width).map Tree.leaf ++ [right] ∧
            right.Binds (operator.precedence + 1)) ∧
              ∀ next ∈ binaryOperator? rest, next.precedence ≤ operator.precedence := by
      refine (formsFrom_bumpMany _).bind ?_
      rintro - added middle - rfl
      refine (hsub.forms (.binary (operator.precedence + 1)) middle).mono ?_
      rintro - more rest - ⟨⟨right, rfl, hright⟩, hnext⟩
      exact ⟨⟨right, rfl, hright⟩, fun next hn => Nat.le_of_lt_succ (hnext next hn)⟩
    refine hparts.mono ?_
    rintro - added rest ht ⟨⟨right, rfl, hright⟩, hnext⟩
    have hleaf : Tree.leaf token ∈ (ahead.take operator.width).map Tree.leaf ++ [right] := by
      rw [htake]
      exact List.mem_cons_self
    exact ⟨⟨right, rfl, hright⟩, length_lt_of_leaf ht hleaf, hnext⟩
  have hoperation {node right : Tree} (hr : right.Binds (operator.precedence + 1))
      (hc : node.children = [operand] ++ ((ahead.take operator.width).map Tree.leaf ++ [right])) :
      node.Operation operand (ahead.take operator.width) right operator := ⟨hc, hspells, ho, hr⟩
  refine (GrowsFrom.around hinner rfl fun anchor extent more rest ha _ hg => ?_).mono ?_
  · obtain ⟨⟨right, rfl, hright⟩, -⟩ := hg
    have hbegun : (Tree.node .binaryExpr anchor extent {} ([operand] ++
        ((ahead.take operator.width).map Tree.leaf ++ [right]))).Begun :=
      Tree.begun_of_firm (by decide) rfl (Tree.firm_singleton operand) ha
    exact ⟨hbegun, ⟨_, _, _, _, hoperation hright rfl⟩, nofun⟩
  · rintro - added rest - ⟨node, rfl, hk, more, hc, ⟨right, rfl, hright⟩, hrest⟩
    exact ⟨⟨node, rfl, hk, (hoperation hright hc).precedence? hk⟩, hrest⟩

/-- An operand that further operators may go on with: each binds no tighter than the operand, or
the operand is a type test. -/
def Chain (precedence : Nat) : Goal := fun added ahead =>
  ∃ operand, added = [operand] ∧ operand.Binds precedence ∧
    (operand.kind = .instanceOfExpr ∨
      ∀ operator ∈ binaryOperator? ahead, operand.Binds operator.precedence)

/-- An operator of at least the given precedence is gone on with; else the operand is complete. -/
theorem growsFrom_operatorPart {precedence : Nat} (hm : Chain precedence moved ahead) :
    GrowsFrom base moved ahead (operatorPart sub base.checkpoint precedence)
      fun again added rest => if again = true then
        Chain precedence added rest ∧ rest.length < ahead.length
      else Operand precedence added rest := by
  obtain ⟨operand, rfl, hbinds, hleft⟩ := hm
  unfold operatorPart
  refine growsFrom_look ?_
  split
  · next hnone => exact growsFrom_pure false ⟨⟨operand, rfl, hbinds⟩, by simp [hnone]⟩
  · next operator h =>
    refine .ite (fun hlow => ?_) fun hhigh => .ite (fun ht => ?_) fun _ => ?_
    · refine growsFrom_pure false ⟨⟨operand, rfl, hbinds⟩, fun other ho => ?_⟩
      rw [h] at ho
      cases ho
      exact hlow
    · have hseven := precedence_of_isTypeTest h ht
      have ho : operand.kind = .instanceOfExpr ∨ operand.Binds 7 :=
        hleft.imp_right fun hb => hseven ▸ hb operator h
      have hahead : ahead ≠ [] := by rintro rfl; cases h
      refine (growsFrom_typeTest ho hahead).bind ?_
      rintro - added rest ⟨⟨node, rfl, hk⟩, hl⟩
      have hown : node.precedence? = some 7 := by
        unfold Tree.precedence?
        rw [hk]
      exact growsFrom_pure true
        ⟨⟨node, rfl, .inr ⟨7, hown, by omega⟩, .inl hk⟩, hl⟩
    · have ho := hleft.imp_right fun hb => hb operator h
      refine (growsFrom_operation sub h ho).bind ?_
      rintro - added rest ⟨⟨node, rfl, -, hown⟩, hl, hnext⟩
      exact growsFrom_pure true ⟨⟨node, rfl, .inr ⟨_, hown, Nat.le_of_not_lt hhigh⟩,
        .inr fun next hn => .inr ⟨_, hown, hnext next hn⟩⟩, hl⟩

/-- What operators of at least a precedence make binds as tight. -/
theorem formsFrom_binaryExpr (precedence : Nat) :
    FormsFrom ahead (binaryExpr sub precedence) fun _ => Operand precedence := by
  unfold binaryExpr
  have hunary : FormsFrom ahead (sub .unary) fun _ => One (·.isTight) := hsub.forms .unary ahead
  refine formsFrom_checkpoint fun base => hunary.grows.bind ?_
  rintro - added rest ⟨more, rfl, -, operand, rfl, htight⟩
  exact GrowsFrom.loop_until (fun _ _ => growsFrom_operatorPart sub)
    ⟨operand, rfl, .inl htight, .inr fun _ _ => .inl htight⟩

theorem formsFrom_conditionalExpr :
    FormsFrom ahead (conditionalExpr sub) fun _ => One (·.isExpression) := by
  have hbinary : FormsFrom ahead (sub (.binary 0)) fun _ => One (·.isExpression) := by
    have hoperand : FormsFrom ahead (sub (.binary 0)) fun _ => Operand 0 :=
      hsub.forms (.binary 0) ahead
    refine hoperand.mono ?_
    rintro - added rest - ⟨⟨operand, rfl, hb⟩, -⟩
    exact ⟨operand, rfl, NodeKind.isExpression_of_isOperand hb.isOperand⟩
  unfold conditionalExpr
  refine formsFrom_checkpoint fun base => hbinary.grows.bind ?_
  rintro - added rest ⟨more, rfl, -, hone⟩
  exact growsFrom_look (.ite (fun _ => growsFrom_one rfl rfl hone.firm) fun _ => growsFrom_pure _ hone)

theorem formsFrom_expression : FormsFrom ahead (expression sub) fun _ => One (·.isExpression) := by
  have hconditional (ahead : List Token) :
      FormsFrom ahead (sub .conditional) fun _ => One (·.isExpression) :=
    hsub.forms .conditional ahead
  unfold expression
  refine formsFrom_look (.ite (fun _ => formsFrom_lambda sub) fun _ => ?_)
  refine formsFrom_checkpoint fun base => (hconditional ahead).grows.bind ?_
  rintro - added rest ⟨more, rfl, -, hone⟩
  refine growsFrom_look ?_
  split
  · exact growsFrom_pure _ hone
  · exact growsFrom_one rfl rfl hone.firm

end

end Parser

end JavaGraph
