import JavaGraph.Proofs.Parser.Agreement
/-!
# Every round of a list passes a token

A list of the grammar is a loop whose rounds tell whether another one is wanted. A round that wants
one has passed a token. So the bound on the number of rounds is never reached, and a loop is its
first round and then, if that wants it, the loop again.
-/

/-!
## The bounds on nesting are never reached

The parser bounds how deep constructs may nest by the number of tokens ahead. A construct that
begins at the same token as one within it is of higher rank than that one, and there are six ranks.
So a construct comes to the bound only if as many tokens were passed as there are, and then none is
left. Whatever would be done at the bound makes no difference.
-/

namespace JavaGraph.Parser

open Parse

set_option synthInstance.maxSize 8192

/-- A construct that begins another one at its own first token has a higher rank. -/
def Nonterminal.rank : Nonterminal → Nat
  | .arrayInit | .block | .classBody | .enumBody => 0
  | .unary => 1
  | .binary _ => 2
  | .conditional => 3
  | .expression => 4
  | .statement => 5

variable {L : Likeness} {level n : Nat}

/-- A loop over tokens of a kind passes one of them in every round. -/
instance (kind : TokenKind) [hk : Evaluates (isProper kind)] (next next' : Unit → Parse Unit)
    [∀ value, Keeps Advanced (next value)] [∀ value, Agrees L level n (next value) (next' value)] :
    Agrees L level (n + 1) (whileAt kind (bump >>= next)) (whileAt kind (bump >>= next')) := by
  have hround : Agrees L level (n + 1)
      (isAt kind >>= fun here => if here = true then (do bump >>= next; return true)
        else pure false)
      (isAt kind >>= fun here => if here = true then (do bump >>= next'; return true)
        else pure false) := by
    refine Agrees.isAt (fun ahead hl h => ?_)
      (inferInstanceAs (Agrees L level (n + 1) (pure false) (pure false)))
    have hend : kindAt ahead 0 ≠ .eof := by
      rintro he
      rw [← h, he] at hk
      cases hk.eq_true
    simp only [if_true, bind_assoc]
    exact agreesFrom_bump hend hl
  unfold whileAt
  infer_instance

/-! ### Types -/

section

variable (nested nested' : Parse Unit) [Keeps Advanced nested] [∀ level, Agrees L level n nested nested']

instance : Agrees L level (n + 1) (typeArgumentsWith nested) (typeArgumentsWith nested') := by
  unfold typeArgumentsWith; dsimp only; infer_instance

instance : Agrees L level (n + 1) (classTypeWith nested) (classTypeWith nested') := by
  unfold classTypeWith; dsimp only; infer_instance

instance : Agrees L level (n + 1) (elementTypeWith nested) (elementTypeWith nested') := by
  unfold elementTypeWith; infer_instance

/-- A type within a type comes behind a token. -/
theorem agrees_typeRefWith_succ : Agrees L level (n + 1) (typeRefWith nested) (typeRefWith nested') := by
  unfold typeRefWith; infer_instance

end

/-! ### Expressions -/

section

variable (sub sub' : Nonterminal → Parse Unit) [∀ construct, Keeps Advanced (sub construct)]
  [∀ level construct, Agrees L level n (sub construct) (sub' construct)]

instance : Agrees L level (n + 1) (arguments sub) (arguments sub') := by
  unfold arguments; dsimp only; infer_instance

theorem agrees_arrayInit_succ : Agrees L level (n + 1) (arrayInit sub) (arrayInit sub') := by
  unfold arrayInit; infer_instance

instance : Agrees L level (n + 1) (lambda sub) (lambda sub') := by unfold lambda; infer_instance

instance : Agrees L level (n + 1) (castExpr sub) (castExpr sub') := by unfold castExpr; infer_instance

instance : Agrees L level (n + 1) (arrayLengths sub) (arrayLengths sub') := by
  unfold arrayLengths
  dsimp only
  infer_instance

variable [∀ level, Agrees L level (n + 1) (sub .arrayInit) (sub' .arrayInit)]
  [∀ level, Agrees L level (n + 1) (sub .classBody) (sub' .classBody)]

instance : Agrees L level (n + 1) (newExpr sub) (newExpr sub') := by
  rw [newExpr_eq, newExpr_eq]; infer_instance

instance (place : L.Places level) : Agrees L level (n + 1) (memberOf sub place.left)
    (memberOf sub' place.right) := by
  unfold memberOf
  apply Agrees.look
  intro ahead hl
  dsimp only [id]
  split
  case h_1 => split <;> exact Agrees.from inferInstance hl
  all_goals exact Agrees.from inferInstance hl

instance (place : L.Places level) : Agrees L level (n + 1) (postfixPart sub place.left)
    (postfixPart sub' place.right) := by
  unfold postfixPart
  apply Agrees.look
  intro ahead hl
  split
  case h_2 h =>
    have hk : kindAt ahead 0 ≠ .eof := by rw [h]; decide
    refine AgreesFrom.bind ?_ fun _ _ middle hm _ =>
      Agrees.from inferInstance (Nat.lt_succ_of_le hm)
    exact (agreesFrom_bump hk hl).aroundSince place .arrayAccess
  all_goals exact Agrees.from inferInstance hl

instance : Agrees L level (n + 1) (namedOperand sub) (namedOperand sub') := by
  unfold namedOperand; infer_instance

instance (kind : NodeKind) [Evaluates (isInner kind)] :
    Agrees L level (n + 1) (selfOperand sub kind) (selfOperand sub' kind) := by
  unfold selfOperand; infer_instance

instance : Agrees L level (n + 1) (primary sub) (primary sub') := by
  unfold primary
  apply Agrees.look
  intro ahead hl
  split
  case h_4 h =>
    have hk : kindAt ahead 0 ≠ .eof := by rw [h]; decide
    exact (agreesFrom_bump hk hl).inNode .parenExpr
  all_goals exact Agrees.from inferInstance hl

instance : Agrees L level (n + 1) (postfixExpr sub) (postfixExpr sub') := by
  unfold postfixExpr; infer_instance

theorem agrees_unaryExpr_succ : Agrees L level (n + 1) (unaryExpr sub) (unaryExpr sub') := by
  unfold unaryExpr
  apply Agrees.look
  intro ahead hl
  have hinner (hk : kindAt ahead 0 ≠ .eof) : AgreesFrom L level ahead
      (inNode .unaryExpr do
        bump
        sub .unary)
      (inNode .unaryExpr do
        bump
        sub' .unary) := (agreesFrom_bump hk hl).inNode .unaryExpr
  dsimp only [id]
  split
  case h_7 => split <;> exact Agrees.from inferInstance hl
  case h_8 => exact Agrees.from inferInstance hl
  all_goals
    next h => exact hinner (by rw [h]; decide)

/-- There is a token where a binary operator is. -/
theorem kindAt_of_binaryOperator? {ahead : List Token} {operator : BinaryOperator}
    (h : binaryOperator? ahead = some operator) : kindAt ahead 0 ≠ .eof := by
  intro hk
  simp [binaryOperator?, hk] at h

/-- An operator has a token. -/
theorem width_of_binaryOperator? {ahead : List Token} {operator : BinaryOperator}
    (h : binaryOperator? ahead = some operator) : ∃ width, operator.width = width + 1 := by
  unfold binaryOperator? greaterOperator? at h
  repeat' split at h
  all_goals cases h
  all_goals exact ⟨_, rfl⟩

instance (place : L.Places level) (precedence : Nat) : Agrees L level (n + 1)
    (operatorPart sub place.left precedence) (operatorPart sub' place.right precedence) := by
  unfold operatorPart
  apply Agrees.look
  intro ahead hl
  split
  · exact Agrees.from inferInstance hl
  · next operator h =>
    have hk := kindAt_of_binaryOperator? h
    obtain ⟨width, hw⟩ := width_of_binaryOperator? h
    split
    · exact Agrees.from inferInstance hl
    split
    · exact Agrees.from inferInstance hl
    · rw [hw]
      refine AgreesFrom.bind ?_ fun _ _ middle hm _ =>
        Agrees.from inferInstance (Nat.lt_succ_of_le hm)
      exact (agreesFrom_bumpMany width hk hl).aroundSince place .binaryExpr

end

section

variable (sub sub' : Nonterminal → Parse Unit) [∀ construct, Keeps Advanced (sub construct)]
  [∀ level construct, Agrees L level n (sub construct) (sub' construct)]

theorem agrees_binaryExpr_succ [∀ level, Agrees L level (n + 1) (sub .unary) (sub' .unary)] (precedence : Nat) :
    Agrees L level (n + 1) (binaryExpr sub precedence) (binaryExpr sub' precedence) := by
  unfold binaryExpr; infer_instance

theorem agrees_conditionalExpr_succ
    [∀ level precedence, Agrees L level (n + 1) (sub (.binary precedence)) (sub' (.binary precedence))] :
    Agrees L level (n + 1) (conditionalExpr sub) (conditionalExpr sub') := by
  have hchoice (place : L.Places level) : Agrees L level (n + 1)
      (do
        if ← isAt .question then
          aroundSince place.left .conditionalExpr do
            bump
            sub .expression
            expect .colon "`:`"
            if ← look atLambda then lambda sub else sub .conditional)
      (do
        if ← isAt .question then
          aroundSince place.right .conditionalExpr do
            bump
            sub' .expression
            expect .colon "`:`"
            if ← look atLambda then lambda sub' else sub' .conditional) := by
    refine Agrees.isAt (fun ahead hl h => ?_)
      (inferInstanceAs (Agrees L level (n + 1) (pure ()) (pure ())))
    have hk : kindAt ahead 0 ≠ .eof := by rw [h]; decide
    exact (agreesFrom_bump hk hl).aroundSince place .conditionalExpr
  unfold conditionalExpr
  infer_instance

/-- An assignment operator has a token, and there is one. -/
theorem kindAt_of_assignmentWidth? {ahead : List Token} {width : Nat}
    (h : assignmentWidth? ahead = some width) :
    kindAt ahead 0 ≠ .eof ∧ ∃ count, width = count + 1 := by
  refine ⟨fun hk => ?_, ?_⟩
  · simp [assignmentWidth?, hk, TokenKind.isAssignment] at h
  · unfold assignmentWidth? at h
    repeat' split at h
    all_goals cases h
    all_goals exact ⟨_, rfl⟩

/-- What goes on with the left side of an assignment, if there is one. -/
def assignmentRest (sub : Nonterminal → Parse Unit) (place : Checkpoint) : Option Nat → Parse Unit
  | none => pure ()
  | some width =>
    aroundSince place .assignExpr do
      bumpMany width
      sub .expression

theorem agrees_expression_succ [∀ level, Agrees L level (n + 1) (sub .conditional) (sub' .conditional)] :
    Agrees L level (n + 1) (expression sub) (expression sub') := by
  unfold expression
  apply Agrees.look
  intro ahead hl
  split
  · exact Agrees.from inferInstance hl
  · have hassigned (place : L.Places level) : Agrees L level (n + 1)
        (look assignmentWidth? >>= assignmentRest sub place.left)
        (look assignmentWidth? >>= assignmentRest sub' place.right) := by
      apply Agrees.look
      intro ahead hl
      cases h : assignmentWidth? ahead with
      | none =>
        have hnone : Agrees L level (n + 1) (pure () : Parse Unit) (pure ()) := inferInstance
        exact hnone.from hl
      | some width =>
        obtain ⟨hk, count, rfl⟩ := kindAt_of_assignmentWidth? h
        exact (agreesFrom_bumpMany count hk hl).aroundSince place .assignExpr
    have hsteps : Agrees L level (n + 1)
        (do
          let place ← checkpoint
          sub .conditional
          look assignmentWidth? >>= assignmentRest sub place)
        (do
          let place ← checkpoint
          sub' .conditional
          look assignmentWidth? >>= assignmentRest sub' place) := inferInstance
    exact hsteps.from hl

end

/-! ### Statements -/

section

variable (sub sub' : Nonterminal → Parse Unit) [∀ construct, Keeps Advanced (sub construct)]
  [∀ level construct, Agrees L level n (sub construct) (sub' construct)]

instance : Agrees L level (n + 1) (condition sub) (condition sub') := by unfold condition; infer_instance

instance : Agrees L level (n + 1) (ifStmt sub) (ifStmt sub') := by unfold ifStmt; infer_instance

instance : Agrees L level (n + 1) (whileStmt sub) (whileStmt sub') := by unfold whileStmt; infer_instance

instance : Agrees L level (n + 1) (forStmt sub) (forStmt sub') := by
  rw [forStmt_eq, forStmt_eq]; infer_instance

section

variable (declaration declaration' : Checkpoint → Parse Unit)
  [∀ place, Keeps Advanced (declaration place)]
  [∀ level (place : L.Places level),
    Agrees L level n (declaration place.left) (declaration' place.right)]

theorem agrees_block_succ :
    Agrees L level (n + 1) (block sub declaration) (block sub' declaration') := by
  unfold block; infer_instance

instance : Agrees L level (n + 1) (switchStmt sub declaration) (switchStmt sub' declaration') := by
  unfold switchStmt; infer_instance

end

variable [∀ level, Agrees L level (n + 1) (sub .block) (sub' .block)]

instance : Agrees L level (n + 1) (syncStmt sub) (syncStmt sub') := by unfold syncStmt; infer_instance

instance : Agrees L level (n + 1) (catchClause sub) (catchClause sub') := by
  unfold catchClause; infer_instance

variable [∀ level, Agrees L level (n + 1) (sub .expression) (sub' .expression)]

instance : Agrees L level (n + 1) (expressionStmt sub) (expressionStmt sub') := by
  unfold expressionStmt; infer_instance

instance : Agrees L level (n + 1) (returnStmt sub) (returnStmt sub') := by
  unfold returnStmt; dsimp only; infer_instance

instance : Agrees L level (n + 1) (throwStmt sub) (throwStmt sub') := by unfold throwStmt; infer_instance

instance : Agrees L level (n + 1) (assertStmt sub) (assertStmt sub') := by
  unfold assertStmt; dsimp only; infer_instance

instance : Agrees L level (n + 1) (variableDeclarators sub) (variableDeclarators sub') := by
  unfold variableDeclarators; infer_instance

instance : Agrees L level (n + 1) (localVariables sub) (localVariables sub') := by
  unfold localVariables; infer_instance

instance : Agrees L level (n + 1) (resources sub) (resources sub') := by unfold resources; infer_instance

instance : Agrees L level (n + 1) (tryStmt sub) (tryStmt sub') := by
  unfold tryStmt; dsimp only; infer_instance

variable (declaration declaration' : Checkpoint → Parse Unit)
  [∀ place, Keeps Advanced (declaration place)]
  [∀ level (place : L.Places level),
    Agrees L level n (declaration place.left) (declaration' place.right)]

theorem agrees_statement_succ :
    Agrees L level (n + 1) (statement sub declaration) (statement sub' declaration') := by
  unfold statement
  apply Agrees.look
  intro ahead hl
  dsimp only [id]
  split
  case h_5 h =>
    have hk : kindAt ahead 0 ≠ .eof := by rw [h]; decide
    exact (agreesFrom_bump hk hl).inNode .doStmt
  case h_15 h =>
    have hk : kindAt ahead 0 ≠ .eof := by rw [h]; decide
    split
    · exact (agreesFrom_bumpMany 1 hk hl).inNode .labeledStmt
    · exact Agrees.from inferInstance hl
  all_goals exact Agrees.from inferInstance hl

end

/-! ### Declarations -/

section

variable (sub sub' : Nonterminal → Parse Unit) [∀ construct, Keeps Advanced (sub construct)]
  [∀ level construct, Agrees L level n (sub construct) (sub' construct)]

theorem agrees_classBody_succ : Agrees L level (n + 1) (classBody sub) (classBody sub') := by
  unfold classBody; infer_instance

theorem agrees_enumBody_succ : Agrees L level (n + 1) (enumBody sub) (enumBody sub') := by
  unfold enumBody; dsimp only; infer_instance

end

/-! ### The recursion -/

/-- A construct agrees on some tokens if all constructs agree on fewer, and those of lower rank on as
many. -/
theorem agrees_nonterminalWith_succ (sub sub' : Nonterminal → Parse Unit)
    [∀ construct, Keeps Advanced (sub construct)]
    [∀ level construct, Agrees L level n (sub construct) (sub' construct)]
    (construct : Nonterminal)
    (h : ∀ level, ∀ lower : Nonterminal, lower.rank < construct.rank →
      Agrees L level (n + 1) (sub lower) (sub' lower)) :
    Agrees L level (n + 1) (nonterminalWith sub construct) (nonterminalWith sub' construct) := by
  cases construct with
  | arrayInit => exact agrees_arrayInit_succ sub sub'
  | block => exact agrees_block_succ sub sub' _ _
  | classBody => exact agrees_classBody_succ sub sub'
  | enumBody => exact agrees_enumBody_succ sub sub'
  | unary =>
    have (level : Nat) := h level .arrayInit (by decide)
    have (level : Nat) := h level .classBody (by decide)
    exact agrees_unaryExpr_succ sub sub'
  | binary precedence =>
    have (level : Nat) := h level .unary (Nat.lt_succ_self _)
    exact agrees_binaryExpr_succ sub sub' precedence
  | conditional =>
    have (level precedence : Nat) := h level (.binary precedence) (Nat.lt_succ_self _)
    exact agrees_conditionalExpr_succ sub sub'
  | expression =>
    have (level : Nat) := h level .conditional (by decide)
    exact agrees_expression_succ sub sub'
  | statement =>
    have (level : Nat) := h level .block (by decide)
    have (level : Nat) := h level .expression (by decide)
    exact agrees_statement_succ sub sub' _ _

/-- The constructs of the grammar, with a step of one's own for those that nest too deep. -/
def nonterminalOver (bottom : Nonterminal → Parse Unit) : (depth : Nat) → Nonterminal → Parse Unit
  | 0 => bottom
  | depth + 1 => nonterminalWith (nonterminalOver bottom depth)

/-- A depth that a construct cannot exceed on fewer than `n` tokens. -/
def Nonterminal.Fits (construct : Nonterminal) (n depth : Nat) : Prop :=
  8 * n + construct.rank < depth + 8

theorem Nonterminal.rank_le (construct : Nonterminal) : construct.rank ≤ 5 := by
  cases construct <;> simp [Nonterminal.rank]

theorem agrees_nonterminalOver (bottom : Nonterminal → Parse Unit) {n depth depth' : Nat}
    {construct : Nonterminal} (h : construct.Fits n depth) (h' : construct.Fits n depth') :
    Agrees L level n (nonterminalAtMost depth construct) (nonterminalOver bottom depth' construct) := by
  induction depth generalizing level n depth' construct with
  | zero =>
    obtain rfl : n = 0 := by unfold Nonterminal.Fits at h; omega
    exact agrees_zero _ _
  | succ depth ih =>
    cases n with
    | zero => exact agrees_zero _ _
    | succ n =>
      unfold Nonterminal.Fits at h h'
      obtain ⟨depth', rfl⟩ : ∃ k, depth' = k + 1 := ⟨depth' - 1, by omega⟩
      have hless (level : Nat) (lower : Nonterminal) :
          Agrees L level n (nonterminalAtMost depth lower) (nonterminalOver bottom depth' lower) := by
        have := lower.rank_le
        apply ih <;> unfold Nonterminal.Fits <;> omega
      apply agrees_nonterminalWith_succ
      intro level lower hlower
      apply ih <;> unfold Nonterminal.Fits <;> omega

/-- Types, with a step of one's own for those that nest too deep. -/
def typeRefOver (bottom : Parse Unit) : (depth : Nat) → Parse Unit
  | 0 => bottom
  | depth + 1 => typeRefWith (typeRefOver bottom depth)

theorem agrees_typeRefOver (bottom : Parse Unit) {n depth depth' : Nat} (h : n ≤ depth)
    (h' : n ≤ depth') : Agrees L level n (typeRefAtMost depth) (typeRefOver bottom depth') := by
  induction depth generalizing level n depth' with
  | zero =>
    obtain rfl : n = 0 := by omega
    exact agrees_zero _ _
  | succ depth ih =>
    cases n with
    | zero => exact agrees_zero _ _
    | succ n =>
      obtain ⟨depth', rfl⟩ : ∃ k, depth' = k + 1 := ⟨depth' - 1, by omega⟩
      have (level : Nat) : Agrees L level n _ _ :=
        ih (Nat.le_of_succ_le_succ h) (Nat.le_of_succ_le_succ h')
      exact agrees_typeRefWith_succ (typeRefAtMost depth) (typeRefOver bottom depth')

theorem Agrees.eq {α : Type} {step step' : Parse α} {input : Input} {state : State} {n : Nat}
    (h : Agrees .equal 0 n step step') (hl : state.ahead.length < n) :
    step input state = step' input state := by
  obtain ⟨hv, hs⟩ := h.agrees input (rfl : Likeness.equal.alike 0 state state) hl
  exact Prod.ext hv (ite_self (_ = _) ▸ hs)

/-- Whatever a construct would do at the bound of nesting makes no difference. -/
theorem nonterminal_eq_over (bottom : Nonterminal → Parse Unit) (construct : Nonterminal)
    {depth : Nat} (input : Input) {state : State} (h : 8 * (state.ahead.length + 1) ≤ depth) :
    nonterminal construct input state = nonterminalOver bottom depth construct input state := by
  have := construct.rank_le
  refine (agrees_nonterminalOver bottom ?_ ?_).eq (Nat.lt_succ_self _) <;>
    unfold Nonterminal.Fits <;> omega

/-- Whatever a type would do at the bound of nesting makes no difference. -/
theorem typeRef_eq_over (bottom : Parse Unit) {depth : Nat} (input : Input) {state : State}
    (h : state.ahead.length < depth) :
    typeRef input state = typeRefOver bottom depth input state :=
  (agrees_typeRefOver bottom (Nat.le_refl _) h).eq (Nat.lt_succ_self _)

theorem agrees_of_eq {α : Type} {step step' : Parse α} {n : Nat}
    (h : ∀ input state, state.ahead.length < n → step input state = step' input state) :
    Agrees .equal level n step step' := by
  constructor
  rintro input s t rfl hl
  rw [h input s hl]
  exact ⟨rfl, by split <;> rfl⟩

/-- A construct is parsed as if there were no bound. -/
theorem nonterminal_eq (construct : Nonterminal) :
    nonterminal construct = nonterminalWith nonterminal construct := by
  funext input state
  have hparts (level : Nat) (part : Nonterminal) : Agrees .equal level (state.ahead.length + 1)
      (nonterminal part) (nonterminalOver nonterminal (8 * (state.ahead.length + 1)) part) :=
    agrees_of_eq fun input _ hl => nonterminal_eq_over nonterminal part input (by omega)
  rw [nonterminal_eq_over nonterminal construct input (Nat.le_succ _)]
  exact ((agrees_nonterminalWith _ _ construct).eq (Nat.lt_succ_self _)).symm

/-- A type is parsed as if there were no bound. -/
theorem typeRef_eq : typeRef = typeRefWith typeRef := by
  funext input state
  have hparts (level : Nat) : Agrees .equal level (state.ahead.length + 1) typeRef
      (typeRefOver typeRef (state.ahead.length + 1)) :=
    agrees_of_eq fun input _ hl => typeRef_eq_over typeRef input hl
  rw [typeRef_eq_over typeRef input (Nat.lt_succ_of_lt (Nat.lt_succ_self _))]
  exact ((inferInstance : Agrees .equal 0 _ (typeRefWith _) (typeRefWith _)).eq
    (Nat.lt_succ_self _)).symm

end JavaGraph.Parser

/-! ## Rounds -/

namespace JavaGraph.Parser

open Parse

set_option synthInstance.maxSize 8192

/-- A round that passes a token if it asks for another round. -/
class Progresses (round : Parse Bool) : Prop where
  progresses : ∀ {input state after}, round input state = (some true, after) →
    after.ahead.length < state.ahead.length

/-- The same where some tokens are ahead. -/
def ProgressesFrom (ahead : List Token) (round : Parse Bool) : Prop :=
  ∀ ⦃input state after⦄, state.ahead = ahead → round input state = (some true, after) →
    after.ahead.length < ahead.length

theorem progressesFrom {ahead : List Token} {round : Parse Bool} [h : Progresses round] :
    ProgressesFrom ahead round := by
  rintro input state after rfl he
  exact h.progresses he

theorem Progresses.look {α : Type} {f : List Token → α} {next : α → Parse Bool}
    (h : ∀ ahead, ProgressesFrom ahead (next (f ahead))) : Progresses (look f >>= next) :=
  ⟨fun {_ state _} he => h state.ahead rfl he⟩

/-- A round that passes a token wherever there is one progresses there. -/
theorem ProgressesFrom.of_passes {ahead : List Token} {round : Parse Bool} (hs : ahead ≠ [])
    (h : Passes round) : ProgressesFrom ahead round := by
  rintro input state after rfl he
  have := h input state hs
  rw [he] at this
  exact this

/-! ### Rounds put together -/

instance : Progresses (pure false) := ⟨fun h => by cases h⟩

/-- A token is eaten, or the next one is of another kind. -/
theorem eat_cases {kind : TokenKind} (hk : kind ≠ .eof) (input : Input) (state : State) :
    (∃ token ahead, state.ahead = token :: ahead ∧ token.kind = kind ∧
      eat kind input state = (some true, { state with ahead, builder := state.builder.token token })) ∨
      kindAt state.ahead 0 ≠ kind ∧ eat kind input state = (some false, state) := by
  obtain ⟨ahead, builder, errors⟩ := state
  by_cases h : kindAt ahead 0 = kind
  · cases ahead with
    | nil => exact absurd h.symm hk
    | cons token ahead =>
      exact .inl ⟨token, ahead, rfl, h, by simp [eat, isAt, look, Bind.bind, Pure.pure, bump, h]⟩
  · exact .inr ⟨h, by simp [eat, isAt, look, Bind.bind, Pure.pure, h]⟩

theorem isProper_ne (kind : TokenKind) [h : Evaluates (isProper kind)] : kind ≠ .eof := by
  rintro rfl
  cases h.eq_true

instance (kind : TokenKind) [Evaluates (isProper kind)] : Progresses (eat kind) := by
  constructor
  intro input state after he
  rcases eat_cases (isProper_ne kind) input state with ⟨token, ahead, ha, -, h⟩ | ⟨-, h⟩
  · rw [h] at he
    cases he
    rw [ha]
    exact Nat.lt_succ_self _
  · rw [h] at he
    cases he

/-- Either a token is eaten, or it is for the other choice to pass one. -/
theorem ProgressesFrom.eat {ahead : List Token} (kind : TokenKind) [Evaluates (isProper kind)]
    {yes no : Parse Bool} [hy : Keeps Advanced yes] (hn : ProgressesFrom ahead no) :
    ProgressesFrom ahead (eat kind >>= fun here => if here = true then yes else no) := by
  rintro input state after rfl he
  rcases eat_cases (isProper_ne kind) input state with ⟨token, ahead, ha, -, h⟩ | ⟨-, h⟩
  · rw [bind_of_some h, if_pos rfl] at he
    have hl := (hy.keeps input { state with ahead, builder := state.builder.token token }).length_le
    rw [he] at hl
    rw [ha]
    exact Nat.lt_succ_of_le hl
  · rw [bind_of_some h] at he
    exact hn rfl he

/-- Either a token is eaten, or it is for the other choice to pass one. -/
instance consumes_eat {α : Type} (kind : TokenKind) [Evaluates (isProper kind)] (yes no : Parse α)
    [hy : Keeps Advanced yes] [hn : Consumes no] :
    Consumes (eat kind >>= fun here => if here = true then yes else no) := by
  constructor
  intro input state value after he
  rcases eat_cases (isProper_ne kind) input state with ⟨token, ahead, ha, -, h⟩ | ⟨-, h⟩
  · rw [bind_of_some h, if_pos rfl] at he
    have hl := (hy.keeps input { state with ahead, builder := state.builder.token token }).length_le
    rw [he] at hl
    rw [ha]
    exact Nat.lt_succ_of_le hl
  · rw [bind_of_some h] at he
    exact hn.consumes he

/-- A round progresses if its end does. -/
instance progresses_bind {α : Type} (step : Parse α) (next : α → Parse Bool)
    [h : Keeps Advanced step] [hn : ∀ value, Progresses (next value)] :
    Progresses (step >>= next) := by
  constructor
  intro input state after he
  simp only [Bind.bind] at he
  split at he
  · next value middle hm =>
    have ha := (h.keeps input state).length_le
    rw [hm] at ha
    exact Nat.lt_of_lt_of_le ((hn value).progresses he) ha
  · cases he

/-- A round progresses if it has to pass a token. -/
instance progresses_of_consumes (round : Parse Bool) [h : Consumes round] : Progresses round :=
  ⟨fun he => h.consumes he⟩

instance (condition : Prop) [Decidable condition] (yes no : Parse Bool) [hy : Progresses yes]
    [hn : Progresses no] : Progresses (if condition then yes else no) := by
  split
  · exact hy
  · exact hn

/-- The loop over tokens of a kind whose step passes a token. -/
theorem progresses_whileAt {kind : TokenKind} (hk : kind ≠ .eof) {step : Parse Unit}
    (h : Passes step) :
    Progresses (do
      if ← isAt kind then
        step
        return true
      else return false) := by
  apply Progresses.look
  intro ahead
  split
  · next hat =>
    have hs : ahead ≠ [] := by
      rintro rfl
      exact hk (beq_iff_eq.1 hat).symm
    have hround : Passes (step >>= fun _ => pure true) := h.bind
    exact .of_passes hs hround
  · exact progressesFrom

/-! ### The bound on the rounds -/

/-- A loop with a step of one's own behind the last round it may have. -/
def loopOver (bottom : Parse Unit) : (rounds : Nat) → Parse Bool → Parse Unit
  | 0, _ => bottom
  | rounds + 1, round => do
    if ← round then loopOver bottom rounds round

section

variable (round : Parse Bool) [h : Progresses round]

theorem loopAtMost_eq_over (bottom : Parse Unit) {rounds rounds' : Nat} (input : Input)
    {state : State} (hr : state.ahead.length < rounds) (hr' : state.ahead.length < rounds') :
    loopAtMost rounds round input state = loopOver bottom rounds' round input state := by
  induction rounds generalizing rounds' state with
  | zero => exact absurd hr (Nat.not_lt_zero _)
  | succ rounds ih =>
    cases rounds' with
    | zero => exact absurd hr' (Nat.not_lt_zero _)
    | succ rounds' =>
      simp only [loopAtMost, loopOver, Bind.bind]
      split
      · next again after he =>
        cases again with
        | false => rfl
        | true =>
          have hl := h.progresses he
          exact ih (by omega) (by omega)
      · rfl

/-- Whatever a loop would do behind its last round makes no difference. -/
theorem loop_eq_over (bottom : Parse Unit) {rounds : Nat} (input : Input) {state : State}
    (hr : state.ahead.length < rounds) :
    loop round input state = loopOver bottom rounds round input state :=
  loopAtMost_eq_over round bottom input (Nat.lt_succ_self _) hr

/-- A loop goes on as if there were no bound. -/
theorem loop_eq : loop round = (do if ← round then loop round) := by
  funext input state
  rw [loop_eq_over round (loop round) input (Nat.lt_succ_self _)]
  simp only [loopOver, Bind.bind]
  split
  · next again after he =>
    cases again with
    | false => rfl
    | true => exact (loop_eq_over round (loop round) input (h.progresses he)).symm
  · rfl

end

/-! ### The lists of the grammar -/

/-- The lists whose items are constructs that may fail. -/
inductive Listing where
  | imports
  | declarations
  | members
  | constants
  | statements (ends : List TokenKind)
  | cases
  | resources
  | elements
  | declarators

/-- One round of a list. -/
def Listing.round : Listing → Parse Bool
  | .imports => do
    if ← isAt .kwImport then
      recovering .declaration importDecl
      return true
    else return false
  | .declarations => do
    if ← atEnd then return false
    else if ← eat .semicolon then return true
    else
      recovering .declaration topLevelDeclaration
      return true
  | .members => do
    let kind ← look fun ahead => kindAt ahead 0
    if kind == .rBrace || kind == .eof then return false
    else if ← eat .semicolon then return true
    else
      recovering .statement (member nonterminal)
      return true
  | .constants => do
    if (← isAt .ident) || (← isAt .atSign) then
      recovering .statement (enumConstant nonterminal)
      eat .comma
    else return false
  | .statements ends => do
    let kind ← look fun ahead => kindAt ahead 0
    if kind == .rBrace || kind == .eof || ends.contains kind then return false
    else
      recovering .statement (blockStatement nonterminal (typeDeclaration nonterminal))
      return true
  | .cases => do
    if (← isAt .kwCase) || (← isAt .kwDefault) then
      switchCase nonterminal (typeDeclaration nonterminal)
      return true
    else return false
  | .resources => do
    if (← isAt .rParen) || (← atEnd) then return false
    else
      inNode .resourceSpec do
        if ← look atLocalVariable then localVariables nonterminal else nonterminal .expression
      eat .semicolon
  | .elements => do
    if (← isAt .rBrace) || (← atEnd) then return false
    else
      variableInitializer nonterminal
      eat .comma
  | .declarators => do
    inNode .variableDeclarator do
      expectIdent
      dimensions
      if ← eat .assign then variableInitializer nonterminal
    eat .comma

instance : Consumes (nonterminal .block) :=
  ⟨fun he => (consumes_nonterminalAtMost _).1.consumes he⟩

instance : Consumes (nonterminal .statement) :=
  ⟨fun he => (consumes_nonterminalAtMost _).2.consumes he⟩

instance : Consumes importDecl := by unfold importDecl; dsimp only; infer_instance

instance : Consumes topLevelDeclaration := by unfold topLevelDeclaration; infer_instance

instance (sub : Nonterminal → Parse Unit) [∀ construct, Keeps Advanced (sub construct)]
    (declaration : Checkpoint → Parse Unit) [∀ place, Keeps Advanced (declaration place)] :
    Consumes (switchCase sub declaration) := by
  unfold switchCase; dsimp only; infer_instance

/-- Before a token that closes no list, an item passes a token. -/
theorem progressesFrom_recovering {ahead : List Token} {step : Parse Unit} [Consumes step]
    [Keeps Advanced step] (hb : kindAt ahead 0 ≠ .rBrace) (hend : kindAt ahead 0 ≠ .eof) :
    ProgressesFrom ahead (do
      recovering .statement step
      return true) := by
  rintro input state after rfl he
  have hl := recovering_statement_consumes step input hb hend
  obtain ⟨_, hv⟩ := Option.isSome_iff_exists.1 (succeeds_recovering .statement step input state)
  rw [bind_of_some (Prod.ext hv rfl)] at he
  cases he
  exact hl

/-- A round of a list that asks for another one has passed a token. -/
theorem progresses_round (listing : Listing) : Progresses listing.round := by
  cases listing with
  | imports =>
    exact progresses_whileAt (by decide) (recovering_declaration_passes Consumes.consumes)
  | declarations =>
    unfold Listing.round atEnd isAt
    apply Progresses.look
    intro ahead
    split
    · exact progressesFrom
    · next hend =>
      have hs : ahead ≠ [] := by
        rintro rfl
        exact hend rfl
      have hitem : Passes (do
          recovering .declaration topLevelDeclaration
          return true) := recovering_passes.bind
      exact .eat .semicolon (.of_passes hs hitem)
  | members =>
    apply Progresses.look
    intro ahead
    split
    · exact progressesFrom
    · next hstop =>
      simp only [Bool.or_eq_true, beq_iff_eq, not_or] at hstop
      exact .eat .semicolon (progressesFrom_recovering hstop.1 hstop.2)
  | constants => unfold Listing.round; infer_instance
  | statements ends =>
    apply Progresses.look
    intro ahead
    split
    · exact progressesFrom
    · next hstop =>
      simp only [Bool.or_eq_true, beq_iff_eq, not_or] at hstop
      exact progressesFrom_recovering hstop.1.1 hstop.1.2
  | cases => unfold Listing.round; infer_instance
  | resources => unfold Listing.round; infer_instance
  | elements => unfold Listing.round; infer_instance
  | declarators => unfold Listing.round; infer_instance

end JavaGraph.Parser
