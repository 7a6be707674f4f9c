import JavaGraph.Proofs.Parser.Progress
import JavaGraph.Proofs.Parser.Recovery
/-!
# Steps that cannot be told apart

Two steps agree on states with fewer than some number of tokens ahead if, begun in two states that
are alike there, they give the same result and end in states that are alike. What is alike is a
parameter: equal states, or states with the same tokens ahead whatever has been built.

States are alike at a level, which is the number of nodes that are open. What is built within a node
is one level further in, and a step comes back to the level that it was begun at. A step that fails
may leave nodes open. Then the states are astray, and recovery brings them back.

A step that passes a token needs agreement behind it for one token less only. So steps that are put
together from steps which agree on fewer tokens agree on more, and a recursion that always passes a
token does not depend on where it is cut off.
-/

namespace JavaGraph.Parser

open Parse

set_option synthInstance.maxSize 8192

/-- States that are alike at a level, states that have gone astray from there, and the places that
belong together. Every primitive step keeps states alike. -/
structure Likeness where
  alike : (level : Nat) → State → State → Prop
  astray : (level : Nat) → State → State → Prop
  places : (level : Nat) → Checkpoint → Checkpoint → Prop
  ahead_eq : ∀ {level s t}, alike level s t → s.ahead = t.ahead
  fail : ∀ {level s t}, alike level s t → astray level s t
  outward : ∀ {level s t}, astray (level + 1) s t → astray level s t
  checkpoint : ∀ {level s t}, alike level s t →
    places level s.builder.checkpoint t.builder.checkpoint
  bump : ∀ {level token ahead s t errors errors'},
    alike level ⟨token :: ahead, s, errors⟩ ⟨token :: ahead, t, errors'⟩ →
      alike level ⟨ahead, s.token token, errors⟩ ⟨ahead, t.token token, errors'⟩
  record : ∀ {level s t} error, alike level s t →
    alike level { s with errors := s.errors ++ [error] } { t with errors := t.errors ++ [error] }
  start : ∀ {level s t} kind anchor, alike level s t →
    alike (level + 1) { s with builder := s.builder.start kind anchor }
      { t with builder := t.builder.start kind anchor }
  startAt : ∀ {level s t place place'} kind anchor, places level place place' → alike level s t →
    alike (level + 1) { s with builder := s.builder.startAt place kind anchor }
      { t with builder := t.builder.startAt place' kind anchor }
  finish : ∀ {level s t}, alike (level + 1) s t →
    alike level { s with builder := s.builder.finishNode } { t with builder := t.builder.finishNode }
  recover : ∀ {level input before before' after after'} resume, alike level before before' →
    astray level after after' → before.errors.length ≤ after.errors.length →
    alike level
      (recover resume before.builder.checkpoint before.errors.length before.ahead.length input after).2
      (recover resume before'.builder.checkpoint before'.errors.length before'.ahead.length input
        after').2

/-- States are alike if they are equal. -/
def Likeness.equal : Likeness where
  alike _ := Eq
  astray _ := Eq
  places _ := Eq
  ahead_eq h := by rw [h]
  fail := id
  outward := id
  checkpoint h := by rw [h]
  bump h := by cases h; rfl
  record _ h := by rw [h]
  start _ _ h := by rw [h]
  startAt _ _ hp h := by rw [hp, h]
  finish h := by rw [h]
  recover _ hb ha _ := by rw [hb, ha]

/-- States are alike if they have the same tokens ahead. -/
def Likeness.ahead : Likeness where
  alike _ s t := s.ahead = t.ahead
  astray _ s t := s.ahead = t.ahead
  places _ _ _ := True
  ahead_eq := id
  fail := id
  outward := id
  checkpoint _ := trivial
  bump _ := rfl
  record _ h := h
  start _ _ h := h
  startAt _ _ _ h := h
  finish := id
  recover {_ _ before before' after after'} resume hb ha _ := by
    rw [recover_ahead, recover_ahead, hb, ha]

variable {L : Likeness} {level : Nat} {α β : Type}

/-- Two places that belong together. -/
structure Likeness.Places (L : Likeness) (level : Nat) where
  left : Checkpoint
  right : Checkpoint
  together : L.places level left right

/-- Two results that are the same, with states that are alike behind a value and astray behind a
failure. -/
def Likeness.Matches (L : Likeness) (level : Nat) (result result' : Option α × State) : Prop :=
  result.1 = result'.1 ∧
    if result.1.isSome then L.alike level result.2 result'.2 else L.astray level result.2 result'.2

/-- What is alike within a node is alike behind it, and what goes astray there has gone astray. -/
theorem Likeness.Matches.finishNode {step step' : Parse Unit} {input : Input} {s t : State}
    (h : L.Matches (level + 1) (step input s) (step' input t)) :
    L.Matches level ((do step; finishNode) input s) ((do step'; finishNode) input t) := by
  obtain ⟨hv, ha⟩ := h
  simp only [Bind.bind]
  obtain ⟨value, after, he⟩ : ∃ value after, step input s = (value, after) := ⟨_, _, rfl⟩
  obtain ⟨value', after', he'⟩ : ∃ value after, step' input t = (value, after) := ⟨_, _, rfl⟩
  rw [he, he'] at hv ha ⊢
  obtain rfl : value = value' := hv
  cases value with
  | none => exact ⟨rfl, L.outward ha⟩
  | some value => exact ⟨rfl, L.finish ha⟩

/-- Two steps agree where fewer than `n` tokens are ahead. -/
class Agrees (L : Likeness) (level n : Nat) (step step' : Parse α) : Prop where
  agrees : ∀ input {s t}, L.alike level s t → s.ahead.length < n →
    L.Matches level (step input s) (step' input t)

/-- Two steps agree where some tokens are ahead. -/
def AgreesFrom (L : Likeness) (level : Nat) (ahead : List Token) (step step' : Parse α) : Prop :=
  ∀ input {s t}, L.alike level s t → s.ahead = ahead →
    L.Matches level (step input s) (step' input t)

/-- No state has fewer tokens ahead than none. -/
theorem agrees_zero (step step' : Parse α) : Agrees L level 0 step step' :=
  ⟨fun _ _ _ _ h => absurd h (Nat.not_lt_zero _)⟩

theorem Agrees.from {n : Nat} {step step' : Parse α} (h : Agrees L level n step step')
    {ahead : List Token} (hl : ahead.length < n) : AgreesFrom L level ahead step step' := by
  intro input s t hst hs
  exact h.agrees input hst (by rw [hs]; exact hl)

theorem agrees_of_from {n : Nat} {step step' : Parse α}
    (h : ∀ ahead, ahead.length < n → AgreesFrom L level ahead step step') :
    Agrees L level n step step' :=
  ⟨fun input s _ hst hl => h s.ahead hl input hst rfl⟩

theorem Agrees.mono {n m : Nat} {step step' : Parse α} (h : Agrees L level n step step')
    (hm : m ≤ n) : Agrees L level m step step' :=
  ⟨fun input _ _ hst hl => h.agrees input hst (Nat.lt_of_lt_of_le hl hm)⟩

variable {n : Nat}

/-! ### Steps that change nothing -/

instance (value : α) : Agrees L level n (pure value) (pure value) := ⟨fun _ _ _ h _ => ⟨rfl, h⟩⟩

instance : Agrees L level n (fail : Parse α) fail := ⟨fun _ _ _ h _ => ⟨rfl, L.fail h⟩⟩

instance (f : List Token → α) : Agrees L level n (look f) (look f) :=
  ⟨fun _ _ _ h _ => ⟨by simp only [look, L.ahead_eq h], h⟩⟩

instance (kind : TokenKind) : Agrees L level n (isAt kind) (isAt kind) := by unfold isAt; infer_instance

instance (k : Nat) (kind : TokenKind) : Agrees L level n (isAtNth k kind) (isAtNth k kind) := by
  unfold isAtNth; infer_instance

instance : Agrees L level n atEnd atEnd := by unfold atEnd; infer_instance

/-! ### Steps put together -/

/-- Steps in sequence agree if the first ones agree, and those behind them on what is left. -/
theorem AgreesFrom.bind {ahead : List Token} {step step' : Parse α} {next next' : α → Parse β}
    (h : AgreesFrom L level ahead step step')
    (hn : ∀ input value middle, middle.ahead.length ≤ ahead.length →
      (∃ s, s.ahead = ahead ∧ step input s = (some value, middle)) →
      AgreesFrom L level middle.ahead (next value) (next' value)) [hk : Keeps Advanced step] :
    AgreesFrom L level ahead (step >>= next) (step' >>= next') := by
  intro input s t hst hs
  obtain ⟨hv, ha⟩ := h input hst hs
  have hl := (hk.keeps input s).length_le
  simp only [Bind.bind]
  obtain ⟨value, middle, he⟩ : ∃ value middle, step input s = (value, middle) := ⟨_, _, rfl⟩
  obtain ⟨value', middle', he'⟩ : ∃ value middle, step' input t = (value, middle) := ⟨_, _, rfl⟩
  rw [he, he'] at hv ha
  rw [he] at hl
  obtain rfl : value = value' := hv
  rw [he, he']
  cases value with
  | none => exact ⟨rfl, ha⟩
  | some value =>
    rw [hs] at hl
    exact hn input value middle hl ⟨s, hs, he⟩ input ha rfl

instance agrees_bind (step step' : Parse α) (next next' : α → Parse β) [h : Agrees L level n step step']
    [Keeps Advanced step] [hn : ∀ value, Agrees L level n (next value) (next' value)] :
    Agrees L level n (step >>= next) (step' >>= next') :=
  agrees_of_from fun _ hl => (h.from hl).bind fun _ value _ hm _ =>
    (hn value).from (Nat.lt_of_le_of_lt hm hl)

/-- Behind a step that passes a token, one token less is left. -/
instance (priority := high) agrees_bind_consumes (step step' : Parse α) (next next' : α → Parse β)
    [h : Agrees L level (n + 1) step step'] [Keeps Advanced step] [hc : Consumes step]
    [hn : ∀ value, Agrees L level n (next value) (next' value)] :
    Agrees L level (n + 1) (step >>= next) (step' >>= next') :=
  agrees_of_from fun _ hl => (h.from hl).bind fun _ value middle _ he => by
    obtain ⟨s, rfl, he⟩ := he
    exact (hn value).from (Nat.lt_of_lt_of_le (hc.consumes he) (Nat.le_of_lt_succ hl))

/-- A place is remembered in both states. -/
instance (next next' : Checkpoint → Parse α)
    [h : ∀ place : L.Places level, Agrees L level n (next place.left) (next' place.right)] :
    Agrees L level n (checkpoint >>= next) (checkpoint >>= next') :=
  ⟨fun input _ _ hst hl => (h ⟨_, _, L.checkpoint hst⟩).agrees input hst hl⟩

instance (f : α → β) (step step' : Parse α) [Agrees L level n step step'] [Keeps Advanced step] :
    Agrees L level n (f <$> step) (f <$> step') :=
  inferInstanceAs (Agrees L level n (step >>= fun value => pure (f value))
    (step' >>= fun value => pure (f value)))

instance (step step' : Parse α) [Agrees L level n step step'] [Keeps Advanced step] :
    Agrees L level n (discard step) (discard step') :=
  inferInstanceAs (Agrees L level n (step >>= fun _ => pure PUnit.unit)
    (step' >>= fun _ => pure PUnit.unit))

instance (condition : Prop) [Decidable condition] (yes yes' no no' : Parse α)
    [hy : Agrees L level n yes yes'] [hn : Agrees L level n no no'] :
    Agrees L level n (if condition then yes else no) (if condition then yes' else no') := by
  split
  · exact hy
  · exact hn

/-- What is done may depend on the tokens ahead, which are the same. -/
theorem Agrees.onAhead {f f' : List Token → Parse α}
    (h : ∀ ahead, ahead.length < n → AgreesFrom L level ahead (f ahead) (f' ahead)) :
    Agrees L level n (Parse.onAhead f) (Parse.onAhead f') := by
  constructor
  intro input s t hst hl
  have he : (Parse.onAhead f') input t = f' s.ahead input t := by
    unfold Parse.onAhead
    rw [L.ahead_eq hst]
  rw [he]
  exact h s.ahead hl input hst rfl

/-- What comes behind a look may depend on what has been seen. -/
theorem Agrees.look {f : List Token → α} {next next' : α → Parse β}
    (h : ∀ ahead, ahead.length < n → AgreesFrom L level ahead (next (f ahead)) (next' (f ahead))) :
    Agrees L level n (look f >>= next) (look f >>= next') :=
  Agrees.onAhead h

/-- A choice by the kind of the next token. -/
theorem Agrees.isAt {kind : TokenKind} {next next' : Bool → Parse β}
    (h : ∀ ahead, ahead.length < n → kindAt ahead 0 = kind →
      AgreesFrom L level ahead (next true) (next' true)) (hn : Agrees L level n (next false) (next' false)) :
    Agrees L level n (isAt kind >>= next) (isAt kind >>= next') := by
  apply Agrees.look
  intro ahead hl
  by_cases hk : kindAt ahead 0 = kind
  · rw [beq_iff_eq.2 hk]
    exact h ahead hl hk
  · rw [beq_eq_false_iff_ne.2 hk]
    exact hn.from hl

theorem agrees_loopAtMost (rounds : Nat) (step step' : Parse Bool) [h : Agrees L level n step step']
    [Keeps Advanced step] : Agrees L level n (loopAtMost rounds step) (loopAtMost rounds step') := by
  induction rounds with
  | zero => unfold loopAtMost; infer_instance
  | succ rounds ih => unfold loopAtMost; infer_instance

instance (step step' : Parse Bool) [Agrees L level n step step'] [Keeps Advanced step] :
    Agrees L level n (loop step) (loop step') :=
  Agrees.onAhead fun ahead hl => (agrees_loopAtMost (ahead.length + 1) step step').from hl

instance (kind : TokenKind) (step step' : Parse Unit) [Agrees L level n step step']
    [Keeps Advanced step] : Agrees L level n (whileAt kind step) (whileAt kind step') := by
  unfold whileAt; infer_instance

/-! ### Primitive steps -/

instance : Agrees L level n bump bump := by
  constructor
  intro input s t hst _
  obtain ⟨ahead, builder, errors⟩ := s
  obtain ⟨ahead', builder', errors'⟩ := t
  obtain rfl : ahead = ahead' := L.ahead_eq hst
  cases ahead with
  | nil => exact ⟨rfl, hst⟩
  | cons token ahead => exact ⟨rfl, L.bump hst⟩

instance agrees_bumpMany (count : Nat) : Agrees L level n (bumpMany count) (bumpMany count) := by
  induction count with
  | zero => unfold bumpMany; infer_instance
  | succ count ih => unfold bumpMany; infer_instance

instance (kind : TokenKind) : Agrees L level n (eat kind) (eat kind) := by unfold eat; infer_instance

instance (what : String) : Agrees L level n (errorExpected what) (errorExpected what) := by
  constructor
  intro input s t hst _
  obtain ⟨ahead, builder, errors⟩ := s
  obtain ⟨ahead', builder', errors'⟩ := t
  obtain rfl : ahead = ahead' := L.ahead_eq hst
  exact ⟨rfl, L.record _ hst⟩

instance (item item' : Parse Unit) [Agrees L level n item item'] [Keeps Advanced item] :
    Agrees L level n (commaSeparated item) (commaSeparated item') := by
  unfold commaSeparated; infer_instance

instance (kind : TokenKind) (what : String) : Agrees L level n (expect kind what) (expect kind what) := by
  unfold expect; infer_instance

instance : Agrees L level n expectIdent expectIdent := by unfold expectIdent; infer_instance

instance : Agrees L level n expectClosingBrace expectClosingBrace := by
  unfold expectClosingBrace; infer_instance

/-- What is built within a node agrees further in. -/
theorem AgreesFrom.inNode {ahead : List Token} {step step' : Parse Unit}
    (h : AgreesFrom L (level + 1) ahead step step') (kind : NodeKind) :
    AgreesFrom L level ahead (inNode kind step) (inNode kind step') := by
  intro input s t hst hs
  obtain ⟨tokens, builder, errors⟩ := s
  obtain ⟨tokens', builder', errors'⟩ := t
  obtain rfl : tokens = tokens' := L.ahead_eq hst
  exact (h input (L.start kind (tokens.headD input.endToken) hst) hs).finishNode

/-- The same around what has been built since two places that belong together. -/
theorem AgreesFrom.aroundSince {ahead : List Token} {step step' : Parse Unit}
    (h : AgreesFrom L (level + 1) ahead step step') (place : L.Places level) (kind : NodeKind) :
    AgreesFrom L level ahead (aroundSince place.left kind step)
      (aroundSince place.right kind step') := by
  intro input s t hst hs
  obtain ⟨tokens, builder, errors⟩ := s
  obtain ⟨tokens', builder', errors'⟩ := t
  obtain rfl : tokens = tokens' := L.ahead_eq hst
  exact (h input (L.startAt kind (tokens.headD input.endToken) place.together hst) hs).finishNode

instance (kind : NodeKind) (step step' : Parse Unit) [h : Agrees L (level + 1) n step step'] :
    Agrees L level n (inNode kind step) (inNode kind step') :=
  agrees_of_from fun _ hl => (h.from hl).inNode kind

instance (kind : NodeKind) : Agrees L level n (tokenNode kind) (tokenNode kind) := by
  unfold tokenNode; infer_instance

instance : Agrees L level n dimensions dimensions := by unfold dimensions; infer_instance

instance (place : L.Places level) (kind : NodeKind) (step step' : Parse Unit)
    [h : Agrees L (level + 1) n step step'] :
    Agrees L level n (aroundSince place.left kind step) (aroundSince place.right kind step') :=
  agrees_of_from fun _ hl => (h.from hl).aroundSince place kind

/-- Recovery goes on in the same way behind both steps. -/
instance (resume : Resume) (step step' : Parse Unit) [h : Agrees L level n step step']
    [hk : Keeps Advanced step] :
    Agrees L level n (recovering resume step) (recovering resume step') := by
  constructor
  intro input s t hst hl
  obtain ⟨hv, ha⟩ := h.agrees input hst hl
  have herrors := (hk.keeps input s).errors_le
  obtain ⟨value, after, he⟩ : ∃ value after, step input s = (value, after) := ⟨_, _, rfl⟩
  obtain ⟨value', after', he'⟩ : ∃ value after, step' input t = (value, after) := ⟨_, _, rfl⟩
  rw [he, he'] at hv ha
  rw [he] at herrors
  obtain rfl : value = value' := hv
  unfold recovering
  rw [he, he']
  cases value with
  | none => exact ⟨rfl, L.recover resume hst ha herrors⟩
  | some value => exact ⟨rfl, ha⟩

/-! ### A token that is known to be there -/

/-- Behind the next token, one token less is left. -/
theorem agreesFrom_bump {ahead : List Token} {next next' : Unit → Parse β}
    (hk : kindAt ahead 0 ≠ .eof) (hl : ahead.length < n + 1)
    [h : Agrees L level n (next ()) (next' ())] :
    AgreesFrom L level ahead (bump >>= next) (bump >>= next') := by
  intro input s t hst hs
  obtain ⟨tokens, builder, errors⟩ := s
  obtain ⟨tokens', builder', errors'⟩ := t
  obtain rfl : tokens = ahead := hs
  obtain rfl : tokens = tokens' := L.ahead_eq hst
  cases tokens with
  | nil => exact absurd rfl hk
  | cons token ahead => exact h.agrees input (L.bump hst) (Nat.lt_of_succ_lt_succ hl)

/-- The same for more than one token. -/
theorem agreesFrom_bumpMany {ahead : List Token} {next next' : Unit → Parse β} (count : Nat)
    (hk : kindAt ahead 0 ≠ .eof) (hl : ahead.length < n + 1)
    [h : Agrees L level n (next ()) (next' ())] :
    AgreesFrom L level ahead (bumpMany (count + 1) >>= next) (bumpMany (count + 1) >>= next') := by
  unfold bumpMany
  rw [bind_assoc, bind_assoc]
  exact agreesFrom_bump hk hl

end JavaGraph.Parser

/-!
## The grammar agrees with itself

A construct whose parts agree agrees as well, on states with as many tokens ahead. The constructs
come in the order in which they are built on one another.
-/

namespace JavaGraph.Parser

open Parse

set_option synthInstance.maxSize 8192

variable {L : Likeness} {level n : Nat}

/-! ### Types, annotations and parameters -/

instance : Agrees L level n dottedRest dottedRest := by unfold dottedRest; infer_instance

instance : Agrees L level n qualifiedName qualifiedName := by unfold qualifiedName; infer_instance

instance : Agrees L level n typeAnnotations typeAnnotations := by unfold typeAnnotations; infer_instance

section

variable (nested nested' : Parse Unit) [Keeps Advanced nested] [∀ level, Agrees L level n nested nested']

instance : Agrees L level n (typeArgumentWith nested) (typeArgumentWith nested') := by
  unfold typeArgumentWith; infer_instance

instance : Agrees L level n (typeArgumentsWith nested) (typeArgumentsWith nested') := by
  unfold typeArgumentsWith; dsimp only; infer_instance

instance : Agrees L level n (classTypeWith nested) (classTypeWith nested') := by
  unfold classTypeWith; dsimp only; infer_instance

instance : Agrees L level n (elementTypeWith nested) (elementTypeWith nested') := by
  unfold elementTypeWith; infer_instance

instance : Agrees L level n (typeRefWith nested) (typeRefWith nested') := by
  unfold typeRefWith; infer_instance

end

instance agrees_typeRefAtMost (depth : Nat) :
    Agrees L level n (typeRefAtMost depth) (typeRefAtMost depth) := by
  induction depth generalizing level with
  | zero => unfold typeRefAtMost; infer_instance
  | succ depth ih => unfold typeRefAtMost; infer_instance

instance : Agrees L level n typeRef typeRef :=
  Agrees.onAhead fun _ hl => Agrees.from inferInstance hl

instance : Agrees L level n typeArguments typeArguments := by unfold typeArguments; infer_instance

instance : Agrees L level n typeRefNoDimensions typeRefNoDimensions := by
  unfold typeRefNoDimensions; infer_instance

instance : Agrees L level n typeList typeList := by unfold typeList; infer_instance

instance : Agrees L level n typeParameter typeParameter := by unfold typeParameter; infer_instance

instance : Agrees L level n typeParametersOpt typeParametersOpt := by
  unfold typeParametersOpt; infer_instance

instance : Agrees L level n annotationArguments annotationArguments := by
  unfold annotationArguments
  apply Agrees.onAhead
  intro ahead hl
  split <;> exact Agrees.from inferInstance hl

instance : Agrees L level n annotationUse annotationUse := by unfold annotationUse; infer_instance

instance : Agrees L level n modifiers modifiers := by unfold modifiers; infer_instance

instance : Agrees L level n parameter parameter := by unfold parameter; dsimp only; infer_instance

instance : Agrees L level n formalParameters formalParameters := by
  unfold formalParameters; dsimp only; infer_instance

/-! ### Expressions -/

section

variable (sub sub' : Nonterminal → Parse Unit) [∀ construct, Keeps Advanced (sub construct)]
  [∀ level construct, Agrees L level n (sub construct) (sub' construct)]

instance : Agrees L level n (arguments sub) (arguments sub') := by
  unfold arguments; dsimp only; infer_instance

instance : Agrees L level n (variableInitializer sub) (variableInitializer sub') := by
  unfold variableInitializer; infer_instance

instance : Agrees L level n (arrayInit sub) (arrayInit sub') := by unfold arrayInit; infer_instance

instance : Agrees L level n lambdaParameters lambdaParameters := by
  unfold lambdaParameters; dsimp only; infer_instance

instance : Agrees L level n (lambda sub) (lambda sub') := by unfold lambda; infer_instance

instance : Agrees L level n (arrayLengths sub) (arrayLengths sub') := by
  unfold arrayLengths; dsimp only; infer_instance

instance : Agrees L level n (newExpr sub) (newExpr sub') := by
  rw [newExpr_eq, newExpr_eq]; infer_instance

section

variable (place : L.Places level)

instance : Agrees L level n (memberOf sub place.left) (memberOf sub' place.right) := by
  unfold memberOf
  apply Agrees.look
  intro ahead hl
  dsimp only [id]
  split
  case h_1 => split <;> exact Agrees.from inferInstance hl
  all_goals exact Agrees.from inferInstance hl

instance : Agrees L level n (postfixPart sub place.left) (postfixPart sub' place.right) := by
  unfold postfixPart
  apply Agrees.look
  intro ahead hl
  split <;> exact Agrees.from inferInstance hl

end

instance : Agrees L level n (namedOperand sub) (namedOperand sub') := by
  unfold namedOperand; infer_instance

instance (kind : NodeKind) [Evaluates (isInner kind)] :
    Agrees L level n (selfOperand sub kind) (selfOperand sub' kind) := by
  unfold selfOperand; infer_instance

instance : Agrees L level n primitiveOperand primitiveOperand := by
  unfold primitiveOperand; infer_instance

instance : Agrees L level n (primary sub) (primary sub') := by
  unfold primary
  apply Agrees.look
  intro ahead hl
  split <;> exact Agrees.from inferInstance hl

instance : Agrees L level n (postfixExpr sub) (postfixExpr sub') := by
  unfold postfixExpr; infer_instance

instance : Agrees L level n (castExpr sub) (castExpr sub') := by unfold castExpr; infer_instance

instance : Agrees L level n (unaryExpr sub) (unaryExpr sub') := by
  unfold unaryExpr
  apply Agrees.look
  intro ahead hl
  dsimp only [id]
  split <;> exact Agrees.from inferInstance hl

instance (place : L.Places level) : Agrees L level n (typeTest place.left) (typeTest place.right) := by
  unfold typeTest; infer_instance

instance (place : L.Places level) (precedence : Nat) : Agrees L level n
    (operatorPart sub place.left precedence) (operatorPart sub' place.right precedence) := by
  unfold operatorPart
  apply Agrees.look
  intro ahead hl
  split <;> exact Agrees.from inferInstance hl

instance (precedence : Nat) :
    Agrees L level n (binaryExpr sub precedence) (binaryExpr sub' precedence) := by
  unfold binaryExpr; infer_instance

instance : Agrees L level n (conditionalExpr sub) (conditionalExpr sub') := by
  unfold conditionalExpr; infer_instance

instance : Agrees L level n (expression sub) (expression sub') := by
  unfold expression
  apply Agrees.look
  intro ahead hl
  split
  · exact Agrees.from inferInstance hl
  · have hassigned (place : L.Places level) : Agrees L level n
        (look assignmentWidth? >>= fun width? => match width? with
          | none => pure ()
          | some width => aroundSince place.left .assignExpr do
            bumpMany width
            sub .expression)
        (look assignmentWidth? >>= fun width? => match width? with
          | none => pure ()
          | some width => aroundSince place.right .assignExpr do
            bumpMany width
            sub' .expression) := by
      apply Agrees.look
      intro ahead hl
      split <;> exact Agrees.from inferInstance hl
    exact Agrees.from inferInstance hl

end

/-! ### Statements -/

section

variable (sub sub' : Nonterminal → Parse Unit) [∀ construct, Keeps Advanced (sub construct)]
  [∀ level construct, Agrees L level n (sub construct) (sub' construct)]

instance : Agrees L level n (variableDeclarators sub) (variableDeclarators sub') := by
  unfold variableDeclarators; infer_instance

instance : Agrees L level n (localVariables sub) (localVariables sub') := by
  unfold localVariables; infer_instance

instance : Agrees L level n (condition sub) (condition sub') := by unfold condition; infer_instance

instance : Agrees L level n (expressionList sub) (expressionList sub') := by
  unfold expressionList; infer_instance

instance : Agrees L level n (expressionStmt sub) (expressionStmt sub') := by
  unfold expressionStmt; infer_instance

instance : Agrees L level n (ifStmt sub) (ifStmt sub') := by unfold ifStmt; infer_instance

instance : Agrees L level n (whileStmt sub) (whileStmt sub') := by unfold whileStmt; infer_instance

instance : Agrees L level n (doStmt sub) (doStmt sub') := by unfold doStmt; infer_instance

instance : Agrees L level n (forInit sub) (forInit sub') := by unfold forInit; infer_instance

instance : Agrees L level n (forEachHeader sub) (forEachHeader sub') := by
  unfold forEachHeader; infer_instance

instance : Agrees L level n (forHeader sub) (forHeader sub') := by
  unfold forHeader; dsimp only; infer_instance

instance : Agrees L level n (forStmt sub) (forStmt sub') := by
  rw [forStmt_eq, forStmt_eq]; infer_instance

instance : Agrees L level n (returnStmt sub) (returnStmt sub') := by
  unfold returnStmt; dsimp only; infer_instance

instance : Agrees L level n (throwStmt sub) (throwStmt sub') := by unfold throwStmt; infer_instance

instance (kind : NodeKind) [Evaluates (isInner kind)] :
    Agrees L level n (jumpStmt kind) (jumpStmt kind) := by
  unfold jumpStmt; infer_instance

instance : Agrees L level n (syncStmt sub) (syncStmt sub') := by unfold syncStmt; infer_instance

instance : Agrees L level n (assertStmt sub) (assertStmt sub') := by
  unfold assertStmt; dsimp only; infer_instance

instance : Agrees L level n (labeledStmt sub) (labeledStmt sub') := by unfold labeledStmt; infer_instance

instance : Agrees L level n (resources sub) (resources sub') := by unfold resources; infer_instance

instance : Agrees L level n (catchClause sub) (catchClause sub') := by unfold catchClause; infer_instance

instance : Agrees L level n (tryStmt sub) (tryStmt sub') := by
  unfold tryStmt; dsimp only; infer_instance

variable (declaration declaration' : Checkpoint → Parse Unit)
  [∀ place, Keeps Advanced (declaration place)]
  [∀ level (place : L.Places level),
    Agrees L level n (declaration place.left) (declaration' place.right)]

instance : Agrees L level n (blockStatement sub declaration) (blockStatement sub' declaration') := by
  unfold blockStatement; infer_instance

instance (ends : List TokenKind) : Agrees L level n (blockStatements sub declaration ends)
    (blockStatements sub' declaration' ends) := by
  unfold blockStatements; infer_instance

instance : Agrees L level n (block sub declaration) (block sub' declaration') := by
  unfold block; infer_instance

instance : Agrees L level n (arrowBody sub) (arrowBody sub') := by unfold arrowBody; infer_instance

instance : Agrees L level n (switchCase sub declaration) (switchCase sub' declaration') := by
  unfold switchCase; dsimp only; infer_instance

instance : Agrees L level n (switchStmt sub declaration) (switchStmt sub' declaration') := by
  unfold switchStmt; infer_instance

instance : Agrees L level n (statement sub declaration) (statement sub' declaration') := by
  unfold statement
  apply Agrees.look
  intro ahead hl
  dsimp only [id]
  split <;> exact Agrees.from inferInstance hl

end

/-! ### Declarations -/

section

variable (sub sub' : Nonterminal → Parse Unit) [∀ construct, Keeps Advanced (sub construct)]
  [∀ level construct, Agrees L level n (sub construct) (sub' construct)]

instance : Agrees L level n implementsOpt implementsOpt := by unfold implementsOpt; infer_instance

instance : Agrees L level n (classDecl sub) (classDecl sub') := by
  unfold classDecl; dsimp only; infer_instance

instance : Agrees L level n (interfaceDecl sub) (interfaceDecl sub') := by
  unfold interfaceDecl; dsimp only; infer_instance

instance : Agrees L level n (enumDecl sub) (enumDecl sub') := by unfold enumDecl; infer_instance

instance : Agrees L level n (annotationDecl sub) (annotationDecl sub') := by
  unfold annotationDecl; infer_instance

instance (place : L.Places level) :
    Agrees L level n (typeDeclaration sub place.left) (typeDeclaration sub' place.right) := by
  unfold typeDeclaration; infer_instance

instance : Agrees L level n (elementValue sub) (elementValue sub') := by
  unfold elementValue
  apply Agrees.look
  intro ahead hl
  split <;> exact Agrees.from inferInstance hl

instance : Agrees L level n (methodRest sub) (methodRest sub') := by
  unfold methodRest; dsimp only; infer_instance

instance : Agrees L level n (initializerBlock sub) (initializerBlock sub') := by
  unfold initializerBlock; infer_instance

instance (place : L.Places level) :
    Agrees L level n (methodOrFields sub place.left) (methodOrFields sub' place.right) := by
  unfold methodOrFields; infer_instance

instance (place : L.Places level) :
    Agrees L level n (typedMember sub place.left) (typedMember sub' place.right) := by
  unfold typedMember; dsimp only; infer_instance

instance : Agrees L level n (member sub) (member sub') := by unfold member; infer_instance

instance : Agrees L level n (members sub) (members sub') := by unfold members; infer_instance

instance : Agrees L level n (classBody sub) (classBody sub') := by unfold classBody; infer_instance

instance : Agrees L level n (enumConstant sub) (enumConstant sub') := by
  unfold enumConstant; dsimp only; infer_instance

instance : Agrees L level n (enumBody sub) (enumBody sub') := by
  unfold enumBody; dsimp only; infer_instance

/-- A construct agrees if the constructs within it do. -/
theorem agrees_nonterminalWith (construct : Nonterminal) :
    Agrees L level n (nonterminalWith sub construct) (nonterminalWith sub' construct) := by
  unfold nonterminalWith
  cases construct <;> infer_instance

end

end JavaGraph.Parser
