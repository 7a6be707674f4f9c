import JavaGraph.Proofs.Parser.Lossless
import JavaGraph.Proofs.Parser.Scans
import JavaGraph.Proofs.Tree.Sketch
/-!
# Steps that do not see the layout

Two runs of the parser are begun in states whose tokens differ in nothing but the places where they
stand, and that agree on which tokens touch. A step that does not see the layout has the same result
in both and leaves states that differ in no more than that. The primitive steps are such steps, and
so is every step that is put together from them; questions about the tokens ahead have to have the
same answer.
-/

/-!
## Looking ahead sees kinds

Of the tokens ahead, the questions that the grammar asks see the kinds only, but for the operators
that are written with more than one `>`: there it matters as well which of the tokens touch.

A scan that sees kinds only skips the same number of other tokens of the same kinds, so it can be
moved past any function that changes tokens and keeps their kinds.
-/

namespace JavaGraph

namespace Parser

/-! ### Faces -/

/-- Which of some tokens touch the next one. -/
def touching : List Token → List Bool
  | token :: next :: ahead => (token.stop == next.start) :: touching (next :: ahead)
  | _ => []

/-- Two sequences of tokens are the same but for the places where the tokens stand. -/
structure SameFaces (ahead ahead' : List Token) : Prop where
  faces : ahead.map Token.face = ahead'.map Token.face
  touching : touching ahead = touching ahead'

variable {ahead ahead' : List Token}

theorem touching_tail (token : Token) (ahead : List Token) :
    (touching (token :: ahead)).tail = touching ahead := by
  cases ahead <;> rfl

theorem getElem?_touching (ahead : List Token) (n : Nat) :
    touchesNext ahead n = ((touching ahead)[n]?).getD false := by
  induction ahead generalizing n with
  | nil => rfl
  | cons token ahead ih =>
    cases n with
    | zero => cases ahead <;> rfl
    | succ n =>
      have hnext : touchesNext (token :: ahead) (n + 1) = touchesNext ahead n := rfl
      rw [hnext, ih, ← touching_tail token ahead, List.getElem?_tail]

namespace SameFaces

theorem refl (ahead : List Token) : SameFaces ahead ahead := ⟨rfl, rfl⟩

theorem length_eq (h : SameFaces ahead ahead') : ahead.length = ahead'.length := by
  simpa using congrArg List.length h.faces

theorem kinds (h : SameFaces ahead ahead') : ahead.map (·.kind) = ahead'.map (·.kind) := by
  have hfst := congrArg (List.map Prod.fst) h.faces
  rwa [List.map_map, List.map_map] at hfst

theorem tail {token token' : Token} (h : SameFaces (token :: ahead) (token' :: ahead')) :
    token.face = token'.face ∧ SameFaces ahead ahead' := by
  obtain ⟨hface, hrest⟩ := List.cons.inj h.faces
  have htouching := congrArg List.tail h.touching
  rw [touching_tail, touching_tail] at htouching
  exact ⟨hface, hrest, htouching⟩

theorem drop (h : SameFaces ahead ahead') (n : Nat) : SameFaces (ahead.drop n) (ahead'.drop n) := by
  induction n generalizing ahead ahead' with
  | zero => exact h
  | succ n ih =>
    match ahead, ahead', h.length_eq with
    | [], [], _ => exact h
    | token :: ahead, token' :: ahead', _ => exact ih h.tail.2

theorem touchesNext (h : SameFaces ahead ahead') (n : Nat) :
    touchesNext ahead n = Parser.touchesNext ahead' n := by
  rw [getElem?_touching, getElem?_touching, h.touching]

end SameFaces

/-! ### Scans -/

/-- Whether a function changes no kinds. -/
def KeepsKinds (g : Token → Token) : Prop := ∀ token, (g token).kind = token.kind

section

variable {g : Token → Token} (hg : KeepsKinds g)
include hg

theorem kindAt_map (ahead : List Token) (n : Nat) : kindAt (ahead.map g) n = kindAt ahead n := by
  unfold kindAt
  rw [List.getElem?_map]
  cases ahead[n]? with
  | none => rfl
  | some token => exact hg token

theorem afterMatching_map (opening closing : TokenKind) (depth : Nat) (ahead : List Token) :
    afterMatching opening closing depth (ahead.map g) =
      (afterMatching opening closing depth ahead).map (List.map g) := by
  have hkind (token : Token) : (g token).kind = token.kind := hg token
  fun_induction afterMatching opening closing depth ahead <;> simp_all [afterMatching]

theorem afterParens_map (ahead : List Token) :
    afterParens (ahead.map g) = (afterParens ahead).map (List.map g) :=
  afterMatching_map hg ..

theorem skipDotted_map (ahead : List Token) :
    skipDotted (ahead.map g) = (skipDotted ahead).map g := by
  have hkind (token : Token) : (g token).kind = token.kind := hg token
  fun_induction skipDotted ahead with
  | case1 dot name ahead h ih => simp [skipDotted, hkind, h, ih]
  | case2 dot name ahead h => simp [skipDotted, hkind, h]
  | case3 ahead h =>
    match ahead with
    | [] => rfl
    | [token] => rfl
    | dot :: name :: rest => exact absurd rfl (h dot name rest)

theorem skipDotPairs_map (ahead : List Token) :
    skipDotPairs (ahead.map g) = (skipDotPairs ahead).map g := by
  have hkind (token : Token) : (g token).kind = token.kind := hg token
  fun_induction skipDotPairs ahead <;> simp_all [skipDotPairs]

theorem skipArguments_map (ahead : List Token) :
    skipArguments (ahead.map g) = (skipArguments ahead).map (List.map g) := by
  unfold skipArguments
  rw [kindAt_map hg, afterParens_map hg]
  split <;> rfl

theorem skipAnnotationUse_map (ahead : List Token) :
    skipAnnotationUse (ahead.map g) = (skipAnnotationUse ahead).map (List.map g) := by
  unfold skipAnnotationUse
  rw [kindAt_map hg, ← List.map_drop, skipDotted_map hg, skipArguments_map hg]
  split <;> rfl

theorem skipLooseAnnotationUse_map (ahead : List Token) :
    skipLooseAnnotationUse (ahead.map g) = (skipLooseAnnotationUse ahead).map (List.map g) := by
  unfold skipLooseAnnotationUse
  rw [← List.map_drop, skipDotPairs_map hg, skipArguments_map hg]

theorem skipAnnotations_map (fuel : Nat) (ahead : List Token) :
    skipAnnotations fuel (ahead.map g) = (skipAnnotations fuel ahead).map (List.map g) := by
  induction fuel generalizing ahead with
  | zero => rfl
  | succ fuel ih =>
    unfold skipAnnotations
    rw [kindAt_map hg, skipAnnotationUse_map hg]
    split
    · cases skipAnnotationUse ahead with
      | none => rfl
      | some behind => exact ih behind
    · rfl

theorem skipTypeArguments_map (depth : Nat) (ahead : List Token) :
    skipTypeArguments depth (ahead.map g) = (skipTypeArguments depth ahead).map (List.map g) := by
  have hkind (token : Token) : (g token).kind = token.kind := hg token
  fun_induction skipTypeArguments depth ahead <;> simp_all [skipTypeArguments]

theorem skipTypeArgumentsOpt_map (ahead : List Token) :
    skipTypeArgumentsOpt (ahead.map g) = (skipTypeArgumentsOpt ahead).map (List.map g) := by
  unfold skipTypeArgumentsOpt
  rw [kindAt_map hg, skipTypeArguments_map hg]
  split <;> rfl

theorem skipClassType_map (fuel : Nat) (ahead : List Token) :
    skipClassType fuel (ahead.map g) = (skipClassType fuel ahead).map (List.map g) := by
  induction fuel generalizing ahead with
  | zero => rfl
  | succ fuel ih =>
    unfold skipClassType
    rw [kindAt_map hg, ← List.map_drop, skipTypeArgumentsOpt_map hg]
    split
    · cases skipTypeArgumentsOpt (ahead.drop 1) with
      | none => rfl
      | some behind =>
        simp only [Option.map_some, Option.bind_eq_bind, Option.bind_some, kindAt_map hg,
          ← List.map_drop, ih]
        split <;> rfl
    · rfl

theorem skipDimensions_map (ahead : List Token) :
    skipDimensions (ahead.map g) = (skipDimensions ahead).map g := by
  have hkind (token : Token) : (g token).kind = token.kind := hg token
  fun_induction skipDimensions ahead with
  | case1 opening closing ahead h ih => simp [skipDimensions, hkind, h, ih]
  | case2 opening closing ahead h => simp [skipDimensions, hkind, h]
  | case3 ahead h =>
    match ahead with
    | [] => rfl
    | [token] => rfl
    | opening :: closing :: rest => exact absurd rfl (h opening closing rest)

theorem skipElementType_map (ahead : List Token) :
    skipElementType (ahead.map g) = (skipElementType ahead).map (List.map g) := by
  unfold skipElementType
  rw [List.length_map, skipAnnotations_map hg]
  cases skipAnnotations ahead.length ahead with
  | none => rfl
  | some behind =>
    simp only [Option.map_some, Option.bind_eq_bind, Option.bind_some, kindAt_map hg,
      ← List.map_drop, List.length_map, skipClassType_map hg]
    split <;> rfl

theorem skipType_map (ahead : List Token) :
    skipType (ahead.map g) = (skipType ahead).map (List.map g) := by
  unfold skipType
  rw [skipElementType_map hg]
  cases skipElementType ahead with
  | none => rfl
  | some element => exact congrArg some (skipDimensions_map hg element)

theorem skipVariableModifiers_map (fuel : Nat) (ahead : List Token) :
    skipVariableModifiers fuel (ahead.map g) =
      (skipVariableModifiers fuel ahead).map (List.map g) := by
  induction fuel generalizing ahead with
  | zero => rfl
  | succ fuel ih =>
    unfold skipVariableModifiers
    rw [kindAt_map hg, kindAt_map hg, skipAnnotationUse_map hg, ← List.map_drop, ih]
    split
    · rfl
    · split
      · cases skipAnnotationUse ahead with
        | none => rfl
        | some behind => exact ih behind
      · rfl

theorem skipTypeModifiers_map (fuel : Nat) (ahead : List Token) :
    skipTypeModifiers fuel (ahead.map g) = (skipTypeModifiers fuel ahead).map (List.map g) := by
  induction fuel generalizing ahead with
  | zero => rfl
  | succ fuel ih =>
    unfold skipTypeModifiers
    rw [kindAt_map hg, kindAt_map hg, skipLooseAnnotationUse_map hg, ← List.map_drop, ih]
    split
    · rfl
    · split
      · cases skipLooseAnnotationUse ahead with
        | none => rfl
        | some behind => exact ih behind
      · rfl

theorem skipPackageAnnotations_map (fuel : Nat) (ahead : List Token) :
    skipPackageAnnotations fuel (ahead.map g) =
      (skipPackageAnnotations fuel ahead).map (List.map g) := by
  induction fuel generalizing ahead with
  | zero => rfl
  | succ fuel ih =>
    unfold skipPackageAnnotations
    rw [kindAt_map hg, kindAt_map hg, skipLooseAnnotationUse_map hg]
    split
    · cases skipLooseAnnotationUse ahead with
      | none => rfl
      | some behind => exact ih behind
    · rfl

theorem skipCastTypes_map (fuel : Nat) (ahead : List Token) :
    skipCastTypes fuel (ahead.map g) = (skipCastTypes fuel ahead).map (List.map g) := by
  induction fuel generalizing ahead with
  | zero => rfl
  | succ fuel ih =>
    unfold skipCastTypes
    rw [skipType_map hg]
    cases skipType ahead with
    | none => rfl
    | some behind =>
      simp only [Option.map_some, Option.bind_eq_bind, Option.bind_some, kindAt_map hg,
        ← List.map_drop, ih]
      split <;> rfl

/-! ### Questions -/

theorem atLocalVariable_map (ahead : List Token) :
    atLocalVariable (ahead.map g) = atLocalVariable ahead := by
  unfold atLocalVariable
  rw [List.length_map, skipVariableModifiers_map hg]
  cases skipVariableModifiers ahead.length ahead with
  | none => rfl
  | some behind =>
    simp only [Option.map_some, Option.bind_some, skipType_map hg]
    cases skipType behind with
    | none => rfl
    | some rest => simp only [Option.map_some, kindAt_map hg]

theorem atForEachColon_map (ahead : List Token) :
    atForEachColon (ahead.map g) = atForEachColon ahead := by
  have hkind (token : Token) : (g token).kind = token.kind := hg token
  unfold atForEachColon
  rw [List.find?_map]
  simp only [Function.comp_def, hkind, Option.any_map]

theorem atTypeKeyword_map (ahead : List Token) :
    atTypeKeyword (ahead.map g) = atTypeKeyword ahead := by
  unfold atTypeKeyword
  rw [kindAt_map hg, kindAt_map hg]

theorem atTypeDeclaration_map (ahead : List Token) :
    atTypeDeclaration (ahead.map g) = atTypeDeclaration ahead := by
  unfold atTypeDeclaration
  rw [List.length_map, skipTypeModifiers_map hg, Option.any_map]
  congr 1
  exact funext (atTypeKeyword_map hg)

theorem atPackageDeclaration_map (ahead : List Token) :
    atPackageDeclaration (ahead.map g) = atPackageDeclaration ahead := by
  unfold atPackageDeclaration
  rw [List.length_map, skipPackageAnnotations_map hg, Option.any_map]
  simp only [kindAt_map hg]

theorem atLambda_map (ahead : List Token) : atLambda (ahead.map g) = atLambda ahead := by
  unfold atLambda
  rw [kindAt_map hg, kindAt_map hg, afterParens_map hg, Option.any_map]
  simp only [kindAt_map hg]

theorem atCast_map (ahead : List Token) : atCast (ahead.map g) = atCast ahead := by
  unfold atCast
  rw [List.length_map, ← List.map_drop, skipCastTypes_map hg, kindAt_map hg]
  cases skipCastTypes ahead.length (ahead.drop 1) with
  | none => rfl
  | some behind => simp only [Option.map_some, kindAt_map hg]

theorem atArrayTypeLiteral_map (ahead : List Token) :
    atArrayTypeLiteral (ahead.map g) = atArrayTypeLiteral ahead := by
  unfold atArrayTypeLiteral
  rw [skipElementType_map hg]
  cases skipElementType ahead with
  | none => rfl
  | some element =>
    simp only [Option.map_some, skipDimensions_map hg, List.length_map, kindAt_map hg]

theorem skipTo_map (resume : Resume) (forced : Bool) (depth : Nat) (ahead : List Token) :
    skipTo resume forced depth (ahead.map g) =
      ((skipTo resume forced depth ahead).1.map g, (skipTo resume forced depth ahead).2.map g) := by
  have hkind (token : Token) : (g token).kind = token.kind := hg token
  induction ahead generalizing forced depth with
  | nil => cases depth <;> rfl
  | cons token ahead ih =>
    cases depth with
    | zero =>
      simp only [skipTo, List.map_cons, hkind, ih]
      split
      · split <;> rfl
      · split
        · rfl
        · split <;> rfl
    | succ depth =>
      simp only [skipTo, List.map_cons, hkind, ih]
      split <;> rfl

end

/-! ### The same answers -/

/-- A token of which only the kind is left. -/
def bare (token : Token) : Token := { (default : Token) with kind := token.kind }

theorem keepsKinds_bare : KeepsKinds bare := fun _ => rfl

namespace SameFaces

theorem map_bare (h : SameFaces ahead ahead') : ahead.map bare = ahead'.map bare := by
  have hmap (tokens : List Token) : tokens.map bare =
      (tokens.map (·.kind)).map fun kind => { (default : Token) with kind } := by
    rw [List.map_map]
    rfl
  rw [hmap, hmap, h.kinds]

/-- A question that sees kinds only has the same answer. -/
theorem answer_eq {α : Type} (question : List Token → α)
    (hq : ∀ {g}, KeepsKinds g → ∀ ahead, question (ahead.map g) = question ahead)
    (h : SameFaces ahead ahead') : question ahead = question ahead' := by
  rw [← hq keepsKinds_bare ahead, ← hq keepsKinds_bare ahead', h.map_bare]

theorem kindAt (h : SameFaces ahead ahead') (n : Nat) : kindAt ahead n = Parser.kindAt ahead' n :=
  h.answer_eq (Parser.kindAt · n) fun hg ahead => kindAt_map hg ahead n

theorem afterParens (h : SameFaces ahead ahead') :
    (afterParens ahead).map List.length = (Parser.afterParens ahead').map List.length := by
  refine h.answer_eq (fun ahead => (Parser.afterParens ahead).map List.length) fun hg ahead => ?_
  rw [afterParens_map hg, Option.map_map]
  congr 1
  exact funext fun behind => List.length_map _

theorem length_skipTo (h : SameFaces ahead ahead') (resume : Resume) (forced : Bool)
    (depth : Nat) : (skipTo resume forced depth ahead).1.length =
      (skipTo resume forced depth ahead').1.length :=
  h.answer_eq (fun ahead => (skipTo resume forced depth ahead).1.length) fun hg ahead => by
    rw [skipTo_map hg, List.length_map]

theorem assignmentWidth? (h : SameFaces ahead ahead') :
    assignmentWidth? ahead = Parser.assignmentWidth? ahead' := by
  unfold Parser.assignmentWidth?
  simp only [h.kindAt, h.touchesNext]

theorem binaryOperator? (h : SameFaces ahead ahead') :
    binaryOperator? ahead = Parser.binaryOperator? ahead' := by
  unfold Parser.binaryOperator? greaterOperator?
  simp only [h.kindAt, h.touchesNext, h.assignmentWidth?]

end SameFaces

end Parser

end JavaGraph

/-! ## Steps -/

namespace JavaGraph.Parser

open Parse

set_option synthInstance.maxSize 8192

/-- Two states differ at most in the places where tokens stand. -/
structure State.SameLook (state state' : State) : Prop where
  ahead : SameFaces state.ahead state'.ahead
  builder : state.builder.SameSketch state'.builder
  errors : state.errors.map ParseError.face = state'.errors.map ParseError.face

/-- A step with the same result whatever the places of the tokens are. -/
class LayoutFree {α : Type} (step : Parse α) : Prop where
  same : ∀ {input input' : Input}, input.endToken.kind = .eof → input'.endToken.kind = .eof →
    ∀ {state state' : State}, state.SameLook state' →
      (step input state).1 = (step input' state').1 ∧
        (step input state).2.SameLook (step input' state').2

/-- A question about the tokens ahead with the same answer whatever their places are. -/
class PlaceFree {α : Type} (question : List Token → α) : Prop where
  same : ∀ {ahead ahead'}, SameFaces ahead ahead' → question ahead = question ahead'

section

variable {α β : Type} {input input' : Input} {state state' : State} {ahead ahead' : List Token}

/-- The first tokens have the same kind, and if there are none, the ends have. -/
theorem kind_headD (h : ahead.map Token.face = ahead'.map Token.face) {last last' : Token}
    (hl : last.kind = last'.kind) : (ahead.headD last).kind = (ahead'.headD last').kind := by
  match ahead, ahead' with
  | [], [] => exact hl
  | [], _ :: _ => simp at h
  | _ :: _, [] => simp at h
  | token :: _, token' :: _ => exact congrArg Prod.fst (List.cons.inj h).1

namespace State.SameLook

theorem length_errors (h : state.SameLook state') :
    state.errors.length = state'.errors.length := by
  simpa using congrArg List.length h.errors

/-- The same token is next, if any is. -/
theorem face_headD (h : state.SameLook state') (hne : state.ahead ≠ []) :
    (state.ahead.headD input.endToken).face = (state'.ahead.headD input'.endToken).face := by
  have hfaces := h.ahead.faces
  match ha : state.ahead, ha' : state'.ahead with
  | [], _ => exact absurd ha hne
  | _ :: _, [] => simp [ha, ha'] at hfaces
  | token :: _, token' :: _ =>
    rw [ha, ha'] at hfaces
    exact (List.cons.inj hfaces).1

/-- A fault with the same message at the next token. -/
theorem record (h : state.SameLook state') {error error' : ParseError}
    (hf : error.face = error'.face) : SameLook { state with errors := state.errors ++ [error] }
      { state' with errors := state'.errors ++ [error'] } :=
  ⟨h.ahead, h.builder, by rw [List.map_append, List.map_append, h.errors, List.map_singleton,
    List.map_singleton, hf]⟩

end State.SameLook

/-! ### Questions -/

instance (n : Nat) : PlaceFree fun ahead => kindAt ahead n := ⟨fun h => h.kindAt n⟩

instance (kind : TokenKind) (n : Nat) : PlaceFree fun ahead => kindAt ahead n == kind :=
  ⟨fun h => by rw [h.kindAt]⟩

instance : PlaceFree fun ahead => (kindAt ahead 0).isPrimitiveType := ⟨fun h => by rw [h.kindAt]⟩

instance : PlaceFree atLambda := ⟨fun h => h.answer_eq _ fun hg => atLambda_map hg⟩

instance : PlaceFree atLocalVariable := ⟨fun h => h.answer_eq _ fun hg => atLocalVariable_map hg⟩

instance : PlaceFree atForEachColon := ⟨fun h => h.answer_eq _ fun hg => atForEachColon_map hg⟩

instance : PlaceFree atTypeKeyword := ⟨fun h => h.answer_eq _ fun hg => atTypeKeyword_map hg⟩

instance : PlaceFree atTypeDeclaration :=
  ⟨fun h => h.answer_eq _ fun hg => atTypeDeclaration_map hg⟩

instance : PlaceFree atPackageDeclaration :=
  ⟨fun h => h.answer_eq _ fun hg => atPackageDeclaration_map hg⟩

instance : PlaceFree atCast := ⟨fun h => h.answer_eq _ fun hg => atCast_map hg⟩

instance : PlaceFree atArrayTypeLiteral :=
  ⟨fun h => h.answer_eq _ fun hg => atArrayTypeLiteral_map hg⟩

instance : PlaceFree assignmentWidth? := ⟨fun h => h.assignmentWidth?⟩

instance : PlaceFree binaryOperator? := ⟨fun h => h.binaryOperator?⟩

instance : PlaceFree List.length := ⟨fun h => h.length_eq⟩

/-! ### Steps that change nothing -/

instance (value : α) : LayoutFree (pure value) := ⟨fun _ _ _ _ h => ⟨rfl, h⟩⟩

instance : LayoutFree (fail : Parse α) := ⟨fun _ _ _ _ h => ⟨rfl, h⟩⟩

instance (question : List Token → α) [hq : PlaceFree question] : LayoutFree (look question) :=
  ⟨fun _ _ _ _ h => ⟨congrArg some (hq.same h.ahead), h⟩⟩

instance : LayoutFree checkpoint := ⟨fun _ _ _ _ h => ⟨congrArg some h.builder.checkpoint, h⟩⟩

instance (kind : TokenKind) : LayoutFree (isAt kind) := by unfold isAt; infer_instance

instance (n : Nat) (kind : TokenKind) : LayoutFree (isAtNth n kind) := by
  unfold isAtNth; infer_instance

instance : LayoutFree atEnd := by unfold atEnd; infer_instance

/-! ### Steps put together -/

theorem LayoutFree.bind {step : Parse α} {next : α → Parse β} (h : LayoutFree step)
    (hn : ∀ value, LayoutFree (next value)) : LayoutFree (step >>= next) := by
  constructor
  intro input input' he he' state state' hs
  obtain ⟨hvalue, hafter⟩ := h.same he he' hs
  simp only [Bind.bind]
  generalize step input state = result at hvalue hafter
  generalize step input' state' = result' at hvalue hafter
  obtain ⟨value, after⟩ := result
  obtain ⟨value', after'⟩ := result'
  obtain rfl : value = value' := hvalue
  cases value with
  | none => exact ⟨rfl, hafter⟩
  | some value => exact (hn value).same he he' hafter

instance (step : Parse α) (next : α → Parse β) [h : LayoutFree step]
    [hn : ∀ value, LayoutFree (next value)] : LayoutFree (step >>= next) := h.bind hn

instance (f : α → β) (step : Parse α) [LayoutFree step] : LayoutFree (f <$> step) :=
  inferInstanceAs (LayoutFree (step >>= fun value => pure (f value)))

instance (step : Parse α) [LayoutFree step] : LayoutFree (discard step) :=
  inferInstanceAs (LayoutFree (step >>= fun _ => pure PUnit.unit))

instance (condition : Prop) [Decidable condition] (yes no : Parse α) [hy : LayoutFree yes]
    [hn : LayoutFree no] : LayoutFree (if condition then yes else no) := by
  split
  · exact hy
  · exact hn

/-- A step chosen by the tokens ahead, if the same is chosen whatever their places are. -/
theorem LayoutFree.onAhead {f : List Token → Parse α}
    (hq : ∀ {ahead ahead'}, SameFaces ahead ahead' → f ahead = f ahead')
    (h : ∀ ahead, LayoutFree (f ahead)) : LayoutFree (Parse.onAhead f) := by
  constructor
  intro input input' he he' state state' hs
  change (f state.ahead input state).1 = (f state'.ahead input' state').1 ∧
    (f state.ahead input state).2.SameLook (f state'.ahead input' state').2
  rw [← hq hs.ahead]
  exact (h state.ahead).same he he' hs

/-- A step behind a look at the tokens ahead. -/
theorem LayoutFree.look {question : List Token → α} {next : α → Parse β}
    (hq : ∀ {ahead ahead'}, SameFaces ahead ahead' →
      next (question ahead) = next (question ahead'))
    (h : ∀ ahead, LayoutFree (next (question ahead))) :
    LayoutFree (Parse.look question >>= next) :=
  LayoutFree.onAhead hq h

instance layoutFree_loopAtMost (rounds : Nat) (step : Parse Bool) [LayoutFree step] :
    LayoutFree (loopAtMost rounds step) := by
  induction rounds with
  | zero => unfold loopAtMost; infer_instance
  | succ rounds ih => unfold loopAtMost; infer_instance

instance (step : Parse Bool) [LayoutFree step] : LayoutFree (loop step) :=
  .onAhead (fun h => by rw [h.length_eq]) fun _ => inferInstance

instance (kind : TokenKind) (step : Parse Unit) [LayoutFree step] :
    LayoutFree (whileAt kind step) := by
  unfold whileAt; infer_instance

/-! ### Primitive steps -/

instance : LayoutFree bump := by
  constructor
  intro input input' _ _ state state' h
  obtain ⟨ahead, builder, errors⟩ := state
  obtain ⟨ahead', builder', errors'⟩ := state'
  obtain ⟨hahead, hbuilder, herrors⟩ := h
  match ahead, ahead', hahead.length_eq with
  | [], [], _ => exact ⟨rfl, hahead, hbuilder, herrors⟩
  | token :: ahead, token' :: ahead', _ =>
    obtain ⟨hface, hrest⟩ := SameFaces.tail hahead
    exact ⟨rfl, hrest, hbuilder.token hface, herrors⟩

instance layoutFree_bumpMany (count : Nat) : LayoutFree (bumpMany count) := by
  induction count with
  | zero => unfold bumpMany; infer_instance
  | succ count ih => unfold bumpMany; infer_instance

instance (kind : TokenKind) : LayoutFree (eat kind) := by unfold eat; infer_instance

instance (what : String) : LayoutFree (errorExpected what) := by
  constructor
  intro input input' he he' state state' h
  have hkind := kind_headD h.ahead.faces (he.trans he'.symm)
  refine ⟨rfl, h.record ?_⟩
  by_cases hnil : state.ahead = []
  · have hend : (state.ahead.headD input.endToken).kind = .eof := by rw [hnil]; exact he
    simp only [ParseError.face, ParseError.atToken, ← hkind, if_pos hend]
  · have htext : (state.ahead.headD input.endToken).text =
        (state'.ahead.headD input'.endToken).text := congrArg Prod.snd (h.face_headD hnil)
    simp only [ParseError.face, ParseError.atToken, ← hkind, ← htext]

instance (item : Parse Unit) [LayoutFree item] : LayoutFree (commaSeparated item) := by
  unfold commaSeparated; infer_instance

instance (kind : TokenKind) (what : String) : LayoutFree (expect kind what) := by
  unfold expect; infer_instance

instance : LayoutFree expectIdent := by unfold expectIdent; infer_instance

instance : LayoutFree expectClosingBrace := by unfold expectClosingBrace; infer_instance

instance (kind : NodeKind) [hk : Evaluates (isInner kind)] : LayoutFree (startNode kind) :=
  ⟨fun _ _ _ _ h =>
    ⟨rfl, h.ahead, h.builder.start (ne_token_of_isInner hk.eq_true) _ _, h.errors⟩⟩

instance (place : Checkpoint) (kind : NodeKind) [hk : Evaluates (isInner kind)] :
    LayoutFree (startNodeAt place kind) :=
  ⟨fun _ _ _ _ h =>
    ⟨rfl, h.ahead, h.builder.startAt place (ne_token_of_isInner hk.eq_true) _ _, h.errors⟩⟩

instance : LayoutFree finishNode := ⟨fun _ _ _ _ h => ⟨rfl, h.ahead, h.builder.finishNode, h.errors⟩⟩

instance (kind : NodeKind) (step : Parse Unit) [Evaluates (isInner kind)] [LayoutFree step] :
    LayoutFree (inNode kind step) := by
  unfold inNode; infer_instance

instance (kind : NodeKind) [Evaluates (isInner kind)] : LayoutFree (tokenNode kind) := by
  unfold tokenNode; infer_instance

instance : LayoutFree dimensions := by unfold dimensions; infer_instance

instance (place : Checkpoint) (kind : NodeKind) (step : Parse Unit) [Evaluates (isInner kind)]
    [LayoutFree step] : LayoutFree (aroundSince place kind step) := by
  unfold aroundSince; infer_instance

/-! ### Recovery -/

/-- Recovery skips the same tokens, and goes on behind them. -/
theorem SameFaces.skipTo (h : SameFaces ahead ahead') (resume : Resume) (forced : Bool) :
    (skipTo resume forced 0 ahead).1.map Token.face =
        (Parser.skipTo resume forced 0 ahead').1.map Token.face ∧
      SameFaces (skipTo resume forced 0 ahead).2 (Parser.skipTo resume forced 0 ahead').2 := by
  have hlength := h.length_skipTo resume forced 0
  have hsplit (tokens : List Token) :
      tokens.take (Parser.skipTo resume forced 0 tokens).1.length =
          (Parser.skipTo resume forced 0 tokens).1 ∧
        tokens.drop (Parser.skipTo resume forced 0 tokens).1.length =
          (Parser.skipTo resume forced 0 tokens).2 := by
    have happend := skipTo_append resume forced 0 tokens
    generalize Parser.skipTo resume forced 0 tokens = parts at happend
    subst happend
    exact ⟨List.take_left, List.drop_left⟩
  constructor
  · rw [← (hsplit ahead).1, ← (hsplit ahead').1, List.map_take, List.map_take, h.faces, hlength]
  · rw [← (hsplit ahead).2, ← (hsplit ahead').2, ← hlength]
    exact h.drop _

/-- The error nodes for tokens with the same faces have the same sketch. -/
theorem sketch_errorNode? (source source' : String) {region region' : List Token}
    {error error' : ParseError} (hr : region.map Token.face = region'.map Token.face)
    (he : error.face = error'.face) :
    (Tree.errorNode? source region error).map Tree.sketch =
      (Tree.errorNode? source' region' error').map Tree.sketch := by
  match region, region' with
  | [], [] => rfl
  | [], _ :: _ => simp at hr
  | _ :: _, [] => simp at hr
  | first :: rest, first' :: rest' =>
    obtain ⟨last, hl⟩ : ∃ last, (first :: rest).getLast? = some last :=
      ⟨_, List.getLast?_eq_some_getLast (by simp)⟩
    obtain ⟨last', hl'⟩ : ∃ last, (first' :: rest').getLast? = some last :=
      ⟨_, List.getLast?_eq_some_getLast (by simp)⟩
    simp only [Tree.errorNode?, hl, hl', Option.map_some, Tree.sketch, hr, he]

/-- The last faults have the same face. -/
theorem face_getLast? {errors errors' : List ParseError}
    (h : errors.map ParseError.face = errors'.map ParseError.face) :
    errors.getLast?.map ParseError.face = errors'.getLast?.map ParseError.face := by
  rw [← List.getLast?_map, ← List.getLast?_map, h]

/-- An error node for the last fault, in the place of the same tokens. -/
theorem State.SameLook.withErrorNode {builder builder' : Builder} {errors errors' : List ParseError}
    {source source' : String} {region region' : List Token} (ha : SameFaces ahead ahead')
    (hb : builder.SameSketch builder') (hr : region.map Token.face = region'.map Token.face)
    (he : errors.map ParseError.face = errors'.map ParseError.face) :
    SameLook
      ⟨ahead, match errors.getLast?.bind (Tree.errorNode? source region) with
        | some node => builder.push node
        | none => builder, errors⟩
      ⟨ahead', match errors'.getLast?.bind (Tree.errorNode? source' region') with
        | some node => builder'.push node
        | none => builder', errors'⟩ := by
  refine ⟨ha, ?_, he⟩
  have hlast := face_getLast? he
  match hl : errors.getLast?, hl' : errors'.getLast? with
  | none, none => exact hb
  | none, some _ => simp [hl, hl'] at hlast
  | some _, none => simp [hl, hl'] at hlast
  | some error, some error' =>
    rw [hl, hl', Option.map_some, Option.map_some] at hlast
    have hnode := sketch_errorNode? source source' hr (Option.some.inj hlast)
    simp only [Option.bind_some]
    match hn : Tree.errorNode? source region error,
      hn' : Tree.errorNode? source' region' error' with
    | none, none => exact hb
    | none, some _ => simp [hn, hn'] at hnode
    | some _, none => simp [hn, hn'] at hnode
    | some node, some node' =>
      rw [hn, hn', Option.map_some, Option.map_some] at hnode
      exact hb.push (Option.some.inj hnode)

theorem State.SameLook.recover (h : state.SameLook state') (he : input.endToken.kind = .eof)
    (he' : input'.endToken.kind = .eof) (resume : Resume) (place : Checkpoint)
    (errorsBefore aheadBefore : Nat) :
    (recover resume place errorsBefore aheadBefore input state).2.SameLook
      (Parser.recover resume place errorsBefore aheadBefore input' state').2 := by
  obtain ⟨hskipped, hrest⟩ := h.ahead.skipTo resume (!(state.ahead.length < aheadBefore))
  have hregion : (Tree.tokensOf (state.builder.since place) ++
      (skipTo resume (!(state.ahead.length < aheadBefore)) 0 state.ahead).1).map Token.face =
      (Tree.tokensOf (state'.builder.since place) ++
        (skipTo resume (!(state.ahead.length < aheadBefore)) 0 state'.ahead).1).map Token.face := by
    rw [List.map_append, List.map_append, Tree.faces_tokensOf _ (h.builder.since place), hskipped]
  simp only [Parser.recover, ← h.ahead.length_eq, ← h.length_errors, Builder.abandon]
  refine State.SameLook.withErrorNode hrest (h.builder.rewind place) hregion ?_
  split
  · have hkind := kind_headD hregion (kind_headD hrest.faces (he.trans he'.symm))
    rw [List.map_append, List.map_append, h.errors]
    simp only [List.map_singleton, ParseError.face, ParseError.atToken, hkind]
  · exact h.errors

instance (resume : Resume) (step : Parse Unit) [h : LayoutFree step] :
    LayoutFree (recovering resume step) := by
  constructor
  intro input input' he he' state state' hs
  obtain ⟨hvalue, hafter⟩ := h.same he he' hs
  unfold recovering
  generalize step input state = result at hvalue hafter
  generalize step input' state' = result' at hvalue hafter
  obtain ⟨value, after⟩ := result
  obtain ⟨value', after'⟩ := result'
  obtain rfl : value = value' := hvalue
  cases value with
  | some value => exact ⟨rfl, hafter⟩
  | none =>
    rw [hs.builder.checkpoint, hs.length_errors, hs.ahead.length_eq]
    exact ⟨rfl, hafter.recover he he' resume _ _ _⟩

end

end JavaGraph.Parser
