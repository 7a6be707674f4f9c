import JavaGraph.Proofs.Parser.Imports
import JavaGraph.Proofs.Parser.Lookahead
/-!
# Loops over elements

Two questions about the tokens behind the parenthesis of a loop tell one over elements from one with
a counter: whether a variable is declared there, and whether the first of `:`, `;` and `=` is a `:`.
The first question skips the arguments of annotations, and the second one does not. So a header
`( modifiers type name : elements )` whose parts are accepted is recognised, unless another sign
than `:` comes first among its modifiers. Then the loop is taken for one with a counter, and fails at
its `:`.
-/

namespace JavaGraph

/-- A step that has one input, whichever it is begun with. -/
def Parse.given {α : Type} (input : Parser.Input) (step : Parse α) : Parse α := fun _ => step input

namespace Parser

open Parse

set_option synthInstance.maxSize 8192

/-! ### What is accepted -/

/-- A step accepts some tokens before others: it passes them, and no more, without a fault. -/
def Accepts (input : Input) (step : Parse Unit) (tokens rest : List Token) : Prop :=
  ∃ builder after, step input ⟨tokens ++ rest, builder, []⟩ = (some (), ⟨rest, after, []⟩)

section

variable {α β : Type} {input : Input} {step next : Parse Unit} {tokens more rest : List Token}

theorem ReadsBefore.given {step : Parse α} {value : α} (h : ReadsBefore step value tokens rest) :
    ReadsBefore (step.given input) value tokens rest :=
  fun _ builder errors => h input builder errors

theorem ReadsBefore.given_then (h : ReadsBefore (step.given input) () tokens (more ++ rest))
    (hn : ReadsBefore (next.given input) () more rest) :
    ReadsBefore ((do step; next).given input) () (tokens ++ more) rest := by
  have hsteps : ReadsBefore (do step.given input; next.given input) () (tokens ++ more) rest :=
    h.bind hn
  exact hsteps

theorem ReadsBefore.given_looking {f : List Token → α} {next : α → Parse β} {result : β}
    (h : ReadsBefore ((next (f (tokens ++ rest))).given input) result tokens rest) :
    ReadsBefore ((look f >>= next).given input) result tokens rest :=
  fun _ builder errors => h input builder errors

theorem ReadsBefore.given_node (h : ReadsBefore (step.given input) () tokens rest)
    (kind : NodeKind) : ReadsBefore ((inNode kind step).given input) () tokens rest :=
  fun _ builder errors => h.node kind input builder errors

theorem FailsWithin.given_then (h : FailsWithin (step.given input) tokens rest) :
    FailsWithin ((do step; next).given input) tokens rest := by
  have hsteps : FailsWithin (do step.given input; next.given input) tokens rest := h.bind
  exact hsteps

theorem FailsWithin.given_around (h : FailsWithin (step.given input) tokens rest)
    (place : Checkpoint) (kind : NodeKind) :
    FailsWithin ((aroundSince place kind step).given input) tokens rest := by
  have hstep : FailsWithin ((do step; finishNode).given input) tokens rest := h.given_then
  intro _ builder errors
  exact hstep input (builder.startAt place kind ((tokens ++ rest).headD input.endToken)) errors

theorem ReadsBefore.given_fails (h : ReadsBefore (step.given input) () tokens (more ++ rest))
    (hn : FailsWithin (next.given input) more rest) :
    FailsWithin ((do step; next).given input) (tokens ++ more) rest := by
  have hsteps : FailsWithin (do step.given input; next.given input) (tokens ++ more) rest :=
    h.fails hn
  exact hsteps

/-- What is accepted somewhere is read wherever it stands. -/
theorem Accepts.reads (h : Accepts input step tokens rest)
    [∀ (L : Likeness) level n, Agrees L level n step step] :
    ReadsBefore (step.given input) () tokens rest := by
  obtain ⟨base, alone, he⟩ := h
  intro _ builder errors
  obtain ⟨added, after, hrun, hadds, -⟩ := exists_added_anywhere builder errors he
  rw [List.append_nil] at hrun
  exact ⟨added, after, hrun, hadds⟩

theorem Accepts.of_run (builder : Builder)
    (hs : (step input ⟨tokens ++ rest, builder, []⟩).1 = some ())
    (ha : (step input ⟨tokens ++ rest, builder, []⟩).2.ahead = rest)
    (he : (step input ⟨tokens ++ rest, builder, []⟩).2.errors = []) :
    Accepts input step tokens rest := by
  refine ⟨builder, (step input ⟨tokens ++ rest, builder, []⟩).2.builder, ?_⟩
  generalize step input ⟨tokens ++ rest, builder, []⟩ = result at *
  obtain ⟨_, ahead, built, errors⟩ := result
  cases hs
  cases ha
  cases he
  rfl

/-- What steps in sequence accept is accepted by the one and then by the other. -/
theorem Accepts.split (h : Accepts input (do step; next) tokens rest) [hs : Keeps Advanced step]
    [hn : Keeps Advanced next] : ∃ first second, tokens = first ++ second ∧
      Accepts input step first (second ++ rest) ∧ Accepts input next second rest := by
  obtain ⟨builder, after, he⟩ := h
  simp only [Bind.bind] at he
  split at he
  · next middle hm =>
    have hfirst := hs.keeps input ⟨tokens ++ rest, builder, []⟩
    have hsecond := hn.keeps input middle
    rw [hm] at hfirst
    rw [he] at hsecond
    obtain ⟨ahead, built, errors⟩ := middle
    obtain ⟨second, rfl⟩ := hsecond.suffix
    obtain ⟨first, hf⟩ := hfirst.suffix
    obtain rfl : errors = [] := List.eq_nil_of_length_eq_zero (Nat.le_zero.1 hsecond.errors_le)
    obtain rfl : first ++ second = tokens := by
      rw [← List.append_assoc] at hf
      exact List.append_cancel_right hf
    rw [List.append_assoc] at hm
    exact ⟨first, second, rfl, ⟨builder, built, hm⟩, built, after, he⟩
  · cases he

theorem Accepts.of_inNode {kind : NodeKind} (h : Accepts input (inNode kind step) tokens rest) :
    Accepts input step tokens rest := by
  obtain ⟨builder, after, he⟩ := h
  change (do step; finishNode) input
    ⟨tokens ++ rest, builder.start kind ((tokens ++ rest).headD input.endToken), []⟩ = _ at he
  simp only [Bind.bind] at he
  split at he
  · next middle hm =>
    obtain ⟨ahead, built, errors⟩ := middle
    cases he
    exact ⟨_, built, hm⟩
  · cases he

theorem Leaves.of_accepts {P : Unit → List Token → Prop} (h : Leaves (tokens ++ rest) step P)
    (ha : Accepts input step tokens rest) : P () rest := by
  obtain ⟨builder, after, he⟩ := ha
  exact h input _ () _ rfl he

end

/-! ### Modifiers and types -/

theorem Pairs.append {first second : TokenKind} {tokens more : List Token}
    (h : Pairs first second tokens) (hm : Pairs first second more) :
    Pairs first second (tokens ++ more) := by
  induction h with
  | nil => exact hm
  | cons ha hb h ih => exact .cons ha hb ih

theorem TypeAnnotations.append {tokens more : List Token} (h : TypeAnnotations tokens)
    (hm : TypeAnnotations more) : TypeAnnotations (tokens ++ more) := by
  induction h with
  | nil => exact hm
  | @cons sign name dotted rest hs hn hd h ih =>
    rw [List.append_assoc]
    exact .cons hs hn hd ih

theorem WrittenModifiers.append {tokens more : List Token} (h : WrittenModifiers tokens)
    (hm : WrittenModifiers more) : WrittenModifiers (tokens ++ more) := by
  induction h with
  | nil => exact hm
  | word hw h ih => exact .word hw ih
  | use hs hn hd ha h ih =>
    rw [List.append_assoc]
    exact .use hs hn hd ha ih

theorem nestsParens_of_forall {tokens : List Token}
    (h : ∀ token ∈ tokens, token.kind ≠ .lParen ∧ token.kind ≠ .rParen) : NestsParens tokens := by
  induction tokens with
  | nil => exact .nil
  | cons token tokens ih =>
    rw [List.forall_mem_cons] at h
    exact .other h.1.1 h.1.2 (ih h.2)

theorem VariableModifiers.written {tokens : List Token} (h : VariableModifiers tokens) :
    WrittenModifiers tokens := by
  induction h with
  | nil => exact .nil
  | final hw h ih => exact .word (by rw [hw]; rfl) ih
  | use hs hn hd ha h ih => exact .use hs hn hd ha ih

theorem TypeAnnotations.written {tokens : List Token} (h : TypeAnnotations tokens) :
    WrittenModifiers tokens := by
  induction h with
  | nil => exact .nil
  | @cons sign name dotted rest hs hn hd h ih =>
    have huse := WrittenModifiers.use hs hn hd .absent ih
    rwa [List.append_nil] at huse

theorem BeginsElement.ends {kind : TokenKind} (h : BeginsElement kind) : EndsModifier kind := by
  have hothers : ∀ other ∈ [.dot, .lParen, .colon, .arrow], ¬ BeginsElement other := by decide
  exact fun hm => hothers kind hm h

theorem BeginsElement.isModifier_eq_false {kind : TokenKind} (h : BeginsElement kind) :
    kind.isModifier = false := by
  rcases h with h | rfl
  · revert h
    cases kind <;> decide
  · rfl

/-- Modifiers are read up to a type without annotations. -/
theorem WrittenModifiers.reads_modifiers {tokens rest : List Token} (h : WrittenModifiers tokens)
    (hr : BeginsElement (kindAt rest 0)) : ReadsBefore modifiers () tokens rest := by
  rw [modifiers_eq]
  refine (h.readsBefore hr.ends (readsBefore_modifierRound_stop hr.isModifier_eq_false ?_)).node _
  exact fun hsign => hr.ne (by decide) hsign.1

theorem leaves_dottedRest_pairs {ahead : List Token} : Leaves ahead dottedRest fun _ rest =>
    ∃ dotted, Pairs .dot .ident dotted ∧ ahead = dotted ++ rest := by
  refine (leaves_pairs .ident (by decide)
    (fun rest => ∃ dotted, Pairs .dot .ident dotted ∧ ahead = dotted ++ rest) ?_
    ⟨[], .nil, rfl⟩).mono fun _ rest hr => hr.1
  rintro tokens hd hn ⟨dotted, hp, rfl⟩
  obtain ⟨dot, name, rest, rfl, hdot, hname⟩ := exists_pair (by decide) (by decide) ⟨hd, hn⟩
  exact ⟨dotted ++ [dot, name], hp.append (.cons hdot hname .nil), by simp⟩

/-- What is passed as annotations in front of a type is some. -/
theorem leaves_writtenAnnotations {ahead : List Token} : Leaves ahead typeAnnotations fun _ rest =>
    ∃ annotations, TypeAnnotations annotations ∧ ahead = annotations ++ rest := by
  refine Leaves.loop typeAnnotationRound
    (fun rest => ∃ annotations, TypeAnnotations annotations ∧ ahead = annotations ++ rest) ?_
    ⟨[], .nil, rfl⟩
  rintro tokens ⟨annotations, ha, rfl⟩
  refine Leaves.looking (Leaves.looking ?_)
  by_cases hk : kindAt tokens 0 = .atSign ∧ kindAt tokens 1 = .ident
  · rw [if_pos (by simp [hk])]
    obtain ⟨sign, name, behind, rfl, hs, hn⟩ := exists_pair (by decide) (by decide) hk
    have huse : Leaves (sign :: name :: behind) (inNode .annotationUse do bump; qualifiedName)
        fun _ rest => ∃ dotted, Pairs .dot .ident dotted ∧ behind = dotted ++ rest := by
      refine (leaves_bump.bind fun _ rest hr => ?_).inNode _
      refine ((leaves_expect .ident _).bind fun _ named hb => ?_).inNode _
      rw [hb.2, hr]
      exact leaves_dottedRest_pairs
    refine huse.bind fun _ rest hr => (leaves_pure true).mono fun again last hl => ?_
    obtain ⟨dotted, hd, rfl⟩ := hr
    rw [if_pos hl.1, hl.2]
    exact ⟨annotations ++ (sign :: name :: dotted ++ []), ha.append (.cons hs hn hd .nil), by simp⟩
  · rw [if_neg (by simpa using hk)]
    refine (leaves_pure false).mono fun again last hl => ?_
    rw [if_neg (by simp [hl.1]), hl.2]
    exact ⟨annotations, ha, rfl⟩

/-- The step that parses a type behind its annotations. -/
def elementRef : Parse Unit := do
  elementTypeWith typeRef
  dimensions

instance : Keeps Advanced elementRef := by unfold elementRef; infer_instance

instance {L : Likeness} {level n : Nat} : Agrees L level n elementRef elementRef := by
  unfold elementRef; infer_instance

/-- A type is its annotations and what they stand in front of. -/
structure TypeParts (input : Input) (annotations element rest : List Token) : Prop where
  annotations : TypeAnnotations annotations
  begins : BeginsElement (kindAt (element ++ rest) 0)
  element : Accepts input elementRef element rest

section

variable {input : Input} {type annotations element rest : List Token}

/-- A type that is accepted is annotations and an element that is accepted behind them. -/
theorem Accepts.exists_typeParts (h : Accepts input typeRef type rest) :
    ∃ annotations element, type = annotations ++ element ∧
      TypeParts input annotations element rest := by
  rw [typeRef_eq] at h
  have hparts : Accepts input (do typeAnnotations; elementRef) type rest := h.of_inNode
  obtain ⟨annotations, element, rfl, ha, he⟩ := hparts.split
  refine ⟨annotations, element, rfl, ?_, ?_, he⟩
  · obtain ⟨written, hw, happend⟩ := leaves_writtenAnnotations.of_accepts ha
    rwa [List.append_cancel_right happend]
  · have hbegins : Leaves (element ++ rest) elementRef fun _ _ =>
        BeginsElement (kindAt (element ++ rest) 0) :=
      (leaves_elementType fun _ => leaves_typeRef.mono fun _ _ hr => hr.passedOver).bind
        fun _ _ hr => leaves_dimensions.mono fun _ _ _ => hr.1
    exact hbegins.of_accepts he

/-- Behind its annotations a type is read as a type. -/
theorem TypeParts.reads (h : TypeParts input annotations element rest) :
    ReadsBefore (typeRef.given input) () element rest := by
  have hnone : ReadsBefore typeAnnotations () [] (element ++ rest) :=
    reads_typeAnnotations .nil _ ⟨h.begins.ne (by decide), h.begins.ne (by decide)⟩
  have hparts : ReadsBefore ((do typeAnnotations; elementRef).given input) () element rest :=
    hnone.given.given_then h.element.reads
  rw [typeRef_eq]
  exact hparts.given_node .typeRef

end

/-! ### Signs -/

/-- The signs that tell a loop over elements from one with a counter. -/
def isLoopSign (kind : TokenKind) : Bool :=
  kind == .colon || kind == .semicolon || kind == .assign

/-- The first sign among some tokens. -/
def firstSign? (tokens : List Token) : Option Token :=
  tokens.find? fun token => isLoopSign token.kind

section

variable {ahead behind : List Token}

theorem firstSign?_append (tokens more : List Token) :
    firstSign? (tokens ++ more) = (firstSign? tokens).or (firstSign? more) := List.find?_append

theorem firstSign?_drop_one (h : isLoopSign (kindAt ahead 0) = false) :
    firstSign? ahead = firstSign? (ahead.drop 1) := by
  cases ahead with
  | nil => rfl
  | cons token ahead => exact List.find?_cons_of_neg (Bool.eq_false_iff.1 h)

theorem isLoopSign_of_isTypeArgumentPart {kind : TokenKind} (h : isTypeArgumentPart kind = true) :
    isLoopSign kind = false := by
  revert h
  cases kind <;> decide

theorem firstSign?_skipTypeArguments {depth : Nat}
    (h : skipTypeArguments depth ahead = some behind) : firstSign? ahead = firstSign? behind := by
  induction ahead generalizing depth with
  | nil => cases h
  | cons token ahead ih =>
    unfold skipTypeArguments at h
    split at h
    · next hk =>
      exact (firstSign?_drop_one (by rw [kindAt_cons, hk]; rfl)).trans (ih h)
    split at h
    · next hk =>
      refine (firstSign?_drop_one (by rw [kindAt_cons, hk]; rfl)).trans ?_
      split at h
      · cases h
      · cases h
        rfl
      · exact ih h
    split at h
    · next hk =>
      have hpart : isLoopSign (kindAt (token :: ahead) 0) = false :=
        isLoopSign_of_isTypeArgumentPart hk
      exact (firstSign?_drop_one hpart).trans (ih h)
    · cases h

theorem firstSign?_skipClassType {fuel : Nat} (h : skipClassType fuel ahead = some behind) :
    firstSign? ahead = firstSign? behind := by
  induction fuel generalizing ahead with
  | zero => cases h
  | succ fuel ih =>
    unfold skipClassType at h
    split at h
    · next hk =>
      obtain ⟨middle, hm, hb⟩ := Option.bind_eq_some_iff.1 h
      have hname : firstSign? ahead = firstSign? (ahead.drop 1) :=
        firstSign?_drop_one (by rw [hk]; rfl)
      have hmiddle : firstSign? (ahead.drop 1) = firstSign? middle := by
        unfold skipTypeArgumentsOpt at hm
        split at hm
        · exact firstSign?_skipTypeArguments hm
        · cases hm
          rfl
      rw [hname, hmiddle]
      split at hb
      · next hdot => exact (firstSign?_drop_one (by rw [hdot.1]; rfl)).trans (ih hb)
      · cases hb
        rfl
    · cases h

theorem firstSign?_skipDimensions (ahead : List Token) :
    firstSign? (skipDimensions ahead) = firstSign? ahead := by
  fun_induction skipDimensions ahead with
  | case1 opening closing ahead hk ih =>
    have hopening : firstSign? (opening :: closing :: ahead) = firstSign? (closing :: ahead) :=
      firstSign?_drop_one (by rw [kindAt_cons, hk.1]; rfl)
    have hclosing : firstSign? (closing :: ahead) = firstSign? ahead :=
      firstSign?_drop_one (by rw [kindAt_cons, hk.2]; rfl)
    rw [hopening, hclosing, ih]
  | _ => rfl

/-- A type without annotations has no signs. -/
theorem leaves_elementRef_firstSign? : Leaves ahead elementRef fun _ rest =>
    firstSign? ahead = firstSign? rest := by
  have hdimensions (middle : List Token) (h : firstSign? ahead = firstSign? middle) :
      Leaves middle dimensions fun _ rest => firstSign? ahead = firstSign? rest := by
    refine leaves_dimensions.mono fun _ rest hr => ?_
    rw [h, hr.1, firstSign?_skipDimensions]
  have helement : Leaves ahead (elementTypeWith typeRef) fun _ rest =>
      firstSign? ahead = firstSign? rest := by
    refine Leaves.looking ?_
    by_cases hk : (kindAt ahead 0).isPrimitiveType = true
    · rw [if_pos hk]
      refine leaves_bump.mono fun _ rest hr => ?_
      rw [hr]
      refine firstSign?_drop_one ?_
      revert hk
      generalize kindAt ahead 0 = kind
      cases kind <;> decide
    · rw [if_neg hk]
      refine (leaves_classType fun _ => ?_).mono fun _ rest hr => firstSign?_skipClassType hr.1
      exact leaves_typeRef.mono fun _ _ hr => hr.passedOver
  exact helement.bind fun _ middle hm => hdimensions middle hm

theorem Pairs.firstSign?_eq_none {tokens : List Token} (h : Pairs .dot .ident tokens) :
    firstSign? tokens = none := by
  induction h with
  | nil => rfl
  | @cons dot name rest ha hb h ih =>
    have hdot : firstSign? (dot :: name :: rest) = firstSign? (name :: rest) :=
      firstSign?_drop_one (by rw [kindAt_cons, ha]; rfl)
    have hname : firstSign? (name :: rest) = firstSign? rest :=
      firstSign?_drop_one (by rw [kindAt_cons, hb]; rfl)
    rw [hdot, hname, ih]

theorem TypeAnnotations.firstSign?_eq_none {tokens : List Token} (h : TypeAnnotations tokens) :
    firstSign? tokens = none := by
  induction h with
  | nil => rfl
  | @cons sign name dotted rest hs hn hd h ih =>
    have hsign : firstSign? (sign :: name :: dotted) = firstSign? (name :: dotted) :=
      firstSign?_drop_one (by rw [kindAt_cons, hs]; rfl)
    have hname : firstSign? (name :: dotted) = firstSign? dotted :=
      firstSign?_drop_one (by rw [kindAt_cons, hn]; rfl)
    rw [firstSign?_append, hsign, hname, hd.firstSign?_eq_none, ih]
    rfl

/-- A type that is accepted has no signs. -/
theorem Accepts.firstSign?_append {input : Input} {type rest : List Token}
    (h : Accepts input typeRef type rest) : firstSign? (type ++ rest) = firstSign? rest := by
  obtain ⟨annotations, element, rfl, hp⟩ := h.exists_typeParts
  rw [List.append_assoc, Parser.firstSign?_append, hp.annotations.firstSign?_eq_none,
    leaves_elementRef_firstSign?.of_accepts hp.element]
  rfl

end

/-! ### Headers -/

/-- A loop over elements with an empty body, as it is written. -/
structure ElementLoop where
  keyword : Token
  opening : Token
  modifiers : List Token
  type : List Token
  name : Token
  colon : Token
  elements : List Token
  closing : Token
  semicolon : Token
  keyword_kind : keyword.kind = .kwFor
  opening_kind : opening.kind = .lParen
  modifiers_written : VariableModifiers modifiers
  name_kind : name.kind = .ident
  colon_kind : colon.kind = .colon
  closing_kind : closing.kind = .rParen
  semicolon_kind : semicolon.kind = .semicolon

namespace ElementLoop

variable (loop : ElementLoop) (rest : List Token)

/-- What stands behind the elements of a loop, with `rest` behind the loop. -/
def behindElements : List Token := loop.closing :: loop.semicolon :: rest

/-- What stands behind the name of the variable of a loop. -/
def behindName : List Token := loop.colon :: (loop.elements ++ loop.behindElements rest)

/-- What stands behind the type of a loop. -/
def behindType : List Token := loop.name :: loop.behindName rest

/-- What stands behind the parenthesis of a loop. -/
def behindOpening : List Token := loop.modifiers ++ (loop.type ++ loop.behindType rest)

/-- The tokens of a loop, in their order. -/
def tokens : List Token := loop.keyword :: loop.opening :: loop.behindOpening []

theorem behindOpening_append : loop.behindOpening [] ++ rest = loop.behindOpening rest := by
  simp [behindOpening, behindType, behindName, behindElements]

theorem behindName_append : loop.modifiers ++ (loop.type ++ [loop.name]) ++ loop.behindName rest =
    loop.behindOpening rest := by
  simp [behindOpening, behindType]

theorem tokens_append :
    loop.tokens ++ rest = loop.keyword :: loop.opening :: loop.behindOpening rest := by
  rw [← loop.behindOpening_append]
  rfl

/-- The type and the elements of a loop are accepted where they stand. -/
structure PartsAccepted (input : Input) : Prop where
  type : Accepts input typeRef loop.type (loop.behindType rest)
  elements : Accepts input (nonterminal .expression) loop.elements (loop.behindElements rest)

end ElementLoop

section

variable {loop : ElementLoop} {input : Input} {rest : List Token}

/-- A variable is seen behind the parenthesis, whatever the arguments of its annotations are. -/
theorem ElementLoop.PartsAccepted.atLocalVariable_eq_true (h : loop.PartsAccepted rest input) :
    atLocalVariable (loop.behindOpening rest) = true := by
  have hskipped := leaves_typeRef.of_accepts h.type
  have hbehind : (skipVariableModifiers (loop.behindOpening rest).length
      (loop.behindOpening rest)).bind skipType = some (loop.behindType rest) := by
    unfold behindOpening
    rw [loop.modifiers_written.skip_append hskipped.begins, hskipped.variableType]
  have hname : kindAt (loop.behindType rest) 0 = .ident := loop.name_kind
  have hcolon : kindAt (loop.behindType rest) 1 = .colon := loop.colon_kind
  rw [atLocalVariable, hbehind]
  simp only [hname, hcolon]
  rfl

/-- The `:` behind the name is the first sign, if there is none among the modifiers. -/
theorem ElementLoop.PartsAccepted.atForEachColon_iff (h : loop.PartsAccepted rest input) :
    atForEachColon (loop.behindOpening rest) = true ↔
      ∀ sign ∈ firstSign? loop.modifiers, sign.kind = .colon := by
  -- Neither the type nor the name has a sign, so the one behind the modifiers is the colon.
  have hcolon : firstSign? (loop.behindType rest) = some loop.colon := by
    have hname : firstSign? (loop.behindType rest) = firstSign? ((loop.behindType rest).drop 1) :=
      firstSign?_drop_one (by unfold behindType; rw [kindAt_cons, loop.name_kind]; rfl)
    rw [hname]
    exact List.find?_cons_of_pos (by rw [loop.colon_kind]; rfl)
  have hsign : firstSign? (loop.behindOpening rest) =
      (firstSign? loop.modifiers).or (some loop.colon) := by
    unfold behindOpening
    rw [firstSign?_append, h.type.firstSign?_append, hcolon]
  change (firstSign? (loop.behindOpening rest)).any (·.kind == .colon) = true ↔ _
  rw [hsign]
  cases firstSign? loop.modifiers with
  | none => simp [loop.colon_kind]
  | some sign => simp

/-- Modifiers and a type are read in front of anything else. -/
theorem reads_variableType {next : Parse Unit} {words type more : List Token}
    (hm : VariableModifiers words) (ht : Accepts input typeRef type (more ++ rest))
    (hn : ReadsBefore (next.given input) () more rest) :
    ReadsBefore ((do modifiers; typeRef; next).given input) () (words ++ (type ++ more)) rest := by
  -- The step for modifiers does not stop before the annotations of the type, but behind them.
  obtain ⟨annotations, element, rfl, hp⟩ := ht.exists_typeParts
  have hmodifiers : ReadsBefore modifiers () (words ++ annotations) (element ++ more ++ rest) := by
    refine (hm.written.append hp.annotations.written).reads_modifiers ?_
    rw [List.append_assoc]
    exact hp.begins
  have hread := hmodifiers.given.given_then (hp.reads.given_then hn)
  rw [List.append_assoc] at hread ⊢
  exact hread

/-- A name alone is a list of variables. -/
theorem reads_variableDeclarators {name : Token} (hn : name.kind = .ident) :
    Reads (variableDeclarators nonterminal) () [name] (· = .colon) := by
  have hvalue : Reads (do if ← eat .assign then variableInitializer nonterminal) () []
      (· = .colon) := by
    refine reads_opt_not ?_
    rintro kind rfl
    decide
  have hbehind : Reads (do dimensions; if ← eat .assign then variableInitializer nonterminal) () []
      (· = .colon) := by
    refine (reads_dimensions .nil).bind hvalue ?_
    intro rest hr
    rw [List.nil_append, hr]
    decide
  refine Reads.comma_last (((reads_expect hn _).then hbehind).node _) ?_
  rintro kind rfl
  decide

theorem reads_emptyStmt {semicolon : Token} (hs : semicolon.kind = .semicolon) :
    ReadsFreely (nonterminal .statement) () [semicolon] := by
  intro rest _
  rw [nonterminal_eq]
  apply ReadsBefore.looking
  have hk : kindAt ([semicolon] ++ rest) 0 = .semicolon := hs
  simp only [id, hk]
  exact (reads_bump semicolon).node .emptyStmt rest trivial

/-- Where the colon is found, all of the loop is read. -/
theorem ElementLoop.PartsAccepted.reads (h : loop.PartsAccepted rest input) :
    ReadsBefore ((do
      forEachHeader nonterminal
      expect .rParen "`)`"
      nonterminal .statement).given input) () (loop.behindOpening []) rest := by
  have hnamed : ReadsBefore ((do
      expectIdent
      expect .colon "`:`"
      nonterminal .expression).given input) () (loop.name :: loop.colon :: loop.elements)
        (loop.behindElements rest) := by
    have hname : ReadsFreely expectIdent () [loop.name] := reads_expect loop.name_kind _
    have hcolon := reads_expect loop.colon_kind "`:`"
    exact (hname _ trivial).given.given_then ((hcolon _ trivial).given.given_then h.elements.reads)
  have hheader : ReadsBefore ((forEachHeader nonterminal).given input) ()
      (loop.modifiers ++ (loop.type ++ loop.name :: loop.colon :: loop.elements))
      ([loop.closing, loop.semicolon] ++ rest) :=
    reads_variableType loop.modifiers_written h.type hnamed
  have hbody : ReadsFreely (do expect .rParen "`)`"; nonterminal .statement) ()
      [loop.closing, loop.semicolon] :=
    (reads_expect loop.closing_kind _).then (reads_emptyStmt loop.semicolon_kind)
  have hread := hheader.given_then (hbody rest trivial).given
  simpa [behindOpening, behindType, behindName, behindElements] using hread

/-- As a loop with a counter, one over elements fails at its colon. -/
theorem ElementLoop.PartsAccepted.failsWithin_forHeader (h : loop.PartsAccepted rest input) :
    FailsWithin ((forHeader nonterminal).given input)
      (loop.modifiers ++ (loop.type ++ [loop.name])) (loop.behindName rest) := by
  have hinit : ReadsBefore ((forInit nonterminal).given input) ()
      (loop.modifiers ++ (loop.type ++ [loop.name])) (loop.behindName rest) := by
    apply ReadsBefore.given_node
    have hvariables : ReadsBefore ((localVariables nonterminal).given input) ()
        (loop.modifiers ++ (loop.type ++ [loop.name])) (loop.behindName rest) :=
      reads_variableType loop.modifiers_written h.type
        (reads_variableDeclarators loop.name_kind (loop.behindName rest) loop.colon_kind).given
    apply ReadsBefore.given_looking
    rw [loop.behindName_append, h.atLocalVariable_eq_true]
    exact hvariables.given_node .localVarDecl
  have hsemicolon : FailsWithin (expect .semicolon "`;`") [] (loop.behindName rest) := by
    refine failsWithin_expect ?_ _
    change loop.colon.kind ≠ .semicolon
    rw [loop.colon_kind]
    decide
  have hbehind : FailsWithin ((do
      expect .semicolon "`;`"
      unless ← isAt .semicolon do nonterminal .expression
      expect .semicolon "`;`"
      inNode .forUpdate do
        unless ← isAt .rParen do expressionList nonterminal).given input) []
          (loop.behindName rest) := fun _ builder errors => hsemicolon.bind input builder errors
  rw [← List.append_nil (loop.modifiers ++ _)]
  exact hinit.given_fails hbehind

theorem ElementLoop.PartsAccepted.failsWithin_forStmt (h : loop.PartsAccepted rest input)
    (place : Checkpoint) :
    FailsWithin ((aroundSince place .forStmt do
      forHeader nonterminal
      expect .rParen "`)`"
      nonterminal .statement).given input)
        (loop.modifiers ++ (loop.type ++ [loop.name])) (loop.behindName rest) :=
  h.failsWithin_forHeader.given_then.given_around place .forStmt

/-- Which loop it is is decided behind the parenthesis. -/
theorem statement_forStmt {keyword opening : Token} (hk : keyword.kind = .kwFor)
    (ho : opening.kind = .lParen) (input : Input) (behind : List Token) (builder : Builder)
    (errors : List ParseError) :
    nonterminal .statement input ⟨keyword :: opening :: behind, builder, errors⟩ =
      (if atLocalVariable behind && atForEachColon behind then
        aroundSince builder.checkpoint .forEachStmt do
          forEachHeader nonterminal
          expect .rParen "`)`"
          nonterminal .statement
      else
        aroundSince builder.checkpoint .forStmt do
          forHeader nonterminal
          expect .rParen "`)`"
          nonterminal .statement) input
            ⟨behind, (builder.token keyword).token opening, errors⟩ := by
  have hstatement : nonterminal .statement input ⟨keyword :: opening :: behind, builder, errors⟩ =
      forStmt nonterminal input ⟨keyword :: opening :: behind, builder, errors⟩ := by
    have hat : kindAt (keyword :: opening :: behind) 0 = .kwFor := hk
    rw [nonterminal_eq, nonterminalWith, statement]
    simp only [Bind.bind, look, id, hat]
  have hplace : checkpoint input ⟨keyword :: opening :: behind, builder, errors⟩ =
      (some builder.checkpoint, ⟨keyword :: opening :: behind, builder, errors⟩) := rfl
  have hbump : bump input ⟨keyword :: opening :: behind, builder, errors⟩ =
      (some (), ⟨opening :: behind, builder.token keyword, errors⟩) := rfl
  rw [hstatement, forStmt_eq, bind_of_some hplace, bind_of_some hbump,
    bind_of_some (expect_of_kind ho ..)]
  rfl

/-- What is read behind some children becomes a node together with them. -/
theorem ReadsBefore.exists_around {step : Parse Unit} {tokens : List Token} {base builder : Builder}
    {front : List Tree} (h : ReadsBefore (step.given input) () tokens rest)
    (hb : base.Adds front builder) (kind : NodeKind) (errors : List ParseError) :
    ∃ node after, aroundSince base.checkpoint kind step input ⟨tokens ++ rest, builder, errors⟩ =
        (some (), ⟨rest, after, errors⟩) ∧ node.kind = kind ∧ base.Adds [node] after := by
  obtain ⟨added, after, he, ha⟩ := h input
    (builder.startAt base.checkpoint kind ((tokens ++ rest).headD input.endToken)) errors
  obtain ⟨frame, hk, -, hnode⟩ := Builder.adds_around hb _ _ ha
  have hstart : startNodeAt base.checkpoint kind input ⟨tokens ++ rest, builder, errors⟩ =
      (some (), ⟨tokens ++ rest, builder.startAt base.checkpoint kind
        ((tokens ++ rest).headD input.endToken), errors⟩) := rfl
  refine ⟨frame.toTree, after.finishNode, ?_, hk, hnode⟩
  change step input _ = _ at he
  unfold aroundSince
  rw [bind_of_some hstart, bind_of_some he]
  rfl

/-- A loop over elements whose parts are accepted is parsed as one, without a fault, if and only if
no `;` and no `=` comes before any `:` among its modifiers. -/
theorem forEachStmt_iff (h : loop.PartsAccepted rest input) (builder : Builder)
    (errors : List ParseError) :
    (∃ node after, nonterminal .statement input ⟨loop.tokens ++ rest, builder, errors⟩ =
        (some (), ⟨rest, after, errors⟩) ∧ node.kind = .forEachStmt ∧ builder.Adds [node] after) ↔
      ∀ sign ∈ firstSign? loop.modifiers, sign.kind = .colon := by
  have hfront : builder.Adds [.leaf loop.keyword, .leaf loop.opening]
      ((builder.token loop.keyword).token loop.opening) :=
    (Builder.adds_push builder _).trans (Builder.adds_push _ _)
  rw [loop.tokens_append, statement_forStmt loop.keyword_kind loop.opening_kind,
    h.atLocalVariable_eq_true, Bool.true_and, ← h.atForEachColon_iff]
  constructor
  · rintro ⟨node, after, he, -, -⟩
    refine Decidable.by_contra fun hcolon => ?_
    have hfails := h.failsWithin_forStmt builder.checkpoint input
      ((builder.token loop.keyword).token loop.opening) errors
    rw [loop.behindName_append] at hfails
    obtain ⟨failed, -, hf, -⟩ := hfails
    rw [if_neg hcolon] at he
    cases hf.symm.trans he
  · intro hcolon
    have hread := h.reads.exists_around hfront .forEachStmt errors
    rw [loop.behindOpening_append] at hread
    rw [if_pos hcolon]
    exact hread

end

/-- In `for (final @A(b ? c : d, e = f) g.Map<K, List<int[]>> x : h(y)) ;` the first sign is the `:`
of a conditional, and the loop is one over elements all the same. -/
theorem forEachStmt_conditional :
    let modifiers : List Token := [.kwFinal, .atSign, .ident, .lParen, .ident, .question, .ident,
      .colon, .ident, .comma, .ident, .assign, .ident, .rParen].map ofKind
    let type : List Token := [.ident, .dot, .ident, .less, .ident, .comma, .ident, .less, .kwInt,
      .lBracket, .rBracket, .greater, .greater].map ofKind
    let elements : List Token := [.ident, .lParen, .ident, .rParen].map ofKind
    let input : Input := ⟨"", ofKind .eof⟩
    let builder := Builder.new .compilationUnit (ofKind .eof)
    ∃ loop : ElementLoop, loop.modifiers = modifiers ∧ loop.type = type ∧
      loop.elements = elements ∧ loop.PartsAccepted [] input ∧
      ∃ node after, nonterminal .statement input ⟨loop.tokens ++ [], builder, []⟩ =
        (some (), ⟨[], after, []⟩) ∧ node.kind = .forEachStmt ∧ builder.Adds [node] after := by
  intro modifiers type elements input builder
  let loop : ElementLoop :=
    { keyword := ofKind .kwFor
      opening := ofKind .lParen
      modifiers := ofKind .kwFinal :: (ofKind .atSign :: ofKind .ident :: ([] ++ (ofKind .lParen ::
        (modifiers.drop 4).take 9 ++ [ofKind .rParen])) ++ [])
      type := type
      name := ofKind .ident
      colon := ofKind .colon
      elements := elements
      closing := ofKind .rParen
      semicolon := ofKind .semicolon
      keyword_kind := rfl
      opening_kind := rfl
      modifiers_written := .final rfl (.use rfl rfl .nil
        (.given rfl (nestsParens_of_forall (by decide)) rfl) .nil)
      name_kind := rfl
      colon_kind := rfl
      closing_kind := rfl
      semicolon_kind := rfl }
  have hparts : loop.PartsAccepted [] input :=
    ⟨.of_run builder (by decide +kernel) (by decide +kernel) (by decide +kernel),
      .of_run builder (by decide +kernel) (by decide +kernel) (by decide +kernel)⟩
  exact ⟨loop, rfl, rfl, rfl, hparts, (forEachStmt_iff hparts builder []).2 (by decide)⟩

/-- A loop over elements is not parsed if its variable has an annotation with a named argument. -/
theorem not_forEachStmt_element :
    let text := "for (@B(v = 1) T x : e) ;"
    let tokens := (tokenize text).filter Token.isSignificant
    let builder := Builder.new .compilationUnit default
    ∃ loop : ElementLoop, tokens = loop.tokens ∧ loop.PartsAccepted [] (.of text) ∧
      ¬ ∃ node after, nonterminal .statement (.of text) ⟨loop.tokens ++ [], builder, []⟩ =
        (some (), ⟨[], after, []⟩) ∧ node.kind = .forEachStmt ∧ builder.Adds [node] after := by
  intro text tokens builder
  let token (place : Nat) : Token := tokens.getD place default
  let loop : ElementLoop :=
    { keyword := token 0
      opening := token 1
      modifiers := token 2 :: token 3 :: ([] ++ (token 4 :: [token 5, token 6, token 7] ++
        [token 8])) ++ []
      type := [token 9]
      name := token 10
      colon := token 11
      elements := [token 12]
      closing := token 13
      semicolon := token 14
      keyword_kind := by decide +kernel
      opening_kind := by decide +kernel
      modifiers_written := .use (by decide +kernel) (by decide +kernel) .nil
        (.given (by decide +kernel) (nestsParens_of_forall (by decide +kernel)) (by decide +kernel))
          .nil
      name_kind := by decide +kernel
      colon_kind := by decide +kernel
      closing_kind := by decide +kernel
      semicolon_kind := by decide +kernel }
  have hparts : loop.PartsAccepted [] (.of text) :=
    ⟨.of_run builder (by decide +kernel) (by decide +kernel) (by decide +kernel),
      .of_run builder (by decide +kernel) (by decide +kernel) (by decide +kernel)⟩
  refine ⟨loop, by decide +kernel, hparts, ?_⟩
  rintro ⟨node, after, he, -, -⟩
  have hfails : (nonterminal .statement (.of text) ⟨loop.tokens ++ [], builder, []⟩).1 = none := by
    decide +kernel
  rw [he] at hfails
  cases hfails

end Parser

end JavaGraph
