import JavaGraph.Proofs.Parser.Rounds
import JavaGraph.Proofs.Tree.Builder
/-!
# Reading what is written

A step reads some tokens if it passes them and no more, wherever they are ahead and a suitable token
follows, finds no fault in them and adds what it builds to the innermost node. What is written
according to the grammar is read, part by part.
-/

namespace JavaGraph.Parser

open Parse

set_option synthInstance.maxSize 8192

/-- Before `rest` a step passes exactly these tokens, with this result. -/
def ReadsBefore {α : Type} (step : Parse α) (value : α) (tokens rest : List Token) : Prop :=
  ∀ input builder errors, ∃ added after,
    step input ⟨tokens ++ rest, builder, errors⟩ = (some value, ⟨rest, after, errors⟩) ∧
      Builder.Adds builder added after

/-- A step passes exactly these tokens, with this result, if the kind of the token behind them
follows. -/
def Reads {α : Type} (step : Parse α) (value : α) (tokens : List Token)
    (follows : TokenKind → Prop) : Prop :=
  ∀ rest, follows (kindAt rest 0) → ReadsBefore step value tokens rest

section

variable {α β : Type} {step : Parse α} {next : α → Parse β} {value : α} {result : β}
  {tokens more rest : List Token} {token : Token} {kind : TokenKind}
  {follows first : TokenKind → Prop}

/-- A step passes exactly these tokens, whatever follows. -/
abbrev ReadsFreely (step : Parse α) (value : α) (tokens : List Token) : Prop :=
  Reads step value tokens fun _ => True

theorem kindAt_cons (token : Token) (ahead : List Token) : kindAt (token :: ahead) 0 = token.kind :=
  rfl

/-! ### Steps put together -/

theorem readsBefore_pure (value : α) : ReadsBefore (pure value) value [] rest :=
  fun _ builder _ => ⟨[], builder, rfl, Builder.adds_nil builder⟩

/-- Steps in sequence read what is written in sequence. -/
theorem ReadsBefore.bind (h : ReadsBefore step value tokens (more ++ rest))
    (hn : ReadsBefore (next value) result more rest) :
    ReadsBefore (step >>= next) result (tokens ++ more) rest := by
  intro input builder errors
  obtain ⟨added, middle, he, ha⟩ := h input builder errors
  obtain ⟨added', after, he', ha'⟩ := hn input middle errors
  refine ⟨added ++ added', after, ?_, ha.trans ha'⟩
  rw [List.append_assoc, bind_of_some he, he']

theorem ReadsBefore.returning (h : ReadsBefore step value tokens rest) (result : β) :
    ReadsBefore (step >>= fun _ => pure result) result tokens rest := by
  rw [← List.append_nil tokens]
  exact h.bind (readsBefore_pure result)

/-- A look at the tokens does not pass any. -/
theorem ReadsBefore.looking {f : List Token → α} {next : α → Parse β}
    (h : ReadsBefore (next (f (tokens ++ rest))) result tokens rest) :
    ReadsBefore (look f >>= next) result tokens rest :=
  fun input builder errors => h input builder errors

/-- A node is built of what is read within it. -/
theorem ReadsBefore.exists_node {step : Parse Unit} (h : ReadsBefore step () tokens rest)
    (kind : NodeKind) (input : Input) (builder : Builder) (errors : List ParseError) :
    ∃ node after, inNode kind step input ⟨tokens ++ rest, builder, errors⟩ =
        (some (), ⟨rest, after, errors⟩) ∧
      node.kind = kind ∧ builder.Adds [node] after := by
  obtain ⟨added, middle, he, ha⟩ := h input
    (builder.start kind ((tokens ++ rest).headD input.endToken)) errors
  obtain ⟨done, hk, -, hd⟩ := Builder.adds_finishNode ha
  refine ⟨done.toTree, _, ?_, hk, hd⟩
  have hstart : startNode kind input ⟨tokens ++ rest, builder, errors⟩ = (some (), ⟨tokens ++ rest,
      builder.start kind ((tokens ++ rest).headD input.endToken), errors⟩) := rfl
  unfold inNode
  rw [bind_of_some hstart, bind_of_some he]
  rfl

theorem ReadsBefore.node {step : Parse Unit} (h : ReadsBefore step () tokens rest)
    (kind : NodeKind) : ReadsBefore (inNode kind step) () tokens rest := by
  intro input builder errors
  obtain ⟨node, after, he, -, ha⟩ := h.exists_node kind input builder errors
  exact ⟨[node], after, he, ha⟩

section

variable {round : Parse Bool} [Progresses round]

/-- A loop goes on behind a round that asks for another one. -/
theorem ReadsBefore.again (h : ReadsBefore round true tokens (more ++ rest))
    (hl : ReadsBefore (loop round) () more rest) :
    ReadsBefore (loop round) () (tokens ++ more) rest := by
  rw [loop_eq]
  exact h.bind hl

/-- A loop ends with a round that asks for no other. -/
theorem ReadsBefore.done (h : ReadsBefore round false tokens rest) :
    ReadsBefore (loop round) () tokens rest := by
  rw [loop_eq, ← List.append_nil tokens]
  exact ReadsBefore.bind h (readsBefore_pure ())

end

/-! ### What follows -/

theorem Reads.mono (h : Reads step value tokens first) (hf : ∀ kind, follows kind → first kind) :
    Reads step value tokens follows :=
  fun rest hr => h rest (hf _ hr)

theorem reads_pure (value : α) : Reads (pure value) value [] follows :=
  fun _ _ => readsBefore_pure value

theorem Reads.bind (h : Reads step value tokens first) (hn : Reads (next value) result more follows)
    (hf : ∀ rest, follows (kindAt rest 0) → first (kindAt (more ++ rest) 0)) :
    Reads (step >>= next) result (tokens ++ more) follows :=
  fun rest hr => (h _ (hf rest hr)).bind (hn rest hr)

theorem ReadsFreely.then (h : ReadsFreely step value tokens)
    (hn : Reads (next value) result more follows) :
    Reads (step >>= next) result (tokens ++ more) follows :=
  Reads.bind h hn fun _ _ => trivial

theorem ReadsFreely.reads (h : ReadsFreely step value tokens) : Reads step value tokens follows :=
  h.mono fun _ _ => trivial

theorem Reads.looking {f : List Token → α} {next : α → Parse β}
    (hv : ∀ rest, follows (kindAt rest 0) → f (tokens ++ rest) = value)
    (h : Reads (next value) result tokens follows) :
    Reads (look f >>= next) result tokens follows := by
  intro rest hr
  apply ReadsBefore.looking
  rw [hv rest hr]
  exact h rest hr

/-- What a look sees may not matter. -/
theorem Reads.looking_any {f : List Token → α} {next : α → Parse β}
    (h : ∀ value, Reads (next value) result tokens follows) :
    Reads (look f >>= next) result tokens follows :=
  fun rest hr => .looking (h (f (tokens ++ rest)) rest hr)

theorem Reads.at_kind {next : Bool → Parse β} (hk : ∀ rest, kindAt (tokens ++ rest) 0 = kind)
    (h : Reads (next true) result tokens follows) :
    Reads (isAt kind >>= next) result tokens follows :=
  Reads.looking (fun rest _ => beq_iff_eq.2 (hk rest)) h

theorem Reads.not_at {next : Bool → Parse β}
    (hk : ∀ rest, follows (kindAt rest 0) → kindAt (tokens ++ rest) 0 ≠ kind)
    (h : Reads (next false) result tokens follows) :
    Reads (isAt kind >>= next) result tokens follows :=
  Reads.looking (fun rest hr => beq_eq_false_iff_ne.2 (hk rest hr)) h

theorem reads_bump (token : Token) : ReadsFreely bump () [token] :=
  fun _ _ _ builder _ => ⟨[.leaf token], builder.token token, rfl, Builder.adds_push ..⟩

theorem reads_bumpMany_two (a b : Token) : ReadsFreely (bumpMany 2) () [a, b] :=
  (reads_bump a).then ((reads_bump b).then (reads_pure ()))

theorem reads_eat (h : token.kind = kind) : ReadsFreely (eat kind) true [token] :=
  Reads.at_kind (fun _ => h) ((reads_bump token).then (reads_pure true))

theorem reads_eat_not : Reads (eat kind) false [] (· ≠ kind) :=
  Reads.not_at (fun _ hr => hr) (reads_pure false)

/-- What a token would begin is not there. -/
theorem reads_opt_not {step : Parse Unit} (hf : ∀ other, follows other → other ≠ kind) :
    Reads (do if ← eat kind then step) () [] follows := by
  have hnot : Reads (eat kind) false [] follows := reads_eat_not.mono hf
  have hnone : Reads (if false = true then step else pure ()) () [] follows := reads_pure ()
  exact Reads.bind hnot hnone fun _ hr => hr

theorem reads_expect (h : token.kind = kind) (what : String) :
    ReadsFreely (expect kind what) () [token] :=
  (reads_eat h).then (reads_pure ())

theorem Reads.node {step : Parse Unit} (h : Reads step () tokens follows) (kind : NodeKind) :
    Reads (inNode kind step) () tokens follows :=
  fun rest hr => (h rest hr).node kind

section

variable {round : Parse Bool} [Progresses round]

theorem Reads.again (h : Reads round true tokens first) (hl : Reads (loop round) () more follows)
    (hf : ∀ rest, follows (kindAt rest 0) → first (kindAt (more ++ rest) 0)) :
    Reads (loop round) () (tokens ++ more) follows :=
  fun rest hr => (h _ (hf rest hr)).again (hl rest hr)

theorem Reads.done (h : Reads round false tokens follows) :
    Reads (loop round) () tokens follows :=
  fun rest hr => (h rest hr).done

end

/-- Items with commas between them. -/
theorem Reads.comma {item : Parse Unit} [Keeps Advanced item] (h : Reads item () tokens first)
    (hk : token.kind = .comma) (hl : Reads (commaSeparated item) () more follows)
    (hf : first .comma) : Reads (commaSeparated item) () (tokens ++ token :: more) follows := by
  have hround : ReadsFreely (do item; eat .comma) true (tokens ++ [token]) := by
    apply Reads.bind h (reads_eat hk)
    intro rest _
    rw [List.singleton_append, kindAt_cons, hk]
    exact hf
  have := Reads.again hround hl fun _ _ => trivial
  rwa [List.append_assoc] at this

/-- The last of some items with commas between them. -/
theorem Reads.comma_last {item : Parse Unit} [Keeps Advanced item] (h : Reads item () tokens follows)
    (hf : ∀ kind, follows kind → kind ≠ .comma) :
    Reads (commaSeparated item) () tokens follows := by
  apply Reads.done
  rw [← List.append_nil tokens]
  exact h.bind (reads_eat_not.mono hf) fun _ hr => hr

end

/-! ### Names and dimensions -/

theorem Passes.inNode {step : Parse Unit} (h : Passes step) (kind : NodeKind) :
    Passes (inNode kind step) := by
  intro input state hs
  have hb : Passes (do step; finishNode) := h.bind
  exact hb input
    { state with builder := state.builder.start kind (state.ahead.headD input.endToken) } hs

/-- The round of a loop over pairs of tokens. -/
def pairRound (first second : TokenKind) : Parse Bool := do
  if (← isAt first) && (← isAtNth 1 second) then
    bumpMany 2
    return true
  else return false

theorem progresses_pairRound {first : TokenKind} (hk : first ≠ .eof) (second : TokenKind) :
    Progresses (pairRound first second) := by
  constructor
  intro input state after he
  change (if (kindAt state.ahead 0 == first && kindAt state.ahead 1 == second) = true then
    (do bumpMany 2; return true) else (return false) : Parse Bool) input state = _ at he
  split at he
  · next hat =>
    have hs : state.ahead ≠ [] := by
      rw [Bool.and_eq_true, beq_iff_eq] at hat
      intro hnil
      rw [hnil] at hat
      exact hk hat.1.symm
    have hround : Passes (do bumpMany 2; return true) := (passes_bumpMany 1).bind
    have hl := hround input state hs
    rwa [he] at hl
  · cases he

/-- Pairs of tokens of two kinds. -/
inductive Pairs (first second : TokenKind) : List Token → Prop where
  | nil : Pairs first second []
  | cons {a b : Token} {rest : List Token} (ha : a.kind = first) (hb : b.kind = second)
      (h : Pairs first second rest) : Pairs first second (a :: b :: rest)

/-- Pairs are read up to where no other pair stands. -/
theorem Pairs.readsBefore {first second : TokenKind} {tokens rest : List Token}
    (h : Pairs first second tokens) (hk : first ≠ .eof)
    (hr : ¬ (kindAt rest 0 = first ∧ kindAt rest 1 = second)) :
    ReadsBefore (loop (pairRound first second)) () tokens rest := by
  have := progresses_pairRound hk second
  induction h with
  | nil =>
    have hnone : (kindAt rest 0 == first && kindAt rest 1 == second) = false := by
      rw [Bool.and_eq_false_iff, beq_eq_false_iff_ne, beq_eq_false_iff_ne]
      exact Classical.not_and_iff_not_or_not.1 hr
    apply ReadsBefore.done
    refine ReadsBefore.looking (ReadsBefore.looking ?_)
    rw [List.nil_append, if_neg (by simp [hnone])]
    exact readsBefore_pure false
  | @cons a b more ha hb h ih =>
    have hround : ReadsFreely (pairRound first second) true [a, b] := by
      have hsecond (rest : List Token) : (kindAt ([a, b] ++ rest) 1 == second) = true :=
        beq_iff_eq.2 hb
      refine Reads.at_kind (fun _ => ha) (Reads.looking (fun rest _ => hsecond rest) ?_)
      exact (reads_bumpMany_two a b).then (reads_pure true)
    exact (hround (more ++ rest) trivial).again ih

theorem reads_pairs {first second : TokenKind} {tokens : List Token} (hk : first ≠ .eof)
    (h : Pairs first second tokens) :
    Reads (loop (pairRound first second)) () tokens (· ≠ first) :=
  fun _ hr => h.readsBefore hk fun hat => hr hat.1

theorem reads_dimensions {tokens : List Token} (h : Pairs .lBracket .rBracket tokens) :
    Reads dimensions () tokens (· ≠ .lBracket) :=
  reads_pairs (by decide) h

theorem reads_dottedRest {tokens : List Token} (h : Pairs .dot .ident tokens) :
    Reads dottedRest () tokens (· ≠ .dot) :=
  reads_pairs (by decide) h

theorem reads_qualifiedName {name : Token} {dotted : List Token} (hn : name.kind = .ident)
    (h : Pairs .dot .ident dotted) :
    Reads qualifiedName () (name :: dotted) (· ≠ .dot) :=
  ((reads_expect hn _).then (reads_dottedRest h)).node _

/-! ### Annotations in front of a type -/

/-- Annotations in front of a type; they have no arguments. -/
inductive TypeAnnotations : List Token → Prop where
  | nil : TypeAnnotations []
  | cons {sign name : Token} {dotted rest : List Token} (hs : sign.kind = .atSign)
      (hn : name.kind = .ident) (hd : Pairs .dot .ident dotted) (h : TypeAnnotations rest) :
      TypeAnnotations (sign :: name :: dotted ++ rest)

theorem TypeAnnotations.kindAt_eq {tokens : List Token} (h : TypeAnnotations tokens)
    (rest : List Token) :
    kindAt (tokens ++ rest) 0 = .atSign ∨ kindAt (tokens ++ rest) 0 = kindAt rest 0 := by
  cases h with
  | nil => exact .inr rfl
  | cons hs => exact .inl hs

/-- One annotation in front of a type, if there is one. -/
def typeAnnotationRound : Parse Bool := do
  if (← isAt .atSign) && (← isAtNth 1 .ident) then
    inNode .annotationUse do
      bump
      qualifiedName
    return true
  else return false

instance : Consumes qualifiedName := by unfold qualifiedName; infer_instance

instance : Progresses typeAnnotationRound := by unfold typeAnnotationRound; infer_instance

theorem reads_typeAnnotations {tokens : List Token} (h : TypeAnnotations tokens) :
    Reads typeAnnotations () tokens fun kind => kind ≠ .atSign ∧ kind ≠ .dot := by
  change Reads (loop typeAnnotationRound) () tokens _
  induction h with
  | nil =>
    apply Reads.done
    exact Reads.not_at (fun _ hr => hr.1) (Reads.looking_any fun _ => reads_pure false)
  | @cons sign name dotted rest hs hn hd h ih =>
    have hround : Reads typeAnnotationRound true (sign :: name :: dotted) (· ≠ .dot) := by
      have hname (rest : List Token) :
          (kindAt (sign :: name :: dotted ++ rest) 1 == .ident) = true := beq_iff_eq.2 hn
      refine Reads.at_kind (fun _ => hs) (Reads.looking (fun rest _ => hname rest) ?_)
      have hread : Reads (do bump; qualifiedName) () (sign :: name :: dotted) (· ≠ .dot) :=
        (reads_bump sign).then (reads_qualifiedName hn hd)
      rw [← List.append_nil (sign :: name :: dotted)]
      exact (hread.node .annotationUse).bind (reads_pure true) fun _ hr => hr
    refine hround.again ih fun more hr => ?_
    rcases h.kindAt_eq more with hk | hk
    · rw [hk]
      decide
    · rw [hk]
      exact hr.2

/-! ### Types -/

/-- The parts that a type is made of. -/
inductive TypePart where
  | type
  /-- A type without its annotations and dimensions. -/
  | element
  /-- The segments of the name of a class type, with their arguments. -/
  | segments
  /-- The arguments of a segment, if it has any. -/
  | argumentsOpt
  /-- Arguments without the brackets around them. -/
  | arguments
  | argument

/-- How a part of a type is written. -/
inductive Written : TypePart → List Token → Prop where
  | type {annotations element brackets : List Token} (ha : TypeAnnotations annotations)
      (he : Written .element element) (hd : Pairs .lBracket .rBracket brackets) :
      Written .type (annotations ++ (element ++ brackets))
  | primitive {word : Token} (h : word.kind.isPrimitiveType) : Written .element [word]
  | named {segments : List Token} (h : Written .segments segments) : Written .element segments
  | lastSegment {name : Token} {arguments : List Token} (hn : name.kind = .ident)
      (ha : Written .argumentsOpt arguments) : Written .segments (name :: arguments)
  | segment {name dot : Token} {arguments rest : List Token} (hn : name.kind = .ident)
      (ha : Written .argumentsOpt arguments) (hd : dot.kind = .dot) (h : Written .segments rest) :
      Written .segments (name :: arguments ++ dot :: rest)
  | noArguments : Written .argumentsOpt []
  | diamond {opening closing : Token} (ho : opening.kind = .less) (hc : closing.kind = .greater) :
      Written .argumentsOpt [opening, closing]
  | someArguments {opening closing : Token} {arguments : List Token} (ho : opening.kind = .less)
      (h : Written .arguments arguments) (hc : closing.kind = .greater) :
      Written .argumentsOpt (opening :: arguments ++ [closing])
  | lastArgument {argument : List Token} (h : Written .argument argument) :
      Written .arguments argument
  | moreArguments {argument rest : List Token} {comma : Token} (ha : Written .argument argument)
      (hc : comma.kind = .comma) (h : Written .arguments rest) :
      Written .arguments (argument ++ comma :: rest)
  | exactly {type : List Token} (h : Written .type type) : Written .argument type
  | anything {mark : Token} (hm : mark.kind = .question) : Written .argument [mark]
  | bounded {mark word : Token} {bound : List Token} (hm : mark.kind = .question)
      (hw : word.kind = .kwExtends ∨ word.kind = .kwSuper) (h : Written .type bound) :
      Written .argument (mark :: word :: bound)

/-- What may stand behind a type where it cannot be taken for more of the type. -/
def EndsType (kind : TokenKind) : Prop :=
  kind ∈ [.comma, .greater, .amp, .lBrace, .kwImplements]

/-- The step that reads a part of a type. -/
def TypePart.step : TypePart → Parse Unit
  | .type => typeRef
  | .element => elementTypeWith typeRef
  | .segments => classTypeWith typeRef
  | .argumentsOpt => do if ← isAt .less then typeArgumentsWith typeRef
  | .arguments => commaSeparated (typeArgumentWith typeRef)
  | .argument => typeArgumentWith typeRef

/-- What may follow a part of a type. -/
def TypePart.Follows : TypePart → TokenKind → Prop
  | .type, kind | .argument, kind => EndsType kind
  | .element, kind | .segments, kind => EndsType kind ∨ kind = .lBracket
  | .argumentsOpt, kind => EndsType kind ∨ kind = .lBracket ∨ kind = .dot
  | .arguments, kind => kind = .greater

theorem EndsType.ne {kind other : TokenKind} (h : EndsType kind) (ho : ¬ EndsType other) :
    kind ≠ other := fun he => ho (he ▸ h)

instance (kind : TokenKind) : Decidable (EndsType kind) := by unfold EndsType; infer_instance

theorem Pairs.kindAt_eq {first second : TokenKind} {tokens : List Token}
    (h : Pairs first second tokens) (rest : List Token) :
    kindAt (tokens ++ rest) 0 = first ∨ kindAt (tokens ++ rest) 0 = kindAt rest 0 := by
  cases h with
  | nil => exact .inr rfl
  | cons ha => exact .inl ha

theorem Written.kindAt_segments {tokens : List Token} (h : Written .segments tokens)
    (rest : List Token) : kindAt (tokens ++ rest) 0 = .ident := by
  cases h with
  | lastSegment hn => exact hn
  | segment hn => exact hn

theorem Written.kindAt_element {tokens : List Token} (h : Written .element tokens)
    (rest : List Token) :
    (kindAt (tokens ++ rest) 0).isPrimitiveType ∨ kindAt (tokens ++ rest) 0 = .ident := by
  cases h with
  | primitive h => exact .inl h
  | named h => exact .inr (h.kindAt_segments rest)

/-- A type begins with an annotation or with its name. -/
theorem Written.kindAt_type {tokens : List Token} (h : Written .type tokens) (rest : List Token) :
    kindAt (tokens ++ rest) 0 = .atSign ∨ (kindAt (tokens ++ rest) 0).isPrimitiveType ∨
      kindAt (tokens ++ rest) 0 = .ident := by
  cases h with
  | @type annotations element brackets ha he hd =>
    rw [List.append_assoc, List.append_assoc]
    rcases ha.kindAt_eq (element ++ (brackets ++ rest)) with hk | hk
    · exact .inl hk
    · rw [hk]
      exact .inr (he.kindAt_element _)

theorem Written.kindAt_argument_ne {tokens : List Token} (h : Written .argument tokens)
    (rest : List Token) : kindAt (tokens ++ rest) 0 ≠ .greater := by
  intro hk
  cases h with
  | exactly h =>
    rcases h.kindAt_type rest with he | he | he <;> rw [hk] at he <;> cases he
  | anything hm => cases hm.symm.trans hk
  | bounded hm => cases hm.symm.trans hk

theorem Written.kindAt_arguments_ne {tokens : List Token} (h : Written .arguments tokens)
    (rest : List Token) : kindAt (tokens ++ rest) 0 ≠ .greater := by
  cases h with
  | lastArgument h => exact h.kindAt_argument_ne rest
  | moreArguments ha =>
    rw [List.append_assoc]
    exact ha.kindAt_argument_ne _

/-- Behind the segment of a name, another one follows or not. -/
def segmentEnd : Parse Bool := do
  if (← isAt .dot) && (← isAtNth 1 .ident) then
    bump
    return true
  else return false

/-- The segment of the name of a class type. -/
def segmentRound (nested : Parse Unit) : Parse Bool := do
  expect .ident "type"
  if ← isAt .less then typeArgumentsWith nested
  segmentEnd

instance (nested : Parse Unit) [Keeps Advanced nested] : Progresses (segmentRound nested) := by
  unfold segmentRound segmentEnd; dsimp only; infer_instance

theorem reads_segmentEnd_not : Reads segmentEnd false [] (· ≠ .dot) :=
  Reads.not_at (fun _ hr => hr) (Reads.looking_any fun _ => reads_pure false)

theorem reads_segmentEnd {dot : Token} (hd : dot.kind = .dot) :
    Reads segmentEnd true [dot] (· = .ident) := by
  refine Reads.at_kind (fun _ => hd) (Reads.looking (fun rest hr => beq_iff_eq.2 hr) ?_)
  exact (reads_bump dot).then (reads_pure true)

/-- A step that is done or not by a look at the next token, and the one behind it. -/
theorem Reads.of_opt {α : Type} {kind : TokenKind} {step : Parse Unit} {last : Parse α} {again : α}
    {tokens : List Token} {follows : TokenKind → Prop}
    (h : Reads ((do if ← isAt kind then step) >>= fun _ => last) again tokens follows) :
    Reads (do
      if ← isAt kind then step
      last) again tokens follows := by
  rw [bind_assoc] at h
  have hsteps : (do
      if ← isAt kind then step
      last) = (isAt kind >>= fun here => (if here = true then step else pure ()) >>= fun _ => last) := by
    congr 1
    funext here
    cases here <;> rfl
  rw [hsteps]
  exact h

theorem reads_written {part : TypePart} {tokens : List Token} (h : Written part tokens) :
    Reads part.step () tokens part.Follows := by
  induction h with
  | @type annotations element brackets ha he hd ih =>
    have helement : Reads (do elementTypeWith typeRef; dimensions) () (element ++ brackets)
        EndsType := by
      apply Reads.bind ih ((reads_dimensions hd).mono fun kind hk => hk.ne (by decide))
      intro rest hr
      rcases hd.kindAt_eq rest with hk | hk
      · exact .inr hk
      · rw [hk]
        exact .inl hr
    have hparts : Reads (do typeAnnotations; elementTypeWith typeRef; dimensions) ()
        (annotations ++ (element ++ brackets)) EndsType := by
      apply Reads.bind (reads_typeAnnotations ha) helement
      intro rest hr
      rw [List.append_assoc]
      rcases he.kindAt_element (brackets ++ rest) with hk | hk
      · constructor <;> (intro hother; rw [hother] at hk; cases hk)
      · rw [hk]
        decide
    have hread := hparts.node .typeRef
    change Reads typeRef () _ EndsType
    rw [typeRef_eq]
    exact hread
  | @primitive word h =>
    refine Reads.looking (fun _ _ => h) ?_
    exact (reads_bump word).reads
  | @named segments h ih =>
    have hprimitive (rest : List Token) :
        (kindAt (segments ++ rest) 0).isPrimitiveType = false := by
      rw [h.kindAt_segments rest]
      rfl
    refine Reads.looking (fun rest _ => hprimitive rest) ?_
    exact ih
  | @lastSegment name arguments hn ha ih =>
    change Reads (loop (segmentRound typeRef)) () _ _
    apply Reads.done
    refine (reads_expect hn _).then (Reads.of_opt ?_)
    rw [← List.append_nil arguments]
    refine Reads.bind ih (reads_segmentEnd_not.mono ?_) ?_
    · rintro kind (hk | rfl)
      · exact hk.ne (by decide)
      · decide
    · rintro rest (hr | hr)
      · exact .inl hr
      · exact .inr (.inl hr)
  | @segment name dot arguments rest hn ha hd h iha ih =>
    change Reads (loop (segmentRound typeRef)) () _ _
    have hround : Reads (segmentRound typeRef) true (name :: arguments ++ [dot]) (· = .ident) := by
      refine (reads_expect hn _).then (Reads.of_opt ?_)
      refine Reads.bind iha (reads_segmentEnd hd) ?_
      intro rest _
      exact .inr (.inr hd)
    rw [List.append_cons]
    refine hround.again ih fun more _ => ?_
    exact h.kindAt_segments more
  | noArguments =>
    refine Reads.not_at (fun rest hr => ?_) (reads_pure ())
    rcases hr with hr | hr | hr
    · exact hr.ne (by decide)
    · rw [List.nil_append, hr]
      decide
    · rw [List.nil_append, hr]
      decide
  | @diamond opening closing ho hc =>
    have hread : ReadsFreely (typeArgumentsWith typeRef) () [opening, closing] := by
      apply Reads.node
      refine (reads_expect ho _).then ?_
      refine Reads.at_kind (fun _ => hc) ?_
      exact reads_expect hc _
    exact Reads.at_kind (fun _ => ho) hread.reads
  | @someArguments opening closing arguments ho h hc ih =>
    have hread : ReadsFreely (typeArgumentsWith typeRef) () (opening :: arguments ++ [closing]) := by
      apply Reads.node
      refine (reads_expect ho _).then ?_
      refine Reads.not_at (fun rest _ => ?_) ?_
      · change kindAt ((arguments ++ [closing]) ++ rest) 0 ≠ .greater
        rw [List.append_assoc]
        exact h.kindAt_arguments_ne _
      · refine Reads.bind ih (reads_expect hc _) ?_
        intro rest _
        exact hc
    exact Reads.at_kind (fun _ => ho) hread.reads
  | lastArgument h ih =>
    refine Reads.comma_last (ih.mono ?_) ?_
    · rintro kind rfl
      exact (by decide : EndsType .greater)
    · rintro kind rfl
      decide
  | moreArguments ha hc h iha ih =>
    have hitem : Reads (typeArgumentWith typeRef) () _ EndsType := iha
    exact hitem.comma hc ih (by decide)
  | @exactly type h ih =>
    refine Reads.not_at (fun rest _ hk => ?_) ih
    rcases h.kindAt_type rest with he | he | he <;> rw [hk] at he <;> cases he
  | @anything mark hm =>
    have hread : Reads (inNode .wildcard do
        bump
        if (← isAt .kwExtends) || (← isAt .kwSuper) then
          bump
          typeRef) () [mark] EndsType := by
      apply Reads.node
      refine (reads_bump mark).then ?_
      refine Reads.not_at (fun _ hr => hr.ne (by decide)) ?_
      exact Reads.not_at (fun _ hr => hr.ne (by decide)) (reads_pure ())
    exact Reads.at_kind (fun _ => hm) hread
  | @bounded mark word bound hm hw h ih =>
    have hread : Reads (inNode .wildcard do
        bump
        if (← isAt .kwExtends) || (← isAt .kwSuper) then
          bump
          typeRef) () (mark :: word :: bound) EndsType := by
      apply Reads.node
      refine (reads_bump mark).then ?_
      have hbound : Reads (do bump; typeRef) () (word :: bound) EndsType := (reads_bump word).then ih
      rcases hw with hw | hw
      · exact Reads.at_kind (fun _ => hw) (Reads.looking_any fun _ => hbound)
      · refine Reads.not_at (fun _ _ => ?_) (Reads.at_kind (fun _ => hw) hbound)
        rw [List.cons_append, kindAt_cons, hw]
        decide
    exact Reads.at_kind (fun _ => hm) hread

end JavaGraph.Parser
