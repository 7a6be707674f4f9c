import JavaGraph.Proofs.Parser.Headers
import JavaGraph.Proofs.Parser.Scans
/-!
# Looking ahead agrees with parsing

A type is skipped by a scan that counts angle brackets and is parsed by steps that follow its
nesting. Where the steps accept a type, the scan comes to the same token: within open brackets it
passes over whatever a nested type consists of, and outside of them both go on by the same rules.
So a declaration of local variables is recognised wherever one can be parsed.
-/

namespace JavaGraph.Parser

open Parse

set_option synthInstance.maxSize 8192

variable {α β : Type} {ahead : List Token}

/-! ### What steps leave -/

/-- What a step leaves of some tokens, if it succeeds with them ahead. -/
def Leaves (ahead : List Token) (step : Parse α) (P : α → List Token → Prop) : Prop :=
  ∀ input state value after, state.ahead = ahead → step input state = (some value, after) →
    P value after.ahead

theorem Leaves.mono {step : Parse α} {P Q : α → List Token → Prop} (h : Leaves ahead step P)
    (hq : ∀ value rest, P value rest → Q value rest) : Leaves ahead step Q :=
  fun input state value after hs he => hq _ _ (h input state value after hs he)

theorem Leaves.and {step : Parse α} {P Q : α → List Token → Prop} (h : Leaves ahead step P)
    (hq : Leaves ahead step Q) : Leaves ahead step fun value rest => P value rest ∧ Q value rest :=
  fun input state value after hs he =>
    ⟨h input state value after hs he, hq input state value after hs he⟩

theorem leaves_pure (value : α) :
    Leaves ahead (pure value) fun given rest => given = value ∧ rest = ahead := by
  rintro input state _ _ rfl he
  cases he
  exact ⟨rfl, rfl⟩

theorem Leaves.bind {step : Parse α} {next : α → Parse β} {P : α → List Token → Prop}
    {Q : β → List Token → Prop} (h : Leaves ahead step P)
    (hn : ∀ value rest, P value rest → Leaves rest (next value) Q) :
    Leaves ahead (step >>= next) Q := by
  intro input state value after hs he
  simp only [Bind.bind] at he
  split at he
  · next first middle hm => exact hn first middle.ahead (h _ _ _ _ hs hm) _ _ _ _ rfl he
  · cases he

/-- What comes behind a look may depend on what has been seen. -/
theorem Leaves.looking {f : List Token → α} {next : α → Parse β} {Q : β → List Token → Prop}
    (h : Leaves ahead (next (f ahead)) Q) : Leaves ahead (look f >>= next) Q := by
  rintro input state value after rfl he
  exact h _ _ _ _ rfl he

theorem Leaves.onAhead {f : List Token → Parse α} {P : α → List Token → Prop}
    (h : Leaves ahead (f ahead) P) : Leaves ahead (onAhead f) P := by
  rintro input state value after rfl he
  exact h _ _ _ _ rfl he

theorem leaves_bump : Leaves ahead bump fun _ rest => rest = ahead.drop 1 := by
  rintro input ⟨tokens, builder, errors⟩ value after rfl he
  cases tokens <;> cases he <;> rfl

theorem leaves_bumpMany_two : Leaves ahead (bumpMany 2) fun _ rest => rest = ahead.drop 2 := by
  refine Leaves.bind leaves_bump fun _ rest hr => ?_
  subst hr
  refine Leaves.bind leaves_bump fun _ rest hr => ?_
  subst hr
  refine (leaves_pure ()).mono fun _ rest hr => ?_
  rw [hr.2, List.drop_drop]

/-- A token that is eaten is the next one. -/
theorem leaves_eat (kind : TokenKind) : Leaves ahead (eat kind) fun eaten rest =>
    if kindAt ahead 0 = kind then eaten = true ∧ rest = ahead.drop 1
    else eaten = false ∧ rest = ahead := by
  apply Leaves.looking
  by_cases hk : kindAt ahead 0 = kind
  · simp only [hk, beq_self_eq_true, if_true]
    refine leaves_bump.bind fun _ rest hr => ?_
    subst hr
    exact leaves_pure true
  · simp only [beq_eq_false_iff_ne.2 hk, Bool.false_eq_true, if_false, hk]
    exact leaves_pure false

/-- A token that is expected is the next one. -/
theorem leaves_expect (kind : TokenKind) (what : String) : Leaves ahead (expect kind what)
    fun _ rest => kindAt ahead 0 = kind ∧ rest = ahead.drop 1 := by
  refine (leaves_eat kind).bind fun eaten rest hr => ?_
  split at hr
  · next hk =>
    rw [if_pos hr.1, hr.2]
    exact (leaves_pure ()).mono fun _ _ h => ⟨hk, h.2⟩
  · rw [if_neg (by simp [hr.1])]
    intro input state value after _ he
    cases he

theorem Leaves.inNode {step : Parse Unit} {P : Unit → List Token → Prop} (h : Leaves ahead step P)
    (kind : NodeKind) : Leaves ahead (inNode kind step) P := by
  rintro input state value after rfl he
  have hd : Leaves state.ahead (do step; finishNode) P := by
    refine Leaves.bind h fun _ rest hr => ?_
    rintro _ _ _ _ rfl hf
    cases hf
    exact hr
  exact hd input { state with
    builder := state.builder.start kind (state.ahead.headD input.endToken) } value after rfl he

/-- What holds of the tokens ahead of every round, and then of those behind the last one. -/
theorem Leaves.loop (round : Parse Bool) [hp : Progresses round] (I : List Token → Prop)
    {Q : List Token → Prop}
    (h : ∀ tokens, I tokens → Leaves tokens round fun again rest => if again then I rest else Q rest)
    (ha : I ahead) : Leaves ahead (loop round) fun _ => Q := by
  rintro input state value after rfl he
  induction hn : state.ahead.length using Nat.strongRecOn generalizing state with
  | ind n ih =>
    rw [loop_eq] at he
    simp only [Bind.bind] at he
    split at he
    · next again middle hm =>
      have hround := h state.ahead ha _ _ _ _ rfl hm
      cases again with
      | false =>
        cases he
        exact hround
      | true =>
        subst hn
        exact ih _ (hp.progresses hm) middle hround he rfl
    · cases he

/-- The items of a list and the commas between them. -/
theorem Leaves.commaSeparated {item : Parse Unit} [Keeps Advanced item] (I : List Token → Prop)
    (h : ∀ tokens, I tokens → Leaves tokens item fun _ => I)
    (hc : ∀ tokens, kindAt tokens 0 = .comma → I tokens → I (tokens.drop 1)) (ha : I ahead) :
    Leaves ahead (commaSeparated item) fun _ => I := by
  refine Leaves.loop (do item; eat .comma) I (fun tokens ht => ?_) ha
  refine (h tokens ht).bind fun _ rest hr => ?_
  refine (leaves_eat .comma).mono fun again behind hb => ?_
  split at hb
  · next hk =>
    rw [if_pos hb.1, hb.2]
    exact hc rest hk hr
  · rw [if_neg (by simp [hb.1]), hb.2]
    exact hr

/-! ### Pairs of tokens -/

/-- Where two tokens are seen there are two. -/
theorem exists_pair {first second : TokenKind} (hf : first ≠ .eof) (hs : second ≠ .eof)
    (h : kindAt ahead 0 = first ∧ kindAt ahead 1 = second) :
    ∃ a b rest, ahead = a :: b :: rest ∧ a.kind = first ∧ b.kind = second := by
  match ahead, h with
  | [], h => exact absurd h.1.symm hf
  | [_], h => exact absurd h.2.symm hs
  | a :: b :: rest, h => exact ⟨a, b, rest, rfl, h.1, h.2⟩

/-- What holds ahead of every pair and behind it holds behind the last one. -/
theorem leaves_pairs {first : TokenKind} (second : TokenKind) (hf : first ≠ .eof) (I : List Token → Prop)
    (h : ∀ tokens, kindAt tokens 0 = first → kindAt tokens 1 = second → I tokens →
      I (tokens.drop 2)) (ha : I ahead) :
    Leaves ahead (loop (pairRound first second)) fun _ rest =>
      I rest ∧ ¬ (kindAt rest 0 = first ∧ kindAt rest 1 = second) := by
  have := progresses_pairRound hf second
  refine Leaves.loop _ I (fun tokens ht => ?_) ha
  refine Leaves.looking (Leaves.looking ?_)
  by_cases hk : kindAt tokens 0 = first ∧ kindAt tokens 1 = second
  · rw [if_pos (by simp [hk])]
    refine leaves_bumpMany_two.bind fun _ rest hr => (leaves_pure true).mono fun again behind hb => ?_
    rw [if_pos hb.1, hb.2, hr]
    exact h tokens hk.1 hk.2 ht
  · rw [if_neg (by simpa using hk)]
    refine (leaves_pure false).mono fun again behind hb => ?_
    rw [if_neg (by simp [hb.1]), hb.2]
    exact ⟨ht, hk⟩

theorem skipDotted_of_pair (h : kindAt ahead 0 = .dot ∧ kindAt ahead 1 = .ident) :
    skipDotted ahead = skipDotted (ahead.drop 2) := by
  obtain ⟨dot, name, rest, rfl, hd, hn⟩ := exists_pair (by decide) (by decide) h
  rw [skipDotted, if_pos ⟨hd, hn⟩]
  rfl

theorem skipDotted_of_no_pair (h : ¬ (kindAt ahead 0 = .dot ∧ kindAt ahead 1 = .ident)) :
    skipDotted ahead = ahead := by
  match ahead, h with
  | [], _ => rfl
  | [_], _ => rfl
  | dot :: name :: rest, h => exact if_neg h

theorem skipDimensions_of_pair (h : kindAt ahead 0 = .lBracket ∧ kindAt ahead 1 = .rBracket) :
    skipDimensions ahead = skipDimensions (ahead.drop 2) := by
  obtain ⟨opening, closing, rest, rfl, ho, hc⟩ := exists_pair (by decide) (by decide) h
  rw [skipDimensions, if_pos ⟨ho, hc⟩]
  rfl

theorem skipDimensions_of_no_pair
    (h : ¬ (kindAt ahead 0 = .lBracket ∧ kindAt ahead 1 = .rBracket)) :
    skipDimensions ahead = ahead := by
  match ahead, h with
  | [], _ => rfl
  | [_], _ => rfl
  | opening :: closing :: rest, h => exact if_neg h

/-! ### Within open angle brackets -/

/-- Where angle brackets are open, the scan of type arguments comes from some tokens to others. -/
def PassedOver (ahead rest : List Token) : Prop :=
  ∀ depth, skipTypeArguments (depth + 1) ahead = skipTypeArguments (depth + 1) rest

theorem PassedOver.refl (ahead : List Token) : PassedOver ahead ahead := fun _ => rfl

theorem PassedOver.trans {tokens rest behind : List Token} (h : PassedOver tokens rest)
    (h' : PassedOver rest behind) : PassedOver tokens behind := fun depth => (h depth).trans (h' depth)

/-- The kinds between angle brackets are neither those of the brackets nor that of the end. -/
theorem isTypeArgumentPart_ne {kind : TokenKind} (h : isTypeArgumentPart kind = true) :
    kind ≠ .less ∧ kind ≠ .greater ∧ kind ≠ .eof := by
  refine ⟨?_, ?_, ?_⟩ <;> rintro rfl <;> cases h

theorem passedOver_drop (h : isTypeArgumentPart (kindAt ahead 0) = true) :
    PassedOver ahead (ahead.drop 1) := by
  obtain ⟨hless, hgreater, hend⟩ := isTypeArgumentPart_ne h
  cases ahead with
  | nil => exact absurd rfl hend
  | cons token rest =>
    rw [kindAt_cons] at h hless hgreater
    intro depth
    rw [skipTypeArguments.eq_def]
    simp only [hless, hgreater, h, if_true, if_false, List.drop_one, List.tail_cons]

theorem passedOver_drop_two (h : isTypeArgumentPart (kindAt ahead 0) = true)
    (h' : isTypeArgumentPart (kindAt ahead 1) = true) : PassedOver ahead (ahead.drop 2) := by
  refine (passedOver_drop h).trans ?_
  match ahead, h, h' with
  | [], _, _ => exact PassedOver.refl _
  | [_], _, _ => exact PassedOver.refl _
  | _ :: b :: rest, _, h' =>
    have hrest : PassedOver (b :: rest) rest := passedOver_drop h'
    exact hrest

/-- A bracket that opens counts one more, and one that closes counts one less. -/
theorem skipTypeArguments_less (h : kindAt ahead 0 = .less) (depth : Nat) :
    skipTypeArguments depth ahead = skipTypeArguments (depth + 1) (ahead.drop 1) := by
  cases ahead with
  | nil => cases h
  | cons token rest =>
    rw [skipTypeArguments.eq_def]
    exact if_pos h

theorem skipTypeArguments_greater (h : kindAt ahead 0 = .greater) (depth : Nat) :
    skipTypeArguments (depth + 1) ahead =
      if depth = 0 then some (ahead.drop 1) else skipTypeArguments depth (ahead.drop 1) := by
  cases ahead with
  | nil => cases h
  | cons token rest =>
    rw [kindAt_cons] at h
    rw [skipTypeArguments.eq_def]
    simp only [h, reduceCtorEq, if_true, if_false]
    cases depth <;> rfl

/-! ### Types -/

theorem leaves_dottedRest : Leaves ahead dottedRest fun _ rest =>
    rest = skipDotted ahead ∧ PassedOver ahead rest := by
  refine (leaves_pairs .ident (by decide)
    (fun rest => skipDotted ahead = skipDotted rest ∧ PassedOver ahead rest) ?_
    ⟨rfl, PassedOver.refl ahead⟩).mono ?_
  · intro tokens hd hn ht
    refine ⟨ht.1.trans (skipDotted_of_pair ⟨hd, hn⟩), ht.2.trans (passedOver_drop_two ?_ ?_)⟩
    · rw [hd]
      rfl
    · rw [hn]
      rfl
  · intro _ rest hr
    exact ⟨(hr.1.1.trans (skipDotted_of_no_pair hr.2)).symm, hr.1.2⟩

theorem leaves_dimensions : Leaves ahead dimensions fun _ rest =>
    rest = skipDimensions ahead ∧ PassedOver ahead rest := by
  refine (leaves_pairs .rBracket (by decide)
    (fun rest => skipDimensions ahead = skipDimensions rest ∧ PassedOver ahead rest) ?_
    ⟨rfl, PassedOver.refl ahead⟩).mono ?_
  · intro tokens ho hc ht
    refine ⟨ht.1.trans (skipDimensions_of_pair ⟨ho, hc⟩), ht.2.trans (passedOver_drop_two ?_ ?_)⟩
    · rw [ho]
      rfl
    · rw [hc]
      rfl
  · intro _ rest hr
    exact ⟨(hr.1.1.trans (skipDimensions_of_no_pair hr.2)).symm, hr.1.2⟩

/-- A scan with as many rounds as tokens is its first round and then the scan from there. -/
theorem Scan.skip_of_round (scan : Scan) {fuel : Nat} (h : ahead.length ≤ fuel) :
    scan.skip fuel ahead =
      match scan.round ahead with
      | .answer behind => behind
      | .again behind => scan.skip behind.length behind := by
  rw [scan.skip_eq_over (fun _ => none) h (Nat.lt_succ_self _), Scan.skipOver]
  cases hr : scan.round ahead with
  | answer behind => rfl
  | again behind =>
    exact (scan.skip_eq_over _ (Nat.le_refl _) (scan.length_round hr)).symm

/-- A scan that skips annotations in front of a type by their names and arguments. -/
def Scan.Annotates (scan : Scan) : Prop :=
  ∀ tokens, kindAt tokens 0 = .atSign → kindAt tokens 1 = .ident →
    scan.round tokens = .behind (skipAnnotationUse tokens)

/-- Annotations in front of a type are skipped, unless something in parentheses follows, which would
be taken for arguments. -/
theorem leaves_typeAnnotations {scan : Scan} (hs : scan.Annotates) :
    Leaves ahead typeAnnotations fun _ rest =>
      (kindAt rest 0 ≠ .lParen → scan.skip ahead.length ahead = scan.skip rest.length rest) ∧
        (kindAt ahead 0 = .atSign ∨ rest = ahead) ∧ PassedOver ahead rest := by
  refine Leaves.loop typeAnnotationRound (fun rest =>
    (kindAt rest 0 ≠ .lParen → scan.skip ahead.length ahead = scan.skip rest.length rest) ∧
      (kindAt ahead 0 = .atSign ∨ rest = ahead) ∧ PassedOver ahead rest) ?_
    ⟨fun _ => rfl, .inr rfl, PassedOver.refl ahead⟩
  intro tokens ht
  refine Leaves.looking (Leaves.looking ?_)
  by_cases hk : kindAt tokens 0 = .atSign ∧ kindAt tokens 1 = .ident
  · rw [if_pos (by simp [hk])]
    have huse : Leaves tokens (inNode .annotationUse do bump; qualifiedName) fun _ rest =>
        rest = skipDotted (tokens.drop 2) ∧ PassedOver tokens rest := by
      refine (leaves_bump.bind fun _ rest hr => ?_).inNode _
      refine ((leaves_expect .ident _).bind fun _ behind hb => ?_).inNode _
      refine leaves_dottedRest.mono fun _ last hl => ?_
      rw [hb.2, hr, List.drop_drop] at hl
      refine ⟨hl.1, (passedOver_drop_two ?_ ?_).trans hl.2⟩
      · rw [hk.1]
        rfl
      · rw [hk.2]
        rfl
    refine huse.bind fun _ rest hr => (leaves_pure true).mono fun again behind hb => ?_
    rw [if_pos hb.1, hb.2]
    refine ⟨fun hparen => ?_, .inl ?_, ht.2.2.trans hr.2⟩
    · have hskipped : skipAnnotationUse tokens = some rest := by
        rw [skipAnnotationUse, if_pos hk.2, ← hr.1, skipArguments, if_neg hparen]
      have hfirst : kindAt tokens 0 ≠ .lParen := by
        rw [hk.1]
        decide
      rw [ht.1 hfirst, scan.skip_of_round (Nat.le_refl _), hs tokens hk.1 hk.2, hskipped]
      rfl
    · rcases ht.2.1 with hsign | rfl
      · exact hsign
      · exact hk.1
  · rw [if_neg (by simpa using hk)]
    refine (leaves_pure false).mono fun again behind hb => ?_
    rw [if_neg (by simp [hb.1]), hb.2]
    exact ht

theorem annotates_annotations : Scan.annotations.Annotates := fun _ hsign _ => if_pos hsign

theorem annotates_variableModifiers : Scan.variableModifiers.Annotates := by
  intro tokens hsign hname
  rw [Scan.round, if_neg (by rw [hsign]; decide), if_pos ⟨hsign, by rw [hname]; decide⟩]

section

variable {nested : Parse Unit}

theorem leaves_typeArgument (h : ∀ tokens, Leaves tokens nested fun _ => PassedOver tokens) :
    Leaves ahead (typeArgumentWith nested) fun _ => PassedOver ahead := by
  refine Leaves.looking ?_
  by_cases hk : kindAt ahead 0 = .question
  · rw [if_pos (by simp [hk])]
    have hmark : PassedOver ahead (ahead.drop 1) := passedOver_drop (by rw [hk]; rfl)
    refine (leaves_bump.bind fun _ rest hr => ?_).inNode _
    subst hr
    refine Leaves.looking (Leaves.looking ?_)
    split
    · next hb =>
      have hbound : isTypeArgumentPart (kindAt (ahead.drop 1) 0) = true := by
        rcases Bool.or_eq_true_iff.1 hb with hb | hb <;> rw [beq_iff_eq.1 hb] <;> rfl
      refine leaves_bump.bind fun _ rest hr => ?_
      subst hr
      exact (h _).mono fun _ _ hn => hmark.trans ((passedOver_drop hbound).trans hn)
    · exact (leaves_pure ()).mono fun _ rest hr => hr.2 ▸ hmark
  · rw [if_neg (by simpa using hk)]
    exact h ahead

/-- Type arguments are skipped as a whole, and passed over within others. -/
theorem leaves_typeArguments [Keeps Advanced nested]
    (h : ∀ tokens, Leaves tokens nested fun _ => PassedOver tokens) :
    Leaves ahead (typeArgumentsWith nested) fun _ rest =>
      skipTypeArguments 0 ahead = some rest ∧ PassedOver ahead rest := by
  refine Leaves.inNode (Leaves.bind (leaves_expect .less _) fun _ opened ho => ?_) _
  have hclose (inner : List Token) (hi : PassedOver opened inner) :
      Leaves inner (expect .greater "`>`") fun _ rest =>
        skipTypeArguments 0 ahead = some rest ∧ PassedOver ahead rest := by
    have hopened (depth : Nat) :
        skipTypeArguments depth ahead = skipTypeArguments (depth + 1) inner := by
      rw [skipTypeArguments_less ho.1, ← ho.2, hi depth]
    refine (leaves_expect .greater _).mono fun _ rest hr => ⟨?_, fun depth => ?_⟩
    · rw [hopened, skipTypeArguments_greater hr.1, if_pos rfl, hr.2]
    · rw [hopened, skipTypeArguments_greater hr.1, if_neg (Nat.succ_ne_zero depth), hr.2]
  refine Leaves.looking ?_
  split
  · exact hclose opened (PassedOver.refl opened)
  · refine Leaves.bind (Leaves.commaSeparated (PassedOver opened) (fun tokens ht => ?_) ?_
      (PassedOver.refl opened)) fun _ => hclose
    · exact (leaves_typeArgument h).mono fun _ _ ha => ht.trans ha
    · intro tokens hc ht
      exact ht.trans (passedOver_drop (by rw [hc]; rfl))

/-- One segment of the name of a class type, and whether another one follows. -/
theorem leaves_segmentRound [Keeps Advanced nested]
    (h : ∀ tokens, Leaves tokens nested fun _ => PassedOver tokens) :
    Leaves ahead (segmentRound nested) fun again rest =>
      Scan.classType.round ahead = (if again then .again rest else .answer (some rest)) ∧
        PassedOver ahead rest := by
  refine Leaves.bind (leaves_expect .ident _) fun _ named hn => ?_
  have hname : PassedOver ahead named := hn.2 ▸ passedOver_drop (by rw [hn.1]; rfl)
  have hend (behind : List Token) (hb : skipTypeArgumentsOpt named = some behind)
      (hp : PassedOver named behind) : Leaves behind segmentEnd fun again rest =>
        Scan.classType.round ahead = (if again then .again rest else .answer (some rest)) ∧
          PassedOver ahead rest := by
    have hround : Scan.classType.round ahead =
        if kindAt behind 0 = .dot ∧ kindAt behind 1 = .ident then .again (behind.drop 1)
        else .answer (some behind) := by
      rw [Scan.round, if_pos hn.1, ← hn.2, hb]
    refine Leaves.looking (Leaves.looking ?_)
    by_cases hk : kindAt behind 0 = .dot ∧ kindAt behind 1 = .ident
    · rw [if_pos (by simp [hk])]
      refine leaves_bump.bind fun _ rest hr => (leaves_pure true).mono fun again last hl => ?_
      rw [hround, if_pos hk, if_pos hl.1, hl.2, hr]
      exact ⟨rfl, hname.trans (hp.trans (passedOver_drop (by rw [hk.1]; rfl)))⟩
    · rw [if_neg (by simpa using hk)]
      refine (leaves_pure false).mono fun again last hl => ?_
      rw [hround, if_neg hk, if_neg (by simp [hl.1]), hl.2]
      exact ⟨rfl, hname.trans hp⟩
  refine Leaves.looking ?_
  by_cases hk : kindAt named 0 = .less
  · rw [if_pos (by simp [hk])]
    refine (leaves_typeArguments h).bind fun _ behind hb => hend behind ?_ hb.2
    rw [skipTypeArgumentsOpt, if_pos hk, hb.1]
  · rw [if_neg (by simpa using hk)]
    exact hend named (if_neg hk) (PassedOver.refl named)

/-- The name of a class type is skipped segment by segment. -/
theorem leaves_classType [Keeps Advanced nested]
    (h : ∀ tokens, Leaves tokens nested fun _ => PassedOver tokens) :
    Leaves ahead (classTypeWith nested) fun _ rest =>
      skipClassType (ahead.length + 1) ahead = some rest ∧ PassedOver ahead rest := by
  refine Leaves.loop (segmentRound nested) (fun rest =>
    skipClassType (ahead.length + 1) ahead = Scan.classType.skip rest.length rest ∧
      PassedOver ahead rest) (fun tokens ht => ?_) ⟨?_, PassedOver.refl ahead⟩
  · refine (leaves_segmentRound h).mono fun again rest hr => ?_
    rw [ht.1, Scan.skip_of_round _ (Nat.le_refl _), hr.1]
    cases again <;> exact ⟨rfl, ht.2.trans hr.2⟩
  · refine (Scan.classType.skip_of_round (Nat.le_succ _)).trans ?_
    exact (Scan.classType.skip_of_round (Nat.le_refl _)).symm

/-- What a type begins with behind its annotations. -/
def BeginsElement (kind : TokenKind) : Prop := kind.isPrimitiveType ∨ kind = .ident

/-- What a local variable begins with, modifiers and annotations included. -/
def BeginsVariable (kind : TokenKind) : Prop := BeginsElement kind ∨ kind ∈ [.atSign, .kwFinal]

instance (kind : TokenKind) : Decidable (BeginsElement kind) := by
  unfold BeginsElement; infer_instance

instance (kind : TokenKind) : Decidable (BeginsVariable kind) := by
  unfold BeginsVariable; infer_instance

theorem BeginsElement.ne {kind other : TokenKind} (h : BeginsElement kind)
    (ho : ¬ BeginsElement other) : kind ≠ other := fun he => ho (he ▸ h)

theorem BeginsVariable.ne {kind other : TokenKind} (h : BeginsVariable kind)
    (ho : ¬ BeginsVariable other) : kind ≠ other := fun he => ho (he ▸ h)

/-- What a type begins with behind its annotations, and where it is skipped to from there. -/
theorem leaves_elementType [Keeps Advanced nested]
    (h : ∀ tokens, Leaves tokens nested fun _ => PassedOver tokens) :
    Leaves ahead (elementTypeWith nested) fun _ rest =>
      BeginsElement (kindAt ahead 0) ∧ skipElementType ahead = some rest ∧
        PassedOver ahead rest := by
  have hunannotated (hk : BeginsElement (kindAt ahead 0)) :
      skipAnnotations ahead.length ahead = some ahead := by
    refine (Scan.annotations.skip_of_round (Nat.le_refl _)).trans ?_
    rw [Scan.round, if_neg (hk.ne (by decide))]
  refine Leaves.looking ?_
  by_cases hk : (kindAt ahead 0).isPrimitiveType = true
  · rw [if_pos hk]
    refine leaves_bump.mono fun _ rest hr => ⟨.inl hk, ?_, ?_⟩
    · rw [skipElementType, hunannotated (.inl hk), Option.bind_eq_bind, Option.bind_some,
        if_pos hk, hr]
    · rw [hr]
      refine passedOver_drop ?_
      unfold isTypeArgumentPart
      split <;> trivial
  · rw [if_neg hk]
    refine (leaves_classType h).mono fun _ rest hr => ?_
    have hident : kindAt ahead 0 = .ident := by
      refine Decidable.by_contra fun hne => ?_
      have hskip := hr.1
      rw [skipClassType, if_neg hne] at hskip
      cases hskip
    refine ⟨.inr hident, ?_, hr.2⟩
    rw [skipElementType, hunannotated (.inr hident), Option.bind_eq_bind, Option.bind_some,
      if_neg hk, hr.1]

/-- A type is skipped to where it ends, also behind modifiers of a local variable. -/
structure SkippedTo (ahead rest : List Token) : Prop where
  type : skipType ahead = some rest
  variableType : (skipVariableModifiers ahead.length ahead).bind skipType = some rest
  passedOver : PassedOver ahead rest
  begins : BeginsVariable (kindAt ahead 0)

theorem leaves_typeRefWith [Keeps Advanced nested]
    (h : ∀ tokens, Leaves tokens nested fun _ => PassedOver tokens) :
    Leaves ahead (typeRefWith nested) fun _ => SkippedTo ahead := by
  refine Leaves.inNode (((leaves_typeAnnotations annotates_annotations).and
    (leaves_typeAnnotations annotates_variableModifiers)).bind fun _ named hn => ?_) _
  refine (leaves_elementType h).bind fun _ element he => leaves_dimensions.mono fun _ rest hr => ?_
  obtain ⟨⟨hannotations, hbegins, hpassed⟩, hmodifiers, -, -⟩ := hn
  obtain ⟨hkind, helement, hinner⟩ := he
  have hparen : kindAt named 0 ≠ .lParen := hkind.ne (by decide)
  have hskipped : skipType named = some rest := by
    rw [skipType, helement, Option.map_some, hr.1]
  refine ⟨?_, ?_, hpassed.trans (hinner.trans hr.2), ?_⟩
  · have hsame : skipElementType ahead = skipElementType named :=
      congrArg (Option.bind · _) (hannotations hparen)
    rw [skipType, hsame]
    exact hskipped
  · have hbare : Scan.variableModifiers.skip named.length named = some named := by
      rw [Scan.skip_of_round _ (Nat.le_refl _), Scan.round, if_neg (hkind.ne (by decide)),
        if_neg fun hsign => hkind.ne (by decide) hsign.1]
    have hto : skipVariableModifiers ahead.length ahead = some named :=
      (hmodifiers hparen).trans hbare
    rw [hto, Option.bind_some, hskipped]
  · rcases hbegins with hsign | rfl
    · rw [hsign]
      decide
    · exact .inl hkind

end

theorem passedOver_typeRefAtMost (depth : Nat) (tokens : List Token) :
    Leaves tokens (typeRefAtMost depth) fun _ => PassedOver tokens := by
  induction depth generalizing tokens with
  | zero =>
    intro input state value after _ he
    cases he
  | succ depth ih => exact (leaves_typeRefWith ih).mono fun _ _ hr => hr.passedOver

/-- A type that is accepted is skipped to where it ends. -/
theorem leaves_typeRef : Leaves ahead typeRef fun _ => SkippedTo ahead := by
  rw [typeRef_eq]
  exact leaves_typeRefWith fun tokens => Leaves.onAhead (passedOver_typeRefAtMost _ tokens)

/-! ### Local variables -/

/-- The modifiers of a local variable. -/
inductive VariableModifiers : List Token → Prop where
  | nil : VariableModifiers []
  | final {word : Token} {rest : List Token} (hw : word.kind = .kwFinal)
      (h : VariableModifiers rest) : VariableModifiers (word :: rest)
  | use {sign name : Token} {dotted arguments rest : List Token} (hs : sign.kind = .atSign)
      (hn : name.kind = .ident) (hd : Pairs .dot .ident dotted)
      (ha : AnnotationArguments arguments) (h : VariableModifiers rest) :
      VariableModifiers (sign :: name :: (dotted ++ arguments) ++ rest)

theorem VariableModifiers.begins {tokens rest : List Token} (h : VariableModifiers tokens)
    (hr : BeginsVariable (kindAt rest 0)) : BeginsVariable (kindAt (tokens ++ rest) 0) := by
  cases h with
  | nil => exact hr
  | final hw =>
    rw [List.cons_append, kindAt_cons, hw]
    decide
  | use hs =>
    rw [List.cons_append, List.cons_append, kindAt_cons, hs]
    decide

theorem Pairs.skipDotted_append {tokens rest : List Token} (h : Pairs .dot .ident tokens)
    (hr : kindAt rest 0 ≠ .dot) : skipDotted (tokens ++ rest) = rest := by
  induction h with
  | nil => exact skipDotted_of_no_pair fun hk => hr hk.1
  | @cons dot name rest ha hb h ih => exact (if_pos ⟨ha, hb⟩).trans ih

/-- The scan of modifiers comes to what stands behind them. -/
theorem VariableModifiers.skip_append {tokens rest : List Token} (h : VariableModifiers tokens)
    (hr : BeginsVariable (kindAt rest 0)) :
    skipVariableModifiers (tokens ++ rest).length (tokens ++ rest) =
      skipVariableModifiers rest.length rest := by
  change Scan.variableModifiers.skip _ _ = Scan.variableModifiers.skip _ _
  induction h with
  | nil => rfl
  | @final word more hw h ih =>
    rw [Scan.skip_of_round _ (Nat.le_refl _), Scan.round, if_pos (by exact hw)]
    exact ih
  | @use sign name dotted arguments more hs hn hd ha h ih =>
    have hbegins := h.begins hr
    have hround := annotates_variableModifiers
      (sign :: name :: (dotted ++ arguments) ++ more ++ rest) hs hn
    have hskipped : skipAnnotationUse (sign :: name :: (dotted ++ arguments) ++ more ++ rest) =
        some (more ++ rest) := by
      rw [skipAnnotationUse, if_pos (by exact hn)]
      simp only [List.cons_append, List.append_assoc, List.drop_succ_cons, List.drop_zero]
      rw [hd.skipDotted_append (ha.kindAt_ne_dot (hbegins.ne (by decide))),
        ha.skipArguments_append (hbegins.ne (by decide))]
    rw [Scan.skip_of_round _ (Nat.le_refl _), hround, hskipped]
    exact ih

/-- Looking ahead skips a type to the token that parsing it comes to. So a local variable is
recognised behind any modifiers, wherever its type is accepted and its name and what goes on with a
declaration follow. -/
theorem lookahead_agrees {input : Input} {state after : State}
    (h : typeRef input state = (some (), after)) :
    (∃ count ≤ state.ahead.length, after.ahead = state.ahead.drop count ∧
      skipType state.ahead = some (state.ahead.drop count)) ∧
    ∀ modifiers name sign rest, VariableModifiers modifiers → after.ahead = name :: sign :: rest →
      name.kind = .ident → sign.kind ∈ [.assign, .semicolon, .comma, .lBracket, .colon] →
        atLocalVariable (modifiers ++ state.ahead) = true := by
  have hskipped := leaves_typeRef input state () after rfl h
  have hk : Keeps Advanced typeRef := inferInstance
  obtain ⟨passed, hpassed⟩ := (hk.keeps input state).suffix
  rw [h] at hpassed
  refine ⟨⟨passed.length, ?_, ?_, ?_⟩, ?_⟩
  · rw [← hpassed, List.length_append]
    omega
  · rw [← hpassed, List.drop_left]
  · rw [hskipped.type, ← hpassed, List.drop_left]
  · intro modifiers name sign rest hm ha hname hsign
    have hbehind : (skipVariableModifiers (modifiers ++ state.ahead).length
        (modifiers ++ state.ahead)).bind skipType = some (name :: sign :: rest) := by
      rw [hm.skip_append hskipped.begins, hskipped.variableType, ha]
    rw [atLocalVariable, hbehind]
    simp only [kindAt, List.getElem?_cons_zero, List.getElem?_cons_succ, hname]
    revert hsign
    cases sign.kind <;> decide

/-- Some token of a kind. -/
def ofKind (kind : TokenKind) : Token := ⟨kind, "", 0, 0, 1, 0, 0⟩

/-- `@N p.Map<? extends K, List<int[]>[]>.Entry[] x =` is declared behind `final @a.B((x), y)`. -/
theorem lookahead_agrees_nested :
    let modifiers : List Token := [.kwFinal, .atSign, .ident, .dot, .ident, .lParen, .lParen, .ident,
      .rParen, .comma, .ident, .rParen].map ofKind
    let type : List Token := [.atSign, .ident, .ident, .dot, .ident, .less, .question, .kwExtends,
      .ident, .comma, .ident, .less, .kwInt, .lBracket, .rBracket, .greater, .lBracket, .rBracket,
      .greater, .dot, .ident, .lBracket, .rBracket].map ofKind
    let rest : List Token := [.ident, .assign].map ofKind
    let run := typeRef ⟨"", ofKind .eof⟩ ⟨type ++ rest, .new .compilationUnit (ofKind .eof), []⟩
    run.1 = some () ∧ run.2.ahead = rest ∧ VariableModifiers modifiers ∧
      skipType (type ++ rest) = some rest ∧ atLocalVariable (modifiers ++ (type ++ rest)) = true := by
  intro modifiers type rest run
  have htype : run.1 = some () := by decide +kernel
  have hrest : run.2.ahead = rest := by decide +kernel
  have hmodifiers : VariableModifiers modifiers := by
    have hnames : Pairs .dot .ident ([.dot, .ident].map ofKind) := .cons rfl rfl .nil
    have hname : NestsParens [ofKind .ident] := .other (by decide) (by decide) .nil
    have hinner : NestsParens (ofKind .lParen :: [ofKind .ident] ++
        ofKind .rParen :: [ofKind .comma, ofKind .ident]) :=
      .nested rfl hname rfl (.other (by decide) (by decide) hname)
    have harguments : AnnotationArguments (ofKind .lParen ::
        [.lParen, .ident, .rParen, .comma, .ident].map ofKind ++ [ofKind .rParen]) :=
      .given rfl hinner rfl
    have huse : VariableModifiers (ofKind .atSign :: ofKind .ident :: ([.dot, .ident].map ofKind ++
        [.lParen, .lParen, .ident, .rParen, .comma, .ident, .rParen].map ofKind) ++ []) :=
      .use rfl rfl hnames harguments .nil
    exact .final rfl huse
  have hrun : typeRef ⟨"", ofKind .eof⟩ ⟨type ++ rest, .new .compilationUnit (ofKind .eof), []⟩ =
      run := rfl
  clear_value run
  obtain ⟨value, after⟩ := run
  obtain rfl : value = some () := htype
  obtain ⟨⟨count, -, hcount, hskip⟩, hat⟩ := lookahead_agrees hrun
  refine ⟨rfl, hrest, hmodifiers, ?_,
    hat modifiers (ofKind .ident) (ofKind .assign) [] hmodifiers hrest rfl (by decide)⟩
  rw [← hcount, show after.ahead = rest from hrest] at hskip
  exact hskip

end JavaGraph.Parser
