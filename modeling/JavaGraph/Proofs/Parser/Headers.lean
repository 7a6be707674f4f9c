import JavaGraph.Graph.Node
import JavaGraph.Proofs.Parser.Reading
/-!
# The headers of type declarations

The header of a type declaration goes from its modifiers to the brace that opens its body. Whatever
stands behind that brace, the header is read as what it is.
-/

namespace JavaGraph

namespace Parser

open Parse

set_option synthInstance.maxSize 8192

/-! ### Modifiers -/

/-- Parentheses are properly nested. -/
inductive NestsParens : List Token → Prop where
  | nil : NestsParens []
  | other {token : Token} {rest : List Token} (ho : token.kind ≠ .lParen)
      (hc : token.kind ≠ .rParen) (h : NestsParens rest) : NestsParens (token :: rest)
  | nested {opening closing : Token} {inner rest : List Token} (ho : opening.kind = .lParen)
      (hi : NestsParens inner) (hc : closing.kind = .rParen) (h : NestsParens rest) :
      NestsParens (opening :: inner ++ closing :: rest)

/-- The arguments of an annotation, which may be none. -/
inductive AnnotationArguments : List Token → Prop where
  | absent : AnnotationArguments []
  | given {opening closing : Token} {inner : List Token} (ho : opening.kind = .lParen)
      (hi : NestsParens inner) (hc : closing.kind = .rParen) :
      AnnotationArguments (opening :: inner ++ [closing])

/-- The modifiers and annotations of a declaration. -/
inductive WrittenModifiers : List Token → Prop where
  | nil : WrittenModifiers []
  | word {word : Token} {rest : List Token} (hw : word.kind.isModifier) (h : WrittenModifiers rest) :
      WrittenModifiers (word :: rest)
  | use {sign name : Token} {dotted arguments rest : List Token} (hs : sign.kind = .atSign)
      (hn : name.kind = .ident) (hd : Pairs .dot .ident dotted)
      (ha : AnnotationArguments arguments) (h : WrittenModifiers rest) :
      WrittenModifiers (sign :: name :: (dotted ++ arguments) ++ rest)

/-- What modifiers and what follows them may begin with. -/
def BeginsModified (kind : TokenKind) : Prop :=
  kind.isModifier ∨ kind ∈ [.atSign, .kwClass, .kwInterface, .kwEnum]

instance (kind : TokenKind) : Decidable (BeginsModified kind) := by
  unfold BeginsModified; infer_instance

theorem BeginsModified.ne {kind other : TokenKind} (h : BeginsModified kind)
    (ho : ¬ BeginsModified other) : kind ≠ other := fun he => ho (he ▸ h)

/-- What may stand behind a modifier where it cannot be taken for more of it, nor the modifier for a
label. -/
def EndsModifier (kind : TokenKind) : Prop := kind ∉ [.dot, .lParen, .colon, .arrow]

instance (kind : TokenKind) : Decidable (EndsModifier kind) := by unfold EndsModifier; infer_instance

theorem EndsModifier.ne {kind other : TokenKind} (h : EndsModifier kind)
    (ho : ¬ EndsModifier other) : kind ≠ other := fun he => ho (he ▸ h)

theorem BeginsModified.ends {kind : TokenKind} (h : BeginsModified kind) : EndsModifier kind := by
  have hothers : ∀ other ∈ [.dot, .lParen, .colon, .arrow], ¬ BeginsModified other := by decide
  exact fun hm => hothers kind hm h

/-- The words that begin a type declaration behind its modifiers. -/
theorem atTypeKeyword_cases {ahead : List Token} (h : atTypeKeyword ahead = true) :
    kindAt ahead 0 ∈ [.kwClass, .kwInterface, .kwEnum] ∨
      kindAt ahead 0 = .atSign ∧ kindAt ahead 1 = .kwInterface := by
  unfold atTypeKeyword at h
  split at h
  · next hk => simp [hk]
  · next hk => simp [hk]
  · next hk => simp [hk]
  · next hk => exact .inr ⟨hk, beq_iff_eq.1 h⟩
  · cases h

theorem beginsModified_of_atTypeKeyword {ahead : List Token} (h : atTypeKeyword ahead = true) :
    BeginsModified (kindAt ahead 0) := by
  right
  rcases atTypeKeyword_cases h with hk | ⟨hk, -⟩
  · exact List.mem_cons_of_mem _ hk
  · rw [hk]
    decide

section

variable {tokens rest : List Token}

theorem WrittenModifiers.begins (h : WrittenModifiers tokens) (hr : BeginsModified (kindAt rest 0)) :
    BeginsModified (kindAt (tokens ++ rest) 0) := by
  cases h with
  | nil => exact hr
  | word hw => exact .inl hw
  | use hs =>
    refine .inr ?_
    rw [List.cons_append, List.cons_append, kindAt_cons, hs]
    decide

theorem WrittenModifiers.ends (h : WrittenModifiers tokens) (hr : EndsModifier (kindAt rest 0)) :
    EndsModifier (kindAt (tokens ++ rest) 0) := by
  cases h with
  | nil => exact hr
  | word hw => exact BeginsModified.ends (.inl hw)
  | use hs =>
    rw [List.cons_append, List.cons_append, kindAt_cons, hs]
    decide

/-- A parenthesis that opens leaves one more open. -/
theorem afterMatching_opening {token : Token} (h : token.kind = .lParen) (depth : Nat)
    (rest : List Token) : afterMatching .lParen .rParen depth (token :: rest) =
      afterMatching .lParen .rParen (depth + 1) rest := by
  simp [afterMatching, h]

/-- A parenthesis that closes leaves one less open. -/
theorem afterMatching_closing {token : Token} (h : token.kind = .rParen) (depth : Nat)
    (rest : List Token) : afterMatching .lParen .rParen (depth + 1) (token :: rest) =
      if depth = 0 then some rest else afterMatching .lParen .rParen depth rest := by
  cases depth <;> simp [afterMatching, h]

/-- Parentheses within parentheses are passed over. -/
theorem NestsParens.afterMatching_append (h : NestsParens tokens) (depth : Nat)
    (rest : List Token) : afterMatching .lParen .rParen (depth + 1) (tokens ++ rest) =
      afterMatching .lParen .rParen (depth + 1) rest := by
  induction h generalizing depth rest with
  | nil => rfl
  | other ho hc h ih =>
    rw [← ih depth rest]
    simp [afterMatching, ho, hc]
  | @nested opening closing inner more ho hi hc h ihi ih =>
    rw [List.append_assoc, List.cons_append, List.cons_append, afterMatching_opening ho, ihi,
      afterMatching_closing hc, if_neg (Nat.succ_ne_zero depth)]
    exact ih depth rest

theorem afterParens_append {opening closing : Token} {inner : List Token}
    (ho : opening.kind = .lParen) (hi : NestsParens inner) (hc : closing.kind = .rParen)
    (rest : List Token) : afterParens (opening :: inner ++ [closing] ++ rest) = some rest := by
  rw [List.append_assoc, List.cons_append, List.singleton_append, afterParens,
    afterMatching_opening ho, hi.afterMatching_append, afterMatching_closing hc, if_pos rfl]

theorem reads_bumpMany (tokens : List Token) : ReadsFreely (bumpMany tokens.length) () tokens := by
  induction tokens with
  | nil => exact reads_pure ()
  | cons token tokens ih => exact (reads_bump token).then ih

/-- The arguments of an annotation, or nothing. -/
def annotationArgumentsOpt : Parse Unit := do
  if ← isAt .lParen then annotationArguments

theorem AnnotationArguments.reads (h : AnnotationArguments tokens) :
    Reads annotationArgumentsOpt () tokens EndsModifier := by
  cases h with
  | absent => exact Reads.not_at (fun _ hr => hr.ne (by decide)) (reads_pure ())
  | @given opening closing inner ho hi hc =>
    have hread : ReadsFreely annotationArguments () (opening :: inner ++ [closing]) := by
      intro rest _ input builder errors
      have hnode := (reads_bumpMany (opening :: inner ++ [closing])).node .annotationArgs rest trivial
      have hcount : (opening :: inner ++ [closing] ++ rest).length - rest.length =
          (opening :: inner ++ [closing]).length := by
        rw [List.length_append, Nat.add_sub_cancel]
      simp only [annotationArguments, onAhead, afterParens_append ho hi hc, hcount]
      exact hnode input builder errors
    exact Reads.at_kind (fun _ => ho) hread.reads

theorem AnnotationArguments.kindAt_ne_dot (h : AnnotationArguments tokens)
    (hr : kindAt rest 0 ≠ .dot) : kindAt (tokens ++ rest) 0 ≠ .dot := by
  cases h with
  | absent => exact hr
  | given ho =>
    rw [List.append_assoc, List.cons_append, kindAt_cons, ho]
    decide

theorem reads_annotationUse (sign name : Token) {dotted arguments : List Token}
    (hd : Pairs .dot .ident dotted) (ha : AnnotationArguments arguments) :
    Reads annotationUse () (sign :: name :: (dotted ++ arguments)) EndsModifier := by
  apply Reads.node
  refine (reads_bump sign).then ?_
  have hname : Reads (inNode .qualifiedName do bump; dottedRest) () (name :: dotted) (· ≠ .dot) :=
    ((reads_bump name).then (reads_dottedRest hd)).node _
  exact hname.bind ha.reads fun _ hr => ha.kindAt_ne_dot (hr.ne (by decide))

/-- One modifier, if there is one. -/
def modifierRound : Parse Bool := do
  let ahead ← look id
  let isLabel := kindAt ahead 1 == .colon || kindAt ahead 1 == .arrow
  if kindAt ahead 0 == .kwDefault && isLabel then return false
  else if (kindAt ahead 0).isModifier then
    bump
    return true
  else if kindAt ahead 0 == .atSign && kindAt ahead 1 == .ident then
    annotationUse
    return true
  else return false

theorem modifiers_eq : modifiers = inNode .modifiers (loop modifierRound) := rfl

theorem ne_nil_of_kindAt {ahead : List Token} (h : kindAt ahead 0 ≠ .eof) : ahead ≠ [] := by
  rintro rfl
  exact h rfl

instance : Progresses modifierRound := by
  apply Progresses.look
  intro ahead
  dsimp only [id]
  split
  · exact progressesFrom
  split
  · next hmodifier =>
    have hs : kindAt ahead 0 ≠ .eof := by
      intro he
      rw [he] at hmodifier
      cases hmodifier
    exact .of_passes (ne_nil_of_kindAt hs) passes_bump.bind
  split
  · next hsign =>
    rw [Bool.and_eq_true, beq_iff_eq] at hsign
    have hs : kindAt ahead 0 ≠ .eof := by
      rw [hsign.1]
      decide
    have huse : Passes annotationUse := passes_bump.bind.inNode _
    exact .of_passes (ne_nil_of_kindAt hs) huse.bind
  · exact progressesFrom

theorem reads_modifierRound_word {word : Token} (hw : word.kind.isModifier) :
    Reads modifierRound true [word] EndsModifier := by
  intro rest hr
  apply ReadsBefore.looking
  have hcolon : (kindAt ([word] ++ rest) 1 == .colon) = false :=
    beq_eq_false_iff_ne.2 (hr.ne (by decide))
  have harrow : (kindAt ([word] ++ rest) 1 == .arrow) = false :=
    beq_eq_false_iff_ne.2 (hr.ne (by decide))
  have hword : (kindAt ([word] ++ rest) 0).isModifier := hw
  simp only [id, hcolon, harrow, hword, Bool.or_self, Bool.and_false, if_true, Bool.false_eq_true,
    if_false]
  exact (reads_bump word rest trivial).returning true

theorem reads_modifierRound_use {sign name : Token} {dotted arguments : List Token}
    (hs : sign.kind = .atSign) (hn : name.kind = .ident) (hd : Pairs .dot .ident dotted)
    (ha : AnnotationArguments arguments) :
    Reads modifierRound true (sign :: name :: (dotted ++ arguments)) EndsModifier := by
  intro rest hr
  apply ReadsBefore.looking
  have hsign : kindAt (sign :: name :: (dotted ++ arguments) ++ rest) 0 = .atSign := hs
  have hname : kindAt (sign :: name :: (dotted ++ arguments) ++ rest) 1 = .ident := hn
  simp only [id, hsign, hname]
  exact (reads_annotationUse sign name hd ha rest hr).returning true

/-- Where no modifier and no annotation stands there are no more modifiers. -/
theorem readsBefore_modifierRound_stop (hm : (kindAt rest 0).isModifier = false)
    (hs : ¬ (kindAt rest 0 = .atSign ∧ kindAt rest 1 = .ident)) :
    ReadsBefore modifierRound false [] rest := by
  apply ReadsBefore.looking
  have hdefault : (kindAt rest 0 == .kwDefault) = false := by
    refine beq_eq_false_iff_ne.2 fun hk => ?_
    rw [hk] at hm
    cases hm
  have hsign : (kindAt rest 0 == .atSign && kindAt rest 1 == .ident) = false := by
    simpa using hs
  simp only [id, List.nil_append, hdefault, hm, hsign, Bool.false_and, Bool.false_eq_true, if_false]
  exact readsBefore_pure false

/-- Before a keyword that begins a type declaration there are no more modifiers. -/
theorem readsBefore_modifierRound_nil (hr : atTypeKeyword rest = true) :
    ReadsBefore modifierRound false [] rest := by
  rcases atTypeKeyword_cases hr with hk | ⟨hk, hnext⟩
  · simp only [List.mem_cons, List.not_mem_nil, or_false] at hk
    rcases hk with hk | hk | hk <;> exact readsBefore_modifierRound_stop (by rw [hk]; rfl) (by simp [hk])
  · exact readsBefore_modifierRound_stop (by rw [hk]; rfl) (by simp [hnext])

/-- Modifiers are read up to where there are no more. -/
theorem WrittenModifiers.readsBefore (h : WrittenModifiers tokens)
    (hr : EndsModifier (kindAt rest 0)) (hstop : ReadsBefore modifierRound false [] rest) :
    ReadsBefore (loop modifierRound) () tokens rest := by
  induction h with
  | nil => exact hstop.done
  | word hw h ih => exact (reads_modifierRound_word hw _ (h.ends hr)).again ih
  | use hs hn hd ha h ih => exact (reads_modifierRound_use hs hn hd ha _ (h.ends hr)).again ih

theorem WrittenModifiers.reads (h : WrittenModifiers tokens) (hr : atTypeKeyword rest = true) :
    ReadsBefore (loop modifierRound) () tokens rest :=
  h.readsBefore (beginsModified_of_atTypeKeyword hr).ends (readsBefore_modifierRound_nil hr)

theorem Pairs.skipDotPairs_append (h : Pairs .dot .ident tokens) (hr : kindAt rest 0 ≠ .dot) :
    skipDotPairs (tokens ++ rest) = rest := by
  induction h with
  | nil =>
    rcases rest with - | ⟨token, - | ⟨next, rest⟩⟩
    · rfl
    · exact if_neg hr
    · exact if_neg hr
  | cons ha hb h ih => rw [List.cons_append, List.cons_append, skipDotPairs, if_pos ha, ih]

theorem AnnotationArguments.skipArguments_append (h : AnnotationArguments tokens)
    (hr : kindAt rest 0 ≠ .lParen) : skipArguments (tokens ++ rest) = some rest := by
  cases h with
  | absent => exact if_neg hr
  | given ho hi hc =>
    unfold skipArguments
    rw [if_pos (by exact ho), afterParens_append ho hi hc]

/-- A package is not declared where modifiers and a type are. -/
theorem WrittenModifiers.atPackageDeclaration_eq_false (h : WrittenModifiers tokens)
    (hr : atTypeKeyword rest = true) : atPackageDeclaration (tokens ++ rest) = false := by
  have hbegins := beginsModified_of_atTypeKeyword hr
  have hskip : ∀ fuel, ∃ behind, skipPackageAnnotations fuel (tokens ++ rest) = some behind ∧
      BeginsModified (kindAt behind 0) := by
    intro fuel
    induction fuel generalizing tokens with
    | zero => exact ⟨_, rfl, h.begins hbegins⟩
    | succ fuel ih =>
      cases h with
      | nil =>
        refine ⟨rest, if_neg ?_, hbegins⟩
        rintro ⟨hsign, hnext⟩
        rcases atTypeKeyword_cases hr with hk | ⟨-, hk⟩
        · rw [List.nil_append] at hsign
          rw [hsign] at hk
          revert hk
          decide
        · exact hnext hk
      | word hw h =>
        refine ⟨_, if_neg ?_, (WrittenModifiers.word hw h).begins hbegins⟩
        rintro ⟨hsign, -⟩
        rw [List.cons_append, kindAt_cons] at hsign
        rw [hsign] at hw
        cases hw
      | @use sign name dotted arguments more hs hn hd ha h =>
        have hmore := h.begins hbegins
        have hskipped : skipLooseAnnotationUse (sign :: name :: (dotted ++ arguments) ++ more ++ rest) =
            some (more ++ rest) := by
          have hpairs := hd.skipDotPairs_append (ha.kindAt_ne_dot (hmore.ne (by decide)))
          unfold skipLooseAnnotationUse
          simp only [List.cons_append, List.append_assoc, List.drop_succ_cons, List.drop_zero]
          rw [hpairs, ha.skipArguments_append (hmore.ne (by decide))]
        have hname : kindAt (sign :: name :: (dotted ++ arguments) ++ more ++ rest) 1 ≠
            .kwInterface := by
          intro hk
          cases hn.symm.trans hk
        obtain ⟨behind, hb, hk⟩ := ih h
        refine ⟨behind, ?_, hk⟩
        rw [skipPackageAnnotations, if_pos ⟨hs, hname⟩, hskipped]
        exact hb
  obtain ⟨behind, hb, hk⟩ := hskip (tokens ++ rest).length
  rw [atPackageDeclaration, hb]
  exact beq_eq_false_iff_ne.2 (hk.ne (by decide))

end

/-! ### Clauses -/

/-- One or more items with tokens of a kind between them. -/
inductive Listed (separator : TokenKind) (item : List Token → Prop) : List Token → Prop where
  | last {tokens : List Token} (h : item tokens) : Listed separator item tokens
  | more {tokens rest : List Token} {token : Token} (h : item tokens)
      (hk : token.kind = separator) (hr : Listed separator item rest) :
      Listed separator item (tokens ++ token :: rest)

/-- A type parameter with its bounds. -/
inductive TypeParameter : List Token → Prop where
  | plain {annotations : List Token} {name : Token} (ha : TypeAnnotations annotations)
      (hn : name.kind = .ident) : TypeParameter (annotations ++ [name])
  | bounded {annotations bounds : List Token} {name word : Token} (ha : TypeAnnotations annotations)
      (hn : name.kind = .ident) (hw : word.kind = .kwExtends)
      (hb : Listed .amp (Written .type) bounds) :
      TypeParameter (annotations ++ name :: word :: bounds)

/-- Type parameters between angle brackets, if there are any. -/
inductive TypeParametersOpt : List Token → Prop where
  | absent : TypeParametersOpt []
  | given {opening closing : Token} {parameters : List Token} (ho : opening.kind = .less)
      (hp : Listed .comma TypeParameter parameters) (hc : closing.kind = .greater) :
      TypeParametersOpt (opening :: parameters ++ [closing])

/-- A clause that begins with a word, if there is one. -/
inductive ClauseOpt (word : TokenKind) (item : List Token → Prop) : List Token → Prop where
  | absent : ClauseOpt word item []
  | given {token : Token} {tokens : List Token} (hw : token.kind = word) (h : item tokens) :
      ClauseOpt word item (token :: tokens)

/-- What stands between the name of a type and its body. -/
inductive Clauses : TypeKind → List Token → Prop where
  | classType {parameters superclass interfaces : List Token}
      (hp : TypeParametersOpt parameters) (he : ClauseOpt .kwExtends (Written .type) superclass)
      (hi : ClauseOpt .kwImplements (Listed .comma (Written .type)) interfaces) :
      Clauses .classType (parameters ++ (superclass ++ interfaces))
  | interfaceType {parameters interfaces : List Token} (hp : TypeParametersOpt parameters)
      (he : ClauseOpt .kwExtends (Listed .comma (Written .type)) interfaces) :
      Clauses .interfaceType (parameters ++ interfaces)
  | enumType {interfaces : List Token}
      (hi : ClauseOpt .kwImplements (Listed .comma (Written .type)) interfaces) :
      Clauses .enumType interfaces
  | annotationType : Clauses .annotationType []

section

variable {tokens : List Token} {follows first : TokenKind → Prop}

theorem reads_typeRef (h : Written .type tokens) : Reads typeRef () tokens EndsType :=
  reads_written h

theorem Listed.reads {item : List Token → Prop} {step : Parse Unit} [Keeps Advanced step]
    (h : Listed .comma item tokens) (hi : ∀ tokens, item tokens → Reads step () tokens first)
    (hcomma : first .comma) (hlast : ∀ kind, follows kind → first kind ∧ kind ≠ .comma) :
    Reads (commaSeparated step) () tokens follows := by
  induction h with
  | last h =>
    exact Reads.comma_last ((hi _ h).mono fun kind hk => (hlast kind hk).1) fun kind hk =>
      (hlast kind hk).2
  | more h hk hr ih => exact (hi _ h).comma hk ih hcomma

theorem reads_typeList (h : Listed .comma (Written .type) tokens) :
    Reads typeList () tokens (· = .lBrace) := by
  refine h.reads (fun _ => reads_typeRef) (by decide) ?_
  rintro kind rfl
  decide

/-- One more bound of a type parameter, if there is one. -/
def boundRound : Parse Bool := do
  if ← eat .amp then
    typeRef
    return true
  else return false

instance : Progresses boundRound := ⟨fun he => ProgressesFrom.eat .amp progressesFrom rfl he⟩

theorem loop_boundRound : loop boundRound = (do if ← eat .amp then (do typeRef; loop boundRound)) := by
  refine (loop_eq boundRound).trans ?_
  change ((eat .amp >>= fun here =>
    if here = true then (do typeRef; return true) else return false) >>= _) = _
  rw [bind_assoc]
  congr 1
  funext here
  cases here with
  | false => rfl
  | true =>
    rw [if_pos rfl, if_pos rfl, bind_assoc]
    rfl

theorem reads_bounds (h : Listed .amp (Written .type) tokens) :
    Reads (do typeRef; loop boundRound) () tokens fun kind => EndsType kind ∧ kind ≠ .amp := by
  induction h with
  | last h =>
    have hdone : Reads (loop boundRound) () [] fun kind => EndsType kind ∧ kind ≠ .amp := by
      rw [loop_boundRound]
      exact reads_opt_not fun _ hk => hk.2
    have hread : Reads (do typeRef; loop boundRound) () (_ ++ []) _ :=
      (reads_typeRef h).bind hdone fun _ hr => hr.1
    rwa [List.append_nil] at hread
  | @more tokens rest token h hk hr ih =>
    have hagain : Reads (loop boundRound) () (token :: rest) fun kind => EndsType kind ∧ kind ≠ .amp := by
      rw [loop_boundRound]
      exact (reads_eat hk).then ih
    apply (reads_typeRef h).bind hagain
    intro more _
    rw [List.cons_append, kindAt_cons, hk]
    decide

theorem TypeParameter.reads (h : TypeParameter tokens) :
    Reads typeParameter () tokens (· ∈ [.comma, .greater]) := by
  have hends : ∀ kind ∈ [TokenKind.comma, .greater], EndsType kind ∧ kind ≠ .amp ∧
      kind ≠ .kwExtends := by decide
  have hname : ∀ name : Token, ∀ rest : List Token, name.kind = .ident →
      kindAt (name :: rest) 0 ≠ .atSign ∧ kindAt (name :: rest) 0 ≠ .dot := by
    intro name rest hn
    rw [kindAt_cons, hn]
    decide
  apply Reads.node
  cases h with
  | @plain annotations name ha hn =>
    have hrest : Reads (do if ← eat .kwExtends then (do typeRef; loop boundRound)) () []
        (· ∈ [.comma, .greater]) := reads_opt_not fun kind hk => (hends kind hk).2.2
    exact (reads_typeAnnotations ha).bind ((reads_expect hn _).then hrest) fun rest _ =>
      hname name _ hn
  | @bounded annotations bounds name word ha hn hw hb =>
    have hbounds : Reads (do typeRef; loop boundRound) () bounds (· ∈ [.comma, .greater]) :=
      (reads_bounds hb).mono fun kind hk => ⟨(hends kind hk).1, (hends kind hk).2.1⟩
    have hrest : Reads (do if ← eat .kwExtends then (do typeRef; loop boundRound)) () (word :: bounds)
        (· ∈ [.comma, .greater]) := (reads_eat hw).then hbounds
    exact (reads_typeAnnotations ha).bind ((reads_expect hn _).then hrest) fun rest _ =>
      hname name _ hn

theorem TypeParametersOpt.reads (h : TypeParametersOpt tokens) :
    Reads typeParametersOpt () tokens (· ≠ .less) := by
  cases h with
  | absent => exact Reads.not_at (fun _ hr => hr) (reads_pure ())
  | @given opening closing parameters ho hp hc =>
    have hlist : Reads (commaSeparated typeParameter) () parameters (· = .greater) := by
      refine hp.reads (fun _ h => h.reads) (by decide) ?_
      rintro kind rfl
      decide
    have hread : ReadsFreely (inNode .typeParameters do
        bump
        commaSeparated typeParameter
        expect .greater "`>`") () (opening :: (parameters ++ [closing])) := by
      apply Reads.node
      exact (reads_bump opening).then (hlist.bind (reads_expect hc _) fun _ _ => hc)
    exact Reads.at_kind (fun _ => ho) hread.reads

theorem ClauseOpt.reads {word : TokenKind} {item : List Token → Prop} {step : Parse Unit}
    (h : ClauseOpt word item tokens) (hi : ∀ tokens, item tokens → Reads step () tokens follows)
    (hne : ∀ kind, follows kind → kind ≠ word) (kind : NodeKind) :
    Reads (do if ← isAt word then inNode kind (do bump; step)) () tokens follows := by
  cases h with
  | absent => exact Reads.not_at (fun _ hr => hne _ hr) (reads_pure ())
  | @given token tokens hw h =>
    have hread : Reads (do bump; step) () (token :: tokens) follows :=
      (reads_bump token).then (hi _ h)
    exact Reads.at_kind (fun _ => hw) (hread.node kind)

theorem reads_implementsOpt (h : ClauseOpt .kwImplements (Listed .comma (Written .type)) tokens) :
    Reads implementsOpt () tokens (· = .lBrace) := by
  refine h.reads (fun _ => reads_typeList) ?_ .implementsClause
  rintro kind rfl
  decide

/-- A clause begins with its word, or what follows it begins there. -/
theorem ClauseOpt.kindAt_eq {word : TokenKind} {item : List Token → Prop}
    (h : ClauseOpt word item tokens) (rest : List Token) :
    kindAt (tokens ++ rest) 0 = word ∨ kindAt (tokens ++ rest) 0 = kindAt rest 0 := by
  cases h with
  | absent => exact .inr rfl
  | given hw => exact .inl hw

end

/-- The clauses between the name of a type and its body. -/
def clauses : TypeKind → Parse Unit
  | .classType => do
    typeParametersOpt
    if ← isAt .kwExtends then
      inNode .extendsClause do
        bump
        typeRef
    implementsOpt
  | .interfaceType => do
    typeParametersOpt
    if ← isAt .kwExtends then
      inNode .extendsClause do
        bump
        typeList
  | .enumType => implementsOpt
  | .annotationType => pure ()

theorem Clauses.reads {kind : TypeKind} {tokens : List Token} (h : Clauses kind tokens) :
    Reads (clauses kind) () tokens (· = .lBrace) := by
  cases h with
  | @classType parameters superclass interfaces hp he hi =>
    have hsuper : Reads (do if ← isAt .kwExtends then inNode .extendsClause (do bump; typeRef)) ()
        superclass (· ∈ [.kwImplements, .lBrace]) := by
      refine he.reads (fun _ h => (reads_typeRef h).mono ?_) ?_ _
      · decide
      · decide
    have hbehind : ∀ rest, kindAt rest 0 = .lBrace →
        kindAt (interfaces ++ rest) 0 ∈ [TokenKind.kwImplements, .lBrace] := by
      intro rest hr
      rcases hi.kindAt_eq rest with hk | hk
      · rw [hk]
        decide
      · rw [hk, hr]
        decide
    refine hp.reads.bind (Reads.of_opt (hsuper.bind (reads_implementsOpt hi) hbehind)) ?_
    intro rest hr
    rw [List.append_assoc]
    rcases he.kindAt_eq (interfaces ++ rest) with hk | hk
    · rw [hk]
      decide
    · rw [hk]
      have := hbehind rest hr
      generalize kindAt (interfaces ++ rest) 0 = kind at this
      revert this kind
      decide
  | @interfaceType parameters interfaces hp he =>
    have hsuper : Reads (do if ← isAt .kwExtends then inNode .extendsClause (do bump; typeList)) ()
        interfaces (· = .lBrace) := by
      refine he.reads (fun _ => reads_typeList) ?_ _
      rintro kind rfl
      decide
    refine hp.reads.bind hsuper ?_
    intro rest hr
    rcases he.kindAt_eq rest with hk | hk
    · rw [hk]
      decide
    · rw [hk, hr]
      decide
  | enumType hi => exact reads_implementsOpt hi
  | annotationType => exact reads_pure ()

end Parser

/-! ### Headers -/

namespace TypeKind

/-- The node of a declaration. -/
def node : TypeKind → NodeKind
  | .classType => .classDecl
  | .interfaceType => .interfaceDecl
  | .enumType => .enumDecl
  | .annotationType => .annotationDecl

/-- The words between the modifiers and the name of a declaration. -/
def words : TypeKind → List TokenKind
  | .classType => [.kwClass]
  | .interfaceType => [.kwInterface]
  | .enumType => [.kwEnum]
  | .annotationType => [.atSign, .kwInterface]

/-- The body of a declaration. -/
def body : TypeKind → Parser.Nonterminal
  | .enumType => .enumBody
  | _ => .classBody

end TypeKind

/-- The header of a type declaration, up to the brace that opens its body. -/
structure TypeHeader where
  kind : TypeKind
  modifiers : List Token
  words : List Token
  name : Token
  clauses : List Token
  lBrace : Token
  modifiers_written : Parser.WrittenModifiers modifiers
  words_kind : words.map (·.kind) = kind.words
  name_kind : name.kind = .ident
  clauses_written : Parser.Clauses kind clauses
  lBrace_kind : lBrace.kind = .lBrace

namespace TypeHeader

/-- The tokens of a header, in their order. -/
def tokens (header : TypeHeader) : List Token :=
  header.modifiers ++ (header.words ++ header.name :: (header.clauses ++ [header.lBrace]))

theorem tokens_append (header : TypeHeader) (rest : List Token) :
    header.tokens ++ rest = header.modifiers ++ (header.words ++ header.name ::
      (header.clauses ++ header.lBrace :: rest)) := by
  simp [tokens]

/-- A node is the declaration that a header begins. -/
def DeclaredBy (header : TypeHeader) (node : Tree) : Prop :=
  node.kind = header.kind.node ∧ node.childToken? .ident = some header.name

instance (header : TypeHeader) (node : Tree) : Decidable (header.DeclaredBy node) := by
  unfold DeclaredBy; infer_instance

end TypeHeader

namespace Parser

open Parse

/-- Some tokens are passed. -/
theorem bumpMany_adds (tokens rest : List Token) (input : Input) (builder : Builder)
    (errors : List ParseError) :
    ∃ after, bumpMany tokens.length input ⟨tokens ++ rest, builder, errors⟩ =
        (some (), ⟨rest, after, errors⟩) ∧ builder.Adds (tokens.map .leaf) after := by
  induction tokens generalizing builder with
  | nil => exact ⟨builder, rfl, Builder.adds_nil builder⟩
  | cons token tokens ih =>
    obtain ⟨after, he, ha⟩ := ih (builder.token token)
    exact ⟨after, he, (Builder.adds_push builder (.leaf token)).trans ha⟩

/-- What stands behind the modifiers of a declaration. -/
def declaration (kind : TypeKind) : Parse Unit := do
  bumpMany kind.words.length
  expectIdent
  clauses kind
  nonterminal kind.body

/-- A step that is done or not comes before what follows it either way. -/
theorem ite_then {α : Type} (condition : Bool) (step : Parse Unit) (last : Parse α) :
    (if condition = true then (do step; last) else last) =
      ((if condition = true then step else pure ()) >>= fun _ => last) := by
  cases condition <;> rfl

theorem classDecl_eq : classDecl nonterminal = declaration .classType := by
  unfold classDecl declaration clauses
  simp only [TypeKind.words, TypeKind.body, List.length_singleton, bumpMany, bind_assoc, pure_bind,
    ite_then]

theorem interfaceDecl_eq : interfaceDecl nonterminal = declaration .interfaceType := by
  unfold interfaceDecl declaration clauses
  simp only [TypeKind.words, TypeKind.body, List.length_singleton, bumpMany, bind_assoc, pure_bind,
    ite_then]

theorem enumDecl_eq : enumDecl nonterminal = declaration .enumType := by
  unfold enumDecl declaration clauses
  simp only [TypeKind.words, TypeKind.body, List.length_singleton, bumpMany, bind_assoc, pure_bind]

theorem annotationDecl_eq : annotationDecl nonterminal = declaration .annotationType := rfl

/-- A type declaration behind its modifiers is chosen by the next tokens. -/
theorem typeDeclaration_apply (place : Checkpoint) (input : Input) (state : State) :
    typeDeclaration nonterminal place input state =
      (if kindAt state.ahead 0 = .kwClass then
        aroundSince place .classDecl (declaration .classType)
      else if kindAt state.ahead 0 = .kwInterface then
        aroundSince place .interfaceDecl (declaration .interfaceType)
      else if kindAt state.ahead 0 = .kwEnum then
        aroundSince place .enumDecl (declaration .enumType)
      else if kindAt state.ahead 0 = .atSign ∧ kindAt state.ahead 1 = .kwInterface then
        aroundSince place .annotationDecl (declaration .annotationType)
      else do
        errorExpected "type declaration"
        fail) input state := by
  rw [← classDecl_eq, ← interfaceDecl_eq, ← enumDecl_eq, ← annotationDecl_eq]
  rfl

/-- The words of a declaration say which declaration it is. -/
theorem typeDeclaration_eq {kind : TypeKind} {words : List Token}
    (hw : words.map (·.kind) = kind.words) (place : Checkpoint) (input : Input) (rest : List Token)
    (builder : Builder) (errors : List ParseError) :
    typeDeclaration nonterminal place input ⟨words ++ rest, builder, errors⟩ =
      aroundSince place kind.node (declaration kind) input ⟨words ++ rest, builder, errors⟩ := by
  rw [typeDeclaration_apply]
  cases kind with
  | classType =>
    obtain ⟨word, rfl, hk⟩ := List.map_eq_singleton_iff.1 hw
    have hat : kindAt ([word] ++ rest) 0 = .kwClass := hk
    simp only [hat, if_true]
    rfl
  | interfaceType =>
    obtain ⟨word, rfl, hk⟩ := List.map_eq_singleton_iff.1 hw
    have hat : kindAt ([word] ++ rest) 0 = .kwInterface := hk
    simp only [hat, if_true]
    rfl
  | enumType =>
    obtain ⟨word, rfl, hk⟩ := List.map_eq_singleton_iff.1 hw
    have hat : kindAt ([word] ++ rest) 0 = .kwEnum := hk
    simp only [hat, if_true]
    rfl
  | annotationType =>
    obtain ⟨sign, more, rfl, hs, hm⟩ := List.map_eq_cons_iff.1 hw
    obtain ⟨word, rfl, hk⟩ := List.map_eq_singleton_iff.1 hm
    have hat : kindAt ([sign, word] ++ rest) 0 = .atSign := hs
    have hnext : kindAt ([sign, word] ++ rest) 1 = .kwInterface := hk
    simp only [hat, hnext, if_true, and_self]
    rfl

end Parser

end JavaGraph
