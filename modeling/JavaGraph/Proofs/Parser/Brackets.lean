import JavaGraph.Proofs.Parser.Progress
import JavaGraph.Proofs.Tree.Brackets
/-!
# Steps that find the delimiters they look for

The delimiters that have been passed since some place are known: those still open there, innermost
last, have to be closed by what comes. A step that succeeds leaves open what it says, whatever it has
skipped or left out, but where the text ends in a body the brace that closes it is missing.

A step may rely on what the next tokens are among the delimiters. One that fails leaves nodes open,
and recovery takes them back.
-/

namespace JavaGraph.Parser

open Parse

set_option synthInstance.maxSize 8192

/-! ### Faults -/

/-- Neither a token nor a fault gets lost, and the tokens ahead become fewer from the front. -/
structure Orderly (input : Input) (before after : State) : Prop where
  conserved : Conserved input before after
  advanced : Advanced input before after

instance : Guarantee Orderly where
  refl input state := ⟨Guarantee.refl input state, Guarantee.refl input state⟩
  trans h h' := ⟨Guarantee.trans h.conserved h'.conserved, Guarantee.trans h.advanced h'.advanced⟩
  bump input token ahead builder errors :=
    ⟨Guarantee.bump input token ahead builder errors, Guarantee.bump input token ahead builder errors⟩
  record input state error :=
    ⟨Guarantee.record input state error, Guarantee.record input state error⟩
  start input state kind hk :=
    ⟨Guarantee.start input state kind hk, Guarantee.start input state kind hk⟩
  startAt input state place kind hk :=
    ⟨Guarantee.startAt input state place kind hk, Guarantee.startAt input state place kind hk⟩
  finish input state := ⟨Guarantee.finish input state, Guarantee.finish input state⟩
  recover resume h := ⟨Guarantee.recover resume h.conserved, Guarantee.recover resume h.advanced⟩

/-- No token is left, and a fault has been found: something may be missing. -/
def State.Short (state : State) : Prop := state.ahead = [] ∧ state.errors ≠ []

theorem State.Short.of_advanced {input : Input} {state after : State} (h : state.Short)
    (ha : Advanced input state after) : after.Short := by
  refine ⟨List.suffix_nil.1 (h.1 ▸ ha.suffix), fun hnil => h.2 ?_⟩
  have hle := ha.errors_le
  rw [hnil, List.length_nil] at hle
  exact List.length_eq_zero_iff.1 (Nat.le_zero.1 hle)

/-! ### Delimiters ahead -/

/-- What a token is among the delimiters. -/
inductive Mark where
  /-- No delimiter, and known. -/
  | plain
  /-- A delimiter that a token of this kind closes. -/
  | opens (closing : TokenKind)
  /-- A delimiter of this kind, which closes one. -/
  | closes (closing : TokenKind)

/-- Whether a token of a kind is what a mark says. -/
def Mark.Fits : Mark → TokenKind → Prop
  | .plain, kind => kind.isOrdinary = true
  | .opens closing, kind => kind.closing? = some closing
  | .closes closing, kind => kind = closing ∧ kind.isClosing = true

/-- What tokens of a kind are among the delimiters. -/
class HasMark (kind : TokenKind) (mark : outParam Mark) : Prop where
  fits : mark.Fits kind

/-- Whether tokens of a kind are known and no delimiters. -/
@[reducible] def isUsual : TokenKind → Bool
  | .lParen | .rParen | .lBracket | .rBracket | .lBrace | .rBrace | .unknown => false
  | _ => true

instance : HasMark .lParen (.opens .rParen) := ⟨rfl⟩

instance : HasMark .lBracket (.opens .rBracket) := ⟨rfl⟩

instance : HasMark .lBrace (.opens .rBrace) := ⟨rfl⟩

instance : HasMark .rParen (.closes .rParen) := ⟨rfl, rfl⟩

instance : HasMark .rBracket (.closes .rBracket) := ⟨rfl, rfl⟩

instance : HasMark .rBrace (.closes .rBrace) := ⟨rfl, rfl⟩

instance (kind : TokenKind) [h : Evaluates (isUsual kind)] : HasMark kind .plain := by
  constructor
  have h := h.eq_true
  revert h
  cases kind <;> simp [isUsual, Mark.Fits, TokenKind.isOrdinary, TokenKind.closing?,
    TokenKind.isClosing]

/-- The next tokens are what the marks say. -/
def Marked : List Mark → List Token → Prop
  | [], _ => True
  | mark :: marks, ahead => mark.Fits (kindAt ahead 0) ∧ Marked marks ahead.tail

theorem kindAt_tail (ahead : List Token) (n : Nat) : kindAt ahead.tail n = kindAt ahead (n + 1) := by
  cases ahead <;> rfl

/-- A token of a kind is what its mark says. -/
theorem marked_one {kind : TokenKind} {mark : Mark} [hm : HasMark kind mark] {ahead : List Token}
    (h : kindAt ahead 0 = kind) : Marked [mark] ahead := by
  subst h
  exact ⟨hm.fits, trivial⟩

theorem marked_two {kind kind' : TokenKind} {mark mark' : Mark} [hm : HasMark kind mark]
    [hm' : HasMark kind' mark'] {ahead : List Token} (h : kindAt ahead 0 = kind)
    (h' : kindAt ahead 1 = kind') : Marked [mark, mark'] ahead := by
  subst h h'
  exact ⟨hm.fits, by rw [kindAt_tail]; exact hm'.fits, trivial⟩

theorem marked_three {kind kind' kind'' : TokenKind} {mark mark' mark'' : Mark}
    [hm : HasMark kind mark] [hm' : HasMark kind' mark'] [hm'' : HasMark kind'' mark'']
    {ahead : List Token} (h : kindAt ahead 0 = kind) (h' : kindAt ahead 1 = kind')
    (h'' : kindAt ahead 2 = kind'') : Marked [mark, mark', mark''] ahead := by
  subst h h' h''
  exact ⟨hm.fits, by rw [kindAt_tail]; exact hm'.fits, by
    rw [kindAt_tail, kindAt_tail]; exact hm''.fits, trivial⟩

/-! ### Open delimiters -/

/-- Regular children have been added to the innermost node since `base`, and the delimiters of `stack`
are still to come for them. -/
structure State.Open (base : Builder) (stack : List TokenKind) (state : State) : Prop where
  composite : base.Composite
  significant : state.Significant
  exists_added : ∃ added, base.Adds added state.builder ∧
    LeftOpen state.Short stack (added.filterMap Tree.token?) ∧
    (∀ token ∈ added.filterMap Tree.token?, token.kind ≠ .unknown) ∧
    ∀ child ∈ added, child.Bracketed state.Short

/-- What a step leaves open if it succeeds. If it fails, some nodes may not be finished. -/
def LeavesOpen {α : Type} (base : Builder) (stack : List TokenKind) : Option α × State → Prop
  | (some _, after) => after.Open base stack
  | (none, after) => base.Above after.builder

/-- A step before which the delimiters of `stack` are to come, and after it those of `rest`. -/
class Settles {α : Type} (base : Builder) (marks : List Mark) (stack rest : List TokenKind)
    (step : Parse α) : Prop where
  settles : ∀ input state, Marked marks state.ahead → state.Open base stack →
    LeavesOpen base rest (step input state)

section

variable {α β : Type} {base : Builder} {marks : List Mark} {mark : Mark}
  {stack middle rest : List TokenKind} {step : Parse α} {input : Input} {state : State}
  {ahead : List Token}

theorem State.Open.above (h : state.Open base stack) : base.Above state.builder := by
  obtain ⟨added, ha, -⟩ := h.exists_added
  exact ha.above

/-- A place at which nothing has been added yet. -/
theorem State.open_self (state : State) (hc : state.builder.Composite) (hs : state.Significant) :
    state.Open state.builder [] :=
  ⟨hc, hs, [], Builder.adds_nil _, leftOpen_of_settle? rfl, nofun, nofun⟩

theorem State.Open.self (h : state.Open base stack) : state.Open state.builder [] := by
  obtain ⟨added, ha, -⟩ := h.exists_added
  exact State.open_self state (ha.composite h.composite) h.significant

/-- As long as nothing is built, the same is open. -/
theorem State.Open.advance {other : State} (h : state.Open base stack)
    (ha : Advanced input state other) (hb : other.builder = state.builder) :
    other.Open base stack := by
  obtain ⟨added, hadds, hopen, hknown, hc⟩ := h.exists_added
  have hshort : state.Short → other.Short := fun hs => hs.of_advanced ha
  exact ⟨h.composite, h.significant.of_advanced ha, added, hb ▸ hadds, hopen.mono hshort, hknown,
    fun child hm => (hc child hm).mono hshort⟩

/-! ### Steps that change nothing -/

/-- A step that succeeds and changes nothing. -/
theorem Settles.still (h : ∀ input state, ∃ value, step input state = (some value, state)) :
    Settles base marks stack stack step := by
  constructor
  intro input state _ ho
  obtain ⟨value, he⟩ := h input state
  rw [he]
  exact ho

instance (value : α) : Settles base marks stack stack (pure value) := .still fun _ _ => ⟨value, rfl⟩

instance (f : List Token → α) : Settles base marks stack stack (look f) :=
  .still fun _ state => ⟨f state.ahead, rfl⟩

instance (kind : TokenKind) : Settles base marks stack stack (isAt kind) := by
  unfold isAt; infer_instance

instance (n : Nat) (kind : TokenKind) : Settles base marks stack stack (isAtNth n kind) := by
  unfold isAtNth; infer_instance

instance : Settles base marks stack stack atEnd := by unfold atEnd; infer_instance

instance : Settles base marks stack rest (fail : Parse α) := ⟨fun _ _ _ ho => ho.above⟩

instance (what : String) : Settles base marks stack stack (errorExpected what) :=
  ⟨fun input state _ ho => ho.advance (Guarantee.record input state _) rfl⟩

/-! ### Steps put together -/

theorem Settles.bind {next : α → Parse β} (h : Settles base marks stack middle step)
    (hn : ∀ value, Settles base [] middle rest (next value)) :
    Settles base marks stack rest (step >>= next) := by
  constructor
  intro input state hm ho
  have hs := h.settles input state hm ho
  simp only [Bind.bind]
  split
  · next value middle he =>
    rw [he] at hs
    exact (hn value).settles input middle trivial hs
  · next middle he =>
    rw [he] at hs
    exact hs

instance (step : Parse α) (next : α → Parse β) [h : Settles base marks stack stack step]
    [hn : ∀ value, Settles base [] stack rest (next value)] :
    Settles base marks stack rest (step >>= next) := h.bind hn

/-- A step where some tokens are ahead. -/
def SettlesFrom (base : Builder) (ahead : List Token) (stack rest : List TokenKind)
    (step : Parse α) : Prop :=
  ∀ input state, state.ahead = ahead → state.Open base stack →
    LeavesOpen base rest (step input state)

theorem Settles.from (h : Settles base marks stack rest step) (hm : Marked marks ahead) :
    SettlesFrom base ahead stack rest step := by
  rintro input state rfl ho
  exact h.settles input state hm ho

/-- A step that may begin anywhere. -/
theorem settlesFrom [h : Settles base [] stack rest step] :
    SettlesFrom base ahead stack rest step := h.from trivial

/-- A step that was chosen for the next token. -/
theorem settlesFrom_one {kind : TokenKind} [HasMark kind mark]
    [h : Settles base [mark] stack rest step] (hk : kindAt ahead 0 = kind) :
    SettlesFrom base ahead stack rest step := h.from (marked_one hk)

/-- A step that was chosen for the next two tokens. -/
theorem settlesFrom_two {kind kind' : TokenKind} {mark' : Mark} [HasMark kind mark]
    [HasMark kind' mark'] [h : Settles base [mark, mark'] stack rest step]
    (hk : kindAt ahead 0 = kind) (hk' : kindAt ahead 1 = kind') :
    SettlesFrom base ahead stack rest step := h.from (marked_two hk hk')

/-- A step behind a look ahead begins where the look was taken. -/
theorem Settles.look {f : List Token → α} {next : α → Parse β}
    (h : ∀ ahead, Marked marks ahead → SettlesFrom base ahead stack rest (next (f ahead))) :
    Settles base marks stack rest (Parse.look f >>= next) :=
  ⟨fun input state hm ho => h state.ahead hm input state rfl ho⟩

instance (f : List Token → α) (next : α → Parse β)
    [h : ∀ value, Settles base marks stack rest (next value)] :
    Settles base marks stack rest (look f >>= next) :=
  ⟨fun input state => (h (f state.ahead)).settles input state⟩

instance (kind : TokenKind) (next : Bool → Parse β)
    [h : ∀ value, Settles base marks stack rest (next value)] :
    Settles base marks stack rest (isAt kind >>= next) := by unfold isAt; infer_instance

instance (n : Nat) (kind : TokenKind) (next : Bool → Parse β)
    [h : ∀ value, Settles base marks stack rest (next value)] :
    Settles base marks stack rest (isAtNth n kind >>= next) := by unfold isAtNth; infer_instance

/-- A step chosen by the tokens ahead. -/
theorem Settles.onAhead {f : List Token → Parse α}
    (h : ∀ ahead, Settles base marks stack rest (f ahead)) :
    Settles base marks stack rest (Parse.onAhead f) :=
  ⟨fun input state => (h state.ahead).settles input state⟩

instance (f : List Token → Parse α) [h : ∀ ahead, Settles base marks stack rest (f ahead)] :
    Settles base marks stack rest (onAhead f) := .onAhead h

instance (condition : Prop) [Decidable condition] (yes no : Parse α)
    [hy : Settles base marks stack rest yes] [hn : Settles base marks stack rest no] :
    Settles base marks stack rest (if condition then yes else no) := by
  split
  · exact hy
  · exact hn

/-- A step for which the next token has been looked at. -/
instance (kind : TokenKind) (yes no : Parse α) [HasMark kind mark]
    [Settles base [mark] stack rest yes] [hn : Settles base marks stack rest no] :
    Settles base marks stack rest (isAt kind >>= fun here => if here = true then yes else no) := by
  refine .look fun ahead hm => ?_
  split
  · next h => exact settlesFrom_one (eq_of_beq h)
  · exact hn.from hm

/-- A step for which the next two tokens have been looked at. -/
instance (kind kind' : TokenKind) {mark' : Mark} (yes no : Parse α) [HasMark kind mark]
    [HasMark kind' mark'] [Settles base [mark, mark'] stack rest yes]
    [hn : Settles base marks stack rest no] :
    Settles base marks stack rest (isAt kind >>= fun here => isAtNth 1 kind' >>= fun next =>
      if (here && next) = true then yes else no) := by
  refine .look fun ahead hm => ?_
  rintro input state rfl ho
  change LeavesOpen base rest ((if (kindAt state.ahead 0 == kind &&
    kindAt state.ahead 1 == kind') = true then yes else no) input state)
  split
  · next h =>
    rw [Bool.and_eq_true] at h
    exact settlesFrom_two (eq_of_beq h.1) (eq_of_beq h.2) input state rfl ho
  · exact hn.settles input state hm ho

/-- A step for which the next token is one of two. -/
instance (kind kind' : TokenKind) (yes no : Parse α) [HasMark kind mark]
    [HasMark kind' mark] [Settles base [mark] stack rest yes]
    [hn : Settles base marks stack rest no] :
    Settles base marks stack rest (isAt kind >>= fun here => isAt kind' >>= fun there =>
      if (here || there) = true then yes else no) := by
  refine .look fun ahead hm => ?_
  rintro input state rfl ho
  change LeavesOpen base rest ((if (kindAt state.ahead 0 == kind ||
    kindAt state.ahead 0 == kind') = true then yes else no) input state)
  split
  · next h =>
    rcases Bool.or_eq_true_iff.1 h with h | h
    · exact settlesFrom_one (eq_of_beq h) input state rfl ho
    · exact settlesFrom_one (eq_of_beq h) input state rfl ho
  · exact hn.settles input state hm ho

/-- What relies on nothing may be done anywhere. -/
instance (priority := low) [h : Settles base [] stack rest step] :
    Settles base (mark :: marks) stack rest step :=
  ⟨fun input state _ => h.settles input state trivial⟩

instance (f : α → β) (step : Parse α) [h : Settles base marks stack rest step] :
    Settles base marks stack rest (f <$> step) :=
  h.bind fun value => inferInstanceAs (Settles base [] rest rest (pure (f value)))

instance (step : Parse α) [h : Settles base marks stack rest step] :
    Settles base marks stack rest (discard step) :=
  h.bind fun _ => inferInstanceAs (Settles base [] rest rest (pure PUnit.unit))

instance settles_loopAtMost (rounds : Nat) (step : Parse Bool) [Settles base [] stack stack step] :
    Settles base [] stack stack (loopAtMost rounds step) := by
  induction rounds with
  | zero => unfold loopAtMost; infer_instance
  | succ rounds ih => unfold loopAtMost; infer_instance

instance (step : Parse Bool) [Settles base [] stack stack step] :
    Settles base [] stack stack (loop step) := by unfold loop; infer_instance

instance (kind : TokenKind) (step : Parse Unit) [HasMark kind mark]
    [Settles base [mark] stack stack step] : Settles base [] stack stack (whileAt kind step) := by
  unfold whileAt; infer_instance

/-! ### Tokens -/

/-- What is to come behind a token that is passed. -/
theorem State.Open.token {token : Token} {builder : Builder} {errors : List ParseError}
    (h : State.Open base stack ⟨token :: ahead, builder, errors⟩)
    (hs : token.kind.settle? stack = some rest) (hk : token.kind ≠ .unknown) :
    State.Open base rest ⟨ahead, builder.token token, errors⟩ := by
  obtain ⟨added, ha, hopen, hknown, hc⟩ := h.exists_added
  have hlong : ¬ State.Short ⟨token :: ahead, builder, errors⟩ := fun hs => by cases hs.1
  have htokens : [Tree.leaf token].filterMap Tree.token? = [token] := rfl
  refine ⟨h.composite, fun t ht => h.significant t (.tail _ ht), _,
    ha.trans (Builder.adds_push builder (.leaf token)), leftOpen_of_settle? ?_, ?_, ?_⟩
  · rw [List.filterMap_append, htokens, settle?_append, hopen.settle? hlong, Option.bind_some,
      settle?_cons, hs]
    rfl
  · rw [List.filterMap_append, List.forall_mem_append, htokens, List.forall_mem_singleton]
    exact ⟨hknown, hk⟩
  · rw [List.forall_mem_append, List.forall_mem_singleton]
    exact ⟨fun child hm => (hc child hm).mono fun hs => absurd hs hlong, Tree.bracketed_leaf token⟩

/-- Behind the end of the text, a brace that is still to come is missing. -/
theorem State.Open.missing {builder : Builder} {errors : List ParseError}
    (h : State.Open base (.rBrace :: stack) ⟨[], builder, errors⟩) (input : Input)
    (error : ParseError) :
    State.Open base stack ⟨[], builder, errors ++ [error]⟩ := by
  obtain ⟨added, ha, hopen, hknown, hc⟩ :=
    (h.advance (Guarantee.record input _ error) rfl).exists_added
  have hshort : State.Short ⟨[], builder, errors ++ [error]⟩ :=
    ⟨rfl, List.append_ne_nil_of_right_ne_nil _ (List.cons_ne_nil _ _)⟩
  exact ⟨h.composite, h.significant, added, ha, hopen.missing hshort, hknown, hc⟩

/-- A token that is passed where it may come. -/
theorem settles_bump (middle : List TokenKind)
    (hs : ∀ kind, mark.Fits kind → kind ≠ .eof ∨ stack = middle)
    (h : ∀ kind, mark.Fits kind → kind.settle? stack = some middle ∧ kind ≠ .unknown)
    (next : Unit → Parse β) [hn : ∀ value, Settles base marks middle rest (next value)] :
    Settles base (mark :: marks) stack rest (bump >>= next) := by
  constructor
  intro input state hm ho
  obtain ⟨ahead, builder, errors⟩ := state
  cases ahead with
  | nil =>
    rcases hs _ hm.1 with heof | rfl
    · exact absurd rfl heof
    · exact (hn ()).settles input _ hm.2 ho
  | cons token ahead =>
    obtain ⟨hsettle, hk⟩ := h token.kind hm.1
    exact (hn ()).settles input _ hm.2 (ho.token hsettle hk)

/-- A token that is no delimiter. -/
instance (next : Unit → Parse β) [∀ value, Settles base marks stack rest (next value)] :
    Settles base (.plain :: marks) stack rest (bump >>= next) := by
  refine settles_bump stack (fun _ _ => .inr rfl) (fun kind hk => ?_) next
  obtain ⟨ho, hc, hu⟩ := TokenKind.isOrdinary_iff.1 hk
  exact ⟨by simp [TokenKind.settle?, ho, hc], hu⟩

/-- A delimiter that is opened. -/
instance (closing : TokenKind) (next : Unit → Parse β)
    [∀ value, Settles base marks (closing :: stack) rest (next value)] :
    Settles base (.opens closing :: marks) stack rest (bump >>= next) := by
  refine settles_bump (closing :: stack) (fun kind hk => .inl ?_) (fun kind hk => ?_) next
  · rintro rfl
    cases hk
  · change kind.closing? = some closing at hk
    refine ⟨by simp [TokenKind.settle?, hk], ?_⟩
    rintro rfl
    cases hk

/-- A delimiter that is closed. -/
instance (closing : TokenKind) (next : Unit → Parse β)
    [∀ value, Settles base marks stack rest (next value)] :
    Settles base (.closes closing :: marks) (closing :: stack) rest (bump >>= next) := by
  refine settles_bump stack (fun kind hk => .inl ?_) (fun kind hk => ?_) next
  · rintro rfl
    cases hk.2
  · obtain ⟨rfl, hc⟩ := hk
    refine ⟨by simp [TokenKind.settle?, TokenKind.closing?_of_isClosing hc, hc], ?_⟩
    rintro rfl
    cases hc

instance : Settles base (.plain :: marks) stack stack bump := by
  rw [← bind_pure bump]
  infer_instance

instance (closing : TokenKind) :
    Settles base (.closes closing :: marks) (closing :: stack) stack bump := by
  rw [← bind_pure bump]
  infer_instance

/-- Tokens that are no delimiters. -/
instance settles_bumpMany (count : Nat) :
    Settles base (List.replicate count .plain) stack stack (bumpMany count) := by
  induction count with
  | zero => unfold bumpMany; infer_instance
  | succ count ih =>
    unfold bumpMany
    rw [List.replicate_succ]
    infer_instance

instance (count : Nat) (next : Unit → Parse β)
    [h : Settles base marks stack rest (bump >>= fun _ => bumpMany count >>= next)] :
    Settles base marks stack rest (bumpMany (count + 1) >>= next) := by
  unfold bumpMany
  rw [bind_assoc]
  exact h

instance (next : Unit → Parse β) [h : Settles base marks stack rest (next ())] :
    Settles base marks stack rest (bumpMany 0 >>= next) := h

instance (count : Nat)
    [h : Settles base marks stack rest (bump >>= fun _ => bumpMany count)] :
    Settles base marks stack rest (bumpMany (count + 1)) := by
  unfold bumpMany
  exact h

instance : Settles base marks stack stack (bumpMany 0) := by unfold bumpMany; infer_instance

instance (kind : TokenKind) [Evaluates (isUsual kind)] : Settles base marks stack stack (eat kind) := by
  unfold eat; infer_instance

/-- A step behind a token that has been passed or is not there. -/
instance (kind : TokenKind) (yes no : Parse α) [HasMark kind mark]
    [Settles base [mark] stack rest (bump >>= fun _ => yes)] [Settles base marks stack rest no] :
    Settles base marks stack rest (eat kind >>= fun here => if here = true then yes else no) := by
  have h : (eat kind >>= fun here => if here = true then yes else no) =
      isAt kind >>= fun here => if here = true then bump >>= fun _ => yes else no := by
    unfold eat
    rw [bind_assoc]
    congr 1
    funext here
    cases here <;> simp
  rw [h]
  infer_instance

instance (item : Parse Unit) [Settles base [] stack stack item] :
    Settles base [] stack stack (commaSeparated item) := by
  unfold commaSeparated; infer_instance

/-- A token that is demanded is there, where no fault is found. -/
instance (kind : TokenKind) (what : String) (next : Unit → Parse β) [HasMark kind mark]
    [h : Settles base [mark] stack rest (bump >>= next)] :
    Settles base marks stack rest (expect kind what >>= next) := by
  have he : (expect kind what >>= next) = isAt kind >>= fun here =>
      if here = true then bump >>= next else errorExpected what >>= fun _ => fail := by
    unfold expect eat
    rw [bind_assoc, bind_assoc]
    congr 1
    funext here
    cases here
    · simp
      rfl
    · simp
  rw [he]
  infer_instance

instance (kind : TokenKind) (what : String) [HasMark kind mark]
    [h : Settles base [mark] stack rest bump] : Settles base marks stack rest (expect kind what) := by
  rw [← bind_pure bump] at h
  rw [← bind_pure (expect kind what)]
  exact inferInstance

instance : Settles base marks stack stack expectIdent := by unfold expectIdent; infer_instance

instance : Settles base marks (.rBrace :: stack) stack expectClosingBrace := by
  constructor
  rintro input ⟨ahead, builder, errors⟩ - ho
  rcases expectClosingBrace_cases input ⟨ahead, builder, errors⟩ ho.significant with
    ⟨token, rest, ha, hk, he⟩ | ⟨ha, error, he⟩ | ⟨after, token, -, -, he, hb⟩
  · cases ha
    rw [he]
    refine ho.token ?_ ?_
    · simp [TokenKind.settle?, TokenKind.closing?, TokenKind.isClosing, hk]
    · rw [hk]
      decide
  · cases ha
    rw [he]
    exact ho.missing input error
  · rw [he]
    change base.Above after.builder
    rw [hb]
    exact ho.above

/-! ### Nodes -/

/-- A finished node is regular if nothing is left open in it. -/
theorem bracketed_toTree {short : Prop} {done : Frame}
    (ho : LeftOpen short [] (done.children.filterMap Tree.token?))
    (hknown : ∀ token ∈ done.children.filterMap Tree.token?, token.kind ≠ .unknown)
    (hc : ∀ child ∈ done.children, child.Bracketed short) : done.toTree.Bracketed short :=
  Tree.bracketed_node.2 ⟨fun _ _ => ⟨ho, hknown⟩, hc⟩

/-- A node that is bracketed is added, and nothing else. -/
theorem State.open_node {node : Tree} (hc : base.Composite) (hs : state.Significant)
    (ha : base.Adds [node] state.builder) (hk : node.token? = none)
    (hb : node.Bracketed state.Short) : state.Open base [] := by
  have htokens : [node].filterMap Tree.token? = [] := List.filterMap_cons_none hk
  exact ⟨hc, hs, [node], ha, leftOpen_of_settle? (by rw [htokens]; rfl), by simp [htokens],
    List.forall_mem_singleton.2 hb⟩

/-- A step within a node that has some children already adds this node. -/
theorem leavesOpen_finishNode {outer : Builder} {frame : Frame} {errors : List ParseError}
    {step : Parse Unit} [h : ∀ base, Settles base marks stack [] step] (hk : frame.kind ≠ .token)
    (hc : outer.Composite) (hm : Marked marks ahead)
    (ho : State.Open (outer.within [{ frame with children := [] }]) stack
      ⟨ahead, outer.within [frame], errors⟩) :
    LeavesOpen outer []
      ((step >>= fun _ => finishNode) input ⟨ahead, outer.within [frame], errors⟩) := by
  have hs := (h _).settles input ⟨ahead, outer.within [frame], errors⟩ hm ho
  simp only [Bind.bind]
  generalize step input ⟨ahead, outer.within [frame], errors⟩ = result at hs
  obtain ⟨_ | value, after⟩ := result
  · exact Builder.Above.of_within hs
  · obtain ⟨added, ha, hopen, hknown, hchildren⟩ := hs.exists_added
    obtain ⟨done, hdk, hdc, hd⟩ := Builder.adds_finishNode ha
    rw [← show done.children = added from hdc] at hopen hknown hchildren
    exact State.open_node hc hs.significant hd
      (Tree.token?_of_kind_ne (show done.kind ≠ .token from hdk ▸ hk))
      (bracketed_toTree hopen hknown hchildren)

/-- What leaves nothing open of its own leaves open what was open before. -/
theorem State.Open.leavesOpen {result : Option α × State} (ho : state.Open base stack)
    (ha : Advanced input state result.2) (hs : LeavesOpen state.builder [] result) :
    LeavesOpen base stack result := by
  obtain ⟨added, hadds, hopen, hknown, hc⟩ := ho.exists_added
  obtain ⟨_ | value, after⟩ := result
  · exact Builder.Above.of_adds hadds hs
  · obtain ⟨more, hmore, hopen', hknown', hc'⟩ := hs.exists_added
    have hshort : state.Short → after.Short := fun hs => hs.of_advanced ha
    refine ⟨ho.composite, hs.significant, _, hadds.trans hmore, ?_, ?_, ?_⟩
    · rw [List.filterMap_append]
      exact (hopen.mono hshort).append hopen'
    · rw [List.filterMap_append, List.forall_mem_append]
      exact ⟨hknown, hknown'⟩
    · rw [List.forall_mem_append]
      exact ⟨fun child hm => (hc child hm).mono hshort, hc'⟩

theorem composite_within {outer : Builder} {frame : Frame} (h : outer.Composite)
    (hk : frame.kind ≠ .token) : (outer.within [frame]).Composite := by
  simp only [Builder.Composite, Builder.within, List.forall_mem_cons, List.singleton_append] at h ⊢
  exact ⟨h.1, hk, h.2⟩

instance (kind : NodeKind) (step : Parse Unit) [hk : Evaluates (isInner kind)]
    [hf : Keeps Orderly step] [∀ base, Settles base marks [] [] step] :
    Settles base marks stack stack (inNode kind step) := by
  constructor
  intro input state hm ho
  have hkeeps : Keeps Orderly (inNode kind step) := inferInstance
  have hkind := ne_token_of_isInner hk.eq_true
  have hcomposite := ho.self.composite
  let frame : Frame := { kind, anchor := state.ahead.headD input.endToken }
  have hopen := State.open_self { state with builder := state.builder.within [frame] }
    (composite_within hcomposite hkind) ho.significant
  exact ho.leavesOpen (hkeeps.keeps input state).advanced
    (leavesOpen_finishNode hkind hcomposite hm hopen)

instance (kind : NodeKind) [Evaluates (isInner kind)] :
    Settles base (.plain :: marks) stack stack (tokenNode kind) := by
  unfold tokenNode; infer_instance

/-- A node around what has been built since `base`. -/
instance (kind : NodeKind) (step : Parse Unit) [hk : Evaluates (isInner kind)]
    [Keeps Orderly step] [∀ base, Settles base marks stack [] step] :
    Settles base marks stack [] (aroundSince base.checkpoint kind step) := by
  constructor
  intro input state hm ho
  have hkeeps : Keeps Orderly (aroundSince base.checkpoint kind step) := inferInstance
  have hadvanced := (hkeeps.keeps input state).advanced
  obtain ⟨added, ha, hopen⟩ := ho.exists_added
  obtain ⟨outer, frame, hadds, hfk, hfc, hstart⟩ :=
    Builder.adds_startAt ha kind (state.ahead.headD input.endToken)
  have he : aroundSince base.checkpoint kind step input state =
      (step >>= fun _ => finishNode) input { state with builder := outer.within [frame] } := by
    rw [← hstart]
    rfl
  rw [he] at hadvanced ⊢
  have hkind : frame.kind ≠ .token := hfk ▸ ne_token_of_isInner hk.eq_true
  have hcomposite := hadds.composite ho.composite
  have hinner : (outer.within [{ frame with children := [] }]).Adds added
      (outer.within [frame]) := ⟨frame, rfl, rfl, hfc, rfl⟩
  have houter : State.Open base [] { state with builder := outer } :=
    ⟨ho.composite, ho.significant, [], hadds, leftOpen_of_settle? rfl, nofun, nofun⟩
  have hsince : Advanced input { state with builder := outer } ((step >>= fun _ => finishNode) input
      { state with builder := outer.within [frame] }).2 := ⟨hadvanced.suffix, hadvanced.errors_le⟩
  exact houter.leavesOpen hsince (leavesOpen_finishNode hkind hcomposite hm
    ⟨composite_within hcomposite hkind, ho.significant, added, hinner, hopen⟩)

/-- What is built behind a checkpoint is built since then. -/
instance (next : Checkpoint → Parse β) [hk : ∀ place, Keeps Orderly (next place)]
    [h : ∀ inner : Builder, Settles inner marks [] [] (next inner.checkpoint)] :
    Settles base marks stack stack (checkpoint >>= next) :=
  ⟨fun input state hm ho =>
    ho.leavesOpen ((hk state.builder.checkpoint).keeps input state).advanced
      ((h state.builder).settles input state hm ho.self)⟩

/-! ### Recovery -/

/-- Recovery takes back what a failed step has built and adds one error node at most. -/
instance (resume : Resume) (step : Parse Unit) [h : ∀ base, Settles base marks [] [] step]
    [hk : Keeps Orderly step] : Settles base marks stack stack (recovering resume step) := by
  constructor
  intro input state hm ho
  have hkeeps : Keeps Orderly (recovering resume step) := inferInstance
  refine ho.leavesOpen (hkeeps.keeps input state).advanced ?_
  have hself := ho.self
  have hs := (h state.builder).settles input state hm hself
  have hstep := hk.keeps input state
  unfold recovering
  split
  · next after he => rwa [he] at hs
  · next after he =>
    rw [he] at hs hstep
    obtain ⟨region, rest, builder, errors, heq, ht, hadds⟩ :=
      recover_adds resume hs hstep.conserved hself.composite
    have hrest : State.Significant ⟨rest, builder, errors⟩ :=
      fun token hm => ho.significant token (ht ▸ List.mem_append_right _ hm)
    rw [heq]
    rcases hadds with ⟨-, hadds⟩ | ⟨node, error, hn, hkind, -, hadds⟩
    · exact ⟨hself.composite, hrest, [], hadds, leftOpen_of_settle? rfl, nofun, nofun⟩
    · exact State.open_node hself.composite hrest hadds
        (Tree.token?_of_kind_ne (by rw [hkind]; decide)) (Tree.bracketed_errorNode? hn)

end

end JavaGraph.Parser
