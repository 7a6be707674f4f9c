import JavaGraph.Proofs.Parser.Progress
import JavaGraph.Proofs.Tree.Seated
/-!
# Steps that seat what they build

Every node is begun at the next token, and what is built in it are the tokens from there on. So a step
seats what it builds, unless it finishes a node behind an empty one. How what is built ends follows
from the way in which the step is put together, and instance search finds it.

A step may rely on there being some tokens ahead. A step that fails leaves nodes open, and recovery
makes one error node of all that was passed since it began.
-/

namespace JavaGraph.Parser

open Parse

set_option synthInstance.maxSize 8192
set_option autoImplicit false

/-! ### Endings -/

/-- How what is added by a step ends. -/
inductive Ending where
  /-- Something is added, and the last of it has tokens. -/
  | solid
  /-- Nothing is added, or the last of it has tokens. -/
  | same
  /-- The last of it may be empty. -/
  | loose
deriving DecidableEq

namespace Ending

/-- Whether some trees end in this way. -/
def Allows : Ending → List Tree → Prop
  | .solid, added => ∃ last ∈ added.getLast?, last.tokens ≠ []
  | .same, added => ∀ last ∈ added.getLast?, last.tokens ≠ []
  | .loose, _ => True

/-- What is added last decides, if there is any. -/
def comp (first : Ending) : Ending → Ending
  | .solid => .solid
  | .same => first
  | .loose => .loose

/-- One ending or another. -/
def join : Ending → Ending → Ending
  | .solid, .solid => .solid
  | .loose, _ => .loose
  | _, .loose => .loose
  | _, _ => .same

variable {a b before : Ending} {added more : List Tree}

theorem comp_assoc (a b c : Ending) : (a.comp b).comp c = a.comp (b.comp c) := by
  cases c <;> rfl

theorem same_comp (a : Ending) : Ending.same.comp a = a := by cases a <;> rfl

theorem comp_self (a b : Ending) : (a.comp b).comp b = a.comp b := by cases b <;> rfl

/-- What ends with tokens ends with nothing empty. -/
theorem Allows.same (h : Ending.solid.Allows added) : Ending.same.Allows added := by
  obtain ⟨last, hl, ht⟩ := h
  intro other ho
  exact Option.mem_unique hl ho ▸ ht

theorem Allows.of_solid (h : Ending.solid.Allows added) : a.Allows added := by
  cases a with
  | solid => exact h
  | same => exact h.same
  | loose => trivial

theorem Allows.comp_join_left (h : (before.comp a).Allows added) :
    (before.comp (a.join b)).Allows added := by
  cases a <;> cases b <;> first | exact h | exact h.of_solid | trivial

theorem Allows.comp_join_right (h : (before.comp b).Allows added) :
    (before.comp (a.join b)).Allows added := by
  cases a <;> cases b <;> first | exact h | exact h.of_solid | trivial

/-- One of two endings is allowed where either is. -/
theorem Allows.join_left (h : a.Allows added) : (a.join b).Allows added := by
  rw [← same_comp a] at h
  rw [← same_comp (a.join b)]
  exact h.comp_join_left

theorem Allows.join_right (h : b.Allows added) : (a.join b).Allows added := by
  rw [← same_comp b] at h
  rw [← same_comp (a.join b)]
  exact h.comp_join_right

/-- What comes last is added to what was there. -/
theorem Allows.append (h : a.Allows added) (h' : b.Allows more) :
    (a.comp b).Allows (added ++ more) := by
  cases b with
  | solid =>
    obtain ⟨last, hl, ht⟩ := h'
    exact ⟨last, by rw [List.getLast?_append, hl, Option.some_or]; rfl, ht⟩
  | same =>
    cases hl : more.getLast? with
    | none =>
      rw [List.getLast?_eq_none_iff.1 hl, List.append_nil]
      exact h
    | some last =>
      refine Allows.of_solid ⟨last, ?_, h' last hl⟩
      rw [List.getLast?_append, hl, Option.some_or]
      rfl
  | loose => trivial

theorem allows_nil : Ending.same.Allows [] := nofun

theorem allows_singleton {tree : Tree} (h : tree.tokens ≠ []) : Ending.solid.Allows [tree] :=
  ⟨tree, rfl, h⟩

theorem Allows.ne_nil (h : Ending.solid.Allows added) : added ≠ [] := by
  rintro rfl
  obtain ⟨last, hl, -⟩ := h
  cases hl

/-- Nothing empty is at the end. -/
class IsFirm (ending : Ending) : Prop where
  ne_loose : ending ≠ .loose

/-- Something with tokens is at the end. -/
class IsSolid (ending : Ending) : Prop where
  eq_solid : ending = .solid

instance : IsFirm .same := ⟨nofun⟩

instance : IsSolid .solid := ⟨rfl⟩

instance [h : IsSolid a] : IsFirm a := ⟨by rw [h.eq_solid]; nofun⟩

instance [ha : IsFirm a] [hb : IsFirm b] : IsFirm (a.comp b) := by
  have ha := ha.ne_loose
  have hb := hb.ne_loose
  cases b
  · exact ⟨nofun⟩
  · exact ⟨ha⟩
  · exact absurd rfl hb

instance [ha : IsFirm a] [hb : IsFirm b] : IsFirm (a.join b) := by
  have ha := ha.ne_loose
  have hb := hb.ne_loose
  constructor
  cases a <;> cases b <;> first | exact absurd rfl ha | exact absurd rfl hb | decide

instance [h : IsSolid b] : IsSolid (a.comp b) := ⟨by rw [h.eq_solid]; rfl⟩

instance [ha : IsSolid a] [hb : IsFirm b] : IsSolid (a.comp b) := by
  have ha := ha.eq_solid
  have hb := hb.ne_loose
  cases b
  · exact ⟨rfl⟩
  · exact ⟨ha⟩
  · exact absurd rfl hb

instance [ha : IsSolid a] [hb : IsSolid b] : IsSolid (a.join b) :=
  ⟨by rw [ha.eq_solid, hb.eq_solid]; rfl⟩

end Ending

/-! ### Seated children -/

/-- Since `base`, seated children have been added to the innermost node for the tokens passed of
those that were ahead then. -/
structure State.Sits (base : Builder) (start : List Token) (ending : Ending) (state : State) :
    Prop where
  composite : state.builder.Composite
  added : ∃ added, base.Adds added state.builder ∧ start = Tree.tokensOf added ++ state.ahead ∧
    Tree.SeatedAll state.ahead added ∧ ending.Allows added

/-- What a step that seats what it builds leaves. -/
def LeavesSeated {α : Type} (base : Builder) (start : List Token) (ending : Ending) :
    Option α × State → Prop
  | (some _, after) => after.Sits base start ending
  | (none, after) => base.Above after.builder

/-- A step that seats what it builds, if there are some tokens ahead. -/
class Seats {α : Type} (base : Builder) (known : Nat) (step : Parse α) (ending : outParam Ending) :
    Prop where
  seats : ∀ {start before} input state, known ≤ state.ahead.length → state.Sits base start before →
    LeavesSeated base start (before.comp ending) (step input state)

section

variable {α β : Type} {base : Builder} {start ahead : List Token} {known : Nat}
  {a b before ending : Ending} {step : Parse α} {input : Input} {state : State}

/-- Only what is ahead and what is built matters. -/
theorem State.Sits.of_eq {other : State} (h : state.Sits base start ending)
    (ha : other.ahead = state.ahead) (hb : other.builder = state.builder) :
    other.Sits base start ending := by
  obtain ⟨hc, added⟩ := h
  exact ⟨hb ▸ hc, by rwa [ha, hb]⟩

theorem State.Sits.mono (h : state.Sits base start a)
    (hle : ∀ added, a.Allows added → b.Allows added) : state.Sits base start b := by
  obtain ⟨hc, added, ha, ht, hs, hallows⟩ := h
  exact ⟨hc, added, ha, ht, hs, hle added hallows⟩

theorem LeavesSeated.mono {result : Option α × State} (h : LeavesSeated base start a result)
    (hle : ∀ added, a.Allows added → b.Allows added) : LeavesSeated base start b result := by
  match result, h with
  | (some _, after), h => exact State.Sits.mono h hle
  | (none, after), h => exact h

/-- A place at which nothing has been added yet. -/
theorem State.sits_self (hc : state.builder.Composite) :
    state.Sits state.builder state.ahead .same :=
  ⟨hc, [], Builder.adds_nil _, rfl, trivial, Ending.allows_nil⟩

theorem State.Sits.above (h : state.Sits base start ending) : base.Above state.builder := by
  obtain ⟨-, added, ha, -⟩ := h
  exact ha.above

/-- What is added is added to what was there. -/
theorem State.Sits.leaves {result : Option α × State} (h : state.Sits base start before)
    (h' : LeavesSeated state.builder state.ahead ending result) :
    LeavesSeated base start (before.comp ending) result := by
  obtain ⟨-, added, ha, ht, hs, hallows⟩ := h
  match result, h' with
  | (none, after), h' => exact .of_adds ha h'
  | (some _, after), ⟨hc, more, hm, ht', hs', hallows'⟩ =>
    refine ⟨hc, _, ha.trans hm, ?_, ?_, hallows.append hallows'⟩
    · rw [ht, ht', Tree.tokensOf_append, List.append_assoc]
    · rw [Tree.seatedAll_append, ← ht']
      exact ⟨hs, hs'⟩

/-! ### Steps that change nothing -/

/-- A step that succeeds and builds nothing. -/
theorem Seats.still (h : ∀ input state, ∃ value after, step input state = (some value, after) ∧
    after.ahead = state.ahead ∧ after.builder = state.builder) : Seats base known step .same := by
  constructor
  intro start before input state _ hs
  obtain ⟨value, after, he, ha, hb⟩ := h input state
  rw [he]
  exact hs.of_eq ha hb

instance (value : α) : Seats base known (pure value) .same :=
  .still fun _ _ => ⟨value, _, rfl, rfl, rfl⟩

instance (f : List Token → α) : Seats base known (look f) .same :=
  .still fun _ state => ⟨f state.ahead, _, rfl, rfl, rfl⟩

instance (kind : TokenKind) : Seats base known (isAt kind) .same := by
  unfold isAt; infer_instance

instance (n : Nat) (kind : TokenKind) : Seats base known (isAtNth n kind) .same := by
  unfold isAtNth; infer_instance

instance : Seats base known atEnd .same := by unfold atEnd; infer_instance

instance (what : String) : Seats base known (errorExpected what) .same :=
  .still fun _ _ => ⟨(), _, rfl, rfl, rfl⟩

instance : Seats base known (fail : Parse α) .solid := ⟨fun _ _ _ hs => hs.above⟩

/-! ### Steps put together -/

/-- What relies on no token may be done anywhere. -/
instance (priority := low) [h : Seats base 0 step a] : Seats base (known + 1) step a :=
  ⟨fun input state _ => h.seats input state (Nat.zero_le _)⟩

/-- A step where some tokens are ahead. -/
def SeatsFrom (base : Builder) (ahead : List Token) (step : Parse α) (ending : Ending) : Prop :=
  ∀ start before input state, state.ahead = ahead → state.Sits base start before →
    LeavesSeated base start (before.comp ending) (step input state)

theorem Seats.from (h : Seats base known step a) (hk : known ≤ ahead.length) :
    SeatsFrom base ahead step a := by
  rintro start before input state rfl hs
  exact h.seats input state hk hs

theorem SeatsFrom.bind {next : α → Parse β} (h : SeatsFrom base ahead step a)
    (hn : ∀ value, Seats base 0 (next value) b) : SeatsFrom base ahead (step >>= next) (a.comp b) := by
  intro start before input state ha hs
  have hstep := h start before input state ha hs
  rw [← Ending.comp_assoc]
  simp only [Bind.bind]
  split
  · next value middle he =>
    rw [he] at hstep
    exact (hn value).seats input middle (Nat.zero_le _) hstep
  · next after he =>
    rw [he] at hstep
    exact hstep

theorem Seats.bind {next : α → Parse β} (h : Seats base known step a)
    (hn : ∀ value, Seats base 0 (next value) b) : Seats base known (step >>= next) (a.comp b) :=
  ⟨fun input state hk hs => ((h.from hk).bind hn) _ _ input state rfl hs⟩

instance (step : Parse α) (next : α → Parse β) [h : Seats base known step a]
    [hn : ∀ value, Seats base 0 (next value) b] : Seats base known (step >>= next) (a.comp b) :=
  h.bind hn

/-- A step that may begin anywhere. -/
theorem seatsFrom [h : Seats base 0 step a] : SeatsFrom base ahead step a := h.from (Nat.zero_le _)

/-- There is a token where its kind was seen. -/
theorem lt_length_of_kindAt {n : Nat} (h : kindAt ahead n ≠ .eof) : n < ahead.length := by
  unfold kindAt at h
  split at h
  · next token ht => exact (List.getElem?_eq_some_iff.1 ht).1
  · exact absurd rfl h

theorem ne_eof_of_isProper {kind : TokenKind} {n : Nat} (hk : isProper kind = true)
    (h : (kindAt ahead n == kind) = true) : kindAt ahead n ≠ .eof := by
  rw [eq_of_beq h]
  rintro rfl
  cases hk

/-- A step that was chosen for the next token. -/
theorem seatsFrom_one [h : Seats base 1 step a] (hk : kindAt ahead 0 ≠ .eof) :
    SeatsFrom base ahead step a := h.from (lt_length_of_kindAt hk)

/-- A step that was chosen for the next two tokens. -/
theorem seatsFrom_two [h : Seats base 2 step a] (hk : kindAt ahead 1 ≠ .eof) :
    SeatsFrom base ahead step a := h.from (lt_length_of_kindAt hk)

theorem SeatsFrom.mono (h : SeatsFrom base ahead step a)
    (hle : ∀ before added, (Ending.comp before a).Allows added → (before.comp b).Allows added) :
    SeatsFrom base ahead step b := by
  intro start before input state ha hs
  exact (h start before input state ha hs).mono (hle before)

theorem SeatsFrom.join_left (h : SeatsFrom base ahead step a) :
    SeatsFrom base ahead step (a.join b) := h.mono fun _ _ => Ending.Allows.comp_join_left

theorem SeatsFrom.join_right (h : SeatsFrom base ahead step b) :
    SeatsFrom base ahead step (a.join b) := h.mono fun _ _ => Ending.Allows.comp_join_right

/-- A step that adds something may be one that adds nothing. -/
theorem Seats.same (h : Seats base known step .solid) : Seats base known step .same :=
  ⟨fun input state hk hs => (h.seats input state hk hs).mono fun _ => Ending.Allows.of_solid⟩

/-- A step behind a look ahead begins where the look was taken. -/
theorem Seats.look {f : List Token → α} {next : α → Parse β}
    (h : ∀ ahead, known ≤ ahead.length → SeatsFrom base ahead (next (f ahead)) a) :
    Seats base known (Parse.look f >>= next) a :=
  ⟨fun input state hk hs => h state.ahead hk _ _ input state rfl hs⟩

instance (f : List Token → α) (next : α → Parse β) [h : ∀ value, Seats base known (next value) a] :
    Seats base known (look f >>= next) a := .look fun ahead hk => (h (f ahead)).from hk

instance (kind : TokenKind) (next : Bool → Parse β) [∀ value, Seats base known (next value) a] :
    Seats base known (isAt kind >>= next) a := by unfold isAt; infer_instance

instance (n : Nat) (kind : TokenKind) (next : Bool → Parse β)
    [∀ value, Seats base known (next value) a] :
    Seats base known (isAtNth n kind >>= next) a := by unfold isAtNth; infer_instance

/-- A step chosen by the tokens ahead. -/
theorem Seats.onAhead {f : List Token → Parse α}
    (h : ∀ ahead, known ≤ ahead.length → SeatsFrom base ahead (f ahead) a) :
    Seats base known (Parse.onAhead f) a :=
  ⟨fun input state hk hs => h state.ahead hk _ _ input state rfl hs⟩

instance (f : List Token → Parse α) [h : ∀ ahead, Seats base known (f ahead) a] :
    Seats base known (onAhead f) a := .onAhead fun ahead hk => (h ahead).from hk

instance (condition : Prop) [Decidable condition] (yes no : Parse α) [hy : Seats base known yes a]
    [hn : Seats base known no b] : Seats base known (if condition then yes else no) (a.join b) := by
  constructor
  intro start before input state hk
  have hy : SeatsFrom base state.ahead yes (a.join b) := (hy.from hk).join_left
  have hn : SeatsFrom base state.ahead no (a.join b) := (hn.from hk).join_right
  split
  · exact hy start before input state rfl
  · exact hn start before input state rfl

/-- A step for which the next token has been looked at. -/
instance (kind : TokenKind) (yes no : Parse α) [hk : Evaluates (isProper kind)]
    [Seats base 1 yes a] [hn : Seats base known no b] :
    Seats base known (isAt kind >>= fun here => if here = true then yes else no) (a.join b) := by
  refine .look fun ahead hahead => ?_
  split
  · next h => exact (seatsFrom_one (ne_eof_of_isProper hk.eq_true h)).join_left
  · exact (hn.from hahead).join_right

/-- A step for which the next two tokens have been looked at. -/
instance (kind kind' : TokenKind) (yes no : Parse α) [hk : Evaluates (isProper kind')]
    [Seats base 2 yes a] [hn : Seats base known no b] :
    Seats base known (isAt kind >>= fun here => isAtNth 1 kind' >>= fun next =>
      if (here && next) = true then yes else no) (a.join b) := by
  refine .look fun ahead hahead => ?_
  rintro start before input state rfl
  have hyes (h : (kindAt state.ahead 1 == kind') = true) :
      SeatsFrom base state.ahead yes (a.join b) :=
    (seatsFrom_two (ne_eof_of_isProper hk.eq_true h)).join_left
  have hno : SeatsFrom base state.ahead no (a.join b) := (hn.from hahead).join_right
  change state.Sits base start before → LeavesSeated base start _
    ((if (kindAt state.ahead 0 == kind && kindAt state.ahead 1 == kind') = true then yes else no)
      input state)
  split
  · next h => exact hyes ((Bool.and_eq_true ..).mp h).2 start before input state rfl
  · exact hno start before input state rfl

/-- A step for which the next token is one of two. -/
instance (kind kind' : TokenKind) (yes no : Parse α) [hk : Evaluates (isProper kind)]
    [hk' : Evaluates (isProper kind')] [Seats base 1 yes a] [hn : Seats base known no b] :
    Seats base known (isAt kind >>= fun here => isAt kind' >>= fun there =>
      if (here || there) = true then yes else no) (a.join b) := by
  refine .look fun ahead hahead => ?_
  rintro start before input state rfl
  have hyes (h : kindAt state.ahead 0 ≠ .eof) : SeatsFrom base state.ahead yes (a.join b) :=
    (seatsFrom_one h).join_left
  have hno : SeatsFrom base state.ahead no (a.join b) := (hn.from hahead).join_right
  change state.Sits base start before → LeavesSeated base start _
    ((if (kindAt state.ahead 0 == kind || kindAt state.ahead 0 == kind') = true then yes else no)
      input state)
  split
  · next h =>
    rcases Bool.or_eq_true_iff.1 h with h | h
    · exact hyes (ne_eof_of_isProper hk.eq_true h) start before input state rfl
    · exact hyes (ne_eof_of_isProper hk'.eq_true h) start before input state rfl
  · exact hno start before input state rfl

instance (f : α → β) (step : Parse α) [h : Seats base known step a] :
    Seats base known (f <$> step) a :=
  h.bind (b := .same) fun value => inferInstanceAs (Seats base 0 (pure (f value)) .same)

instance (step : Parse α) [h : Seats base known step a] : Seats base known (discard step) a :=
  h.bind (b := .same) fun _ => inferInstanceAs (Seats base 0 (pure PUnit.unit) .same)

/-- Rounds behind a first one end as that one does. -/
theorem Seats.loopsAtMost {step : Parse Bool} (h : Seats base 0 step a) (rounds : Nat)
    (input : Input) {state : State} (hs : state.Sits base start (before.comp a)) :
    LeavesSeated base start (before.comp a) (loopAtMost rounds step input state) := by
  induction rounds generalizing state with
  | zero => exact hs
  | succ rounds ih =>
    have hstep := h.seats input state (Nat.zero_le _) hs
    rw [Ending.comp_self] at hstep
    unfold loopAtMost
    simp only [Bind.bind]
    split
    · next value middle he =>
      rw [he] at hstep
      cases value with
      | false => exact hstep
      | true => exact ih hstep
    · next after he =>
      rw [he] at hstep
      exact hstep

/-- A loop has a first round. -/
instance (step : Parse Bool) [h : Seats base 0 step a] : Seats base known (loop step) a := by
  constructor
  intro start before input state _ hs
  have hstep := h.seats input state (Nat.zero_le _) hs
  change LeavesSeated base start _ (loopAtMost (state.ahead.length + 1) step input state)
  unfold loopAtMost
  simp only [Bind.bind]
  split
  · next value middle he =>
    rw [he] at hstep
    cases value with
    | false => exact hstep
    | true => exact h.loopsAtMost _ input hstep
  · next after he =>
    rw [he] at hstep
    exact hstep

instance (kind : TokenKind) (step : Parse Unit) [Evaluates (isProper kind)]
    [Seats base 1 step a] : Seats base known (whileAt kind step) ((a.comp .same).join .same) := by
  unfold whileAt; infer_instance

/-- A loop whose first round adds something adds something. -/
theorem SeatsFrom.loop {step : Parse Bool} (hfirst : SeatsFrom base ahead step .solid)
    [h : Seats base 0 step a] [hfirm : a.IsFirm] : SeatsFrom base ahead (loop step) .solid := by
  rintro start before input state rfl hs
  have hstep := hfirst start before input state rfl hs
  have hsolid : Ending.solid.comp a = .solid := (inferInstance : (Ending.solid.comp a).IsSolid).eq_solid
  change LeavesSeated base start .solid (loopAtMost (state.ahead.length + 1) step input state)
  unfold loopAtMost
  simp only [Bind.bind]
  split
  · next value middle he =>
    rw [he] at hstep
    cases value with
    | false => exact hstep
    | true =>
      have hround : middle.Sits base start (Ending.solid.comp a) := by
        rw [hsolid]
        exact hstep
      have hrest := h.loopsAtMost state.ahead.length input hround
      rwa [hsolid] at hrest
  · next after he =>
    rw [he] at hstep
    exact hstep

/-- A step is repeated at least once where there is a token of the kind. -/
theorem seatsFrom_whileAt {kind : TokenKind} {step : Parse Unit} [hk : Evaluates (isProper kind)]
    [Seats base 1 step .solid] (h : (kindAt ahead 0 == kind) = true) :
    SeatsFrom base ahead (whileAt kind step) .solid := by
  unfold whileAt
  refine SeatsFrom.loop ?_
  rintro start before input state rfl hs
  have hround : SeatsFrom base state.ahead (step >>= fun _ => pure true) .solid :=
    SeatsFrom.bind (b := .same) (seatsFrom_one (ne_eof_of_isProper hk.eq_true h)) fun _ =>
      inferInstance
  have hat : isAt kind input state = (some true, state) := by simp [isAt, look, h]
  rw [bind_of_some hat]
  exact hround start before input state rfl hs

/-! ### Tokens -/

/-- A token that is passed. -/
theorem State.Sits.token {token : Token} {builder : Builder} {errors : List ParseError}
    (h : State.Sits base start before ⟨token :: ahead, builder, errors⟩) :
    State.Sits base start .solid ⟨ahead, builder.token token, errors⟩ := by
  have htokens : (Tree.leaf token).tokens ≠ [] := by
    rw [Tree.tokens_leaf]
    exact List.cons_ne_nil token []
  have hc : (builder.token token).Composite := Builder.composite_push h.composite _
  have hleaf : LeavesSeated builder (token :: ahead) .solid
      (some (), ⟨ahead, builder.token token, errors⟩) := by
    refine ⟨hc, _, Builder.adds_push builder (.leaf token), ?_, ?_, Ending.allows_singleton htokens⟩
    · simp [Tree.tokensOf]
    · exact ⟨Tree.seated_leaf token, trivial⟩
  exact h.leaves hleaf

/-- One token less is known to be ahead behind a token. -/
instance (next : Unit → Parse β) [hn : ∀ value, Seats base known (next value) a] :
    Seats base (known + 1) (bump >>= next) (.comp .solid a) := by
  constructor
  intro start before input state hk hs
  obtain ⟨ahead, builder, errors⟩ := state
  cases ahead with
  | nil => cases hk
  | cons token ahead =>
    rw [← Ending.comp_assoc]
    exact (hn ()).seats input _ (Nat.le_of_succ_le_succ hk) hs.token

instance : Seats base (known + 1) bump .solid := by
  rw [← bind_pure bump]
  infer_instance

instance : Seats base 0 bump .same := by
  constructor
  intro start before input state _ hs
  obtain ⟨ahead, builder, errors⟩ := state
  cases ahead with
  | nil => exact hs
  | cons token ahead => exact hs.token.mono fun _ => Ending.Allows.of_solid

instance seats_bumpMany (count : Nat) : Seats base 0 (bumpMany count) .same := by
  induction count with
  | zero => unfold bumpMany; infer_instance
  | succ count ih => unfold bumpMany; infer_instance

instance (count : Nat) : Seats base (known + 1) (bumpMany (count + 1)) .solid := by
  have h : Seats base known (bumpMany count) .same :=
    ⟨fun input state _ => (seats_bumpMany count).seats input state (Nat.zero_le _)⟩
  unfold bumpMany
  infer_instance

instance (kind : TokenKind) [Evaluates (isProper kind)] : Seats base known (eat kind) .same := by
  unfold eat; infer_instance

/-- A step behind a token that has been passed or is not there. -/
instance (kind : TokenKind) (yes no : Parse α) [Evaluates (isProper kind)] [Seats base 0 yes a]
    [Seats base known no b] :
    Seats base known (eat kind >>= fun here => if here = true then yes else no)
      ((Ending.comp .solid a).join b) := by
  have h : (eat kind >>= fun here => if here = true then yes else no) =
      isAt kind >>= fun here => if here = true then bump >>= fun _ => yes else no := by
    unfold eat
    rw [bind_assoc]
    congr 1
    funext here
    cases here <;> simp
  rw [h]
  infer_instance

instance (item : Parse Unit) [Seats base 0 item a] : Seats base known (commaSeparated item) a := by
  have h : Seats base 0 (item >>= fun _ => eat .comma) a :=
    Seats.bind (b := .same) inferInstance fun _ => inferInstance
  unfold commaSeparated
  infer_instance

instance (kind : TokenKind) (what : String) [Evaluates (isProper kind)] :
    Seats base known (expect kind what) .solid := by unfold expect; infer_instance

instance : Seats base known expectIdent .solid := by unfold expectIdent; infer_instance

instance : Seats base known expectClosingBrace .same := by
  unfold expectClosingBrace; infer_instance

/-! ### Nodes -/

/-- A step within a node that has some children already adds this node. -/
theorem leavesSeated_finishNode {outer : Builder} {frame : Frame} {errors : List ParseError}
    {step : Parse Unit} (h : ∀ base, SeatsFrom base ahead step a) (hk : frame.kind ≠ .token)
    (hs : State.Sits (outer.within [{ frame with children := [] }]) start before
      ⟨ahead, outer.within [frame], errors⟩)
    (hsolid : before.comp a = .solid ∧ ending = .solid ∨ before.comp a = .same ∧ ending = .loose ∧
      frame.kind.mayBeEmpty = true ∧ ∀ next ∈ start.head?, frame.anchor = next) :
    LeavesSeated outer start ending
      ((step >>= fun _ => finishNode) input ⟨ahead, outer.within [frame], errors⟩) := by
  have hstep := h _ _ _ input _ rfl hs
  simp only [Bind.bind]
  generalize step input ⟨ahead, outer.within [frame], errors⟩ = result at hstep
  match result, hstep with
  | (none, after), hstep => exact hstep.of_within
  | (some _, after), ⟨hcomposite, added, ha, ht, hseated, hallows⟩ =>
    obtain ⟨done, hdk, hda, hdc, hd⟩ := Builder.adds_finishNode_anchor ha
    have hdc : done.children = added := hdc
    have hdone : done.kind ≠ .token := hdk ▸ hk
    have htokens : done.toTree.tokens = Tree.tokensOf added := by
      rw [Frame.toTree, Tree.tokens, if_neg hdone, hdc]
    have hnode : done.toTree.Seated after.ahead ∧ ending.Allows [done.toTree] := by
      rcases hsolid with ⟨hsolid, rfl⟩ | ⟨hsame, rfl, hmay, hanchor⟩
      · rw [hsolid] at hallows
        refine ⟨(Tree.seated_node hdone).2 ⟨fun hnil => ?_, ?_, ?_⟩, Ending.allows_singleton ?_⟩
        · exact absurd (hdc.symm.trans hnil) hallows.ne_nil
        · exact hdc ▸ hallows.same
        · exact hdc ▸ hseated
        · rw [htokens]
          exact Tree.tokensOf_ne_nil hallows.ne_nil hallows.same
      · rw [hsame] at hallows
        refine ⟨(Tree.seated_node hdone).2 ⟨fun hnil => ?_, ?_, ?_⟩, trivial⟩
        · -- Nothing was passed, so the node stands before the token that it was begun at.
          rw [← hdc, hnil, Tree.tokensOf, List.nil_append] at ht
          refine ⟨hdk ▸ hmay, ?_⟩
          rw [← ht, hda]
          exact hanchor
        · exact hdc ▸ hallows
        · exact hdc ▸ hseated
    refine ⟨Builder.composite_finishNode hcomposite, [done.toTree], hd, ?_, ⟨hnode.1, trivial⟩,
      hnode.2⟩
    rw [Tree.tokensOf, Tree.tokensOf, List.append_nil, htokens]
    exact ht

/-- A node that has just been begun. -/
theorem State.sits_within {kind : NodeKind} (hc : state.builder.Composite) (hk : kind ≠ .token)
    (anchor : Token) : State.Sits (state.builder.within [{ kind, anchor }]) state.ahead .same
      ⟨state.ahead, state.builder.within [{ kind, anchor }], state.errors⟩ :=
  ⟨Builder.composite_start hc hk anchor, [], Builder.adds_nil _, rfl, trivial, Ending.allows_nil⟩

instance (kind : NodeKind) (step : Parse Unit) [hk : Evaluates (isInner kind)]
    [h : ∀ base, Seats base known step a] [hsolid : a.IsSolid] :
    Seats base known (inNode kind step) .solid := by
  constructor
  intro start before input state hknown hs
  have hkind := ne_token_of_isInner hk.eq_true
  refine hs.leaves (leavesSeated_finishNode (fun base => (h base).from hknown) hkind
    (State.sits_within hs.composite hkind (state.ahead.headD input.endToken)) (.inl ⟨?_, rfl⟩))
  rw [hsolid.eq_solid]
  rfl

/-- A node that may be empty stands before the token that it was begun at. -/
instance (priority := low) (kind : NodeKind) (step : Parse Unit) [hk : Evaluates (isInner kind)]
    [hmay : Evaluates kind.mayBeEmpty] [h : ∀ base, Seats base known step a] [hfirm : a.IsFirm] :
    Seats base known (inNode kind step) .loose := by
  constructor
  intro start before input state hknown hs
  have hkind := ne_token_of_isInner hk.eq_true
  have hfirm := hfirm.ne_loose
  have hanchor : ∀ next ∈ state.ahead.head?,
      state.ahead.headD input.endToken = next := by
    intro next hn
    rw [List.headD_eq_head?_getD, hn, Option.getD_some]
  have hwithin := State.sits_within hs.composite hkind (state.ahead.headD input.endToken)
  have hfrom (base : Builder) : SeatsFrom base state.ahead step a := (h base).from hknown
  refine hs.leaves ?_
  cases a with
  | solid =>
    have hnode : LeavesSeated state.builder state.ahead .solid (inNode kind step input state) :=
      leavesSeated_finishNode hfrom hkind hwithin (.inl ⟨rfl, rfl⟩)
    exact hnode.mono fun _ _ => trivial
  | same =>
    exact leavesSeated_finishNode hfrom hkind hwithin (.inr ⟨rfl, rfl, hmay.eq_true, hanchor⟩)
  | loose => exact absurd rfl hfirm

instance (kind : NodeKind) [Evaluates (isInner kind)] :
    Seats base (known + 1) (tokenNode kind) .solid := by unfold tokenNode; infer_instance

/-- A node around what has been built since `base`, where some tokens are ahead. -/
theorem SeatsFrom.around {kind : NodeKind} {step : Parse Unit} (hk : isInner kind = true)
    (h : ∀ base, SeatsFrom base ahead step .solid) :
    SeatsFrom base ahead (aroundSince base.checkpoint kind step) .solid := by
  rintro start before input state rfl ⟨hc, added, ha, ht, hseated, hallows⟩
  have hkind := ne_token_of_isInner hk
  obtain ⟨outer, frame, ho, hfk, hfc, hstart⟩ :=
    Builder.adds_startAt ha kind (state.ahead.headD input.endToken)
  have hcomposite := Builder.composite_startAt hc hkind base.checkpoint
    (state.ahead.headD input.endToken)
  rw [hstart] at hcomposite
  have hinner : (outer.within [{ frame with children := [] }]).Adds added
      (outer.within [frame]) := ⟨frame, rfl, rfl, hfc, rfl⟩
  have hframe : State.Sits (outer.within [{ frame with children := [] }]) start before
      ⟨state.ahead, outer.within [frame], state.errors⟩ :=
    ⟨hcomposite, added, hinner, ht, hseated, hallows⟩
  have houter : State.Sits base start .same ⟨start, outer, state.errors⟩ :=
    ⟨Builder.composite_of_within hcomposite, [], ho, rfl, trivial, Ending.allows_nil⟩
  change LeavesSeated base start (Ending.comp .same .solid) ((step >>= fun _ => finishNode) input
    { state with
      builder := state.builder.startAt base.checkpoint kind (state.ahead.headD input.endToken) })
  rw [hstart]
  exact houter.leaves (leavesSeated_finishNode h (hfk ▸ hkind) hframe (.inl ⟨rfl, rfl⟩))

instance (kind : NodeKind) (step : Parse Unit) [hk : Evaluates (isInner kind)]
    [h : ∀ base, Seats base known step a] [hsolid : a.IsSolid] :
    Seats base known (aroundSince base.checkpoint kind step) .solid := by
  constructor
  intro start before input state hknown hs
  have h := hsolid.eq_solid ▸ h
  exact SeatsFrom.around hk.eq_true (fun base => (h base).from hknown) _ _ input state rfl hs

/-- What is built behind a checkpoint is built since then. -/
instance (next : Checkpoint → Parse β)
    [h : ∀ inner : Builder, Seats inner known (next inner.checkpoint) a] :
    Seats base known (checkpoint >>= next) a :=
  ⟨fun input state hk hs => hs.leaves (by
    have hself := (h state.builder).seats input state hk (State.sits_self hs.composite)
    rw [Ending.same_comp] at hself
    exact hself)⟩

/-! ### Recovery -/

/-- All that was passed by a failed step, and what is skipped, becomes an error node. -/
instance (resume : Resume) (step : Parse Unit) [h : ∀ base, Seats base known step a]
    [hk : Keeps Conserved step] : Seats base known (recovering resume step) (a.join .same) := by
  constructor
  intro start before input state hknown hs
  have hself := State.sits_self hs.composite
  have hstep := (h state.builder).seats input state hknown hself
  have hkept := hk.keeps input state
  rw [Ending.same_comp] at hstep
  refine hs.leaves ?_
  unfold recovering
  split
  · next after he =>
    rw [he] at hstep
    exact hstep.mono fun _ => Ending.Allows.join_left
  · next after he =>
    rw [he] at hstep hkept
    obtain ⟨region, rest, builder, errors, heq, ht, hadds⟩ :=
      recover_adds resume hstep hkept hs.composite
    rw [heq]
    rcases hadds with ⟨rfl, hadds⟩ | ⟨node, error, hn, -, htokens, hadds⟩
    · exact ⟨hadds.composite hs.composite, [], hadds, ht, trivial, Ending.allows_nil.join_right⟩
    · have hseated : node.Seated rest := Tree.seated_errorNode? hn
      have hnode : node.tokens ≠ [] := by
        rw [htokens]
        rintro rfl
        cases hn
      refine ⟨hadds.composite hs.composite, [node], hadds, ?_, ⟨hseated, trivial⟩,
        (Ending.allows_singleton hnode).same.join_right⟩
      rw [Tree.tokensOf, Tree.tokensOf, List.append_nil, htokens]
      exact ht

end

end JavaGraph.Parser
