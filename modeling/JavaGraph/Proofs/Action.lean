import JavaGraph.Action
/-!
# What actions keep

An action keeps a relation between states if the state that it begins in is always so related to
the one that it leaves, whether it succeeds or fails. The instances of `Keeps` follow the ways in
which actions are put together; a relation that is reflexive and transitive passes through all of
them.
-/

namespace JavaGraph.Action

/-- A relation between states that actions in sequence can keep. -/
class Guarantee {σ : Type} (R : σ → σ → Prop) : Prop where
  refl : ∀ state, R state state
  trans : ∀ {a b c}, R a b → R b c → R a c

/-- Actions in sequence can leave the state as it is. -/
instance {σ : Type} : Guarantee fun a b : σ => b = a where
  refl _ := rfl
  trans h h' := h'.trans h

/-- An action that keeps a relation. -/
class Keeps {ε σ α : Type} (R : σ → σ → Prop) (action : Action ε σ α) : Prop where
  keeps : ∀ state, R state (action state).2

variable {ε δ σ τ α β : Type} {R : σ → σ → Prop} [Guarantee R]

omit [Guarantee R] in
/-- What an action keeps holds between the states before and after each of its runs. -/
theorem Keeps.of_run {action : Action ε σ α} (h : Keeps R action) {state after : σ}
    {result : Except ε α} (hr : action state = (result, after)) : R state after := by
  have hkept := h.keeps state
  rw [hr] at hkept
  exact hkept

/-! ### Actions that change nothing -/

instance (value : α) : Keeps R (pure value : Action ε σ α) := ⟨fun state => Guarantee.refl state⟩

instance (e : ε) : Keeps R (fail e : Action ε σ α) := ⟨fun state => Guarantee.refl state⟩

instance (f : σ → α) : Keeps R (read f : Action ε σ α) := ⟨fun state => Guarantee.refl state⟩

instance (f : σ → Except ε α) : Keeps R (check f) := ⟨fun state => Guarantee.refl state⟩

/-! ### Actions put together -/

/-- Actions in sequence keep what each of them keeps. -/
theorem Keeps.bind {action : Action ε σ α} {next : α → Action ε σ β} (h : Keeps R action)
    (hn : ∀ value, Keeps R (next value)) : Keeps R (action >>= next) := by
  constructor
  intro state
  have ha := h.keeps state
  simp only [Bind.bind]
  split
  · next value middle he =>
    rw [he] at ha
    exact Guarantee.trans ha ((hn value).keeps middle)
  · next e middle he =>
    rw [he] at ha
    exact ha

instance (action : Action ε σ α) (next : α → Action ε σ β) [h : Keeps R action]
    [hn : ∀ value, Keeps R (next value)] : Keeps R (action >>= next) :=
  h.bind hn

instance (f : α → β) (action : Action ε σ α) [Keeps R action] : Keeps R (f <$> action) :=
  inferInstanceAs (Keeps R (action >>= fun value => pure (f value)))

instance (action : Action ε σ α) [Keeps R action] : Keeps R (discard action) :=
  inferInstanceAs (Keeps R (action >>= fun _ => pure PUnit.unit))

instance (condition : Prop) [Decidable condition] (yes no : Action ε σ α) [hy : Keeps R yes]
    [hn : Keeps R no] : Keeps R (if condition then yes else no) := by
  split
  · exact hy
  · exact hn

omit [Guarantee R] in
instance (action : Action ε σ α) [h : Keeps R action] :
    Keeps R (attempt action : Action δ σ (Except ε α)) :=
  ⟨fun state => h.keeps state⟩

omit [Guarantee R] in
instance (f : ε → δ) (action : Action ε σ α) [h : Keeps R action] : Keeps R (mapError f action) :=
  ⟨fun state => h.keeps state⟩

instance keeps_forEach (items : List β) (f : β → Action ε σ Unit) [∀ item, Keeps R (f item)] :
    Keeps R (forEach items f) := by
  induction items with
  | nil => unfold forEach; infer_instance
  | cons item rest ih => unfold forEach; infer_instance

instance keeps_mapEach (items : List β) (f : β → Action ε σ α) [∀ item, Keeps R (f item)] :
    Keeps R (mapEach items f) := by
  induction items with
  | nil => unfold mapEach; infer_instance
  | cons item rest ih => unfold mapEach; infer_instance

instance keeps_collect (items : List β) (f : β → Action ε σ (Option α))
    [∀ item, Keeps R (f item)] : Keeps R (collect items f) := by
  induction items with
  | nil => unfold collect; infer_instance
  | cons item rest ih => unfold collect; infer_instance

/-- A result that is there is no failure. -/
theorem ok_of_toOption {result : Except ε α} {value : α} (h : result.toOption = some value) :
    result = .ok value := by
  cases result with
  | error e => cases h
  | ok other => exact congrArg Except.ok (Option.some.inj h)

end JavaGraph.Action

/-!
## Actions that do not look at something

Something may be forgotten of a state. An action that does not look at it gives the same if it is
forgotten before the action or behind it. Two actions may differ in that only one of them makes what is
forgotten.
-/

namespace JavaGraph.Action

variable {ε δ σ τ α β : Type} {φ : σ → σ}

/-- From a state, an action gives the same if something is forgotten before it or behind it. -/
def CommutesAt (φ : σ → σ) (action : Action ε σ α) (state : σ) : Prop :=
  action (φ state) = ((action state).1, φ (action state).2)

/-- It does not matter whether something is forgotten before an action or behind it. -/
class Commutes (φ : σ → σ) (action : Action ε σ α) : Prop where
  commutes : ∀ state, CommutesAt φ action state

instance (value : α) : Commutes φ (pure value : Action ε σ α) := ⟨fun _ => rfl⟩

instance (e : ε) : Commutes φ (fail e : Action ε σ α) := ⟨fun _ => rfl⟩

/-- Actions in sequence; only the first one may depend on the state. -/
theorem CommutesAt.bind {action : Action ε σ α} {next : α → Action ε σ β} {state : σ}
    (h : CommutesAt φ action state) (hn : ∀ value, Commutes φ (next value)) :
    CommutesAt φ (action >>= next) state := by
  unfold CommutesAt at h ⊢
  simp only [Bind.bind, h]
  cases action state with
  | mk result middle =>
    cases result with
    | ok value => exact (hn value).commutes middle
    | error e => rfl

/-- Failures are results as well. -/
theorem CommutesAt.attempt {action : Action ε σ α} {state : σ}
    (h : CommutesAt φ action state) : CommutesAt φ (action.attempt : Action δ σ _) state := by
  unfold CommutesAt at h ⊢
  simp only [Action.attempt, h]

/-- Actions in sequence that do not look at something. -/
theorem Commutes.bind {action : Action ε σ α} {next : α → Action ε σ β} (h : Commutes φ action)
    (hn : ∀ value, Commutes φ (next value)) : Commutes φ (action >>= next) :=
  ⟨fun state => (h.commutes state).bind hn⟩

instance (action : Action ε σ α) (next : α → Action ε σ β) [h : Commutes φ action]
    [hn : ∀ value, Commutes φ (next value)] : Commutes φ (action >>= next) :=
  h.bind hn

instance (action : Action ε σ α) [Commutes φ action] : Commutes φ (discard action) :=
  inferInstanceAs (Commutes φ (action >>= fun _ => pure PUnit.unit))

instance commutes_forEach (items : List β) (f : β → Action ε σ Unit)
    [∀ item, Commutes φ (f item)] : Commutes φ (forEach items f) := by
  induction items with
  | nil => unfold forEach; infer_instance
  | cons item rest ih => unfold forEach; infer_instance

instance (f : α → β) (action : Action ε σ α) [Commutes φ action] : Commutes φ (f <$> action) :=
  inferInstanceAs (Commutes φ (action >>= fun value => pure (f value)))

instance (condition : Prop) [Decidable condition] (yes no : Action ε σ α) [hy : Commutes φ yes]
    [hn : Commutes φ no] : Commutes φ (if condition then yes else no) := by
  split
  · exact hy
  · exact hn

instance (action : Action ε σ α) [h : Commutes φ action] :
    Commutes φ (action.attempt : Action δ σ (Except ε α)) :=
  ⟨fun state => (h.commutes state).attempt⟩

instance commutes_mapEach (items : List β) (f : β → Action ε σ α) [∀ item, Commutes φ (f item)] :
    Commutes φ (mapEach items f) := by
  induction items with
  | nil => unfold mapEach; infer_instance
  | cons item rest ih => unfold mapEach; infer_instance

instance commutes_collect (items : List β) (f : β → Action ε σ (Option α))
    [∀ item, Commutes φ (f item)] : Commutes φ (collect items f) := by
  induction items with
  | nil => unfold collect; infer_instance
  | cons item rest ih => unfold collect; infer_instance

/-- Something is read off the state that is not forgotten. -/
theorem commutes_read {f : σ → α} (h : ∀ state, f (φ state) = f state) :
    Commutes φ (read f : Action ε σ α) :=
  ⟨fun state => by simp only [CommutesAt, read, h]⟩

/-- Something is looked up in the state that is not forgotten. -/
theorem commutes_check {f : σ → Except ε α} (h : ∀ state, f (φ state) = f state) :
    Commutes φ (check f) :=
  ⟨fun state => by simp only [CommutesAt, check, h]⟩

/-- Something changes that is not forgotten. -/
theorem commutes_change {f : σ → σ} (h : ∀ state, f (φ state) = φ (f state)) :
    Commutes φ (change f : Action ε σ Unit) :=
  ⟨fun state => by simp only [CommutesAt, change, h]⟩

/-- Something changes that is not forgotten, unless that is a failure. -/
theorem commutes_tryChange {f : σ → Except ε σ} (h : ∀ state, f (φ state) = (f state).map φ) :
    Commutes φ (tryChange f) := by
  constructor
  intro state
  unfold CommutesAt tryChange
  rw [h]
  cases f state <;> rfl

/-! ### Pairs of actions -/

/-- From a state, an action gives what another one gives if something is forgotten before it, and leaves
the same but for that. -/
def MirrorsAt (φ : σ → σ) (action other : Action ε σ α) (state : σ) : Prop :=
  other (φ state) = ((action state).1, φ (action state).2)

/-- An action gives from every state what another one gives if something is forgotten. -/
def Mirrors (φ : σ → σ) (action other : Action ε σ α) : Prop :=
  ∀ state, MirrorsAt φ action other state

/-- An action that does not look at something mirrors itself. -/
theorem Mirrors.of_commutes (action : Action ε σ α) [h : Commutes φ action] :
    Mirrors φ action action := h.commutes

/-- Actions in sequence. -/
theorem MirrorsAt.bind {action other : Action ε σ α} {next next' : α → Action ε σ β} {state : σ}
    (h : MirrorsAt φ action other state)
    (hn : ∀ {value after}, action state = (.ok value, after) →
      MirrorsAt φ (next value) (next' value) after) :
    MirrorsAt φ (action >>= next) (other >>= next') state := by
  unfold MirrorsAt at h ⊢
  simp only [Bind.bind, h]
  cases hr : action state with
  | mk result after =>
    cases result with
    | ok value => exact hn hr
    | error e => rfl

/-- Actions in sequence. -/
theorem Mirrors.bind {action other : Action ε σ α} {next next' : α → Action ε σ β}
    (h : Mirrors φ action other) (hn : ∀ value, Mirrors φ (next value) (next' value)) :
    Mirrors φ (action >>= next) (other >>= next') :=
  fun state => (h state).bind fun {value after} _ => hn value after

/-- The same condition tells which of two actions is taken. -/
theorem Mirrors.ite {condition : Prop} [Decidable condition] {yes no yes' no' : Action ε σ α}
    (hy : Mirrors φ yes yes') (hn : Mirrors φ no no') :
    Mirrors φ (if condition then yes else no) (if condition then yes' else no') := by
  split
  · exact hy
  · exact hn

/-- Actions for all members of a list. -/
theorem Mirrors.mapEach {items : List β} {f f' : β → Action ε σ α}
    (h : ∀ item, Mirrors φ (f item) (f' item)) :
    Mirrors φ (mapEach items f) (mapEach items f') := by
  induction items with
  | nil => exact .of_commutes (pure [])
  | cons item rest ih =>
    exact (h item).bind fun first => ih.bind fun others => .of_commutes (pure (first :: others))

/-- Actions with other failures. -/
theorem Mirrors.mapError {action other : Action ε σ α} (h : Mirrors φ action other) (f : ε → δ) :
    Mirrors φ (action.mapError f) (other.mapError f) := by
  intro state
  have hrun : other (φ state) = _ := h state
  simp only [MirrorsAt, Action.mapError, hrun]

/-- Actions on a part of the state. -/
theorem MirrorsAt.within {ψ : τ → τ} {get : σ → τ} {set : τ → σ → σ} {action other : Action ε τ α}
    {state : σ} (h : MirrorsAt ψ action other (get state)) (hget : get (φ state) = ψ (get state))
    (hset : ∀ part, set (ψ part) (φ state) = φ (set part state)) :
    MirrorsAt φ (action.within get set) (other.within get set) state := by
  have hrun : other (ψ (get state)) = _ := h
  simp only [MirrorsAt, Action.within, hget, hrun, hset]

/-- An action on a part of the state. -/
theorem commutes_within {ψ : τ → τ} {get : σ → τ} {set : τ → σ → σ} {action : Action ε τ α}
    (h : Commutes ψ action) (hget : ∀ state, get (φ state) = ψ (get state))
    (hset : ∀ part state, set (ψ part) (φ state) = φ (set part state)) :
    Commutes φ (action.within get set) :=
  ⟨fun state => MirrorsAt.within (h.commutes (get state)) (hget state) (hset · state)⟩

end JavaGraph.Action
