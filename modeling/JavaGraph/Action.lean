/-!
# Actions

An action works on a state and may fail. What it has done to the state before it fails stays
done, so a failed action says in its state how far it has come.
-/

namespace JavaGraph

/-- An action on a state of type `σ` that gives an `α` or fails with an `ε`. -/
def Action (ε σ α : Type) : Type := σ → Except ε α × σ

namespace Action

variable {ε δ σ τ α β : Type}

/-- Actions in sequence: a failure ends the sequence and keeps the state. -/
instance : Monad (Action ε σ) where
  pure value := fun state => (.ok value, state)
  bind action next := fun state =>
    match action state with
    | (.ok value, state) => next value state
    | (.error e, state) => (.error e, state)

/-- Fail and leave the state as it is. -/
def fail (e : ε) : Action ε σ α := fun state => (.error e, state)

/-- Read something off the state. -/
def read (f : σ → α) : Action ε σ α := fun state => (.ok (f state), state)

/-- Change the state. -/
def change (f : σ → σ) : Action ε σ Unit := fun state => (.ok (), f state)

/-- Read something off the state that may be a failure. -/
def check (f : σ → Except ε α) : Action ε σ α := fun state => (f state, state)

/-- Change the state, unless that is a failure. -/
def tryChange (f : σ → Except ε σ) : Action ε σ Unit := fun state =>
  match f state with
  | .ok state => (.ok (), state)
  | .error e => (.error e, state)

/-- The result of an action, a failure included. -/
def attempt (action : Action ε σ α) : Action δ σ (Except ε α) := fun state =>
  let (result, state) := action state
  (.ok result, state)

/-- Run an action on a part of the state. -/
def within (get : σ → τ) (set : τ → σ → σ) (action : Action ε τ α) : Action ε σ α := fun state =>
  let (result, part) := action (get state)
  (result, set part state)

/-- The action with another type of failures. -/
def mapError (f : ε → δ) (action : Action ε σ α) : Action δ σ α := fun state =>
  let (result, state) := action state
  (result.mapError f, state)

/-- Run an action for every member of a list. -/
def forEach (items : List β) (f : β → Action ε σ Unit) : Action ε σ Unit :=
  match items with
  | [] => pure ()
  | item :: rest => do
    f item
    forEach rest f

/-- Run an action for every member of a list, and keep the results. -/
def mapEach (items : List β) (f : β → Action ε σ α) : Action ε σ (List α) :=
  match items with
  | [] => pure []
  | item :: rest => do
    let first ← f item
    let others ← mapEach rest f
    return first :: others

/-- Run an action for every member of a list, and keep the results there are. -/
def collect (items : List β) (f : β → Action ε σ (Option α)) : Action ε σ (List α) :=
  match items with
  | [] => pure []
  | item :: rest => do
    let first ← f item
    let others ← collect rest f
    return first.toList ++ others

end Action

end JavaGraph
