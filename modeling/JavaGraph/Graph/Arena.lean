import JavaGraph.Graph.Id
import JavaGraph.Name
/-!
# Arenas

An arena holds the nodes of one kind. A node's identifier is its place, so identifiers are given
out in order and stay valid. Looking up an identifier that was not given out is an error.
-/

namespace JavaGraph

/-- Why something cannot be done with the graph. -/
inductive GraphError where
  /-- No node has this identifier. -/
  | unknownId (kind : EntityKind) (index : Nat)
  /-- The store did not answer a query. -/
  | queryFailed (reason : String)
  /-- The type is complete and cannot be completed again. -/
  | alreadyComplete (name : QualifiedName)
  /-- A unit's main type has to be one that it declares. -/
  | mainTypeNotDeclared (unit : UnitId) (type : TypeId)
  /-- The name is declared already, by another or the same unit. -/
  | duplicateDeclaration (name : QualifiedName) (existing : UnitId)
deriving DecidableEq

namespace GraphError

/-- The wording of an error. -/
def message : GraphError → String
  | .unknownId kind index => s!"unknown {kind.label} id {index}"
  | .queryFailed reason => s!"store query failed: {reason}"
  | .alreadyComplete name => s!"type `{name.text}` is already complete"
  | .mainTypeNotDeclared unit type =>
    s!"{type.render} is not declared by {unit.render} and cannot be its main type"
  | .duplicateDeclaration name existing =>
    s!"type `{name.text}` is already declared by {existing.render}"

/-- Whether an error comes from the store itself and not from what was asked of it. -/
def isStoreFailure : GraphError → Bool
  | .unknownId _ _ | .queryFailed _ => true
  | _ => false

end GraphError

/-- The nodes of one kind. -/
structure Arena (kind : EntityKind) (α : Type) where
  nodes : Array α := #[]

namespace Arena

variable {kind : EntityKind} {α : Type}

/-- The number of nodes. -/
def size (arena : Arena kind α) : Nat := arena.nodes.size

/-- The nodes in the order of their identifiers. -/
def toList (arena : Arena kind α) : List α := arena.nodes.toList

/-- The identifier that the next node gets. -/
def nextId (arena : Arena kind α) : Id kind := ⟨arena.size⟩

/-- The node with an identifier. -/
def get? (arena : Arena kind α) (id : Id kind) : Option α := arena.nodes[id.index]?

/-- The node with an identifier, or an error. -/
def get (arena : Arena kind α) (id : Id kind) : Except GraphError α :=
  match arena.get? id with
  | some node => .ok node
  | none => .error (.unknownId kind id.index)

/-- The arena with one more node. -/
def push (arena : Arena kind α) (node : α) : Arena kind α := ⟨arena.nodes.push node⟩

/-- The arena with a node changed, or an error if there is none. -/
def update (arena : Arena kind α) (id : Id kind) (f : α → α) : Except GraphError (Arena kind α) :=
  if id.index < arena.size then .ok ⟨arena.nodes.modify id.index f⟩
  else .error (.unknownId kind id.index)

/-- The identifiers of all nodes, in order. -/
def ids (arena : Arena kind α) : List (Id kind) := (List.range arena.size).map Id.mk

/-- The identifiers of the nodes that satisfy `p`, in order. -/
def idsWhere (arena : Arena kind α) (p : α → Bool) : List (Id kind) :=
  arena.ids.filter fun id => (arena.get? id).any p

/-- A new node is found under the next identifier, and nothing else changes. -/
theorem get?_push (arena : Arena kind α) (node : α) (id : Id kind) :
    (arena.push node).get? id = if id = arena.nextId then some node else arena.get? id := by
  obtain ⟨i⟩ := id
  simp only [get?, push, nextId, size, Array.getElem?_push, Id.mk.injEq]

/-- A changed node is found changed, and nothing else changes. -/
theorem get?_of_update {arena after : Arena kind α} {id : Id kind} {f : α → α}
    (h : arena.update id f = .ok after) (k : Id kind) :
    after.get? k = if k = id then (arena.get? k).map f else arena.get? k := by
  unfold update at h
  split at h
  · cases h
    obtain ⟨i⟩ := id
    obtain ⟨j⟩ := k
    simp only [get?, Array.getElem?_modify, Id.mk.injEq]
    split
    · rename_i hij
      simp [hij]
    · rename_i hij
      simp [Ne.symm hij]
  · simp at h

/-- An update fails exactly for identifiers that no node has. -/
theorem update_eq_error_iff {arena : Arena kind α} {id : Id kind} {f : α → α} {e : GraphError} :
    arena.update id f = .error e ↔ arena.get? id = none ∧ e = .unknownId kind id.index := by
  unfold update get? size
  split
  · rename_i h
    simp [h]
  · rename_i h
    simp [h, eq_comm]

end Arena

end JavaGraph
