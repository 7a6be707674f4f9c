import JavaGraph.Proofs.Scan.References
import JavaGraph.Proofs.Scan.Unanswered
/-!
# Warnings of failed lookups

A scan that is not answered makes a placeholder for a name when it first refers to it, unless the
universe has a type of that name by then. Each placeholder comes with one warning, at that
reference.
-/

namespace JavaGraph

open List (Forall₂)
open JavaGraph.Action

namespace Reference

/-- The warning that the store has not answered. -/
def unanswered (reference : Reference) : Diagnostic :=
  .atToken reference.file reference.place (.lookupFailed reference.name.text)

/-- The first of some references to a name. -/
def first? (refs : List Reference) (name : QualifiedName) : Option Reference :=
  refs.find? fun reference => reference.name = name

/-- The first reference stays the first when others follow. -/
theorem first?_append_of_eq_some {refs : List Reference} {name : QualifiedName}
    {reference : Reference} (others : List Reference) (h : first? refs name = some reference) :
    first? (refs ++ others) name = some reference := by
  unfold first? at h ⊢
  rw [List.find?_append, h, Option.some_or]

/-- References to other names do not come first. -/
theorem first?_append_of_ne {refs : List Reference} {name : QualifiedName}
    (others : List Reference) (h : ∀ reference ∈ refs, reference.name ≠ name) :
    first? (refs ++ others) name = first? others name := by
  have hnone : first? refs name = none :=
    List.find?_eq_none.2 fun reference hm => by simpa using h reference hm
  unfold first? at hnone ⊢
  rw [List.find?_append, hnone, Option.none_or]

end Reference

/-! ### Warnings and placeholders -/

namespace Graph

variable {home : Universe} {refs refs' : List Reference} {created created' : List TypeId}
  {found found' : List Diagnostic} {before middle after : Graph}

/-- A new type has the name of a reference that the universe lacked. It is the first reference to
that name. -/
structure Misses (home : Universe) (refs : List Reference) (before after : Graph)
    (reference : Reference) (id : TypeId) : Prop where
  first : Reference.first? refs reference.name = some reference
  lacks : before.Lacks reference.name home
  fresh : before.label id = none
  label : after.label id = some (reference.name, home)

/-- References have made placeholders and warnings: one for one, each at the first reference to its
name. Afterwards the universe has the names of all references. -/
structure Warns (home : Universe) (refs : List Reference) (created : List TypeId)
    (found : List Diagnostic) (before after : Graph) : Prop where
  label : ∀ {id l}, before.label id = some l → after.label id = some l
  has : ∀ reference ∈ refs, after.Has reference.name home
  warned : Forall₂ (fun id diagnostic => ∃ reference, Misses home refs before after reference id ∧
    diagnostic = reference.unanswered) created found
  distinct : created.Nodup
  /-- No other placeholders have come in. -/
  placeholder : ∀ {id x}, after.types.get? id = some x → x.isComplete = false →
    id ∈ created ∨ ∃ y, before.types.get? id = some y ∧ y.isComplete = false

namespace Warns

/-- Every type that was made for a reference is new. -/
private theorem fresh (h : Warns home refs created found before after) :
    ∀ id ∈ created, before.label id = none ∧ ∃ l, after.label id = some l := by
  intro id hm
  obtain ⟨diagnostic, -, reference, hmiss, -⟩ := mem_of_forall₂ h.warned hm
  exact ⟨hmiss.fresh, _, hmiss.label⟩

/-- What makes no type but declares some, and refers to nothing. -/
theorem of_label (hl : ∀ {id l}, before.label id = some l → after.label id = some l)
    (hp : ∀ {id x}, after.types.get? id = some x → x.isComplete = false →
      ∃ y, before.types.get? id = some y ∧ y.isComplete = false) :
    Warns home [] [] [] before after :=
  ⟨hl, List.forall_mem_nil _, .nil, .nil, fun hx hc => .inr (hp hx hc)⟩

/-- Nothing happens. -/
theorem refl (home : Universe) (graph : Graph) : Warns home [] [] [] graph graph :=
  of_label id fun hx hc => ⟨_, hx, hc⟩

/-- References that follow others have made placeholders for other names. -/
theorem trans (h : Warns home refs created found before middle)
    (h' : Warns home refs' created' found' middle after) :
    Warns home (refs ++ refs') (created ++ created') (found ++ found') before after := by
  have hhas : ∀ {name}, before.Has name home → middle.Has name home := by
    intro name hb
    obtain ⟨id, hl⟩ := has_iff.1 hb
    exact has_iff.2 ⟨id, h.label hl⟩
  refine ⟨h'.label ∘ h.label, ?_, ?_, ?_, ?_⟩
  · intro reference hm
    rcases List.mem_append.1 hm with hm | hm
    · obtain ⟨id, hl⟩ := has_iff.1 (h.has reference hm)
      exact has_iff.2 ⟨id, h'.label hl⟩
    · exact h'.has reference hm
  · refine List.rel_append (h.warned.imp ?_) (h'.warned.imp ?_)
    · rintro id diagnostic ⟨reference, hmiss, hd⟩
      exact ⟨reference, ⟨Reference.first?_append_of_eq_some _ hmiss.first, hmiss.lacks, hmiss.fresh,
        h'.label hmiss.label⟩, hd⟩
    · rintro id diagnostic ⟨reference, hmiss, hd⟩
      have hlacks := lacks_iff_not_has.1 hmiss.lacks
      refine ⟨reference, ⟨?_, lacks_iff_not_has.2 (hlacks ∘ hhas), ?_, hmiss.label⟩, hd⟩
      · rw [Reference.first?_append_of_ne]
        · exact hmiss.first
        · intro other hm he
          exact hlacks (he ▸ h.has other hm)
      · cases hl : before.label id with
        | none => rfl
        | some l => exact absurd (h.label hl) (by simp [hmiss.fresh])
  · refine h.distinct.append h'.distinct fun id hm hm' => ?_
    obtain ⟨-, l, hl⟩ := h.fresh id hm
    exact absurd hl (by simp [(h'.fresh id hm').1])
  · intro id x hx hc
    rcases h'.placeholder hx hc with hm | ⟨y, hy, hc'⟩
    · exact .inl (List.mem_append_right _ hm)
    · rcases h.placeholder hy hc' with hm | hb
      · exact .inl (List.mem_append_left _ hm)
      · exact .inr hb

end Warns

/-- A change that does not touch the ledger makes no placeholder. -/
theorem SameLedger.warns (h : SameLedger before after) (home : Universe) :
    Warns home [] [] [] before after := by
  refine .of_label ?_ ?_
  · intro id l hl
    obtain ⟨x, hx, rfl⟩ := get?_of_label hl
    obtain ⟨y, hy, hn, hh, -⟩ := h.type' hx
    rw [label_of_get? hy, hn, hh]
  · intro id x hx hc
    obtain ⟨y, hy, -, -, hd, -⟩ := h.type hx
    refine ⟨y, hy, ?_⟩
    rwa [TypeNode.isComplete_eq_isSome, hd, ← TypeNode.isComplete_eq_isSome]

/-- A declaration makes no placeholder. -/
theorem warns_withDeclaration {name : QualifiedName} {id : TypeId} {unit : UnitId}
    (h : Scope.Awaits before name home middle id) (artifact : Option ArtifactId) :
    Warns home [] [] [] before (middle.withDeclaration id unit artifact) := by
  have hmiddle : ∀ k, k = id ∨ middle.types.get? k = before.types.get? k := by
    intro k
    obtain ⟨-, rfl | ⟨rfl, rfl, -⟩⟩ := h
    · exact .inr rfl
    · have hget : (before.withType name home).types.get? k = if k = before.types.nextId then
          some (blank name home (.incomplete none)) else before.types.get? k := Arena.get?_push ..
      by_cases hk : k = before.types.nextId
      · exact .inl hk
      · exact .inr (hget.trans (if_neg hk))
  have hlabel : ∀ {k l}, before.label k = some l → middle.label k = some l := by
    intro k l hl
    obtain ⟨-, rfl | ⟨rfl, rfl, -⟩⟩ := h
    · exact hl
    · exact label_withType_of_label hl
  refine .of_label ?_ ?_
  · intro k l hl
    rw [label_withDeclaration]
    exact hlabel hl
  · intro k x hx hc
    rw [get?_types_withDeclaration] at hx
    split at hx
    · obtain ⟨y, -, rfl⟩ := Option.map_eq_some_iff.1 hx
      cases hc
    · next hk => exact ⟨x, (hmiddle k).resolve_left hk ▸ hx, hc⟩

/-- A reference to a type of the universe makes no placeholder. -/
theorem warns_found {reference : Reference} (h : before.Has reference.name home) :
    Warns home [reference] [] [] before before := by
  refine ⟨id, ?_, .nil, .nil, fun hx hc => .inr ⟨_, hx, hc⟩⟩
  intro other hm
  rwa [List.mem_singleton.1 hm]

/-- A reference to what the universe lacks makes a placeholder. -/
theorem warns_missing {reference : Reference} {unit : UnitId}
    (h : before.Lacks reference.name home) :
    Warns home [reference] [before.types.nextId] [reference.unanswered] before
      (before.withMissing reference.name home unit) := by
  obtain ⟨holder, hk⟩ := get?_withMissing before reference.name home unit
  have hnew : (before.withMissing reference.name home unit).label before.types.nextId =
      some (reference.name, home) := label_of_get? ((hk _).trans (if_pos rfl))
  refine ⟨?_, ?_, .cons ⟨reference, ⟨?_, h, ?_, hnew⟩, rfl⟩ .nil, List.nodup_singleton _, ?_⟩
  · intro id l hl
    obtain ⟨x, hx, rfl⟩ := get?_of_label hl
    exact label_of_get? ((hk id).trans ((if_neg (Arena.ne_nextId hx)).trans hx))
  · intro other hm
    rw [List.mem_singleton.1 hm]
    exact has_iff.2 ⟨_, hnew⟩
  · unfold Reference.first?
    simp
  · unfold label
    simp
  · intro id x hx hc
    rw [hk] at hx
    split at hx
    · next hid => exact .inl (hid ▸ List.mem_singleton_self _)
    · exact .inr ⟨x, hx, hc⟩

end Graph

/-! ### Scans -/

namespace Scope

/-- The placeholders that were made in the scope, oldest first. -/
def created : Scope → List TypeId
  | .ofArtifact scope => scope.created
  | .global => []

/-- A declaration makes no placeholder. -/
@[simp] theorem created_withDeclared (scope : Scope) (name : QualifiedName) (id : TypeId) :
    (scope.withDeclared name id).created = scope.created := by
  cases scope <;> rfl

/-- A new placeholder is the last one. -/
theorem Unaided.created_withCreated {scope : Scope} (h : scope.Unaided) (name : QualifiedName)
    (id : TypeId) : (scope.withCreated name id).created = scope.created ++ [id] := by
  obtain ⟨own, rfl, -⟩ := h
  rfl

end Scope

/-- The diagnostics of failed lookups. -/
def Diagnostic.lookupFailures (diagnostics : List Diagnostic) : List Diagnostic :=
  diagnostics.filter (·.isLookupFailure)

namespace ScanState

variable {source : SourceUnit} {refs refs' : List Reference} {s m t : ScanState} {unit : UnitId}

/-- References have made placeholders and warnings while the store has not answered. -/
structure Warns (unit : UnitId) (refs : List Reference) (s t : ScanState) : Prop where
  unanswered : t.Unanswered unit
  artifact : t.scope.artifact? = s.scope.artifact?
  warned : ∃ created found, t.scope.created = s.scope.created ++ created ∧
    Diagnostic.lookupFailures t.diagnostics = Diagnostic.lookupFailures s.diagnostics ++ found ∧
    Graph.Warns s.scope.artifact? refs created found s.store.graph t.store.graph

/-- The same of states that need not be unanswered. -/
def WarnsIf (unit : UnitId) (refs : List Reference) (s t : ScanState) : Prop :=
  s.Unanswered unit → Warns unit refs s t

/-- Nothing is made and no lookup has failed. -/
private theorem Warns.of_graph (hu : t.Unanswered unit) (ha : t.scope.artifact? = s.scope.artifact?)
    (hc : t.scope.created = s.scope.created)
    (hd : Diagnostic.lookupFailures t.diagnostics = Diagnostic.lookupFailures s.diagnostics)
    (hg : Graph.Warns s.scope.artifact? refs [] [] s.store.graph t.store.graph) :
    Warns unit refs s t :=
  ⟨hu, ha, [], [], by rw [hc, List.append_nil], by rw [hd, List.append_nil], hg⟩

/-- References that follow others have made placeholders for other names. -/
theorem Warns.trans (h : Warns unit refs s m) (h' : Warns unit refs' m t) :
    Warns unit (refs ++ refs') s t := by
  obtain ⟨created, found, hc, hd, hg⟩ := h.warned
  obtain ⟨created', found', hc', hd', hg'⟩ := h'.warned
  refine ⟨h'.unanswered, h'.artifact.trans h.artifact, created ++ created', found ++ found', ?_, ?_,
    hg.trans ?_⟩
  · rw [hc', hc, List.append_assoc]
  · rw [hd', hd, List.append_assoc]
  · rwa [h.artifact] at hg'

instance : Accumulates (WarnsIf unit) where
  nothing _ h := .of_graph h rfl rfl rfl (.refl ..)
  append h h' hs := (h hs).trans (h' (h hs).unanswered)

private theorem warns_record {α : Type} (action : GraphAction α)
    (hl : Keeps Graph.SameLedger action) (hu : Keeps Graph.SameUnits action) :
    Keeps (WarnsIf unit []) (onGraph action) := by
  constructor
  intro s h
  have hstays : Guarantee unit (Stays (Unanswered unit)) := inferInstance
  have hk := hstays.record action hl hu
  exact .of_graph (hk.keeps s h) rfl rfl rfl ((hl.keeps s.store.graph).warns _)

private theorem warns_mainType (type : TypeId) :
    Keeps (WarnsIf unit []) (onGraph (Graph.setMainType unit type)) := by
  constructor
  intro s h
  have hk : Keeps (Stays (Unanswered unit)) (onGraph (Graph.setMainType unit type)) :=
    Guarantee.mainType type
  have hl : Keeps Graph.SameLedger (Graph.setMainType unit type) := inferInstance
  exact .of_graph (hk.keeps s h) rfl rfl rfl ((hl.keeps s.store.graph).warns _)

private theorem warns_declare (name : QualifiedName) :
    Keeps (WarnsIf unit []) (inScope (·.declare name unit)) := by
  constructor
  intro s h
  have hk : Keeps (Stays (Unanswered unit)) (inScope (·.declare name unit)) :=
    Guarantee.declare name
  have hstays := hk.keeps s h
  rcases Twins.inScope_declare_cases h.sound rfl name with ⟨_, -, hrun⟩ | ⟨id, middle, ha, hrun⟩
  · rw [hrun]
    exact .of_graph h rfl rfl rfl (.refl ..)
  · rw [hrun] at hstays ⊢
    exact .of_graph hstays (Scope.artifact?_withDeclared ..) (Scope.created_withDeclared ..) rfl
      (Graph.warns_withDeclaration ha _)

private theorem warns_resolve {site : ReferenceSite} {id : TypeId} (name : QualifiedName)
    (place : Token) (hrun : site.resolve name place s = (.ok id, t)) :
    WarnsIf site.source.unit [⟨name, site.source.file, place⟩] s t := by
  intro h
  have hk : Keeps (Stays (Unanswered site.source.unit)) (site.resolve name place) := inferInstance
  have hstays := hk.keeps s h
  rcases h.resolve_cases name place with ⟨_, x, hx, hn, hh, hrun', -⟩ | ⟨hl, hrun', -⟩
  · cases hrun.symm.trans hrun'
    exact .of_graph h rfl rfl rfl (Graph.warns_found ⟨_, x, hx, hn, hh⟩)
  · cases hrun.symm.trans hrun'
    rw [hrun'] at hstays
    exact ⟨hstays, Scope.artifact?_withCreated .., _, _, h.scope.created_withCreated ..,
      List.filter_append .., Graph.warns_missing hl⟩

instance : Charting source (WarnsIf source.unit) where
  nameless := {
    report diagnostic hd := by
      constructor
      intro s h
      refine .of_graph ⟨h.sound, h.answers, h.scope⟩ rfl rfl ?_ (.refl ..)
      unfold Diagnostic.lookupFailures report change
      simp only [List.filter_append, List.filter_cons, hd]
      simp
    note source target := by
      constructor
      intro s h
      unfold noteDependency
      split <;> exact .of_graph ⟨h.sound, h.answers, h.scope⟩ rfl rfl rfl (.refl ..)
    declare := warns_declare
    record action hl hu := warns_record action hl hu
    mainType := warns_mainType }
  resolve {s t id site} name place hu hrun := by
    subst hu
    exact warns_resolve name place hrun

/-- The scan of a file that is not answered warns of the placeholders that it makes. -/
theorem Unanswered.warns {recordAccesses : Bool} {header : Header} {path : String} {root : Tree}
    {declared : Declarations} (h : s.Unanswered source.unit)
    (hrun : scanTypes recordAccesses source header path root s = (.ok declared, t)) :
    Warns source.unit (s.references source header path root) s t :=
  references_of_scanTypes (R := WarnsIf source.unit) source hrun h

end ScanState

end JavaGraph
