import JavaGraph.Proofs.Scan.Resolving
/-!
# A scan beside itself

A scan that is run twice from the same state stays in tandem with itself. What that says is about
one scan: everything that it records refers to types, members and units that there are.
-/

namespace JavaGraph.Twins

open List (Forall₂)
open JavaGraph.Action
open JavaGraph.Graph (SameType SameUnit SameTypes Since)

/-- One scan, taken twice. -/
def same (source : SourceUnit) (home : Universe) (start : Graph) : Twins where
  source := source
  source' := source
  home := home
  start := start
  start' := start

/-- The types that a scope has borrowed for names are known and called so. -/
def BorrowedKnown (graph : Graph) (scope : Scope) : Prop :=
  ∀ own name id, scope = .ofArtifact own → own.borrowed.find? name = some id →
    ∃ x, graph.types.get? id = some x ∧ x.name = name

/-- The scopes of both states are the same and answer the same. -/
structure SameAnswers (answers : Bool) (s t : ScanState) : Prop where
  scope : s.scope = t.scope
  left : s.store.answers = answers
  right : t.store.answers = answers
  types : SameTypes s.store.graph t.store.graph
  borrowed : BorrowedKnown s.store.graph s.scope

variable {source : SourceUnit} {home : Universe} {start : Graph} {answers : Bool}
  {admits : QualifiedName → Prop} {mayFail : Prop} {s t : ScanState} {name : QualifiedName}

/-- A scan fails only in the global scope, if the store does not answer. -/
abbrev diagonal (source : SourceUnit) (home : Universe) (start : Graph) (answers : Bool) : Tandem :=
  (same source home start).tandem (SameAnswers answers) (fun _ => True)
    (home = none ∧ answers = false)

/-! ### What scopes have -/

/-- Borrowed types stay known. -/
theorem BorrowedKnown.of_known {graph after : Graph} {scope : Scope}
    (h : BorrowedKnown graph scope)
    (hk : ∀ {id x}, graph.types.get? id = some x →
      ∃ y, after.types.get? id = some y ∧ y.name = x.name) :
    BorrowedKnown after scope := by
  intro own name id hs hb
  obtain ⟨x, hx, hn⟩ := h own name id hs hb
  obtain ⟨y, hy, hyx⟩ := hk hx
  exact ⟨y, hy, hyx.trans hn⟩

/-- A type that a query finds is known and has the name. -/
private theorem known_of_typeDeclaredInAny? {graph : Graph} {artifacts : List ArtifactId}
    {id : TypeId} (h : graph.typeDeclaredInAny? name artifacts = some id) :
    ∃ x, graph.types.get? id = some x ∧ x.name = name := by
  obtain ⟨artifact, -, hf⟩ := List.exists_of_findSome?_eq_some h
  have hm := List.mem_of_find?_eq_some hf
  obtain ⟨x, hx, hn⟩ := Arena.mem_idsWhere.1 hm
  exact ⟨x, hx, QualifiedName.text_inj.1 (of_decide_eq_true hn)⟩

/-- What a scope has for a name is known and called so. -/
theorem known_of_lookup {graph : Graph} {scope : Scope} {id : TypeId}
    (hs : Scope.Sound graph scope) (hb : BorrowedKnown graph scope)
    (h : scope.lookup name ⟨graph, answers⟩ = .ok (some id)) :
    ∃ x, graph.types.get? id = some x ∧ x.name = name := by
  have hquery : ∀ {answer : Graph → Option TypeId},
      (⟨graph, answers⟩ : Store).query answer = .ok (some id) → answer graph = some id := by
    intro answer hq
    unfold Store.query at hq
    split at hq
    · injection hq
    · cases hq
  unfold Scope.lookup at h
  cases scope with
  | ofArtifact own =>
    simp only at h
    cases hc : own.cached? name with
    | some known =>
      rw [hc] at h
      cases h
      unfold ArtifactScope.cached? at hc
      rcases Option.or_eq_some_iff.1 hc with hk | ⟨-, hk⟩
      · obtain ⟨x, hx, hn, -⟩ := (ArtifactScope.Fits.known_iff hs.fits).1 hk
        exact ⟨x, hx, hn⟩
      · exact hb own name id rfl hk
    | none =>
      rw [hc] at h
      simp only at h
      split at h
      · cases h
      · exact known_of_typeDeclaredInAny? (hquery h)
  | global =>
    obtain ⟨x, hx, hn, -⟩ := Graph.get?_of_typeIn? (hquery h)
    exact ⟨x, hx, QualifiedName.text_inj.1 hn⟩

/-- A scope borrows known types only. -/
theorem borrowedKnown_withFound {graph : Graph} {scope : Scope} {id : TypeId}
    (hb : BorrowedKnown graph scope) (hx : ∃ x, graph.types.get? id = some x ∧ x.name = name) :
    BorrowedKnown graph (scope.withFound name id) := by
  intro own other k hs hk
  unfold Scope.withFound at hs
  cases scope with
  | ofArtifact scope =>
    simp only at hs
    split at hs
    · exact hb own other k hs hk
    · cases hs
      change (scope.borrowed.insert name id).find? other = some k at hk
      rw [Table.find?_insert] at hk
      split at hk
      · next he =>
        cases hk
        obtain ⟨x, hx, hn⟩ := hx
        exact ⟨x, hx, hn.trans he⟩
      · exact hb scope other k rfl hk
  | global => cases hs

/-- A placeholder is not borrowed. -/
theorem borrowedKnown_withCreated {graph : Graph} {scope : Scope} {id : TypeId}
    (hb : BorrowedKnown graph scope) : BorrowedKnown graph (scope.withCreated name id) := by
  intro own other k hs hk
  cases scope with
  | ofArtifact scope =>
    cases hs
    exact hb scope other k rfl hk
  | global => cases hs

/-- What is declared is not borrowed. -/
theorem borrowedKnown_withDeclared {graph : Graph} {scope : Scope} {id : TypeId}
    (hb : BorrowedKnown graph scope) : BorrowedKnown graph (scope.withDeclared name id) := by
  intro own other k hs hk
  cases scope with
  | ofArtifact scope =>
    cases hs
    exact hb scope other k rfl hk
  | global => cases hs

/-! ### The scopes of both scans -/

/-- The answers do not change with what is recorded. -/
private theorem SameAnswers.stable {s' t' : ScanState} (h : SameAnswers answers s t)
    (hs : SameScope s s') (ht : SameScope t t') : SameAnswers answers s' t' where
  scope := by rw [hs.scope, ht.scope, h.scope]
  left := hs.answers.trans h.left
  right := ht.answers.trans h.right
  types id := (hs.ledger.types id).trans ((h.types id).trans (ht.ledger.types id).symm)
  borrowed := by
    rw [hs.scope]
    refine h.borrowed.of_known fun hx => ?_
    obtain ⟨y, hy, hn, -⟩ := hs.ledger.type' hx
    exact ⟨y, hy, hn⟩

/-- A unit that declares a name does so for both scans. -/
private theorem DeclaredAs.of_sameTypes {graph graph' : Graph} {unit : UnitId}
    (h : SameTypes graph graph') (hd : DeclaredAs graph name home unit) :
    DeclaredAs graph' name home unit := by
  obtain ⟨id, x, hx, hn, hh, hs⟩ := hd
  obtain ⟨y, hy, hny, hhy, hsy⟩ := h.get? hx
  refine ⟨id, y, hy, hny.trans hn, hhy.trans hh, ?_⟩
  rw [← TypeState.declaredBy_eq_some, hsy, TypeState.declaredBy_eq_some, hs]

/-- A known unit is the same for both scans. -/
private theorem sameUnit_self {P : Twins} (h : P.Paired s t) (hu : P.source = P.source')
    (hstart : P.start = P.start') {unit : UnitId} {x : CompilationUnit}
    (hx : s.store.graph.units.get? unit = some x) :
    SameUnit s.store.graph t.store.graph unit unit := by
  by_cases hk : unit = P.source.unit
  · obtain ⟨y, z, hy, hz, hyz⟩ := h.graphs.unit
    rw [← hu] at hz
    subst hk
    exact ⟨y, z, hy, hz, hyz.path, hyz.artifact⟩
  · have ho := h.graphs.since.others hk
    rw [hstart, ← h.graphs.since'.others (hu ▸ hk), hx] at ho
    obtain ⟨y, hy, hxy⟩ := Option.map_eq_some_iff.1 ho.symm
    have hpath : (Graph.outline y).path = (Graph.outline x).path := by rw [hxy]
    have hartifact : (Graph.outline y).artifact = (Graph.outline x).artifact := by rw [hxy]
    exact ⟨x, y, hx, hy, hpath.symm, hartifact.symm⟩

/-- A type with the same identifier is the same for both scans. -/
private theorem sameType_self {graph graph' : Graph} (h : SameTypes graph graph') {id : TypeId}
    (hx : ∃ x, graph.types.get? id = some x) : SameType graph graph' id id := by
  obtain ⟨x, hx⟩ := hx
  obtain ⟨y, hy, hn, hh, -⟩ := h.get? hx
  exact .of_get? hx hy hn.symm hh.symm

/-! ### References -/

private theorem missing_answers (h : SameAnswers answers s t) (name : QualifiedName)
    (unit : UnitId) : SameAnswers answers (s.missing name unit) (t.missing name unit) where
  scope := by
    unfold ScanState.missing
    simp only
    rw [h.scope, h.types.nextId_eq]
  left := h.left
  right := h.right
  types := by
    unfold ScanState.missing
    simp only
    rw [h.scope]
    exact h.types.withMissing _ _ _
  borrowed := by
    refine (borrowedKnown_withCreated h.borrowed).of_known fun hx => ?_
    exact ⟨_, (Graph.placed_withMissing s.store.graph unit name s.scope.artifact?).types hx, rfl⟩

private theorem found_answers (h : SameAnswers answers s t) {id : TypeId}
    (hx : ∃ x, s.store.graph.types.get? id = some x ∧ x.name = name) :
    SameAnswers answers (s.found name id) (t.found name id) where
  scope := by
    unfold ScanState.found
    simp only
    rw [h.scope]
  left := h.left
  right := h.right
  types := h.types
  borrowed := borrowedKnown_withFound h.borrowed hx

private theorem saying_answers (h : SameAnswers answers s t) (a b : Diagnostic) :
    SameAnswers answers (s.saying a) (t.saying b) :=
  ⟨h.scope, h.left, h.right, h.types, h.borrowed⟩

/-- The same placeholder comes in. -/
private theorem sameType_missing (h : SameAnswers answers s t) (name : QualifiedName)
    (unit : UnitId) (hh : s.scope.artifact? = home) :
    SameType (s.missing name unit).store.graph (t.missing name unit).store.graph
      s.store.graph.types.nextId t.store.graph.types.nextId := by
  have hh' : t.scope.artifact? = home := by rw [← h.scope, hh]
  obtain ⟨_, hx⟩ := ScanState.get?_missing name unit hh
  obtain ⟨_, hy⟩ := ScanState.get?_missing name unit hh'
  exact .of_get? hx hy rfl rfl

/-- Both scopes have the same for a name. -/
private theorem lookup_eq (h : SameAnswers answers s t) (name : QualifiedName) :
    s.scope.lookup name s.store = t.scope.lookup name t.store := by
  have hs : s.store = ⟨s.store.graph, answers⟩ := by rw [← h.left]
  have ht : t.store = ⟨t.store.graph, answers⟩ := by rw [← h.right]
  rw [hs, ht, ← h.scope]
  exact Scope.lookup_eq h.types s.scope name

/-- Both scans resolve a name to the same type. -/
private theorem runs_resolve_diagonal {w : Graph × Graph} {site site' : ReferenceSite}
    (name : QualifiedName) (place : Token) (hu : site.source = source)
    (hu' : site'.source = source) :
    (diagonal source home start answers).Runs w
      (fun w a b => SameType w.1 w.2 a b ∧
        ((same source home start).whole → (same source home start).Answers w.1 a))
      (site.resolve name place) (site'.resolve name place) := by
  intro s t hs
  have hp : (same source home start).Paired s t := hs.2.1
  have hq : SameAnswers answers s t := hs.2.2
  have hsound : s.Sound site.source.unit := by
    rw [hu]
    exact hp.sound
  have hsound' : t.Sound site'.source.unit := by
    rw [hu']
    exact hp.sound'
  have hd : (same source home start).Diagnostics s.store.graph t.store.graph
      (site.unanswered name place) (site'.unanswered name place) :=
    unanswered_alike hu hu' name place
  cases hl : s.scope.lookup name s.store with
  | ok found =>
    have hl' := (lookup_eq hq name).symm.trans hl
    cases found with
    | some id =>
      obtain ⟨x, hx, hn⟩ := known_of_lookup hsound.1 hq.borrowed hl
      have hsame := sameType_self hq.types ⟨x, hx⟩
      obtain ⟨-, y, -, hy, -⟩ := hsame.get?
      exact outcome_resolved hs hu hu' (ReferenceSite.resolve_found place hl)
        (ReferenceSite.resolve_found place hl') (ScanState.answered_found _ _ ⟨x, hx⟩)
        (ScanState.answered_found _ _ ⟨y, hy⟩) hp.diagnostics hsame nofun
        (found_answers hq ⟨x, hx, hn⟩)
    | none =>
      obtain ⟨-, hrun⟩ := ReferenceSite.resolve_missing place hsound hl
      obtain ⟨-, hrun'⟩ := ReferenceSite.resolve_missing place hsound' hl'
      rw [hu] at hrun
      rw [hu'] at hrun'
      exact outcome_resolved hs hu hu' hrun hrun' (ScanState.answered_missing hp.scope)
        (ScanState.answered_missing hp.scope') hp.diagnostics
        (sameType_missing hq name source.unit hp.scope) nofun
        (missing_answers hq name source.unit)
  | error e =>
    have hl' := (lookup_eq hq name).symm.trans hl
    rcases ReferenceSite.resolve_unanswered place hsound hl with ⟨hg, ha, hrun⟩ | ⟨hg, -, hrun⟩
    · rcases ReferenceSite.resolve_unanswered place hsound' hl' with ⟨-, -, hrun'⟩ | ⟨hg', -⟩
      · rw [hrun, hrun']
        refine ⟨w, ⟨.refl .., .refl ..⟩, ⟨hs.1, hp.saying hd, saying_answers hq _ _⟩, ?_, ?_⟩
        · refine hp.scope.symm.trans ?_
          rw [hg]
          rfl
        · rw [← hq.left, ha]
      · exact absurd (hq.scope ▸ hg) hg'
    · rcases ReferenceSite.resolve_unanswered place hsound' hl' with ⟨hg', -⟩ | ⟨-, -, hrun'⟩
      · exact absurd (hq.scope ▸ hg') hg
      · have hq' := saying_answers hq (site.unanswered name place) (site'.unanswered name place)
        rw [hu] at hrun
        rw [hu'] at hrun'
        exact outcome_resolved hs hu hu' hrun hrun' (ScanState.answered_saying hp.scope _)
          (ScanState.answered_saying hp.scope' _) (hp.saying hd).diagnostics
          (sameType_missing hq' name source.unit hp.scope) nofun
          (missing_answers hq' name source.unit)

/-! ### Declarations -/

/-- The same name waits for both scans under the same identifier. -/
private theorem awaits_eq {graph graph' middle middle' : Graph} {id id' : TypeId}
    (hc : graph.Consistent) (h : SameTypes graph graph')
    (ha : Scope.Awaits graph name home middle id)
    (ha' : Scope.Awaits graph' name home middle' id') : id = id' ∧ SameTypes middle middle' := by
  obtain ⟨⟨x, hx, hn, hh, -⟩, hm⟩ := ha
  obtain ⟨⟨y, hy, hn', hh', -⟩, hm'⟩ := ha'
  rcases hm with rfl | ⟨rfl, rfl, hl⟩
  · obtain ⟨x', hx', hnx, hhx, -⟩ := h.get? hx
    rcases hm' with rfl | ⟨rfl, rfl, hl'⟩
    · obtain ⟨y', hy', hny, hhy, -⟩ := SameTypes.get? (fun k => (h k).symm) hy
      refine ⟨hc.unique hx hy' ?_ ?_, h⟩
      · rw [hn, hny, hn']
      · rw [hh, hhy, hh']
    · exact absurd (hhx.trans hh) (hl' hx' (hnx.trans hn))
  · rcases hm' with rfl | ⟨rfl, rfl, hl'⟩
    · obtain ⟨y', hy', hny, hhy, -⟩ := SameTypes.get? (fun k => (h k).symm) hy
      exact absurd (hhy.trans hh') (hl hy' (hny.trans hn'))
    · refine ⟨h.nextId_eq, fun k => ?_⟩
      unfold Graph.withType
      rw [Arena.get?_push, Arena.get?_push, h.nextId_eq]
      split
      · rfl
      · exact h k

/-- The same type is declared for both scans. -/
private theorem declared_answers {unit : UnitId} {middle middle' : Graph} {id : TypeId}
    (h : SameAnswers answers s t) (hm : SameTypes middle middle')
    (hk : ∀ {k x}, s.store.graph.types.get? k = some x →
      ∃ y, middle.types.get? k = some y ∧ y.name = x.name) :
    SameAnswers answers (declaredState s unit name middle id)
      (declaredState t unit name middle' id) where
  scope := by
    unfold declaredState
    simp only
    rw [h.scope]
  left := h.left
  right := h.right
  types := by
    unfold declaredState
    intro k
    simp only
    rw [Graph.get?_types_withDeclaration, Graph.get?_types_withDeclaration, h.scope]
    split
    · have hmk := hm k
      cases hx : middle.types.get? k with
      | none =>
        rw [hx] at hmk
        rw [Option.map_eq_none_iff.1 hmk.symm]
      | some x =>
        rw [hx] at hmk
        obtain ⟨y, hy, hl⟩ := Option.map_eq_some_iff.1 hmk.symm
        simp only [TypeNode.ledger, Prod.mk.injEq] at hl
        rw [hy]
        simp [TypeNode.ledger, hl.1, hl.2.1]
    · exact hm k
  borrowed := by
    refine (borrowedKnown_withDeclared h.borrowed).of_known fun hx => ?_
    obtain ⟨y, hy, hn⟩ := hk hx
    unfold declaredState
    simp only
    rw [Graph.get?_types_withDeclaration, hy]
    split <;> exact ⟨_, rfl, hn⟩

/-- A scan in a graph in which its unit declares nothing is in tandem with itself. -/
theorem lookup_diagonal (hready : (same source home start).Ready) (hblank : Blank start) :
    (same source home start).Lookup (SameAnswers answers) (fun _ => True)
      (home = none ∧ answers = false) where
  ready := hready
  blank := hblank
  blank' := hblank
  stable h hs ht := h.stable hs ht
  resolve name place hsites := runs_resolve_diagonal name place hsites.source hsites.source'
  kind := nofun
  duplicate := by
    intro s t name unit hp hq hd
    have hd' := DeclaredAs.of_sameTypes hq.types hd
    obtain ⟨id, x, hx, -, -, hs⟩ := hd
    obtain ⟨node, hn, -⟩ := hp.sound.1.consistent.complete_declared hx hs
    exact ⟨unit, hd', sameUnit_self hp rfl rfl hn⟩
  duplicate' := by
    intro s t name unit _ hq _ hd
    exact ⟨unit, DeclaredAs.of_sameTypes (fun k => (hq.types k).symm) hd⟩
  declared := by
    intro s t name id id' middle middle' hp hq ha ha'
    obtain ⟨rfl, hm⟩ := awaits_eq hp.sound.1.consistent hq.types ha ha'
    refine declared_answers hq hm fun hx => ?_
    rcases ha.2 with rfl | ⟨rfl, -, -⟩
    · exact ⟨_, hx, rfl⟩
    · exact ⟨_, Graph.get?_push_of_get? _ hx, rfl⟩

end JavaGraph.Twins
