import JavaGraph.Proofs.Scan.Diagonal
import JavaGraph.Proofs.Scan.Units
/-!
# Tidy graphs

A graph is tidy if everything in it refers to nodes that there are, placeholders have nothing but
their names, and uses of fields are between members of declared types. Scans keep graphs tidy. A
scan fails only in the global scope, and only if the store does not answer.
-/

namespace JavaGraph

open List (Forall₂)
open JavaGraph.Action
open JavaGraph.Graph (SameType SameUnit Since)

namespace Graph

/-- A declared type has the field. -/
def HasField (graph : Graph) (field : FieldId) : Prop :=
  ∃ owner x, graph.types.get? owner = some x ∧ x.isComplete = true ∧ field ∈ x.fields

/-- A declared type has the function. -/
def HasFunction (graph : Graph) (function : FunctionId) : Prop :=
  ∃ owner x, graph.types.get? owner = some x ∧ x.isComplete = true ∧ function ∈ x.functions

/-- Everything refers to what there is. -/
structure Tidy (graph : Graph) : Prop where
  blank : Twins.Blank graph
  type : ∀ {id x}, graph.types.get? id = some x → x.isComplete = true → NodesAlike graph graph x x
  unit : ∀ {id x}, graph.units.get? id = some x →
    CompilationUnit.Alike (SameType graph graph) x x
  access : ∀ {access}, access ∈ graph.accesses.toList →
    graph.HasField access.field ∧ graph.HasFunction access.function
  /-- A path has one unit in an artifact. -/
  path : ∀ {a b x y}, graph.units.get? a = some x → graph.units.get? b = some y →
    x.path = y.path → x.artifact = y.artifact → a = b

variable {graph after : Graph}

namespace Tidy

/-- A graph in which only units without types come in stays tidy. -/
theorem of_units (h : graph.Tidy) (he : Extends graph after) (ht : after.types = graph.types)
    (ha : after.accesses = graph.accesses)
    (hu : ∀ {k x}, after.units.get? k = some x →
      graph.units.get? k = some x ∨ x.declaredTypes = [] ∧ x.mainType = none)
    (hp : ∀ {a b x y}, after.units.get? a = some x → after.units.get? b = some y →
      x.path = y.path → x.artifact = y.artifact → a = b) : after.Tidy where
  blank := by
    intro id x hx
    rw [ht] at hx
    exact h.blank hx
  type := by
    intro id x hx hc
    rw [ht] at hx
    exact (h.type hx hc).mono he he
  unit := by
    intro k x hx
    rcases hu hx with hx' | ⟨hd, hm⟩
    · exact (h.unit hx').imp fun hab => hab.mono he he
    · refine ⟨rfl, rfl, rfl, rfl, ?_, ?_, rfl⟩
      · rw [hd]
        exact .nil
      · rw [hm]
        exact .none
  access := by
    intro access hm
    rw [ha] at hm
    obtain ⟨hf, hg⟩ := h.access hm
    unfold HasField HasFunction at *
    rw [ht]
    exact ⟨hf, hg⟩
  path := hp

/-- A known type is the same as itself. -/
private theorem eq_of_nodesAlike {P : Twins} (hc : graph.Consistent) {id id' : TypeId}
    {x y : TypeNode} (hx : graph.types.get? id = some x) (hy : graph.types.get? id' = some y)
    (hxy : P.NodesAlike graph graph x y) : y = x := by
  obtain rfl := hc.unique hx hy hxy.name hxy.home
  rw [hx] at hy
  cases hy
  rfl

/-- What a scan records is tidy. -/
theorem scanned {source : SourceUnit} {home : Universe} {s : ScanState} (h : graph.Tidy)
    (hn : ∃ node, graph.units.get? source.unit = some node)
    (hp : (Twins.same source home graph).Paired s s) : s.store.graph.Tidy := by
  have hg : Since source.unit home graph s.store.graph := hp.graphs.since
  have hc := hp.sound.1.consistent
  obtain ⟨u, v, hu, hv, huv⟩ := hp.graphs.unit
  obtain rfl : u = v := Option.some.inj (hu.symm.trans hv)
  have hself : SameUnit s.store.graph s.store.graph source.unit source.unit :=
    ⟨u, u, hu, hu, rfl, rfl⟩
  refine ⟨?_, ?_, ?_, ?_, ?_⟩
  · intro id x hx hi
    have hs : x.state ≠ .complete source.unit := by
      intro hs
      rw [TypeNode.isComplete_eq_true.2 ⟨_, hs⟩] at hi
      cases hi
    rcases hg.back hx hs with hx' | ⟨-, name, holder, rfl⟩
    · exact h.blank hx' hi
    · exact ⟨holder, rfl⟩
  · intro id x hx hi
    by_cases hs : x.state = .complete source.unit
    · obtain ⟨id', y, hy, hxy⟩ := hp.graphs.owned hx hs
      rw [eq_of_nodesAlike hc hx hy hxy] at hxy
      refine TypeNode.Alike.imp ?_ (fun hab => hab) And.left And.left hxy.toAlike
      rintro a b ⟨rfl, rfl⟩
      exact hself
    · rcases hg.back hx hs with hx' | ⟨-, name, holder, rfl⟩
      · exact (h.type hx' hi).mono hg.extended hg.extended
      · cases hi
  · intro k x hx
    by_cases hk : k = source.unit
    · obtain rfl : u = x := Option.some.inj (hu.symm.trans (hk ▸ hx))
      exact huv
    · have ho := hg.others hk
      rw [hx] at ho
      obtain ⟨y, hy, hxy⟩ := Option.map_eq_some_iff.1 ho.symm
      exact ((h.unit hy).imp fun hab => hab.mono hg.extended hg.extended).congr hxy.symm hxy.symm
  · intro access hm
    obtain ⟨new, new', hn, -, hall⟩ := hp.graphs.accesses
    rw [hn] at hm
    rcases List.mem_append.1 hm with hm | hm
    · obtain ⟨⟨owner, x, hx, hi, hf⟩, owner', x', hx', hi', hf'⟩ := h.access hm
      obtain ⟨y, hy, hy', hfy, -⟩ := hg.declared_known hx hi
      obtain ⟨z, hz, hz', -, hfz⟩ := hg.declared_known hx' hi'
      exact ⟨⟨owner, y, hy, hy', hfy hf⟩, owner', z, hz, hz', hfz hf'⟩
    · obtain ⟨other, -, ha⟩ := mem_of_forall₂ hall hm
      obtain ⟨-, -, owner, x, hx, hs, hf⟩ := ha.field
      obtain ⟨-, -, owner', x', hx', hs', hf'⟩ := ha.function
      exact ⟨⟨owner, x, hx, TypeNode.isComplete_eq_true.2 ⟨_, hs⟩, hf⟩, owner', x', hx',
        TypeNode.isComplete_eq_true.2 ⟨_, hs'⟩, hf'⟩
  · intro a b x y hx hy hpath hartifact
    obtain ⟨x', hx', hpx, hax⟩ := hg.unit_back hn hx
    obtain ⟨y', hy', hpy, hay⟩ := hg.unit_back hn hy
    exact h.path hx' hy' (hpx.trans (hpath.trans hpy.symm)) (hax.trans (hartifact.trans hay.symm))

end Tidy

end Graph

/-! ### Files in an open scope -/

namespace OpenProject

/-- The graph is tidy, and the scope has borrowed types that there are. -/
structure Tidy (opened : OpenProject) : Prop where
  graph : opened.store.graph.Tidy
  borrowed : Twins.BorrowedKnown opened.store.graph opened.scope

variable {opened : OpenProject} {file : FileId} {path : String} {parsed : ParsedSource}

/-- The scan of a new unit begins in a tidy graph. -/
theorem Tidy.initial (h : opened.Tidy) (file : FileId) (parsed : ParsedSource)
    (hn : opened.store.graph.unitAt? path opened.scope.artifact? = none) :
    (opened.initial file path parsed).store.graph.Tidy := by
  have hunit : ∀ {k x}, (opened.initial file path parsed).store.graph.units.get? k = some x →
      opened.store.graph.units.get? k = some x ∨ k = opened.store.graph.units.nextId ∧
        x.path = path ∧ x.artifact = opened.scope.artifact? ∧ x.declaredTypes = [] ∧
        x.mainType = none := by
    intro k x hx
    unfold OpenProject.initial at hx
    rw [get?_units_withSource] at hx
    split at hx
    · next hk =>
      cases hx
      exact .inr ⟨hk, rfl, rfl, rfl, rfl⟩
    · exact .inl hx
  refine h.graph.of_units (extends_withSource ..) rfl rfl ?_ ?_
  · intro k x hx
    rcases hunit hx with hx' | ⟨-, -, -, hd⟩
    · exact .inl hx'
    · exact .inr hd
  · intro a b x y hx hy hpath hartifact
    rcases hunit hx with hx' | ⟨rfl, hpx, hax, -⟩ <;> rcases hunit hy with hy' | ⟨rfl, hpy, hay, -⟩
    · exact h.graph.path hx' hy' hpath hartifact
    · exact absurd (hartifact.trans hay) (Graph.ne_of_unitAt?_eq_none hn hx' (hpath.trans hpy))
    · exact absurd (hartifact.symm.trans hax)
        (Graph.ne_of_unitAt?_eq_none hn hy' (hpath.symm.trans hpx))
    · rfl

/-- What the three passes give: types that the unit declares, or a failure of the store. -/
def Gives (opened : OpenProject) (unit : UnitId) (graph : Graph) :
    Except GraphError Declarations → Prop
  | .ok declared => ∀ type ∈ declared.types, Twins.DeclaredBy unit graph type
  | .error _ => opened.scope.artifact? = none ∧ opened.store.answers = false

/-- The three passes over a new file stay in tandem with themselves. -/
theorem scanned_diagonal (hs : opened.Sound) (ht : opened.Tidy) {recordAccesses : Bool}
    {result : Except GraphError Declarations} {s : ScanState}
    (hr : scanTypes recordAccesses ⟨opened.store.graph.units.nextId, file⟩
      (Header.ofTree file parsed.root).1 path parsed.root (opened.initial file path parsed) =
        (result, s)) :
    (Twins.ofOpened opened opened file file path parsed).Paired s s ∧
      Twins.SameAnswers opened.store.answers s s ∧
      opened.Gives opened.store.graph.units.nextId s.store.graph result := by
  have hready : (Twins.ofOpened opened opened file file path parsed).Ready :=
    Twins.ready_ofOpened hs hs
  have hlookup : (Twins.ofOpened opened opened file file path parsed).Lookup
      (Twins.SameAnswers opened.store.answers) (fun _ => True)
      (opened.scope.artifact? = none ∧ opened.store.answers = false) :=
    Twins.lookup_diagonal hready ht.graph.blank
  have hq : Twins.SameAnswers opened.store.answers (opened.initial file path parsed)
      (opened.initial file path parsed) := ⟨rfl, rfl, rfl, fun _ => rfl, ht.borrowed⟩
  obtain ⟨hp, hq', hv⟩ := Twins.scanned rfl hlookup hs hs rfl rfl hq hr hr (by
    cases result with
    | ok declared => exact fun _ _ => trivial
    | error e => exact fun _ => trivial)
  refine ⟨hp, hq', ?_⟩
  cases result with
  | ok declared =>
    intro type htype
    obtain ⟨other, -, hd⟩ := mem_of_forall₂ hv.types htype
    exact hd.left
  | error e => exact hv

/-- The scan of a new unit leaves the project tidy. -/
private theorem scanNew_tidy (hs : opened.Sound) (ht : opened.Tidy) (recordAccesses : Bool)
    (file : FileId) (hn : opened.store.graph.unitAt? path opened.scope.artifact? = none) :
    (scanNew recordAccesses file path parsed opened).2.Tidy := by
  cases hr : scanTypes recordAccesses ⟨opened.store.graph.units.nextId, file⟩
      (Header.ofTree file parsed.root).1 path parsed.root (opened.initial file path parsed) with
  | mk result s =>
    obtain ⟨hp, hq, -⟩ := scanned_diagonal hs ht hr
    rw [scanNew_run hs.artifact_known hn hr]
    exact ⟨(ht.initial file parsed hn).scanned ⟨_, unit_initial opened file path parsed⟩ hp,
      hq.borrowed⟩

/-- The scan of any text leaves the project tidy. -/
theorem scanSource_tidy (hs : opened.Sound) (ht : opened.Tidy) (config : ScanConfig)
    (path text : String) : (scanSource config path text opened).2.Tidy := by
  unfold scanSource
  cases hu : opened.store.graph.unitAt? path opened.scope.artifact? with
  | none =>
    have hs' : (opened.seeing path).Sound := hs
    have ht' : (opened.seeing path).Tidy := ⟨ht.graph, ht.borrowed⟩
    rw [scanParsed_new _ _ hu]
    exact scanNew_tidy hs' ht' _ _ hu
  | some unit =>
    obtain ⟨node, hn, -⟩ := Graph.get?_of_unitAt? hu
    rw [scanParsed_existing _ _ hu hn]
    exact ⟨ht.graph, ht.borrowed⟩

end OpenProject

end JavaGraph
