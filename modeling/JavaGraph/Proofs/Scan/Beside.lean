import JavaGraph.Proofs.Scan.Twins
import JavaGraph.Proofs.Scan.Pairs
import JavaGraph.Proofs.Scan.Solo
import JavaGraph.Proofs.Scan.Tidy
/-!
# A file that is scanned beside others

In the scope of an artifact without dependencies, a file that declares names of its own is scanned
as if it were the first one. `OpenProject.Scanned` says what there is after some files: what was
there before, and what each of them leaves when it is the first one.
-/

namespace JavaGraph

open List (Forall₂)
open JavaGraph.Action
open JavaGraph.Graph (SameType SameUnit Since Extends outline)

/-- The text of a file, and its path. -/
structure SourceText where
  path : String
  text : String
deriving DecidableEq, Repr

namespace OpenProject

/-- Scan a file. -/
def scanOne (config : ScanConfig) (source : SourceText) : OpenAction UnitReport :=
  scanSource config source.path source.text

end OpenProject

/-! ### Graphs in which units have come in -/

namespace Graph

/-- The graph has got other units. What was declared is as it was. -/
structure Kept (home : Universe) (before after : Graph) : Prop where
  extended : Extends before after
  complete : ∀ {id x}, before.types.get? id = some x → x.isComplete = true →
    after.types.get? id = some x
  within : ∀ {id y}, after.types.get? id = some y → before.types.get? id = none → y.home = home
  unit : ∀ {k x}, before.units.get? k = some x →
    ∃ y, after.units.get? k = some y ∧ outline y = outline x
  uses : NewUses before after
  dependencies : ∀ artifact, after.dependenciesOf artifact = before.dependenciesOf artifact

namespace Kept

variable {home : Universe} {graph middle after : Graph}

/-- Nothing has come in. -/
theorem refl (home : Universe) (graph : Graph) : Kept home graph graph where
  extended := .refl graph
  complete hx _ := hx
  within hy hn := by
    rw [hn] at hy
    cases hy
  unit hx := ⟨_, hx, rfl⟩
  uses := .of_eq rfl
  dependencies _ := rfl

/-- More and more units come in. -/
theorem trans (h : Kept home graph middle) (h' : Kept home middle after) :
    Kept home graph after where
  extended := h.extended.trans h'.extended
  complete hx hc := h'.complete (h.complete hx hc) hc
  within := by
    intro id z hz hn
    cases hy : middle.types.get? id with
    | none => exact h'.within hz hy
    | some y =>
      have hl := h'.extended.label (label_of_get? hy)
      rw [label_of_get? hz, Option.some_inj, Prod.mk.injEq] at hl
      rw [hl.2]
      exact h.within hy hn
  unit hx := by
    obtain ⟨y, hy, hyx⟩ := h.unit hx
    obtain ⟨z, hz, hzy⟩ := h'.unit hy
    exact ⟨z, hz, hzy.trans hyx⟩
  uses := h.uses.trans h'.uses h.extended.function
  dependencies artifact := (h'.dependencies artifact).trans (h.dependencies artifact)

/-- A new unit has come in. -/
theorem of_since (h : Since graph.units.nextId home graph after) (hc : graph.Consistent)
    (hu : NewUses graph after) : Kept home graph after where
  extended := h.extended
  complete := by
    intro id x hx hi
    refine h.foreign hx hi fun hs => ?_
    obtain ⟨node, hn, -⟩ := hc.complete_declared hx hs
    rw [Arena.get?_nextId] at hn
    cases hn
  within := h.within
  unit := by
    intro k x hx
    have ho := h.others (Arena.ne_nextId hx)
    rw [hx] at ho
    exact Option.map_eq_some_iff.1 ho
  uses := hu
  dependencies := h.dependencies

/-- A universe keeps its names. -/
theorem has (h : Kept home graph after) {name : QualifiedName} {other : Universe}
    (hn : graph.Has name other) : after.Has name other := by
  obtain ⟨id, hl⟩ := has_iff.1 hn
  exact has_iff.2 ⟨id, h.extended.label hl⟩

end Kept

/-- In a tidy graph the uses of fields are by known functions. -/
theorem Tidy.usesKnown {graph : Graph} (h : graph.Tidy) : graph.UsesKnown := by
  intro access hm
  obtain ⟨-, owner, x, hx, hc, hf⟩ := h.access hm
  obtain ⟨-, -, y, -, hy, -⟩ := mem_of_forall₂ (h.type hx hc).functions hf
  exact ⟨y, hy⟩

/-- The names of the types that a unit declares. -/
def namesDeclaredBy (graph : Graph) (unit : UnitId) : List QualifiedName :=
  match graph.units.get? unit with
  | none => []
  | some node => node.declaredTypes.filterMap fun id => (graph.types.get? id).map (·.name)

/-- A unit declares the names of the types that are complete by it. -/
theorem Consistent.mem_namesDeclaredBy {graph : Graph} (h : graph.Consistent) {id : TypeId}
    {x : TypeNode} {unit : UnitId} (hx : graph.types.get? id = some x)
    (hs : x.state = .complete unit) : x.name ∈ graph.namesDeclaredBy unit := by
  obtain ⟨node, hn, hm⟩ := h.complete_declared hx hs
  unfold namesDeclaredBy
  rw [hn]
  refine List.mem_filterMap.2 ⟨id, hm, ?_⟩
  rw [hx]
  rfl

end Graph

/-- The graph in which other units have come in has what was there before. -/
theorem Twins.based_ofOpened {opened opened' : OpenProject} {file file' : FileId} {path : String}
    {parsed : ParsedSource} {home : Universe}
    (h : Graph.Kept home opened.store.graph opened'.store.graph) :
    (Twins.ofOpened opened opened' file file' path parsed).Based where
  types hx hc := h.complete hx hc
  units := by
    intro k x hx hk
    change k ≠ opened.store.graph.units.nextId at hk
    change (OpenProject.withSource ..).units.get? k = some x at hx
    rw [OpenProject.get?_units_withSource, if_neg hk] at hx
    obtain ⟨y, hy, hp, ha⟩ := h.extended.unit hx
    refine ⟨Arena.ne_nextId hy, y, ?_, hp, ha⟩
    change (OpenProject.withSource ..).units.get? k = some y
    rw [OpenProject.get?_units_withSource, if_neg (Arena.ne_nextId hy), hy]

/-! ### A new file -/

namespace OpenProject

variable {config : ScanConfig} {opened : OpenProject} {source : SourceText}

/-- The text of a file, parsed. -/
abbrev parsed (config : ScanConfig) (source : SourceText) : ParsedSource :=
  parseSource source.text (config.parseOptions source.path)

/-- The identifier of a file. -/
abbrev fileOf (opened : OpenProject) (source : SourceText) : FileId :=
  (opened.files.idOf source.path).1

/-- The three passes over a new file. -/
def passes (config : ScanConfig) (opened : OpenProject) (source : SourceText) :
    Except GraphError Declarations × ScanState :=
  scanTypes config.recordAccesses ⟨opened.store.graph.units.nextId, opened.fileOf source⟩
    (Header.ofTree (opened.fileOf source) (parsed config source).root).1 source.path
    (parsed config source).root
    ((opened.seeing source.path).initial (opened.fileOf source) source.path (parsed config source))

/-- A new file is scanned in three passes if the artifact of the scope is known. -/
theorem scanOne_passes (config : ScanConfig)
    (h : ∀ {owner}, opened.scope.artifact? = some owner →
      ∃ node, opened.store.graph.artifacts.get? owner = some node)
    (hn : opened.store.graph.unitAt? source.path opened.scope.artifact? = none) :
    scanOne config source opened =
      ((passes config opened source).1.map fun declared =>
          newReport opened.store.graph.units.nextId (opened.fileOf source) source.path
            (parsed config source) declared (passes config opened source).2.diagnostics,
        { opened.seeing source.path with
          store := (passes config opened source).2.store
          scope := (passes config opened source).2.scope }) := by
  have h' : ∀ {owner}, (opened.seeing source.path).scope.artifact? = some owner →
      ∃ node, (opened.seeing source.path).store.graph.artifacts.get? owner = some node := h
  unfold scanOne scanSource
  rw [scanParsed_new _ _ hn, scanNew_run h' hn rfl]
  rfl

/-- A new file is scanned in three passes. -/
theorem scanOne_new (config : ScanConfig) (hs : opened.Sound)
    (hn : opened.store.graph.unitAt? source.path opened.scope.artifact? = none) :
    scanOne config source opened =
      ((passes config opened source).1.map fun declared =>
          newReport opened.store.graph.units.nextId (opened.fileOf source) source.path
            (parsed config source) declared (passes config opened source).2.diagnostics,
        { opened.seeing source.path with
          store := (passes config opened source).2.store
          scope := (passes config opened source).2.scope }) :=
  scanOne_passes config hs.artifact_known hn

/-- A file that is there already is not scanned again. -/
theorem scanOne_existing (config : ScanConfig) {unit : UnitId} {node : CompilationUnit}
    (hu : opened.store.graph.unitAt? source.path opened.scope.artifact? = some unit)
    (hn : opened.store.graph.units.get? unit = some node) :
    scanOne config source opened =
      (.ok (oldReport unit (opened.fileOf source) source.path node), opened.seeing source.path) :=
  scanParsed_existing _ _ hu hn

/-- The scope of an artifact without dependencies is open in a sound and tidy project. -/
structure Independent (opened : OpenProject) : Prop where
  sound : opened.Sound
  tidy : opened.Tidy
  scope : opened.scope.Independent

/-- The three passes over a new file do not fail in an independent scope. What they give is
declared by the unit. -/
theorem Independent.passes_ok (h : opened.Independent) (config : ScanConfig)
    (source : SourceText) :
    ∃ declared, (passes config opened source).1 = .ok declared ∧
      ∀ type ∈ declared.types, Twins.DeclaredBy opened.store.graph.units.nextId
        (passes config opened source).2.store.graph type := by
  have hs : (opened.seeing source.path).Sound := h.sound
  have ht : (opened.seeing source.path).Tidy := ⟨h.tidy.graph, h.tidy.borrowed⟩
  cases hr : passes config opened source with
  | mk result s =>
    obtain ⟨-, -, hg⟩ := scanned_diagonal hs ht hr
    cases result with
    | ok declared => exact ⟨declared, rfl, hg⟩
    | error e =>
      obtain ⟨own, hscope, -⟩ := h.scope
      have hnone : opened.scope.artifact? = none := hg.1
      rw [hscope] at hnone
      cases hnone

/-- The project after the scan of a file. -/
def after (config : ScanConfig) (opened : OpenProject) (source : SourceText) : OpenProject :=
  (scanOne config source opened).2

/-- The names that a file declares if it is scanned now. -/
def declaredNames (config : ScanConfig) (opened : OpenProject) (source : SourceText) :
    List QualifiedName :=
  match scanOne config source opened with
  | (.ok report, after) => after.store.graph.namesDeclaredBy report.unit
  | (.error _, _) => []

/-- The graph after the scan of a new file is that of the three passes. -/
theorem graph_after (config : ScanConfig) (hs : opened.Sound)
    (hn : opened.store.graph.unitAt? source.path opened.scope.artifact? = none) :
    (after config opened source).store.graph = (passes config opened source).2.store.graph := by
  unfold after
  rw [scanOne_new config hs hn]

/-- A new file declares what is complete by its unit. -/
theorem mem_declaredNames (h : opened.Independent)
    (hn : opened.store.graph.unitAt? source.path opened.scope.artifact? = none) {id : TypeId}
    {x : TypeNode} (hx : (after config opened source).store.graph.types.get? id = some x)
    (hs : x.state = .complete opened.store.graph.units.nextId) :
    x.name ∈ declaredNames config opened source := by
  obtain ⟨declared, hr, -⟩ := h.passes_ok config source
  have hsound := scanSource_sound opened config source.path source.text h.sound
  change (scanOne config source opened).2.Sound at hsound
  unfold after at hx
  unfold declaredNames
  rw [scanOne_new config h.sound hn, hr] at *
  exact hsound.consistent.mem_namesDeclaredBy hx hs

end OpenProject

/-! ### A file beside others -/

namespace OpenProject

/-- A unit has in a graph what the file leaves if it is scanned as the first one. -/
structure Leaves (config : ScanConfig) (first : OpenProject) (source : SourceText) (graph : Graph)
    (unit : UnitId) : Prop where
  imprint : ∃ P : Twins, P.source.unit = first.store.graph.units.nextId ∧ P.source'.unit = unit ∧
    P.Imprint (first.after config source).store.graph graph
  node : ∃ node, graph.units.get? unit = some node ∧ node.path = source.path ∧
    node.artifact = first.scope.artifact?
  new : first.store.graph.unitAt? source.path first.scope.artifact? = none

/-- The report on a file is the one on the file as the first one. -/
def Reports (config : ScanConfig) (first : OpenProject) (source : SourceText)
    (opened : OpenProject) (report : UnitReport) : Prop :=
  ∃ other, (scanOne config source first).1 = .ok other ∧
    UnitReport.Alike (FileSet.SameFile (first.after config source).files opened.files)
      (SameUnit (first.after config source).store.graph opened.store.graph)
      (SameType (first.after config source).store.graph opened.store.graph) other report

/-- What there is after the scans of some files: what was there before, and what the files leave
if they are scanned as first ones. -/
structure Scanned (config : ScanConfig) (first : OpenProject) (done : List SourceText)
    (opened : OpenProject) : Prop where
  independent : opened.Independent
  artifact : opened.scope.artifact? = first.scope.artifact?
  files : ∀ {file path}, first.files.path? file = some path →
    opened.files.path? file = some path
  kept : Graph.Kept first.scope.artifact? first.store.graph opened.store.graph
  type : ∀ {id y}, opened.store.graph.types.get? id = some y → y.isComplete = true →
    first.store.graph.types.get? id = some y ∨ ∃ source ∈ done, ∃ unit,
      first.Leaves config source opened.store.graph unit ∧ y.state = .complete unit
  unit : ∀ {k y}, opened.store.graph.units.get? k = some y →
    (∃ x, first.store.graph.units.get? k = some x ∧ outline y = outline x) ∨
      ∃ source ∈ done, first.Leaves config source opened.store.graph k
  left : ∀ source ∈ done,
    first.store.graph.unitAt? source.path first.scope.artifact? = none →
      ∃ unit, first.Leaves config source opened.store.graph unit
  has : ∀ name, opened.store.graph.Has name first.scope.artifact? ↔
    first.store.graph.Has name first.scope.artifact? ∨ ∃ source ∈ done,
      (first.after config source).store.graph.Has name first.scope.artifact?

variable {config : ScanConfig} {first opened next : OpenProject} {done : List SourceText}
  {source : SourceText}

/-- What a file leaves stays when another unit comes in. -/
theorem Leaves.later {graph graph' : Graph} {unit other : UnitId} {home : Universe}
    (h : first.Leaves config source graph unit) (hs : Since other home graph graph')
    (hu : graph.units.get? other = none) (hn : Graph.NewUses graph graph') :
    first.Leaves config source graph' unit where
  imprint := by
    obtain ⟨P, hP, rfl, hi⟩ := h.imprint
    refine ⟨P, hP, rfl, hi.later hs ?_ hn⟩
    rintro rfl
    obtain ⟨node, hnode, -⟩ := h.node
    rw [hu] at hnode
    cases hnode
  node := by
    obtain ⟨node, hnode, hp, ha⟩ := h.node
    obtain ⟨node', hnode', hp', ha'⟩ := hs.extended.unit hnode
    exact ⟨node', hnode', hp'.trans hp, ha'.trans ha⟩
  new := h.new

/-- The report on a file stays right. -/
theorem Reports.later {report : UnitReport} (h : first.Reports config source opened report)
    (hf : ∀ {file path}, opened.files.path? file = some path → next.files.path? file = some path)
    (he : Extends opened.store.graph next.store.graph) :
    first.Reports config source next report := by
  obtain ⟨other, hr, halike⟩ := h
  refine ⟨other, hr, halike.imp ?_ (fun hu => hu.mono (.refl _) he) fun ht => ht.mono (.refl _) he⟩
  rintro a b ⟨path, ha, hb⟩
  exact ⟨path, ha, hf hb⟩

/-- The scan of a file as the first one, and as a later one. -/
abbrev twins (config : ScanConfig) (first opened : OpenProject) (source : SourceText) : Twins :=
  Twins.ofOpened (first.seeing source.path) (opened.seeing source.path) (first.fileOf source)
    (opened.fileOf source) source.path (parsed config source)

/-- Names that no file before has declared are free. -/
private theorem Scanned.free (h : first.Scanned config done opened) (hf : first.Independent)
    (hd : ∀ other ∈ done,
      (declaredNames config first other).Disjoint (declaredNames config first source))
    {name : QualifiedName} (hm : name ∈ declaredNames config first source) :
    (twins config first opened source).Free name := by
  rintro unit ⟨id, y, hy, hn, hh, hs⟩
  rcases h.type hy (TypeNode.isComplete_eq_true.2 ⟨unit, hs⟩) with hx | ⟨other, ho, unit', hl, hs'⟩
  · exact ⟨unit, id, y, hx, hn, hh, hs⟩
  · obtain ⟨P, hP, rfl, hi⟩ := hl.imprint
    obtain ⟨id', x, hx, hxy⟩ := hi.owned' hy hs'
    have hmem : x.name ∈ declaredNames config first other := by
      refine mem_declaredNames hf hl.new hx ?_
      rw [hxy.state' hs', hP]
    rw [hxy.name, hn] at hmem
    exact absurd hm (hd other ho hmem)

/-- A file is scanned beside itself as the first one. -/
theorem Scanned.beside (h : first.Scanned config done opened) (hf : first.Independent)
    (hn : first.store.graph.unitAt? source.path first.scope.artifact? = none)
    (hd : ∀ other ∈ done,
      (declaredNames config first other).Disjoint (declaredNames config first source)) :
    ∃ declared declared', (passes config first source).1 = .ok declared ∧
      (passes config opened source).1 = .ok declared' ∧
      (twins config first opened source).Paired (passes config first source).2
        (passes config opened source).2 ∧
      (twins config first opened source).Beside (passes config first source).2
        (passes config opened source).2 ∧
      Declarations.Alike ((twins config first opened source).Declares
        (passes config first source).2.store.graph (passes config opened source).2.store.graph)
        declared declared' := by
  obtain ⟨declared, hr, hdeclared⟩ := hf.passes_ok config source
  have hs : (first.seeing source.path).Sound := hf.sound
  have hs' : (opened.seeing source.path).Sound := h.independent.sound
  have hkept : Graph.Kept first.scope.artifact? (first.seeing source.path).store.graph
      (opened.seeing source.path).store.graph := h.kept
  have hready : (twins config first opened source).Ready := Twins.ready_ofOpened hs hs'
  have hbased : (twins config first opened source).Based := Twins.based_ofOpened hkept
  have hbeside : (twins config first opened source).Beside
      ((first.seeing source.path).initial (first.fileOf source) source.path (parsed config source))
      ((opened.seeing source.path).initial (opened.fileOf source) source.path
        (parsed config source)) := by
    refine ⟨hf.scope, h.independent.scope, fun name => ⟨.inl, ?_⟩⟩
    rintro (hname | hname)
    · exact hname
    · exact h.kept.has hname
  have hadmits : ∀ type ∈ declared.types,
      (twins config first opened source).Free type.name := by
    intro type htype
    obtain ⟨x, hx, hnx, hsx, -⟩ := (hdeclared type htype).self
    refine h.free hf hd ?_
    rw [← hnx]
    exact mem_declaredNames hf hn (by rw [graph_after config hf.sound hn, hx]) hsx
  have hrun : passes config first source = (.ok declared, (passes config first source).2) :=
    Prod.ext hr rfl
  have hrun' : passes config opened source =
      ((passes config opened source).1, (passes config opened source).2) := rfl
  obtain ⟨hp, hb, hv⟩ := Twins.scanned rfl
    (Twins.lookup_solo hready hf.tidy.graph.blank h.independent.tidy.graph.blank hbased id)
    hs hs' h.artifact (h.kept.dependencies _) hbeside hrun hrun' hadmits
  cases hr' : (passes config opened source).1 with
  | ok declared' =>
    rw [hr'] at hv
    exact ⟨declared, declared', hr, rfl, hp, hb, hv⟩
  | error e =>
    rw [hr'] at hv
    exact False.elim hv

end OpenProject

end JavaGraph
