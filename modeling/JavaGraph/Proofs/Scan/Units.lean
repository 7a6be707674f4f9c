import JavaGraph.Proofs.Scan.Declaring
import JavaGraph.Proofs.Scan.Walk
/-!
# Two scans of a new unit

The same file is scanned as a new unit in two open projects. The scans begin alike, so if the
scopes answer alike, what they record is alike in the end.
-/

namespace JavaGraph

open List (Forall₂)
open JavaGraph.Graph (SameType SameUnit Since)

/-! ### The new unit -/

namespace OpenProject

/-- Of the graph, only the unit is new. -/
theorem since_withSource (graph : Graph) (path : String) (artifact home : Option ArtifactId)
    (package : Option String) (mayNotCompile : Bool) :
    Since graph.units.nextId home graph (withSource graph path artifact package mayNotCompile) where
  extended := extends_withSource ..
  foreign hx _ _ := hx
  own hx hs := ⟨_, hx, hs, rfl, List.Subset.refl _, List.Subset.refl _⟩
  placeholder hx _ := .inl hx
  back hy _ := .inl hy
  within hy hn := by
    change graph.types.get? _ = _ at hy
    rw [hn] at hy
    cases hy
  others hk := by rw [get?_units_withSource, if_neg hk]
  requires := by
    intro k x y hk hx hy
    rw [get?_units_withSource, if_neg hk, hx] at hy
    cases hy
    exact Graph.freed_refl _ rfl
  dependencies owner := by
    unfold withSource Graph.withUnit Graph.dependenciesOf
    cases owner with
    | none => rfl
    | some owner =>
      cases artifact with
      | none => rfl
      | some artifact =>
        simp only
        rw [Arena.get?_modify]
        split
        · cases graph.artifacts.get? owner <;> rfl
        · rfl
  accesses := List.prefix_refl _

end OpenProject

/-! ### Headers -/

namespace Header

variable (P : Twins) (g g' : Graph)

/-- What is wrong with a piece is reported for either file. -/
private theorem add_alike (header : Header) (item : Item) :
    (header.add P.source.file item).1 = (header.add P.source'.file item).1 ∧
      Forall₂ (P.Diagnostics g g') (header.add P.source.file item).2
        (header.add P.source'.file item).2 := by
  unfold add
  cases item with
  | package segments => exact ⟨rfl, .nil⟩
  | importType declaration segments =>
    simp only
    cases segments.getLast? with
    | none => exact ⟨rfl, .nil⟩
    | some simple =>
      simp only
      cases QualifiedName.parse (Name.binary segments) with
      | ok name => exact ⟨rfl, .nil⟩
      | error e => exact ⟨rfl, .cons ⟨⟨rfl, rfl⟩, rfl, rfl, .alone rfl⟩ .nil⟩

private theorem addAll_alike (items : List Item) (header : Header) :
    (addAll P.source.file header items).1 = (addAll P.source'.file header items).1 ∧
      Forall₂ (P.Diagnostics g g') (addAll P.source.file header items).2
        (addAll P.source'.file header items).2 := by
  induction items generalizing header with
  | nil => exact ⟨rfl, .nil⟩
  | cons item rest ih =>
    obtain ⟨he, hd⟩ := add_alike P g g' header item
    obtain ⟨hre, hrd⟩ := ih (header.add P.source.file item).1
    unfold addAll
    simp only
    rw [← he]
    exact ⟨hre, List.rel_append hd hrd⟩

/-- Both files have the same header, and the same is wrong with it. -/
theorem ofTree_alike (root : Tree) :
    (ofTree P.source.file root).1 = (ofTree P.source'.file root).1 ∧
      Forall₂ (P.Diagnostics g g') (ofTree P.source.file root).2 (ofTree P.source'.file root).2 :=
  addAll_alike P g g' _ _

end Header

/-- The new unit of a file. -/
theorem OpenProject.unit_initial (opened : OpenProject) (file : FileId) (path : String)
    (parsed : ParsedSource) :
    (opened.initial file path parsed).store.graph.units.get? opened.store.graph.units.nextId =
      some {
        path
        artifact := opened.scope.artifact?
        dependencies := opened.store.graph.dependenciesOf opened.scope.artifact?
        package := (Header.ofTree file parsed.root).1.package
        mayNotCompile := parsed.hasErrors } := by
  unfold OpenProject.initial
  rw [OpenProject.get?_units_withSource, if_pos rfl]

namespace Twins

/-- The scans of a file as a new unit in two open projects. -/
def ofOpened (opened opened' : OpenProject) (file file' : FileId) (path : String)
    (parsed : ParsedSource) (whole : Prop := False) : Twins where
  source := ⟨opened.store.graph.units.nextId, file⟩
  source' := ⟨opened'.store.graph.units.nextId, file'⟩
  home := opened.scope.artifact?
  start := (opened.initial file path parsed).store.graph
  start' := (opened'.initial file' path parsed).store.graph
  whole := whole

variable {opened opened' : OpenProject} {file file' : FileId} {path : String}
  {parsed : ParsedSource} {whole : Prop}

/-- A unit that is not there yet declares nothing. -/
theorem declares_nothing {graph : Graph} (hc : graph.Consistent) {id : TypeId}
    {x : TypeNode} (hx : graph.types.get? id = some x) :
    x.state ≠ .complete graph.units.nextId := by
  intro hs
  obtain ⟨node, hn, -⟩ := hc.complete_declared hx hs
  rw [Arena.get?_nextId] at hn
  cases hn

/-- The new units declare nothing yet. -/
theorem ready_ofOpened (h : opened.Sound) (h' : opened'.Sound) :
    (ofOpened opened opened' file file' path parsed whole).Ready where
  new hx := declares_nothing h.consistent hx
  new' hx := declares_nothing h'.consistent hx

/-- Both scans begin alike. -/
theorem paired_initial (h : opened.Sound) (h' : opened'.Sound)
    (hs : opened'.scope.artifact? = opened.scope.artifact?)
    (hd : opened'.store.graph.dependenciesOf opened.scope.artifact? =
      opened.store.graph.dependenciesOf opened.scope.artifact?) :
    (ofOpened opened opened' file file' path parsed whole).Paired (opened.initial file path parsed)
      (opened'.initial file' path parsed) where
  sound := OpenProject.initial_sound file path parsed h
  sound' := OpenProject.initial_sound file' path parsed h'
  scope := rfl
  scope' := hs
  graphs :=
    { since := .refl ..
      since' := .refl ..
      owned := fun hx hx' => absurd hx' (declares_nothing h.consistent hx)
      owned' := fun hx hx' => absurd hx' (declares_nothing h'.consistent hx)
      fields := ⟨0, rfl, rfl⟩
      functions := ⟨0, rfl, rfl⟩
      unit := by
        refine ⟨_, _, OpenProject.unit_initial opened file path parsed,
          OpenProject.unit_initial opened' file' path parsed, rfl, ?_, hs.symm, rfl, .nil, .none, ?_⟩
        · exact congrArg Header.package (Header.ofTree_alike
            (ofOpened opened opened' file file' path parsed) {} {} parsed.root).1
        · rw [hs, hd]
      accesses := ⟨[], [], (List.append_nil _).symm, (List.append_nil _).symm, .nil⟩
      surroundings := .refl _
      surroundings' := .refl _ }
  dependencies := .nil
  diagnostics := by
    refine List.rel_append ?_ (Header.ofTree_alike _ _ _ parsed.root).2
    rw [List.forall₂_map_left_iff, List.forall₂_map_right_iff]
    exact List.forall₂_same.2 fun _ _ => ⟨⟨rfl, rfl⟩, rfl, rfl, .alone rfl⟩

/-- The three passes over the file in both projects. If what the first scan declares is admitted,
both succeed with the same, or both fail. -/
theorem scanned {Q : ScanState → ScanState → Prop} {admits : QualifiedName → Prop} {mayFail : Prop}
    {P : Twins} (hP : P = ofOpened opened opened' file file' path parsed whole)
    (hl : P.Lookup Q admits mayFail) (h : opened.Sound) (h' : opened'.Sound)
    (hs : opened'.scope.artifact? = opened.scope.artifact?)
    (hd : opened'.store.graph.dependenciesOf opened.scope.artifact? =
      opened.store.graph.dependenciesOf opened.scope.artifact?)
    (hq : Q (opened.initial file path parsed) (opened'.initial file' path parsed))
    {recordAccesses : Bool} {result result' : Except GraphError Declarations} {s t : ScanState}
    (hr : scanTypes recordAccesses P.source (Header.ofTree file parsed.root).1 path parsed.root
      (opened.initial file path parsed) = (result, s))
    (hr' : scanTypes recordAccesses P.source' (Header.ofTree file' parsed.root).1 path parsed.root
      (opened'.initial file' path parsed) = (result', t))
    (ha : (P.tandem Q admits mayFail).Admits (·.types) result) :
    P.Paired s t ∧ Q s t ∧
      match result, result' with
      | .ok x, .ok y => Declarations.Alike (P.Declares s.store.graph t.store.graph) x y
      | .error _, .error _ => mayFail
      | _, _ => False := by
  have hheader : (Header.ofTree file parsed.root).1 = (Header.ofTree file' parsed.root).1 :=
    (Header.ofTree_alike (ofOpened opened opened' file file' path parsed) {} {} parsed.root).1
  have hw : (P.tandem Q admits mayFail).Holds (P.start, P.start')
      (opened.initial file path parsed) (opened'.initial file' path parsed) := by
    subst hP
    exact ⟨rfl, paired_initial h h' hs hd, hq⟩
  have ho : (P.tandem Q admits mayFail).Outcome (P.start, P.start')
      (fun w => Declarations.Alike (P.Declares w.1 w.2)) (result, s) (result', t) := by
    rw [← hr, ← hr', ← hheader]
    refine Tandem.runs_scanTypes (lawful hl) recordAccesses _ path parsed.root (fun _ => trivial) _ _
      hw ?_
    change Tandem.Admits _ _ (scanTypes recordAccesses P.source _ path parsed.root _).1
    rw [hr]
    exact ha
  obtain ⟨_, -, ⟨rfl, hp, hq'⟩, hv⟩ := ho
  refine ⟨hp, hq', ?_⟩
  cases result <;> cases result' <;> exact hv

end Twins

end JavaGraph
