import JavaGraph.Proofs.Scan.Listing
import JavaGraph.Proofs.Session.Intact
import JavaGraph.Proofs.Session.Settled
/-!
# Members in their order, for good

The functions and the fields of a scanned type are those that are written in its body, one for each
and in the same order, and so are the parameters of its functions. What is left out because its type
is malformed is said in the report on the file. What is scanned later changes nothing about that.
-/

namespace JavaGraph

open List (Forall₂)
open JavaGraph.Action

/-- The members of a declared type stay as they are. -/
theorem ReferenceSite.Listed.later {site : ReferenceSite} {graph later : Graph} {x : TypeNode}
    {body : Tree} (h : site.Listed graph x body) (hp : Graph.Preserves graph later) :
    site.Listed later x body where
  known := hp.declared h.known h.complete
  complete := h.complete
  functions := h.functions.imp fun _ _ hl => hl.mono hp.toKeepsMembers
  fields := h.fields.imp fun _ _ hl => hl.mono hp.toKeepsMembers

/-- No parameter has two places in its function. -/
theorem Graph.Intact.nodup_parameters {graph : Graph} (h : graph.Intact) {function : FunctionId}
    {y : Function} (hy : graph.functions.get? function = some y) : y.parameters.Nodup := by
  refine List.pairwise_iff_getElem.2 fun i j hi hj hij he => ?_
  obtain ⟨z, hz, hzi, -⟩ := h.parameters hy (List.getElem?_eq_getElem hi)
  obtain ⟨other, ho, hoj, -⟩ := h.parameters hy (List.getElem?_eq_getElem hj)
  rw [he] at hz
  cases hz.symm.trans ho
  omega

namespace Session

variable {scope : Scope} {config : ScanConfig} {source : SourceText} {declared : Declarations}

/-- The report on a new file lists the types that the passes declare, and says what they say. -/
private theorem report_new {steps : List Step} (hnew : (run steps).ScansNew scope source)
    (hd : ((run steps).passes scope config source).1 = .ok declared) : ∃ report after,
      inScope? (OpenProject.scanSource config source.path source.text) (run steps) =
        some (.ok report, after) ∧
      report.declaredTypes = declared.types.map (·.id) ∧
      report.diagnostics = ((run steps).passes scope config source).2.diagnostics := by
  obtain ⟨hsound, -⟩ := hnew.opened (sound_run steps) (tidy_run steps)
  have hrun := OpenProject.scanOne_new config hsound hnew.path
  unfold passes at hd ⊢
  rw [hd] at hrun
  unfold OpenProject.scanOne at hrun
  unfold inScope?
  simp only [hnew.scopes, hrun]
  exact ⟨_, _, rfl, rfl, rfl⟩

/-- After every run, the functions of a type of a scanned file are those of the methods, constructors
and initialisers in its body, and its fields are those of the enum constants and of the variables
that are declared with a well-formed type. Each function has the parameters that have a name and a
well-formed type. All are listed in the order in which they are written. The report on the file
refuses the types of all fields and parameters that are left out. -/
theorem listed_run (before later : List Step) {type : DeclaredType} {body : Tree}
    (hnew : (run before).ScansNew scope source)
    (hd : ((run before).passes scope config source).1 = .ok declared)
    (ht : type ∈ declared.types) (hb : type.body? = some body) :
    let opened : OpenProject := { (run before).project with scope }
    let site : ReferenceSite :=
      ⟨⟨opened.store.graph.units.nextId, opened.fileOf source⟩, declared, type⟩
    let graph := (run (before ++ .scan config source.path source.text :: later)).project.store.graph
    (∃ x, site.Listed graph x body ∧ x.functions.Nodup ∧ x.fields.Nodup ∧
      (∀ function, function ∈ x.functions ↔
        ∃ y, graph.functions.get? function = some y ∧ y.declaringType = type.id) ∧
      (∀ field, field ∈ x.fields ↔
        ∃ y, graph.fields.get? field = some y ∧ y.declaringType = type.id) ∧
      ∀ {function y}, graph.functions.get? function = some y → y.parameters.Nodup) ∧
    ∃ report after,
      inScope? (OpenProject.scanSource config source.path source.text) (run before) =
        some (.ok report, after) ∧
      report.declaredTypes = declared.types.map (·.id) ∧
      Refused site.source.file (body.children.flatMap site.malformedTypes) report.diagnostics := by
  intro opened site graph
  obtain ⟨hsound, htidy⟩ := hnew.opened (sound_run before) (tidy_run before)
  have hpreserves := preserves_run (before ++ [.scan config source.path source.text]) later
  rw [hnew.graph_run, List.append_assoc] at hpreserves
  have hintact : graph.Intact := intact_graph _
  have hr : OpenProject.passes config opened source =
      (.ok declared, ((run before).passes scope config source).2) := Prod.ext hd rfl
  obtain ⟨⟨x, hlisted⟩, hrefused⟩ := OpenProject.listed_passes hsound htidy hr ht hb
  have hlater : site.Listed graph x body := hlisted.later hpreserves
  refine ⟨⟨x, hlater, hintact.functions.nodup hlater.known, hintact.fields.nodup hlater.known,
    fun function => ?_, fun field => ?_, hintact.nodup_parameters⟩, ?_⟩
  · rw [hintact.functions.mem_iff hlater.known]
    simp [site]
  · rw [hintact.fields.mem_iff hlater.known]
    simp [site]
  · obtain ⟨report, after, hrun, htypes, hsaid⟩ := report_new hnew hd
    exact ⟨report, after, hrun, htypes, hsaid ▸ hrefused⟩

/-- Of three fields and two parameters, one each has a malformed type. The types of both are refused,
and the others are listed. -/
theorem listed_malformedTypes :
    let before : List Step := [.addArtifact "app" [], .enter (some ⟨0⟩)]
    let source : SourceText :=
      ⟨"A.java", "class A \x7b A$ x; int y, z; <T> A(A$ a, T b) \x7b \x7d \x7d"⟩
    let graph := (run (before ++ [.scan {} source.path source.text])).project.store.graph
    ∃ scope declared type body, (run before).ScansNew scope source ∧
      ((run before).passes scope {} source).1 = .ok declared ∧ type ∈ declared.types ∧
      type.body? = some body ∧
      let opened : OpenProject := { (run before).project with scope }
      let site : ReferenceSite :=
        ⟨⟨opened.store.graph.units.nextId, opened.fileOf source⟩, declared, type⟩
      body.children.map (·.kind) =
        [.token, .fieldDecl, .fieldDecl, .constructorDecl, .token] ∧
      (body.children.flatMap site.fieldNodes).map (·.declaredName?.map (·.text)) =
        [some "y", some "z"] ∧
      (body.children.map fun node => (site.listedVariables node).length) = [0, 0, 2, 1, 0] ∧
      (body.children.flatMap site.malformedTypes).map (·.identifiers.map (·.text)) =
        [["A$"], ["A$"]] ∧
      (∃ x, site.Listed graph x body) ∧
      ∃ report after,
        inScope? (OpenProject.scanSource {} source.path source.text) (run before) =
          some (.ok report, after) ∧
        Refused site.source.file (body.children.flatMap site.malformedTypes) report.diagnostics := by
  intro before source graph
  have hscopes : (run before).scopes.map (·.artifact?) = [some ⟨0⟩] := by decide +kernel
  obtain ⟨scope, hs, hartifact⟩ := List.map_eq_singleton_iff.1 hscopes
  have hnew : (run before).project.store.graph.unitAt? source.path scope.artifact? = none := by
    rw [hartifact]
    decide +kernel
  have hpasses : (run before).scopes.all (fun scope =>
      ((run before).passes scope {} source).1.toOption.any fun declared =>
        declared.types.any fun type => type.body?.any fun body =>
          let opened : OpenProject := { (run before).project with scope }
          let site : ReferenceSite :=
            ⟨⟨opened.store.graph.units.nextId, opened.fileOf source⟩, declared, type⟩
          body.children.map (·.kind) =
            [.token, .fieldDecl, .fieldDecl, .constructorDecl, .token] &&
          (body.children.flatMap site.fieldNodes).map (·.declaredName?.map (·.text)) =
            [some "y", some "z"] &&
          (body.children.map fun node => (site.listedVariables node).length) = [0, 0, 2, 1, 0] &&
          (body.children.flatMap site.malformedTypes).map (·.identifiers.map (·.text)) =
            [["A$"], ["A$"]]) = true := by
    decide +kernel
  rw [hs, List.all_cons, Bool.and_eq_true] at hpasses
  have hfacts := hpasses.1
  simp only [Bool.and_eq_true, decide_eq_true_eq, Option.any_eq_true, List.any_eq_true] at hfacts
  obtain ⟨declared, hd, type, ht, body, hb, ⟨⟨hkinds, hfields⟩, hlisted⟩, hmalformed⟩ := hfacts
  have hd := ok_of_toOption hd
  obtain ⟨⟨x, hx, -⟩, report, after, hrun, -, hrefused⟩ :=
    listed_run before [] ⟨hs, hnew⟩ hd ht hb
  exact ⟨scope, declared, type, body, ⟨hs, hnew⟩, hd, ht, hb, hkinds, hfields, hlisted, hmalformed,
    ⟨x, hx⟩, report, after, hrun, hrefused⟩

end Session

end JavaGraph
