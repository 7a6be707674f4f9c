import JavaGraph.Proofs.Scan.Spans
import JavaGraph.Proofs.Session.Intact
import JavaGraph.Proofs.Session.Uses
/-!
# Lines nest

The lines of what a scanned file declares are those of the tokens of its declarations. Those of a
type are among the lines of the type around it, those of functions and fields among the lines of
their type, and fields are used on the lines of the function that uses them. What is scanned later
changes none of these lines.
-/

namespace JavaGraph

open List (Forall₂)
open Text (LineSpan)

/-- What is scanned later changes no lines. -/
private theorem DeclaredType.Spanned.later {type : DeclaredType} {graph later : Graph} {x : TypeNode}
    {span : LineSpan} (h : type.Spanned graph x span) (hp : Graph.Preserves graph later)
    (hu : Graph.NewUses graph later) : type.Spanned later x span where
  known := hp.declared h.known h.complete
  complete := h.complete
  recorded := h.recorded
  node := h.node
  outer hid := by
    obtain ⟨y, around, hy, hc, hrest⟩ := h.outer hid
    exact ⟨y, around, hp.declared hy hc, hc, hrest⟩
  functions := h.functions.imp fun function node ⟨y, hy, hnode, hwithin, haccesses⟩ => by
    refine ⟨y, hp.function hy, hnode, hwithin, ?_⟩
    rw [hu.accessesFrom hy]
    exact haccesses
  fields field hf := by
    obtain ⟨y, hy, hline⟩ := h.fields field hf
    exact ⟨y, hp.field hy, hline⟩

namespace Session

/-- After every run, a type of a scanned file is on the lines from the first to the last token of its
declaration, or of its class body if it is anonymous, and so are its functions. The lines of a type
are among those of its declaring type, those of its functions and fields are among its own, and
every access is on a line of its function. -/
theorem spanned_run (before later : List Step) {scope : Scope} {config : ScanConfig}
    {source : SourceText} {declared : Declarations} {type : DeclaredType}
    (hnew : (run before).ScansNew scope source)
    (hd : ((run before).passes scope config source).1 = .ok declared)
    (ht : type ∈ declared.types) :
    let graph := (run (before ++ .scan config source.path source.text :: later)).project.store.graph
    (∃ place site, (OpenProject.parsed config source).root.at? place = some site ∧
      site.isSite = true ∧ type.node = site.typeNode) ∧
    ∃ x span, type.Spanned graph x span ∧
      (∀ function, function ∈ x.functions ↔
        ∃ y, graph.functions.get? function = some y ∧ y.declaringType = type.id) ∧
      ∀ field, field ∈ x.fields ↔
        ∃ y, graph.fields.get? field = some y ∧ y.declaringType = type.id := by
  intro graph
  obtain ⟨hsound, htidy⟩ := hnew.opened (sound_run before) (tidy_run before)
  have hpreserves := preserves_run (before ++ [.scan config source.path source.text]) later
  have huses := newUses_run (before ++ [.scan config source.path source.text]) later
  have hintact : graph.Intact := intact_graph _
  rw [hnew.graph_run, List.append_assoc] at hpreserves huses
  unfold passes at hd hpreserves huses
  cases hr : OpenProject.passes config { (run before).project with scope } source with
  | mk result s =>
    rw [hr] at hd hpreserves huses
    cases hd
    obtain ⟨found, start, hcontents⟩ := OpenProject.contents_passes hsound htidy hr
    obtain ⟨x, span, h⟩ := hcontents.spanned ht
    have hlater : type.Spanned graph x span := h.later hpreserves huses
    refine ⟨hcontents.site ht, x, span, hlater, fun function => ?_, fun field => ?_⟩
    · rw [hintact.functions.mem_iff hlater.known]
      simp
    · rw [hintact.fields.mem_iff hlater.known]
      simp

/-- A class from the first line to the eighth has a field on the second one and a method from the
third to the seventh, which writes the field on the fourth and has an anonymous class whose body
begins on the fifth line and ends on the sixth. -/
theorem spanned_anonymous :
    let before : List Step := [.addArtifact "app" [], .enter (some ⟨0⟩)]
    let source : SourceText := ⟨"A.java", "@Deprecated class A \x7b\n int x;\n void m() \x7b\n " ++
      "x = 1;\n new A() \x7b\n \x7d;\n \x7d\n\x7d\n"⟩
    let graph := (run (before ++ [.scan {} source.path source.text])).project.store.graph
    ∃ scope declared, (run before).ScansNew scope source ∧
      ((run before).passes scope {} source).1 = .ok declared ∧
      declared.types.map (·.id) = [⟨0⟩, ⟨1⟩] ∧
      (∀ type ∈ declared.types, ∃ x span, type.Spanned graph x span) ∧
      (graph.types.get? ⟨0⟩).map (·.span) = some (some ⟨1, 8⟩) ∧
      (graph.types.get? ⟨1⟩).map (·.span) = some (some ⟨5, 6⟩) ∧
      (graph.functions.get? ⟨0⟩).map (·.span) = some ⟨3, 7⟩ ∧
      (graph.fields.get? ⟨0⟩).map (·.line) = some 2 ∧
      (graph.accessesFrom ⟨0⟩).map (·.line) = [4] := by
  intro before source graph
  have hscopes : (run before).scopes.map (·.artifact?) = [some ⟨0⟩] := by decide +kernel
  obtain ⟨scope, hs, hartifact⟩ := List.map_eq_singleton_iff.1 hscopes
  have hn : (run before).project.store.graph.unitAt? source.path scope.artifact? = none := by
    rw [hartifact]
    decide +kernel
  have hpasses : (run before).scopes.all (fun scope =>
      ((run before).passes scope {} source).1.toOption.any fun declared =>
        declared.types.map (·.id) = [⟨0⟩, ⟨1⟩]) = true := by decide +kernel
  have hgraph : (graph.types.get? ⟨0⟩).map (·.span) = some (some ⟨1, 8⟩) ∧
      (graph.types.get? ⟨1⟩).map (·.span) = some (some ⟨5, 6⟩) ∧
      (graph.functions.get? ⟨0⟩).map (·.span) = some ⟨3, 7⟩ ∧
      (graph.fields.get? ⟨0⟩).map (·.line) = some 2 ∧
      (graph.accessesFrom ⟨0⟩).map (·.line) = [4] := by decide +kernel
  rw [hs, List.all_cons, Bool.and_eq_true] at hpasses
  obtain ⟨declared, hd, hids⟩ : ∃ declared, ((run before).passes scope {} source).1 = .ok declared ∧
      declared.types.map (·.id) = [⟨0⟩, ⟨1⟩] := by
    have hany := hpasses.1
    cases hr : ((run before).passes scope {} source).1 with
    | error e =>
      rw [hr] at hany
      cases hany
    | ok declared =>
      rw [hr] at hany
      exact ⟨declared, rfl, of_decide_eq_true hany⟩
  refine ⟨scope, declared, ⟨hs, hn⟩, hd, hids, fun type ht => ?_, hgraph⟩
  obtain ⟨-, x, span, hspanned, -⟩ := spanned_run before [] ⟨hs, hn⟩ hd ht
  exact ⟨x, span, hspanned⟩

end Session

end JavaGraph
